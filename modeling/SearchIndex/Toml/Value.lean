import SearchIndex.Table

/-!
# TOML values

A table remembers how it came about, since that decides what may still be added to it: `update`
walks down a path of keys and refuses to enter a value, an inline table, or, by a dotted key, a
table that a header has defined.
-/

namespace SearchIndex.Toml

/-- How a table came about. -/
inductive Origin where
  /-- Written as a value. -/
  | inline
  /-- On the way to a table with a header. -/
  | implicit
  /-- By a dotted key. -/
  | dotted
  /-- By a header of its own. -/
  | header
deriving DecidableEq, Repr

/-- A value. Truth values, fractions, times and what is no integer but spelled like one are kept as
they are spelled. -/
inductive Value where
  | string (text : String)
  | integer (value : Int)
  | literal (text : String)
  | array (ofTables : Bool) (items : List Value)
  | table (origin : Origin) (entries : List (String × Value))

instance : Inhabited Value := ⟨.literal ""⟩

/-- The contents of a table. -/
abbrev Entries := Table Value

/-- A key that may be a path. -/
abbrev Path := List String

/-- Changes the table at the end of a path; missing tables on the way are made. -/
def update (dotted : Bool) (change : Entries → Option Entries) : Path → Entries → Option Entries
  | [], entries => change entries
  | key :: path, entries => do
    let v ←
      match Table.get? entries key with
      | none => (update dotted change path []).map (.table (if dotted then .dotted else .implicit))
      | some (.array true items) =>
        match items.getLast? with
        | some (.table origin inner) =>
          (update dotted change path inner).map fun inner =>
            .array true (items.dropLast ++ [.table origin inner])
        | _ => none
      | some (.table origin inner) =>
        if origin = .inline ∨ (dotted ∧ origin = .header) then none
        else (update dotted change path inner).map (.table origin)
      | some _ => none
    return Table.insert entries key v

/-- Adds a value under a key that is not there yet. -/
def addValue (key : String) (v : Value) (entries : Entries) : Option Entries :=
  if (Table.get? entries key).isSome then none else some (Table.insert entries key v)

/-- Defines a table by its header. -/
def addTable (key : String) (entries : Entries) : Option Entries :=
  match Table.get? entries key with
  | none => some (Table.insert entries key (.table .header []))
  | some (.table .implicit inner) => some (Table.insert entries key (.table .header inner))
  | some _ => none

/-- Adds a table to an array of tables. -/
def addElement (key : String) (entries : Entries) : Option Entries :=
  match Table.get? entries key with
  | none => some (Table.insert entries key (.array true [.table .header []]))
  | some (.array true items) =>
    some (Table.insert entries key (.array true (items ++ [.table .header []])))
  | some _ => none

/-- Adds a value under a path of keys. -/
def assign (path : Path) (v : Value) (entries : Entries) : Option Entries :=
  match path.getLast? with
  | some key => update true (addValue key v) path.dropLast entries
  | none => none

end SearchIndex.Toml
