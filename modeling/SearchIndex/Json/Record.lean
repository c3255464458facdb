import SearchIndex.Json.Reader

/-!
# Reading the parts of a value

`recordOf` gives the fields of a record that is written as an object or as a list, the other
functions read one part each. They complain in the words of the `Shape` that a text is read against.
-/

namespace SearchIndex.Json

/-- A text. -/
def textOf : Json → Except Error String
  | .str s => .ok s
  | v => .error (Shape.string.refuse v)

/-- A truth value. -/
def booleanOf : Json → Except Error Bool
  | .bool b => .ok b
  | v => .error (Shape.boolean.refuse v)

/-- A list of alike elements. -/
def listOf {α : Type} (element : Json → Except Error α) : Json → Except Error (List α)
  | .arr items => items.mapM element
  | v => .error ((Shape.list .any).refuse v)

/-- The entries of a table of alike values. -/
def entriesOf {α : Type} (entry : Json → Except Error α) :
    List (String × Json) → Except Error (List (String × α))
  | [] => .ok []
  | (k, v) :: rest => do
    let a ← entry v
    let rest ← entriesOf entry rest
    return (k, a) :: rest

/-- A table of alike values. -/
def tableOf {α : Type} (entry : Json → Except Error α) : Json → Except Error (List (String × α))
  | .obj members => entriesOf entry members
  | v => .error ((Shape.object (.table .any)).refuse v)

/-- The fields of a record by name. In a list they stand in the order of `names`. -/
def recordOf (title : String) (names : List String) : Json → Except Error (Table Json)
  | .obj members => .ok members
  | .arr items =>
    if items.length ≤ names.length then .ok (names.zip items)
    else .error (.tooManyElements items.length)
  | v => .error ((Shape.object (.record title [] false)).refuse v)

/-- A field that may be missing or `null`. -/
def optional {α : Type} (fields : Table Json) (name : String) (read : Json → Except Error α) :
    Except Error (Option α) :=
  match Table.get? fields name with
  | none | some .null => .ok none
  | some v => (read v).map some

/-- A field that may be missing. -/
def defaulted {α : Type} (fields : Table Json) (name : String) (value : α)
    (read : Json → Except Error α) : Except Error α :=
  match Table.get? fields name with
  | none => .ok value
  | some v => read v

/-- The members that are there, in order. -/
def present (members : List (String × Option Json)) : List (String × Json) :=
  members.filterMap fun m => m.2.map fun v => (m.1, v)

end SearchIndex.Json
