import SearchIndex.Proofs.Json.Scalars
import SearchIndex.Proofs.Table

/-!
# What stands in a text

`Spells` is the grammar of documents, apart from the reader: it relates a value to the ways to write
it. The members of an object are those of the text, one by one, so a name may stand twice in such a
value. `collapse` is what is left of it when each name keeps its first place and its last value.

`Holds` relates a whole text to the value that stands in it, and `KeysOnce` says of a text that none
of its objects repeats a key.
-/

namespace SearchIndex.Json

/-! ## The grammar -/

/-- There are only blanks between two parts of a document. -/
def AreBlank (cs : List Char) : Prop := ∀ c ∈ cs, isBlank c

theorem areBlank_nil : AreBlank [] := List.forall_mem_nil _

/-- Blanks behind blanks are blanks. -/
theorem AreBlank.append {cs ds : List Char} (h : AreBlank cs) (h' : AreBlank ds) :
    AreBlank (cs ++ ds) :=
  List.forall_mem_append.2 ⟨h, h'⟩

theorem areBlank_singleton {c : Char} (h : isBlank c) : AreBlank [c] :=
  List.forall_mem_singleton.2 h

section Parts

variable {α : Type} (Part : α → List Char → Prop)

/-- Parts with blanks around them and commas between them. There is at least one part. -/
inductive Separated : List α → List Char → Prop
  | one {a : α} {b cs b' : List Char} (hb : AreBlank b) (h : Part a cs) (hb' : AreBlank b') :
      Separated [a] (b ++ (cs ++ b'))
  | more {as : List α} {front : List Char} (hfront : Separated as front) {a : α}
      {b cs b' : List Char} (hb : AreBlank b) (h : Part a cs) (hb' : AreBlank b') :
      Separated (as ++ [a]) (front ++ ',' :: (b ++ (cs ++ b')))

/-- What stands before a part: nothing, or other parts and a comma. -/
inductive Leads : List α → List Char → Prop
  | first : Leads [] []
  | next {as : List α} {front : List Char} (h : Separated Part as front) : Leads as (front ++ [','])

variable {Part}

/-- One more part behind those that lead up to it. -/
theorem Leads.separated {as : List α} {front : List Char} (hfront : Leads Part as front) {a : α}
    {b cs b' : List Char} (hb : AreBlank b) (h : Part a cs) (hb' : AreBlank b') :
    Separated Part (as ++ [a]) (front ++ (b ++ (cs ++ b'))) := by
  cases hfront with
  | first =>
    rw [List.nil_append, List.nil_append]
    exact .one hb h hb'
  | next hfront =>
    rw [List.append_assoc, List.singleton_append]
    exact .more hfront hb h hb'

/-- Blanks may be put behind the last part. -/
theorem Separated.blanks {as : List α} {cs : List Char} (h : Separated Part as cs) {ds : List Char}
    (hds : AreBlank ds) : Separated Part as (cs ++ ds) := by
  cases h with
  | one hb h hb' =>
    rw [List.append_assoc, List.append_assoc]
    exact .one hb h (hb'.append hds)
  | more hfront hb h hb' =>
    rw [List.append_assoc, List.cons_append, List.append_assoc, List.append_assoc]
    exact .more hfront hb h (hb'.append hds)

/-- There is at least one part. -/
theorem Separated.ne_nil {as : List α} {cs : List Char} (h : Separated Part as cs) : as ≠ [] := by
  cases h with
  | one => exact List.cons_ne_nil _ _
  | more => exact List.concat_ne_nil _ _

/-- In front of the first part there is nothing. -/
theorem Leads.eq_nil {front : List Char} (h : Leads Part [] front) : front = [] := by
  cases h with
  | first => rfl
  | next h => exact absurd rfl h.ne_nil

end Parts

/-- A name in quotes, a colon and a value. -/
inductive Named (Part : Json → List Char → Prop) : String × Json → List Char → Prop
  | intro {name : String} {v : Json} {key b b' cs : List Char} (hkey : Literal.Stands key name)
      (hb : AreBlank b) (hb' : AreBlank b') (h : Part v cs) :
      Named Part (name, v) ('"' :: (key ++ '"' :: (b ++ ':' :: (b' ++ cs))))

/-- The characters are the value, written in one way or another. -/
inductive Spells : Json → List Char → Prop
  | null : Spells .null ['n', 'u', 'l', 'l']
  | true : Spells (.bool true) ['t', 'r', 'u', 'e']
  | false : Spells (.bool false) ['f', 'a', 'l', 's', 'e']
  | num {n : Number} {negative : Bool} {cs : List Char} (h : Numeral.Stands negative cs n) :
      Spells (.num n) (Numeral.signed negative cs)
  | str {s : String} {cs : List Char} (h : Literal.Stands cs s) :
      Spells (.str s) ('"' :: (cs ++ ['"']))
  | emptyArr {b : List Char} (hb : AreBlank b) : Spells (.arr []) ('[' :: (b ++ [']']))
  | arr {vs : List Json} {cs : List Char} (h : Separated Spells vs cs) :
      Spells (.arr vs) ('[' :: (cs ++ [']']))
  | emptyObj {b : List Char} (hb : AreBlank b) : Spells (.obj []) ('\x7b' :: (b ++ ['\x7d']))
  | obj {ms : List (String × Json)} {cs : List Char} (h : Separated (Named Spells) ms cs) :
      Spells (.obj ms) ('\x7b' :: (cs ++ ['\x7d']))

/-! ## Names that stand twice -/

mutual

/-- The value in which each name of an object has its first place and its last value. -/
def collapse : Json → Json
  | .arr vs => .arr (collapseItems vs)
  | .obj ms => .obj (Table.ofList (collapseMembers ms))
  | v => v

/-- The items, each without repeated names. -/
def collapseItems : List Json → List Json
  | [] => []
  | v :: vs => collapse v :: collapseItems vs

/-- The members as they stand, the value of each without repeated names. -/
def collapseMembers : List (String × Json) → List (String × Json)
  | [] => []
  | (name, v) :: ms => (name, collapse v) :: collapseMembers ms

end

/-- The values of a list are collapsed one by one. -/
theorem collapseItems_eq (vs : List Json) : collapseItems vs = vs.map collapse := by
  induction vs with
  | nil => rfl
  | cons v vs ih => rw [collapseItems, ih, List.map_cons]

/-- The values of members are collapsed one by one, and the names stay. -/
theorem collapseMembers_eq (ms : List (String × Json)) :
    collapseMembers ms = ms.map fun m => (m.1, m.2.collapse) := by
  induction ms with
  | nil => rfl
  | cons m ms ih => rw [collapseMembers, ih, List.map_cons]

theorem names_collapseMembers (ms : List (String × Json)) :
    Table.names (collapseMembers ms) = Table.names ms := by
  rw [collapseMembers_eq]
  exact List.map_map

/-- What is written for one more member. -/
theorem ofList_collapseMembers_concat (ms : List (String × Json)) (name : String) (v : Json) :
    Table.ofList (collapseMembers (ms ++ [(name, v)])) =
      Table.insert (Table.ofList (collapseMembers ms)) name v.collapse := by
  rw [collapseMembers_eq, collapseMembers_eq, List.map_append]
  exact Table.extend_append [] _ _

/-- Nothing changes where no name stands twice. -/
theorem collapse_of_distinct {v : Json} (h : v.Distinct) : v.collapse = v := by
  induction v using value_induction with
  | h v hitems hmembers =>
  cases v with
  | arr vs =>
    rw [collapse, collapseItems_eq]
    have hvs : ∀ w ∈ vs, w.collapse = w := fun w hw => hitems vs rfl w hw (h.items w hw)
    rw [List.map_congr_left hvs, List.map_id']
  | obj ms =>
    obtain ⟨hnames, hvalues⟩ := distinct_obj.1 h
    have hms : ∀ m ∈ ms, (m.1, m.2.collapse) = m := fun m hm =>
      Prod.ext rfl (hmembers ms rfl m hm (hvalues m hm))
    rw [collapse, collapseMembers_eq, List.map_congr_left hms, List.map_id',
      Table.ofList_of_distinct hnames]
  | _ => rfl

/-- Nothing changes in a value that is neither list nor object. -/
theorem collapse_of_scalar {v : Json} (hitems : v.items? = none) (hmembers : v.members? = none) :
    v.collapse = v :=
  collapse_of_distinct (distinct_leaf hitems hmembers)

/-! ## Texts -/

/-- The value stands in the text, with blanks around it, and is nested no deeper than a text may
be. -/
structure Holds (text : String) (v : Json) : Prop where
  depth_le : v.depth ≤ maxDepth
  spelled : ∃ b cs b', AreBlank b ∧ Spells v cs ∧ AreBlank b' ∧ text.toList = b ++ (cs ++ b')

/-- No object in the text repeats a key. -/
def KeysOnce (text : String) : Prop := ∃ v, Holds text v ∧ v.Distinct

end SearchIndex.Json
