import SearchIndex.Proofs.Schema.Entries

/-!
# Looking up key identifiers

`entries` is written along the recursion of a search. Read as one equation, `entries_eq`, it lists
the properties of a node, each followed by what is below it, then the definitions in the same way,
and then what is below the candidates for an element.

A key identifier is looked up in the lists of the four scopes, one after another: `looksUp` says
which field is located, and `search_is_lookup` collects what holds of searches and scopes.
-/

namespace SearchIndex.Schema

/-! ## The list as one equation -/

/-- The members of the object under a name; none without such an object. -/
def membersAt (v : Json) (name : String) : Table Json := ((v.get? name).bind Json.members?).getD []

/-- The candidates for an element: what a list under `items` has, or what stands there itself. -/
def candidates (v : Json) : List Json :=
  match v.get? "items" with
  | some (.arr candidates) => candidates
  | some item => [item]
  | none => []

/-- A property and what is below it. -/
def withProperty (trail : List String) (e : String × Json) : List (Location × Json) :=
  (⟨e.1, extendTrail trail e.1⟩, e.2) :: entries (extendTrail trail e.1) e.2

/-- A definition and what is below it. -/
def withDefinition (e : String × Json) : List (Location × Json) :=
  (⟨e.1, [e.1]⟩, e.2) :: entries [] e.2

/-- Properties are listed one by one, each with what is below it. -/
theorem propertyEntriesOf_eq (trail : List String) (properties : Table Json) :
    propertyEntriesOf trail properties = properties.flatMap (withProperty trail) := by
  induction properties with
  | nil => rfl
  | cons e rest ih =>
    rw [propertyEntriesOf, ih]
    rfl

/-- Definitions are listed one by one, each with what is below it. -/
theorem definitionEntriesOf_eq (definitions : Table Json) :
    definitionEntriesOf definitions = definitions.flatMap withDefinition := by
  induction definitions with
  | nil => rfl
  | cons e rest ih =>
    rw [definitionEntriesOf, ih]
    rfl

/-- Candidates are listed one by one. -/
theorem candidateEntries_eq (trail : List String) (vs : List Json) :
    candidateEntries trail vs = vs.flatMap (entries trail) := by
  induction vs with
  | nil => rfl
  | cons v rest ih => rw [candidateEntries, ih, List.flatMap_cons]

/-- What goes through members up to a key depends on the value under that key only. -/
theorem scan_eq {α : Type} {f : Table Json → α} {g : Json → α} (key : String)
    (h : ∀ name v rest, f ((name, v) :: rest) = if name = key then g v else f rest)
    (members : Table Json) : f members = ((Table.get? members key).map g).getD (f []) := by
  induction members with
  | nil => rfl
  | cons m rest ih =>
    obtain ⟨name, v⟩ := m
    by_cases hname : name = key <;> simp [h, Table.get?, hname, ih]

/-- The properties of a node are listed from the object under that key. -/
theorem propertyEntries_eq_flatMap (trail : List String) (members : Table Json) :
    propertyEntries trail members =
      (membersAt (.obj members) "properties").flatMap (withProperty trail) := by
  have hscan := scan_eq "properties" (f := propertyEntries trail)
    (g := fun v => (v.members?.getD []).flatMap (withProperty trail)) fun name v rest => by
      cases v <;> simp [propertyEntries, propertyEntriesOf_eq, Json.members?]
  rw [hscan, membersAt, Json.get?]
  cases Table.get? members "properties" <;> rfl

/-- The definitions of a node are listed from the object under that key. -/
theorem definitionEntries_eq_flatMap (members : Table Json) :
    definitionEntries members =
      (membersAt (.obj members) "definitions").flatMap withDefinition := by
  have hscan := scan_eq "definitions" (f := definitionEntries)
    (g := fun v => (v.members?.getD []).flatMap withDefinition) fun name v rest => by
      cases v <;> simp [definitionEntries, definitionEntriesOf_eq, Json.members?]
  rw [hscan, membersAt, Json.get?]
  cases Table.get? members "definitions" <;> rfl

/-- The items of a node are listed from its candidates. -/
theorem itemEntries_eq_flatMap (trail : List String) (members : Table Json) :
    itemEntries trail members = (candidates (.obj members)).flatMap (entries trail) := by
  have hscan := scan_eq "items" (f := itemEntries trail)
    (g := fun v => (v.items?.getD [v]).flatMap (entries trail)) fun name v rest => by
      cases v <;> simp [itemEntries, candidateEntries_eq, Json.items?]
  rw [hscan, candidates, Json.get?]
  cases Table.get? members "items" with
  | none => rfl
  | some v => cases v <;> rfl

/-- The fields below a node: its properties, its definitions and what its items have. -/
theorem entries_eq (trail : List String) (v : Json) :
    entries trail v =
      (membersAt v "properties").flatMap (withProperty trail) ++
        (membersAt v "definitions").flatMap withDefinition ++
        (candidates v).flatMap (entries trail) := by
  cases v with
  | obj members =>
    rw [entries, propertyEntries_eq_flatMap, definitionEntries_eq_flatMap, itemEntries_eq_flatMap]
  | _ => rfl

/-! ## Lookup -/

/-- A value carries a key identifier iff it is the text under `GUID`. -/
theorem hasKeyId_iff {id : String} {v : Json} :
    hasKeyId id v ↔ v.get? "GUID" = some (.str id) := by
  have htext : ∀ w : Json, w.text? = some id ↔ w = .str id := by
    intro w
    cases w <;> simp [Json.text?]
  rw [hasKeyId, beq_iff_eq, Option.bind_eq_some_iff]
  simp only [htext, exists_eq_right]

/-- The place of an entry is that of the first one to carry the key identifier iff none in front of
it does. -/
theorem firstCarrying_eq_some_iff {id : String} {l : Location} {all : List (Location × Json)} :
    firstCarrying id all = some l ↔ ∃ front v rest, all = front ++ (l, v) :: rest ∧
      v.get? "GUID" = some (.str id) ∧ ∀ e ∈ front, e.2.get? "GUID" ≠ some (.str id) := by
  simp only [firstCarrying, Option.map_eq_some_iff, List.find?_eq_some_iff_append, ne_eq,
    ← hasKeyId_iff]
  simp only [Bool.not_eq_true', Bool.not_eq_true]
  constructor
  · rintro ⟨⟨l, v⟩, ⟨hv, front, rest, hall, hfront⟩, rfl⟩
    exact ⟨front, v, rest, hall, hv, hfront⟩
  · rintro ⟨front, v, rest, hall, hv, hfront⟩
    exact ⟨(l, v), ⟨hv, front, rest, hall, hfront⟩, rfl⟩

/-- Nothing is found iff no field carries the identifier. -/
theorem firstCarrying_eq_none_iff {id : String} {all : List (Location × Json)} :
    firstCarrying id all = none ↔ ∀ e ∈ all, e.2.get? "GUID" ≠ some (.str id) := by
  simp only [firstCarrying, Option.map_eq_none_iff, List.find?_eq_none, ne_eq, ← hasKeyId_iff]

namespace Scopes

/-- The fields of the scopes in the order of a search. -/
def entries (s : Scopes) : List (Location × Json) :=
  [s.entity, s.internal, s.model, s.external].flatMap (Schema.entries [])

/-- The scopes are searched like one list. -/
theorem locate?_eq (s : Scopes) (id : String) : s.locate? id = firstCarrying id s.entries := by
  have hscope : Schema.locate? id [] = fun v => firstCarrying id (Schema.entries [] v) :=
    funext (Schema.locate?_eq id [])
  rw [locate?, hscope, entries, firstCarrying, List.find?_flatMap, List.map_findSome?]
  rfl

/-- What a key identifier is resolved to. -/
structure LooksUp (s : Scopes) (id : String) : Prop where
  /-- Located is the first field that carries the identifier. -/
  located_iff : ∀ l, s.locate? id = some l ↔ ∃ front v rest, s.entries = front ++ (l, v) :: rest ∧
    v.get? "GUID" = some (.str id) ∧ ∀ e ∈ front, e.2.get? "GUID" ≠ some (.str id)
  /-- Nothing is located iff no field carries the identifier. -/
  missing_iff : s.locate? id = none ↔ ∀ e ∈ s.entries, e.2.get? "GUID" ≠ some (.str id)
  /-- The path has the names on the way to the field, with dots between them. -/
  path_eq : s.path? id = (firstCarrying id s.entries).map fun l => ".".intercalate l.path

/-- An identifier is looked up in the scopes, one after another. -/
theorem looksUp (s : Scopes) (id : String) : s.LooksUp id where
  located_iff := fun _ => by rw [s.locate?_eq, firstCarrying_eq_some_iff]
  missing_iff := by rw [s.locate?_eq, firstCarrying_eq_none_iff]
  path_eq := by rw [path?, s.locate?_eq]

end Scopes

/-- A search is a lookup in the list of the fields below a node. -/
theorem search_is_lookup :
    (∀ id trail v, (search id v).run trail = (firstCarrying id (entries trail v), trail)) ∧
    (∀ trail v, entries trail v =
      (membersAt v "properties").flatMap (withProperty trail) ++
        (membersAt v "definitions").flatMap withDefinition ++
        (candidates v).flatMap (entries trail)) ∧
    (∀ (s : Scopes) id, s.LooksUp id) ∧
      ∀ (s : Scopes) ids, s.names ids =
        ids.filterMap fun id => (firstCarrying id s.entries).map Location.name := by
  refine ⟨search_finds, entries_eq, Scopes.looksUp, fun s ids => ?_⟩
  simp only [Scopes.names, Scopes.locate?_eq]

end SearchIndex.Schema
