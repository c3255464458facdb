import SearchIndex.Proofs.Json.ReadBack
import SearchIndex.Proofs.Schema.Reading

/-!
# Fields are read back

A reference, a child and a relation are read back whatever they hold. A field is read back if some
document reads as it, and then some document reads as each of its properties and candidates: the
induction follows the writer down the field. What makes it go through is that no attribute has a
typed key (`IsRead.attributes`), so that every key of the written object is read as what it was
written for (`IsRead.ofJson_toJson_of_parts`).
-/

namespace SearchIndex.Schema

open Json (ReadsBack)

/-! ## References and relations -/

/-- A reference is read back. -/
theorem Reference.ofJson_toJson (r : Reference) : Reference.ofJson r.toJson = .ok r := by
  obtain ⟨_ | keyId⟩ := r <;> rfl

/-- A child is read back. -/
theorem Child.ofJson_toJson (c : Child) : Child.ofJson c.toJson = .ok c := by
  obtain ⟨_ | name⟩ := c <;> rfl

/-- A relation is read back. -/
theorem Relation.ofJson_toJson (r : Relation) : Relation.ofJson r.toJson = .ok r := by
  obtain ⟨parent, children⟩ := r
  let members := Json.present [("parent", parent.map .str),
    ("children", children.map fun cs => .arr (cs.map Child.toJson))]
  have hparent : Json.optional members "parent" Json.textOf = .ok parent :=
    Json.optional_textOf_of_written (by simp [members])
  have hchildren : Json.optional members "children" (Json.listOf Child.ofJson) = .ok children :=
    Json.optional_of_written (fun cs => .arr (cs.map Child.toJson)) (by simp [members])
      fun cs _ => ⟨Json.noConfusion, Json.listOf_of_written fun c _ => c.ofJson_toJson⟩
  exact Except.bind_eq_ok.2 ⟨members, rfl, Except.bind_eq_ok.2 ⟨parent, hparent,
    Except.bind_eq_ok.2 ⟨children, hchildren, rfl⟩⟩⟩

/-- A lenient list is read back if its elements are. -/
theorem lenient_listOf_of_written {α : Type} {read : Json → Except Json.Error α} {write : α → Json}
    (h : ∀ a, read (write a) = .ok a) (as : List α) :
    Field.lenient (Json.listOf read) (.arr (as.map write)) = some as := by
  rw [Field.lenient, Json.listOf_of_written fun a _ => h a]
  rfl

namespace Field

/-! ## What a written field is read as -/

/-- Keys that are not typed are read as attributes. -/
theorem ofMembers_of_untyped {attributes : List (String × Json)}
    (h : ∀ e ∈ attributes, e.1 ∉ structuralNames) :
    ofMembers attributes = .ok { empty with attributes } := by
  induction attributes with
  | nil => rfl
  | cons e rest ih =>
    obtain ⟨name, v⟩ := e
    obtain ⟨hname, hrest⟩ := List.forall_mem_cons.1 h
    rw [ofMembers_attribute v rest hname, ih hrest]
    rfl

/-- A typed key in front of keys that are read: one that is written sets its part, one that is not
leaves it empty. -/
theorem ofMembers_present_cons {α : Type} {ms : List (String × Option Json)}
    {rest : List (String × Json)} (name : String) (o : Option α) (write : α → Json)
    (set : Option α → Field) (hrest : ofMembers (Json.present ms ++ rest) = .ok (set none))
    (hsome : ∀ a, o = some a → ∀ members, ofMembers members = .ok (set none) →
      ofMembers ((name, write a) :: members) = .ok (set (some a))) :
    ofMembers (Json.present ((name, o.map write) :: ms) ++ rest) = .ok (set o) := by
  cases o with
  | none => exact hrest
  | some a => exact hsome a rfl _ hrest

/-- The typed keys of a field as they are written, in order. -/
def writtenParts (f : Field) : List (String × Option Json) :=
  [("type", f.tag.map fun tag => .str tag.name), ("mode", f.mode.map .str),
   ("properties", f.properties.map fun fs => .obj (entriesToJson fs)),
   ("items", f.items.map itemsToJson),
   ("path", f.path.map fun rs => .arr (rs.map Reference.toJson)),
   ("relations", f.relations.map fun rs => .arr (rs.map Relation.toJson))]

/-- A field is written as the object of its typed keys that are there and its attributes. -/
theorem toJson_eq (f : Field) :
    toJson f = .obj (Json.present f.writtenParts ++ f.attributes) := by
  obtain ⟨tag, mode, properties, items, path, relations, attributes⟩ := f
  cases properties <;> cases items <;> rfl

/-- A field that was read is read back if its properties and its candidates are. -/
theorem IsRead.ofJson_toJson_of_parts {f : Field} (h : IsRead f)
    (hproperties : ∀ fs, f.properties = some fs → entriesOf (entriesToJson fs) = .ok fs)
    (hitems : ∀ items, f.items = some items → itemsOf (itemsToJson items) = some items) :
    ofJson (toJson f) = .ok f := by
  rw [toJson_eq, ofJson]
  obtain ⟨tag, mode, properties, items, path, relations, attributes⟩ := f
  -- key by key, from the last one on
  have hattributes : ofMembers (Json.present [] ++ attributes) = .ok { empty with attributes } :=
    ofMembers_of_untyped h.attributes
  have hrelations := ofMembers_present_cons "relations" relations
    (fun rs => .arr (rs.map Relation.toJson))
    (fun relations => { empty with relations, attributes }) hattributes fun rs _ members hrest => by
      rw [ofMembers_relations, hrest, lenient_listOf_of_written Relation.ofJson_toJson]
      rfl
  have hpath := ofMembers_present_cons "path" path (fun rs => .arr (rs.map Reference.toJson))
    (fun path => { empty with path, relations, attributes }) hrelations fun rs _ members hrest => by
      rw [ofMembers_path, hrest, lenient_listOf_of_written Reference.ofJson_toJson]
      rfl
  have hitems := ofMembers_present_cons "items" items itemsToJson
    (fun items => { empty with items, path, relations, attributes }) hpath
    fun items hsome members hrest => by
      rw [ofMembers_items, hrest, hitems items hsome]
      rfl
  have hproperties := ofMembers_present_cons "properties" properties
    (fun fs => .obj (entriesToJson fs))
    (fun properties => { empty with properties, items, path, relations, attributes }) hitems
    fun fs hsome members hrest => by
      rw [ofMembers_properties, hrest, propertiesOf, hproperties fs hsome]
      rfl
  have hmode := ofMembers_present_cons "mode" mode .str
    (fun mode => { empty with mode, properties, items, path, relations, attributes }) hproperties
    fun mode _ members hrest => by
      rw [ofMembers_mode, hrest]
      rfl
  exact ofMembers_present_cons "type" tag (fun tag => .str tag.name)
    (fun tag => { tag, mode, properties, items, path, relations, attributes }) hmode
    fun tag hsome members hrest => by
      rw [ofMembers_type, hrest, tagOf, h.tag hsome]
      rfl

/-! ## The whole field -/

mutual

/-- A field that was read is read back. -/
theorem ofJson_toJson (f : Field) (h : IsRead f) : ofJson (toJson f) = .ok f := by
  obtain ⟨tag, mode, properties, items, path, relations, attributes⟩ := f
  refine h.ofJson_toJson_of_parts ?_ ?_
  · intro fs hfs
    cases properties with
    | none => exact nomatch hfs
    | some properties =>
      obtain rfl := Option.some.inj hfs
      exact entriesOf_entriesToJson properties (h.properties rfl)
  · intro items' hitems
    cases items with
    | none => exact nomatch hitems
    | some items =>
      obtain rfl := Option.some.inj hitems
      exact itemsOf_itemsToJson items (h.items rfl)

/-- Fields by name that were read are read back. -/
theorem entriesOf_entriesToJson (fs : List (String × Field)) (h : ∀ e ∈ fs, IsRead e.2) :
    entriesOf (entriesToJson fs) = .ok fs := by
  cases fs with
  | nil => rfl
  | cons e rest =>
    obtain ⟨name, f⟩ := e
    obtain ⟨hf, hrest⟩ := List.forall_mem_cons.1 h
    rw [entriesToJson, entriesOf, ofJson_toJson f hf, entriesOf_entriesToJson rest hrest]
    rfl

/-- Items that were read are read back. -/
theorem itemsOf_itemsToJson (items : Items) (h : ∀ f ∈ items.fields, IsRead f) :
    itemsOf (itemsToJson items) = some items := by
  cases items with
  | one f =>
    have hf := ofJson_toJson f (h f List.mem_cons_self)
    rw [toJson_eq] at hf
    rw [itemsToJson, toJson_eq, itemsOf_obj, hf]
    rfl
  | candidates fs =>
    rw [itemsToJson, itemsOf, candidatesOf_candidatesToJson fs h]
    rfl

/-- Candidates that were read are read back. -/
theorem candidatesOf_candidatesToJson (fs : List Field) (h : ∀ f ∈ fs, IsRead f) :
    candidatesOf (candidatesToJson fs) = some fs := by
  cases fs with
  | nil => rfl
  | cons f rest =>
    obtain ⟨hf, hrest⟩ := List.forall_mem_cons.1 h
    rw [candidatesToJson, candidatesOf, ofJson_toJson f hf,
      candidatesOf_candidatesToJson rest hrest]

end

/-- Whatever document reads as a field, the field is read back. -/
theorem readsBack : ReadsBack ofJson toJson := fun v f hf => ofJson_toJson f ⟨v, hf⟩

end Field

end SearchIndex.Schema
