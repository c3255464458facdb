import SearchIndex.Proofs.Mapping.Children
import SearchIndex.Proofs.Schema.Entries

/-!
# Where a compiled field is found

The search for a key identifier walks a raw document, the compiler the field that was read from it.
`listed_children` is the step on which both agree: every child of a field stands among the entries
of its document, under a trail that is longer by its name. `entry_of_follow?` carries the step along
a path, and `found_at_path` concludes that a field which alone carries its key identifier is found
under the very path at which its compilation stands.
-/

namespace SearchIndex.Mapping

open Schema

/-- Each of the fields was read from a document that stands among entries, as does all that is below
that document, under a trail that is longer by the name of the field. -/
def Listed (l : List (Location × Json)) (trail : List String) (fs : List (String × Field)) : Prop :=
  ∀ name f, Table.get? fs name = some f →
    ∃ v, Field.ofJson v = .ok f ∧ (⟨name, extendTrail trail name⟩, v) ∈ l ∧
      entries (extendTrail trail name) v ⊆ l

/-- What stands among entries stands among more of them. -/
theorem Listed.mono {l l' : List (Location × Json)} {trail : List String}
    {fs : List (String × Field)} (h : Listed l trail fs) (hsub : l ⊆ l') : Listed l' trail fs := by
  intro name f hf
  obtain ⟨v, hv, hmem, hentries⟩ := h name f hf
  exact ⟨v, hv, hsub hmem, fun e he => hsub (hentries he)⟩

theorem listed_nil {l : List (Location × Json)} (trail : List String) : Listed l trail [] := by
  intro name f hf
  simp at hf

/-- The properties of a field are entries of its document. -/
theorem listed_properties {members : List (String × Json)} {f : Field}
    (h : Field.ReadFrom members f) (trail : List String) {fs : List (String × Field)}
    (hfs : f.properties = some fs) : Listed (entries trail (.obj members)) trail fs := by
  intro name g hg
  obtain ⟨properties, hproperties, hread⟩ := h.properties_eq_some hfs
  obtain ⟨v, hv, hvg⟩ := Field.get?_of_entriesOf hread hg
  obtain ⟨hmem, hsub⟩ := mem_entries_of_property trail hproperties hv
  exact ⟨v, hvg, hmem, hsub⟩

/-- The children of a field are entries of its document, however many arrays lie in between. -/
theorem listed_children {v : Json} {f : Field} (hv : Field.ofJson v = .ok f) (trail : List String)
    {fs : List (String × Field)} (hfs : children? f = some fs) :
    Listed (entries trail v) trail fs := by
  induction f using field_induction generalizing v with
  | h f _ ih =>
  obtain ⟨members, rfl, hread⟩ := Field.readFrom_of_ofJson hv
  rcases cases_of_children? hfs with hproperties | ⟨g, hg, hitem⟩ | rfl
  · exact listed_properties hread trail hproperties
  · obtain ⟨w, item, hw, hfirst, hread'⟩ := hread.item hg
    exact (ih g hg hread' hitem).mono (entries_subset_of_item trail hw hfirst)
  · exact listed_nil trail

/-- The fields of an entity are entries of its document; `_source` is not part of their trail. -/
theorem listed_documentFields {v : Json} {root : Field} (hv : Field.ofJson v = .ok root) :
    Listed (entries [] v) [] (documentFields root) := by
  rcases cases_of_documentFields root with hnil | ⟨ps, source, hps, hget, hfs⟩
  · exact hnil ▸ listed_nil []
  · obtain ⟨members, rfl, hread⟩ := Field.readFrom_of_ofJson hv
    obtain ⟨w, hw, -, hsub⟩ := listed_properties hread [] hps sourceName source hget
    obtain ⟨members', rfl, hread'⟩ := Field.readFrom_of_ofJson hw
    exact (listed_properties hread' [] hfs).mono hsub

/-- The field at a path was read from an entry with that path behind the trail. -/
theorem entry_of_follow? {l : List (Location × Json)} {trail : List String}
    {fs : List (String × Field)} (hl : Listed l trail fs) {path : List String} (hne : path ≠ [])
    (hfirst : trail ≠ [] ∨ path.head hne ≠ sourceName) {n : Field}
    (hn : Table.follow? children? fs path = some n) :
    ∃ w, Field.ofJson w = .ok n ∧ (⟨path.getLast hne, trail ++ path⟩, w) ∈ l := by
  induction path generalizing trail fs with
  | nil => exact absurd rfl hne
  | cons name path ih =>
    -- `_source` is only left out where a trail begins
    have htrail : extendTrail trail name = trail ++ [name] := by
      unfold extendTrail
      rw [if_neg]
      rintro ⟨ht, hname⟩
      exact hfirst.elim (fun h => h ht) (fun h => h hname)
    by_cases hp : path = []
    · subst hp
      obtain ⟨w, hw, hmem, -⟩ := hl name n hn
      exact ⟨w, hw, htrail ▸ hmem⟩
    · rw [Table.follow?_cons children? fs name hp, Option.bind_eq_some_iff] at hn
      obtain ⟨fs', hfs', hn⟩ := hn
      obtain ⟨f, hf, hfs'⟩ := Option.bind_eq_some_iff.1 hfs'
      obtain ⟨v, hv, -, hsub⟩ := hl name f hf
      have hl' : Listed l (trail ++ [name]) fs' :=
        htrail ▸ (listed_children hv (extendTrail trail name) hfs').mono hsub
      obtain ⟨w, hw, hmem⟩ := ih hl' hp (.inl (by simp)) hn
      refine ⟨w, hw, ?_⟩
      rw [List.getLast_cons hp]
      simpa using hmem

/-- A document carries the key identifier that the field read from it has. -/
theorem hasKeyId_of_attribute? {w : Json} {n : Field} (hw : Field.ofJson w = .ok n) {id : String}
    (hid : n.attribute? "GUID" = some (.str id)) : hasKeyId id w := by
  obtain ⟨members, rfl, hread⟩ := Field.readFrom_of_ofJson hw
  rw [Field.attribute?, hread.attributes,
    Table.get?_filter (fun name => !Field.structuralNames.contains name)] at hid
  have hget : Table.get? members "GUID" = some (.str id) := by
    simpa [Field.structuralNames] using hid
  simp [hasKeyId, Json.get?, hget, Json.text?]

/-- A field that the compiler visits and that alone carries its key identifier is located under the
path by which the compiler reaches it. -/
theorem locate?_of_follow? {v : Json} {root : Field} (hv : Field.ofJson v = .ok root)
    {path : List String} (hne : path ≠ []) (hfirst : path.head hne ≠ sourceName) {n : Field}
    (hn : Table.follow? children? (documentFields root) path = some n) {id : String}
    (hid : n.attribute? "GUID" = some (.str id)) (hunique : carriers id v ≤ 1) :
    locate? id [] v = some ⟨path.getLast hne, path⟩ := by
  obtain ⟨w, hw, hmem⟩ := entry_of_follow? (listed_documentFields hv) hne (.inr hfirst) hn
  exact locate?_of_unique hmem (hasKeyId_of_attribute? hw hid) hunique

/-- A field of the entity that alone carries its key identifier is found under the path by which the
compiler reaches it, and its compilation stands at that path in the mapping. -/
theorem found_at_path {v : Json} {root : Field} (hv : Field.ofJson v = .ok root)
    {path : List String} (hne : path ≠ []) (hfirst : path.head hne ≠ sourceName) {n : Field}
    (hn : Table.follow? children? (documentFields root) path = some n) {id : String}
    (hid : n.attribute? "GUID" = some (.str id)) (hunique : carriers id v ≤ 1)
    (internal model external : Json) :
    let s : Scopes := ⟨v, internal, model, external⟩
    s.path? id = some (".".intercalate path) ∧ s.names [id] = [path.getLast hne] ∧
      Tree.field? (compileDocument s.resolver root) path = some (compile s.resolver n) := by
  intro s
  have hfound : s.locate? id = some ⟨path.getLast hne, path⟩ := by
    obtain ⟨w, hw, hmem⟩ := entry_of_follow? (listed_documentFields hv) hne (.inr hfirst) hn
    have hlocate := locate?_of_unique hmem (hasKeyId_of_attribute? hw hid) hunique
    rw [Scopes.locate?, List.findSome?_cons, hlocate]
    rfl
  refine ⟨?_, ?_, ?_⟩
  · rw [Scopes.path?, hfound]
    rfl
  · simp [Scopes.names, hfound]
  · rw [field?_compileDocument s.resolver ⟨v, hv⟩, hn]
    rfl

/-- An entity with an array of objects, one property of which carries a key identifier. -/
def taggedEntity : Json :=
  .obj [("properties", .obj [("_source", .obj [("type", .str "object"), ("properties", .obj
    [("tags", .obj [("type", .str "array"), ("items", .arr [.obj
      [("type", .str "object"), ("properties", .obj
        [("label", .obj [("type", .str "string"), ("mode", .str "keyword"),
          ("GUID", .str "b1")])])]])])])])])]

/-- A label is a property of the objects in an array, in the wrapped properties of an entity. -/
theorem found_at_path_label :
    ∃ root n, Field.ofJson taggedEntity = .ok root ∧
      Table.follow? children? (documentFields root) ["tags", "label"] = some n ∧
      n.attribute? "GUID" = some (.str "b1") ∧ carriers "b1" taggedEntity ≤ 1 ∧
      (let s : Scopes := ⟨taggedEntity, .null, .null, .null⟩
      s.path? "b1" = some "tags.label" ∧ s.names ["b1"] = ["label"] ∧
        Tree.field? (compileDocument s.resolver root) ["tags", "label"] =
          some (compile s.resolver n)) := by
  have hpath : ["tags", "label"] ≠ [] := List.cons_ne_nil "tags" ["label"]
  have hfirst : ["tags", "label"].head hpath ≠ sourceName := by
    rw [List.head_cons]
    decide
  have hunique : carriers "b1" taggedEntity ≤ 1 := by decide
  exact ⟨_, _, rfl, rfl, rfl, hunique,
    found_at_path rfl hpath hfirst rfl rfl hunique .null .null .null⟩

end SearchIndex.Mapping
