import SearchIndex.Proofs.Mapping.Alias
import SearchIndex.Proofs.Mapping.Location
import SearchIndex.Proofs.Request.Container

/-!
# Targets of aliases

A search for the target of an alias goes through a whole document, while the compiler leaves out
what does not take part in a mapping, such as all but the first candidate for an element. So the
path of an alias can lead to nothing: `otherCandidate_names_no_field`. It leads to a field iff the
compiler's own walk along the same names leads to one, and then to that field compiled:
`aliases_point`.
-/

namespace SearchIndex.Request

open Mapping Schema

/-- What a request compiles: the fields of its entity document, which has none unless it is an
object. -/
theorem EntityRequest.compileDocument_of_compile {r : EntityRequest} {t : Tree}
    (h : r.compile = .ok t) :
    ∃ s root, r.scopes = .ok s ∧ t = compileDocument s.resolver root ∧
      (Field.ofJson s.entity = .ok root ∨ s.entity.isObject = false ∧ root = .empty) := by
  obtain ⟨s, hs, ht⟩ := Except.bind_eq_ok.1 h
  unfold compileScopes at ht
  split at ht
  · obtain ⟨root, hroot, ht⟩ := Except.bind_eq_ok.1 ht
    exact ⟨s, root, hs, (Except.ok.inj ht).symm, .inl (Except.mapError_eq_ok.1 hroot)⟩
  · next hobject =>
    exact ⟨s, .empty, hs, (Except.ok.inj ht).symm, .inr ⟨Bool.eq_false_iff.2 hobject, rfl⟩⟩

/-- A target that is located in the entity document is found there, whatever the other documents
hold. -/
theorem path?_of_locate? {s : Scopes} {id : String} {l : Location}
    (h : locate? id [] s.entity = some l) : s.path? id = some (".".intercalate l.path) := by
  have hfound : s.locate? id = some l := by
    rw [Scopes.locate?, List.findSome?_cons, h]
  rw [Scopes.path?, hfound]
  rfl

/-- An alias whose target is located in the entity document carries the dotted path of the
target. -/
theorem plain?_path_of_located {s : Scopes} {f a : Field} (hf : f.IsRead) (ha : MapsAsAlias f a)
    {id : String} (hid : aliasTarget? a.path = some id) {l : Location}
    (hl : locate? id [] s.entity = some l) :
    Node.plain? (compile s.resolver f) "path" = some (.str (".".intercalate l.path)) := by
  have hpath := get?_path_of_mapsAsAlias s.resolver hf ha
  have hfound : (s.resolver.path? id : Option String) = some (".".intercalate l.path) :=
    path?_of_locate? hl
  rw [hid, Option.bind_some, hfound, Option.map_some] at hpath
  rw [Node.plain?, hpath]

/-- How the aliases of a tree point to their targets in the entity document. -/
structure AliasesPoint (s : Scopes) (root : Field) (t : Tree) : Prop where
  /-- Every alias of the tree comes from an alias of the schema. -/
  origin : ∀ position n, Tree.field? t position = some n → n.type? = some "alias" →
    ∃ f a, Table.follow? children? (documentFields root) position = some f ∧ MapsAsAlias f a
  /-- An alias whose target is located has a path. The path leads to a field of the tree iff the
  compiler's walk along its names leads to a field of the schema, and then to that field
  compiled. -/
  target : ∀ position f a id l,
    Table.follow? children? (documentFields root) position = some f → MapsAsAlias f a →
    aliasTarget? a.path = some id → locate? id [] s.entity = some l →
    ∃ n, Tree.field? t position = some n ∧
      n.plain? "path" = some (.str (".".intercalate l.path)) ∧
      Tree.field? t l.path =
        (Table.follow? children? (documentFields root) l.path).map (compile s.resolver)
  /-- A field that the compiler visits and that alone carries its key identifier is located where
  the compiler's walk leads to it. -/
  visited : ∀ names g id, (hne : names ≠ []) → names.head hne ≠ sourceName →
    Table.follow? children? (documentFields root) names = some g →
    g.attribute? "GUID" = some (.str id) → carriers id s.entity ≤ 1 →
    locate? id [] s.entity = some ⟨names.getLast hne, names⟩

/-- The aliases of a compiled request point to their targets. -/
theorem aliases_point {r : EntityRequest} {t : Tree} (h : r.compile = .ok t) :
    ∃ s root, r.scopes = .ok s ∧
      (Field.ofJson s.entity = .ok root ∨ s.entity.isObject = false ∧ root = .empty) ∧
      AliasesPoint s root t := by
  obtain ⟨s, root, hs, rfl, hroot⟩ := EntityRequest.compileDocument_of_compile h
  have hread : root.IsRead := by
    rcases hroot with hroot | ⟨-, rfl⟩
    · exact ⟨s.entity, hroot⟩
    · exact ⟨.obj [], rfl⟩
  refine ⟨s, root, hs, hroot, ?_, ?_, ?_⟩
  · intro position n hn htype
    rw [field?_compileDocument s.resolver hread, Option.map_eq_some_iff] at hn
    obtain ⟨f, hf, rfl⟩ := hn
    obtain ⟨a, ha⟩ := mapsAsAlias_of_type s.resolver (isRead_of_follow? hread hf)
      (Node.type?_eq_some_iff.1 htype)
    exact ⟨f, a, hf, ha⟩
  · intro position f a id l hf ha hid hl
    have hn : Tree.field? (compileDocument s.resolver root) position =
        some (compile s.resolver f) := by
      rw [field?_compileDocument s.resolver hread, hf]
      rfl
    exact ⟨compile s.resolver f, hn, plain?_path_of_located (isRead_of_follow? hread hf) ha hid hl,
      field?_compileDocument s.resolver hread l.path⟩
  · intro names g id hne hfirst hg hid hunique
    rcases hroot with hroot | ⟨-, rfl⟩
    · exact locate?_of_follow? hroot hne hfirst hg hid hunique
    · -- a document that is no object has no fields to visit
      obtain ⟨name, rest, rfl⟩ := List.exists_cons_of_ne_nil hne
      cases rest <;> exact nomatch hg

/-- An entity with an array, for whose element there are two candidates, and an alias to a property
of one of them: `"f"` is in the first candidate, `"g"` in the second one. -/
def candidatesEntity (target : String) : Json :=
  .obj [("properties", .obj [("_source", .obj [("type", .str "object"), ("properties", .obj
    [("tags", .obj [("type", .str "array"), ("items", .arr
      [.obj [("type", .str "object"), ("properties", .obj
        [("name", .obj [("GUID", .str "f"), ("type", .str "string")])])],
       .obj [("type", .str "object"), ("properties", .obj
        [("label", .obj [("GUID", .str "g"), ("type", .str "string")])])]])]),
     ("tag", .obj [("type", .str "alias"), ("path", .arr [.obj [("keyId", .str target)]])])])])])]

/-- A request for the entity alone. -/
def candidatesRequest (target : String) : EntityRequest :=
  ⟨candidatesEntity target, .null, .null, .null, .unnamed, .unnamed, .unset, false⟩

/-- An alias to a property of the first candidate has the path of a field. -/
theorem aliases_point_candidates :
    ∃ t, (candidatesRequest "f").compile = .ok t ∧
      (∃ s root, (candidatesRequest "f").scopes = .ok s ∧
        (Field.ofJson s.entity = .ok root ∨ s.entity.isObject = false ∧ root = .empty) ∧
        AliasesPoint s root t) ∧
      (∃ n, Tree.field? t ["tag"] = some n ∧ n.type? = some "alias" ∧
        n.plain? "path" = some (.str "tags.name")) ∧
      (Tree.field? t ["tags", "name"]).isSome :=
  ⟨_, rfl, aliases_point rfl, ⟨_, rfl, rfl, rfl⟩, rfl⟩

/-- Every alias whose target is located below `_source` of the entity document has a path that leads
to a field of the tree. -/
def EntityRequest.AliasesNameFields (r : EntityRequest) : Prop :=
  ∀ t s root source, r.compile = .ok t → r.scopes = .ok s → Field.ofJson s.entity = .ok root →
    ((s.entity.get? "properties").bind fun ps => ps.get? sourceName) = some source →
    ∀ position f a id l,
      Table.follow? children? (documentFields root) position = some f → MapsAsAlias f a →
      aliasTarget? a.path = some id → locate? id [] source = some l →
      locate? id [] s.entity = some l →
      ∃ n, Tree.field? t position = some n ∧
        n.plain? "path" = some (.str (".".intercalate l.path)) ∧ (Tree.field? t l.path).isSome

/-- Only the first candidate for an element takes part in the mapping, but a search goes through all
of them. -/
theorem otherCandidate_names_no_field : ¬ (candidatesRequest "g").AliasesNameFields := by
  intro h
  obtain ⟨n, -, -, hsome⟩ := h _ _ _ _ rfl rfl rfl rfl ["tag"] _ _ "g" ⟨"label", ["tags", "label"]⟩
    rfl (.self rfl) rfl rfl rfl
  exact nomatch hsome

end SearchIndex.Request
