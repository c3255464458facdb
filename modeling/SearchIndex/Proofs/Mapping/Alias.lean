import SearchIndex.Proofs.Mapping.Regular

/-!
# Aliases in compiled trees

An alias says where its target stands. In a compiled tree it comes from an alias field of the
schema, or from an array whose element is one, however many arrays lie in between: `MapsAsAlias`.
Its `path` is then what the resolver answers for the target of that field, and it has no `path` if
the target is not found: `get?_path_of_mapsAsAlias`.
-/

namespace SearchIndex.Mapping

open Schema

/-- The first field is mapped as the second one, which is an alias: it is that alias, or an array
that takes its type from its element. -/
inductive MapsAsAlias : Field → Field → Prop
  | self {f : Field} (h : Kind.of f = some .alias) : MapsAsAlias f f
  | element {f g a : Field} (hopen : (Kind.of f).any Kind.isClosed = false)
      (hvisited : visited? f = none) (hitem : f.item? = some g) (h : MapsAsAlias g a) :
      MapsAsAlias f a

/-! ## Type and path in a heading -/

/-- Only the kind of an alias is written as that of an alias. -/
theorem kind_of_get?_heading (r : Resolver Id) {f : Field} (hf : f.IsRead)
    (h : Node.get? (heading r f) typeName = some (.plain (.str "alias"))) :
    Kind.of f = some .alias := by
  rw [get?_heading_of_structural r hf (by decide)] at h
  cases hk : Kind.of f with
  | none =>
    rw [hk] at h
    exact nomatch h
  | some kind =>
    rw [hk, Option.elim_some] at h
    have hname : kind.name = "alias" := by
      unfold Kind.node at h
      by_cases hs : kind.isStructural
      · rw [if_pos hs] at h
        split at h <;> exact nomatch h
      · have ho : kind ≠ .object := by
          rintro rfl
          exact hs rfl
        rw [if_neg hs, if_neg ho] at h
        simpa [Node.ofType, Node.insertPlain, Node.get?_insert] using h
    rw [← Kind.ofName_name_of hk, hname]
    rfl

/-- No field gets a path from its kind or its attributes. -/
theorem get?_heading_path (r : Resolver Id) {f : Field} (hf : f.IsRead) :
    Node.get? (heading r f) "path" = none := by
  rw [get?_heading_of_structural r hf (by decide)]
  cases Kind.of f with
  | none => rfl
  | some kind =>
    rw [Option.elim_some, Kind.node]
    split <;> split <;> rfl

/-! ## Where the type and the path of an alias come from -/

/-- An overlay has a type only if it is the node of an element. -/
theorem get?_overlay_type (r : Resolver Id) {f : Field} {a : Attribute}
    (h : Node.get? (overlay r f) typeName = some a) :
    (Kind.of f).any Kind.isClosed = false ∧ visited? f = none ∧
      ∃ g, f.item? = some g ∧ Node.get? (compile r g) typeName = some a := by
  cases hclosed : (Kind.of f).any Kind.isClosed with
  | true =>
    -- targets and groups are all that is laid over a closed field
    have hnone : Node.get? (overlay r f) typeName = none := by
      refine overlay_induction (P := fun n => n.get? typeName = none) rfl ?_ ?_ ?_
      · exact fun target => rfl
      · exact fun relations => rfl
      · intro hopen
        simp [hclosed] at hopen
    simp [hnone] at h
  | false =>
    rw [overlay_of_open r hclosed, below] at h
    cases hvisited : visited? f with
    | some fs =>
      rw [hvisited] at h
      exact absurd h (Option.some_ne_none a).symm
    | none =>
      cases hitem : f.item? with
      | none =>
        rw [hvisited, hitem] at h
        exact absurd h (Option.some_ne_none a).symm
      | some g =>
        rw [hvisited, hitem] at h
        exact ⟨rfl, rfl, g, rfl, h⟩

/-- Whatever is written as an alias is mapped as an alias of the schema. -/
theorem mapsAsAlias_of_type (r : Resolver Id) {f : Field} (hf : f.IsRead)
    (h : Node.get? (compile r f) typeName = some (.plain (.str "alias"))) :
    ∃ a, MapsAsAlias f a := by
  induction f using field_induction with
  | h f _ ih =>
  rw [get?_compile_eq r f, Option.or_eq_some_iff] at h
  rcases h with hoverlay | ⟨-, hheading⟩
  · obtain ⟨hopen, hvisited, g, hg, htype⟩ := get?_overlay_type r hoverlay
    obtain ⟨a, ha⟩ := ih g hg (hf.item hg) htype
    exact ⟨a, .element hopen hvisited hg ha⟩
  · exact ⟨f, .self (kind_of_get?_heading r hf hheading)⟩

/-- The path of an alias is what the resolver answers for its target. -/
theorem get?_path_of_mapsAsAlias (r : Resolver Id) {f a : Field} (hf : f.IsRead)
    (h : MapsAsAlias f a) :
    Node.get? (compile r f) "path" =
      ((aliasTarget? a.path).bind r.path?).map fun path => .plain (.str path) := by
  induction h with
  | @self f hk =>
    rw [get?_compile_eq r f, get?_heading_path r hf, Option.or_none, overlay, hk]
    dsimp only
    rw [aliasNode_eq]
    cases (aliasTarget? f.path).bind r.path? with
    | none => rfl
    | some path => rfl
  | @element f g a hopen hvisited hitem _ ih =>
    have hbelow : below r f = compile r g := by
      rw [below, hvisited, hitem]
      rfl
    rw [get?_compile_eq r f, get?_heading_path r hf, Option.or_none, overlay_of_open r hopen,
      hbelow]
    exact ih (hf.item hitem)

end SearchIndex.Mapping
