import SearchIndex.Proofs.Mapping.Parts

/-!
# The fields below a field

`children?` is the walk of the compiler without the compiling: the fields that take part in the
mapping below a field, whether they are its properties or those of its element. `nested?_compile`
shows that the nested fields of a compiled field are its children, each compiled. Hence a path leads
to a field of the compiled tree exactly where it leads to a field of the schema:
`field?_compileDocument`, and `compile_mirrors` for the fields below any field.
-/

namespace SearchIndex.Mapping

open Schema

/-- The children without properties and element: an object has nested fields from the start. -/
def start? (f : Field) : Option (List (String × Field)) :=
  if Kind.of f = some .object then some [] else none

mutual

/-- The fields that take part in the mapping below a field. -/
def children? : Field → Option (List (String × Field))
  | ⟨tag, mode, properties, items, path, relations, attributes⟩ =>
    let f : Field := ⟨tag, mode, properties, items, path, relations, attributes⟩
    if (Kind.of f).any Kind.isClosed then none
    else
      (visited? f).or
        ((match items with
          | some items => itemChildren? items
          | none => none).or (start? f))

/-- The fields that take part in the mapping below the element of an array. -/
def itemChildren? : Items → Option (List (String × Field))
  | .one f => children? f
  | .candidates [] => none
  | .candidates (f :: _) => children? f

end

/-- Of a list of candidates, the first one has the children. -/
theorem itemChildren?_eq (items : Items) : itemChildren? items = items.first?.bind children? := by
  cases items with
  | one f => rfl
  | candidates fs => cases fs <;> rfl

/-- The children of a field from its properties, its element and its kind, in this order. -/
theorem children?_eq (f : Field) :
    children? f =
      if (Kind.of f).any Kind.isClosed then none
      else (visited? f).or ((f.item?.bind children?).or (start? f)) := by
  obtain ⟨tag, mode, properties, items, path, relations, attributes⟩ := f
  cases items with
  | none => rfl
  | some items => simp [children?, itemChildren?_eq, Field.item?]

/-- Children are properties, the children of the element, or there are none yet. -/
theorem cases_of_children? {f : Field} {fs : List (String × Field)} (h : children? f = some fs) :
    f.properties = some fs ∨ (∃ g, f.item? = some g ∧ children? g = some fs) ∨ fs = [] := by
  rw [children?_eq] at h
  split at h
  · simp at h
  rw [Option.or_eq_some_iff, Option.or_eq_some_iff] at h
  rcases h with hvisited | ⟨-, hitem | ⟨-, hstart⟩⟩
  · exact .inl (properties_of_visited? hvisited)
  · exact .inr (.inl (Option.bind_eq_some_iff.1 hitem))
  · right; right
    unfold start? at hstart
    split at hstart
    · exact (Option.some.inj hstart).symm
    · simp at hstart

/-! ## The place of the nested fields in a heading -/

/-- The node of a kind has nested fields if the kind is that of objects. -/
theorem Kind.get?_node (kind : Kind) :
    kind.node.get? nestedName = if kind = .object then some (.nested []) else none := by
  unfold Kind.node
  by_cases ho : kind = .object
  · subst ho
    rfl
  · by_cases hs : kind.isStructural
    · simp only [hs, ho, if_true, if_false]
      rfl
    · simp only [hs, ho, Bool.false_eq_true, if_false]
      rfl

/-- No kind sets an attribute twice. -/
theorem Kind.distinct_node (kind : Kind) : Table.Distinct kind.node.entries := by
  have hbase : Table.Distinct
      (if kind.isStructural then Node.empty else Node.ofType kind.name).entries := by
    split
    · exact List.nodup_nil
    · exact List.nodup_cons.2 ⟨List.not_mem_nil, List.nodup_nil⟩
  unfold Kind.node
  by_cases ho : kind = .object
  · rw [if_pos ho]
    exact hbase.insert nestedName (.nested [])
  · rw [if_neg ho]
    exact hbase

/-- Copied parameters leave the typed keys to the node of the kind. -/
theorem get?_heading_of_structural (r : Resolver Id) {f : Field} (hf : f.IsRead) {name : String}
    (hname : name ∈ Field.structuralNames) :
    Node.get? (heading r f) name = ((Kind.of f).elim .empty Kind.node).get? name := by
  refine heading_induction
    (P := fun n => n.get? name = ((Kind.of f).elim .empty Kind.node).get? name) hf ?_ rfl
  intro n key value hkey hn
  have hne : key ≠ name := fun heq => hkey.untyped (heq ▸ hname)
  rw [Node.insertPlain, Node.get?_insert, if_neg hne, hn]

/-- A field that was read has nested fields from the start if it is an object, and none else. -/
theorem get?_heading (r : Resolver Id) {f : Field} (hf : f.IsRead) :
    Node.get? (heading r f) nestedName = (start? f).map fun _ => .nested [] := by
  rw [get?_heading_of_structural r hf (by decide)]
  unfold start?
  cases Kind.of f with
  | none => rfl
  | some kind =>
    simp only [Option.elim_some, Kind.get?_node, Option.some.injEq]
    split <;> rfl

/-- No attribute stands twice in a heading. -/
theorem distinct_heading (r : Resolver Id) (f : Field) :
    Table.Distinct (Node.entries (heading r f)) := by
  refine heading_induction_of_parameters (P := fun n => Table.Distinct n.entries) ?_ ?_
  · intro n key value _ _ _ hn
    exact hn.insert key (.plain value)
  · cases Kind.of f with
    | none => exact List.nodup_nil
    | some kind => exact kind.distinct_node

/-- A compiled field has no attribute twice, whatever is laid over its heading. -/
theorem distinct_compile (r : Resolver Id) (f : Field) :
    Table.Distinct (Node.entries (compile r f)) := by
  rw [compile_eq_assign]
  exact (distinct_heading r f).extend _

/-! ## The place of the nested fields in an overlay -/

/-- A node that, laid over another one, leaves its nested fields alone. -/
structure Node.LeavesNested (n : Node) : Prop where
  distinct : Table.Distinct n.entries
  get?_eq_none : n.get? nestedName = none

/-- The empty node leaves the nested fields alone. -/
theorem leavesNested_empty : Node.LeavesNested .empty := ⟨List.nodup_nil, rfl⟩

/-- A single attribute under another name leaves the nested fields alone. -/
theorem leavesNested_insertPlain {key : String} (hkey : key ≠ nestedName) (value : Json) :
    Node.LeavesNested (Node.empty.insertPlain key value) := by
  refine ⟨List.nodup_cons.2 ⟨List.not_mem_nil, List.nodup_nil⟩, ?_⟩
  rw [Node.insertPlain, Node.get?_insert, if_neg hkey]
  rfl

/-- What lies over the heading of a closed field leaves the nested fields alone. -/
theorem leavesNested_overlay (r : Resolver Id) {f : Field} (h : (Kind.of f).any Kind.isClosed) :
    Node.LeavesNested (overlay r f) := by
  refine overlay_induction leavesNested_empty ?_ ?_ ?_
  · exact fun target => leavesNested_insertPlain (by decide) (.str target)
  · exact fun relations => leavesNested_insertPlain (by decide) (.obj (joinGroups relations))
  · intro hopen
    simp [h] at hopen

/-- The nested fields that a field has from below: its properties or those of its element. -/
theorem get?_below (r : Resolver Id) (f : Field) :
    Node.get? (below r f) nestedName =
      match visited? f with
      | some fs => some (.nested (compileFields r fs))
      | none => f.item?.bind fun g => Node.get? (compile r g) nestedName := by
  unfold below
  cases visited? f with
  | some fs => rfl
  | none => cases f.item? <;> rfl

/-- No attribute stands twice in what lies below a heading. -/
theorem distinct_below (r : Resolver Id) (f : Field) :
    Table.Distinct (Node.entries (below r f)) :=
  below_induction (P := fun n => Table.Distinct n.entries) List.nodup_nil
    (fun _ _ => List.nodup_cons.2 ⟨List.not_mem_nil, List.nodup_nil⟩) fun g _ => distinct_compile r g

/-- No attribute stands twice in an overlay. -/
theorem distinct_overlay (r : Resolver Id) (f : Field) :
    Table.Distinct (Node.entries (overlay r f)) := by
  cases h : (Kind.of f).any Kind.isClosed with
  | true => exact (leavesNested_overlay r h).distinct
  | false =>
    rw [overlay_of_open r h]
    exact distinct_below r f

/-- Any attribute of a compiled field comes from the overlay, or else from the heading. -/
theorem get?_compile_eq (r : Resolver Id) (f : Field) (name : String) :
    Node.get? (compile r f) name =
      (Node.get? (overlay r f) name).or (Node.get? (heading r f) name) := by
  rw [compile_eq_assign]
  exact Node.get?_assign _ (distinct_overlay r f) name

/-! ## The children of a compiled field -/

/-- The place of the nested fields holds the children, each compiled; it is empty without
children. -/
theorem get?_compile (r : Resolver Id) {f : Field} (hf : f.IsRead) :
    Node.get? (compile r f) nestedName =
      (children? f).map fun fs => .nested (compileFields r fs) := by
  induction f using field_induction with
  | h f _ ih =>
  have hheading := get?_heading r hf
  rw [get?_compile_eq r f, children?_eq]
  by_cases h : (Kind.of f).any Kind.isClosed
  · -- closed kinds are not objects, so there is nothing from the start either
    have hstart : start? f = none := by
      unfold start?
      rw [if_neg]
      intro hk
      simp [hk, Kind.isClosed, Kind.isOpaque] at h
    rw [(leavesNested_overlay r h).get?_eq_none, hheading, if_pos h, hstart]
    rfl
  rw [Bool.not_eq_true] at h
  rw [overlay_of_open r h, get?_below, hheading, h]
  -- nested fields from below, if any, replace those that an object has from the start
  have hstart : (start? f).map (fun _ => Attribute.nested []) =
      (start? f).map fun fs => .nested (compileFields r fs) := by
    unfold start?
    split <;> rfl
  rw [hstart]
  cases visited? f with
  | some fs => rfl
  | none =>
    cases hg : f.item? with
    | none => simp
    | some g =>
      simp only [Option.bind_some, ih g hg (hf.item hg), Bool.false_eq_true, if_false,
        Option.none_or]
      cases children? g <;> rfl

/-- The nested fields of a compiled field are its children, each compiled. -/
theorem nested?_compile (r : Resolver Id) {f : Field} (hf : f.IsRead) :
    Node.nested? (compile r f) =
      (children? f).map fun fs => fs.map fun e => (e.1, compile r e.2) := by
  have hget := get?_compile r hf
  cases hc : children? f with
  | none =>
    rw [hc] at hget
    unfold Node.nested?
    rw [hget]
    rfl
  | some fs =>
    rw [hc] at hget
    rw [Node.nested?_eq_some_iff.2 hget, compileFields_eq]
    rfl

/-- The children of a field that was read were read. -/
theorem isRead_of_children? {f : Field} (hf : f.IsRead) {fs : List (String × Field)}
    (hfs : children? f = some fs) : ∀ e ∈ fs, e.2.IsRead := by
  induction f using field_induction with
  | h f _ ih =>
  rcases cases_of_children? hfs with hproperties | ⟨g, hg, hitem⟩ | rfl
  · exact hf.properties hproperties
  · exact ih g hg (hf.item hg) hitem
  · simp

/-- A path through compiled fields leads to the compilation of the field to which it leads in the
schema. -/
theorem field?_compileFields (r : Resolver Id) {fs : List (String × Field)}
    (h : ∀ e ∈ fs, e.2.IsRead) (path : List String) :
    Tree.field? (compileFields r fs) path =
      (Table.follow? children? fs path).map (compile r) := by
  rw [compileFields_eq]
  exact Table.follow?_map children? Node.nested? (compile r)
    (fun f fs hf hc => isRead_of_children? hf hc) (fun f hf => nested?_compile r hf) h path

/-- The fields of an entity are the properties of its `_source`, if it has any. -/
theorem cases_of_documentFields (root : Field) :
    documentFields root = [] ∨ ∃ ps source, root.properties = some ps ∧
      Table.get? ps sourceName = some source ∧
      source.properties = some (documentFields root) := by
  unfold documentFields
  cases hsource : root.properties.bind fun ps => Table.get? ps sourceName with
  | none => exact .inl rfl
  | some source =>
    obtain ⟨ps, hps, hget⟩ := Option.bind_eq_some_iff.1 hsource
    cases hfs : source.properties with
    | none => exact .inl (by simp [hfs])
    | some fs => exact .inr ⟨ps, source, hps, hget, by simp [hfs]⟩

/-- The fields of an entity that was read were read. -/
theorem isRead_documentFields {root : Field} (h : root.IsRead) :
    ∀ e ∈ documentFields root, e.2.IsRead := by
  rcases cases_of_documentFields root with hnil | ⟨ps, source, hps, hget, hfs⟩
  · simp [hnil]
  · have hread : source.IsRead := h.properties hps _ (Table.mem_of_get? hget)
    exact hread.properties hfs

/-- Every field that the compiler visits in an entity that was read was read. -/
theorem isRead_of_follow? {root : Field} (h : root.IsRead) {path : List String} {f : Field}
    (hf : Table.follow? children? (documentFields root) path = some f) : f.IsRead :=
  Table.of_follow? children? (fun _ _ hg hfs => isRead_of_children? hg hfs)
    (isRead_documentFields h) hf

/-- A path leads to the compilation of the field to which it leads in the schema. -/
theorem field?_compileDocument (r : Resolver Id) {root : Field} (h : root.IsRead)
    (path : List String) :
    Tree.field? (compileDocument r root) path =
      (Table.follow? children? (documentFields root) path).map (compile r) :=
  field?_compileFields r (isRead_documentFields h) path

/-- The fields below a compiled field are the children of the field, compiled. -/
structure MirrorsChildren (r : Resolver Id) (f : Field) : Prop where
  /-- The nested fields are the children, each compiled, under the same names in the same order. -/
  nested?_eq : Node.nested? (compile r f) =
    (children? f).map fun fs => fs.map fun e => (e.1, compile r e.2)
  /-- A path leads to a field below the compiled field iff it leads to a field of the schema, and
  then to the compilation of that field. -/
  field?_eq : ∀ path, ((Node.nested? (compile r f)).bind fun t => Tree.field? t path) =
    ((children? f).bind fun fs => Table.follow? children? fs path).map (compile r)
  /-- The same holds of the tree of the field as an entity document. -/
  document_eq : ∀ path, Tree.field? (compileDocument r f) path =
    (Table.follow? children? (documentFields f) path).map (compile r)

/-- A field that was read compiles to exactly the fields that take part in its mapping. -/
theorem compile_mirrors (r : Resolver Id) {f : Field} (hf : f.IsRead) : MirrorsChildren r f where
  nested?_eq := nested?_compile r hf
  field?_eq := by
    intro path
    rw [nested?_compile r hf]
    cases hfs : children? f with
    | none => rfl
    | some fs =>
      simp only [Option.map_some, Option.bind_some]
      rw [← field?_compileFields r (isRead_of_children? hf hfs), compileFields_eq]
  document_eq := field?_compileDocument r hf

/-- An object with a range that has properties and an array of arrays of objects. -/
def gridField : Json :=
  .obj [("type", .str "object"), ("properties", .obj
    [("when", .obj [("type", .str "range"),
      ("properties", .obj [("gte", .obj [("type", .str "date")])])]),
     ("grid", .obj [("type", .str "array"), ("items", .obj [("type", .str "array"),
      ("items", .arr [.obj [("type", .str "object"), ("properties", .obj
        [("x", .obj [("type", .str "number")])])]])])])])]

/-- Below the grid stands the `x` of its innermost element; the properties of the range do not take
part. -/
theorem compile_mirrors_grid :
    ∃ f, Field.ofJson gridField = .ok f ∧
      (((children? f).bind fun fs => Table.follow? children? fs ["grid", "x"]).isSome ∧
        ((children? f).bind fun fs => Table.follow? children? fs ["when", "gte"]).isNone) ∧
      MirrorsChildren (Scopes.resolver ⟨gridField, .null, .null, .null⟩) f :=
  ⟨_, rfl, ⟨rfl, rfl⟩, compile_mirrors _ ⟨gridField, rfl⟩⟩

end SearchIndex.Mapping
