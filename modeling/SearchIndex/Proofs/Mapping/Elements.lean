import SearchIndex.Proofs.Mapping.Children
import SearchIndex.Proofs.Mapping.Merge
import SearchIndex.Proofs.Mapping.Parameters

/-!
# Arrays of arrays

An array maps like its element, and the element may be an array in turn. A `Chain` goes down from a
field to an element at any depth; `layers` are what the fields on the way say by themselves, and
then the whole node of the last one.

`compile_of_takesElement` is the step from an element to its array: the node of the element is laid
over the heading. `compile_chain` follows it down a chain. Values come from the deepest level, while
names stand in the order in which the levels bring them up, from the top.
-/

namespace SearchIndex.Mapping

open Schema

/-- The field takes the node of its element: nothing that it has itself is in the way. -/
structure TakesElement (f element : Field) : Prop where
  /-- The kind, if there is one, is neither that of aliases nor that of join fields, nor opaque. -/
  isOpen : ∀ kind, Kind.of f = some kind → kind ≠ .alias ∧ kind ≠ .join ∧ ¬kind.isOpaque
  /-- There are no properties, or they are those of a range. -/
  properties : f.properties = none ∨ f.tag = some .range
  /-- The element is the single one or the first candidate. -/
  item : f.items.bind Items.first? = some element

/-- `Chain last fs f` goes from `f` down to `last` through the fields `fs`, each of which takes the
next one as its element. -/
inductive Chain (last : Field) : List Field → Field → Prop
  | here : Chain last [] last
  | step {fs : List Field} {f element : Field} (h : TakesElement f element)
      (rest : Chain last fs element) : Chain last (f :: fs) f

/-- What lies in a chain: the type and attributes of each field before the last one, and the whole
node of the last one. -/
def layers (r : Resolver Id) (fs : List Field) (last : Field) : List Node :=
  fs.map (heading r) ++ [compile r last]

/-- A field with an element that it takes is its heading with the node of the element on top. -/
theorem compile_of_takesElement (r : Resolver Id) {f element : Field}
    (h : TakesElement f element) :
    compile r f = (Node.assign (heading r f) (compile r element) : Node) := by
  have hopen : (Kind.of f).any Kind.isClosed = false := by
    cases hkind : Kind.of f with
    | none => rfl
    | some kind =>
      obtain ⟨halias, hjoin, hopaque⟩ := h.isOpen kind hkind
      simpa [Kind.isClosed, halias, hjoin] using hopaque
  have hvisited : visited? f = none := by
    unfold visited?
    rcases h.properties with hnone | hrange
    · rw [hnone, ite_self]
    · rw [if_pos hrange]
  rw [compile_eq_assign, overlay_of_open r hopen, below, hvisited, Field.item?, h.item]
  rfl

/-! ## Names in the order of their first appearance -/

/-- Values come from the deepest layer of a chain that has them, and names stand in the order in
which the layers bring them up, from the top. -/
structure LaysOver (r : Resolver Id) (fs : List Field) (last : Field) (n : Node) : Prop where
  get?_eq : ∀ name, n.get? name = (layers r fs last).reverse.findSome? fun layer => layer.get? name
  names_eq : n.names = ((layers r fs last).flatMap Node.names).eraseDups

/-- The node at the top of a chain is what the layers of the chain give, one over the other. -/
theorem laysOver_compile (r : Resolver Id) {last f : Field} {fs : List Field}
    (h : Chain last fs f) : LaysOver r fs last (compile r f) := by
  induction h with
  | here =>
    constructor
    · intro name
      simp [layers]
    · rw [layers, List.map_nil, List.nil_append, List.flatMap_singleton]
      exact (eraseDups_of_nodup (distinct_compile r _)).symm
  | @step fs f element h _ ih =>
    have hlayers : layers r (f :: fs) last = heading r f :: layers r fs last := rfl
    rw [compile_of_takesElement r h]
    constructor
    · intro name
      rw [Node.get?_assign _ (distinct_compile r element), ih.get?_eq, hlayers, List.reverse_cons,
        List.findSome?_append]
      simp
    · have hheading : (Node.names (heading r f)).eraseDups = Node.names (heading r f) :=
        eraseDups_of_nodup (distinct_heading r f)
      rw [hlayers, List.flatMap_cons, List.eraseDups_append, hheading, List.removeAll,
        ← filter_eraseDups, ← ih.names_eq]
      exact Table.names_extend _ (distinct_compile r element)

/-! ## Fields that add nothing -/

/-- An array or a field without a type, with no attributes but keys of the modelling tool. -/
structure AddsNothing (f : Field) : Prop where
  kind : Kind.of f = none ∨ Kind.of f = some .array
  attributes : ∀ e ∈ f.attributes, e.1 ∈ metadataNames

/-- A field that adds nothing says nothing by itself. -/
theorem heading_of_addsNothing (r : Resolver Id) {f : Field} (h : AddsNothing f) :
    (heading r f : Node) = .empty := by
  unfold heading
  rcases h.kind with hkind | hkind
  · rw [hkind]
    rfl
  · have hcarried : carried r f.attributes = [] := by
      refine List.filterMap_eq_nil_iff.2 fun e he => ?_
      exact parameter?_of_metadata r e.2 (h.attributes e he)
    rw [hkind]
    simp only [copyAttributes_eq, hcarried]
    rfl

/-- A chain of fields that add nothing maps like its last field. -/
theorem compile_of_addsNothing (r : Resolver Id) {last f : Field} {fs : List Field}
    (h : Chain last fs f) (hfs : ∀ g ∈ fs, AddsNothing g) : compile r f = compile r last := by
  induction h with
  | here => rfl
  | @step fs f element h _ ih =>
    obtain ⟨hf, hfs⟩ := List.forall_mem_cons.1 hfs
    rw [compile_of_takesElement r h, heading_of_addsNothing r hf,
      Node.empty_assign (distinct_compile r element), ih hfs]

/-- A field at the head of a chain is compiled layer by layer; if the fields before the last one add
nothing, it is compiled like the last one. -/
theorem compile_chain (r : Resolver Id) {last f : Field} {fs : List Field} (h : Chain last fs f) :
    LaysOver r fs last (compile r f) ∧
      ((∀ g ∈ fs, AddsNothing g) → compile r f = compile r last) :=
  ⟨laysOver_compile r h, compile_of_addsNothing r h⟩

/-- A text with an analyzer. -/
def cellField : Field :=
  { Field.ofTag .string with attributes := [("analyzer", .str "english")] }

/-- Rows of such texts, with an analyzer of their own. -/
def rowField : Field :=
  { Field.ofTag .array with
    items := some (.one cellField)
    attributes := [("store", .bool true), ("analyzer", .str "german")] }

/-- A list of such rows, with a second candidate that does not count. -/
def tableField : Field :=
  { Field.empty with
    items := some (.candidates [rowField, cellField])
    attributes := [("description", .str "rows")] }

/-- A list of such texts that says nothing else. -/
def listField : Field :=
  { Field.ofTag .array with
    items := some (.one cellField)
    attributes := [("GUID", .str "a1"), ("minItems", .num (.integer 1))] }

/-- A table of rows has an analyzer at two levels; the list adds nothing to its texts. -/
theorem compile_chain_table :
    let s : Scopes := ⟨.null, .null, .null, .null⟩
    (Chain cellField [tableField, rowField] tableField ∧
      LaysOver s.resolver [tableField, rowField] cellField (compile s.resolver tableField)) ∧
    (Chain cellField [listField] listField ∧ (∀ g ∈ [listField], AddsNothing g) ∧
      compile s.resolver listField = compile s.resolver cellField) := by
  intro s
  have harray : ∀ kind, some Kind.array = some kind →
      kind ≠ .alias ∧ kind ≠ .join ∧ ¬kind.isOpaque := by
    rintro kind ⟨⟩
    decide
  have hrow : TakesElement rowField cellField := ⟨harray, .inl rfl, rfl⟩
  have htable : TakesElement tableField rowField := ⟨(fun _ hkind => nomatch hkind), .inl rfl, rfl⟩
  have hlist : TakesElement listField cellField := ⟨harray, .inl rfl, rfl⟩
  have hadds : ∀ g ∈ [listField], AddsNothing g := by
    intro g hg
    obtain rfl : g = listField := List.mem_singleton.1 hg
    exact ⟨.inr rfl, by decide⟩
  have hdeep : Chain cellField [tableField, rowField] tableField := .step htable (.step hrow .here)
  have hflat : Chain cellField [listField] listField := .step hlist .here
  exact ⟨⟨hdeep, (compile_chain s.resolver hdeep).1⟩, hflat, hadds,
    (compile_chain s.resolver hflat).2 hadds⟩

-- The analyzer stands where the rows name it, with the value that the cells give it.
example :
    let cell : Field := { Field.ofTag .string with attributes := [("analyzer", .str "english")] }
    let row : Field := { Field.ofTag .array with
      items := some (.one cell), attributes := [("analyzer", .str "german"), ("store", .bool true)] }
    (compile (Scopes.resolver ⟨.null, .null, .null, .null⟩) row : Node) =
      ⟨[("analyzer", .plain (.str "english")), ("store", .plain (.bool true)),
        ("type", .plain (.str "text"))]⟩ :=
  rfl

end SearchIndex.Mapping
