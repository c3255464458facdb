import SearchIndex.Proofs.Mapping.Children
import SearchIndex.Proofs.Mapping.Every

/-!
# What a compiled tree can hold

`Attribute.Regular` lists what may stand under a name in the mapping of an index. Headings and
overlays keep to it, hence every compiled field does (`every_compile`), and so does every merge of
compiled trees: `compiled_regular`. Such a tree survives being written and read back.
-/

namespace SearchIndex.Mapping

open Schema

/-- What may stand under a name in a mapping. -/
structure Attribute.Regular (name : String) (a : Attribute) : Prop where
  /-- Nested fields stand under `properties`, and no plain value does. -/
  placed : Attribute.Placed name a
  /-- A type is a text, and neither that of objects nor that of arrays. -/
  type : name = typeName → ∃ s, a = .plain (.str s) ∧ s ≠ "object" ∧ s ≠ "array"
  /-- The target of an alias is a text. -/
  path : name = "path" → ∃ s, a = .plain (.str s)
  /-- The groups of a join field are an object. -/
  relations : name = "relations" → ∃ groups, a = .plain (.obj groups)
  /-- The name is none of the keys that the modelling tool keeps for itself. -/
  parameter : isParameter name
  /-- The name is none of the keys that only guide the compilation. -/
  compiled : name ∉ ["mode", "items", subFieldsText]

/-- Nested fields may stand under their name. -/
theorem regular_nested (fields : Tree) : Attribute.Regular nestedName (.nested fields) where
  placed := ⟨fun _ => ⟨fields, rfl⟩, fun _ => rfl⟩
  type := fun h => absurd h (by decide)
  path := fun h => absurd h (by decide)
  relations := fun h => absurd h (by decide)
  parameter := by decide
  compiled := by decide

/-- A plain value that the compiler itself writes has to be what its name demands. -/
theorem regular_written {name : String} {v : Json}
    (hname : name = typeName ∨ name = "path" ∨ name = "relations")
    (htype : name = typeName → ∃ s, .plain v = Attribute.plain (.str s) ∧ s ≠ "object" ∧ s ≠ "array")
    (hpath : name = "path" → ∃ s, .plain v = Attribute.plain (.str s))
    (hrelations : name = "relations" → ∃ groups, .plain v = Attribute.plain (.obj groups)) :
    Attribute.Regular name (.plain v) where
  placed := placed_plain (by rcases hname with rfl | rfl | rfl <;> decide) v
  type := htype
  path := hpath
  relations := hrelations
  parameter := by rcases hname with rfl | rfl | rfl <;> decide
  compiled := by rcases hname with rfl | rfl | rfl <;> decide

/-- Any text but those for objects and arrays may be a type. -/
theorem regular_type {s : String} (ho : s ≠ "object") (ha : s ≠ "array") :
    Attribute.Regular typeName (.plain (.str s)) :=
  regular_written (.inl rfl) (fun _ => ⟨s, rfl, ho, ha⟩) (fun h => absurd h (by decide))
    fun h => absurd h (by decide)

/-- Any text may be the path of an alias. -/
theorem regular_path (s : String) : Attribute.Regular "path" (.plain (.str s)) :=
  regular_written (.inr (.inl rfl)) (fun h => absurd h (by decide)) (fun _ => ⟨s, rfl⟩)
    fun h => absurd h (by decide)

/-- Any object may be the groups of a join field. -/
theorem regular_relations (groups : Table Json) :
    Attribute.Regular "relations" (.plain (.obj groups)) :=
  regular_written (.inr (.inr rfl)) (fun h => absurd h (by decide)) (fun h => absurd h (by decide))
    fun _ => ⟨groups, rfl⟩

/-- A copied parameter may have any value, since its name is none of those with a meaning. -/
theorem regular_copied {key : String} (h : Copied key) (v : Json) :
    Attribute.Regular key (.plain v) := by
  obtain ⟨hparameter, htext, huntyped⟩ := h
  simp only [Field.structuralNames, List.mem_cons, List.not_mem_nil, or_false, not_or] at huntyped
  obtain ⟨htype, hmode, hproperties, hitems, hpath, hrelations⟩ := huntyped
  exact ⟨placed_plain hproperties v, fun heq => absurd heq htype, fun heq => absurd heq hpath,
    fun heq => absurd heq hrelations, hparameter, by simp [hmode, hitems, htext]⟩

/-! ## Compiled fields -/

/-- The kind of a field is the one that its name stands for. -/
theorem Kind.ofName_name_of {f : Field} {kind : Kind} (h : Kind.of f = some kind) :
    Kind.ofName kind.name = kind := by
  have hofName : ∀ s, Kind.ofName (Kind.ofName s).name = Kind.ofName s := by
    intro s
    rw [Kind.name_ofName]
  have hmode : ∀ {start : Kind}, Kind.ofName start.name = start →
      Kind.ofName ((f.mode?.map Kind.ofName).getD start).name =
        (f.mode?.map Kind.ofName).getD start := by
    intro start hstart
    cases f.mode? with
    | none => exact hstart
    | some mode => exact hofName mode
  obtain ⟨tag, -, rfl⟩ := Option.map_eq_some_iff.1 h
  cases tag
  case number | string | range => exact hmode rfl
  case geoShape | geoPoint | null => rfl
  all_goals exact hofName _

/-- What a kind gives is regular. -/
theorem every_kind {f : Field} {kind : Kind} (h : Kind.of f = some kind) :
    Node.Every Attribute.Regular kind.node := by
  have hbase : Node.Every Attribute.Regular
      (if kind.isStructural then Node.empty else .ofType kind.name) := by
    by_cases hs : kind.isStructural
    · rw [if_pos hs]
      exact Node.every_empty
    · rw [if_neg hs]
      have hname := Kind.ofName_name_of h
      refine Node.every_empty.insertPlain (regular_type ?_ ?_)
      all_goals
        intro heq
        rw [heq] at hname
        exact hs (hname ▸ rfl)
  unfold Kind.node
  by_cases ho : kind = .object
  · rw [if_pos ho]
    exact hbase.setNested (regular_nested []) fun e he => absurd he List.not_mem_nil
  · rw [if_neg ho]
    exact hbase

/-- What a field says by itself is regular. -/
theorem every_heading (r : Resolver Id) {f : Field} (hf : f.IsRead) :
    Node.Every Attribute.Regular (heading r f) := by
  refine heading_induction hf (fun n key v hkey hn => hn.insertPlain (regular_copied hkey v)) ?_
  cases hk : Kind.of f with
  | none => exact Node.every_empty
  | some kind => exact every_kind hk

/-- Compiled fields are regular if each of them is. -/
theorem every_compileFields (r : Resolver Id) {fs : List (String × Field)}
    (h : ∀ e ∈ fs, Node.Every Attribute.Regular (compile r e.2)) :
    Tree.Every Attribute.Regular (compileFields r fs) := by
  rw [compileFields_eq]
  intro e he
  obtain ⟨d, hd, rfl⟩ := List.mem_map.1 he
  exact h d hd

/-- Every attribute of a compiled field and below it is what its name demands. -/
theorem every_compile (r : Resolver Id) {f : Field} (hf : f.IsRead) :
    Node.Every Attribute.Regular (compile r f) := by
  induction f using field_induction with
  | h f hproperties hitem =>
  have hbelow : Node.Every Attribute.Regular (below r f) := by
    refine below_induction Node.every_empty ?_ fun g hg => hitem g hg (hf.item hg)
    intro fs hfs
    have hfields := every_compileFields r fun e he =>
      hproperties fs hfs e he (hf.properties hfs e he)
    exact Node.every_empty.setNested (regular_nested _) hfields
  have hoverlay : Node.Every Attribute.Regular (overlay r f) := by
    refine overlay_induction Node.every_empty ?_ ?_ fun _ => hbelow
    · exact fun target => Node.every_empty.insertPlain (regular_path target)
    · exact fun relations => Node.every_empty.insertPlain (regular_relations (joinGroups relations))
  rw [compile_eq_assign]
  exact (every_heading r hf).assign hoverlay

/-- The tree is compiled from fields that were read. -/
def Compiled (t : Tree) : Prop :=
  ∃ (r : Resolver Id) (fs : List (String × Field)),
    (∀ e ∈ fs, e.2.IsRead) ∧ compileFields r fs = t

/-- The tree of an entity is compiled from its fields. -/
theorem compiled_compileDocument (r : Resolver Id) {root : Field} (h : root.IsRead) :
    Compiled (compileDocument r root) :=
  ⟨r, documentFields root, isRead_documentFields h, rfl⟩

/-- Compiled fields and merged trees of them have regular attributes at every depth, and are read
back as they were written. -/
theorem compiled_regular :
    (∀ (r : Resolver Id) (f : Field), f.IsRead →
      Node.Every Attribute.Regular (compile r f) ∧
        Node.ofJson (Node.toJson (compile r f)) = .ok (compile r f)) ∧
      ∀ trees : List Tree, (∀ t ∈ trees, Compiled t) →
        Tree.Every Attribute.Regular (mergeAll trees) ∧
          Tree.ofJson (Tree.toJson (mergeAll trees)) = .ok (mergeAll trees) := by
  have hplaced : ∀ name a, Attribute.Regular name a → Attribute.Placed name a :=
    fun _ _ h => h.placed
  refine ⟨?_, ?_⟩
  · intro r f hf
    have hevery := every_compile r hf
    exact ⟨hevery, Node.ofJson_toJson (hevery.imp hplaced)⟩
  · intro trees h
    have hevery : Tree.Every Attribute.Regular (mergeAll trees) := by
      refine Tree.Every.mergeAll (fun _ fields _ => regular_nested fields) fun t ht => ?_
      obtain ⟨r, fs, hfs, rfl⟩ := h t ht
      exact every_compileFields r fun e he => every_compile r (hfs e he)
    exact ⟨hevery, Tree.ofJson_toJson fun e he => (hevery e he).imp hplaced⟩

/-- An entity with a list of tags, an alias to their labels and a join field. -/
def pageEntity : Json :=
  .obj [("properties", .obj [("_source", .obj [("type", .str "object"), ("properties", .obj
    [("tags", .obj [("type", .str "array"), ("items", .obj
      [("type", .str "object"), ("properties", .obj
        [("label", .obj [("GUID", .str "b1"), ("type", .str "string"), ("mode", .str "keyword")])])])]),
     ("tag", .obj [("type", .str "alias"), ("path", .arr [.obj [("keyId", .str "b1")]])]),
     ("kind", .obj [("type", .str "join"), ("relations", .arr [.obj
      [("parent", .str "page"), ("children", .arr [.obj [("name", .str "note")]])]])])])])])]

/-- An entity whose tags are a text with sub-fields. -/
def noteEntity : Json :=
  .obj [("properties", .obj [("_source", .obj [("type", .str "object"), ("properties", .obj
    [("tags", .obj [("type", .str "string"), ("stringfields", .str "{}"),
      ("description", .str "free text")])])])])]

/-- A page with tags, an alias and a join field is merged into a note whose tags are a text. -/
theorem compiled_regular_pages :
    ∃ page note, Field.ofJson pageEntity = .ok page ∧ Field.ofJson noteEntity = .ok note ∧
      (let s : Scopes := ⟨pageEntity, .null, .null, .null⟩
      let trees := [compileDocument s.resolver note, compileDocument s.resolver page]
      (∀ t ∈ trees, Compiled t) ∧ Node.Every Attribute.Regular (compile s.resolver page) ∧
        Tree.Every Attribute.Regular (mergeAll trees) ∧
          Tree.ofJson (Tree.toJson (mergeAll trees)) = .ok (mergeAll trees)) := by
  refine ⟨_, _, rfl, rfl, ?_⟩
  intro s trees
  have htrees : ∀ t ∈ trees, Compiled t := by
    intro t ht
    rcases List.mem_pair.1 ht with rfl | rfl
    · exact compiled_compileDocument s.resolver ⟨noteEntity, rfl⟩
    · exact compiled_compileDocument s.resolver ⟨pageEntity, rfl⟩
  exact ⟨htrees, (compiled_regular.1 s.resolver _ ⟨pageEntity, rfl⟩).1,
    compiled_regular.2 trees htrees⟩

end SearchIndex.Mapping
