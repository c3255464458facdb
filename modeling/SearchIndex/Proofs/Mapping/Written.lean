import SearchIndex.Proofs.Json.Distinct
import SearchIndex.Proofs.Mapping.Children
import SearchIndex.Proofs.Mapping.Every
import SearchIndex.Proofs.Mapping.Places
import SearchIndex.Proofs.Schema.Distinct

/-!
# Trees are written without repeated names

`WritesDistinct` says that no name stands twice in what is written for a node or a tree, be it the
name of a field, that of an attribute or one inside a plain value. Writing attributes keeps it, and
so does merging. Hence it holds of every field that is compiled from a document of distinct names
(`writesDistinct_compile`) and of every merge of such trees.
-/

namespace SearchIndex.Mapping

open Schema

/-- What is written for the attribute has no name twice. -/
def Attribute.WritesDistinct (a : Attribute) : Prop := (Node.attributeToJson a).Distinct

/-- What is written for the node has no name twice. -/
def Node.WritesDistinct (n : Node) : Prop := n.toJson.Distinct

/-- What is written for the tree has no name twice. -/
def Tree.WritesDistinct (t : Tree) : Prop := (Tree.toJson t).Distinct

/-- Attributes are written one by one. -/
theorem Node.attributesToJson_eq (entries : List (String × Attribute)) :
    Node.attributesToJson entries = entries.map fun e => (e.1, Node.attributeToJson e.2) := by
  induction entries with
  | nil => rfl
  | cons e entries ih => rw [Node.attributesToJson, ih, List.map_cons]

/-- Fields are written one by one. -/
theorem Node.fieldsToJson_eq (t : Tree) :
    Node.fieldsToJson t = t.map fun e => (e.1, e.2.toJson) := by
  induction t with
  | nil => rfl
  | cons e t ih => rw [Node.fieldsToJson, ih, List.map_cons]

/-- A node has no name twice iff its attributes are distinct and none of them has. -/
theorem Node.writesDistinct_iff {n : Node} :
    n.WritesDistinct ↔ Table.Distinct n.entries ∧ ∀ e ∈ n.entries, e.2.WritesDistinct := by
  obtain ⟨entries⟩ := n
  rw [Node.WritesDistinct, Node.toJson, Node.attributesToJson_eq]
  exact Json.distinct_obj_map

/-- A tree has no name twice iff its fields are distinct and none of them has. -/
theorem Tree.writesDistinct_iff {t : Tree} :
    Tree.WritesDistinct t ↔ Table.Distinct t ∧ ∀ e ∈ t, e.2.WritesDistinct := by
  rw [Tree.WritesDistinct, Tree.toJson, Node.fieldsToJson_eq]
  exact Json.distinct_obj_map

theorem Tree.writesDistinct_nil : Tree.WritesDistinct [] :=
  Tree.writesDistinct_iff.2 ⟨List.nodup_nil, List.forall_mem_nil _⟩

/-- Nested fields have no name twice if the node has none. -/
theorem Node.WritesDistinct.nested {n : Node} (h : n.WritesDistinct) {fields : Tree}
    (hn : n.nested? = some fields) : Tree.WritesDistinct fields :=
  (Node.writesDistinct_iff.1 h).2 _ (Table.mem_of_get? (Node.nested?_eq_some_iff.1 hn))

/-- A tree that is written without repeated names has none at any level. -/
theorem Tree.WritesDistinct.levels {t : Tree} (h : Tree.WritesDistinct t) :
    Tree.LevelsDistinct t := by
  intro path level hlevel
  induction path generalizing t with
  | nil => exact Option.some.inj hlevel ▸ (Tree.writesDistinct_iff.1 h).1
  | cons name path ih =>
    obtain ⟨fields, hfields, hlevel⟩ := Option.bind_eq_some_iff.1 hlevel
    obtain ⟨n, hn, hfields⟩ := Option.bind_eq_some_iff.1 hfields
    have hnode : n.WritesDistinct := (Tree.writesDistinct_iff.1 h).2 _ (Table.mem_of_get? hn)
    exact ih (hnode.nested hfields) hlevel

/-! ## Writing attributes -/

namespace Node

theorem writesDistinct_empty : Node.empty.WritesDistinct :=
  writesDistinct_iff.2 ⟨List.nodup_nil, List.forall_mem_nil _⟩

variable {n : Node}

/-- An attribute without any name twice may be set. -/
theorem WritesDistinct.insert (h : n.WritesDistinct) (name : String) {a : Attribute}
    (ha : a.WritesDistinct) : (n.insert name a).WritesDistinct := by
  obtain ⟨hnames, hvalues⟩ := writesDistinct_iff.1 h
  refine writesDistinct_iff.2 ⟨hnames.insert name a, fun e he => ?_⟩
  rcases Table.mem_insert he with rfl | he
  · exact ha
  · exact hvalues e he

/-- A plain value without any name twice may be set. -/
theorem WritesDistinct.insertPlain (h : n.WritesDistinct) (name : String) {v : Json}
    (hv : v.Distinct) : (n.insertPlain name v).WritesDistinct :=
  h.insert name hv

/-- Nested fields without any name twice may be set. -/
theorem WritesDistinct.setNested (h : n.WritesDistinct) {fields : Tree}
    (hfields : Tree.WritesDistinct fields) : (n.setNested fields).WritesDistinct :=
  h.insert nestedName hfields

/-- One node may be assigned to another if none of them has a name twice. -/
theorem WritesDistinct.assign (h : n.WritesDistinct) {other : Node}
    (hother : other.WritesDistinct) : (n.assign other).WritesDistinct := by
  obtain ⟨hnames, hvalues⟩ := writesDistinct_iff.1 h
  obtain ⟨-, hvalues'⟩ := writesDistinct_iff.1 hother
  refine writesDistinct_iff.2 ⟨hnames.extend other.entries, fun e he => ?_⟩
  exact (Table.mem_extend he).elim (hvalues e) (hvalues' e)

end Node

/-! ## Merging -/

/-- A merge of trees is written distinctly where the merges of their nodes are. -/
theorem Tree.WritesDistinct.merge_of {a b : Tree} (ha : Tree.WritesDistinct a)
    (hb : Tree.WritesDistinct b)
    (hnode : ∀ e ∈ a, ∀ n : Node, n.WritesDistinct → (mergeNode e.2 n).WritesDistinct) :
    Tree.WritesDistinct (merge a b) := by
  obtain ⟨hnames, hvalues⟩ := Tree.writesDistinct_iff.1 ha
  obtain ⟨hnames', hvalues'⟩ := Tree.writesDistinct_iff.1 hb
  refine Tree.writesDistinct_iff.2 ⟨distinct_merge hnames hnames', fun e he => ?_⟩
  rcases mem_merge he with he | ⟨n, hn, heq | ⟨n', hn', heq⟩⟩
  · exact hvalues' e he
  · exact heq ▸ hvalues (e.1, n) hn
  · exact heq ▸ hnode (e.1, n) hn n' (hvalues' (e.1, n') hn')

/-- Merging fields into attributes leaves their names. -/
theorem names_mergeNested (entries : List (String × Attribute)) (fields : Tree) :
    Table.names (mergeNested entries fields) = Table.names entries := by
  have houtline := congrArg (List.map Prod.fst) (outline_mergeNested entries fields)
  simpa only [Node.outline, List.map_map, Function.comp_def, Table.names] using houtline

/-- Merged nodes have no name twice if both have none. -/
theorem Node.WritesDistinct.mergeNode {a b : Node} (ha : a.WritesDistinct)
    (hb : b.WritesDistinct) : (mergeNode a b).WritesDistinct := by
  induction a using node_induction generalizing b with
  | h a ih =>
  -- a new node comes about only where both definitions have nested fields
  cases hb' : b.nested? with
  | none => rwa [mergeNode_of_scalar hb']
  | some fields' =>
    cases ha' : a.nested? with
    | none => rwa [mergeNode_of_object ha' hb']
    | some fields =>
      obtain ⟨hnames, hvalues⟩ := writesDistinct_iff.1 ha
      have hfields' : Tree.WritesDistinct fields' := hb.nested hb'
      rw [mergeNode_of_objects ha' hb']
      refine writesDistinct_iff.2 ⟨?_, ?_⟩
      · unfold Table.Distinct
        rw [names_mergeNested]
        exact hnames
      · intro e he
        rcases mem_mergeNested he with he | ⟨fields₀, hmem, rfl⟩
        · exact hvalues e he
        · have hfields₀ : Tree.WritesDistinct fields₀ := hvalues _ hmem
          exact hfields₀.merge_of hfields' fun e he n hn =>
            ih nestedName fields₀ hmem e he ((Tree.writesDistinct_iff.1 hfields₀).2 e he) hn

/-- Merged trees have no name twice if both have none. -/
theorem Tree.WritesDistinct.merge {a b : Tree} (ha : Tree.WritesDistinct a)
    (hb : Tree.WritesDistinct b) : Tree.WritesDistinct (merge a b) :=
  ha.merge_of hb fun e he _ hn => ((Tree.writesDistinct_iff.1 ha).2 e he).mergeNode hn

/-- A merged list of trees has no name twice if no tree has. -/
theorem Tree.writesDistinct_mergeAll {trees : List Tree}
    (h : ∀ t ∈ trees, Tree.WritesDistinct t) : Tree.WritesDistinct (mergeAll trees) := by
  refine List.foldlRecOn trees merge Tree.writesDistinct_nil ?_
  intro merged hmerged t ht
  exact hmerged.merge (h t ht)

/-! ## Compiled fields -/

/-- The value of a parameter is a text, a list of texts, a document read from a text, or the value
of the attribute. -/
theorem distinct_of_parameter? {r : Resolver Id} {name key : String} {v value : Json}
    (hv : v.Distinct) (h : (parameter? r name v : Option (String × Json)) = some (key, value)) :
    value.Distinct := by
  unfold parameter? at h
  split at h
  · simp [pure] at h
  split at h
  · obtain ⟨fields, hfields, hvalue⟩ := Option.map_eq_some_iff.1 h
    obtain ⟨text, -, hread⟩ := Option.bind_eq_some_iff.1 hfields
    obtain rfl : fields = value := (Prod.mk.inj hvalue).2
    exact Json.distinct_of_readAs (Except.toOption_eq_some.1 hread)
  split at h
  · obtain ⟨names, hnames, hvalue⟩ := Option.map_eq_some_iff.1 h
    obtain rfl : names = value := (Prod.mk.inj hvalue).2
    unfold namesValue at hnames
    split at hnames
    · simp at hnames
    · exact Option.some.inj hnames ▸ Json.distinct_str _
    · refine Option.some.inj hnames ▸ Json.distinct_arr.2 fun w hw => ?_
      obtain ⟨s, -, rfl⟩ := List.mem_map.1 hw
      exact Json.distinct_str s
  · obtain rfl : v = value := (Prod.mk.inj (Option.some.inj h)).2
    exact hv

/-- No kind gives a name twice. -/
theorem writesDistinct_kind (kind : Kind) : kind.node.WritesDistinct := by
  have hbase : (if kind.isStructural then Node.empty else .ofType kind.name).WritesDistinct := by
    split
    · exact Node.writesDistinct_empty
    · exact Node.writesDistinct_empty.insertPlain typeName (Json.distinct_str kind.name)
  unfold Kind.node
  by_cases ho : kind = .object
  · rw [if_pos ho]
    exact hbase.setNested Tree.writesDistinct_nil
  · rw [if_neg ho]
    exact hbase

/-- What a field says by itself has no name twice if its document has none. -/
theorem writesDistinct_heading (r : Resolver Id) {f : Field} (hf : f.ReadsDistinct) :
    Node.WritesDistinct (heading r f) := by
  refine heading_induction_of_parameters ?_ ?_
  · intro n key value e he hkey hn
    exact hn.insertPlain key (distinct_of_parameter? (hf.attributes e he) hkey)
  · cases Kind.of f with
    | none => exact Node.writesDistinct_empty
    | some kind => exact writesDistinct_kind kind

/-- A relation writes or removes one group, which is a name or a list of names. -/
theorem distinct_addRelation {groups : Table Json} (h : (Json.obj groups).Distinct)
    (relation : Relation) : (Json.obj (addRelation groups relation)).Distinct := by
  unfold addRelation
  split
  · exact Json.distinct_insert h _ (Json.distinct_str _)
  · obtain ⟨hnames, hvalues⟩ := Json.distinct_obj.1 h
    refine Json.distinct_obj.2 ⟨hnames.erase _, fun e he => ?_⟩
    exact hvalues e ((Table.erase_sublist groups _).subset he)
  · refine Json.distinct_insert h _ (Json.distinct_arr.2 fun v hv => ?_)
    obtain ⟨c, -, rfl⟩ := List.mem_map.1 hv
    exact Json.distinct_str _
  · exact h

/-- No parent stands twice among the groups of a join field. -/
theorem distinct_joinGroups (relations : List Relation) :
    (Json.obj (joinGroups relations)).Distinct := by
  refine List.foldlRecOn relations addRelation (motive := fun groups => (Json.obj groups).Distinct)
    Json.distinct_nil ?_
  intro groups hgroups relation _
  exact distinct_addRelation hgroups relation

/-- Compiled fields have no name twice if none of them has. -/
theorem writesDistinct_compileFields (r : Resolver Id) {fs : List (String × Field)}
    (hnames : Table.Distinct fs) (h : ∀ e ∈ fs, Node.WritesDistinct (compile r e.2)) :
    Tree.WritesDistinct (compileFields r fs) := by
  have hcompiled : Table.names (fs.map fun e => (e.1, (compile r e.2 : Node))) = Table.names fs :=
    List.map_map
  rw [compileFields_eq]
  refine Tree.writesDistinct_iff.2 ⟨?_, List.forall_mem_map.2 h⟩
  unfold Table.Distinct
  rw [hcompiled]
  exact hnames

/-- A field that is read from a document of distinct names is compiled to a node of distinct
names. -/
theorem writesDistinct_compile (r : Resolver Id) {f : Field} (hf : f.ReadsDistinct) :
    Node.WritesDistinct (compile r f) := by
  induction f using field_induction with
  | h f hproperties hitem =>
  have hbelow : Node.WritesDistinct (below r f) := by
    refine below_induction Node.writesDistinct_empty ?_ fun g hg => hitem g hg (hf.item hg)
    intro fs hfs
    obtain ⟨hnames, hread⟩ := hf.properties hfs
    exact Node.writesDistinct_empty.setNested
      (writesDistinct_compileFields r hnames fun e he => hproperties fs hfs e he (hread e he))
  have hoverlay : Node.WritesDistinct (overlay r f) := by
    refine overlay_induction Node.writesDistinct_empty ?_ ?_ fun _ => hbelow
    · intro target
      exact Node.writesDistinct_empty.insertPlain "path" (Json.distinct_str target)
    · intro relations
      exact Node.writesDistinct_empty.insertPlain "relations" (distinct_joinGroups relations)
  rw [compile_eq_assign]
  exact (writesDistinct_heading r hf).assign hoverlay

/-- The tree of an entity document of distinct names has distinct names. -/
theorem writesDistinct_compileDocument (r : Resolver Id) {root : Field} (h : root.ReadsDistinct) :
    Tree.WritesDistinct (compileDocument r root) := by
  rw [compileDocument]
  rcases cases_of_documentFields root with hnil | ⟨ps, source, hps, hget, hfs⟩
  · rw [hnil]
    exact Tree.writesDistinct_nil
  · have hsource : source.ReadsDistinct := (h.properties hps).2 _ (Table.mem_of_get? hget)
    obtain ⟨hnames, hread⟩ := hsource.properties hfs
    exact writesDistinct_compileFields r hnames fun e he => writesDistinct_compile r (hread e he)

end SearchIndex.Mapping
