import SearchIndex.Mapping.Node
import SearchIndex.Proofs.Path
import SearchIndex.Proofs.Table

/-!
# Places in a mapping tree

A path names a field of a mapping tree (`Tree.field?`) and, if that field has nested fields, a level
of the tree (`Tree.level?`). `Node.outline` is what a field says apart from its nested fields.

A tree is a table of tables, so no name stands twice at one level: `Tree.Distinct`.
-/

namespace SearchIndex.Mapping

namespace Node

/-- The field has nested fields. -/
def isObject (n : Node) : Bool := n.nested?.isSome

/-- The attributes in order, with a blank where the nested fields stand. -/
def outline (n : Node) : List (String × Option Attribute) :=
  n.entries.map fun e => (e.1, if e.1 = nestedName then none else some e.2)

/-- An attribute that is set is there, and the other ones stay. -/
theorem get?_insert (n : Node) (name other : String) (value : Attribute) :
    (n.insert name value).get? other = if name = other then some value else n.get? other :=
  Table.get?_insert n.entries name other value

/-- What is laid over a node answers first. -/
theorem get?_assign (n : Node) {other : Node} (h : Table.Distinct other.entries) (name : String) :
    (n.assign other).get? name = (other.get? name).or (n.get? name) :=
  Table.get?_extend n.entries h name

@[simp] theorem assign_empty (n : Node) : n.assign .empty = n := by
  cases n
  rfl

/-- Assigning a node to the empty one gives the node. -/
theorem empty_assign {n : Node} (h : Table.Distinct n.entries) : Node.empty.assign n = n := by
  obtain ⟨entries⟩ := n
  exact congrArg Node.mk (Table.ofList_of_distinct h)

/-- A plain attribute is what stands under its name as such. -/
theorem plain?_eq_some_iff {n : Node} {name : String} {v : Json} :
    n.plain? name = some v ↔ n.get? name = some (.plain v) := by
  unfold plain?
  split
  · next w hw => simp [hw]
  · next h => simpa using h v

/-- Nested fields are what stands under their name as such. -/
theorem nested?_eq_some_iff {n : Node} {fields : Tree} :
    n.nested? = some fields ↔ n.get? nestedName = some (.nested fields) := by
  unfold nested?
  split
  · next h => simp [h]
  · next h => simpa using h fields

/-- The type is the text that stands under its name. -/
theorem type?_eq_some_iff {n : Node} {s : String} :
    n.type? = some s ↔ n.get? typeName = some (.plain (.str s)) := by
  have htext : ∀ v : Json, v.text? = some s ↔ v = .str s := by
    intro v
    cases v <;> simp [Json.text?]
  unfold type? plain?
  split
  · next v hv => simp [hv, htext]
  · next hnone => simpa using hnone (.str s)

end Node

namespace Tree

/-- The fields at a level of a tree: its own ones, or those nested in the field at a path. -/
abbrev level? (t : Tree) (path : List String) : Option Tree := Table.level? Node.nested? t path

/-- The field at a path. -/
abbrev field? (t : Tree) (path : List String) : Option Node := Table.follow? Node.nested? t path

/-- The last name of a path is looked up at the level that the others lead to. -/
theorem field?_concat (t : Tree) (front : List String) (name : String) :
    field? t (front ++ [name]) = (level? t front).bind fun fields => Table.get? fields name :=
  Table.follow?_concat Node.nested? t front name

end Tree

mutual

/-- A property of nodes that passes from the fields nested in a node to the node holds of all. -/
theorem node_induction {P : Node → Prop}
    (h : ∀ n, (∀ name fields, (name, .nested fields) ∈ n.entries → ∀ e ∈ fields, P e.2) → P n) :
    ∀ n, P n
  | ⟨entries⟩ => h _ (attributes_induction h entries)

/-- A property that passes upwards holds of the fields nested in attributes. -/
theorem attributes_induction {P : Node → Prop}
    (h : ∀ n, (∀ name fields, (name, .nested fields) ∈ n.entries → ∀ e ∈ fields, P e.2) → P n) :
    ∀ (entries : List (String × Attribute)) (name : String) (fields : Tree),
      (name, .nested fields) ∈ entries → ∀ e ∈ fields, P e.2
  | [], name, fields, hmem => by simp at hmem
  | (key, .plain v) :: rest, name, fields, hmem =>
    attributes_induction h rest name fields (by simpa using hmem)
  | (key, .nested fields') :: rest, name, fields, hmem => by
    rcases List.mem_cons.1 hmem with heq | hmem
    · obtain rfl : fields' = fields := by simpa using congrArg Prod.snd heq.symm
      exact tree_induction h fields'
    · exact attributes_induction h rest name fields hmem

/-- A property that passes upwards holds of the nodes of a tree. -/
theorem tree_induction {P : Node → Prop}
    (h : ∀ n, (∀ name fields, (name, .nested fields) ∈ n.entries → ∀ e ∈ fields, P e.2) → P n) :
    ∀ (t : List (String × Node)), ∀ e ∈ t, P e.2
  | [], e, he => by simp at he
  | (name, n) :: rest, e, he => by
    rcases List.mem_cons.1 he with rfl | he
    · exact node_induction h n
    · exact tree_induction h rest e he

end

/-- A property that passes from the trees nested in the fields of a tree to the tree holds of all
trees. -/
theorem nested_induction {P : Tree → Prop}
    (h : ∀ t : Tree, (∀ e ∈ t, ∀ fields, e.2.nested? = some fields → P fields) → P t) (t : Tree) :
    P t := by
  have hnode : ∀ n : Node, ∀ fields, n.nested? = some fields → P fields := by
    intro n
    induction n using node_induction with
    | h n ih =>
    intro fields hfields
    have hmem : (nestedName, .nested fields) ∈ n.entries :=
      Table.mem_of_get? (Node.nested?_eq_some_iff.1 hfields)
    exact h fields (ih nestedName fields hmem)
  exact h t fun e _ => hnode e.2

mutual

/-- No name stands twice among fields or at a level below them. -/
def Tree.Distinct : List (String × Node) → Prop
  | [] => True
  | (name, n) :: rest => name ∉ Table.names rest ∧ Node.Distinct n ∧ Tree.Distinct rest

/-- No name stands twice among the attributes of a node or at a level below it. -/
def Node.Distinct : Node → Prop
  | ⟨entries⟩ => Node.AttributesDistinct entries

/-- No name stands twice among attributes or at a level below them. -/
def Node.AttributesDistinct : List (String × Attribute) → Prop
  | [] => True
  | (name, a) :: rest =>
    name ∉ Table.names rest ∧ Attribute.Distinct a ∧ Node.AttributesDistinct rest

/-- No name stands twice at a level below an attribute. -/
def Attribute.Distinct : Attribute → Prop
  | .nested fields => Tree.Distinct fields
  | .plain _ => True

end

namespace Tree

/-- The names at the top of a tree are distinct. -/
theorem Distinct.names {t : Tree} (h : Tree.Distinct t) : Table.Distinct t := by
  induction t with
  | nil => exact List.nodup_nil
  | cons e t ih =>
    obtain ⟨he, -, ht⟩ := h
    exact List.nodup_cons.2 ⟨he, ih ht⟩

/-- No name stands twice in a field of a tree. -/
theorem Distinct.of_mem {t : Tree} (h : Tree.Distinct t) : ∀ e ∈ t, Node.Distinct e.2 := by
  induction t with
  | nil => simp
  | cons e t ih =>
    obtain ⟨-, hn, ht⟩ := h
    intro e' he'
    rcases List.mem_cons.1 he' with rfl | he'
    · exact hn
    · exact ih ht e' he'

end Tree

/-- No name stands twice in an attribute of a node. -/
theorem Node.AttributesDistinct.of_mem {entries : List (String × Attribute)}
    (h : Node.AttributesDistinct entries) : ∀ e ∈ entries, Attribute.Distinct e.2 := by
  induction entries with
  | nil => simp
  | cons e entries ih =>
    obtain ⟨-, ha, hentries⟩ := h
    intro e' he'
    rcases List.mem_cons.1 he' with rfl | he'
    · exact ha
    · exact ih hentries e' he'

/-- The nested fields of a node are as distinct as the node. -/
theorem Node.Distinct.nested {n : Node} (h : n.Distinct) {fields : Tree}
    (hn : n.nested? = some fields) : Tree.Distinct fields := by
  obtain ⟨entries⟩ := n
  exact Node.AttributesDistinct.of_mem h _ (Table.mem_of_get? (Node.nested?_eq_some_iff.1 hn))

/-- No level of a tree of distinct names has a name twice. -/
theorem Tree.Distinct.level {t level : Tree} (h : Tree.Distinct t) {path : List String}
    (hl : Tree.level? t path = some level) : Table.Distinct level := by
  induction path generalizing t with
  | nil =>
    obtain rfl : t = level := by simpa using hl
    exact h.names
  | cons name path ih =>
    obtain ⟨fields, hfields, hl⟩ := Option.bind_eq_some_iff.1 hl
    obtain ⟨n, hn, hnf⟩ := Option.bind_eq_some_iff.1 hfields
    have hn' : n.Distinct := h.of_mem _ (Table.mem_of_get? hn)
    exact ih (hn'.nested hnf) hl

end SearchIndex.Mapping
