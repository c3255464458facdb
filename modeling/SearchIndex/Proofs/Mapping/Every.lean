import SearchIndex.Proofs.Mapping.Merge

/-!
# What holds of every attribute of a tree

`Node.Every P` says that `P` holds of each attribute of a node and of all nodes below it, name and
value. Writing attributes keeps it, and so does merging as long as `P` does not look into nested
fields: `Tree.Every.mergeAll`.

In a written tree nothing but its name tells nested fields from a plain value.
`Tree.ofJson_toJson` reads back every tree whose nested fields are `Placed` under that name.
-/

namespace SearchIndex.Mapping

/-- Each attribute of the node and of the nodes below it has the property. -/
inductive Node.Every (P : String → Attribute → Prop) : Node → Prop
  | intro {n : Node} (own : ∀ e ∈ n.entries, P e.1 e.2)
      (below : ∀ name fields, (name, .nested fields) ∈ n.entries →
        ∀ e ∈ fields, Node.Every P e.2) : Node.Every P n

/-- Each attribute in the tree has the property. -/
def Tree.Every (P : String → Attribute → Prop) (t : Tree) : Prop := ∀ e ∈ t, Node.Every P e.2

variable {P : String → Attribute → Prop}

/-! ## Writing attributes -/

/-- There is nothing in the empty node. -/
theorem Node.every_empty : Node.Every P .empty :=
  ⟨fun _ he => absurd he List.not_mem_nil, fun _ _ he => absurd he List.not_mem_nil⟩

/-- A property of all attributes is kept by an attribute that has it. -/
theorem Node.Every.insert {n : Node} (h : n.Every P) {name : String} {a : Attribute}
    (ha : P name a) (hfields : ∀ fields, a = .nested fields → Tree.Every P fields) :
    (n.insert name a).Every P := by
  obtain ⟨own, below⟩ := h
  refine ⟨?_, ?_⟩
  · intro e he
    rcases Table.mem_insert he with rfl | he
    · exact ha
    · exact own e he
  · intro key fields hmem
    rcases Table.mem_insert hmem with heq | hmem
    · exact hfields fields (Prod.mk.inj heq).2.symm
    · exact below key fields hmem

/-- A property of all attributes is kept by a plain value that has it. -/
theorem Node.Every.insertPlain {n : Node} (h : n.Every P) {name : String} {v : Json}
    (hv : P name (.plain v)) : (n.insertPlain name v).Every P :=
  h.insert hv fun _ heq => Attribute.noConfusion heq

/-- A property of all attributes is kept by nested fields that have it. -/
theorem Node.Every.setNested {n : Node} (h : n.Every P) {fields : Tree}
    (hP : P nestedName (.nested fields)) (hfields : Tree.Every P fields) :
    (n.setNested fields).Every P :=
  h.insert hP fun _ heq => Attribute.nested.inj heq ▸ hfields

/-- If all attributes of two nodes have a property, so do those of one assigned to the other. -/
theorem Node.Every.assign {n other : Node} (h : n.Every P) (hother : other.Every P) :
    (n.assign other).Every P := by
  obtain ⟨own, below⟩ := h
  obtain ⟨own', below'⟩ := hother
  refine ⟨?_, ?_⟩
  · intro e he
    exact (Table.mem_extend he).elim (own e) (own' e)
  · intro name fields hmem
    exact (Table.mem_extend hmem).elim (below name fields) (below' name fields)

/-- What follows from a property of every attribute holds of every attribute. -/
theorem Node.Every.imp {Q : String → Attribute → Prop} (hPQ : ∀ name a, P name a → Q name a)
    {n : Node} (h : n.Every P) : n.Every Q := by
  induction h with
  | intro own _ ih => exact ⟨fun e he => hPQ e.1 e.2 (own e he), ih⟩

/-! ## Merging -/

/-- A field of two merged trees is one of the second tree, or one of the first tree, merged or
not. -/
theorem mem_merge {a b : Tree} {e : String × Node} (he : e ∈ merge a b) :
    e ∈ b ∨ ∃ n, (e.1, n) ∈ a ∧ (e.2 = n ∨ ∃ n', (e.1, n') ∈ b ∧ e.2 = mergeNode n n') := by
  rcases List.mem_append.1 he with he | he
  · rw [mergeFields_eq_map] at he
    obtain ⟨⟨name, n⟩, hn, rfl⟩ := List.mem_map.1 he
    refine .inr ⟨n, hn, ?_⟩
    cases hb : Table.get? b name with
    | none => exact .inl rfl
    | some n' => exact .inr ⟨n', Table.mem_of_get? hb, rfl⟩
  · exact .inl (List.mem_filter.1 he).1

/-- Only nested fields change when fields are merged into a definition. -/
theorem mem_mergeNested {entries : List (String × Attribute)} {fields : Tree}
    {e : String × Attribute} (he : e ∈ mergeNested entries fields) :
    e ∈ entries ∨ ∃ fields', (nestedName, .nested fields') ∈ entries ∧
      e = (nestedName, .nested (merge fields' fields)) := by
  induction entries with
  | nil => exact .inl he
  | cons d entries ih =>
    obtain ⟨name, a⟩ := d
    by_cases hname : name = nestedName
    · subst hname
      rw [mergeNested, if_pos rfl] at he
      rcases List.mem_cons.1 he with rfl | he
      · cases a with
        | plain v => exact .inl List.mem_cons_self
        | nested fields' => exact .inr ⟨fields', List.mem_cons_self, rfl⟩
      · exact .inl (List.mem_cons_of_mem _ he)
    · rw [mergeNested, if_neg hname] at he
      rcases List.mem_cons.1 he with rfl | he
      · exact .inl List.mem_cons_self
      · rcases ih he with he | ⟨fields', hmem, rfl⟩
        · exact .inl (List.mem_cons_of_mem _ he)
        · exact .inr ⟨fields', List.mem_cons_of_mem _ hmem, rfl⟩

/-- A merge of trees has the property where the merges of their nodes have it. -/
theorem Tree.Every.merge_of {a b : Tree} (ha : Tree.Every P a) (hb : Tree.Every P b)
    (hnode : ∀ e ∈ a, ∀ n, Node.Every P n → Node.Every P (mergeNode e.2 n)) :
    Tree.Every P (merge a b) := by
  intro e he
  rcases mem_merge he with he | ⟨n, hn, heq | ⟨n', hn', heq⟩⟩
  · exact hb e he
  · exact heq ▸ ha (e.1, n) hn
  · exact heq ▸ hnode (e.1, n) hn n' (hb (e.1, n') hn')

section Merge

variable (hP : ∀ fields fields', P nestedName (.nested fields) → P nestedName (.nested fields'))
include hP

/-- A property of all attributes is kept when two nodes are merged. -/
theorem Node.Every.mergeNode {a b : Node} (ha : a.Every P) (hb : b.Every P) :
    (mergeNode a b).Every P := by
  induction ha generalizing b with
  | @intro a own below ih =>
    have ha : a.Every P := ⟨own, below⟩
    cases hb' : b.nested? with
    | none => rwa [mergeNode_of_scalar hb']
    | some fields' =>
      cases ha' : a.nested? with
      | none => rwa [mergeNode_of_object ha' hb']
      | some fields =>
        have hfields' : Tree.Every P fields' := by
          obtain ⟨-, below'⟩ := hb
          exact below' nestedName fields' (Table.mem_of_get? (Node.nested?_eq_some_iff.1 hb'))
        -- merged fields take the place of nested ones and change nothing else
        rw [mergeNode_of_objects ha' hb']
        refine ⟨?_, ?_⟩
        · intro e he
          rcases mem_mergeNested he with he | ⟨fields₀, hmem, rfl⟩
          · exact own e he
          · exact hP fields₀ _ (own _ hmem)
        · intro name fields₁ hmem
          rcases mem_mergeNested hmem with hold | ⟨fields₀, hold, heq⟩
          · exact below name fields₁ hold
          · obtain rfl := Attribute.nested.inj (Prod.mk.inj heq).2
            exact Tree.Every.merge_of (below nestedName fields₀ hold) hfields' fun e he n hn =>
              ih nestedName fields₀ hold e he hn

/-- A property of all attributes is kept when two trees are merged. -/
theorem Tree.Every.merge {a b : Tree} (ha : Tree.Every P a) (hb : Tree.Every P b) :
    Tree.Every P (merge a b) :=
  ha.merge_of hb fun e he _ hn => Node.Every.mergeNode hP (ha e he) hn

/-- A property of all attributes is kept when a list of trees is merged. -/
theorem Tree.Every.mergeAll {trees : List Tree} (h : ∀ t ∈ trees, Tree.Every P t) :
    Tree.Every P (mergeAll trees) := by
  have hfold : ∀ acc, Tree.Every P acc → Tree.Every P (trees.foldl Mapping.merge acc) := by
    induction trees with
    | nil => exact fun _ hacc => hacc
    | cons t trees ih =>
      obtain ⟨ht, htrees⟩ := List.forall_mem_cons.1 h
      exact fun acc hacc => ih htrees _ (hacc.merge hP ht)
  exact hfold [] fun e he => absurd he List.not_mem_nil

end Merge

/-! ## Reading back -/

/-- Nested fields stand under their name, and nothing else stands there. -/
def Attribute.Placed (name : String) (a : Attribute) : Prop :=
  name = nestedName ↔ ∃ fields, a = .nested fields

/-- A plain value may stand under every name but that of the nested fields. -/
theorem placed_plain {name : String} (h : name ≠ nestedName) (v : Json) :
    Attribute.Placed name (.plain v) :=
  ⟨fun heq => absurd heq h, fun ⟨_, heq⟩ => Attribute.noConfusion heq⟩

/-- Fields are read back if each of their nodes is. -/
theorem fieldsOf_fieldsToJson {t : Tree}
    (h : ∀ e ∈ t, Node.ofJson (Node.toJson e.2) = .ok e.2) :
    Node.fieldsOf (Node.fieldsToJson t) = .ok t := by
  induction t with
  | nil => rfl
  | cons e t ih =>
    obtain ⟨he, ht⟩ := List.forall_mem_cons.1 h
    rw [Node.fieldsToJson, Node.fieldsOf, he, ih ht]
    rfl

/-- Attributes in their places are read back if the nested fields are. -/
theorem attributesOf_attributesToJson {entries : List (String × Attribute)}
    (hplaced : ∀ e ∈ entries, Attribute.Placed e.1 e.2)
    (h : ∀ name fields, (name, .nested fields) ∈ entries →
      ∀ e ∈ fields, Node.ofJson (Node.toJson e.2) = .ok e.2) :
    Node.attributesOf (Node.attributesToJson entries) = .ok entries := by
  induction entries with
  | nil => rfl
  | cons e entries ih =>
    obtain ⟨name, a⟩ := e
    obtain ⟨hname, hplaced⟩ := List.forall_mem_cons.1 hplaced
    have hrest := ih hplaced fun key fields hmem => h key fields (List.mem_cons_of_mem _ hmem)
    rw [Node.attributesToJson, Node.attributesOf, hrest]
    cases a with
    | nested fields =>
      have hfields := fieldsOf_fieldsToJson (h name fields List.mem_cons_self)
      rw [if_pos (hname.2 ⟨fields, rfl⟩), Node.attributeToJson, Node.treeOf, hfields]
      rfl
    | plain v =>
      have hne : name ≠ nestedName := by
        intro heq
        obtain ⟨fields, hv⟩ := hname.1 heq
        exact Attribute.noConfusion hv
      rw [if_neg hne]
      rfl

/-- A node that is written and read back is the same. -/
theorem Node.ofJson_toJson {n : Node} (h : n.Every Attribute.Placed) :
    Node.ofJson n.toJson = .ok n := by
  induction h with
  | @intro n own _ ih =>
    obtain ⟨entries⟩ := n
    rw [Node.toJson, Node.ofJson, attributesOf_attributesToJson own ih]
    rfl

/-- A tree that is written and read back is the same. -/
theorem Tree.ofJson_toJson {t : Tree} (h : Tree.Every Attribute.Placed t) :
    Tree.ofJson (Tree.toJson t) = .ok t :=
  fieldsOf_fieldsToJson fun e he => Node.ofJson_toJson (h e he)

end SearchIndex.Mapping
