import SearchIndex.Proofs.Mapping.Merge

/-!
# Trees under merging form a monoid

Merging is associative and the empty tree is neutral on both sides, with the order of fields and
attributes included. A list of trees may therefore be merged in consecutive groups: `merge_laws`.

Associativity of trees and of nodes rest on each other. `merge_assoc_of` derives it for trees from
that of the nodes in them, and `mergeNode_assoc` closes the circle by induction on the first node.
-/

namespace SearchIndex.Mapping

/-! ## The neutral element -/

/-- Merging into the empty tree gives the other tree. -/
theorem nil_merge (t : Tree) : merge [] t = t := by
  simp [merge, mergeFields, newFields]

/-- Merging the empty tree changes nothing. -/
theorem merge_nil (t : Tree) : merge t [] = t := by
  rw [merge, mergeFields_eq_map]
  simp [newFields]

/-! ## Associativity -/

/-- Fields are merged one by one. -/
theorem mergeFields_append (a a' b : Tree) :
    mergeFields (a ++ a') b = mergeFields a b ++ mergeFields a' b := by
  simp only [mergeFields_eq_map, List.map_append]

/-- What the first tree lacks may be merged before or after the fields it has are left out. -/
theorem mergeFields_newFields (a b c : Tree) :
    mergeFields (newFields a b) c = newFields a (mergeFields b c) := by
  simp only [mergeFields_eq_map, newFields, List.filter_map]
  rfl

/-- A merged tree lacks what both trees lack. -/
theorem newFields_merge (a b c : Tree) :
    newFields (merge a b) c = newFields a (newFields b c) := by
  simp only [newFields, List.filter_filter, get?_merge]
  refine List.filter_congr fun e _ => ?_
  cases Table.get? a e.1 <;> cases Table.get? b e.1 <;> rfl

/-- New fields are picked out one by one. -/
theorem newFields_append (a b b' : Tree) :
    newFields a (b ++ b') = newFields a b ++ newFields a b' :=
  List.filter_append ..

/-- Fields may be merged with two trees one after the other if their nodes may. -/
theorem mergeFields_mergeFields {a : Tree} (b c : Tree)
    (h : ∀ e ∈ a, ∀ n n', mergeNode (mergeNode e.2 n) n' = mergeNode e.2 (mergeNode n n')) :
    mergeFields (mergeFields a b) c = mergeFields a (merge b c) := by
  simp only [mergeFields_eq_map, List.map_map]
  refine List.map_congr_left fun e he => ?_
  simp only [Function.comp_apply, get?_merge]
  cases Table.get? b e.1 <;> cases Table.get? c e.1
  case some.some n n' => simp [h e he n n']
  all_goals simp

/-- Merging is associative in trees if it is so in their nodes. -/
theorem merge_assoc_of {a : Tree} (b c : Tree)
    (h : ∀ e ∈ a, ∀ n n', mergeNode (mergeNode e.2 n) n' = mergeNode e.2 (mergeNode n n')) :
    merge (merge a b) c = merge a (merge b c) := by
  calc merge (merge a b) c
    _ = mergeFields (mergeFields a b) c ++ mergeFields (newFields a b) c ++
          newFields (merge a b) c := by
        rw [merge, merge, mergeFields_append]
    _ = mergeFields a (merge b c) ++ newFields a (mergeFields b c) ++
          newFields a (newFields b c) := by
        rw [mergeFields_mergeFields b c h, mergeFields_newFields, newFields_merge]
    _ = merge a (merge b c) := by
        rw [List.append_assoc, ← newFields_append]
        rfl

/-- Fields may be merged into an attribute table one tree after the other if they may be so into the
nested fields in it. -/
theorem mergeNested_mergeNested {entries : List (String × Attribute)} (b c : Tree)
    (h : ∀ name fields, (name, .nested fields) ∈ entries →
      merge (merge fields b) c = merge fields (merge b c)) :
    mergeNested (mergeNested entries b) c = mergeNested entries (merge b c) := by
  induction entries with
  | nil => rfl
  | cons e entries ih =>
    obtain ⟨name, a⟩ := e
    by_cases hname : name = nestedName
    · have ha : mergeAttribute (mergeAttribute a b) c = mergeAttribute a (merge b c) := by
        cases a with
        | plain v => rfl
        | nested fields =>
          simp only [mergeAttribute_nested]
          rw [h name fields List.mem_cons_self]
      simp only [mergeNested, if_pos hname, ha]
    · have hrest := ih fun name fields hmem => h name fields (List.mem_cons_of_mem _ hmem)
      simp only [mergeNested, if_neg hname, hrest]

/-- Merging nodes is associative. -/
theorem mergeNode_assoc (a b c : Node) :
    mergeNode (mergeNode a b) c = mergeNode a (mergeNode b c) := by
  induction a using node_induction generalizing b c with
  | h a ih =>
  -- only definitions with nested fields reach further than the definition before them
  cases hc : c.nested? with
  | none => rw [mergeNode_of_scalar hc, mergeNode_of_scalar hc]
  | some fields'' =>
    cases hb : b.nested? with
    | none => rw [mergeNode_of_scalar hb, mergeNode_of_object hb hc]
    | some fields' =>
      have hbc : (mergeNode b c).nested? = some (merge fields' fields'') := by
        rw [nested?_mergeNode, hb, hc, Option.merge_some_some]
      cases ha : a.nested? with
      | none => rw [mergeNode_of_object ha hb, mergeNode_of_object ha hbc]
      | some fields =>
        have hab : (mergeNode a b).nested? = some (merge fields fields') := by
          rw [nested?_mergeNode, ha, hb, Option.merge_some_some]
        rw [mergeNode_of_objects hab hc, mergeNode_of_objects ha hb, mergeNode_of_objects ha hbc]
        exact congrArg Node.mk (mergeNested_mergeNested fields' fields'' fun name fields hmem =>
          merge_assoc_of fields' fields'' fun e he => ih name fields hmem e he)

/-- Merging trees is associative. -/
theorem merge_assoc (a b c : Tree) : merge (merge a b) c = merge a (merge b c) :=
  merge_assoc_of b c fun e _ => mergeNode_assoc e.2

instance : Std.Associative merge := ⟨merge_assoc⟩

instance : Std.LawfulIdentity merge [] where
  left_id := nil_merge
  right_id := merge_nil

/-! ## Lists of trees -/

/-- A list of trees merges like its two parts. -/
theorem mergeAll_append (trees trees' : List Tree) :
    mergeAll (trees ++ trees') = merge (mergeAll trees) (mergeAll trees') := by
  have hassoc : trees'.foldl merge (merge (mergeAll trees) []) =
      merge (mergeAll trees) (trees'.foldl merge []) :=
    List.foldl_assoc
  rw [merge_nil] at hassoc
  rw [mergeAll, List.foldl_append]
  exact hassoc

/-- Groups of trees, each merged first, merge like all their trees. -/
theorem mergeAll_map_mergeAll (groups : List (List Tree)) :
    mergeAll (groups.map mergeAll) = mergeAll groups.flatten := by
  induction groups with
  | nil => rfl
  | cons group groups ih =>
    calc mergeAll ((group :: groups).map mergeAll)
      _ = merge (mergeAll [mergeAll group]) (mergeAll (groups.map mergeAll)) :=
          mergeAll_append [mergeAll group] (groups.map mergeAll)
      _ = merge (mergeAll group) (mergeAll groups.flatten) := by
          rw [ih, mergeAll, List.foldl_cons, List.foldl_nil, nil_merge]
      _ = mergeAll (group :: groups).flatten := by
          rw [List.flatten_cons, mergeAll_append]

/-- Trees form a monoid under merging, so that a list of them may be merged in groups. -/
theorem merge_laws :
    (∀ a b c, merge (merge a b) c = merge a (merge b c)) ∧
      (∀ a, merge [] a = a) ∧ (∀ a, merge a [] = a) ∧
      ∀ groups : List (List Tree), mergeAll (groups.map mergeAll) = mergeAll groups.flatten :=
  ⟨merge_assoc, nil_merge, merge_nil, mergeAll_map_mergeAll⟩

end SearchIndex.Mapping
