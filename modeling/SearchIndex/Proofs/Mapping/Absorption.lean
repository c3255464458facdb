import SearchIndex.Proofs.Mapping.Replacements

/-!
# Merging what is there already

`t.Covers s` says that `t` has fields wherever `s` has, under each of the names that `s` has there.
Merging `s` into `t` then changes nothing, and only then (`merge_eq_left_iff`).

A tree that was merged is covered from then on, whatever is merged later (`Tree.covers_merge`,
`Tree.Covers.merge`). Hence a merged list of trees covers each of them, and what an earlier tree
covers may be left out of the list (`mergeAll_drop`), all at once as well (`apply_eraseDupsBy`).
-/

namespace SearchIndex.Mapping

/-! ## Covered trees -/

/-- Wherever `s` has fields, `t` has fields of these names. -/
def Tree.Covers (t s : Tree) : Prop :=
  ∀ path fields, Tree.level? s path = some fields →
    ∃ fields', Tree.level? t path = some fields' ∧ Table.names fields ⊆ Table.names fields'

namespace Tree.Covers

variable {s t u : Tree}

/-- A tree covers itself. -/
protected theorem refl (t : Tree) : t.Covers t :=
  fun _ fields h => ⟨fields, h, List.Subset.refl _⟩

/-- What covers a tree covers all that the tree covers. -/
protected theorem trans (htu : t.Covers u) (hus : u.Covers s) : t.Covers s := by
  intro path fields hfields
  obtain ⟨fields', hfields', hnames⟩ := hus path fields hfields
  obtain ⟨fields'', hfields'', hnames'⟩ := htu path fields' hfields'
  exact ⟨fields'', hfields'', List.Subset.trans hnames hnames'⟩

/-- What is covered stays so, whatever is merged. -/
theorem merge (h : t.Covers s) (u : Tree) : Tree.Covers (Mapping.merge t u) s := by
  intro path fields hfields
  obtain ⟨fields', hfields', hnames⟩ := h path fields hfields
  rw [level?_merge, hfields']
  cases Tree.level? u path with
  | none => exact ⟨fields', Option.merge_none_right .., hnames⟩
  | some added =>
    refine ⟨Mapping.merge fields' added, rfl, ?_⟩
    rw [names_merge]
    exact List.subset_append_of_subset_left _ hnames

/-- Nested fields are covered by those of the same field. -/
theorem nested (h : t.Covers s) {name : String} {n n' : Node} {fields fields' : Tree}
    (hn : Table.get? t name = some n) (hfields : n.nested? = some fields)
    (hn' : Table.get? s name = some n') (hfields' : n'.nested? = some fields') :
    fields.Covers fields' := by
  intro path inner hinner
  have hbelow := h (name :: path) inner
  simp only [Tree.level?, Table.level?, hn, hn', Option.bind_some, hfields, hfields'] at hbelow
  exact hbelow hinner

end Tree.Covers

/-- What is merged is covered. -/
theorem Tree.covers_merge (t s : Tree) : (merge t s).Covers s := by
  intro path fields hfields
  rw [level?_merge, hfields]
  cases Tree.level? t path with
  | none => exact ⟨fields, Option.merge_none_left .., List.Subset.refl _⟩
  | some old =>
    refine ⟨merge old fields, rfl, fun name hname => ?_⟩
    by_cases hold : name ∈ Table.names old <;> simp [names_merge, List.removeAll, hname, hold]

/-! ## Merging a covered tree -/

/-- Attributes stay as they are if merging changes none of the fields nested in them. -/
theorem mergeNested_eq_self {n : Node} {fields s : Tree} (hn : n.nested? = some fields)
    (h : merge fields s = fields) : mergeNested n.entries s = n.entries := by
  obtain ⟨entries⟩ := n
  rw [Node.nested?_eq_some_iff, Node.get?] at hn
  dsimp only at hn ⊢
  induction entries with
  | nil => rfl
  | cons e entries ih =>
    obtain ⟨name, a⟩ := e
    by_cases hname : name = nestedName
    · obtain rfl : a = .nested fields := by simpa [Table.get?, hname] using hn
      rw [mergeNested, if_pos hname, mergeAttribute_nested, h]
    · rw [mergeNested, if_neg hname, ih (by simpa [Table.get?, hname] using hn)]

/-- Merging changes nothing iff all that is merged is covered. -/
theorem merge_eq_left_iff {t s : Tree} (ht : Tree.LevelsDistinct t) :
    merge t s = t ↔ t.Covers s := by
  refine ⟨fun h => h ▸ Tree.covers_merge t s, fun hcovers => ?_⟩
  induction t using nested_induction generalizing s with
  | h t ih =>
  obtain ⟨fields, hfields, hnames⟩ := hcovers [] s rfl
  obtain rfl : t = fields := Option.some.inj hfields
  have hnew : newFields t s = [] := by
    refine List.filter_eq_nil_iff.2 fun e he => ?_
    have hname : e.1 ∈ Table.names t := hnames (List.mem_map_of_mem he)
    rwa [Option.isNone_iff_eq_none, Table.get?_eq_none_iff, not_not]
  have hold : mergeFields t s = t := by
    rw [mergeFields_eq_map]
    refine (List.map_congr_left fun e he => ?_).trans (List.map_id t)
    cases hn' : Table.get? s e.1 with
    | none => rfl
    | some n' =>
    refine congrArg (Prod.mk e.1) (?_ : mergeNode e.2 n' = e.2)
    cases hfields' : n'.nested? with
    | none => exact mergeNode_of_scalar hfields'
    | some fields' =>
      -- `s` has a level below this field, so `t` has one
      have hn : Table.get? t e.1 = some e.2 := (Table.get?_eq_some_iff ht.names).2 he
      obtain ⟨fields, hfields, -⟩ := hcovers [e.1] fields' (by simp [Table.level?, hn', hfields'])
      have hfields : e.2.nested? = some fields := by simpa [Table.level?, hn] using hfields
      have hself : merge fields fields' = fields :=
        ih e he fields hfields (ht.nested he hfields) (hcovers.nested hn hfields hn' hfields')
      rw [mergeNode_of_objects hfields hfields', mergeNested_eq_self hfields hself]
      cases e.2
      rfl
  rw [merge, hold, hnew, List.append_nil]

/-- A covered tree replaces nothing. -/
theorem replacements_of_covers {t s : Tree} (ht : Tree.LevelsDistinct t) (h : t.Covers s) :
    replacements t s = [] := by
  rw [replacements_eq, List.map_eq_nil_iff, List.eq_nil_iff_forall_not_mem]
  intro e he
  -- a field that gives way would have nested fields in the merged tree, but has none in `t`
  obtain ⟨hfield, hn, hobject⟩ := (mem_replaced_iff ht).1 he
  rw [← field?_merge_of_replaced ht he, (merge_eq_left_iff ht).2 h, hfield, Option.any_some,
    hn] at hobject
  exact absurd hobject Bool.false_ne_true

/-! ## Lists of trees -/

/-- At every level of a merged tree the names are distinct. -/
theorem Tree.LevelsDistinct.mergeAll {trees : List Tree}
    (h : ∀ t ∈ trees, Tree.LevelsDistinct t) : Tree.LevelsDistinct (mergeAll trees) :=
  List.foldlRecOn trees Mapping.merge Tree.levelsDistinct_nil fun _ hmerged t ht =>
    hmerged.merge (h t ht)

/-- A run of merges covers what its start covers, and each tree that is merged. -/
theorem Tree.covers_foldl {merged s : Tree} {trees : List Tree}
    (h : merged.Covers s ∨ s ∈ trees) : Tree.Covers (trees.foldl Mapping.merge merged) s := by
  induction trees generalizing merged with
  | nil => exact h.resolve_right List.not_mem_nil
  | cons t trees ih =>
    rw [List.foldl_cons]
    rcases h with h | h
    · exact ih (.inl (h.merge t))
    · rcases List.mem_cons.1 h with rfl | h
      · exact ih (.inl (Tree.covers_merge merged s))
      · exact ih (.inr h)

/-- A merged list of trees covers each of them. -/
theorem Tree.covers_mergeAll {trees : List Tree} {s : Tree} (hs : s ∈ trees) :
    (mergeAll trees).Covers s :=
  Tree.covers_foldl (.inr hs)

/-- A tree may be left out behind one that covers it. -/
theorem mergeAll_drop {front : List Tree} (h : ∀ t ∈ front, Tree.LevelsDistinct t) {s t : Tree}
    (ht : t ∈ front) (hs : t.Covers s) (rest : List Tree) :
    mergeAll (front ++ s :: rest) = mergeAll (front ++ rest) := by
  have hcovers : (mergeAll front).Covers s := (Tree.covers_mergeAll ht).trans hs
  have hmerge : merge (mergeAll front) s = mergeAll front :=
    (merge_eq_left_iff (Tree.LevelsDistinct.mergeAll h)).2 hcovers
  calc mergeAll (front ++ s :: rest)
    _ = rest.foldl merge (merge (mergeAll front) s) := List.foldl_append
    _ = rest.foldl merge (mergeAll front) := by rw [hmerge]
    _ = mergeAll (front ++ rest) := List.foldl_append.symm

/-! ## Leaving out all that comes again -/

section Repetitions

variable {α β : Type} {same : α → α → Bool} {P : α → Prop} {F : List α → β}
  (h : ∀ front x y rest, (∀ z ∈ front, P z) → x ∈ front → same y x →
    F (front ++ y :: rest) = F (front ++ rest))
include h

/-- If an element may be left out behind one that it is the same as, all of these may. -/
theorem apply_filter_same {front : List α} {x : α} (hx : x ∈ front) {rest : List α}
    (hP : ∀ y ∈ front ++ rest, P y) :
    F (front ++ rest.filter fun y => same y x = false) = F (front ++ rest) := by
  induction rest generalizing front with
  | nil => rfl
  | cons y rest ih =>
    by_cases hy : same y x
    · have hfront : ∀ z ∈ front, P z := fun z hz => hP z (List.mem_append_left _ hz)
      have hP : ∀ z ∈ front ++ rest, P z := fun z hz => hP z (by grind)
      rw [List.filter_cons_of_neg (by simp [hy]), ih hx hP, h front x y rest hfront hx hy]
    · have hmoved : F (front ++ [y] ++ rest.filter fun y => same y x = false) =
          F (front ++ [y] ++ rest) := ih (List.mem_append_left [y] hx) (by simpa using hP)
      rw [List.filter_cons_of_pos (by simp [hy])]
      simpa using hmoved

/-- If an element may be left out behind one that it is the same as, all may that come again. -/
theorem apply_eraseDupsBy (front : List α) {xs : List α} (hP : ∀ y ∈ front ++ xs, P y) :
    F (front ++ xs.eraseDupsBy same) = F (front ++ xs) := by
  -- the rest of a list loses elements before its turn comes, so the induction is on the length
  induction hlength : xs.length using Nat.strongRecOn generalizing front xs with
  | _ length ih =>
  cases xs with
  | nil => rfl
  | cons x xs =>
    have hlt : (xs.filter fun y => same y x = false).length < length := by
      have hle := List.length_filter_le (fun y => same y x = false) xs
      simp only [List.length_cons] at hlength
      omega
    have hkept : ∀ y ∈ front ++ [x] ++ xs.filter (fun y => same y x = false), P y := by
      intro y hy
      exact hP y (by grind)
    calc F (front ++ (x :: xs).eraseDupsBy same)
      _ = F (front ++ [x] ++ (xs.filter fun y => same y x = false).eraseDupsBy same) := by
          rw [List.eraseDupsBy_cons, List.append_assoc]
          rfl
      _ = F (front ++ [x] ++ xs.filter fun y => same y x = false) := ih _ hlt _ hkept rfl
      _ = F (front ++ [x] ++ xs) := apply_filter_same h (by simp) (by simpa using hP)
      _ = F (front ++ x :: xs) := by rw [List.append_assoc]; rfl

end Repetitions

/-- Trees may be left out behind trees that cover them. -/
theorem mergeAll_eraseDupsBy {same : Tree → Tree → Bool}
    (hsame : ∀ s t, same s t → t.Covers s) {trees : List Tree}
    (h : ∀ t ∈ trees, Tree.LevelsDistinct t) :
    mergeAll (trees.eraseDupsBy same) = mergeAll trees :=
  apply_eraseDupsBy (P := Tree.LevelsDistinct)
    (fun _ _ _ rest hfront ht hs => mergeAll_drop hfront ht (hsame _ _ hs) rest) [] h

end SearchIndex.Mapping
