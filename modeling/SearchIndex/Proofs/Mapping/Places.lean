import Mathlib.Data.List.Nodup
import SearchIndex.Proofs.Mapping.Merge

/-!
# The fields of a tree in document order

`places` lists the fields of a tree with their paths, each field before those nested in it. In a
tree that has no name twice at a level, the list has exactly the fields that paths lead to
(`mem_places_iff`), and each path once (`nodup_places`).
-/

namespace SearchIndex.Mapping

mutual

/-- The fields of a tree with their paths, each before those nested in it. -/
def places : List (String × Node) → List (List String × Node)
  | [] => []
  | (name, n) :: rest =>
    ([name], n) :: (nodePlaces n).map (fun e => (name :: e.1, e.2)) ++ places rest

/-- The fields nested in a node. -/
def nodePlaces : Node → List (List String × Node)
  | ⟨entries⟩ => entryPlaces entries

/-- The fields nested in the attributes of a node. -/
def entryPlaces : List (String × Attribute) → List (List String × Node)
  | [] => []
  | (name, a) :: rest => if name = nestedName then attributePlaces a else entryPlaces rest

/-- The fields nested in an attribute. -/
def attributePlaces : Attribute → List (List String × Node)
  | .nested fields => places fields
  | .plain _ => []

end

/-- The fields nested in a node are those of the tree in it. -/
theorem nodePlaces_eq (n : Node) : nodePlaces n = (n.nested?.map places).getD [] := by
  obtain ⟨entries⟩ := n
  rw [nodePlaces]
  induction entries with
  | nil => rfl
  | cons e entries ih =>
    obtain ⟨name, a⟩ := e
    by_cases h : name = nestedName
    · rw [entryPlaces, if_pos h]
      cases a <;> simp [attributePlaces, Node.nested?, Node.get?, Table.get?, h]
    · rw [entryPlaces, if_neg h, ih]
      simp [Node.nested?, Node.get?, Table.get?, h]

/-- A field stands before those nested in it, and these before the other fields. -/
theorem places_cons (name : String) (n : Node) (rest : Tree) :
    places ((name, n) :: rest) =
      ([name], n) :: ((n.nested?.map places).getD []).map (fun e => (name :: e.1, e.2)) ++
        places rest := by
  rw [places, nodePlaces_eq]

/-- A path that is listed begins with the name of a field, and ends there or goes on below it. -/
theorem mem_places {t : Tree} {e : List String × Node} :
    e ∈ places t ↔ ∃ d ∈ t, e = ([d.1], d.2) ∨
      ∃ fields, d.2.nested? = some fields ∧ ∃ e' ∈ places fields, e = (d.1 :: e'.1, e'.2) := by
  induction t with
  | nil => simp [places]
  | cons d t ih =>
    obtain ⟨name, n⟩ := d
    have hbelow : e ∈ ((n.nested?.map places).getD []).map (fun e' => (name :: e'.1, e'.2)) ↔
        ∃ fields, n.nested? = some fields ∧ ∃ e' ∈ places fields, e = (name :: e'.1, e'.2) := by
      rw [List.mem_map]
      cases n.nested? with
      | none => simp
      | some fields => simp [eq_comm]
    rw [places_cons, List.cons_append, List.mem_cons, List.mem_append, hbelow, ih, ← or_assoc]
    simp only [List.mem_cons, exists_eq_or_imp]

/-- No path is empty. -/
theorem ne_nil_of_mem_places {t : Tree} {e : List String × Node} (h : e ∈ places t) :
    e.1 ≠ [] := by
  obtain ⟨d, -, rfl | ⟨fields, -, e', -, rfl⟩⟩ := mem_places.1 h
  · exact List.cons_ne_nil d.1 []
  · exact List.cons_ne_nil d.1 e'.1

/-- No level of the tree has a name twice. -/
def Tree.LevelsDistinct (t : Tree) : Prop :=
  ∀ path level, Tree.level? t path = some level → Table.Distinct level

namespace Tree.LevelsDistinct

variable {t : Tree}

/-- The names at the top are distinct. -/
theorem names (h : Tree.LevelsDistinct t) : Table.Distinct t := h [] t rfl

/-- At the levels of a nested tree the names are distinct. -/
theorem nested (h : Tree.LevelsDistinct t) {name : String} {n : Node} (hn : (name, n) ∈ t)
    {fields : Tree} (hfields : n.nested? = some fields) : Tree.LevelsDistinct fields := by
  intro path level hlevel
  refine h (name :: path) level ?_
  rw [Tree.level?, Table.level?, (Table.get?_eq_some_iff h.names).2 hn, Option.bind_some, hfields]
  exact hlevel

/-- At the levels of a merged tree the names are distinct. -/
theorem merge {u : Tree} (ht : Tree.LevelsDistinct t) (hu : Tree.LevelsDistinct u) :
    Tree.LevelsDistinct (merge t u) := by
  intro path level hlevel
  rw [level?_merge] at hlevel
  cases ht' : Tree.level? t path <;> cases hu' : Tree.level? u path <;>
    simp only [ht', hu', Option.merge_none_right, Option.merge_none_left, Option.merge_some_some,
      Option.some.injEq, reduceCtorEq] at hlevel
  · exact hu path level (hu'.trans (congrArg some hlevel))
  · exact ht path level (ht'.trans (congrArg some hlevel))
  · exact hlevel ▸ distinct_merge (ht path _ ht') (hu path _ hu')

end Tree.LevelsDistinct

/-- A tree that has no name twice anywhere has none twice at a level. -/
theorem Tree.Distinct.levels {t : Tree} (h : Tree.Distinct t) : Tree.LevelsDistinct t :=
  fun _ _ => h.level

theorem Tree.levelsDistinct_nil : Tree.LevelsDistinct [] := by
  intro path level hlevel
  rw [eq_nil_of_level?_nil hlevel]
  exact List.nodup_nil

/-- The fields of a tree are those that paths lead to. -/
theorem mem_places_iff {t : Tree} (h : Tree.LevelsDistinct t) {path : List String} {n : Node} :
    (path, n) ∈ places t ↔ Tree.field? t path = some n := by
  induction path generalizing t with
  | nil =>
    refine iff_of_false (fun hmem => ne_nil_of_mem_places hmem rfl) ?_
    simp
  | cons name path ih =>
    rw [mem_places]
    -- a single name is that of a field of this level; what is nested has longer paths
    by_cases hpath : path = []
    · subst hpath
      rw [Tree.field?, Table.follow?, Table.get?_eq_some_iff h.names]
      constructor
      · rintro ⟨d, hd, heq | ⟨fields, -, e, he, heq⟩⟩
        · obtain ⟨hname, rfl⟩ := Prod.mk.inj heq
          obtain rfl := List.singleton_inj.1 hname
          exact hd
        · have hnil : e.1 = [] := (List.cons.inj (Prod.mk.inj heq).1).2.symm
          exact absurd hnil (ne_nil_of_mem_places he)
      · exact fun hmem => ⟨(name, n), hmem, .inl rfl⟩
    · rw [Tree.field?, Table.follow?_cons Node.nested? t name hpath]
      constructor
      · rintro ⟨d, hd, heq | ⟨fields, hfields, e, he, heq⟩⟩
        · exact absurd (List.cons.inj (Prod.mk.inj heq).1).2 hpath
        · obtain ⟨hcons, rfl⟩ := Prod.mk.inj heq
          obtain ⟨rfl, rfl⟩ := List.cons.inj hcons
          rw [(Table.get?_eq_some_iff h.names).2 hd, Option.bind_some, hfields, Option.bind_some]
          exact (ih (h.nested hd hfields)).1 he
      · intro hn
        obtain ⟨fields, hfields, hn⟩ := Option.bind_eq_some_iff.1 hn
        obtain ⟨m, hm, hfields⟩ := Option.bind_eq_some_iff.1 hfields
        have hmem : (name, m) ∈ t := Table.mem_of_get? hm
        refine ⟨(name, m), hmem, .inr ⟨fields, hfields, (path, n), ?_, rfl⟩⟩
        exact (ih (h.nested hmem hfields)).2 hn

/-- Each path is listed once if it is so below each field. -/
theorem nodup_places_of {t : Tree} (hnames : Table.Distinct t)
    (hbelow : ∀ d ∈ t, ∀ fields, d.2.nested? = some fields →
      ((places fields).map Prod.fst).Nodup) : ((places t).map Prod.fst).Nodup := by
  induction t with
  | nil => exact List.nodup_nil
  | cons d t ih =>
    obtain ⟨name, n⟩ := d
    obtain ⟨hname, hnames⟩ := List.nodup_cons.1 hnames
    obtain ⟨hn, hbelow⟩ := List.forall_mem_cons.1 hbelow
    have hpaths : (places ((name, n) :: t)).map Prod.fst =
        ([] :: ((n.nested?.map places).getD []).map Prod.fst).map (name :: ·) ++
          (places t).map Prod.fst := by
      simp [places_cons]
    have hself : ([] :: ((n.nested?.map places).getD []).map Prod.fst).Nodup := by
      cases hfields : n.nested? with
      | none => exact List.nodup_singleton []
      | some fields =>
        refine List.nodup_cons.2 ⟨fun hnil => ?_, hn fields hfields⟩
        obtain ⟨e, he, hnil⟩ := List.mem_map.1 hnil
        exact ne_nil_of_mem_places he hnil
    rw [hpaths]
    refine List.nodup_append.2 ⟨hself.map List.cons_injective, ih hnames hbelow, ?_⟩
    -- a path into this field begins with its name, which no other field has
    rintro path hpath other hother rfl
    obtain ⟨rest, -, rfl⟩ := List.mem_map.1 hpath
    obtain ⟨e, he, hpath⟩ := List.mem_map.1 hother
    obtain ⟨d, hd, hed⟩ := mem_places.1 he
    have hhead : e.1.head? = some d.1 := by
      rcases hed with rfl | ⟨-, -, e', -, rfl⟩ <;> rfl
    rw [hpath, List.head?_cons] at hhead
    have hmem : d.1 ∈ Table.names t := List.mem_map_of_mem hd
    exact hname (Option.some.inj hhead ▸ hmem)

/-- Each path is listed once. -/
theorem nodup_places {t : Tree} (h : Tree.LevelsDistinct t) :
    ((places t).map Prod.fst).Nodup := by
  induction t using nested_induction with
  | h t ih =>
  exact nodup_places_of h.names fun d hd fields hfields =>
    ih d hd fields hfields (h.nested hd hfields)

end SearchIndex.Mapping
