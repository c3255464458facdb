/-!
# Ordered tables

A table lists named values in the order in which the names were first written. Writing a name again
replaces its value and leaves it where it stands. `get?_insert` says what a write does to a look-up,
`names_insert` what it does to the order; `get?_extend` does so for a whole table that is written.
-/

namespace SearchIndex

/-- Named values in order. -/
abbrev Table (α : Type) := List (String × α)

namespace Table

variable {α : Type}

/-- The names in order. -/
def names (t : Table α) : List String := t.map Prod.fst

/-- The value under a name. -/
def get? : Table α → String → Option α
  | [], _ => none
  | (k, v) :: t, name => if k = name then some v else get? t name

/-- Writes a value: in place if the name is there, at the end if not. -/
def insert : Table α → String → α → Table α
  | [], name, value => [(name, value)]
  | (k, v) :: t, name, value =>
    if k = name then (k, value) :: t else (k, v) :: insert t name value

/-- Removes a name; the others keep their order. -/
def erase : Table α → String → Table α
  | [], _ => []
  | (k, v) :: t, name => if k = name then t else (k, v) :: erase t name

/-- Writes every entry of `u` onto `t`, in order. -/
def extend (t u : Table α) : Table α := u.foldl (fun t e => insert t e.1 e.2) t

/-- The table written by a list of entries, of which the last one with a name gives its value. -/
def ofList (entries : List (String × α)) : Table α := extend [] entries

/-- No name stands twice. -/
def Distinct (t : Table α) : Prop := t.names.Nodup

@[simp] theorem get?_nil (name : String) : get? ([] : Table α) name = none := rfl

/-- A name just written has the value written. -/
@[simp] theorem get?_insert_self (t : Table α) (name : String) (value : α) :
    get? (insert t name value) name = some value := by
  induction t with
  | nil => simp [insert, get?]
  | cons e t ih => by_cases h : e.1 = name <;> simp [insert, get?, h, ih]

/-- Writing a name leaves the values of the others. -/
theorem get?_insert_of_ne (t : Table α) {name other : String} (value : α) (h : name ≠ other) :
    get? (insert t name value) other = get? t other := by
  induction t with
  | nil => simp [insert, get?, h]
  | cons e t ih =>
    by_cases he : e.1 = name
    · simp [insert, get?, he, h]
    · by_cases ho : e.1 = other
      · subst ho; simp [insert, get?, he]
      · simp [insert, get?, he, ho, ih]

/-- A new name goes behind the others, a known one stays where it is. -/
theorem names_insert (t : Table α) (name : String) (value : α) :
    names (insert t name value) =
      if name ∈ names t then names t else names t ++ [name] := by
  induction t with
  | nil => simp [insert, names]
  | cons e t ih =>
    by_cases he : e.1 = name
    · simp [insert, names, he]
    · have he' : name ≠ e.1 := fun h => he h.symm
      simp only [insert, he, if_false, names, List.map_cons, List.mem_cons, he', false_or] at ih ⊢
      rw [ih]
      split <;> simp [*]

/-- Writing keeps names distinct. -/
theorem Distinct.insert {t : Table α} (h : t.Distinct) (name : String) (value : α) :
    Distinct (t.insert name value) := by
  unfold Distinct
  rw [names_insert]
  split
  · exact h
  · next hn =>
    refine List.nodup_append.2 ⟨h, by simp, ?_⟩
    intro a ha b hb hab
    simp only [List.mem_singleton] at hb
    exact hn (hb ▸ hab ▸ ha)

/-- Removing a name leaves entries that were there, in their order. -/
theorem erase_sublist (t : Table α) (name : String) : List.Sublist (erase t name) t := by
  induction t with
  | nil => exact List.Sublist.refl []
  | cons e t ih =>
    rw [erase]
    split
    · exact List.sublist_cons_self e t
    · exact ih.cons_cons e

/-- Removing keeps names distinct. -/
theorem Distinct.erase {t : Table α} (h : t.Distinct) (name : String) : Distinct (t.erase name) :=
  List.Nodup.sublist ((erase_sublist t name).map Prod.fst) h

/-- Removing a name takes it out of the order. -/
theorem names_erase (t : Table α) (name : String) :
    names (erase t name) = (names t).erase name := by
  induction t with
  | nil => rfl
  | cons e t ih =>
    by_cases h : e.1 = name
    · simp [erase, names, h]
    · simp only [names] at ih
      simp [erase, names, h, ih]

/-- A name that is not there yet is put behind the others. -/
theorem insert_of_not_mem {t : Table α} {name : String} (h : name ∉ names t) (value : α) :
    insert t name value = t ++ [(name, value)] := by
  induction t with
  | nil => rfl
  | cons e t ih =>
    simp only [names, List.map_cons, List.mem_cons, not_or] at h
    obtain ⟨hne, ht⟩ := h
    rw [insert, if_neg (Ne.symm hne), ih ht]
    rfl

/-- What a write does to any look-up. -/
theorem get?_insert (t : Table α) (name other : String) (value : α) :
    get? (insert t name value) other = if name = other then some value else get? t other := by
  by_cases h : name = other
  · subst h; simp
  · simp [h, get?_insert_of_ne]

/-- A table put behind another one answers for the names that the other lacks. -/
theorem get?_append (t u : Table α) (name : String) :
    get? (t ++ u) name = (get? t name).or (get? u name) := by
  induction t with
  | nil => rfl
  | cons e t ih => by_cases h : e.1 = name <;> simp [get?, h, ih]

/-- Changing all values changes those that are looked up. -/
theorem get?_map {β : Type} (f : α → β) (t : Table α) (name : String) :
    get? (t.map fun e => (e.1, f e.2)) name = (get? t name).map f := by
  induction t with
  | nil => rfl
  | cons e t ih => by_cases h : e.1 = name <;> simp [get?, h, ih]

/-- Only names that pass a filter are found behind it. -/
theorem get?_filter (p : String → Bool) (t : Table α) (name : String) :
    get? (t.filter fun e => p e.1) name = if p name then get? t name else none := by
  induction t with
  | nil => simp
  | cons e t ih =>
    by_cases hp : p e.1 <;> by_cases h : e.1 = name
    · subst h; simp [get?, hp]
    · simp [get?, hp, h, ih]
    · subst h; simp [hp, ih]
    · simp [get?, hp, h, ih]

/-- Nothing is found under a name that does not stand in the table. -/
theorem get?_eq_none_iff (t : Table α) (name : String) : get? t name = none ↔ name ∉ names t := by
  induction t with
  | nil => simp [names]
  | cons e t ih =>
    by_cases h : e.1 = name
    · simp [get?, names, h]
    · have h' : name ≠ e.1 := fun hn => h hn.symm
      simpa [get?, names, h, h'] using ih

/-- What a removal does to any look-up. -/
theorem get?_erase {t : Table α} (h : t.Distinct) (name other : String) :
    get? (erase t name) other = if name = other then none else get? t other := by
  induction t with
  | nil => simp [erase]
  | cons e t ih =>
    obtain ⟨he, ht⟩ := List.nodup_cons.1 h
    by_cases hn : e.1 = name
    · subst hn
      by_cases ho : e.1 = other
      · subst ho
        simpa [erase] using (get?_eq_none_iff t e.1).2 he
      · simp [erase, get?, ho]
    · by_cases ho : e.1 = other
      · subst ho
        simp [erase, get?, hn, Ne.symm hn]
      · simp [erase, get?, hn, ho, ih ht]

/-- Tables of distinct names are equal if they have the same names in the same order and answer
alike. -/
theorem eq_of_get? {t u : Table α} (ht : t.Distinct) (hnames : names t = names u)
    (hget : ∀ name, get? t name = get? u name) : t = u := by
  induction t generalizing u with
  | nil => exact (List.map_eq_nil_iff.1 hnames.symm).symm
  | cons e t ih =>
    cases u with
    | nil => simp [names] at hnames
    | cons d u =>
      obtain ⟨hname, hrest⟩ : e.1 = d.1 ∧ names t = names u := by simpa [names] using hnames
      obtain ⟨he, ht⟩ := List.nodup_cons.1 ht
      have hvalue : e.2 = d.2 := by simpa [get?, hname] using hget e.1
      have htail : ∀ name, get? t name = get? u name := by
        intro name
        by_cases hn : e.1 = name
        · rw [(get?_eq_none_iff t name).2 (hn ▸ he), (get?_eq_none_iff u name).2]
          exact hn ▸ hrest ▸ he
        · simpa [get?, hn, hname ▸ hn] using hget name
      rw [ih ht hrest htail, Prod.ext hname hvalue]

/-- What is found stands in the table. -/
theorem mem_of_get? {t : Table α} {name : String} {value : α} (h : get? t name = some value) :
    (name, value) ∈ t := by
  induction t with
  | nil => simp at h
  | cons e t ih =>
    by_cases he : e.1 = name
    · simp only [get?, he, if_true, Option.some.injEq] at h
      exact List.mem_cons.2 (.inl (Prod.ext he.symm h.symm))
    · simp only [get?, he, if_false] at h
      exact List.mem_cons_of_mem _ (ih h)

/-- In a table of distinct names every entry is found under its name. -/
theorem get?_eq_some_iff {t : Table α} (h : t.Distinct) {name : String} {value : α} :
    get? t name = some value ↔ (name, value) ∈ t := by
  refine ⟨mem_of_get?, fun hmem => ?_⟩
  induction t with
  | nil => simp at hmem
  | cons e t ih =>
    obtain ⟨he, ht⟩ := List.nodup_cons.1 h
    rcases List.mem_cons.1 hmem with rfl | hmem
    · simp [get?]
    · have hne : e.1 ≠ name := fun heq => he (heq ▸ List.mem_map_of_mem hmem)
      simpa [get?, hne] using ih ht hmem

/-- After a write, the entries are the one written and old ones. -/
theorem mem_insert {t : Table α} {name : String} {value : α} {e : String × α}
    (h : e ∈ insert t name value) : e = (name, value) ∨ e ∈ t := by
  induction t with
  | nil => simpa [insert] using h
  | cons d t ih =>
    by_cases hd : d.1 = name
    · rw [insert, if_pos hd] at h
      rcases List.mem_cons.1 h with rfl | h
      · exact .inl (Prod.ext hd rfl)
      · exact .inr (List.mem_cons_of_mem _ h)
    · rw [insert, if_neg hd] at h
      rcases List.mem_cons.1 h with rfl | h
      · exact .inr List.mem_cons_self
      · exact (ih h).imp_right (List.mem_cons_of_mem _)

/-- After writing a whole table, the entries come from either table. -/
theorem mem_extend {t u : Table α} {e : String × α} (h : e ∈ extend t u) : e ∈ t ∨ e ∈ u := by
  induction u generalizing t with
  | nil => exact .inl h
  | cons d u ih =>
    rcases ih h with h | h
    · rcases mem_insert h with rfl | h
      · exact .inr List.mem_cons_self
      · exact .inl h
    · exact .inr (List.mem_cons_of_mem _ h)

/-- Writing a whole table keeps names distinct. -/
theorem Distinct.extend {t : Table α} (h : t.Distinct) (u : Table α) : Distinct (t.extend u) := by
  induction u generalizing t with
  | nil => exact h
  | cons e u ih => exact ih (h.insert e.1 e.2)

/-- A name that stands in a table takes its new value in place. -/
theorem insert_append_cons {t : Table α} {name : String} (h : name ∉ names t) (u : Table α)
    (old value : α) : insert (t ++ (name, old) :: u) name value = t ++ (name, value) :: u := by
  induction t with
  | nil => simp [insert]
  | cons e t ih =>
    simp only [names, List.map_cons, List.mem_cons, not_or] at h
    obtain ⟨hne, ht⟩ := h
    rw [List.cons_append, insert, if_neg (Ne.symm hne), ih ht]
    rfl

/-- A table is written part by part. -/
theorem extend_append (t u v : Table α) : extend t (u ++ v) = extend (extend t u) v :=
  List.foldl_append

/-- New names go behind the others, in their order. -/
theorem extend_of_disjoint {t u : Table α} (hu : u.Distinct)
    (h : ∀ name ∈ names u, name ∉ names t) : extend t u = t ++ u := by
  induction u generalizing t with
  | nil => exact (List.append_nil t).symm
  | cons e u ih =>
    obtain ⟨he, hu⟩ := List.nodup_cons.1 hu
    have hstep : extend t (e :: u) = extend (insert t e.1 e.2) u := rfl
    rw [hstep, insert_of_not_mem (h e.1 List.mem_cons_self), ih hu, List.append_assoc]
    · rfl
    · intro name hname hmem
      rw [names, List.map_append, List.mem_append] at hmem
      rcases hmem with hmem | hmem
      · exact h name (List.mem_cons_of_mem _ hname) hmem
      · obtain rfl : name = e.1 := by simpa using hmem
        exact he hname

/-- A table of distinct names, written onto another one, puts its new names behind the others. -/
theorem names_extend (t : Table α) {u : Table α} (hu : u.Distinct) :
    names (extend t u) = names t ++ (names u).removeAll (names t) := by
  induction u generalizing t with
  | nil => exact (List.append_nil (names t)).symm
  | cons e u ih =>
    obtain ⟨he, hu⟩ := List.nodup_cons.1 hu
    have hstep : extend t (e :: u) = extend (insert t e.1 e.2) u := rfl
    have hcons : names (e :: u) = e.1 :: names u := rfl
    rw [hstep, ih _ hu, names_insert, hcons, List.cons_removeAll]
    by_cases hmem : e.1 ∈ names t
    · rw [if_pos hmem, if_neg (by simpa using hmem)]
    · have hrest : (names u).removeAll (names t ++ [e.1]) = (names u).removeAll (names t) := by
        refine List.filter_congr fun name hname => ?_
        have hne : name ≠ e.1 := fun heq => he (heq ▸ hname)
        simp [hne]
      rw [if_neg hmem, if_pos (by simpa using hmem), hrest, List.append_assoc,
        List.singleton_append]

/-- Changing all values changes those that are written. -/
theorem extend_map {β : Type} (f : α → β) (t u : Table α) :
    extend (t.map fun e => (e.1, f e.2)) (u.map fun e => (e.1, f e.2)) =
      (extend t u).map fun e => (e.1, f e.2) := by
  have hinsert : ∀ (t : Table α) (name : String) (value : α),
      insert (t.map fun e => (e.1, f e.2)) name (f value) =
        (insert t name value).map fun e => (e.1, f e.2) := by
    intro t name value
    induction t with
    | nil => rfl
    | cons e t ih => by_cases h : e.1 = name <;> simp [insert, h, ih]
  induction u generalizing t with
  | nil => rfl
  | cons e u ih =>
    have hstep : extend t (e :: u) = extend (insert t e.1 e.2) u := rfl
    rw [hstep, ← ih (insert t e.1 e.2), ← hinsert]
    rfl

/-- A table of distinct names, written onto another one, answers for its names. -/
theorem get?_extend (t : Table α) {u : Table α} (hu : u.Distinct) (name : String) :
    get? (extend t u) name = (get? u name).or (get? t name) := by
  induction u generalizing t with
  | nil => simp [extend]
  | cons e u ih =>
    obtain ⟨he, hu⟩ := List.nodup_cons.1 hu
    have hstep : extend t (e :: u) = extend (insert t e.1 e.2) u := rfl
    rw [hstep, ih (insert t e.1 e.2) hu, get?_insert]
    by_cases h : e.1 = name
    · have hnone : get? u name = none := (get?_eq_none_iff u name).2 (h ▸ he)
      simp [get?, h, hnone]
    · simp [get?, h]

end Table

end SearchIndex
