import Mathlib.Data.List.Induction
import SearchIndex.Table

/-!
# Tables written entry by entry

A table that is written entry by entry has each name once, where it was first written
(`names_extend_eq`), with the value that was written last (`get?_extend_eq`). First appearances are
what `List.eraseDups` keeps of a list.

Entries may therefore be written to a table of their own first (`ofList_append_ofList`), and writing
them twice in a row is writing them once (`ofList_append_self`).
-/

namespace SearchIndex

/-! ## First appearances -/

/-- A list without repetitions is its own list of first appearances. -/
theorem eraseDups_of_nodup {names : List String} (h : names.Nodup) : names.eraseDups = names := by
  induction names with
  | nil => rfl
  | cons name names ih =>
    obtain ⟨hname, hnames⟩ := List.nodup_cons.1 h
    have hfilter : names.filter (fun other => !other == name) = names := by
      refine List.filter_eq_self.2 fun other hother => ?_
      have hne : other ≠ name := fun heq => hname (heq ▸ hother)
      simpa using hne
    rw [List.eraseDups_cons, hfilter, ih hnames]

/-- A property that passes from what a name leaves of a list to the list with the name in front
holds of all lists. The rest of a list loses elements before its turn comes. -/
theorem eraseDups_induction {P : List String → Prop} (nil : P [])
    (cons : ∀ name names, P (names.filter fun other => !other == name) → P (name :: names))
    (names : List String) : P names := by
  induction h : names.length using Nat.strongRecOn generalizing names with
  | _ length ih =>
    cases names with
    | nil => exact nil
    | cons name names =>
      have hlt : (names.filter fun other => !other == name).length < length := by
        have hle := List.length_filter_le (fun other => !other == name) names
        simp only [List.length_cons] at h
        omega
      exact cons name names (ih _ hlt _ rfl)

/-- A list of first appearances has no repetitions. -/
theorem nodup_eraseDups (names : List String) : names.eraseDups.Nodup := by
  induction names using eraseDups_induction with
  | nil => exact List.nodup_nil
  | cons name names ih =>
    rw [List.eraseDups_cons]
    exact List.nodup_cons.2 ⟨by simp, ih⟩

/-- Names may be left out before or after their repetitions. -/
theorem filter_eraseDups (p : String → Bool) (names : List String) :
    names.eraseDups.filter p = (names.filter p).eraseDups := by
  induction names using eraseDups_induction with
  | nil => rfl
  | cons name names ih =>
    rw [List.eraseDups_cons]
    by_cases hp : p name
    · rw [List.filter_cons_of_pos hp, List.filter_cons_of_pos hp, List.eraseDups_cons, ih,
        List.filter_filter, List.filter_filter]
      simp only [Bool.and_comm]
    · have hkeep : (names.filter fun other => !other == name).filter p = names.filter p := by
        rw [List.filter_filter]
        refine List.filter_congr fun other _ => ?_
        by_cases hother : other = name
        · simp [hother, hp]
        · simp [hother]
      rw [List.filter_cons_of_neg hp, List.filter_cons_of_neg hp, ih, hkeep]

/-- A name at the end counts unless it stands in front of it already. -/
theorem eraseDups_concat (names : List String) (name : String) :
    (names ++ [name]).eraseDups =
      if name ∈ names then names.eraseDups else names.eraseDups ++ [name] := by
  have hsingle : [name].eraseDups = [name] := rfl
  rw [List.eraseDups_append, List.cons_removeAll]
  by_cases hmem : name ∈ names <;> simp [hmem, hsingle]

/-- Repetitions at the end may be left out beforehand. -/
theorem eraseDups_append_eraseDups (front names : List String) :
    (front ++ names.eraseDups).eraseDups = (front ++ names).eraseDups := by
  rw [List.eraseDups_append, List.eraseDups_append, List.removeAll, List.removeAll,
    filter_eraseDups, eraseDups_of_nodup (nodup_eraseDups _)]

/-- Names that stand in front already may be left out. -/
theorem eraseDups_append_of_subset {front names : List String} (h : names ⊆ front) :
    (front ++ names).eraseDups = front.eraseDups := by
  have hnone : names.removeAll front = [] := by
    refine List.filter_eq_nil_iff.2 fun name hname => ?_
    simpa using h hname
  rw [List.eraseDups_append, hnone, List.eraseDups_nil, List.append_nil]

namespace Table

variable {α : Type}

/-! ## Writing entry by entry -/

/-- The names of two tables stand one behind the other. -/
theorem names_append (t u : Table α) : names (t ++ u) = names t ++ names u :=
  List.map_append

/-- The name of one more entry stands at the end. -/
theorem names_concat (t : Table α) (name : String) (value : α) :
    names (t ++ [(name, value)]) = names t ++ [name] :=
  names_append t [(name, value)]

/-- Names stand in the order in which they were first written. -/
theorem names_extend_eq {t : Table α} (h : t.Distinct) (u : Table α) :
    names (extend t u) = (names t ++ names u).eraseDups := by
  induction u using List.reverseRecOn with
  | nil =>
    have hempty : names t ++ names ([] : Table α) = names t := List.append_nil _
    rw [hempty, eraseDups_of_nodup h]
    rfl
  | append_singleton u e ih =>
    obtain ⟨name, value⟩ := e
    have hstep : extend (extend t u) [(name, value)] = insert (extend t u) name value := rfl
    rw [extend_append, hstep, names_insert, ih, names_concat, ← List.append_assoc,
      eraseDups_concat]
    simp only [List.mem_eraseDups]

/-- Each name has the value that was written last. -/
theorem get?_extend_eq (t u : Table α) (name : String) :
    get? (extend t u) name = (get? u.reverse name).or (get? t name) := by
  induction u generalizing t with
  | nil => rfl
  | cons e u ih =>
    have hstep : extend t (e :: u) = extend (insert t e.1 e.2) u := rfl
    rw [hstep, ih, get?_insert, List.reverse_cons, get?_append, Option.or_assoc]
    by_cases hname : e.1 = name <;> simp [get?, hname]

/-- Each name stands where it is listed first. -/
theorem names_ofList (entries : List (String × α)) :
    names (ofList entries) = (names entries).eraseDups :=
  names_extend_eq (t := []) List.nodup_nil entries

/-- Each name has the value that is listed last. -/
theorem get?_ofList (entries : List (String × α)) (name : String) :
    get? (ofList entries) name = get? entries.reverse name := by
  rw [ofList, get?_extend_eq, get?_nil, Option.or_none]

/-- No name stands twice. -/
theorem distinct_ofList (entries : List (String × α)) : Distinct (ofList entries) :=
  Distinct.extend (t := []) List.nodup_nil entries

/-- A table of distinct names is written by its own entries. -/
theorem ofList_of_distinct {t : Table α} (h : t.Distinct) : ofList t = t :=
  extend_of_disjoint h fun _ _ hmem => nomatch hmem

/-- Among distinct names it does not matter from which end one is looked up. -/
theorem get?_reverse {t : Table α} (h : t.Distinct) (name : String) :
    get? t.reverse name = get? t name := by
  rw [← get?_ofList, ofList_of_distinct h]

/-- What is found is the value of the first entry with the name. -/
theorem get?_eq_some_iff_split {t : Table α} {name : String} {value : α} :
    get? t name = some value ↔
      ∃ before after, t = before ++ (name, value) :: after ∧ name ∉ names before := by
  constructor
  · intro h
    induction t with
    | nil => exact nomatch h
    | cons e t ih =>
      by_cases he : e.1 = name
      · rw [get?, if_pos he] at h
        exact ⟨[], t, by rw [← Option.some.inj h, ← he, List.nil_append], List.not_mem_nil⟩
      · rw [get?, if_neg he] at h
        obtain ⟨before, after, rfl, hname⟩ := ih h
        refine ⟨e :: before, after, rfl, ?_⟩
        exact List.not_mem_cons_of_ne_of_not_mem (Ne.symm he) hname
  · rintro ⟨before, after, rfl, hname⟩
    rw [get?_append, (get?_eq_none_iff before name).2 hname, Option.none_or, get?, if_pos rfl]

/-- What is found from the end is the value of the last entry with the name. -/
theorem get?_reverse_eq_some_iff {entries : List (String × α)} {name : String} {value : α} :
    get? entries.reverse name = some value ↔
      ∃ before after, entries = before ++ (name, value) :: after ∧ name ∉ names after := by
  rw [get?_eq_some_iff_split]
  constructor
  · rintro ⟨after, before, heq, hname⟩
    refine ⟨before.reverse, after.reverse, ?_, by simpa [names] using hname⟩
    rw [← List.reverse_reverse entries, heq]
    simp
  · rintro ⟨before, after, rfl, hname⟩
    exact ⟨after.reverse, before.reverse, by simp, by simpa [names] using hname⟩

/-- Entries may be written to a table of their own first. -/
theorem ofList_append_ofList (front entries : List (String × α)) :
    ofList (front ++ ofList entries) = ofList (front ++ entries) := by
  refine eq_of_get? (distinct_ofList _) ?_ fun name => ?_
  · rw [names_ofList, names_ofList, names_append, names_append, names_ofList,
      eraseDups_append_eraseDups]
  · rw [get?_ofList, get?_ofList, List.reverse_append, List.reverse_append, get?_append,
      get?_append, get?_reverse (distinct_ofList entries), get?_ofList]

/-- Entries that are written twice in a row may be written once. -/
theorem ofList_append_self (front entries : List (String × α)) :
    ofList (front ++ entries ++ entries) = ofList (front ++ entries) := by
  refine eq_of_get? (distinct_ofList _) ?_ fun name => ?_
  · have hsub : names entries ⊆ names (front ++ entries) := by
      rw [names_append]
      exact List.subset_append_right _ _
    rw [names_ofList, names_ofList, names_append (front ++ entries),
      eraseDups_append_of_subset hsub]
  · rw [get?_ofList, get?_ofList, List.reverse_append, List.reverse_append, get?_append,
      get?_append, ← Option.or_assoc, Option.or_self]

end Table

end SearchIndex
