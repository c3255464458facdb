import SearchIndex.Json.Record
import SearchIndex.Proofs.Except
import SearchIndex.Proofs.Json.Every

/-!
# Distinct names in records

A record that is written from parts of distinct names has distinct names (`distinct_present`). In
the other direction, the parts of a record that is read from a document of distinct names are
distinct, whether it is written as an object or as a list: `yields_recordOf` and the lemmas for each
way to read a part.
-/

namespace SearchIndex.Json

open SearchIndex.Except (Yields yields_ok yields_error yields_map)

/-! ## Written records -/

/-- The members that are present are those with a value. -/
theorem mem_present {ms : List (String × Option Json)} {e : String × Json} :
    e ∈ present ms ↔ (e.1, some e.2) ∈ ms := by
  obtain ⟨name, v⟩ := e
  rw [present, List.mem_filterMap]
  constructor
  · rintro ⟨⟨name', o⟩, hmem, heq⟩
    obtain ⟨w, rfl, hw⟩ := Option.map_eq_some_iff.1 heq
    obtain ⟨rfl, rfl⟩ := Prod.mk.inj hw
    exact hmem
  · intro hmem
    exact ⟨(name, some v), hmem, rfl⟩

/-- The members that are there keep their order. -/
theorem names_present_sublist (ms : List (String × Option Json)) :
    (Table.names (present ms)).Sublist (Table.names ms) := by
  induction ms with
  | nil => exact List.Sublist.refl []
  | cons e ms ih =>
    obtain ⟨name, o⟩ := e
    cases o with
    | none => exact ih.cons name
    | some v => exact ih.cons_cons name

/-- A record of distinct names whose parts have distinct names is written so. -/
theorem distinct_present {ms : List (String × Option Json)} (hnames : Table.Distinct ms)
    (hvalues : ∀ e ∈ ms, ∀ v, e.2 = some v → v.Distinct) : (Json.obj (present ms)).Distinct := by
  refine distinct_obj.2 ⟨List.Nodup.sublist (names_present_sublist ms) hnames, ?_⟩
  intro e he
  exact hvalues _ (mem_present.1 he) e.2 rfl

/-! ## Read records -/

/-- A table of values is read as it is. -/
theorem entriesOf_ok (ms : List (String × Json)) : entriesOf .ok ms = .ok ms := by
  induction ms with
  | nil => rfl
  | cons e ms ih =>
    rw [entriesOf, ih]
    rfl

section Fields

variable {v : Json} (hv : v.Distinct)
include hv

/-- The members of a record have no name twice if the value has none. -/
theorem yields_recordOf (title : String) (names : List String) :
    Yields (fun t => ∀ e ∈ t, e.2.Distinct) (recordOf title names v) := by
  cases v with
  | obj members => exact yields_ok (distinct_obj.1 hv).2
  | arr items =>
    rw [recordOf]
    split
    · refine yields_ok fun e he => ?_
      exact distinct_arr.1 hv e.2 (List.of_mem_zip he).2
    · exact yields_error _ _
  | _ => exact yields_error _ _

/-- The elements of a list are read from values without any name twice. -/
theorem yields_listOf {α : Type} {P : α → Prop} {element : Json → Except Error α}
    (helement : ∀ w, w.Distinct → Yields P (element w)) :
    Yields (fun as => ∀ a ∈ as, P a) (listOf element v) := by
  cases v with
  | arr items => exact Except.yields_mapM fun w hw => helement w (distinct_arr.1 hv w hw)
  | _ => exact yields_error _ _

/-- A table of documents is read as it is. -/
theorem yields_tableOf : Yields (fun t => (Json.obj t).Distinct) (tableOf .ok v) := by
  cases v with
  | obj members =>
    rw [tableOf, entriesOf_ok]
    exact yields_ok hv
  | _ => exact yields_error _ _

end Fields

section Parts

variable {fields : Table Json} (hfields : ∀ e ∈ fields, e.2.Distinct)
include hfields

/-- A member, or null if it is missing, has no name twice. -/
theorem distinct_getD (name : String) : ((fields.get? name).getD .null).Distinct := by
  cases h : fields.get? name with
  | none => exact distinct_null
  | some v => exact hfields _ (Table.mem_of_get? h)

variable {α : Type} {P : α → Prop} {read : Json → Except Error α}
  (hread : ∀ v, v.Distinct → Yields P (read v))
include hread

/-- An optional member is read from a value without any name twice. -/
theorem yields_optional (name : String) :
    Yields (fun o => ∀ a, o = some a → P a) (optional fields name read) := by
  unfold optional
  split
  · exact yields_ok fun a ha => nomatch ha
  · exact yields_ok fun a ha => nomatch ha
  · next v _ hget =>
    refine yields_map fun a ha b hb => ?_
    exact Option.some.inj hb ▸ hread v (hfields _ (Table.mem_of_get? hget)) a ha

/-- A member is read from a value without any name twice unless it has its default. -/
theorem yields_defaulted (name : String) {value : α} (hvalue : P value) :
    Yields P (defaulted fields name value read) := by
  unfold defaulted
  split
  · exact yields_ok hvalue
  · next v hget => exact hread v (hfields _ (Table.mem_of_get? hget))

end Parts

end SearchIndex.Json
