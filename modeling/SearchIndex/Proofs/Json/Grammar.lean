import SearchIndex.Json.Record
import SearchIndex.Proofs.Except

/-!
# What the readers of parts accept

Each reader of a part accepts the values of a grammar: `IsText`, `IsList`, `IsOptional` and
`IsRecord` say of a value what `textOf`, `listOf`, `optional` and `recordOf` look for, without
reading it.
-/

namespace SearchIndex.Json

/-- The value is a text. -/
def IsText (v : Json) : Prop := ∃ s, v = .str s

/-- The value is `null`, or as `P` says. -/
def IsOptional (P : Json → Prop) (v : Json) : Prop := v = .null ∨ P v

/-- The value is a list of values that are as `P` says. -/
def IsList (P : Json → Prop) (v : Json) : Prop := ∃ vs, v = .arr vs ∧ ∀ w ∈ vs, P w

/-- The value is a record of fields that may each be missing: an object, or the list of its fields,
of which the last ones may be left out. -/
inductive IsRecord (fields : Table (Json → Prop)) : Json → Prop
  | object {members : List (String × Json)}
      (h : ∀ field ∈ fields, ∀ v, Table.get? members field.1 = some v → field.2 v) :
      IsRecord fields (.obj members)
  | list {vs : List Json} (hlength : vs.length ≤ fields.length)
      (h : ∀ e ∈ fields.zip vs, e.1.2 e.2) : IsRecord fields (.arr vs)

/-- A text is read from nothing but texts. -/
theorem exists_textOf_iff {v : Json} : (∃ s, textOf v = .ok s) ↔ IsText v := by
  cases v <;> simp [textOf, IsText]

section

variable {α : Type} {P : Json → Prop} {read : Json → Except Error α}
  (hread : ∀ v, (∃ a, read v = .ok a) ↔ P v)
include hread

/-- A list is read iff each of its elements is. -/
theorem exists_listOf_iff {v : Json} : (∃ as, listOf read v = .ok as) ↔ IsList P v := by
  cases v with
  | arr vs =>
    have hvalues : (∃ as, List.Forall₂ (fun w a => read w = .ok a) vs as) ↔ ∀ w ∈ vs, P w := by
      simp only [Except.exists_values, hread]
    simp [listOf, IsList, Except.mapM_eq_ok, hvalues]
  | _ => simp [listOf, IsList]

/-- An optional member is read iff it is missing, null, or a value that is read. -/
theorem exists_optional_iff {t : Table Json} {name : String} :
    (∃ o, optional t name read = .ok o) ↔ ∀ v, Table.get? t name = some v → IsOptional P v := by
  unfold optional
  split
  · next h => simp [h]
  · next h => simp [h, IsOptional]
  · next v hnull h =>
    have hne : v ≠ .null := hnull
    simp [h, IsOptional, ← hread, hne, Except.map_eq_ok]

end

/-- In the list of its fields, a record has the first value under the first name, and so on. -/
theorem forall_get?_zip_iff {fields : Table (Json → Prop)} (hfields : fields.Distinct)
    {vs : List Json} :
    (∀ field ∈ fields, ∀ v, Table.get? ((Table.names fields).zip vs) field.1 = some v → field.2 v) ↔
      ∀ e ∈ fields.zip vs, e.1.2 e.2 := by
  induction fields generalizing vs with
  | nil => simp
  | cons first fields ih =>
    obtain ⟨hfirst, hfields⟩ := List.nodup_cons.1 hfields
    cases vs with
    | nil => simp
    | cons v vs =>
      have hnames : (Table.names (first :: fields)).zip (v :: vs) =
          (first.1, v) :: (Table.names fields).zip vs := rfl
      rw [hnames, List.zip_cons_cons, List.forall_mem_cons, List.forall_mem_cons, ← ih hfields]
      refine and_congr (by simp [Table.get?]) (forall₂_congr fun field hfield => ?_)
      have hne : first.1 ≠ field.1 := fun heq => hfirst (heq ▸ List.mem_map_of_mem hfield)
      simp [Table.get?, hne]

/-- A value is a record iff it is taken apart as one and every member that is there is of its kind.
-/
theorem isRecord_iff {fields : Table (Json → Prop)} (hfields : fields.Distinct) (title : String)
    {v : Json} :
    IsRecord fields v ↔ ∃ t, recordOf title (Table.names fields) v = .ok t ∧
      ∀ field ∈ fields, ∀ w, Table.get? t field.1 = some w → field.2 w := by
  cases v with
  | obj members =>
    constructor
    · rintro ⟨h⟩
      exact ⟨members, rfl, h⟩
    · rintro ⟨t, ht, h⟩
      exact .object (Except.ok.inj ht ▸ h)
  | arr vs =>
    -- a list has the fields by position and may stop early, but has no further items
    have hlength : (Table.names fields).length = fields.length := List.length_map _
    rw [recordOf, hlength]
    split
    · next hle =>
      constructor
      · rintro (_ | ⟨-, h⟩)
        exact ⟨_, rfl, (forall_get?_zip_iff hfields).2 h⟩
      · rintro ⟨t, ht, h⟩
        exact .list hle ((forall_get?_zip_iff hfields).1 (Except.ok.inj ht ▸ h))
    · next hlt =>
      constructor
      · rintro (_ | ⟨hle, -⟩)
        exact absurd hle hlt
      · rintro ⟨t, ht, -⟩
        exact nomatch ht
  | _ =>
    constructor
    · rintro ⟨⟩
    · rintro ⟨t, ht, -⟩
      exact nomatch ht

/-- A record is read if its parts are, from the fields that it has. -/
theorem exists_recordOf_iff {fields : Table (Json → Prop)} (hfields : fields.Distinct)
    (title : String) {α : Type} {parts : Table Json → Except Error α}
    (hparts : ∀ t, (∃ a, parts t = .ok a) ↔
      ∀ field ∈ fields, ∀ w, Table.get? t field.1 = some w → field.2 w) (v : Json) :
    (∃ a, recordOf title (Table.names fields) v >>= parts = .ok a) ↔ IsRecord fields v := by
  rw [Except.exists_bind_eq_ok, isRecord_iff hfields title]
  simp only [hparts]

end SearchIndex.Json
