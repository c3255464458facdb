import SearchIndex.Proofs.Json.Record

/-!
# Values that are read back

A reader gives the same value for many documents: it drops keys, and it takes `null` for a missing
part and a list for a record. `ReadsBack` says of a reader and a writer that what is written for the
value is one of these documents.

A list is read back if its elements are. A record is read back part by part: a part that was read is
read again under its name (`ReadsBack.optional`, `ReadsBack.of_defaulted`).
-/

namespace SearchIndex.Json

/-- Whatever was read is read back from what is written for it. -/
def ReadsBack {α : Type} (read : Json → Except Error α) (write : α → Json) : Prop :=
  ∀ v a, read v = .ok a → read (write a) = .ok a

variable {α : Type} {read : Json → Except Error α} {write : α → Json}

/-- A text is read back from itself. -/
theorem readsBack_textOf : ReadsBack textOf .str := fun _ _ _ => rfl

/-- Any value is read as it is. -/
theorem readsBack_ok : ReadsBack .ok id := fun _ _ _ => rfl

/-- A list is read back if each of its elements is. -/
theorem listOf_of_written {as : List α} (h : ∀ a ∈ as, read (write a) = .ok a) :
    listOf read (.arr (as.map write)) = .ok as :=
  Except.mapM_eq_ok.2 (List.forall₂_map_left_iff.2 (List.forall₂_same.2 h))

/-- A list is read back if its elements are. -/
theorem ReadsBack.listOf (h : ReadsBack read write) :
    ReadsBack (listOf read) fun as => .arr (as.map write) := by
  intro v as has
  refine listOf_of_written fun a ha => ?_
  cases v with
  | arr vs =>
    obtain ⟨w, -, hw⟩ := Except.mem_of_values (Except.mapM_eq_ok.1 has) a ha
    exact h w a hw
  | _ => exact nomatch has

/-- A table of any values is read as it is. -/
theorem readsBack_tableOf : ReadsBack (tableOf .ok) .obj := fun _ t _ => entriesOf_ok t

/-! ## Parts of a record -/

@[simp] theorem get?_present_nil (key : String) : Table.get? (present []) key = none := rfl

/-- Under its name stands a part that is there. -/
@[simp] theorem get?_present_cons (name key : String) (o : Option Json)
    (ms : List (String × Option Json)) :
    Table.get? (present ((name, o) :: ms)) key =
      if name = key then o.or (Table.get? (present ms) key) else Table.get? (present ms) key := by
  cases o with
  | none => simp [present]
  | some v => simp [present, Table.get?]

variable {t t' : Table Json} {name : String}

/-- A member that is there and not null is read. -/
theorem optional_of_ne_null {v : Json} (hget : Table.get? t name = some v) (hv : v ≠ .null) :
    optional t name read = (read v).map some := by
  rw [optional, hget]
  cases v with
  | null => exact absurd rfl hv
  | _ => rfl

/-- A part that may be missing is read as it is written, unless `null` is written for it. -/
theorem optional_of_written (write : α → Json) {o : Option α}
    (hget : Table.get? t name = o.map write)
    (h : ∀ a, o = some a → write a ≠ .null ∧ read (write a) = .ok a) :
    optional t name read = .ok o := by
  cases o with
  | none => rw [optional, hget, Option.map_none]
  | some a =>
    obtain ⟨hnull, ha⟩ := h a rfl
    rw [optional_of_ne_null hget hnull, ha]
    rfl

/-- A part that was read comes from a value other than `null`. -/
theorem exists_of_optional {a : α} (h : optional t name read = .ok (some a)) :
    ∃ v, v ≠ .null ∧ read v = .ok a := by
  unfold optional at h
  split at h
  · exact nomatch h
  · exact nomatch h
  · next v hnull _ =>
    obtain ⟨b, hb, heq⟩ := Except.map_eq_ok.1 h
    exact ⟨v, hnull, Option.some.inj heq ▸ hb⟩

/-- A part that may be missing is read back, unless `null` could be written for it. -/
theorem ReadsBack.optional (h : ReadsBack read write)
    (hnull : ∀ v a, v ≠ .null → read v = .ok a → write a ≠ .null) {o : Option α}
    (hread : optional t name read = .ok o) (hget : Table.get? t' name = o.map write) :
    Json.optional t' name read = .ok o := by
  refine optional_of_written write hget fun a ha => ?_
  obtain ⟨v, hv, hva⟩ := exists_of_optional (ha ▸ hread)
  exact ⟨hnull v a hv hva, h v a hva⟩

/-- A text that may be missing is read back. -/
theorem optional_textOf_of_written {o : Option String} (hget : Table.get? t name = o.map .str) :
    optional t name textOf = .ok o :=
  optional_of_written .str hget fun _ _ => ⟨Json.noConfusion, rfl⟩

/-- Any value that may be missing is read back; it was no `null` when it was read. -/
theorem optional_ok_of_written {o : Option Json} (hread : Json.optional t name .ok = .ok o)
    (hget : Table.get? t' name = o) : Json.optional t' name .ok = .ok o := by
  refine readsBack_ok.optional ?_ hread (by rw [hget, Option.map_id, id])
  rintro v w hv heq
  exact Except.ok.inj heq ▸ hv

/-- A part with a default is read back if its default can be read. -/
theorem ReadsBack.of_defaulted (h : ReadsBack read write) {value a : α}
    (hvalue : ∃ v, read v = .ok value) (hread : defaulted t name value read = .ok a) :
    read (write a) = .ok a := by
  unfold defaulted at hread
  split at hread
  · obtain ⟨v, hv⟩ := hvalue
    exact h v a (hv.trans hread)
  · next v _ => exact h v a hread

end SearchIndex.Json
