import SearchIndex.Mapping.Attributes

/-!
# References among attributes

`ReferenceList` and `referenceIds` say of a plain value whether it is a list of references and which
identifiers stand in it, `Kept` which attributes are looked at for references at all. The compiler
goes by tests of its own: `kept_iff`, `isList_iff` and `keyIds_eq` say that these are the same.
-/

namespace SearchIndex.Mapping

open Schema

/-- A parameter other than sub-fields in text form. -/
structure Kept (name : String) : Prop where
  not_mem : name ∉ metadataNames
  ne_text : name ≠ subFieldsText

/-- A list that begins with a reference: an object with a key identifier that is not empty. -/
def ReferenceList (v : Json) : Prop :=
  ∃ first rest id, v = .arr (first :: rest) ∧ first.get? "keyId" = some (.str id) ∧ id ≠ ""

/-- The identifiers in a list of references, in order: what stands under `keyId`, if it is a text
other than the empty one. Items without such an identifier are passed over. -/
def referenceIds : Json → List String
  | .arr items => items.filterMap fun item =>
    match item.get? "keyId" with
    | some (.str id) => if id = "" then none else some id
    | _ => none
  | _ => []

/-- The compiler's tests on the name of an attribute are whether it is kept. -/
theorem kept_iff {name : String} : Kept name ↔ isParameter name ∧ name ≠ subFieldsText := by
  have hparameter : isParameter name ↔ name ∉ metadataNames := by
    simp [isParameter]
  rw [hparameter]
  exact ⟨fun h => ⟨h.not_mem, h.ne_text⟩, fun h => ⟨h.1, h.2⟩⟩

/-- A single reference has an identifier iff a text stands under `keyId` that is not empty. -/
theorem keyIdOf?_eq_some_iff {item : Json} {id : String} :
    Reference.keyIdOf? item = some id ↔ item.get? "keyId" = some (.str id) ∧ id ≠ "" := by
  unfold Reference.keyIdOf?
  cases item.get? "keyId" with
  | none => simp
  | some w => cases w <;> simp [Json.text?, Option.filter_eq_some_iff]

/-- The compiler's test for a list of references looks at the first item alone. -/
theorem isList_iff {v : Json} : Reference.isList v ↔ ReferenceList v := by
  unfold Reference.isList ReferenceList
  rw [Option.isSome_iff_exists]
  simp only [Option.bind_eq_some_iff, keyIdOf?_eq_some_iff]
  constructor
  · rintro ⟨id, items, hitems, first, hfirst, hid⟩
    obtain ⟨rest, rfl⟩ := List.head?_eq_some_iff.1 hfirst
    cases v <;> simp only [Json.items?, Option.some.injEq, reduceCtorEq] at hitems
    exact ⟨first, rest, id, congrArg Json.arr hitems, hid⟩
  · rintro ⟨first, rest, id, rfl, hid⟩
    exact ⟨id, _, rfl, first, rfl, hid⟩

/-- The identifiers that the compiler asks for are those of the references. -/
theorem keyIds_eq (v : Json) : keyIds v = referenceIds v := by
  cases v with
  | arr items =>
    refine congrArg (items.filterMap ·) (funext fun item => Option.ext fun id => ?_)
    rw [keyIdOf?_eq_some_iff]
    cases item.get? "keyId" with
    | none => simp
    | some w =>
      cases w with
      | str key =>
        by_cases hkey : key = ""
        · simp only [hkey, if_true, Option.some.injEq, Json.str.injEq, reduceCtorEq, iff_false]
          rintro ⟨rfl, hid⟩
          exact hid rfl
        · simp only [hkey, if_false, Option.some.injEq, Json.str.injEq]
          exact ⟨And.left, fun heq => ⟨heq, heq ▸ hkey⟩⟩
      | _ => simp
  | _ => rfl

instance (name : String) : Decidable (Kept name) := decidable_of_iff _ kept_iff.symm

instance (v : Json) : Decidable (ReferenceList v) := decidable_of_iff _ isList_iff

end SearchIndex.Mapping
