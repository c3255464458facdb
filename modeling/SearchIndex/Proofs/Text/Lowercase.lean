import SearchIndex.Text.Lowercase

/-!
# Single quotes in lower case

Lower-casing neither brings in a single quote nor takes one out: all lower-case forms of the table
stand behind it.
-/

namespace SearchIndex.Text

/-- Lower-case forms are letters. -/
theorem le_of_lowercaseCode? {code target : Nat} (h : lowercaseCode? code = some target) :
    0x61 ≤ target := by
  have htable : ∀ run ∈ lowercaseRuns, 0x61 ≤ run.2.2.2 := by decide +kernel
  obtain ⟨⟨first, last, step, form⟩, hrun, hform⟩ := List.exists_of_findSome?_eq_some h
  have hle : 0x61 ≤ form := htable _ hrun
  dsimp only at hform
  split at hform
  · have htarget := Option.some.inj hform
    omega
  · simp at hform

/-- No character from the small letters on is a quote. -/
theorem ofNat_ne_quote {code : Nat} (h : 0x61 ≤ code) : '\'' ≠ Char.ofNat code := by
  intro heq
  have hcode : 0x27 = (Char.ofNat code).toNat := congrArg Char.toNat heq
  by_cases hvalid : code.isValidChar
  · have hchar : Char.ofNat code = Char.ofNatAux code hvalid := dif_pos hvalid
    rw [hchar] at hcode
    have hquote : 0x27 = code := hcode
    omega
  · have hchar : Char.ofNat code = '\x00' := dif_neg hvalid
    rw [hchar] at hcode
    exact absurd hcode (by decide)

/-- Only a quote has a quote in its lower-case form. -/
theorem quote_mem_lowercaseChar (c : Char) : '\'' ∈ lowercaseChar c ↔ c = '\'' := by
  by_cases hquote : c = '\''
  · subst hquote
    decide
  simp only [hquote, iff_false]
  unfold lowercaseChar
  split
  · next hascii =>
    -- ASCII letters have no table; there are few enough characters to go through them
    have hall : ∀ n < 0x80, n ≠ 0x27 → '\'' ≠ (Char.ofNat n).toLower := by decide +kernel
    have hne : c.toNat ≠ 0x27 := fun h => hquote (Char.toNat_inj.1 h)
    have hlower := hall c.toNat hascii hne
    rw [Char.ofNat_toNat] at hlower
    simpa using hlower
  split
  · decide
  · cases hcode : lowercaseCode? c.toNat with
    | none =>
      have hne : '\'' ≠ c := fun h => hquote h.symm
      simpa using hne
    | some target => simpa using ofNat_ne_quote (le_of_lowercaseCode? hcode)

/-- A text in lower case has a quote iff the text has. -/
theorem quote_mem_lowercaseFrom (before cs : List Char) :
    '\'' ∈ lowercaseFrom before cs ↔ '\'' ∈ cs := by
  induction cs generalizing before with
  | nil => rfl
  | cons c cs ih =>
    rw [lowercaseFrom, List.mem_append, ih, List.mem_cons]
    by_cases hsigma : c = 'Σ'
    · subst hsigma
      have hform : '\'' ≠ if meetsCased before && !meetsCased cs then 'ς' else 'σ' := by
        split <;> decide
      rw [if_pos rfl, List.mem_singleton, or_iff_right hform, or_iff_right (by decide)]
    · rw [if_neg hsigma, quote_mem_lowercaseChar, eq_comm]

/-- A text has a single quote in lower case iff it has one. -/
theorem quote_mem_lowercase (s : String) : '\'' ∈ (lowercase s).toList ↔ '\'' ∈ s.toList := by
  rw [lowercase, String.toList_ofList]
  exact quote_mem_lowercaseFrom [] s.toList

end SearchIndex.Text
