import SearchIndex.Json.Reader
import SearchIndex.Proofs.Json.Every

/-!
# Strings and numbers are read back

A literal that has been read so far takes further characters one by one: `Literal.Takes` and
`Numeral.Takes` are runs of such steps. `Literal.takes_flatMap_escaped` says that an escaped text
is taken as that text, and `Numeral.takes_toDigits` that the digits of a natural are taken as a
literal whose value is that natural.
-/

namespace SearchIndex.Json

/-! ## Text literals -/

/-- The characters, none of which ends the literal, lead from one state of it to another. -/
inductive Literal.Takes : Literal → List Char → Literal → Prop
  | nil {t : Literal} : Takes t [] t
  | cons {t t' t'' : Literal} {c : Char} {cs : List Char} (hopen : t.closes c = false)
      (hfeed : t.feed false c = .ok t') (hrest : Takes t' cs t'') : Takes t (c :: cs) t''

/-- The characters between two quotes make up the text. -/
def Literal.Stands (cs : List Char) (s : String) : Prop :=
  ∃ t, Takes empty cs t ∧ t.closes '"' ∧ t.text = s

namespace Literal

/-- A literal takes one text after the other. -/
theorem Takes.append {t t' t'' : Literal} {cs ds : List Char} (h : Takes t cs t')
    (h' : Takes t' ds t'') : Takes t (cs ++ ds) t'' := by
  induction h with
  | nil => exact h'
  | cons hopen hfeed _ ih => exact .cons hopen hfeed (ih h')

/-- A literal is closed by a quote. -/
theorem eq_of_closes {t : Literal} {c : Char} (h : t.closes c) : c = '"' := by
  simpa using (Bool.and_eq_true _ _ ▸ h : (t.escape == .outside) ∧ (c == '"')).2

/-- A written hexadecimal digit is read back. -/
theorem hexDigit?_digitChar {n : Nat} (h : n < 16) : hexDigit? (Nat.digitChar n) = some n := by
  revert n
  decide

/-- Digits are single bytes. -/
theorem utf8Size_digitChar {n : Nat} (h : n < 16) : (Nat.digitChar n).utf8Size = 1 := by
  revert n
  decide

/-- A digit of a code is put behind the others; the fourth one ends the code. -/
theorem feed_digitChar (read : List Char) (bytes value : Nat) {n : Nat} (h : n < 16) :
    feed ⟨read, .hex none bytes (some value)⟩ false (Nat.digitChar n) =
      if bytes + 1 < 4 then .ok ⟨read, .hex none (bytes + 1) (some (16 * value + n))⟩
      else endHex ⟨read, .hex none bytes (some value)⟩ false none (16 * value + n) := by
  simp only [feed, utf8Size_digitChar h, Option.bind_some, hexDigit?_digitChar h, Option.map_some]

/-- A control character is taken from its code. -/
theorem takes_code {c : Char} (h : c.toNat < 0x20) (read : List Char) :
    Takes ⟨read, .outside⟩
      ['\\', 'u', '0', '0', Nat.digitChar (c.toNat / 16), Nat.digitChar (c.toNat % 16)]
      ⟨c :: read, .outside⟩ := by
  have hcode : 16 * (c.toNat / 16) + c.toNat % 16 = c.toNat := Nat.div_add_mod c.toNat 16
  have htrail : isTrail c.toNat = false := by simp [isTrail]; omega
  have hlead : isLead c.toNat = false := by simp [isLead]; omega
  refine .cons rfl rfl (.cons rfl rfl (.cons rfl rfl (.cons rfl rfl ?_)))
  refine .cons rfl (feed_digitChar read 2 0 (by omega)) (.cons rfl ?_ .nil)
  rw [Nat.mul_zero, Nat.zero_add]
  refine (feed_digitChar read 3 (c.toNat / 16) (by omega)).trans ?_
  rw [if_neg (by omega), hcode]
  simp [endHex, htrail, hlead, push, Char.ofNat_toNat]

/-- A character that is escaped by a letter is taken from the letter. -/
theorem takes_letter {letter c : Char} (hu : letter ≠ 'u') (h : unescaped? letter = some c)
    (read : List Char) : Takes ⟨read, .outside⟩ ['\\', letter] ⟨c :: read, .outside⟩ := by
  refine .cons rfl rfl (.cons rfl ?_ .nil)
  simp [feed, hu, h, push]

/-- An escaped character is taken as that character. -/
theorem takes_escaped (c : Char) (read : List Char) :
    Takes ⟨read, .outside⟩ (escaped c) ⟨c :: read, .outside⟩ := by
  unfold escaped
  split
  · next h =>
    subst h
    exact takes_letter (by decide) rfl read
  next hquote =>
  split
  · next h =>
    subst h
    exact takes_letter (by decide) rfl read
  next hbackslash =>
  -- five control characters are escaped by letters, the others by their codes
  iterate 5
    split
    · next h =>
      subst h
      exact takes_letter (by decide) rfl read
  split
  · next h => exact takes_code h read
  next hcontrol =>
  refine .cons (by simp [closes, hquote]) ?_ .nil
  simp [feed, hbackslash, hcontrol, push]

/-- An escaped text is taken as that text. -/
theorem takes_flatMap_escaped (cs read : List Char) :
    Takes ⟨read, .outside⟩ (cs.flatMap escaped) ⟨cs.reverse ++ read, .outside⟩ := by
  induction cs generalizing read with
  | nil => exact .nil
  | cons c cs ih =>
    rw [List.flatMap_cons, List.reverse_cons, List.append_assoc]
    exact (takes_escaped c read).append (ih (c :: read))

/-- A text read whole is the text that was escaped. -/
theorem stands_flatMap_escaped (s : String) : Stands (s.toList.flatMap escaped) s := by
  refine ⟨_, takes_flatMap_escaped s.toList [], rfl, ?_⟩
  rw [text, List.append_nil, List.reverse_reverse, String.ofList_toList]

end Literal

/-! ## Number literals -/

/-- The characters are all part of the literal and lead from one state of it to another. -/
inductive Numeral.Takes : Stage → Numeral → List Char → Stage → Numeral → Prop
  | nil {stage : Stage} {n : Numeral} : Takes stage n [] stage n
  | cons {stage stage' stage'' : Stage} {n n' n'' : Numeral} {c : Char} {cs : List Char}
      (hfeed : n.feed stage c = .more stage' n') (hrest : Takes stage' n' cs stage'' n'') :
      Takes stage n (c :: cs) stage'' n''

/-- The characters make up a literal of the number. -/
def Numeral.Stands (negative : Bool) (cs : List Char) (v : Number) : Prop :=
  ∃ stage n, Takes .sign ⟨negative, [], [], none⟩ cs stage n ∧ stage.isComplete ∧
    n.value? = some v

namespace Numeral

/-- A literal with its sign. -/
def signed (negative : Bool) (cs : List Char) : List Char := if negative then '-' :: cs else cs

theorem signed_append (negative : Bool) (cs ds : List Char) :
    signed negative cs ++ ds = signed negative (cs ++ ds) := by
  cases negative <;> rfl

/-- A numeral takes one text after the other. -/
theorem Takes.append {stage stage' stage'' : Stage} {n n' n'' : Numeral} {cs ds : List Char}
    (h : Takes stage n cs stage' n') (h' : Takes stage' n' ds stage'' n'') :
    Takes stage n (cs ++ ds) stage'' n'' := by
  induction h with
  | nil => exact h'
  | cons hfeed _ ih => exact .cons hfeed (ih h')

/-- A literal that ends before a character may end there. -/
theorem isComplete_of_ended {n : Numeral} {stage : Stage} {c : Char}
    (h : n.feed stage c = .ended) : stage.isComplete := by
  cases stage
  case zero | integer | fraction | exponent => rfl
  case sign | point => cases hd : digit? c <;> simp [feed, hd] at h
  case mark =>
    cases hd : digit? c with
    | some d => simp [feed, hd] at h
    | none =>
      simp only [feed, hd] at h
      split at h
      · cases h
      · split at h <;> cases h
  case markSign => cases hd : digit? c <;> simp [feed, hd] at h

/-- A written decimal digit is read back. -/
theorem digit?_digitChar {d : Nat} (h : d < 10) : digit? (Nat.digitChar d) = some d := by
  revert d
  decide

/-- If all digits have been collected, collecting goes on behind them. -/
theorem collect_append {limit value whole : Nat} {ds es : List Nat}
    (h : collect limit value ds = (whole, [])) :
    collect limit value (ds ++ es) = collect limit whole es := by
  induction ds generalizing value with
  | nil =>
    obtain rfl : value = whole := (Prod.mk.inj h).1
    rfl
  | cons d ds ih =>
    rw [collect] at h
    rw [List.cons_append, collect]
    split at h
    · next hle => rw [if_pos hle, ih h]
    · exact absurd (Prod.mk.inj h).2 (List.cons_ne_nil d ds)

/-- The literal of a natural: its digits, last first. -/
structure Spells (negative : Bool) (value : Nat) (n : Numeral) : Prop where
  negative_eq : n.negative = negative
  fraction_eq : n.fraction = []
  exponent_eq : n.exponent = none
  collect_eq : ∀ limit, value ≤ limit → collect limit 0 n.integer.reverse = (value, [])

/-- A single digit, zero included, spells itself. -/
theorem spells_digit (negative : Bool) (d : Nat) :
    Spells negative d ⟨negative, [d], [], none⟩ :=
  ⟨rfl, rfl, rfl, fun limit hlimit => by simp [collect, hlimit]⟩

/-- One more digit behind a natural. -/
theorem Spells.push {negative : Bool} {value d : Nat} {n : Numeral} (h : Spells negative value n) :
    Spells negative (10 * value + d) { n with integer := d :: n.integer } := by
  obtain ⟨hnegative, hfraction, hexponent, hcollect⟩ := h
  refine ⟨hnegative, hfraction, hexponent, fun limit hlimit => ?_⟩
  rw [List.reverse_cons, collect_append (hcollect limit (by omega)), collect, collect,
    if_pos (by omega), Nat.mul_comm]

/-- The digits of a natural are taken as its literal. Only zero may not be followed by a digit. -/
theorem takes_toDigits (negative : Bool) (value : Nat) :
    ∃ n, Takes .sign ⟨negative, [], [], none⟩ (Nat.toDigits 10 value)
      (if value = 0 then .zero else .integer) n ∧ Spells negative value n := by
  induction value using Nat.strongRecOn with
  | ind value ih =>
  by_cases hlt : value < 10
  · refine ⟨⟨negative, [value], [], none⟩, ?_, spells_digit negative value⟩
    rw [Nat.toDigits_of_lt_base hlt]
    refine .cons ?_ .nil
    simp only [feed, digit?_digitChar hlt]
  · obtain ⟨n, htakes, hspells⟩ := ih (value / 10) (by omega)
    have hdigit : value % 10 < 10 := Nat.mod_lt value (by omega)
    rw [if_neg (by omega)] at htakes
    refine ⟨{ n with integer := value % 10 :: n.integer }, ?_, ?_⟩
    · rw [Nat.toDigits_of_base_le (by omega) (by omega), if_neg (by omega)]
      refine htakes.append (.cons ?_ .nil)
      simp only [feed, digit?_digitChar hdigit]
    · have hpush := hspells.push (d := value % 10)
      rwa [Nat.div_add_mod] at hpush

/-- The digits of a natural are taken as a literal that may end there. -/
theorem takes_natural (negative : Bool) (value : Nat) :
    ∃ stage n, stage.isComplete ∧
      Takes .sign ⟨negative, [], [], none⟩ (Nat.toDigits 10 value) stage n ∧
      Spells negative value n := by
  obtain ⟨n, htakes, hspells⟩ := takes_toDigits negative value
  refine ⟨_, n, ?_, htakes, hspells⟩
  split <;> rfl

/-- The literal of a natural that fits a word stands for it. -/
theorem Spells.value?_eq {negative : Bool} {value : Nat} {n : Numeral}
    (h : Spells negative value n) (hword : value ≤ greatestWord)
    (hnegative : negative → 0 < value ∧ value ≤ greatestNegated) :
    n.value? = some (.integer (if negative then -value else value)) := by
  obtain ⟨rfl, hfraction, hexponent, hcollect⟩ := h
  unfold value?
  simp only [hfraction, hexponent, hcollect greatestWord hword]
  cases hsign : n.negative with
  | false => rfl
  | true => simp [hnegative hsign]

end Numeral

end SearchIndex.Json
