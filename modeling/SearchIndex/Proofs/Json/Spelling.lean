import SearchIndex.Proofs.Json.Parsed

/-!
# Integers have one spelling

A literal that stands for an integer is written with the digits of that integer: there are no
leading zeros, no plus sign and no other way to write it. `Numeral.Written` says what the characters
of a literal are so far, which each further character keeps (`Written.feed`). At the end the literal
stands for an integer only if it has neither a fraction nor an exponent, and then its characters are
those that are written for the integer (`integer_spelling`).

A literal with a fraction or an exponent stands for a double, which has many spellings.
-/

namespace SearchIndex.Json

namespace Numeral

/-- A digit is the character of its value. -/
theorem digitChar_of_digit? {c : Char} {d : Nat} (h : digit? c = some d) :
    d < 10 ∧ Nat.digitChar d = c := by
  unfold digit? at h
  split at h
  · next hdigit =>
    obtain rfl := Option.some.inj h
    obtain ⟨hge, hle⟩ : 48 ≤ c.toNat ∧ c.toNat ≤ 57 := by
      simpa [Char.isDigit, UInt32.le_iff_toNat_le] using hdigit
    have hlt : c.toNat - '0'.toNat < 10 := by
      rw [show '0'.toNat = 48 from rfl]
      omega
    refine ⟨hlt, Char.toNat_inj.1 ?_⟩
    rw [Nat.toNat_digitChar_of_lt_ten hlt, show '0'.toNat = 48 from rfl]
    omega
  · exact nomatch h

/-- All digits that are collected make up the same value, whatever the limit. -/
theorem eq_of_collect {limit limit' value whole whole' : Nat} {ds : List Nat}
    (h : collect limit value ds = (whole, [])) (h' : collect limit' value ds = (whole', [])) :
    whole = whole' := by
  induction ds generalizing value with
  | nil => exact (Prod.mk.inj h).1.symm.trans (Prod.mk.inj h').1
  | cons d ds ih =>
    rw [collect] at h h'
    split at h
    · split at h'
      · exact ih h h'
      · exact absurd (Prod.mk.inj h').2 (List.cons_ne_nil d ds)
    · exact absurd (Prod.mk.inj h).2 (List.cons_ne_nil d ds)

/-- What the characters of a literal are so far. Behind a point or an exponent mark it is enough
that the literal has a fraction or an exponent. -/
def Written (negative : Bool) : Stage → Numeral → List Char → Prop
  | .sign, n, cs => n = ⟨negative, [], [], none⟩ ∧ cs = []
  | .zero, n, cs => Spells negative 0 n ∧ cs = Nat.toDigits 10 0
  | .integer, n, cs => ∃ value, 0 < value ∧ Spells negative value n ∧ cs = Nat.toDigits 10 value
  | .point, _, _ => True
  | .fraction, n, _ => n.fraction ≠ []
  | .mark, n, _ | .markSign, n, _ | .exponent, n, _ => n.exponent ≠ none

section Feed

variable {negative : Bool} {stage stage' : Stage} {n n' : Numeral} {cs : List Char} {c : Char}
  (h : Written negative stage n cs) (hfeed : n.feed stage c = .more stage' n')
include h hfeed

/-- A digit goes on with a natural, or stands in a fraction or an exponent. -/
theorem Written.feed_digit {d : Nat} (hd : digit? c = some d) :
    Written negative stage' n' (cs ++ [c]) := by
  obtain ⟨hlt, rfl⟩ := digitChar_of_digit? hd
  cases stage <;> simp only [Numeral.feed, hd, reduceCtorEq, Progress.more.injEq] at hfeed
  case sign =>
    obtain ⟨rfl, rfl⟩ := hfeed
    obtain ⟨rfl, rfl⟩ := h
    by_cases hzero : d = 0
    · subst hzero
      exact ⟨spells_digit negative 0, rfl⟩
    · rw [if_neg hzero]
      refine ⟨d, Nat.pos_of_ne_zero hzero, spells_digit negative d, ?_⟩
      rw [Nat.toDigits_of_lt_base hlt]
      rfl
  case integer =>
    obtain ⟨rfl, rfl⟩ := hfeed
    obtain ⟨value, hpos, hspells, rfl⟩ := h
    refine ⟨10 * value + d, by omega, hspells.push, ?_⟩
    rw [← Nat.toDigits_append_toDigits (by omega) hpos hlt, Nat.toDigits_of_lt_base hlt]
  case point | fraction =>
    obtain ⟨rfl, rfl⟩ := hfeed
    exact List.cons_ne_nil _ _
  case mark | markSign | exponent =>
    obtain ⟨rfl, rfl⟩ := hfeed
    simpa [Written, pushExponent] using h

/-- Any other character that is taken begins a fraction or an exponent, or is its sign. -/
theorem Written.feed_mark (hd : digit? c = none) : Written negative stage' n' (cs ++ [c]) := by
  cases stage <;> simp only [Numeral.feed, hd, reduceCtorEq] at hfeed
  case zero | integer =>
    -- behind a point or a mark nothing is left to know of the digits
    split at hfeed
    · obtain ⟨rfl, rfl⟩ := Progress.more.inj hfeed
      trivial
    split at hfeed
    · obtain ⟨rfl, rfl⟩ := Progress.more.inj hfeed
      exact Option.some_ne_none _
    · cases hfeed
  case fraction =>
    split at hfeed
    · obtain ⟨rfl, rfl⟩ := Progress.more.inj hfeed
      exact Option.some_ne_none _
    · cases hfeed
  case mark =>
    split at hfeed
    · obtain ⟨rfl, rfl⟩ := Progress.more.inj hfeed
      exact h
    split at hfeed
    · obtain ⟨rfl, rfl⟩ := Progress.more.inj hfeed
      exact Option.some_ne_none _
    · cases hfeed

/-- A character that is taken is the next one that is written. -/
theorem Written.feed : Written negative stage' n' (cs ++ [c]) := by
  cases hd : digit? c with
  | some d => exact h.feed_digit hfeed hd
  | none => exact h.feed_mark hfeed hd

end Feed

/-- The characters that are taken are those that are written. -/
theorem Written.takes {negative : Bool} {stage stage' : Stage} {n n' : Numeral}
    {cs front : List Char} (h : Written negative stage n front)
    (htakes : Takes stage n cs stage' n') : Written negative stage' n' (front ++ cs) := by
  induction htakes generalizing front with
  | nil => rwa [List.append_nil]
  | cons hfeed _ ih =>
    have hrest := ih (h.feed hfeed)
    rwa [List.append_assoc, List.singleton_append] at hrest

/-- A literal that stands for an integer has digits only, and zero has no sign. -/
theorem integer_of_value? {n : Numeral} {z : Int} (h : n.value? = some (.integer z)) :
    n.fraction = [] ∧ n.exponent = none ∧ ∃ whole : Nat,
      collect greatestWord 0 n.integer.reverse = (whole, []) ∧ (n.negative → 0 < whole) ∧
      z = if n.negative then -(whole : Int) else whole := by
  have hdouble : n.magnitude?.map (fun m => Number.double ⟨n.negative, m⟩) ≠ some (.integer z) := by
    cases n.magnitude? <;> simp
  unfold value? at h
  dsimp only at h
  split at h
  · next whole hfraction hexponent hcollect =>
    refine ⟨hfraction, hexponent, whole, hcollect, ?_⟩
    cases hnegative : n.negative with
    | false => simpa [hnegative, eq_comm] using h
    | true =>
      rw [hnegative] at h hdouble
      simp only [Bool.not_true, Bool.false_eq_true, if_false] at h
      split at h
      · next hwhole => exact ⟨fun _ => hwhole.1, by simpa [eq_comm] using h⟩
      · exact absurd h hdouble
  · exact absurd h hdouble

/-- The characters of a literal that stands for an integer are those that are written for it. -/
theorem Written.eq_text {negative : Bool} {stage : Stage} {n : Numeral} {cs : List Char}
    (h : Written negative stage n cs) (hstage : stage.isComplete) {z : Int}
    (hz : n.value? = some (.integer z)) :
    signed negative cs = (Number.integer z).text := by
  obtain ⟨hfraction, hexponent, whole, hcollect, hpositive, rfl⟩ := integer_of_value? hz
  -- with neither fraction nor exponent, the digits are all that was read
  have hdigits : ∃ value, Spells negative value n ∧ cs = Nat.toDigits 10 value := by
    cases stage with
    | zero => exact ⟨0, h⟩
    | integer =>
      obtain ⟨value, -, hspells⟩ := h
      exact ⟨value, hspells⟩
    | fraction => exact absurd hfraction h
    | exponent => exact absurd hexponent h
    | sign | point | mark | markSign => exact nomatch hstage
  obtain ⟨value, hspells, rfl⟩ := hdigits
  obtain rfl : value = whole :=
    eq_of_collect (hspells.collect_eq value (Nat.le_refl value)) hcollect
  rw [hspells.negative_eq] at hpositive ⊢
  cases negative with
  | false => simp [Number.text, signed]
  | true =>
    have hpos : value ≠ 0 := Nat.ne_of_gt (hpositive rfl)
    simp [Number.text, signed, hpos]

end Numeral

/-! ## Texts that are literals -/

/-- The character can be part of a number. -/
def isNumeric (c : Char) : Bool := (Numeral.digit? c).isSome || ['-', '+', '.', 'e', 'E'].contains c

/-- A character of a number is not blank. -/
theorem isBlank_of_isNumeric {c : Char} (h : isNumeric c) : isBlank c = false := by
  refine Bool.eq_false_iff.2 fun hblank => ?_
  simp only [isBlank, Bool.or_eq_true, beq_iff_eq] at hblank
  rcases hblank with ((rfl | rfl) | rfl) | rfl <;> exact absurd h (by decide)

/-- There are no blanks among characters of numbers. -/
theorem AreBlank.eq_nil {cs : List Char} (h : AreBlank cs) (hcs : ∀ c ∈ cs, isNumeric c) :
    cs = [] := by
  refine List.eq_nil_iff_forall_not_mem.2 fun c hc => ?_
  have hblank := h c hc
  rw [isBlank_of_isNumeric (hcs c hc)] at hblank
  exact Bool.false_ne_true hblank

/-- What a text of such characters is read as, if it is a number, it is a literal of. -/
theorem stands_of_read {text : String} (htext : ∀ c ∈ text.toList, isNumeric c) {n : Number}
    (h : read text = .ok (.num n)) : ∃ negative digits,
      text.toList = Numeral.signed negative digits ∧ Numeral.Stands negative digits n := by
  obtain ⟨raw, ⟨-, b, cs, b', hb, hspells, hb', heq⟩, hraw⟩ := read_iff.1 h
  rw [heq] at htext
  obtain ⟨hfront, hrest⟩ := List.forall_mem_append.1 htext
  obtain rfl := hb.eq_nil hfront
  obtain rfl := hb'.eq_nil (List.forall_mem_append.1 hrest).2
  rw [List.nil_append, List.append_nil] at heq
  cases hspells with
  | num hstands =>
    obtain rfl := Json.num.inj hraw
    exact ⟨_, _, heq, hstands⟩
  | _ => exact nomatch hraw

/-- A text that is read as an integer, and has only characters of numbers, is what is written for
the integer. -/
theorem integer_spelling {text : String} (htext : ∀ c ∈ text.toList, isNumeric c) {z : Int}
    (h : read text = .ok (.num (.integer z))) : text = String.ofList (Number.integer z).text := by
  obtain ⟨negative, digits, hcs, stage, n, htakes, hstage, hvalue⟩ := stands_of_read htext h
  have hstart : Numeral.Written negative .sign ⟨negative, [], [], none⟩ [] := ⟨rfl, rfl⟩
  have hspelled := (hstart.takes htakes).eq_text hstage hvalue
  rw [List.nil_append, ← hcs] at hspelled
  rw [← hspelled, String.ofList_toList]

end SearchIndex.Json
