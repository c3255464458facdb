import SearchIndex.Json.Writer

/-!
# Single quotes in written documents

The writer escapes double quotes, but single quotes have no meaning in JSON: a written document has
one iff a text of the document has one, be it a string or a name (`quote_mem_pretty`).
-/

namespace SearchIndex

/-- Digits are no quotes. -/
theorem quote_not_mem_toDigits (n : Nat) : '\'' ∉ Nat.toDigits 10 n := by
  intro h
  have hdigit := Nat.isDigit_of_mem_toDigits (by decide) (by decide) h
  exact absurd hdigit (by decide)

/-- A double is written without a quote. -/
theorem quote_not_mem_double (x : Double) : '\'' ∉ x.text := by
  have hdigits := quote_not_mem_toDigits
  have htake : ∀ n k, '\'' ∉ (Nat.toDigits 10 n).take k :=
    fun n k h => hdigits n (List.mem_of_mem_take h)
  have hdrop : ∀ n k, '\'' ∉ (Nat.toDigits 10 n).drop k :=
    fun n k h => hdigits n (List.mem_of_mem_drop h)
  unfold Double.text
  simp only
  repeat' split
  all_goals simp [hdigits, htake, hdrop, -List.drop_one]

namespace Json

/-- A number is written without a quote. -/
theorem quote_not_mem_number (n : Number) : '\'' ∉ n.text := by
  cases n with
  | integer value =>
    rw [Number.text]
    split
    · simpa using quote_not_mem_toDigits value.natAbs
    · exact quote_not_mem_toDigits value.natAbs
  | double value => exact quote_not_mem_double value

mutual

/-- The character stands in a string or in a name of the value, at any depth. -/
def Mentions (c : Char) : Json → Prop
  | .str s => c ∈ s.toList
  | .arr vs => ItemsMention c vs
  | .obj ms => MembersMention c ms
  | _ => False

/-- The character stands in an item. -/
def ItemsMention (c : Char) : List Json → Prop
  | [] => False
  | v :: vs => Mentions c v ∨ ItemsMention c vs

/-- The character stands in a name or in the value of a member. -/
def MembersMention (c : Char) : List (String × Json) → Prop
  | [] => False
  | (k, v) :: ms => c ∈ k.toList ∨ Mentions c v ∨ MembersMention c ms

end

/-- Hexadecimal digits are no quotes. -/
theorem quote_ne_digitChar {n : Nat} (h : n < 16) : '\'' ≠ Nat.digitChar n := by
  revert n
  decide

/-- Escapes bring in no single quote, and a single quote is not escaped. -/
theorem quote_mem_escaped (c : Char) : '\'' ∈ escaped c ↔ c = '\'' := by
  by_cases hquote : c = '\''
  · subst hquote
    decide
  · have hne : '\'' ≠ c := fun h => hquote h.symm
    have hhigh : c.toNat < 0x20 → '\'' ≠ Nat.digitChar (c.toNat / 16) :=
      fun h => quote_ne_digitChar (by omega)
    have hlow : c.toNat < 0x20 → '\'' ≠ Nat.digitChar (c.toNat % 16) :=
      fun h => quote_ne_digitChar (by omega)
    unfold escaped
    repeat' split
    all_goals simp [*]

/-- A single quote is written as it is, and no escape has one. -/
theorem quote_mem_quoted (s : String) : '\'' ∈ quoted s ↔ '\'' ∈ s.toList := by
  simp [quoted, quote_mem_escaped]

theorem quote_not_mem_lineBreak (width depth : Nat) :
    '\'' ∉ (Layout.indented width).lineBreak depth := by
  simp [Layout.indented]

theorem quote_not_mem_gap (width : Nat) : '\'' ∉ (Layout.indented width).gap := by
  simp [Layout.indented]

variable (width : Nat)

mutual

/-- A value is written with a single quote iff it mentions one. -/
theorem quote_mem_write (depth : Nat) (v : Json) :
    '\'' ∈ write (.indented width) depth v ↔ Mentions '\'' v := by
  cases v with
  | null => simp [write, Mentions]
  | bool b => cases b <;> simp [write, Mentions]
  | num n => simp [write, Mentions, quote_not_mem_number]
  | str s => simp [write, Mentions, quote_mem_quoted]
  | arr vs =>
    cases vs with
    | nil => simp [write, Mentions, ItemsMention]
    | cons v vs =>
      have hv := quote_mem_write (depth + 1) v
      have hvs := quote_mem_writeItems depth vs
      simp [write, Mentions, ItemsMention, quote_not_mem_lineBreak, hv, hvs]
  | obj ms =>
    cases ms with
    | nil => simp [write, Mentions, MembersMention]
    | cons m ms =>
      obtain ⟨k, v⟩ := m
      have hv := quote_mem_write (depth + 1) v
      have hms := quote_mem_writeMembers depth ms
      simp [write, Mentions, MembersMention, quote_not_mem_lineBreak, quote_not_mem_gap,
        quote_mem_quoted, hv, hms]

/-- The quotes in a written list are those of its values. -/
theorem quote_mem_writeItems (depth : Nat) (vs : List Json) :
    '\'' ∈ writeItems (.indented width) depth vs ↔ ItemsMention '\'' vs := by
  cases vs with
  | nil => simp [writeItems, ItemsMention]
  | cons v vs =>
    have hv := quote_mem_write (depth + 1) v
    have hvs := quote_mem_writeItems depth vs
    simp [writeItems, ItemsMention, quote_not_mem_lineBreak, hv, hvs]

/-- The quotes in a written object are those of its names and its values. -/
theorem quote_mem_writeMembers (depth : Nat) (ms : List (String × Json)) :
    '\'' ∈ writeMembers (.indented width) depth ms ↔ MembersMention '\'' ms := by
  cases ms with
  | nil => simp [writeMembers, MembersMention]
  | cons m ms =>
    obtain ⟨k, v⟩ := m
    have hv := quote_mem_write (depth + 1) v
    have hms := quote_mem_writeMembers depth ms
    simp [writeMembers, MembersMention, quote_not_mem_lineBreak, quote_not_mem_gap,
        quote_mem_quoted, hv, hms]

end

/-- A document that is written with an indent has a single quote iff it mentions one. -/
theorem quote_mem_pretty (v : Json) : '\'' ∈ v.pretty.toList ↔ v.Mentions '\'' := by
  rw [pretty, String.toList_ofList]
  exact quote_mem_write 4 0 v

end Json

end SearchIndex
