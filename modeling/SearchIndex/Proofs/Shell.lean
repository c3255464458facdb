import Mathlib.Data.List.Basic

/-!
# The words of a shell command

`words?` splits a command into its words by the quoting rules of a POSIX shell: blanks outside
quotes separate words, and quotes and backslashes that quote are taken out. There are no words if a
quote stays open or if a character outside quotes would have to be expanded or would end the
command.

A text in single quotes is one word iff it has no single quote. `scan_quoted` is one direction. For
the other one, `balanced_scan` counts characters: a single quote that gets into a word costs another
quoting character, so it makes the words shorter than those that were meant.
-/

namespace SearchIndex.Shell

/-- Where a shell stands in a command: between words, in a word, or behind a backslash, which leads
back into a word or not. -/
inductive State where
  | gap
  | plain
  | escaped (inWord : Bool)
  | single
  | double
  | doubleEscaped
deriving DecidableEq, Repr

/-- What a shell does with a character: it takes it out, ends the word, or adds characters to it. -/
inductive Effect where
  | drop
  | cut
  | keep (cs : List Char)

/-- Blanks separate words. -/
def isBlank (c : Char) : Bool := c = ' ' || c = '\t'

/-- Characters that stand for something else than themselves outside quotes. -/
def isActive (c : Char) : Bool :=
  ['|', '&', ';', '<', '>', '(', ')', '$', '\x60', '\n', '*', '?', '[', '#', '~', '=',
    '%'].contains c

/-- Characters that a backslash quotes between double quotes. -/
def isQuotedInDouble (c : Char) : Bool := ['$', '\x60', '"', '\\'].contains c

/-- Reads a character that is not blank outside quotes. -/
def outside (inWord : Bool) (c : Char) : Option (State × Effect) :=
  if c = '\'' then some (.single, .drop)
  else if c = '"' then some (.double, .drop)
  else if c = '\\' then some (.escaped inWord, .drop)
  else if isActive c then none
  else some (.plain, .keep [c])

/-- Reads a character. A line break behind a backslash is taken out with it. -/
def step : State → Char → Option (State × Effect)
  | .gap, c => if isBlank c then some (.gap, .drop) else outside false c
  | .plain, c => if isBlank c then some (.gap, .cut) else outside true c
  | .escaped inWord, c =>
    if c = '\n' then some (if inWord then .plain else .gap, .drop) else some (.plain, .keep [c])
  | .single, c => if c = '\'' then some (.plain, .drop) else some (.single, .keep [c])
  | .double, c =>
    if c = '"' then some (.plain, .drop)
    else if c = '\\' then some (.doubleEscaped, .drop)
    else if c = '$' || c = '\x60' then none
    else some (.double, .keep [c])
  | .doubleEscaped, c =>
    if c = '\n' then some (.double, .drop)
    else if isQuotedInDouble c then some (.double, .keep [c])
    else some (.double, .keep ['\\', c])

/-- Puts characters in front of the first word. -/
def prepend (cs : List Char) : List (List Char) → List (List Char)
  | [] => [cs]
  | w :: ws => (cs ++ w) :: ws

/-- The words from a character on, given those behind it. -/
def Effect.apply : Effect → List (List Char) → List (List Char)
  | .drop, ws => ws
  | .cut, ws => [] :: ws
  | .keep cs, ws => prepend cs ws

/-- The words at the end of a command; none behind a backslash or between quotes. -/
def State.finish : State → Option (List (List Char))
  | .gap => some []
  | .plain => some [[]]
  | _ => none

/-- The words of the rest of a command. If it begins in a word, the first of them is what is left of
that one. -/
def scan : State → List Char → Option (List (List Char))
  | s, [] => s.finish
  | s, c :: cs => (step s c).bind fun next => (scan next.1 cs).map next.2.apply

/-- The words of a command. -/
def words? (command : String) : Option (List String) :=
  (scan .gap command.toList).map fun ws => ws.map String.ofList

/-- Characters are put before the first word one after the other. -/
theorem prepend_prepend (k k' : List Char) (ws : List (List Char)) :
    prepend k (prepend k' ws) = prepend (k ++ k') ws := by
  cases ws <;> simp [prepend]

/-! ## What becomes a word -/

/-- Characters that a shell adds to a word where it stands, without leaving the place, are added to
it. -/
theorem scan_append {s : State} {w : List Char} (hw : ∀ c ∈ w, step s c = some (s, .keep [c]))
    {cs v : List Char} {vs : List (List Char)} (h : scan s cs = some (v :: vs)) :
    scan s (w ++ cs) = some ((w ++ v) :: vs) := by
  induction w with
  | nil => exact h
  | cons c w ih =>
    obtain ⟨hc, hw⟩ := List.forall_mem_cons.1 hw
    rw [List.cons_append, scan, hc, Option.bind_some, ih hw]
    rfl

/-- A character that stands for itself outside quotes. -/
def isPlain (c : Char) : Bool :=
  !(isBlank c || c = '\'' || c = '"' || c = '\\' || isActive c)

/-- A plain character is kept, and begins a word if none has begun. -/
theorem step_of_isPlain {c : Char} (h : isPlain c) :
    step .gap c = some (.plain, .keep [c]) ∧ step .plain c = some (.plain, .keep [c]) := by
  simp only [isPlain, Bool.not_eq_true', Bool.or_eq_false_iff, decide_eq_false_iff_not] at h
  obtain ⟨⟨⟨⟨hblank, hsingle⟩, hdouble⟩, hbackslash⟩, hactive⟩ := h
  simp [step, outside, *]

/-- A blank ends a word. -/
theorem scan_blank {cs : List Char} {ws : List (List Char)} (h : scan .gap cs = some ws) :
    scan .plain (' ' :: cs) = some ([] :: ws) := by
  have hstep : step .plain ' ' = some (.gap, .cut) := rfl
  rw [scan, hstep, Option.bind_some, h]
  rfl

/-- Plain characters in front of a blank are a word. -/
theorem scan_plain {w : List Char} (hne : w ≠ []) (hw : w.all isPlain) {cs : List Char}
    {ws : List (List Char)} (h : scan .gap cs = some ws) :
    scan .gap (w ++ ' ' :: cs) = some (w :: ws) := by
  obtain ⟨c, w, rfl⟩ := List.exists_cons_of_ne_nil hne
  obtain ⟨hc, hw⟩ := List.forall_mem_cons.1 (List.all_eq_true.1 hw)
  have hrest := scan_append (fun c' hc' => (step_of_isPlain (hw c' hc')).2) (scan_blank h)
  rw [List.cons_append, scan, (step_of_isPlain hc).1, Option.bind_some, hrest]
  simp [Effect.apply, prepend]

/-- What a quoted text without single quotes begins with is its word. -/
theorem scan_quoted_append {w : List Char} (hw : '\'' ∉ w) {cs : List Char}
    {ws : List (List Char)} (h : scan .plain cs = some ([] :: ws)) :
    scan .gap ('\'' :: (w ++ '\'' :: cs)) = some (w :: ws) := by
  have hstep : ∀ c ∈ w, step .single c = some (.single, .keep [c]) := by
    intro c hc
    have hne : c ≠ '\'' := fun heq => hw (heq ▸ hc)
    rw [step, if_neg hne]
  have hend : scan .single ('\'' :: cs) = some ([] :: ws) := by
    rw [scan, show step .single '\'' = some (.plain, .drop) from rfl, Option.bind_some, h]
    rfl
  rw [scan, show step .gap '\'' = some (.single, .drop) from rfl, Option.bind_some,
    scan_append hstep hend]
  simp [Effect.apply]

/-- A text without single quotes, between single quotes and in front of a blank, is a word. -/
theorem scan_quoted {w : List Char} (hw : '\'' ∉ w) {cs : List Char} {ws : List (List Char)}
    (h : scan .gap cs = some ws) :
    scan .gap ('\'' :: (w ++ '\'' :: ' ' :: cs)) = some (w :: ws) :=
  scan_quoted_append hw (scan_blank h)

/-- A text without single quotes, between the last single quotes, is the last word. -/
theorem scan_quoted_last {w : List Char} (hw : '\'' ∉ w) :
    scan .gap ('\'' :: (w ++ ['\''])) = some [w] :=
  scan_quoted_append hw rfl

/-! ## What words cost -/

/-- The characters of a command that its words do not account for: by their own characters, by a
separator for each but the first, and by the single quotes that are in the command but not in
them. -/
def surplus (cs : List Char) (ws : List (List Char)) : Int :=
  cs.length + ws.flatten.count '\'' - (ws.flatten.length + (ws.length - 1 : Nat) + cs.count '\'')

theorem count_singleton_quote (c : Char) : [c].count '\'' = if c = '\'' then 1 else 0 := by
  simp [List.count_singleton]

/-- A character that is taken out is left over, unless it is a single quote. -/
theorem surplus_drop (c : Char) (cs : List Char) (ws : List (List Char)) :
    surplus (c :: cs) ws = surplus cs ws + if c = '\'' then 0 else 1 := by
  have hcount : (c :: cs).count '\'' = cs.count '\'' + if c = '\'' then 1 else 0 := by
    rw [← List.singleton_append, List.count_append, count_singleton_quote, Nat.add_comm]
  rw [surplus, surplus, hcount, List.length_cons]
  split <;> omega

/-- Characters in front of the first word have to be accounted for, unless they are single
quotes. -/
theorem surplus_prepend (cs k : List Char) (ws : List (List Char)) :
    surplus cs (prepend k ws) = surplus cs ws + k.count '\'' - k.length := by
  cases ws with
  | nil =>
    simp only [surplus, prepend, List.flatten_cons, List.flatten_nil, List.append_nil,
      List.length_cons, List.length_nil, List.count_nil]
    omega
  | cons w ws =>
    simp only [surplus, prepend, List.flatten_cons, List.append_assoc, List.count_append,
      List.length_append, List.length_cons]
    omega

/-- A character that is added to its word is accounted for. -/
theorem surplus_keep (c : Char) (cs : List Char) (ws : List (List Char)) :
    surplus (c :: cs) (prepend [c] ws) = surplus cs ws := by
  rw [surplus_drop, surplus_prepend, count_singleton_quote, List.length_singleton]
  split <;> omega

/-- The end of a word takes one separator. -/
theorem surplus_cut (cs : List Char) (ws : List (List Char)) :
    surplus cs ws ≤ surplus cs ([] :: ws) + 1 := by
  simp only [surplus, List.flatten_cons, List.nil_append, List.length_cons]
  omega

/-- What is left over where a shell stands. Words with a single quote leave something over, since
what quoted it is neither in the words nor a single quote. -/
def Balanced (cs : List Char) (ws : List (List Char)) : State → Prop
  | .gap | .plain | .single =>
    0 ≤ surplus cs ws ∧ (0 < ws.flatten.count '\'' → 0 < surplus cs ws)
  | .escaped _ => 0 ≤ surplus cs ws
  | .double => 0 < surplus cs ws
  | .doubleEscaped => 0 ≤ surplus cs ws

/-- A character other than a single quote may be added to a word outside quotes. -/
theorem Balanced.keep {c : Char} (hc : c ≠ '\'') {cs : List Char} {ws : List (List Char)}
    (h : Balanced cs ws .plain) : Balanced (c :: cs) (prepend [c] ws) .plain := by
  obtain ⟨hle, hlt⟩ := h
  have hcount : (prepend [c] ws).flatten.count '\'' = ws.flatten.count '\'' := by
    cases ws <;> simp [prepend, hc]
  rw [Balanced, surplus_keep, hcount]
  exact ⟨hle, hlt⟩

/-- A single quote that begins or ends a quoted text leaves nothing over. -/
theorem Balanced.quote {cs : List Char} {ws : List (List Char)} (h : Balanced cs ws .plain) :
    Balanced ('\'' :: cs) ws .plain := by
  rw [Balanced, surplus_drop]
  simpa [Balanced] using h

/-- Any other character that is taken out leaves something over. -/
theorem surplus_pos_of_drop {c : Char} (hc : c ≠ '\'') {cs : List Char} {ws : List (List Char)}
    (h : 0 ≤ surplus cs ws) : 0 < surplus (c :: cs) ws := by
  rw [surplus_drop, if_neg hc]
  omega

/-- If something is left over, a shell may stand outside quotes. -/
theorem Balanced.of_pos {cs : List Char} {ws : List (List Char)} (h : 0 < surplus cs ws) :
    Balanced cs ws .plain :=
  ⟨by omega, fun _ => h⟩

/-- The words account for no more characters than there are. -/
theorem Balanced.nonneg {s : State} {cs : List Char} {ws : List (List Char)}
    (h : Balanced cs ws s) : 0 ≤ surplus cs ws := by
  cases s with
  | gap => exact h.1
  | plain => exact h.1
  | single => exact h.1
  | escaped inWord => exact h
  | double =>
    have hpos : 0 < surplus cs ws := h
    omega
  | doubleEscaped => exact h

/-- A blank is no quote. -/
theorem ne_of_isBlank {c : Char} (h : isBlank c) : c ≠ '\'' := by
  rintro rfl
  exact absurd h (by decide)

/-- A step outside of quotes keeps the balance. -/
theorem balanced_outside {s' : State} {inWord : Bool} {c : Char} {e : Effect}
    (h : outside inWord c = some (s', e)) {cs : List Char} {ws : List (List Char)}
    (hb : Balanced cs ws s') : Balanced (c :: cs) (e.apply ws) .plain := by
  unfold outside at h
  split at h
  · next hsingle =>
    obtain ⟨rfl, rfl⟩ := Prod.mk.inj (Option.some.inj h)
    exact hsingle ▸ Balanced.quote hb
  next hsingle =>
  split at h
  · obtain ⟨rfl, rfl⟩ := Prod.mk.inj (Option.some.inj h)
    exact .of_pos (surplus_pos_of_drop hsingle hb.nonneg)
  split at h
  · obtain ⟨rfl, rfl⟩ := Prod.mk.inj (Option.some.inj h)
    exact .of_pos (surplus_pos_of_drop hsingle hb.nonneg)
  split at h
  · simp at h
  · obtain ⟨rfl, rfl⟩ := Prod.mk.inj (Option.some.inj h)
    exact hb.keep hsingle

/-- Each character leaves over what its place asks for. -/
theorem balanced_step {s s' : State} {c : Char} {e : Effect} (h : step s c = some (s', e))
    {cs : List Char} {ws : List (List Char)} (hb : Balanced cs ws s') :
    Balanced (c :: cs) (e.apply ws) s := by
  have hnonneg : 0 ≤ surplus cs ws := hb.nonneg
  unfold step at h
  cases s with
  | gap =>
    dsimp only at h
    split at h
    · next hblank =>
      obtain ⟨rfl, rfl⟩ := Prod.mk.inj (Option.some.inj h)
      exact .of_pos (surplus_pos_of_drop (ne_of_isBlank hblank) hnonneg)
    · exact balanced_outside h hb
  | plain =>
    dsimp only at h
    split at h
    · next hblank =>
      obtain ⟨rfl, rfl⟩ := Prod.mk.inj (Option.some.inj h)
      -- the blank is left over, and the word that ends here takes it as its separator
      have hcut := surplus_cut cs ws
      have hdrop := surplus_drop c cs ([] :: ws)
      rw [if_neg (ne_of_isBlank hblank)] at hdrop
      obtain ⟨hle, hlt⟩ : Balanced cs ws .plain := hb
      refine ⟨?_, fun hcount => ?_⟩
      · rw [Effect.apply]
        omega
      · have hpos := hlt hcount
        rw [Effect.apply]
        omega
    · exact balanced_outside h hb
  | escaped inWord =>
    dsimp only at h
    split at h
    · next hbreak =>
      obtain ⟨-, rfl⟩ := Prod.mk.inj (Option.some.inj h)
      have hne : c ≠ '\'' := by simp [hbreak]
      exact Int.le_of_lt (surplus_pos_of_drop hne hnonneg)
    · obtain ⟨rfl, rfl⟩ := Prod.mk.inj (Option.some.inj h)
      rw [Effect.apply, Balanced, surplus_keep]
      exact hnonneg
  | single =>
    dsimp only at h
    split at h
    · next hquote =>
      obtain ⟨rfl, rfl⟩ := Prod.mk.inj (Option.some.inj h)
      exact hquote ▸ Balanced.quote hb
    · next hquote =>
      obtain ⟨rfl, rfl⟩ := Prod.mk.inj (Option.some.inj h)
      exact Balanced.keep hquote hb
  | double =>
    dsimp only at h
    split at h
    -- the closing quote is what pays for single quotes between double ones
    · next hquote =>
      obtain ⟨rfl, rfl⟩ := Prod.mk.inj (Option.some.inj h)
      exact surplus_pos_of_drop (by simp [hquote]) hnonneg
    split at h
    · next hbackslash =>
      obtain ⟨rfl, rfl⟩ := Prod.mk.inj (Option.some.inj h)
      exact surplus_pos_of_drop (by simp [hbackslash]) hnonneg
    split at h
    · simp at h
    · obtain ⟨rfl, rfl⟩ := Prod.mk.inj (Option.some.inj h)
      rw [Effect.apply, Balanced, surplus_keep]
      exact hb
  | doubleEscaped =>
    dsimp only at h
    split at h
    · next hbreak =>
      obtain ⟨rfl, rfl⟩ := Prod.mk.inj (Option.some.inj h)
      have hne : c ≠ '\'' := by simp [hbreak]
      exact Int.le_of_lt (surplus_pos_of_drop hne hnonneg)
    split at h
    · obtain ⟨rfl, rfl⟩ := Prod.mk.inj (Option.some.inj h)
      rw [Effect.apply, Balanced, surplus_keep]
      exact hnonneg
    · obtain ⟨rfl, rfl⟩ := Prod.mk.inj (Option.some.inj h)
      -- the backslash was left over where it was read, but it belongs to the word
      have hpos : 0 < surplus cs ws := hb
      have hsplit : prepend ['\\', c] ws = prepend ['\\'] (prepend [c] ws) :=
        (prepend_prepend ['\\'] [c] ws).symm
      have hbackslash : surplus (c :: cs) (prepend ['\\', c] ws) = surplus cs ws - 1 := by
        rw [hsplit, surplus_prepend, surplus_keep]
        simp
      rw [Effect.apply, Balanced, hbackslash]
      omega

/-- What is left over at the end of a command is asked for at its start. -/
theorem balanced_scan {s : State} {cs : List Char} {ws : List (List Char)}
    (h : scan s cs = some ws) : Balanced cs ws s := by
  induction cs generalizing s ws with
  | nil =>
    cases s with
    | gap =>
      obtain rfl : [] = ws := Option.some.inj h
      simp [Balanced, surplus]
    | plain =>
      obtain rfl : [[]] = ws := Option.some.inj h
      simp [Balanced, surplus]
    | _ => simp [scan, State.finish] at h
  | cons c cs ih =>
    obtain ⟨⟨s', e⟩, hstep, h⟩ := Option.bind_eq_some_iff.1 h
    obtain ⟨ws', hws', rfl⟩ := Option.map_eq_some_iff.1 h
    exact balanced_step hstep (ih hws')

/-- If words account for their command, none of them has a single quote. -/
theorem not_mem_of_surplus_eq_zero {cs : List Char} {ws : List (List Char)}
    (h : scan .gap cs = some ws) (hzero : surplus cs ws = 0) : '\'' ∉ ws.flatten := by
  obtain ⟨-, hpos⟩ := balanced_scan h
  intro hmem
  have hcost := hpos (List.count_pos_iff.2 hmem)
  omega

end SearchIndex.Shell
