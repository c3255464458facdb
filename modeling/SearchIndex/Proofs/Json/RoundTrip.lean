import SearchIndex.Proofs.Json.Fitting

/-!
# Written documents are read back

What is written for a value is one of the ways to spell it (`spells_write`): the breaks of a layout
are blank, texts are escaped, and the digits of a number are those of its literal. So the text of a
document holds the document, and is read as it if no name stands twice (`read_write`). This holds of
both layouts, and of every other one whose breaks are blank.
-/

namespace SearchIndex.Json

/-- The layout puts only blanks between the parts of a document. -/
structure Layout.IsBlank (l : Layout) : Prop where
  lineBreak : ∀ depth, AreBlank (l.lineBreak depth)
  gap : AreBlank l.gap

/-- Nothing stands between the parts of a compact document. -/
theorem isBlank_compact : Layout.IsBlank .compact :=
  ⟨fun _ => areBlank_nil, areBlank_nil⟩

/-- Line breaks and spaces stand between the parts of an indented document. -/
theorem isBlank_indented (width : Nat) : Layout.IsBlank (.indented width) := by
  constructor
  · intro depth c hc
    simp only [Layout.indented, List.mem_cons, List.mem_replicate] at hc
    rcases hc with rfl | ⟨-, rfl⟩ <;> rfl
  · exact areBlank_singleton rfl

/-! ## Scalars -/

/-- A quoted text spells the text. -/
theorem spells_quoted (s : String) : Spells (.str s) (quoted s) :=
  .str (Literal.stands_flatMap_escaped s)

/-- The digits of an integer of a word are a literal of it. -/
theorem spells_number {n : Number} (h : n.IsWord) : Spells (.num n) n.text := by
  cases n with
  | double x => exact absurd h id
  | integer value =>
    obtain ⟨hlow, hhigh⟩ := h
    by_cases hnegative : value < 0
    · obtain ⟨stage, n, hstage, htakes, hspells⟩ := Numeral.takes_natural true value.natAbs
      have hword : Numeral.greatestNegated ≤ Numeral.greatestWord := by decide
      have hvalue := hspells.value?_eq (by omega) fun _ => ⟨by omega, by omega⟩
      rw [if_pos rfl, Int.ofNat_natAbs_of_nonpos (by omega), Int.neg_neg] at hvalue
      rw [Number.text, if_pos hnegative]
      exact .num ⟨stage, n, htakes, hstage, hvalue⟩
    · obtain ⟨stage, n, hstage, htakes, hspells⟩ := Numeral.takes_natural false value.natAbs
      have hvalue := hspells.value?_eq (by omega) (by simp)
      rw [if_neg (by simp), Int.natAbs_of_nonneg (by omega)] at hvalue
      rw [Number.text, if_neg hnegative]
      exact .num ⟨stage, n, htakes, hstage, hvalue⟩

/-! ## Lists and objects -/

section Layout

variable {l : Layout} (hl : l.IsBlank)
include hl

/-- The items that are written behind others. -/
theorem separated_writeItems (depth : Nat) {vs : List Json}
    (h : ∀ v ∈ vs, ∀ depth, Spells v (write l depth v)) {us : List Json} {front : List Char}
    (hfront : Separated Spells us front) :
    Separated Spells (us ++ vs) (front ++ writeItems l depth vs) := by
  induction vs generalizing us front with
  | nil => rwa [List.append_nil, writeItems, List.append_nil]
  | cons v vs ih =>
    obtain ⟨hv, hvs⟩ := List.forall_mem_cons.1 h
    have hitem := hfront.more (hl.lineBreak (depth + 1)) (hv (depth + 1)) areBlank_nil
    have hrest := ih hvs hitem
    rw [← List.append_cons] at hrest
    simpa [writeItems] using hrest

/-- A member that is written. -/
theorem named_write (name : String) {v : Json} {depth : Nat} (h : Spells v (write l depth v)) :
    Named Spells (name, v) (quoted name ++ ':' :: (l.gap ++ write l depth v)) := by
  have hnamed := Named.intro (Literal.stands_flatMap_escaped name) areBlank_nil hl.gap h
  simpa [quoted] using hnamed

/-- The members that are written behind others. -/
theorem separated_writeMembers (depth : Nat) {ms : List (String × Json)}
    (h : ∀ m ∈ ms, ∀ depth, Spells m.2 (write l depth m.2)) {us : List (String × Json)}
    {front : List Char} (hfront : Separated (Named Spells) us front) :
    Separated (Named Spells) (us ++ ms) (front ++ writeMembers l depth ms) := by
  induction ms generalizing us front with
  | nil => rwa [List.append_nil, writeMembers, List.append_nil]
  | cons m ms ih =>
    obtain ⟨name, v⟩ := m
    obtain ⟨hv, hms⟩ := List.forall_mem_cons.1 h
    have hmember := hfront.more (hl.lineBreak (depth + 1)) (named_write hl name (hv (depth + 1)))
      areBlank_nil
    have hrest := ih hms hmember
    rw [← List.append_cons] at hrest
    simpa [writeMembers] using hrest

/-- What is written for a value spells it. -/
theorem spells_write {v : Json} (h : v.Integral) (depth : Nat) : Spells v (write l depth v) := by
  induction v using value_induction generalizing depth with
  | h v hitems hmembers =>
  cases v with
  | null => exact .null
  | bool b =>
    cases b with
    | true => exact .true
    | false => exact .false
  | num n => exact spells_number (h.own n rfl)
  | str s => exact spells_quoted s
  | arr vs =>
    -- the first item follows the bracket, each further one a comma
    have hvs := fun v hv => hitems vs rfl v hv (h.items v hv)
    cases vs with
    | nil => exact .emptyArr areBlank_nil
    | cons v vs =>
      obtain ⟨hv, hvs⟩ := List.forall_mem_cons.1 hvs
      have hfirst := Separated.one (hl.lineBreak (depth + 1)) (hv (depth + 1)) areBlank_nil
      have hlist := (separated_writeItems hl depth hvs hfirst).blanks (hl.lineBreak depth)
      simpa [write] using Spells.arr hlist
  | obj ms =>
    have hms := fun m hm => hmembers ms rfl m hm (h.members m hm)
    cases ms with
    | nil => exact .emptyObj areBlank_nil
    | cons m ms =>
      obtain ⟨name, v⟩ := m
      obtain ⟨hv, hms⟩ := List.forall_mem_cons.1 hms
      have hfirst := Separated.one (hl.lineBreak (depth + 1)) (named_write hl name (hv (depth + 1)))
        areBlank_nil
      have hobject := (separated_writeMembers hl depth hms hfirst).blanks (hl.lineBreak depth)
      simpa [write] using Spells.obj hobject

end Layout

/-- A document that is written is read back: the same names in the same order, the same texts and
the same integers. -/
theorem read_write {l : Layout} (hl : l.IsBlank) {v : Json} (hdistinct : v.Distinct)
    (hintegral : v.Integral) (hdepth : v.depth ≤ maxDepth) (depth : Nat) :
    read (String.ofList (write l depth v)) = .ok v := by
  have hholds : Holds (String.ofList (write l depth v)) v := by
    refine ⟨hdepth, [], write l depth v, [], areBlank_nil, spells_write hl hintegral depth,
      areBlank_nil, ?_⟩
    rw [String.toList_ofList, List.append_nil, List.nil_append]
  rw [read, readAs_of_holds .any hholds (fits_any .any v), collapse_of_distinct hdistinct]

/-- Both texts of a document are read as the document. -/
theorem read_texts {v : Json} (hdistinct : v.Distinct) (hintegral : v.Integral)
    (hdepth : v.depth ≤ maxDepth) : read v.compact = .ok v ∧ read v.pretty = .ok v :=
  ⟨read_write isBlank_compact hdistinct hintegral hdepth 0,
    read_write (isBlank_indented 4) hdistinct hintegral hdepth 0⟩

end SearchIndex.Json
