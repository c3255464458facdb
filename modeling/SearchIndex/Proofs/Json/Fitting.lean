import SearchIndex.Proofs.Json.Text

/-!
# Texts that fit a shape are read

`Fits` says what a shape makes of a value whose members are those of a text: which values it takes,
and which keys may not come again. It is about shapes that keep everything (`Shape.Keeps`), so what
is read is the whole value, with each name once.

The reader takes a text character by character, and `Machine.complete` is what it makes of the rest
of one. `taken_of_fits` says that a value that fits, wherever it stands and however it is written,
is taken as that value: the reader goes on as if the value had been put into its place. A number is
the one value whose end shows only in the character behind it, so what follows has to be something a
number stops at (`Stops`).
-/

namespace SearchIndex.Json

/-! ## Shapes -/

namespace Shape

/-- Nothing is passed over in a value of the shape, and no record may be written as a list. Elements
of a list are not what the whole document is. -/
inductive Keeps : Shape → Prop
  | any : Keeps .any
  | string : Keeps .string
  | boolean : Keeps .boolean
  | whole : Keeps .whole
  | nullable {inner : Shape} (h : Keeps inner) : Keeps (.nullable inner)
  | list {element : Shape} (h : Keeps element) (hclosed : ∀ root, element.resolve root = element) :
      Keeps (.list element)
  | table {entry : Shape} (h : Keeps entry) : Keeps (.object (.table entry))
  | audited {lack : List (String × Json) → Option Error} : Keeps (.object (.audited lack))
  | record {title : String} {fields : List (String × Shape)} (h : ∀ f ∈ fields, Keeps f.2) :
      Keeps (.object (.record title fields true))

/-- What the elements of a list have to be, if a list may stand here. -/
def element? : Shape → Option Shape
  | .any => some .any
  | .nullable inner => inner.element?
  | .list element => some element
  | _ => none

/-- What the members of an object have to be, if an object may stand here. -/
def members? : Shape → Option Members
  | .any => some (.table .any)
  | .nullable inner => inner.members?
  | .object members => some members
  | _ => none

namespace Keeps

/-- Where everything is kept, no value is passed over. -/
theorem isSkipped_eq {shape : Shape} (h : shape.Keeps) : shape.isSkipped = false := by
  cases h <;> rfl

/-- A reference to the whole document keeps everything if the document does. -/
theorem resolve {shape root : Shape} (h : shape.Keeps) (hroot : root.Keeps) :
    (shape.resolve root).Keeps := by
  induction h with
  | whole => exact hroot
  | nullable _ ih => exact .nullable ih
  | any => exact .any
  | string => exact .string
  | boolean => exact .boolean
  | list h hclosed => exact .list h hclosed
  | table h => exact .table h
  | audited => exact .audited
  | record h => exact .record h

/-- The elements of a list that keeps everything do so, and refer to nothing. -/
theorem element {shape element : Shape} (h : shape.Keeps)
    (helement : shape.element? = some element) :
    element.Keeps ∧ ∀ root, element.resolve root = element := by
  induction h with
  | any =>
    obtain rfl := Option.some.inj helement
    exact ⟨.any, fun _ => rfl⟩
  | nullable _ ih => exact ih helement
  | list h hclosed =>
    obtain rfl := Option.some.inj helement
    exact ⟨h, hclosed⟩
  | _ => exact nomatch helement

/-- Every member of an object that keeps everything does so. -/
theorem entry {shape : Shape} {members : Members} (h : shape.Keeps)
    (hmembers : shape.members? = some members) (key : String) : (members.entry key).Keeps := by
  induction h with
  | any =>
    obtain rfl := Option.some.inj hmembers
    exact .any
  | nullable _ ih => exact ih hmembers
  | table h =>
    obtain rfl := Option.some.inj hmembers
    exact h
  | audited =>
    obtain rfl := Option.some.inj hmembers
    exact .any
  | @record title fields h =>
    obtain rfl := Option.some.inj hmembers
    cases hget : Table.get? fields key with
    | none =>
      simp only [Members.entry, hget]
      exact .any
    | some shape =>
      simp only [Members.entry, hget]
      exact h _ (Table.mem_of_get? hget)
  | _ => exact nomatch hmembers

end Keeps

end Shape

/-- The value may stand where the shape is expected. Declared keys stand once. -/
inductive Fits (root : Shape) : Shape → Json → Prop
  | scalar {shape : Shape} {v : Json} (hadmits : shape.admits v) (hitems : v.items? = none)
      (hmembers : v.members? = none) : Fits root shape v
  | arr {shape element : Shape} {vs : List Json} (helement : shape.element? = some element)
      (hvs : ∀ v ∈ vs, Fits root element v) : Fits root shape (.arr vs)
  | obj {shape : Shape} {members : Members} {ms : List (String × Json)}
      (hmembers : shape.members? = some members)
      (honce : ((Table.names ms).filter members.declares).Nodup)
      (hlack : members.lack? (Table.ofList (collapseMembers ms)) = none)
      (hms : ∀ m ∈ ms, Fits root ((members.entry m.1).resolve root) m.2) : Fits root shape (.obj ms)

/-- Any value may stand where anything is expected. -/
theorem fits_any (root : Shape) (v : Json) : Fits root .any v := by
  induction v using value_induction with
  | h v hitems hmembers =>
  cases v with
  | arr vs => exact .arr rfl (hitems vs rfl)
  | obj ms =>
    have hdeclared : (Table.names ms).filter (Members.table .any).declares = [] :=
      List.filter_eq_nil_iff.2 fun _ _ => Bool.false_ne_true
    refine .obj rfl ?_ rfl (hmembers ms rfl)
    rw [hdeclared]
    exact List.nodup_nil
  | _ => exact .scalar rfl rfl rfl

/-! ## The rest of a text -/

/-- Blanks may stand here. -/
def Phase.AllowsBlanks : Phase → Prop
  | .value .. | .key _ | .colon | .between | .done _ => True
  | _ => False

/-- No number goes on in the text. -/
def Stops : List Char → Prop
  | [] => True
  | c :: _ => isBlank c ∨ c = ',' ∨ c = ']' ∨ c = '\x7d'

theorem stops_comma (text : List Char) : Stops (',' :: text) := Or.inr (.inl rfl)

theorem stops_bracket (text : List Char) : Stops (']' :: text) := Or.inr (.inr (.inl rfl))

theorem stops_brace (text : List Char) : Stops ('\x7d' :: text) := Or.inr (.inr (.inr rfl))

/-- A number stops before a blank, a comma or a closing bracket. -/
theorem Stops.no_numeral {c : Char} {text : List Char} (h : Stops (c :: text)) :
    Numeral.digit? c = none ∧ c ≠ '.' ∧ c ≠ 'e' ∧ c ≠ 'E' := by
  rcases h with hblank | rfl | rfl | rfl
  · simp only [isBlank, Bool.or_eq_true, beq_iff_eq] at hblank
    rcases hblank with ((rfl | rfl) | rfl) | rfl <;> decide
  all_goals decide

/-- Blanks in front of a stop are one themselves. -/
theorem Stops.blanks {bs text : List Char} (hbs : AreBlank bs) (h : Stops text) :
    Stops (bs ++ text) := by
  cases bs with
  | nil => exact h
  | cons b bs => exact .inl (hbs b List.mem_cons_self)

namespace Machine

variable {root : Shape}

/-- What is made of the rest of a text. -/
def complete (root : Shape) (m : Machine) (text : List Char) : Except Error Json :=
  (text.foldlM (step root) m).bind finish

/-- One character is taken by one step. -/
theorem complete_cons {m m' : Machine} {c : Char} {text : List Char}
    (h : step root m c = .ok m') : complete root m (c :: text) = complete root m' text := by
  rw [complete, List.foldlM_cons, h]
  rfl

/-! ## Blanks -/

/-- A blank leaves the state where blanks may stand. -/
theorem step_blank {frames : List Frame} {phase : Phase} (h : phase.AllowsBlanks) {c : Char}
    (hc : isBlank c) : step root ⟨frames, phase⟩ c = .ok ⟨frames, phase⟩ := by
  cases phase
  case value | key | colon | between | done => exact if_pos hc
  all_goals exact absurd h id

/-- Any number of blanks leaves the state where blanks may stand. -/
theorem complete_blanks {frames : List Frame} (phase : Phase) (h : phase.AllowsBlanks)
    {bs : List Char} (hbs : AreBlank bs) (text : List Char) :
    complete root ⟨frames, phase⟩ (bs ++ text) = complete root ⟨frames, phase⟩ text := by
  induction bs with
  | nil => rfl
  | cons b bs ih =>
    obtain ⟨hb, hbs⟩ := List.forall_mem_cons.1 hbs
    exact (complete_cons (step_blank h hb)).trans (ih hbs)

/-! ## Scalars -/

/-- A text in this place is taken by the strict rules: a value that is kept, or a key that is. -/
def IsStrict (frames : List Frame) : Option Shape → Prop
  | some shape => shape.isSkipped = false
  | none => looseKeys frames = false

/-- What a literal takes, the text in quotes takes wherever it stands. -/
theorem complete_takes {frames : List Frame} {place : Option Shape} (h : IsStrict frames place)
    {t t' : Literal} {cs : List Char} (htakes : t.Takes cs t') (text : List Char) :
    complete root ⟨frames, .text place t⟩ (cs ++ text) =
      complete root ⟨frames, .text place t'⟩ text := by
  induction htakes with
  | nil => rfl
  | @cons t t' t'' c cs hopen hfeed _ ih =>
    refine (complete_cons ?_).trans ih
    cases place with
    | some shape =>
      have hstrict : shape.isSkipped = false := h
      simp only [step, act, hopen, hstrict, hfeed]
      rfl
    | none =>
      have hstrict : looseKeys frames = false := h
      simp only [step, act, hopen, hstrict, hfeed]
      rfl

/-- A character that begins a value. -/
theorem step_value {frames : List Frame} {slot : Slot} {shape : Shape} {c : Char}
    (hblank : isBlank c = false) (hclose : c ≠ ']') :
    step root ⟨frames, .value slot shape⟩ c = begin frames shape c := by
  simp [step, act, hblank, hclose]

/-- A value that is admitted is put into its place. -/
theorem settle_eq {frames : List Frame} {shape : Shape} {v : Json} (h : shape.admits v) :
    settle frames shape v = .ok (deliver v frames) :=
  if_pos h

/-- A text in quotes is taken as that text. -/
theorem complete_str {frames : List Frame} {slot : Slot} {shape : Shape}
    (hkept : shape.isSkipped = false) {s : String} (hadmits : shape.admits (.str s))
    {cs : List Char} (h : Literal.Stands cs s) (text : List Char) :
    complete root ⟨frames, .value slot shape⟩ ('"' :: (cs ++ '"' :: text)) =
      complete root (deliver (.str s) frames) text := by
  obtain ⟨t, htakes, hcloses, htext⟩ := h
  have hopen : step root ⟨frames, .value slot shape⟩ '"' =
      .ok ⟨frames, .text (some shape) .empty⟩ :=
    step_value rfl (by decide)
  have hclose : step root ⟨frames, .text (some shape) t⟩ '"' = .ok (deliver (.str s) frames) := by
    simp only [step, act, hcloses, htext]
    exact settle_eq hadmits
  have hstrict : IsStrict frames (some shape) := hkept
  rw [complete_cons hopen, complete_takes hstrict htakes, complete_cons hclose]

/-- The rest of a word is taken as the value that the word stands for. -/
theorem complete_word {frames : List Frame} {shape : Shape} {v : Json} (hadmits : shape.admits v)
    {rest : List Char} (hrest : rest ≠ []) (text : List Char) :
    complete root ⟨frames, .word rest v shape⟩ (rest ++ text) =
      complete root (deliver v frames) text := by
  induction rest with
  | nil => exact absurd rfl hrest
  | cons r rest ih =>
    cases rest with
    | nil =>
      refine complete_cons (Eq.trans ?_ (settle_eq hadmits))
      exact if_pos rfl
    | cons r' rest =>
      refine (complete_cons ?_).trans (ih (List.cons_ne_nil _ _))
      exact if_pos rfl

/-- A word is taken as the value that it stands for. -/
theorem complete_begin_word {frames : List Frame} {slot : Slot} {shape : Shape} {v : Json}
    (hadmits : shape.admits v) {c : Char} {rest : List Char}
    (hbegin : begin frames shape c = .ok ⟨frames, .word rest v shape⟩) (hblank : isBlank c = false)
    (hclose : c ≠ ']') (hrest : rest ≠ []) (text : List Char) :
    complete root ⟨frames, .value slot shape⟩ (c :: rest ++ text) =
      complete root (deliver v frames) text := by
  rw [List.cons_append, complete_cons ((step_value hblank hclose).trans hbegin)]
  exact complete_word hadmits hrest text

/-- The place of a value never looks like that of a number. -/
theorem step_deliver (v : Json) (frames : List Frame) (c : Char) :
    step root (deliver v frames) c = act root (deliver v frames) c := by
  cases frames with
  | nil => rfl
  | cons f fs =>
    cases f with
    | positions pending items => cases h : pending.tail.isEmpty <;> simp [deliver, step, h]
    | _ => rfl

/-- There is nothing left to end behind a value that is in its place. -/
theorem finish_deliver (v : Json) (frames : List Frame) :
    finish (deliver v frames) = (deliver v frames).conclude := by
  cases frames with
  | nil => rfl
  | cons f fs =>
    cases f with
    | positions pending items => cases h : pending.tail.isEmpty <;> simp [deliver, finish, h]
    | _ => rfl

/-- A number with a value is settled like any other value. -/
theorem endNumeral_eq {frames : List Frame} {shape : Shape} (hkept : shape.isSkipped = false)
    {n : Numeral} {v : Number} (hvalue : n.value? = some v) :
    endNumeral frames n shape = settle frames shape (.num v) := by
  simp only [endNumeral, hkept, hvalue]
  rfl

/-- A number that is complete ends before anything that numbers stop at. -/
theorem complete_numeral {frames : List Frame} {shape : Shape} (hkept : shape.isSkipped = false)
    {stage : Numeral.Stage} {n : Numeral} {v : Number} (hstage : stage.isComplete)
    (hvalue : n.value? = some v) (hadmits : shape.admits (.num v)) {text : List Char}
    (hstops : Stops text) :
    complete root ⟨frames, .numeral stage n shape⟩ text =
      complete root (deliver (.num v) frames) text := by
  have hend : endNumeral frames n shape = .ok (deliver (.num v) frames) :=
    (endNumeral_eq hkept hvalue).trans (settle_eq hadmits)
  cases text with
  | nil =>
    have hfinish : finish ⟨frames, .numeral stage n shape⟩ =
        (deliver (.num v) frames).conclude := by
      simp only [finish, if_pos hstage, hend]
      rfl
    exact hfinish.trans (finish_deliver _ _).symm
  | cons c text =>
    -- the number ends in front of a character that does not go on with it
    have hended : n.feed stage c = .ended := by
      obtain ⟨hdigit, hpoint, hmark, hmark'⟩ := hstops.no_numeral
      cases stage
      case zero | integer | fraction | exponent =>
        simp [Numeral.feed, hdigit, hpoint, hmark, hmark']
      case sign | point | mark | markSign => cases hstage
    have hstep : step root ⟨frames, .numeral stage n shape⟩ c =
        step root (deliver (.num v) frames) c := by
      rw [step_deliver]
      simp only [step, hended, hend]
      rfl
    rw [complete, complete, List.foldlM_cons, List.foldlM_cons, hstep]

/-- The first digit of a number begins it. -/
theorem step_digit (frames : List Frame) (slot : Slot) (shape : Shape) {c : Char}
    {stage : Numeral.Stage} {n : Numeral} (h : Numeral.empty.feed .sign c = .more stage n) :
    step root ⟨frames, .value slot shape⟩ c = .ok ⟨frames, .numeral stage n shape⟩ := by
  have hdigit : c.isDigit := by
    cases hc : c.isDigit with
    | true => rfl
    | false => simp [Numeral.feed, Numeral.digit?, hc] at h
  have hne : ∀ d : Char, d.isDigit = false → c ≠ d := by
    rintro d hd rfl
    rw [hdigit] at hd
    exact absurd hd (by decide)
  have hblank : isBlank c = false := by
    simp [isBlank, hne ' ' rfl, hne '\n' rfl, hne '\t' rfl, hne '\r' rfl]
  rw [step_value hblank (hne ']' rfl)]
  simp [begin, h, hne '"' rfl, hne '[' rfl, hne '\x7b' rfl, hne 'n' rfl, hne 't' rfl, hne 'f' rfl,
    hne '-' rfl]

/-- What a numeral takes, the number takes wherever it stands. -/
theorem complete_numeral_takes {frames : List Frame} {shape : Shape} {stage stage' : Numeral.Stage}
    {n n' : Numeral} {cs : List Char} (htakes : Numeral.Takes stage n cs stage' n')
    (text : List Char) :
    complete root ⟨frames, .numeral stage n shape⟩ (cs ++ text) =
      complete root ⟨frames, .numeral stage' n' shape⟩ text := by
  induction htakes with
  | nil => rfl
  | cons hfeed _ ih =>
    refine (complete_cons ?_).trans ih
    simp only [step, hfeed]

/-- A literal of a number is taken as that number. -/
theorem complete_num {frames : List Frame} {slot : Slot} {shape : Shape}
    (hkept : shape.isSkipped = false) {v : Number} (hadmits : shape.admits (.num v))
    {negative : Bool} {cs : List Char} (h : Numeral.Stands negative cs v) {text : List Char}
    (hstops : Stops text) :
    complete root ⟨frames, .value slot shape⟩ (Numeral.signed negative cs ++ text) =
      complete root (deliver (.num v) frames) text := by
  obtain ⟨stage, n, htakes, hstage, hvalue⟩ := h
  cases negative with
  | true =>
    have hopen : step root ⟨frames, .value slot shape⟩ '-' =
        .ok ⟨frames, .numeral .sign ⟨true, [], [], none⟩ shape⟩ :=
      step_value rfl (by decide)
    have hsigned : Numeral.signed true cs = '-' :: cs := rfl
    rw [hsigned, List.cons_append, complete_cons hopen, complete_numeral_takes htakes,
      complete_numeral hkept hstage hvalue hadmits hstops]
  | false =>
    cases htakes with
    | nil => exact nomatch hstage
    | @cons _ _ _ _ _ _ c cs hfeed hrest =>
      have hsigned : Numeral.signed false (c :: cs) = c :: cs := rfl
      -- the first digit is what begins the number
      rw [hsigned, List.cons_append, complete_cons (step_digit frames slot shape hfeed),
        complete_numeral_takes hrest, complete_numeral hkept hstage hvalue hadmits hstops]

/-! ## Lists and objects -/

/-- Where a list may stand, its bracket opens one of the elements that are expected. -/
theorem openList_eq (frames : List Frame) {element : Shape} : ∀ shape : Shape,
    shape.element? = some element →
      openList frames shape = push frames (.list element []) (.value .first element)
  | .any, h | .list _, h => by
    obtain rfl := Option.some.inj h
    rfl
  | .nullable inner, h => openList_eq frames inner h
  | .skipped, h | .string, h | .boolean, h | .object _, h | .whole, h => nomatch h

/-- Where an object may stand, its bracket opens one of the members that are expected. -/
theorem openObject_eq (frames : List Frame) {members : Members} : ∀ shape : Shape,
    shape.members? = some members →
      openObject frames shape = push frames (.object members false [] "") (.key true)
  | .any, h | .object _, h => by
    obtain rfl := Option.some.inj h
    rfl
  | .nullable inner, h => openObject_eq frames inner h
  | .skipped, h | .string, h | .boolean, h | .list _, h | .whole, h => nomatch h

/-- The value, written so, is taken as that value wherever it stands. -/
def Taken (root shape : Shape) (v : Json) (cs : List Char) : Prop :=
  ∀ (frames : List Frame) (slot : Slot) (text : List Char),
    frames.length + v.depth ≤ maxDepth → Stops text →
      complete root ⟨frames, .value slot shape⟩ (cs ++ text) =
        complete root (deliver v.collapse frames) text

/-- A value with blanks around it. -/
theorem Taken.padded {shape : Shape} {v : Json} {cs : List Char} (h : Taken root shape v cs)
    {b b' : List Char} (hb : AreBlank b) (hb' : AreBlank b') (frames : List Frame) (slot : Slot)
    (text : List Char) (hdepth : frames.length + v.depth ≤ maxDepth) (hstops : Stops text) :
    complete root ⟨frames, .value slot shape⟩ (b ++ (cs ++ b') ++ text) =
      complete root (deliver v.collapse frames) (b' ++ text) := by
  rw [List.append_assoc, List.append_assoc, complete_blanks (.value slot shape) trivial hb,
    h _ _ _ hdepth (hstops.blanks hb')]

/-- The items of a list that has just been opened. -/
theorem complete_items {element : Shape} (hclosed : element.resolve root = element)
    {frames : List Frame} {vs : List Json} {cs : List Char} (h : Separated Spells vs cs)
    (htaken : ∀ v ∈ vs, ∀ cs, Spells v cs → Taken root element v cs)
    (hdepth : ∀ v ∈ vs, frames.length + 1 + v.depth ≤ maxDepth) {text : List Char}
    (hstops : Stops text) :
    complete root ⟨.list element [] :: frames, .value .first element⟩ (cs ++ text) =
      complete root ⟨.list element (collapseItems vs).reverse :: frames, .between⟩ text := by
  induction h generalizing text with
  | @one v b cs b' hb hv hb' =>
    have hv := htaken v List.mem_cons_self cs hv
    rw [hv.padded hb hb' (_ :: frames) _ _ (hdepth v List.mem_cons_self) hstops]
    exact complete_blanks .between trivial hb' text
  | @more vs front hfront v b cs b' hb hv hb' ih =>
    obtain ⟨htakens, htaken⟩ := List.forall_mem_append.1 htaken
    obtain ⟨hdepths, hdepth⟩ := List.forall_mem_append.1 hdepth
    have hv := htaken v List.mem_cons_self cs hv
    -- behind a comma the element is resolved again, which leaves it as it is
    have hcomma : step root ⟨.list element (collapseItems vs).reverse :: frames, .between⟩ ',' =
        .ok ⟨.list element (collapseItems vs).reverse :: frames, .value .next element⟩ := by
      have hstep : step root ⟨.list element (collapseItems vs).reverse :: frames, .between⟩ ',' =
          .ok ⟨.list element (collapseItems vs).reverse :: frames,
            .value .next (element.resolve root)⟩ := rfl
      rw [hstep, hclosed]
    have hitems : (collapseItems (vs ++ [v])).reverse =
        v.collapse :: (collapseItems vs).reverse := by
      simp [collapseItems_eq]
    rw [List.append_assoc, List.cons_append, ih htakens hdepths (stops_comma _),
      complete_cons hcomma,
      hv.padded hb hb' (_ :: frames) _ _ (hdepth v List.mem_cons_self) hstops, hitems]
    exact complete_blanks .between trivial hb' text

/-- One member of an object, from its name on. -/
theorem complete_named {members : Members} {name : String}
    (hkept : (members.entry name).isSkipped = false) {frames : List Frame}
    {entries : List (String × Json)} (hnew : members.declares name → name ∉ Table.names entries)
    {v : Json} {cs : List Char} (h : Named Spells (name, v) cs)
    (htaken : ∀ cs, Spells v cs → Taken root ((members.entry name).resolve root) v cs)
    (hdepth : frames.length + 1 + v.depth ≤ maxDepth) (key : String) (first : Bool)
    {text : List Char} (hstops : Stops text) :
    complete root ⟨.object members false entries key :: frames, .key first⟩ (cs ++ text) =
      complete root ⟨.object members false (Table.insert entries name v.collapse) name :: frames,
        .between⟩ text := by
  cases h with
  | @intro _ _ quoted b b' cs hkey hb hb' hv =>
    obtain ⟨t, htakes, hcloses, htext⟩ := hkey
    have hopen : step root ⟨.object members false entries key :: frames, .key first⟩ '"' =
        .ok ⟨.object members false entries key :: frames, .text none .empty⟩ := rfl
    have hclose : step root ⟨.object members false entries key :: frames, .text none t⟩ '"' =
        .ok ⟨.object members false entries name :: frames, .colon⟩ := by
      -- the name is not refused: it is not declared, or there is no entry of it yet
      have hmissing : members.declares name → Table.get? entries name = none :=
        fun hdeclares => (Table.get?_eq_none_iff entries name).2 (hnew hdeclares)
      have hkey : (members.declares name && (Table.get? entries name).isSome) = false := by
        cases hdeclares : members.declares name with
        | true => rw [hmissing hdeclares]; rfl
        | false => rfl
      simp only [step, act, hcloses, htext, endKey, hkey]
      rfl
    have hcolon : step root ⟨.object members false entries name :: frames, .colon⟩ ':' =
        .ok ⟨.object members false entries name :: frames,
          .value .plain ((members.entry name).resolve root)⟩ := rfl
    have hstrict : IsStrict (.object members false entries key :: frames) none := rfl
    simp only [List.append_assoc, List.cons_append]
    rw [complete_cons hopen, complete_takes hstrict htakes, complete_cons hclose,
      complete_blanks .colon trivial hb, complete_cons hcolon,
      complete_blanks (.value .plain ((members.entry name).resolve root)) trivial hb',
      htaken cs hv (_ :: frames) _ _ hdepth hstops]
    simp only [deliver, hkept]
    rfl

/-- The members of an object that has just been opened. -/
theorem complete_members {members : Members} (hkept : ∀ key, (members.entry key).isSkipped = false)
    {frames : List Frame} {ms : List (String × Json)} {cs : List Char}
    (h : Separated (Named Spells) ms cs)
    (honce : ((Table.names ms).filter members.declares).Nodup)
    (htaken : ∀ m ∈ ms, ∀ cs, Spells m.2 cs →
      Taken root ((members.entry m.1).resolve root) m.2 cs)
    (hdepth : ∀ m ∈ ms, frames.length + 1 + m.2.depth ≤ maxDepth) (text : List Char)
    (hstops : Stops text) :
    ∃ key, complete root ⟨.object members false [] "" :: frames, .key true⟩ (cs ++ text) =
      complete root ⟨.object members false (Table.ofList (collapseMembers ms)) key :: frames,
        .between⟩ text := by
  induction h generalizing text with
  | @one m b cs b' hb hm hb' =>
    obtain ⟨name, v⟩ := m
    have htaken := htaken (name, v) List.mem_cons_self
    have hdepth := hdepth (name, v) List.mem_cons_self
    refine ⟨name, ?_⟩
    rw [List.append_assoc, List.append_assoc, complete_blanks (.key true) trivial hb,
      complete_named (hkept name) (fun _ => List.not_mem_nil) hm htaken hdepth _ _
        (hstops.blanks hb')]
    exact complete_blanks .between trivial hb' text
  | @more ms front hfront m b cs b' hb hm hb' ih =>
    obtain ⟨name, v⟩ := m
    obtain ⟨htakens, htaken⟩ := List.forall_mem_append.1 htaken
    obtain ⟨hdepths, hdepth⟩ := List.forall_mem_append.1 hdepth
    have htaken := htaken (name, v) List.mem_cons_self
    have hdepth := hdepth (name, v) List.mem_cons_self
    -- a declared name does not come again, so it is not among the entries yet
    rw [Table.names_concat, List.filter_append, List.nodup_append] at honce
    obtain ⟨honce, -, hnew⟩ := honce
    have hnew : members.declares name →
        name ∉ Table.names (Table.ofList (collapseMembers ms)) := by
      intro hdeclares hmem
      rw [Table.names_ofList, names_collapseMembers, List.mem_eraseDups] at hmem
      exact hnew name (List.mem_filter.2 ⟨hmem, hdeclares⟩) name (by simp [hdeclares]) rfl
    obtain ⟨key, hkey⟩ := ih honce htakens hdepths (',' :: (b ++ (cs ++ b')) ++ text)
      (stops_comma _)
    have hcomma : step root ⟨.object members false (Table.ofList (collapseMembers ms)) key ::
        frames, .between⟩ ',' = .ok ⟨.object members false (Table.ofList (collapseMembers ms)) key
          :: frames, .key false⟩ := rfl
    refine ⟨name, ?_⟩
    rw [List.append_assoc, hkey, List.cons_append, complete_cons hcomma, List.append_assoc,
      List.append_assoc, complete_blanks (.key false) trivial hb,
      complete_named (hkept name) hnew hm htaken hdepth _ _ (hstops.blanks hb'),
      ofList_collapseMembers_concat]
    exact complete_blanks .between trivial hb' text

/-- A list is taken as that list if its items are. -/
theorem taken_arr {shape element : Shape} (helement : shape.element? = some element)
    (hclosed : element.resolve root = element) {vs : List Json}
    (htaken : ∀ v ∈ vs, ∀ cs, Spells v cs → Taken root element v cs) {cs : List Char}
    (h : Spells (.arr vs) cs) : Taken root shape (.arr vs) cs := by
  intro frames slot text hdepth hstops
  rw [Json.depth] at hdepth
  have hopen : step root ⟨frames, .value slot shape⟩ '[' =
      .ok ⟨.list element [] :: frames, .value .first element⟩ := by
    have hbegin : step root ⟨frames, .value slot shape⟩ '[' = openList frames shape :=
      step_value rfl (by decide)
    rw [hbegin, openList_eq frames shape helement]
    exact if_pos (by omega)
  cases h with
  | @emptyArr b hb =>
    have hclose : step root ⟨.list element [] :: frames, .value .first element⟩ ']' =
        .ok (deliver (.arr []) frames) := rfl
    rw [List.cons_append, complete_cons hopen, List.append_assoc,
      complete_blanks (.value .first element) trivial hb, List.singleton_append,
      complete_cons hclose]
    rfl
  | @arr _ cs h =>
    have hdepths : ∀ v ∈ vs, frames.length + 1 + v.depth ≤ maxDepth := by
      intro v hv
      have hle := itemsDepth_le_iff.1 (Nat.le_refl _) v hv
      omega
    have hclose : step root ⟨.list element (collapseItems vs).reverse :: frames, .between⟩ ']' =
        .ok (deliver (.arr (collapseItems vs)) frames) := by
      have hstep : step root ⟨.list element (collapseItems vs).reverse :: frames, .between⟩ ']' =
          .ok (deliver (.arr (collapseItems vs).reverse.reverse) frames) := rfl
      rw [hstep, List.reverse_reverse]
    rw [List.cons_append, complete_cons hopen, List.append_assoc, List.singleton_append,
      complete_items hclosed h htaken hdepths (stops_bracket text), complete_cons hclose]
    rfl

/-- An object is taken as that object if the values of its members are. -/
theorem taken_obj {shape : Shape} {members : Members} (hmembers : shape.members? = some members)
    (hkept : ∀ key, (members.entry key).isSkipped = false) {ms : List (String × Json)}
    (honce : ((Table.names ms).filter members.declares).Nodup)
    (hlack : members.lack? (Table.ofList (collapseMembers ms)) = none)
    (htaken : ∀ m ∈ ms, ∀ cs, Spells m.2 cs →
      Taken root ((members.entry m.1).resolve root) m.2 cs) {cs : List Char}
    (h : Spells (.obj ms) cs) : Taken root shape (.obj ms) cs := by
  intro frames slot text hdepth hstops
  rw [Json.depth] at hdepth
  have hopen : step root ⟨frames, .value slot shape⟩ '\x7b' =
      .ok ⟨.object members false [] "" :: frames, .key true⟩ := by
    have hbegin : step root ⟨frames, .value slot shape⟩ '\x7b' = openObject frames shape :=
      step_value rfl (by decide)
    rw [hbegin, openObject_eq frames shape hmembers]
    exact if_pos (by omega)
  have hclose : ∀ key, close (.object members false (Table.ofList (collapseMembers ms)) key ::
      frames) = .ok (deliver (.obj (Table.ofList (collapseMembers ms))) frames) := by
    intro key
    simp only [close, hlack]
  cases h with
  | @emptyObj b hb =>
    have hend : step root ⟨.object members false [] "" :: frames, .key true⟩ '\x7d' =
        .ok (deliver (.obj []) frames) := hclose ""
    rw [List.cons_append, complete_cons hopen, List.append_assoc,
      complete_blanks (.key true) trivial hb, List.singleton_append, complete_cons hend]
    rfl
  | @obj _ cs h =>
    have hdepths : ∀ m ∈ ms, frames.length + 1 + m.2.depth ≤ maxDepth := by
      intro m hm
      have hle := membersDepth_le_iff.1 (Nat.le_refl _) m hm
      omega
    obtain ⟨key, hkey⟩ := complete_members hkept h honce htaken hdepths ('\x7d' :: text)
      (stops_brace text)
    have hend : step root ⟨.object members false (Table.ofList (collapseMembers ms)) key :: frames,
        .between⟩ '\x7d' = .ok (deliver (.obj (Table.ofList (collapseMembers ms))) frames) :=
      hclose key
    rw [List.cons_append, complete_cons hopen, List.append_assoc, List.singleton_append, hkey,
      complete_cons hend]
    rfl

/-- A value that fits, however it is written, is taken as that value wherever it stands. -/
theorem taken_of_fits (hroot : root.Keeps) {shape : Shape} (hshape : shape.Keeps) {v : Json}
    (hfits : Fits root shape v) {cs : List Char} (h : Spells v cs) : Taken root shape v cs := by
  induction hfits generalizing cs with
  | @scalar shape v hadmits hitems hmembers =>
    intro frames slot text hdepth hstops
    cases h with
    | null | true | false =>
      exact complete_begin_word hadmits rfl rfl (by decide) (List.cons_ne_nil _ _) text
    | num h => exact complete_num hshape.isSkipped_eq hadmits h hstops
    | str h =>
      rw [List.cons_append, List.append_assoc, List.singleton_append]
      exact complete_str hshape.isSkipped_eq hadmits h text
    | emptyArr | arr => exact nomatch hitems
    | emptyObj | obj => exact nomatch hmembers
  | arr helement hvs ih =>
    obtain ⟨hkeeps, hclosed⟩ := hshape.element helement
    exact taken_arr helement (hclosed root) (fun v hv cs hspells => ih v hv hkeeps hspells) h
  | obj hmembers honce hlack hms ih =>
    have hkeeps := hshape.entry hmembers
    exact taken_obj hmembers (fun key => (hkeeps key).isSkipped_eq) honce hlack
      (fun m hm cs hspells => ih m hm ((hkeeps m.1).resolve hroot) hspells) h

end Machine

/-- A text that holds a value that fits is read, each name with its last value in its first
place. -/
theorem readAs_of_holds {root : Shape} (hroot : root.Keeps) {text : String} {v : Json}
    (h : Holds text v) (hfits : Fits root root v) : readAs root text = .ok v.collapse := by
  obtain ⟨hdepth, b, cs, b', hb, hspells, hb', htext⟩ := h
  have htaken := Machine.taken_of_fits hroot hroot hfits hspells
  have hcomplete := htaken.padded hb hb' [] .plain [] (by simpa using hdepth) trivial
  rw [List.append_nil, ← htext] at hcomplete
  exact hcomplete.trans (Machine.complete_blanks (.done v.collapse) trivial hb' [])

end SearchIndex.Json
