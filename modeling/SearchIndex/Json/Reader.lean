import SearchIndex.Json.Numeral
import SearchIndex.Json.Shape

/-!
# Reading JSON

The reader is a pushdown automaton: `Machine.step` takes one character, `readAs` folds it over a
text. The stack holds the lists and objects that are still open, the phase what may follow. What is
read is checked against a `Shape` as it comes, so of several faults the first one in the text is
told. A list or object of the wrong kind is refused at its first character, anything else at its
end.

Values that are passed over are scanned by looser rules: they may nest without limit, their numbers
have no range and their escaped surrogates need no partner.
-/

namespace SearchIndex.Json

/-- How many lists and objects may be open at once. -/
def maxDepth : Nat := 127

/-- The characters between the parts of a document. -/
def isBlank (c : Char) : Bool := c == ' ' || c == '\n' || c == '\t' || c == '\r'

/-! ## Number literals -/

namespace Numeral

/-- How far a literal has been read, named for the part read last. -/
inductive Stage where
  | sign
  | zero
  | integer
  | point
  | fraction
  | mark
  | markSign
  | exponent
deriving DecidableEq, Repr

/-- The literal may end here. -/
def Stage.isComplete : Stage → Bool
  | .zero | .integer | .fraction | .exponent => true
  | .sign | .point | .mark | .markSign => false

/-- What a character does to a literal. -/
inductive Progress where
  | more (stage : Stage) (literal : Numeral)
  | ended
  | bad

/-- The value of a decimal digit. -/
def digit? (c : Char) : Option Nat := if c.isDigit then some (c.toNat - '0'.toNat) else none

/-- The literal with one more digit in its exponent. -/
def pushExponent (n : Numeral) (d : Nat) : Numeral :=
  { n with exponent := n.exponent.map fun e => (e.1, d :: e.2) }

/-- Takes the next character of a literal. -/
def feed (n : Numeral) (stage : Stage) (c : Char) : Progress :=
  match stage, digit? c with
  | .sign, some d =>
    .more (if d = 0 then .zero else .integer) { n with integer := d :: n.integer }
  | .sign, none => .bad
  | .zero, some _ => .bad
  | .integer, some d => .more .integer { n with integer := d :: n.integer }
  | .zero, none | .integer, none =>
    if c = '.' then .more .point n
    else if c = 'e' ∨ c = 'E' then .more .mark { n with exponent := some (false, []) }
    else .ended
  | .point, some d | .fraction, some d => .more .fraction { n with fraction := d :: n.fraction }
  | .point, none => .bad
  | .fraction, none =>
    if c = 'e' ∨ c = 'E' then .more .mark { n with exponent := some (false, []) } else .ended
  | .mark, none =>
    if c = '+' then .more .markSign n
    else if c = '-' then .more .markSign { n with exponent := some (true, []) }
    else .bad
  | .mark, some d | .markSign, some d | .exponent, some d => .more .exponent (n.pushExponent d)
  | .markSign, none => .bad
  | .exponent, none => .ended

/-- A literal of which nothing has been read. -/
def empty : Numeral := ⟨false, [], [], none⟩

end Numeral

/-! ## Text literals -/

/-- How far an escape has been read. The code of a first half of a pair is kept until the second. -/
inductive Escape where
  | outside
  | backslash
  | hex (lead : Option Nat) (bytes : Nat) (value : Option Nat)
  | afterLead (lead : Nat)
  | afterLeadBackslash (lead : Nat)
deriving DecidableEq, Repr

/-- The value of a hexadecimal digit. -/
def hexDigit? (c : Char) : Option Nat :=
  if c.isDigit then some (c.toNat - '0'.toNat)
  else if 'a' ≤ c ∧ c ≤ 'f' then some (c.toNat - 'a'.toNat + 10)
  else if 'A' ≤ c ∧ c ≤ 'F' then some (c.toNat - 'A'.toNat + 10)
  else none

/-- The character that a letter behind a backslash stands for. -/
def unescaped? (c : Char) : Option Char :=
  if c = '"' ∨ c = '\\' ∨ c = '/' then some c
  else if c = 'b' then some '\x08'
  else if c = 'f' then some '\x0c'
  else if c = 'n' then some '\n'
  else if c = 'r' then some '\r'
  else if c = 't' then some '\t'
  else none

/-- The code is the first half of a pair. -/
def isLead (n : Nat) : Bool := 0xD800 ≤ n && n ≤ 0xDBFF

/-- The code is the second half of a pair. -/
def isTrail (n : Nat) : Bool := 0xDC00 ≤ n && n ≤ 0xDFFF

/-- A text literal in progress: the characters read, last first, and the escape. -/
structure Literal where
  read : List Char
  escape : Escape
deriving DecidableEq, Repr

namespace Literal

/-- A literal of which only the quote has been read. -/
def empty : Literal := ⟨[], .outside⟩

/-- Ends an escape with a character. -/
def push (t : Literal) (c : Char) : Literal := ⟨c :: t.read, .outside⟩

/-- Ends four hexadecimal digits. Halves of pairs have to meet unless the text is passed over. -/
def endHex (t : Literal) (loose : Bool) (lead : Option Nat) (code : Nat) : Except Error Literal :=
  if loose then .ok { t with escape := .outside }
  else
    match lead with
    | none =>
      if isTrail code then .error .loneSurrogate
      else if isLead code then .ok { t with escape := .afterLead code }
      else .ok (t.push (Char.ofNat code))
    | some lead =>
      if isTrail code then
        .ok (t.push (Char.ofNat (0x10000 + (lead - 0xD800) * 0x400 + (code - 0xDC00))))
      else .error .loneSurrogate

/-- Takes a character other than the closing quote. Four bytes are taken as the hexadecimal digits
of a code before they are looked at. -/
def feed (t : Literal) (loose : Bool) (c : Char) : Except Error Literal :=
  match t.escape with
  | .outside =>
    if c = '\\' then .ok { t with escape := .backslash }
    else if c.toNat < 0x20 then .error .controlCharacter
    else .ok (t.push c)
  | .backslash =>
    if c = 'u' then .ok { t with escape := .hex none 0 (some 0) }
    else
      match unescaped? c with
      | some d => .ok (t.push d)
      | none => .error .badEscape
  | .hex lead bytes value =>
    let bytes := bytes + c.utf8Size
    let value := value.bind fun n => (hexDigit? c).map fun d => 16 * n + d
    if bytes < 4 then .ok { t with escape := .hex lead bytes value }
    else
      match value with
      | some code => t.endHex loose lead code
      | none => .error .badEscape
  | .afterLead lead =>
    if c = '\\' then .ok { t with escape := .afterLeadBackslash lead } else .error .unpairedEscape
  | .afterLeadBackslash lead =>
    if c = 'u' then .ok { t with escape := .hex (some lead) 0 (some 0) }
    else .error .unpairedEscape

/-- The quote at hand closes the literal. -/
def closes (t : Literal) (c : Char) : Bool := t.escape == .outside && c == '"'

/-- The text read. -/
def text (t : Literal) : String := String.ofList t.read.reverse

end Literal

/-! ## The automaton -/

/-- A list or object that is still open. Items stand last first. -/
inductive Frame where
  /-- A list of alike elements. -/
  | list (element : Shape) (items : List Json)
  /-- A record written as a list; `pending` are the shapes of the fields still to come. -/
  | positions (pending : List Shape) (items : List Json)
  /-- An object and the key read last. -/
  | object (members : Members) (loose : Bool) (entries : List (String × Json)) (key : String)

/-- What else may stand in the place of a value: nothing, the end of the list, or the end of the
list behind a comma, which is refused. -/
inductive Slot where
  | plain
  | first
  | next
deriving DecidableEq, Repr

/-- What may follow. -/
inductive Phase where
  /-- A value. -/
  | value (slot : Slot) (shape : Shape)
  /-- A key; behind a comma it is not the first. -/
  | key (first : Bool)
  /-- The colon behind a key. -/
  | colon
  /-- A comma or the end of the innermost list or object. -/
  | between
  /-- The rest of a word. -/
  | word (rest : List Char) (value : Json) (shape : Shape)
  /-- The rest of a number. -/
  | numeral (stage : Numeral.Stage) (literal : Numeral) (shape : Shape)
  /-- The rest of a text, which is a key if it has no shape. -/
  | text (shape : Option Shape) (literal : Literal)
  /-- The end of a record written as a list, all its fields being read. -/
  | lastField
  /-- The same behind a comma, which is refused. -/
  | lastComma
  /-- Nothing but blanks. -/
  | done (value : Json)

/-- The state of the reader. -/
structure Machine where
  frames : List Frame
  phase : Phase

/-- The shape is passed over. -/
def Shape.isSkipped : Shape → Bool
  | .skipped => true
  | _ => false

/-- The shape with the whole document's in place of `whole`. -/
def Shape.resolve : Shape → (root : Shape) → Shape
  | .whole, root => root
  | .nullable inner, root => .nullable (inner.resolve root)
  | s, _ => s

/-- What an object that is closed lacks. -/
def Members.lack? : Members → List (String × Json) → Option Error
  | .audited lack, entries => lack entries
  | _, _ => none

namespace Machine

/-- Before the first character. -/
def start (root : Shape) : Machine := ⟨[], .value .plain root⟩

/-- The keys of the innermost object are passed over. -/
def looseKeys : List Frame → Bool
  | .object _ loose _ _ :: _ => loose
  | _ => false

/-- Puts a complete value into its place. -/
def deliver (v : Json) : List Frame → Machine
  | [] => ⟨[], .done v⟩
  | .list element items :: fs => ⟨.list element (v :: items) :: fs, .between⟩
  | .positions pending items :: fs =>
    ⟨.positions pending.tail (v :: items) :: fs,
      if pending.tail.isEmpty then .lastField else .between⟩
  | .object members loose entries key :: fs =>
    let entries := if (members.entry key).isSkipped then entries else Table.insert entries key v
    ⟨.object members loose entries key :: fs, .between⟩

/-- Ends the innermost list or object. -/
def close : List Frame → Except Error Machine
  | [] => .error .noValue
  | .list _ items :: fs | .positions _ items :: fs => .ok (deliver (.arr items.reverse) fs)
  | .object members _ entries _ :: fs =>
    match members.lack? entries with
    | some e => .error e
    | none => .ok (deliver (.obj entries) fs)

/-- Ends a value that is neither list nor object. -/
def settle (frames : List Frame) (shape : Shape) (v : Json) : Except Error Machine :=
  if shape.admits v then .ok (deliver v frames) else .error (shape.refuse v)

/-- Opens one more list or object. -/
def push (frames : List Frame) (frame : Frame) (phase : Phase) : Except Error Machine :=
  if frames.length < maxDepth then .ok ⟨frame :: frames, phase⟩ else .error .tooDeep

/-- Begins a list. -/
def openList (frames : List Frame) : Shape → Except Error Machine
  | .any => push frames (.list .any []) (.value .first .any)
  | .skipped => .ok ⟨.list .skipped [] :: frames, .value .first .skipped⟩
  | .nullable inner => openList frames inner
  | .list element => push frames (.list element []) (.value .first element)
  | .object (.record title fields extensible) =>
    match extensible, fields.map Prod.snd with
    | false, shape :: rest => push frames (.positions (shape :: rest) []) (.value .first shape)
    | _, _ => .error ((Shape.object (.record title fields extensible)).refuse (.arr []))
  | s => .error (s.refuse (.arr []))

/-- Begins an object. -/
def openObject (frames : List Frame) : Shape → Except Error Machine
  | .any => push frames (.object (.table .any) false [] "") (.key true)
  | .skipped => .ok ⟨.object (.table .skipped) true [] "" :: frames, .key true⟩
  | .nullable inner => openObject frames inner
  | .object members => push frames (.object members false [] "") (.key true)
  | s => .error (s.refuse (.obj []))

/-- Takes the first character of a value. -/
def begin (frames : List Frame) (shape : Shape) (c : Char) : Except Error Machine :=
  if c = '"' then .ok ⟨frames, .text (some shape) .empty⟩
  else if c = '[' then openList frames shape
  else if c = '\x7b' then openObject frames shape
  else if c = 'n' then .ok ⟨frames, .word ['u', 'l', 'l'] .null shape⟩
  else if c = 't' then .ok ⟨frames, .word ['r', 'u', 'e'] (.bool true) shape⟩
  else if c = 'f' then .ok ⟨frames, .word ['a', 'l', 's', 'e'] (.bool false) shape⟩
  else if c = '-' then .ok ⟨frames, .numeral .sign { Numeral.empty with negative := true } shape⟩
  else
    match Numeral.empty.feed .sign c with
    | .more stage n => .ok ⟨frames, .numeral stage n shape⟩
    | _ => .error .noValue

/-- Ends a number. -/
def endNumeral (frames : List Frame) (n : Numeral) (shape : Shape) : Except Error Machine :=
  if shape.isSkipped then .ok (deliver .null frames)
  else
    match n.value? with
    | some v => settle frames shape (.num v)
    | none => .error .numberOutOfRange

/-- Ends a key: a declared one may stand once. -/
def endKey (key : String) : List Frame → Except Error Machine
  | .object members loose entries _ :: fs =>
    if members.declares key && (Table.get? entries key).isSome then
      .error (.duplicateField key)
    else .ok ⟨.object members loose entries key :: fs, .colon⟩
  | _ => .error .noValue

/-- Takes a character behind a complete value. -/
def continueOpen (root : Shape) (c : Char) : List Frame → Except Error Machine
  | [] => .error .trailingCharacters
  | .list element items :: fs =>
    if c = ',' then .ok ⟨.list element items :: fs, .value .next (element.resolve root)⟩
    else if c = ']' then close (.list element items :: fs)
    else .error .noListSeparator
  | .positions pending items :: fs =>
    if c = ',' then
      .ok ⟨.positions pending items :: fs, .value .next ((pending.headD .skipped).resolve root)⟩
    else if c = ']' then close (.positions pending items :: fs)
    else .error .noListSeparator
  | .object members loose entries key :: fs =>
    if c = ',' then .ok ⟨.object members loose entries key :: fs, .key false⟩
    else if c = '\x7d' then close (.object members loose entries key :: fs)
    else .error .noObjectSeparator

/-- The shape of the value behind the key read last. -/
def valueShape (root : Shape) : List Frame → Shape
  | .object members _ _ key :: _ => (members.entry key).resolve root
  | _ => .any

/-- Takes a character that no number can hold on to. -/
def act (root : Shape) (m : Machine) (c : Char) : Except Error Machine :=
  match m.phase with
  | .value slot shape =>
    if isBlank c then .ok m
    else if c = ']' ∧ slot = .first then close m.frames
    else if c = ']' ∧ slot = .next ∧ !shape.isSkipped then .error .trailingComma
    else begin m.frames shape c
  | .key first =>
    if isBlank c then .ok m
    else if c = '"' then .ok ⟨m.frames, .text none .empty⟩
    else if c = '\x7d' ∧ first then close m.frames
    else if c = '\x7d' ∧ !looseKeys m.frames then .error .trailingComma
    else .error .keyNotString
  | .colon =>
    if isBlank c then .ok m
    else if c = ':' then .ok ⟨m.frames, .value .plain (valueShape root m.frames)⟩
    else .error .noColon
  | .between => if isBlank c then .ok m else continueOpen root c m.frames
  | .word rest v shape =>
    match rest with
    | [] => .error .badWord
    | [r] => if c = r then settle m.frames shape v else .error .badWord
    | r :: rest => if c = r then .ok ⟨m.frames, .word rest v shape⟩ else .error .badWord
  | .numeral .. => .error .badNumber
  | .text (some shape) t =>
    if t.closes c then settle m.frames shape (.str t.text)
    else (t.feed shape.isSkipped c).map fun t => ⟨m.frames, .text (some shape) t⟩
  | .text none t =>
    if t.closes c then endKey t.text m.frames
    else (t.feed (looseKeys m.frames) c).map fun t => ⟨m.frames, .text none t⟩
  | .lastField =>
    if isBlank c then .ok m
    else if c = ']' then close m.frames
    else if c = ',' then .ok ⟨m.frames, .lastComma⟩
    else .error .trailingCharacters
  | .lastComma =>
    if isBlank c then .ok m
    else if c = ']' then .error .trailingComma
    else .error .trailingCharacters
  | .done _ => if isBlank c then .ok m else .error .trailingCharacters

/-- Takes one character. A number ends before the first character that is no part of it. -/
def step (root : Shape) (m : Machine) (c : Char) : Except Error Machine :=
  match m.phase with
  | .numeral stage n shape =>
    match n.feed stage c with
    | .more stage n => .ok ⟨m.frames, .numeral stage n shape⟩
    | .ended => (endNumeral m.frames n shape).bind fun m => act root m c
    | .bad => .error .badNumber
  | _ => act root m c

/-- The value of a text that ends here, or what is missing. -/
def conclude (m : Machine) : Except Error Json :=
  match m.phase with
  | .value .first _ => .error .endInList
  | .value _ _ => .error .endInValue
  | .key first => .error (if first || looseKeys m.frames then .endInObject else .endInValue)
  | .colon => .error .endInObject
  | .between =>
    match m.frames with
    | .object .. :: _ => .error .endInObject
    | _ => .error .endInList
  | .word .. => .error .endInValue
  | .numeral .. => .error .badNumber
  | .text .. => .error .endInString
  | .lastField => .error .endInList
  | .lastComma => .error .trailingCharacters
  | .done v => .ok v

/-- Ends the text. A number that is complete ends with it. -/
def finish (m : Machine) : Except Error Json :=
  match m.phase with
  | .numeral stage n shape =>
    if stage.isComplete then (endNumeral m.frames n shape).bind conclude
    else .error (if shape.isSkipped then .badNumber else .endInValue)
  | _ => m.conclude

end Machine

/-- Reads a document of a shape. -/
def readAs (shape : Shape) (text : String) : Except Error Json :=
  (text.toList.foldlM (Machine.step shape) (Machine.start shape)).bind Machine.finish

/-- Reads a document of any shape. -/
def read (text : String) : Except Error Json := readAs .any text

end SearchIndex.Json
