import SearchIndex.Toml.Scalar

/-!
# Reading TOML

A scanner takes a part off the front of a text. Values nest and repeat, so the scanners of values
are bounded by the length of the text. Inline tables may be broken over lines and end with a comma,
as version 1.1 of the format has it. Numbers may be of any size, but values nest and keys reach only
so deep.
-/

namespace SearchIndex.Toml

/-- Takes a part off the front of a text, or fails. -/
abbrev Scan (α : Type) := StateT (List Char) Option α

namespace Scan

/-- The characters ahead. -/
def ahead : Scan (List Char) := get

/-- Takes the next character. -/
def next : Scan Char := do
  match ← get with
  | c :: rest =>
    set rest
    return c
  | [] => failure

/-- Takes given characters if they are next. -/
def accept (cs : List Char) : Scan Bool := do
  let text ← get
  if cs.isPrefixOf text then
    set (text.drop cs.length)
    return true
  else return false

/-- Takes given characters. -/
def expect (cs : List Char) : Scan Unit := do
  if !(← accept cs) then failure

/-- Takes the characters of a class. -/
def takeWhile (p : Char → Bool) : Scan (List Char) := do
  let text ← get
  set (text.dropWhile p)
  return text.takeWhile p

/-- A space or a tab. -/
def isBlank (c : Char) : Bool := c == ' ' || c == '\t'

/-- A character that may stand in a comment or a quoted text. -/
def isPlain (c : Char) : Bool := c == '\t' || (0x20 ≤ c.toNat && c.toNat != 0x7F)

/-- Passes over blanks. -/
def blanks : Scan Unit := do
  let _ ← takeWhile isBlank

/-- Passes over a comment. -/
def comment : Scan Unit := do
  if ← accept ['#'] then
    let _ ← takeWhile isPlain

/-- Takes the end of a line if it is next. -/
def lineEnd : Scan Bool := do
  if ← accept ['\n'] then return true else accept ['\r', '\n']

/-- Passes over blanks, comments and line ends. -/
def layout : Nat → Scan Unit
  | 0 => return
  | n + 1 => do
    blanks
    comment
    if ← lineEnd then layout n

/-- Takes digits of base sixteen as the code of a character. -/
def code (count : Nat) : Scan Char := do
  let text ← get
  match (text.take count).mapM (digit? 16) with
  | some ds =>
    let n := ofDigits 16 ds
    if ds.length = count ∧ n.isValidChar then
      set (text.drop count)
      return Char.ofNat n
    else failure
  | none => failure

/-- Takes what follows a backslash. -/
def escape : Scan Char := do
  match ← next with
  | 'b' => return '\x08'
  | 't' => return '\t'
  | 'n' => return '\n'
  | 'f' => return '\x0c'
  | 'r' => return '\r'
  | 'e' => return '\x1b'
  | '"' => return '"'
  | '\\' => return '\\'
  | 'x' => code 2
  | 'u' => code 4
  | 'U' => code 8
  | _ => failure

/-- Takes a text up to a double quote. -/
def basic : Nat → List Char → Scan String
  | 0, _ => failure
  | n + 1, read => do
    let c ← next
    if c = '"' then return String.ofList read.reverse
    else if c = '\\' then basic n ((← escape) :: read)
    else if isPlain c then basic n (c :: read)
    else failure

/-- Passes over the blanks and line ends behind a backslash that ends a line. -/
def continuation (n : Nat) : Scan Bool := do
  let text ← get
  blanks
  if ← lineEnd then
    let rec skip : Nat → Scan Unit
      | 0 => return
      | n + 1 => do
        blanks
        if ← lineEnd then skip n
    skip n
    return true
  else
    set text
    return false

/-- Takes a text up to three quotes; of five quotes the first two are part of it. -/
def long (quote : Char) (escapes : Bool) : Nat → List Char → Scan String
  | 0, _ => failure
  | n + 1, read => do
    if ← accept (List.replicate 5 quote) then
      return String.ofList (quote :: quote :: read).reverse
    else if ← accept (List.replicate 4 quote) then return String.ofList (quote :: read).reverse
    else if ← accept (List.replicate 3 quote) then return String.ofList read.reverse
    else if ← accept ['\r', '\n'] then long quote escapes n ('\n' :: '\r' :: read)
    else
      let c ← next
      if c = '\\' ∧ escapes then
        if ← continuation n then long quote escapes n read
        else long quote escapes n ((← escape) :: read)
      else if isPlain c ∨ c = '\n' then long quote escapes n (c :: read)
      else failure

/-- Takes a text up to a single quote. -/
def literal : Scan String := do
  let cs ← takeWhile fun c => isPlain c && c != '\''
  expect ['\'']
  return String.ofList cs

/-- Takes a text in one pair of quotes, the first of which is gone. -/
def shortText (quote : Char) (n : Nat) : Scan String :=
  if quote = '"' then basic n [] else literal

/-- Takes a text in quotes, single or triple, if a quote is next. -/
def text? (n : Nat) : Scan (Option String) := do
  for quote in ['"', '\''] do
    if ← accept (List.replicate 3 quote) then
      let _ ← lineEnd
      return some (← long quote (quote = '"') n [])
    if ← accept [quote] then return some (← shortText quote n)
  return none

/-- A character of a key without quotes. -/
def isBare (c : Char) : Bool :=
  ('a' ≤ c && c ≤ 'z') || ('A' ≤ c && c ≤ 'Z') || c.isDigit || c == '_' || c == '-'

/-- Takes one part of a key. -/
def keyPart (n : Nat) : Scan String := do
  if ← accept ['"'] then basic n []
  else if ← accept ['\''] then literal
  else
    let cs ← takeWhile isBare
    if cs.isEmpty then failure else return String.ofList cs

/-- Takes the parts of a key, which are joined by points. -/
def keyParts : Nat → Scan Path
  | 0 => failure
  | n + 1 => do
    let part ← keyPart n
    blanks
    if ← accept ['.'] then
      blanks
      return part :: (← keyParts n)
    else return [part]

/-- How deep values nest, and how many parts a key has, at most. -/
def depthLimit : Nat := 80

/-- Takes a key. -/
def key (n : Nat) : Scan Path := do
  let path ← keyParts n
  if path.length ≤ depthLimit then return path else failure

/-- A character of a value without quotes: it neither divides values nor ends a line. -/
def isScalar (c : Char) : Bool :=
  !(['=', ',', '[', ']', '\x7b', '\x7d', '#', '\r', '\n'].contains c || isBlank c)

/-- A character behind blanks with which a value without quotes goes on. -/
def isContinuing (c : Char) : Bool := isScalar c && c != '.' && c != '"' && c != '\''

/-- Takes the text of a value without quotes, with the blanks in it. -/
def scalarText : Nat → Scan (List Char)
  | 0 => failure
  | n + 1 => do
    let word ← takeWhile isScalar
    let text ← ahead
    if text.head?.any isBlank && (text.dropWhile isBlank).head?.any isContinuing then
      let gap ← takeWhile isBlank
      return word ++ gap ++ (← scalarText n)
    else return word

/-- Takes a value without quotes. -/
def scalar (n : Nat) : Scan Value := do
  match scalar? (← scalarText n) with
  | some v => return v
  | none => failure

mutual

/-- Takes a value that may nest `depth` deep. -/
def value (depth : Nat) : Nat → Scan Value
  | 0 => failure
  | n + 1 => do
    if ← accept ['['] then
      if depth = 0 then failure else return .array false (← elements (depth - 1) n)
    else if ← accept ['\x7b'] then
      if depth = 0 then failure else return .table .inline (← members (depth - 1) n [])
    else
      match ← text? n with
      | some s => return .string s
      | none => scalar n

/-- Takes the elements of an array and its end. -/
def elements (depth : Nat) : Nat → Scan (List Value)
  | 0 => failure
  | n + 1 => do
    layout n
    if ← accept [']'] then return []
    let v ← value depth n
    layout n
    if ← accept [','] then return v :: (← elements depth n)
    expect [']']
    return [v]

/-- Takes the members of an inline table and its end. -/
def members (depth : Nat) : Nat → Entries → Scan Entries
  | 0, _ => failure
  | n + 1, entries => do
    layout n
    if ← accept ['\x7d'] then return entries
    let path ← key n
    layout n
    expect ['=']
    layout n
    let v ← value depth n
    match assign path v entries with
    | none => failure
    | some entries =>
      layout n
      if ← accept [','] then members depth n entries
      else
        expect ['\x7d']
        return entries

end

/-- Takes a blank end of a line: perhaps a comment, then the line end or the end of the text. -/
def endOfLine : Scan Unit := do
  blanks
  comment
  if !(← lineEnd) && !(← ahead).isEmpty then failure

/-- Takes a header; the table it opens and what it adds. -/
def header (n : Nat) : Scan (Path × (String → Entries → Option Entries)) := do
  if ← accept ['[', '['] then
    blanks
    let path ← key n
    expect [']', ']']
    return (path, addElement)
  else
    expect ['[']
    blanks
    let path ← key n
    expect [']']
    return (path, addTable)

/-- Takes the lines of a document; `current` is the path of the last header. -/
def lines : Nat → Path → Entries → Scan Entries
  | 0, _, entries => return entries
  | n + 1, current, root => do
    layout n
    match ← ahead with
    | [] => return root
    | '[' :: _ =>
      let (path, add) ← header n
      endOfLine
      match path.getLast?.bind fun k => update false (add k) path.dropLast root with
      | some root => lines n path root
      | none => failure
    | _ =>
      let path ← key n
      expect ['=']
      blanks
      let v ← value depthLimit n
      endOfLine
      match update false (assign path v) current root with
      | some root => lines n current root
      | none => failure

end Scan

/-- Reads a document; a byte order mark before it is passed over. -/
def read (text : String) : Option Entries :=
  let cs :=
    match text.toList with
    | '\ufeff' :: cs => cs
    | cs => cs
  match (Scan.lines (cs.length + 1) [] []).run cs with
  | some (root, []) => some root
  | _ => none

end SearchIndex.Toml
