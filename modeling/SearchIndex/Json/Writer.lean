import SearchIndex.Json.Basic
import SearchIndex.Decimal.Shortest

/-!
# Writing JSON

One writer serves both layouts. A `Layout` says what stands before an element and behind a colon;
the elements themselves are written the same way. Empty lists and objects are written without a
break.
-/

namespace SearchIndex

/-- Doubles have at least one place; from `10 ^ -5` to below `10 ^ 16` the point stands in its
place, and outside an exponent with a sign follows the first digit. -/
def Double.text (x : Double) : List Char :=
  let unsigned :=
    if x.magnitude.isPositive then
      let d := x.magnitude.shortest
      let digits := Nat.toDigits 10 d.digits
      let leading : Int := digits.length + d.power
      if 0 ≤ d.power ∧ leading ≤ 16 then
        digits ++ List.replicate d.power.toNat '0' ++ ['.', '0']
      else if 0 < leading ∧ leading ≤ 16 then
        digits.take leading.toNat ++ '.' :: digits.drop leading.toNat
      else if -5 < leading ∧ leading ≤ 0 then
        '0' :: '.' :: List.replicate (-leading).toNat '0' ++ digits
      else
        let exponent := leading - 1
        let point := if digits.length = 1 then [] else '.' :: digits.drop 1
        digits.take 1 ++ point ++
          'e' :: (if exponent < 0 then '-' else '+') :: Nat.toDigits 10 exponent.natAbs
    else ['0', '.', '0']
  if x.negative then '-' :: unsigned else unsigned

namespace Json

/-- A number as written. -/
def Number.text : Number → List Char
  | .integer value =>
    if value < 0 then '-' :: Nat.toDigits 10 value.natAbs else Nat.toDigits 10 value.natAbs
  | .double value => value.text

/-- A character inside quotes: quote, backslash and the controls below a space are escaped. -/
def escaped (c : Char) : List Char :=
  if c = '"' then ['\\', '"']
  else if c = '\\' then ['\\', '\\']
  else if c = '\x08' then ['\\', 'b']
  else if c = '\x0c' then ['\\', 'f']
  else if c = '\n' then ['\\', 'n']
  else if c = '\r' then ['\\', 'r']
  else if c = '\t' then ['\\', 't']
  else if c.toNat < 0x20 then
    ['\\', 'u', '0', '0', Nat.digitChar (c.toNat / 16), Nat.digitChar (c.toNat % 16)]
  else [c]

/-- A text in quotes. -/
def quoted (s : String) : List Char := '"' :: s.toList.flatMap escaped ++ ['"']

/-- The blanks of a written document: `lineBreak n` before an element at depth `n` and before the
bracket that closes depth `n`, `gap` behind a colon. -/
structure Layout where
  lineBreak : Nat → List Char
  gap : List Char

/-- No blanks. -/
def Layout.compact : Layout := ⟨fun _ => [], []⟩

/-- One element a line, a number of spaces a level. -/
def Layout.indented (width : Nat) : Layout :=
  ⟨fun n => '\n' :: List.replicate (width * n) ' ', [' ']⟩

mutual

/-- A value at a depth. -/
def write (l : Layout) (depth : Nat) : Json → List Char
  | .null => ['n', 'u', 'l', 'l']
  | .bool true => ['t', 'r', 'u', 'e']
  | .bool false => ['f', 'a', 'l', 's', 'e']
  | .num n => n.text
  | .str s => quoted s
  | .arr [] => ['[', ']']
  | .arr (v :: vs) =>
    '[' :: l.lineBreak (depth + 1) ++ write l (depth + 1) v ++ writeItems l depth vs ++
      l.lineBreak depth ++ [']']
  | .obj [] => ['\x7b', '\x7d']
  | .obj ((k, v) :: ms) =>
    '\x7b' :: l.lineBreak (depth + 1) ++ quoted k ++ ':' :: l.gap ++ write l (depth + 1) v ++
      writeMembers l depth ms ++ l.lineBreak depth ++ ['\x7d']

/-- The items behind the first. -/
def writeItems (l : Layout) (depth : Nat) : List Json → List Char
  | [] => []
  | v :: vs =>
    ',' :: l.lineBreak (depth + 1) ++ write l (depth + 1) v ++ writeItems l depth vs

/-- The members behind the first. -/
def writeMembers (l : Layout) (depth : Nat) : List (String × Json) → List Char
  | [] => []
  | (k, v) :: ms =>
    ',' :: l.lineBreak (depth + 1) ++ quoted k ++ ':' :: l.gap ++ write l (depth + 1) v ++
      writeMembers l depth ms

end

/-- The text without blanks. -/
def compact (v : Json) : String := String.ofList (write .compact 0 v)

/-- The text with one element a line and four spaces a level. -/
def pretty (v : Json) : String := String.ofList (write (.indented 4) 0 v)

end Json

end SearchIndex
