import SearchIndex.Toml.Value

/-!
# TOML scalars

The spellings of the values that are written without quotes: truth values, integers, fractions,
dates and times.
-/

namespace SearchIndex.Toml

/-- The value of a digit in a base. -/
def digit? (base : Nat) (c : Char) : Option Nat :=
  let n :=
    if c.isDigit then c.toNat - '0'.toNat
    else if 'a' ≤ c ∧ c ≤ 'f' then c.toNat - 'a'.toNat + 10
    else if 'A' ≤ c ∧ c ≤ 'F' then c.toNat - 'A'.toNat + 10
    else base
  if n < base then some n else none

/-- The natural number with the given digits. -/
def ofDigits (base : Nat) (ds : List Nat) : Nat := ds.foldl (fun n d => n * base + d) 0

/-- The natural number that is spelled, underscores aside, if all else is digits of the base. -/
def natural? (base : Nat) (cs : List Char) : Option Nat :=
  match cs.filter (· ≠ '_') with
  | [] => none
  | cs => (cs.mapM (digit? base)).map (ofDigits base)

/-- Each underscore stands between two digits. -/
def isGrouped (isDigit : Char → Bool) (cs : List Char) : Bool :=
  let groups := cs.splitOn '_'
  ((groups.drop 1).all fun g => g.head?.any isDigit) &&
    groups.dropLast.all fun g => g.getLast?.any isDigit

/-- Splits off a sign; true for minus. -/
def splitSign : List Char → Bool × List Char
  | '+' :: cs => (false, cs)
  | '-' :: cs => (true, cs)
  | cs => (false, cs)

/-- Splits off the mark of another base than ten. -/
def splitMark? : List Char → Option (Nat × List Char)
  | '0' :: 'x' :: cs => some (16, cs)
  | '0' :: 'o' :: cs => some (8, cs)
  | '0' :: 'b' :: cs => some (2, cs)
  | _ => none

/-- A digit of base sixteen. -/
def isHexDigit (c : Char) : Bool := (digit? 16 c).isSome

/-- A character that makes a number a fraction. -/
def isFractionMark (c : Char) : Bool := c == '.' || c == 'e' || c == 'E'

/-- The spelling of an integer, of any size. A mark has no sign before it, and digits need not
follow. In base ten no zero leads, and behind the first underscore all goes but a space and what
makes a fraction, as long as digits stand around each underscore. -/
def isInteger (cs : List Char) : Bool :=
  match splitMark? cs with
  | some (base, ds) =>
    (ds.all fun c => c == '_' || (digit? base c).isSome) && isGrouped isHexDigit ds
  | none =>
    let body := (splitSign cs).2
    let rest := body.dropWhile Char.isDigit
    !body.isEmpty && (body.head? != some '0' || body.length == 1) &&
      (rest.isEmpty || rest.head? == some '_') &&
      (rest.all fun c => !(isFractionMark c || c == ' ')) && isGrouped isHexDigit cs

/-- The integer that is spelled, if it is one. -/
def integer? (cs : List Char) : Option Int :=
  match splitMark? cs with
  | some (base, ds) => (natural? base ds).map Int.ofNat
  | none =>
    let (minus, ds) := splitSign cs
    (natural? 10 ds).map fun n => if minus then -(n : Int) else n

/-- A character of a run of digits. -/
def isRun (c : Char) : Bool := c.isDigit || c == '_'

/-- What follows a run with a digit in it. -/
def afterRun? (cs : List Char) : Option (List Char) :=
  if (cs.takeWhile isRun).any Char.isDigit then some (cs.dropWhile isRun) else none

/-- What follows the places, if there are any. -/
def afterPlaces? : List Char → Option (List Char)
  | '.' :: cs => afterRun? cs
  | cs => some cs

/-- What follows the exponent, if there is one. -/
def afterExponent? : List Char → Option (List Char)
  | 'e' :: cs | 'E' :: cs => afterRun? (splitSign cs).2
  | cs => some cs

/-- The spelling of a fraction: a whole part, then places or an exponent or both. -/
def isFraction (cs : List Char) : Bool :=
  let body := (splitSign cs).2
  let whole := body.takeWhile isRun
  body == ['i', 'n', 'f'] || body == ['n', 'a', 'n'] ||
    (((afterRun? body).bind afterPlaces?).bind afterExponent? == some [] &&
      (body.head? != some '0' || whole.countP Char.isDigit == 1) && isGrouped Char.isDigit cs)

/-- The number with exactly as many digits. -/
def fixed? (count : Nat) (cs : List Char) : Option Nat :=
  if cs.length = count then (cs.mapM (digit? 10)).map (ofDigits 10) else none

/-- The days of a month. -/
def daysOf (year month : Nat) : Nat :=
  if month = 2 then
    if year % 4 = 0 ∧ (year % 100 ≠ 0 ∨ year % 400 = 0) then 29 else 28
  else if month = 4 ∨ month = 6 ∨ month = 9 ∨ month = 11 then 30
  else 31

/-- The spelling of a date, `1979-05-27`. -/
def isDate (cs : List Char) : Bool :=
  match cs.splitOn '-' with
  | [y, m, d] =>
    match fixed? 4 y, fixed? 2 m, fixed? 2 d with
    | some y, some m, some d => 1 ≤ m && m ≤ 12 && 1 ≤ d && d ≤ daysOf y m
    | _, _, _ => false
  | _ => false

/-- The spelling of a number of two digits below a limit. -/
def isBelow (limit : Nat) (cs : List Char) : Bool := (fixed? 2 cs).any (· < limit)

/-- The spelling of seconds, with or without places. -/
def isSeconds (cs : List Char) : Bool :=
  match cs.splitOn '.' with
  | [s] => isBelow 61 s
  | [s, places] => isBelow 61 s && !places.isEmpty && places.all Char.isDigit
  | _ => false

/-- The spelling of a time, `07:32` or `07:32:00.5`. -/
def isTime (cs : List Char) : Bool :=
  match cs.splitOn ':' with
  | [h, m] => isBelow 24 h && isBelow 60 m
  | [h, m, s] => isBelow 24 h && isBelow 60 m && isSeconds s
  | _ => false

/-- The spelling of the distance from universal time. -/
def isOffset : List Char → Bool
  | ['Z'] | ['z'] => true
  | '+' :: cs | '-' :: cs =>
    match cs.splitOn ':' with
    | [h, m] => isBelow 24 h && isBelow 60 m
    | _ => false
  | _ => false

/-- The spelling of a time with or without an offset. -/
def isTimeWithOffset (cs : List Char) : Bool :=
  let isClock := fun c : Char => c.isDigit || c == ':' || c == '.'
  let offset := cs.dropWhile isClock
  isTime (cs.takeWhile isClock) && (offset.isEmpty || isOffset offset)

/-- The spelling of a date, a time, or both. -/
def isMoment (cs : List Char) : Bool :=
  isDate cs || isTime cs ||
    (isDate (cs.take 10) &&
      match cs.drop 10 with
      | c :: time => (c == 'T' || c == 't' || c == ' ') && isTimeWithOffset time
      | [] => false)

/-- The spelling of a truth value. -/
def isTruth (cs : List Char) : Bool := cs == ['t', 'r', 'u', 'e'] || cs == ['f', 'a', 'l', 's', 'e']

/-- The value that is spelled without quotes. The spelling of an integer that is none is kept. -/
def scalar? (cs : List Char) : Option Value :=
  let kept := Value.literal (String.ofList cs)
  if isInteger cs then some ((integer? cs).elim kept .integer)
  else if isTruth cs || isFraction cs || isMoment cs then some kept
  else none

end SearchIndex.Toml
