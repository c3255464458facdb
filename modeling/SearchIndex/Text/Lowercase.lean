import SearchIndex.Text.Case

/-!
# Lower-casing

Every character goes to its lower-case form. Two need care: the capital I with a dot becomes two
characters, and a sigma takes its final form behind a letter and before none.
-/

namespace SearchIndex.Text

/-- The first character that is not looked through is a letter with a case. -/
def meetsCased (cs : List Char) : Bool := (cs.dropWhile isCaseIgnorable).head?.any isCased

/-- The lower-case form of a character other than sigma. -/
def lowercaseChar (c : Char) : List Char :=
  if c.toNat < 0x80 then [c.toLower]
  else if c.toNat = 0x130 then ['i', '\u0307']
  else [(lowercaseCode? c.toNat).elim c Char.ofNat]

/-- Lower-cases a text; `before` holds the characters already passed, the last one first. -/
def lowercaseFrom (before : List Char) : List Char → List Char
  | [] => []
  | c :: rest =>
    let form :=
      if c = 'Σ' then [if meetsCased before && !meetsCased rest then 'ς' else 'σ']
      else lowercaseChar c
    form ++ lowercaseFrom (c :: before) rest

/-- The text in lower case. -/
def lowercase (s : String) : String := String.ofList (lowercaseFrom [] s.toList)

end SearchIndex.Text
