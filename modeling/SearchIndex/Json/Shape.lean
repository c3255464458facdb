import SearchIndex.Json.Writer
import SearchIndex.Text.Quoted

/-!
# What a document is expected to hold

A `Shape` says what may stand at one place of a document. `Json.Error` lists what can be wrong with
a text or a value, and `Error.message` words it.
-/

namespace SearchIndex.Json

/-- What stood where something else was expected. -/
inductive Found where
  | null
  | boolean (value : Bool)
  | number (value : Number)
  | string (value : String)
  | sequence
  | map
deriving DecidableEq, Repr

/-- How a value is named in a complaint. -/
def found : Json → Found
  | .null => .null
  | .bool b => .boolean b
  | .num n => .number n
  | .str s => .string s
  | .arr _ => .sequence
  | .obj _ => .map

/-- What is wrong with a document. -/
inductive Error where
  | endInValue
  | endInList
  | endInObject
  | endInString
  | noValue
  | badWord
  | trailingCharacters
  | trailingComma
  | keyNotString
  | noColon
  | noListSeparator
  | noObjectSeparator
  | badNumber
  | numberOutOfRange
  | badEscape
  | unpairedEscape
  | loneSurrogate
  | controlCharacter
  | tooDeep
  | invalidType (found : Found) (expected : String)
  | tooManyElements (length : Nat)
  | duplicateField (name : String)
  | unknownVariant (name : String) (expected : String)
deriving DecidableEq, Repr

/-- The description of what stood there. -/
def Found.text : Found → String
  | .null => "null"
  | .boolean true => "boolean `true`"
  | .boolean false => "boolean `false`"
  | .number (.integer n) => "integer `" ++ String.ofList (Number.integer n).text ++ "`"
  | .number (.double x) => "floating point `" ++ String.ofList x.text ++ "`"
  | .string s => "string " ++ Text.quoted s
  | .sequence => "sequence"
  | .map => "map"

/-- The message of an error, without the place in the text. -/
def Error.message : Error → String
  | .endInValue => "EOF while parsing a value"
  | .endInList => "EOF while parsing a list"
  | .endInObject => "EOF while parsing an object"
  | .endInString => "EOF while parsing a string"
  | .noValue => "expected value"
  | .badWord => "expected ident"
  | .trailingCharacters => "trailing characters"
  | .trailingComma => "trailing comma"
  | .keyNotString => "key must be a string"
  | .noColon => "expected `:`"
  | .noListSeparator => "expected `,` or `]`"
  | .noObjectSeparator => "expected `,` or `\x7d`"
  | .badNumber => "invalid number"
  | .numberOutOfRange => "number out of range"
  | .badEscape => "invalid escape"
  | .unpairedEscape => "unexpected end of hex escape"
  | .loneSurrogate => "lone leading surrogate in hex escape"
  | .controlCharacter => "control character (\\u0000-\\u001F) found while parsing a string"
  | .tooDeep => "recursion limit exceeded"
  | .invalidType found expected => "invalid type: " ++ found.text ++ ", expected " ++ expected
  | .tooManyElements n =>
    "invalid length " ++ toString n ++ ", expected fewer elements in array"
  | .duplicateField name => "duplicate field `" ++ name ++ "`"
  | .unknownVariant name expected =>
    "unknown variant `" ++ name ++ "`, expected " ++ expected

mutual

/-- What may stand at one place of a document. -/
inductive Shape where
  /-- Any value. -/
  | any
  /-- A value that is passed over. -/
  | skipped
  /-- A text. -/
  | string
  /-- A truth value. -/
  | boolean
  /-- `null`, or what `inner` expects. -/
  | nullable (inner : Shape)
  /-- A list of alike elements. -/
  | list (element : Shape)
  /-- An object. -/
  | object (members : Members)
  /-- What the whole document is. -/
  | whole

/-- What may stand inside an object. -/
inductive Members where
  /-- Any keys, each with an alike value. -/
  | table (entry : Shape)
  /-- Declared keys, each once. Other keys are kept if the record is `extensible` and passed over if
  not; a record that is not extensible may also be written as the list of its fields. -/
  | record (title : String) (fields : List (String × Shape)) (extensible : Bool)
  /-- Any keys and values; what they lack is told once the object is closed. -/
  | audited (lack : List (String × Json) → Option Error)

end

namespace Members

/-- The wording of an expected object. -/
def expected : Members → String
  | .table _ | .audited _ => "a map"
  | .record title .. => "struct " ++ title

/-- The shape of the value under a key. -/
def entry : Members → String → Shape
  | .table entry, _ => entry
  | .audited _, _ => .any
  | .record _ fields extensible, key =>
    (Table.get? fields key).getD (if extensible then .any else .skipped)

/-- The key may stand once only. -/
def declares : Members → String → Bool
  | .record _ fields _, key => fields.any fun f => f.1 == key
  | _, _ => false

end Members

namespace Shape

/-- The wording of an expected value. -/
def expected : Shape → String
  | .any | .skipped | .whole => "any value"
  | .string => "a string"
  | .boolean => "a boolean"
  | .nullable inner => inner.expected
  | .list _ => "a sequence"
  | .object members => members.expected

/-- The complaint about a value of another kind. -/
def refuse (s : Shape) (v : Json) : Error := .invalidType v.found s.expected

/-- A value other than a list or an object is as expected. -/
def admits : Shape → Json → Bool
  | .any, _ | .skipped, _ => true
  | .string, .str _ => true
  | .boolean, .bool _ => true
  | .nullable _, .null => true
  | .nullable inner, v => inner.admits v
  | _, _ => false

end Shape

end SearchIndex.Json
