import SearchIndex.Table
import SearchIndex.Decimal.Double

/-!
# JSON values

Objects are tables, so the order of their members is part of the value. A number is an integer of a
64-bit word, signed or unsigned, or a finite double.
-/

namespace SearchIndex

/-- A JSON number. -/
inductive Json.Number where
  | integer (value : Int)
  | double (value : Double)
deriving DecidableEq, Repr

/-- A JSON value. -/
inductive Json where
  | null
  | bool (value : Bool)
  | num (value : Json.Number)
  | str (value : String)
  | arr (items : List Json)
  | obj (members : List (String × Json))

instance : Inhabited Json := ⟨.null⟩

namespace Json

/-- The number is zero. -/
def Number.isZero : Number → Bool
  | .integer value => value == 0
  | .double value => !value.magnitude.isPositive

/-- The member under a name; none of anything but an object. -/
def get? (v : Json) (name : String) : Option Json :=
  match v with
  | .obj members => Table.get? members name
  | _ => none

/-- The text of a string value. -/
def text? : Json → Option String
  | .str s => some s
  | _ => none

/-- The items of a list value. -/
def items? : Json → Option (List Json)
  | .arr items => some items
  | _ => none

/-- The members of an object. -/
def members? : Json → Option (Table Json)
  | .obj members => some members
  | _ => none

/-- The value is an object. -/
def isObject : Json → Bool
  | .obj _ => true
  | _ => false

/-- `null`, `false`, zero and the empty text count as unset. -/
def isSet : Json → Bool
  | .null => false
  | .bool b => b
  | .num n => !n.isZero
  | .str s => s != ""
  | .arr _ | .obj _ => true

end Json

end SearchIndex
