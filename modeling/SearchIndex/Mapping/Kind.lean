import SearchIndex.Schema.Field

/-!
# Mapping types

A `Kind` is the type that a field has in the index. `Kind.of` derives it from the tag and the mode
of a schema field.
-/

namespace SearchIndex.Mapping

open Schema

/-- The type of a field in the index. Scalar types that need no special care are kept by name. -/
inductive Kind where
  | object
  | array
  | alias
  | join
  | completion
  | sparseVector
  | denseVector
  | geoShape
  | geoPoint
  | rankFeature
  | rankFeatures
  | long
  | text
  | integerRange
  | named (name : String)
deriving DecidableEq, Repr

namespace Kind

/-- The kind with a name. -/
def ofName (name : String) : Kind :=
  match name with
  | "object" => .object
  | "array" => .array
  | "alias" => .alias
  | "join" => .join
  | "completion" => .completion
  | "sparse_vector" => .sparseVector
  | "dense_vector" => .denseVector
  | "geo_shape" => .geoShape
  | "geo_point" => .geoPoint
  | "rank_feature" => .rankFeature
  | "rank_features" => .rankFeatures
  | "long" => .long
  | "text" => .text
  | "integer_range" => .integerRange
  | scalar => .named scalar

/-- The name that is written into the mapping. -/
def name : Kind → String
  | .object => "object"
  | .array => "array"
  | .alias => "alias"
  | .join => "join"
  | .completion => "completion"
  | .sparseVector => "sparse_vector"
  | .denseVector => "dense_vector"
  | .geoShape => "geo_shape"
  | .geoPoint => "geo_point"
  | .rankFeature => "rank_feature"
  | .rankFeatures => "rank_features"
  | .long => "long"
  | .text => "text"
  | .integerRange => "integer_range"
  | .named name => name

/-- A kind has the name it was made from. -/
@[simp] theorem name_ofName (s : String) : (ofName s).name = s := by
  unfold ofName
  split <;> rfl

/-- The kind of a schema field: strings, numbers and ranges take their mode, the geographic types
the spelling of the index, and `null` counts as a number. -/
def of (f : Field) : Option Kind :=
  f.tag.map fun tag =>
    match tag with
    | .geoShape => .geoShape
    | .geoPoint => .geoPoint
    | .number => (f.mode?.map ofName).getD .long
    | .string => (f.mode?.map ofName).getD .text
    | .range => (f.mode?.map ofName).getD .integerRange
    | .null => .long
    | tag => ofName tag.name

/-- Objects and arrays are not written as a type. -/
def isStructural : Kind → Bool
  | .object | .array => true
  | _ => false

/-- Nothing below the attributes of the field takes part in its mapping. -/
def isOpaque : Kind → Bool
  | .completion | .sparseVector | .denseVector | .geoShape | .geoPoint | .rankFeature
  | .rankFeatures => true
  | _ => false

end Kind

end SearchIndex.Mapping
