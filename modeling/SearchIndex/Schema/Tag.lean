/-!
# Type tags

The tag of a schema field is the modelling tool's name of its type. `Tag.name_ofName` says that
every tag is written back as it was read.
-/

namespace SearchIndex.Schema

/-- A type of the modelling tool. A type that it does not know is kept by name. -/
inductive Tag where
  | object
  | array
  | string
  | number
  | boolean
  | date
  | null
  | range
  | geoPoint
  | geoShape
  | alias
  | join
  | completion
  | sparseVector
  | denseVector
  | rankFeature
  | rankFeatures
  | other (name : String)
deriving DecidableEq, Repr

namespace Tag

/-- The modelling tool's name. -/
def name : Tag → String
  | .object => "object"
  | .array => "array"
  | .string => "string"
  | .number => "number"
  | .boolean => "boolean"
  | .date => "date"
  | .null => "null"
  | .range => "range"
  | .geoPoint => "geo-point"
  | .geoShape => "geo-shape"
  | .alias => "alias"
  | .join => "join"
  | .completion => "completion"
  | .sparseVector => "sparse_vector"
  | .denseVector => "dense_vector"
  | .rankFeature => "rank_feature"
  | .rankFeatures => "rank_features"
  | .other name => name

/-- The tag with a name. -/
def ofName (name : String) : Tag :=
  match name with
  | "object" => .object
  | "array" => .array
  | "string" => .string
  | "number" => .number
  | "boolean" => .boolean
  | "date" => .date
  | "null" => .null
  | "range" => .range
  | "geo-point" => .geoPoint
  | "geo-shape" => .geoShape
  | "alias" => .alias
  | "join" => .join
  | "completion" => .completion
  | "sparse_vector" => .sparseVector
  | "dense_vector" => .denseVector
  | "rank_feature" => .rankFeature
  | "rank_features" => .rankFeatures
  | unknown => .other unknown

/-- A tag is written back as it was read. -/
@[simp] theorem name_ofName (s : String) : (ofName s).name = s := by
  unfold ofName
  split <;> rfl

end Tag

end SearchIndex.Schema
