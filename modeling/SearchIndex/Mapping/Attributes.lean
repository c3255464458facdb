import SearchIndex.Mapping.Node
import SearchIndex.Schema.Field
import SearchIndex.Schema.Scope

/-!
# Attributes that reach the mapping

Every attribute of a schema field is a mapping parameter, apart from the keys that the modelling
tool keeps for itself. Two kinds of attribute change on the way: sub-fields given as text are read,
and lists of references become the names of the fields they point to.
-/

namespace SearchIndex.Mapping

open Schema

/-- Keys of the modelling tool for identity, documentation, validation and relationships. -/
def metadataNames : List String :=
  ["GUID", "$ref", "code", "name", "title", "description", "comments", "isActivated", "required",
   "primaryKey", "hackoladeMeta", "default", "sample", "enum", "pattern", "minLength", "maxLength",
   "minimum", "maximum", "exclusiveMinimum", "exclusiveMaximum", "multipleOf", "minItems",
   "maxItems", "uniqueItems", "minProperties", "maxProperties", "additionalItems",
   "additionalProperties", "patternProperties", "dependencies", "definitions", "childType",
   "subtype", "foreignCollection", "foreignField", "relationshipType", "childRelationships",
   "parentRelationship", "error"]

/-- The attribute is a mapping parameter. -/
def isParameter (name : String) : Bool := !metadataNames.contains name

/-- The attribute that holds sub-fields as text. -/
def subFieldsText : String := "stringfields"

/-- The mapping parameter that holds sub-fields. -/
def subFields : String := "fields"

/-- The identifiers in a list of references. -/
def keyIds (v : Json) : List String := (v.items?.getD []).filterMap Reference.keyIdOf?

/-- The value of a reference list: one name, or the list of several; none without a name. -/
def namesValue : List String → Option Json
  | [] => none
  | [name] => some (.str name)
  | names => some (.arr (names.map .str))

variable {m : Type → Type} [Monad m]

/-- The parameter that an attribute becomes; none if it is dropped. -/
def parameter? (r : Resolver m) (name : String) (v : Json) : m (Option (String × Json)) :=
  if !isParameter name then pure none
  else if name = subFieldsText then
    pure ((v.text?.bind fun t => (Json.read t).toOption).map fun fields => (subFields, fields))
  else if Reference.isList v then do
    let names ← r.names (keyIds v)
    return (namesValue names).map fun value => (name, value)
  else pure (some (name, v))

/-- Writes the parameters among the attributes onto a node, in order. -/
def copyAttributes (r : Resolver m) : List (String × Json) → Node → m Node
  | [], n => pure n
  | (name, v) :: rest, n => do
    match ← parameter? r name v with
    | some (key, value) => copyAttributes r rest (n.insertPlain key value)
    | none => copyAttributes r rest n

end SearchIndex.Mapping
