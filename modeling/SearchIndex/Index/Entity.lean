import SearchIndex.Json.Record
import SearchIndex.Text.Lowercase

/-!
# Entities

An entity is described by the name of its collection and the dynamic mode of its mapping.
-/

namespace SearchIndex.Index

/-- An entity whose fields form one mapping type. -/
structure Entity where
  collectionName : Option String
  dynamic : Option Json

namespace Entity

/-- The entity without a name. -/
def unnamed : Entity := ⟨none, none⟩

/-- The key of the mapping type: the name in lower case, empty without a name. -/
def key (e : Entity) : String := Text.lowercase (e.collectionName.getD "")

/-- The fields of an entity and what they are read against. -/
def fields : List (String × Json.Shape) :=
  [("collectionName", .nullable .string), ("dynamic", .any)]

/-- What an entity is read against. -/
def shape : Json.Shape := .object (.record "EntityDescriptor" fields false)

/-- Reads an entity. -/
def ofJson (v : Json) : Except Json.Error Entity := do
  let t ← Json.recordOf "EntityDescriptor" (Table.names fields) v
  let collectionName ← Json.optional t "collectionName" Json.textOf
  let dynamic ← Json.optional t "dynamic" .ok
  return ⟨collectionName, dynamic⟩

/-- Writes an entity. -/
def toJson (e : Entity) : Json :=
  .obj (Json.present [("collectionName", e.collectionName.map .str), ("dynamic", e.dynamic)])

/-- Reads an entity straight from a text. -/
def read (text : String) : Except Json.Error Entity := (Json.readAs shape text).bind ofJson

end Entity

end SearchIndex.Index
