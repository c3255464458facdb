import SearchIndex.Index.Script
import SearchIndex.Request.Source

/-!
# Requests for one entity

A request holds the four source documents, the descriptions of the entity and of its container, and
the connection. Its faults are looked for in the order of the documents.
-/

namespace SearchIndex.Request

open Index Mapping Schema

/-- The kind of script that a request asks for. -/
def kindOf (update : Bool) : ScriptKind := if update then .curl else .console

/-- A request for the script of one entity. -/
structure EntityRequest where
  schema : Json
  internal : Json
  model : Json
  external : Json
  entity : Entity
  container : Container
  connection : Connection
  update : Bool

namespace EntityRequest

/-- The kind of script asked for. -/
def kind (r : EntityRequest) : ScriptKind := kindOf r.update

/-- The four source documents. -/
def scopes (r : EntityRequest) : Except Error Scopes := do
  let entity ← source "jsonSchema" r.schema
  let internal ← source "internalDefinitions" r.internal
  let model ← source "modelDefinitions" r.model
  let external ← source "externalDefinitions" r.external
  return ⟨entity, internal, model, external⟩

/-- The mapping tree of the entity. -/
def compile (r : EntityRequest) : Except Error Tree := do
  let s ← r.scopes
  compileScopes "jsonSchema" s

/-- The index document. -/
def document (r : EntityRequest) : Except Error Document :=
  r.compile.map (Document.ofEntity r.container r.entity)

/-- The script of a kind. -/
def generate (r : EntityRequest) (kind : ScriptKind) : Except Error String :=
  r.document.map fun d => d.script kind r.connection r.container.indexName

/-- The fields of a request and what they are read against. -/
def fields : List (String × Json.Shape) :=
  [("jsonSchema", .any), ("internalDefinitions", .any), ("modelDefinitions", .any),
   ("externalDefinitions", .any), ("entityData", Entity.shape), ("containerData", Container.shape),
   ("modelData", Connection.shape), ("isUpdateScript", .boolean)]

/-- What a request is read against. -/
def shape : Json.Shape := .object (.record "EntityScriptRequest" fields false)

/-- Reads a request. -/
def ofJson (v : Json) : Except Json.Error EntityRequest := do
  let t ← Json.recordOf "EntityScriptRequest" (Table.names fields) v
  let entity ← Json.defaulted t "entityData" .unnamed Entity.ofJson
  let container ← Json.defaulted t "containerData" .unnamed Container.ofJson
  let connection ← Json.defaulted t "modelData" .unset Connection.ofJson
  let update ← Json.defaulted t "isUpdateScript" false Json.booleanOf
  return {
    schema := (t.get? "jsonSchema").getD .null
    internal := (t.get? "internalDefinitions").getD .null
    model := (t.get? "modelDefinitions").getD .null
    external := (t.get? "externalDefinitions").getD .null
    entity, container, connection, update }

/-- Writes a request. -/
def toJson (r : EntityRequest) : Json :=
  .obj
    [("jsonSchema", r.schema), ("internalDefinitions", r.internal), ("modelDefinitions", r.model),
     ("externalDefinitions", r.external), ("entityData", r.entity.toJson),
     ("containerData", r.container.toJson), ("modelData", r.connection.toJson),
     ("isUpdateScript", .bool r.update)]

/-- Reads a request straight from a text. -/
def read (text : String) : Except Json.Error EntityRequest := (Json.readAs shape text).bind ofJson

end EntityRequest

end SearchIndex.Request
