import SearchIndex.Mapping.Merge
import SearchIndex.Request.Entity

/-!
# Requests for an index that entities share

The schema and the internal definitions of each entity are given under its identifier; the other two
documents are shared. The trees of the entities are merged in the order of the identifiers. Of the
containers and the connections only the first counts.
-/

namespace SearchIndex.Request

open Index Mapping Schema

/-- A request for the script of a shared index. -/
structure ContainerRequest where
  entities : List String
  schemas : Table Json
  internals : Table Json
  model : Json
  external : Json
  containers : List Container
  connections : List Connection
  update : Bool

namespace ContainerRequest

/-- The kind of script asked for. -/
def kind (r : ContainerRequest) : ScriptKind := kindOf r.update

/-- The container that counts. -/
def container (r : ContainerRequest) : Container := r.containers.head?.getD .unnamed

/-- The connection that counts. -/
def connection (r : ContainerRequest) : Connection := r.connections.head?.getD .unset

/-- The request with another connection in the first place. -/
def withConnection (r : ContainerRequest) (c : Connection) : ContainerRequest :=
  { r with connections := c :: r.connections.tail }

/-- The document of an entity; a missing one is `null`. -/
def entry (name : String) (documents : Table Json) (id : String) : Except Error Json :=
  match documents.get? id with
  | some v => source (name ++ " of entity " ++ id) v
  | none => .ok .null

/-- The tree of one entity. -/
def compileEntity (r : ContainerRequest) (model external : Json) (id : String) :
    Except Error Tree := do
  let entity ← entry "jsonSchema" r.schemas id
  let internal ← entry "internalDefinitions" r.internals id
  compileScopes ("jsonSchema of entity " ++ id) ⟨entity, internal, model, external⟩

/-- The trees of the entities, in order. -/
def trees (r : ContainerRequest) : Except Error (List Tree) := do
  let model ← source "modelDefinitions" r.model
  let external ← source "externalDefinitions" r.external
  r.entities.mapM (r.compileEntity model external)

/-- The merged tree. -/
def compile (r : ContainerRequest) : Except Error Tree := r.trees.map mergeAll

/-- The definitions that were replaced on the way to the merged tree. -/
def replaced (r : ContainerRequest) : Except Error (List Replacement) := r.trees.map allReplacements

/-- The index document. -/
def document (r : ContainerRequest) : Except Error Document :=
  r.compile.map (Document.ofContainer r.container)

/-- The script of a kind. -/
def generate (r : ContainerRequest) (kind : ScriptKind) : Except Error String :=
  r.document.map fun d => d.script kind r.connection r.container.indexName

/-- The fields of a request and what they are read against. -/
def fields : List (String × Json.Shape) :=
  [("entities", .list .string), ("jsonSchema", .object (.table .any)),
   ("internalDefinitions", .object (.table .any)), ("modelDefinitions", .any),
   ("externalDefinitions", .any), ("containerData", .list Container.shape),
   ("modelData", .list Connection.shape), ("isUpdateScript", .boolean)]

/-- What a request is read against. -/
def shape : Json.Shape := .object (.record "ContainerScriptRequest" fields false)

/-- Reads a request. -/
def ofJson (v : Json) : Except Json.Error ContainerRequest := do
  let t ← Json.recordOf "ContainerScriptRequest" (Table.names fields) v
  let entities ← Json.defaulted t "entities" [] (Json.listOf Json.textOf)
  let schemas ← Json.defaulted t "jsonSchema" [] (Json.tableOf .ok)
  let internals ← Json.defaulted t "internalDefinitions" [] (Json.tableOf .ok)
  let containers ← Json.defaulted t "containerData" [] (Json.listOf Container.ofJson)
  let connections ← Json.defaulted t "modelData" [] (Json.listOf Connection.ofJson)
  let update ← Json.defaulted t "isUpdateScript" false Json.booleanOf
  return {
    entities, schemas, internals
    model := (t.get? "modelDefinitions").getD .null
    external := (t.get? "externalDefinitions").getD .null
    containers, connections, update }

/-- Writes a request. -/
def toJson (r : ContainerRequest) : Json :=
  .obj
    [("entities", .arr (r.entities.map .str)), ("jsonSchema", .obj r.schemas),
     ("internalDefinitions", .obj r.internals), ("modelDefinitions", r.model),
     ("externalDefinitions", r.external),
     ("containerData", .arr (r.containers.map Container.toJson)),
     ("modelData", .arr (r.connections.map Connection.toJson)), ("isUpdateScript", .bool r.update)]

/-- Reads a request straight from a text. -/
def read (text : String) : Except Json.Error ContainerRequest :=
  (Json.readAs shape text).bind ofJson

end ContainerRequest

end SearchIndex.Request
