import SearchIndex.Index.Document

/-!
# Scripts

A script delivers an index document: as a request for a console, or as a `curl` command addressed to
the host and port of a connection.
-/

namespace SearchIndex.Index

/-- How a document is delivered. -/
inductive ScriptKind where
  | console
  | curl
deriving DecidableEq, Repr

namespace ScriptKind

/-- The name of a kind. -/
def name : ScriptKind → String
  | .console => "console"
  | .curl => "curl"

/-- Reads the name of a kind. -/
def ofName : String → Except Json.Error ScriptKind
  | "console" => .ok .console
  | "curl" => .ok .curl
  | name => .error (.unknownVariant name "`console` or `curl`")

end ScriptKind

/-- The host of a connection that names none. -/
def defaultHost : String := "localhost"

/-- The port of a connection that names none. -/
def defaultPort : Nat := 9200

/-- Where a `curl` command is addressed. The port is a number or a text. -/
structure Connection where
  host : Option String
  port : Option Json

namespace Connection

/-- The connection that names nothing. -/
def unset : Connection := ⟨none, none⟩

/-- The host that is named; an empty one does not count. -/
def host? (c : Connection) : Option String := c.host.filter (· ≠ "")

/-- The port that is named, as it was spelled; an empty text and zero do not count. -/
def port? (c : Connection) : Option String :=
  match c.port with
  | some (.str s) => if s = "" then none else some s
  | some (.num n) => if n.isZero then none else some (String.ofList n.text)
  | _ => none

/-- The host to be used. -/
def hostText (c : Connection) : String := c.host?.getD defaultHost

/-- The port to be used. -/
def portText (c : Connection) : String := c.port?.getD (toString defaultPort)

/-- The fields of a connection and what they are read against. -/
def fields : List (String × Json.Shape) := [("host", .nullable .string), ("port", .any)]

/-- What a connection is read against. -/
def shape : Json.Shape := .object (.record "ModelData" fields false)

/-- Reads a connection. -/
def ofJson (v : Json) : Except Json.Error Connection := do
  let t ← Json.recordOf "ModelData" (Table.names fields) v
  let host ← Json.optional t "host" Json.textOf
  let port ← Json.optional t "port" .ok
  return ⟨host, port⟩

/-- Writes a connection. -/
def toJson (c : Connection) : Json :=
  .obj (Json.present [("host", c.host.map .str), ("port", c.port)])

/-- Reads a connection straight from a text. -/
def read (text : String) : Except Json.Error Connection := (Json.readAs shape text).bind ofJson

end Connection

namespace Document

/-- The request for a console. -/
def consoleScript (d : Document) (indexName : String) : String :=
  "PUT /" ++ Text.lowercase indexName ++ "\n" ++ d.toJson.pretty

/-- The `curl` command. -/
def curlScript (d : Document) (c : Connection) (indexName : String) : String :=
  "curl -XPUT '" ++ c.hostText ++ ":" ++ c.portText ++ "/" ++ Text.lowercase indexName ++
    "?pretty' -H 'Content-Type: application/json' -d '\n" ++ d.toJson.pretty ++ "\n'"

/-- The script of a kind. -/
def script (d : Document) (kind : ScriptKind) (c : Connection) (indexName : String) : String :=
  match kind with
  | .console => d.consoleScript indexName
  | .curl => d.curlScript c indexName

end Document

end SearchIndex.Index
