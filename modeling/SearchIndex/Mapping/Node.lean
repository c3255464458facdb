import SearchIndex.Json.Record

/-!
# Mapping trees

A mapping tree lists the fields of an index by name. Its nodes are tables of attributes; an
attribute is a tree of nested fields or a plain value. Reading takes the attribute `properties` as
nested fields and every other one as it is.
-/

namespace SearchIndex.Mapping

mutual

/-- The mapping of one field: its attributes in the order in which they were first written. -/
structure Node where
  entries : List (String × Attribute)

/-- The value of an attribute. -/
inductive Attribute where
  | nested (fields : List (String × Node))
  | plain (value : Json)

end

/-- Fields by name, in order. -/
abbrev Tree := List (String × Node)

/-- The attribute that holds the nested fields. -/
def nestedName : String := "properties"

/-- The attribute that holds the type. -/
def typeName : String := "type"

namespace Node

/-- The node without attributes. -/
def empty : Node := ⟨[]⟩

instance : Inhabited Node := ⟨empty⟩

/-- The attribute with a name. -/
def get? (n : Node) (name : String) : Option Attribute := Table.get? n.entries name

/-- Writes an attribute. -/
def insert (n : Node) (name : String) (value : Attribute) : Node :=
  ⟨Table.insert n.entries name value⟩

/-- Writes a plain attribute. -/
def insertPlain (n : Node) (name : String) (value : Json) : Node := n.insert name (.plain value)

/-- Writes the nested fields. -/
def setNested (n : Node) (fields : Tree) : Node := n.insert nestedName (.nested fields)

/-- Writes all attributes of `other`. -/
def assign (n other : Node) : Node := ⟨Table.extend n.entries other.entries⟩

/-- The node of a type. -/
def ofType (name : String) : Node := empty.insertPlain typeName (.str name)

/-- The plain attribute with a name. -/
def plain? (n : Node) (name : String) : Option Json :=
  match n.get? name with
  | some (.plain v) => some v
  | _ => none

/-- The type, if it is a text. -/
def type? (n : Node) : Option String := (n.plain? typeName).bind Json.text?

/-- The nested fields. A plain value in their place does not count. -/
def nested? (n : Node) : Option Tree :=
  match n.get? nestedName with
  | some (.nested fields) => some fields
  | _ => none

/-- The names of the attributes in order. -/
def names (n : Node) : List String := Table.names n.entries

mutual

/-- Reads a node. -/
def ofJson : Json → Except Json.Error Node
  | .obj members => (attributesOf members).map Node.mk
  | v => .error ((Json.Shape.object (.table .any)).refuse v)

/-- Reads the attributes of a node, in order. -/
def attributesOf : List (String × Json) → Except Json.Error (List (String × Attribute))
  | [] => .ok []
  | (name, v) :: rest => do
    let a ← if name = nestedName then (treeOf v).map Attribute.nested else .ok (.plain v)
    let as ← attributesOf rest
    return (name, a) :: as

/-- Reads a tree. -/
def treeOf : Json → Except Json.Error Tree
  | .obj members => fieldsOf members
  | v => .error ((Json.Shape.object (.table .any)).refuse v)

/-- Reads the fields of a tree, in order. -/
def fieldsOf : List (String × Json) → Except Json.Error Tree
  | [] => .ok []
  | (name, v) :: rest => do
    let n ← ofJson v
    let ns ← fieldsOf rest
    return (name, n) :: ns

end

mutual

/-- Writes a node. -/
def toJson : Node → Json
  | ⟨entries⟩ => .obj (attributesToJson entries)

/-- Writes the attributes of a node. -/
def attributesToJson : List (String × Attribute) → List (String × Json)
  | [] => []
  | (name, a) :: rest => (name, attributeToJson a) :: attributesToJson rest

/-- Writes the value of an attribute. -/
def attributeToJson : Attribute → Json
  | .nested fields => .obj (fieldsToJson fields)
  | .plain v => v

/-- Writes the fields of a tree. -/
def fieldsToJson : List (String × Node) → List (String × Json)
  | [] => []
  | (name, n) :: rest => (name, toJson n) :: fieldsToJson rest

end

/-- What the members of a node lack to be read. -/
def lack? (members : List (String × Json)) : Option Json.Error :=
  match attributesOf members with
  | .error e => some e
  | .ok _ => none

/-- What a node is read against: any object, which is looked into when it is closed. -/
def shape : Json.Shape := .object (.audited lack?)

/-- Reads a node straight from a text. -/
def read (text : String) : Except Json.Error Node := (Json.readAs shape text).bind ofJson

end Node

namespace Tree

/-- Reads a tree. -/
def ofJson (v : Json) : Except Json.Error Tree := Node.treeOf v

/-- Writes a tree. -/
def toJson (t : Tree) : Json := .obj (Node.fieldsToJson t)

/-- What a tree is read against. -/
def shape : Json.Shape := .object (.table Node.shape)

/-- Reads a tree straight from a text. -/
def read (text : String) : Except Json.Error Tree := (Json.readAs shape text).bind ofJson

end Tree

end SearchIndex.Mapping
