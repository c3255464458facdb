import SearchIndex.Json.Record
import SearchIndex.Schema.Tag

/-!
# Schema fields

A schema field is one node of the tree that the modelling tool exports. Its structural keys are
typed; all other keys are attributes and keep their order. A structural key that only some types
use, such as `mode` or `items`, reads as absent when it is ill-shaped, while `type` and `properties`
are strict.
-/

namespace SearchIndex.Schema

/-- A pointer to another field by its key identifier. -/
structure Reference where
  keyId : Option String
deriving DecidableEq, Repr

/-- A relation name below a parent. -/
structure Child where
  name : Option String
deriving DecidableEq, Repr

/-- One parent of a join field and the relation names below it. -/
structure Relation where
  parent : Option String
  children : Option (List Child)
deriving DecidableEq, Repr

mutual

/-- A node of the field tree. -/
structure Field where
  tag : Option Tag
  mode : Option String
  properties : Option (List (String × Field))
  items : Option Items
  path : Option (List Reference)
  relations : Option (List Relation)
  attributes : List (String × Json)

/-- The element of an array field: one node, or a list of candidates. -/
inductive Items where
  | one (item : Field)
  | candidates (items : List Field)

end

namespace Reference

/-- The key identifier of a reference held as a raw value; an empty one does not count. -/
def keyIdOf? (v : Json) : Option String :=
  ((v.get? "keyId").bind Json.text?).filter (· ≠ "")

/-- The value is a list that begins with a reference. -/
def isList (v : Json) : Bool :=
  (v.items?.bind fun items => items.head?.bind keyIdOf?).isSome

/-- Reads a reference. -/
def ofJson (v : Json) : Except Json.Error Reference := do
  let fields ← Json.recordOf "Reference" ["keyId"] v
  return ⟨← Json.optional fields "keyId" Json.textOf⟩

/-- Writes a reference. -/
def toJson (r : Reference) : Json := .obj (Json.present [("keyId", r.keyId.map .str)])

end Reference

namespace Child

/-- Reads a child. -/
def ofJson (v : Json) : Except Json.Error Child := do
  let fields ← Json.recordOf "JoinChild" ["name"] v
  return ⟨← Json.optional fields "name" Json.textOf⟩

/-- Writes a child. -/
def toJson (c : Child) : Json := .obj (Json.present [("name", c.name.map .str)])

end Child

namespace Relation

/-- Reads a relation. -/
def ofJson (v : Json) : Except Json.Error Relation := do
  let fields ← Json.recordOf "JoinRelation" ["parent", "children"] v
  let parent ← Json.optional fields "parent" Json.textOf
  let children ← Json.optional fields "children" (Json.listOf Child.ofJson)
  return ⟨parent, children⟩

/-- Writes a relation. -/
def toJson (r : Relation) : Json :=
  .obj (Json.present
    [("parent", r.parent.map .str),
     ("children", r.children.map fun cs => .arr (cs.map Child.toJson))])

end Relation

namespace Field

/-- A field without anything. -/
def empty : Field := ⟨none, none, none, none, none, none, []⟩

instance : Inhabited Field := ⟨empty⟩

/-- A field of a type and nothing else. -/
def ofTag (tag : Tag) : Field := { empty with tag := some tag }

/-- The refinement of the type; an empty one does not count. -/
def mode? (f : Field) : Option String := f.mode.filter (· ≠ "")

/-- The attribute with a name. -/
def attribute? (f : Field) (name : String) : Option Json := Table.get? f.attributes name

/-- What a field is read against. -/
def shape : Json.Shape :=
  .object (.record "SchemaField"
    [("type", .nullable .string), ("mode", .any),
     ("properties", .nullable (.object (.table .whole))),
     ("items", .any), ("path", .any), ("relations", .any)] true)

/-- Reads the type of a field. -/
def tagOf : Json → Except Json.Error (Option Tag)
  | .null => .ok none
  | .str s => .ok (some (.ofName s))
  | v => .error (Json.Shape.string.refuse v)

/-- Reads a structural key that is absent when it is ill-shaped. -/
def lenient {α : Type} (read : Json → Except Json.Error α) (v : Json) : Option α :=
  (read v).toOption

mutual

/-- Reads a field. -/
def ofJson : Json → Except Json.Error Field
  | .obj members => ofMembers members
  | v => .error (shape.refuse v)

/-- Reads the keys of a field, in order. -/
def ofMembers : List (String × Json) → Except Json.Error Field
  | [] => .ok empty
  | (name, v) :: rest =>
    if name = "type" then do
      let tag ← tagOf v
      let f ← ofMembers rest
      return { f with tag }
    else if name = "mode" then do
      let f ← ofMembers rest
      return { f with mode := v.text? }
    else if name = "properties" then do
      let properties ← propertiesOf v
      let f ← ofMembers rest
      return { f with properties }
    else if name = "items" then do
      let f ← ofMembers rest
      return { f with items := itemsOf v }
    else if name = "path" then do
      let f ← ofMembers rest
      return { f with path := lenient (Json.listOf Reference.ofJson) v }
    else if name = "relations" then do
      let f ← ofMembers rest
      return { f with relations := lenient (Json.listOf Relation.ofJson) v }
    else do
      let f ← ofMembers rest
      return { f with attributes := (name, v) :: f.attributes }

/-- Reads the properties of a field. -/
def propertiesOf : Json → Except Json.Error (Option (List (String × Field)))
  | .null => .ok none
  | .obj members => (entriesOf members).map some
  | v => .error ((Json.Shape.object (.table .any)).refuse v)

/-- Reads fields by name. -/
def entriesOf : List (String × Json) → Except Json.Error (List (String × Field))
  | [] => .ok []
  | (name, v) :: rest => do
    let f ← ofJson v
    let fs ← entriesOf rest
    return (name, f) :: fs

/-- Reads the element of an array field. A list has to hold fields only. -/
def itemsOf : Json → Option Items
  | .obj members => (ofMembers members).toOption.map .one
  | .arr items => (candidatesOf items).map .candidates
  | _ => none

/-- Reads the candidates for an element. -/
def candidatesOf : List Json → Option (List Field)
  | [] => some []
  | v :: rest =>
    match ofJson v, candidatesOf rest with
    | .ok f, some fs => some (f :: fs)
    | _, _ => none

end

mutual

/-- Writes a field: the structural keys that are there, then the attributes. -/
def toJson : Field → Json
  | ⟨tag, mode, properties, items, path, relations, attributes⟩ =>
    .obj (Json.present
      [("type", tag.map fun t => .str t.name),
       ("mode", mode.map .str),
       ("properties",
        match properties with
        | some fs => some (.obj (entriesToJson fs))
        | none => none),
       ("items",
        match items with
        | some i => some (itemsToJson i)
        | none => none),
       ("path", path.map fun rs => .arr (rs.map Reference.toJson)),
       ("relations", relations.map fun rs => .arr (rs.map Relation.toJson))] ++ attributes)

/-- Writes fields by name. -/
def entriesToJson : List (String × Field) → List (String × Json)
  | [] => []
  | (name, f) :: rest => (name, toJson f) :: entriesToJson rest

/-- Writes the element of an array field. -/
def itemsToJson : Items → Json
  | .one f => toJson f
  | .candidates fs => .arr (candidatesToJson fs)

/-- Writes candidates. -/
def candidatesToJson : List Field → List Json
  | [] => []
  | f :: rest => toJson f :: candidatesToJson rest

end

/-- Reads a field straight from a text. -/
def read (text : String) : Except Json.Error Field := (Json.readAs shape text).bind ofJson

end Field

/-- The candidate that takes part in the mapping. -/
def Items.first? : Items → Option Field
  | .one f => some f
  | .candidates fs => fs.head?

end SearchIndex.Schema
