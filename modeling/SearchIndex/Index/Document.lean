import SearchIndex.Index.Container
import SearchIndex.Index.Entity
import SearchIndex.Mapping.Node

/-!
# Index documents

The document that creates an index has its settings, its aliases and its mappings, in that order;
the first two are left out when there are none. The mapping of a single entity stands under the key
of the entity, that of an index shared by several has no key.
-/

namespace SearchIndex.Index

open Mapping

/-- The mapping of one type. -/
structure TypeMapping where
  dynamic : Option Json
  properties : Tree

/-- The mappings of an index. -/
inductive Mappings where
  | typed (key : String) (mapping : TypeMapping)
  | typeless (mapping : TypeMapping)

/-- The document that creates an index. -/
structure Document where
  settings : Option (Table Json)
  aliases : Option (Table AliasBody)
  mappings : Mappings

/-- Writes the mapping of a type. -/
def TypeMapping.toJson (m : TypeMapping) : Json :=
  .obj (Json.present [("dynamic", m.dynamic), ("properties", some (Tree.toJson m.properties))])

/-- Writes mappings. -/
def Mappings.toJson : Mappings → Json
  | .typed key m => .obj [(key, m.toJson)]
  | .typeless m => m.toJson

namespace Document

/-- The document of a container with the given mappings. -/
def ofMappings (c : Container) (mappings : Mappings) : Document :=
  ⟨c.settings, c.aliasBodies, mappings⟩

/-- The document of a container that holds one entity. -/
def ofEntity (c : Container) (e : Entity) (fields : Tree) : Document :=
  ofMappings c (.typed e.key ⟨e.dynamic.filter Json.isSet, fields⟩)

/-- The document of a container that several entities share. -/
def ofContainer (c : Container) (fields : Tree) : Document :=
  ofMappings c (.typeless ⟨none, fields⟩)

/-- Writes a table of alias bodies. -/
def aliasesToJson (aliases : Table AliasBody) : Json :=
  .obj (aliases.map fun a => (a.1, a.2.toJson))

/-- Writes a document. -/
def toJson (d : Document) : Json :=
  .obj (Json.present
    [("settings", d.settings.map .obj), ("aliases", d.aliases.map aliasesToJson),
     ("mappings", some d.mappings.toJson)])

end Document

end SearchIndex.Index
