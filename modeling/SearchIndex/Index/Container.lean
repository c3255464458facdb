import SearchIndex.Json.Record
import SearchIndex.Text.Lowercase

/-!
# Containers

A container describes an index: its name, its aliases and, among its other keys, its settings. A
setting counts only if it is one of `settingNames` and is set; an alias counts only if it has a
name.
-/

namespace SearchIndex.Index

/-- An alias as it was entered. The filter is a document given as text. -/
structure Alias where
  name : Option String
  filter : Option String
  routing : Option Json

/-- What is written for an alias: the term that filters it and its routing. -/
structure AliasBody where
  term : Option Json
  routing : Option Json

/-- An index: its name, its aliases and its other keys. -/
structure Container where
  name : Option String
  aliases : Option (List Alias)
  extra : Table Json

namespace Alias

/-- The fields of an alias and what they are read against. -/
def fields : List (String × Json.Shape) :=
  [("name", .nullable .string), ("filter", .nullable .string), ("routing", .any)]

/-- What an alias is read against. -/
def shape : Json.Shape := .object (.record "AliasDefinition" fields false)

/-- Reads an alias. -/
def ofJson (v : Json) : Except Json.Error Alias := do
  let t ← Json.recordOf "AliasDefinition" (Table.names fields) v
  let name ← Json.optional t "name" Json.textOf
  let filter ← Json.optional t "filter" Json.textOf
  let routing ← Json.optional t "routing" .ok
  return ⟨name, filter, routing⟩

/-- Writes an alias. -/
def toJson (a : Alias) : Json :=
  .obj (Json.present
    [("name", a.name.map .str), ("filter", a.filter.map .str), ("routing", a.routing)])

/-- The name, unless it is empty. -/
def name? (a : Alias) : Option String := a.name.filter (· ≠ "")

/-- The term that a filter text stands for; an unreadable text stands for the empty one. -/
def term (filter : String) : Json :=
  match Json.read filter with
  | .ok v => v
  | .error _ => .str ""

/-- What is written for the alias. -/
def body (a : Alias) : AliasBody :=
  ⟨(a.filter.filter (· ≠ "")).map term, a.routing.filter Json.isSet⟩

end Alias

/-- Writes the body of an alias. -/
def AliasBody.toJson (b : AliasBody) : Json :=
  .obj (Json.present [("filter", b.term.map fun t => .obj [("term", t)]), ("routing", b.routing)])

/-- The settings of an index, in the order in which they are written. -/
def settingNames : List String :=
  ["number_of_shards", "number_of_replicas", "refresh_interval", "max_result_window",
   "max_inner_result_window", "max_rescore_window", "max_docvalue_fields_search",
   "max_script_fields", "max_ngram_diff", "max_shingle_diff", "max_refresh_listeners",
   "max_terms_count", "max_regex_length", "routing_partition_size", "auto_expand_replicas", "codec",
   "shard.check_on_startup", "analysis"]

namespace Container

/-- The container without anything. -/
def unnamed : Container := ⟨none, none, []⟩

/-- The name of the index: the name in lower case, empty without a name. -/
def indexName (c : Container) : String := Text.lowercase (c.name.getD "")

/-- The value of a setting that is set. -/
def setting? (c : Container) (name : String) : Option Json :=
  (Table.get? c.extra name).filter Json.isSet

/-- The settings that are set; none if there is no such. -/
def settings (c : Container) : Option (Table Json) :=
  match settingNames.filterMap fun name => (c.setting? name).map fun v => (name, v) with
  | [] => none
  | settings => some settings

/-- The bodies of the aliases by name; none if no alias has a name. Of several aliases with one name
the last gives the body and the first the place. -/
def aliasBodies (c : Container) : Option (Table AliasBody) :=
  match Table.ofList
      ((c.aliases.getD []).filterMap fun a => a.name?.map fun name => (name, a.body)) with
  | [] => none
  | bodies => some bodies

/-- What a container is read against. -/
def shape : Json.Shape :=
  .object (.record "ContainerDescriptor"
    [("name", .nullable .string), ("aliases", .nullable (.list Alias.shape))] true)

/-- Reads a container. -/
def ofJson : Json → Except Json.Error Container
  | .obj members => do
    let name ← Json.optional members "name" Json.textOf
    let aliases ← Json.optional members "aliases" (Json.listOf Alias.ofJson)
    return ⟨name, aliases, members.filter fun m => m.1 ≠ "name" ∧ m.1 ≠ "aliases"⟩
  | v => .error (shape.refuse v)

/-- Writes a container. -/
def toJson (c : Container) : Json :=
  .obj (Json.present
    [("name", c.name.map .str),
     ("aliases", c.aliases.map fun as => .arr (as.map Alias.toJson))] ++ c.extra)

/-- Reads a container straight from a text. -/
def read (text : String) : Except Json.Error Container := (Json.readAs shape text).bind ofJson

end Container

end SearchIndex.Index
