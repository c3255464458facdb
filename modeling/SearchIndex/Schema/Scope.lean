import SearchIndex.Json.Basic

/-!
# Resolving key identifiers

A field points to another one by its key identifier, the `GUID` of its node. `Scopes.locate?`
searches the four documents that a field can point into; a `Resolver` turns identifiers into names
and paths in any monad, so that the questions it is asked can be recorded.
-/

namespace SearchIndex.Schema

/-- Where a key identifier was found: the name of the field and the names on the way to it. -/
structure Location where
  name : String
  path : List String
deriving DecidableEq, Repr

/-- The property that holds the fields of an entity and adds nothing to their paths. -/
def sourceName : String := "_source"

/-- The value carries the key identifier. -/
def hasKeyId (id : String) (v : Json) : Bool := (v.get? "GUID").bind Json.text? == some id

/-- A search that keeps the names on the way to the node that it has reached. -/
abbrev Search := StateM (List String) (Option Location)

namespace Search

/-- The second search is made if the first one finds nothing. -/
def orElse (first second : Search) : Search := do
  match ← first with
  | some l => return some l
  | none => second

/-- A search with the name of a property on the trail. `_source` is left out at the beginning. -/
def along (name : String) (act : Search) : Search := do
  let trail ← get
  let wrapper : Bool := trail = [] ∧ name = sourceName
  unless wrapper do
    set (trail ++ [name])
  let found ← act
  unless wrapper do
    modify List.dropLast
  return found

/-- A search with a trail of its own. -/
def afresh (act : Search) : Search := return (act.run []).1

end Search

mutual

/-- Searches a node: its properties, then its definitions, then its items. -/
def search (id : String) : Json → Search
  | .obj members =>
    (underProperties id members).orElse
      ((underDefinitions id members).orElse (underItems id members))
  | _ => return none

/-- Searches the `properties` among the members of a node. -/
def underProperties (id : String) : List (String × Json) → Search
  | [] => return none
  | (key, v) :: rest =>
    if key = "properties" then
      match v with
      | .obj entries => amongProperties id entries
      | _ => return none
    else underProperties id rest

/-- Searches properties in order, each before what is below it. -/
def amongProperties (id : String) : List (String × Json) → Search
  | [] => return none
  | (name, v) :: rest =>
    (Search.along name do
      if hasKeyId id v then return some ⟨name, ← get⟩ else search id v).orElse
      (amongProperties id rest)

/-- Searches the `definitions` among the members of a node. -/
def underDefinitions (id : String) : List (String × Json) → Search
  | [] => return none
  | (key, v) :: rest =>
    if key = "definitions" then
      match v with
      | .obj entries => amongDefinitions id entries
      | _ => return none
    else underDefinitions id rest

/-- Searches definitions in order. The path begins anew at each. -/
def amongDefinitions (id : String) : List (String × Json) → Search
  | [] => return none
  | (name, v) :: rest =>
    if hasKeyId id v then return some ⟨name, [name]⟩
    else (search id v).afresh.orElse (amongDefinitions id rest)

/-- Searches the `items` among the members of a node; they add nothing to the path. -/
def underItems (id : String) : List (String × Json) → Search
  | [] => return none
  | (key, v) :: rest =>
    if key = "items" then
      match v with
      | .arr candidates => amongCandidates id candidates
      | v => search id v
    else underItems id rest

/-- Searches candidates in order. -/
def amongCandidates (id : String) : List Json → Search
  | [] => return none
  | v :: rest => (search id v).orElse (amongCandidates id rest)

end

/-- Searches below a node that is reached by `trail`. -/
def locate? (id : String) (trail : List String) (v : Json) : Option Location :=
  ((search id v).run trail).1

/-- Turns key identifiers into field names. Identifiers without a match are dropped from a list. -/
structure Resolver (m : Type → Type) where
  names : List String → m (List String)
  path? : String → m (Option String)

/-- What a resolver can be asked. -/
inductive Question where
  | names (ids : List String)
  | path (id : String)
deriving DecidableEq, Repr

/-- The same answers, with the questions recorded, the last one first. -/
def Resolver.recorded (r : Resolver Id) : Resolver (StateM (List Question)) where
  names ids := do
    modify (.names ids :: ·)
    return r.names ids
  path? id := do
    modify (.path id :: ·)
    return r.path? id

/-- The documents that a field can point into, in the order in which they are searched. -/
structure Scopes where
  entity : Json
  internal : Json
  model : Json
  external : Json

namespace Scopes

/-- Searches the scopes in order. -/
def locate? (s : Scopes) (id : String) : Option Location :=
  [s.entity, s.internal, s.model, s.external].findSome? (Schema.locate? id [])

/-- The names of the fields with the given identifiers. -/
def names (s : Scopes) (ids : List String) : List String :=
  ids.filterMap fun id => (s.locate? id).map Location.name

/-- The dotted path of the field with an identifier. -/
def path? (s : Scopes) (id : String) : Option String :=
  (s.locate? id).map fun l => ".".intercalate l.path

/-- The resolver that answers from the scopes. -/
def resolver (s : Scopes) : Resolver Id := ⟨s.names, s.path?⟩

end Scopes

end SearchIndex.Schema
