import SearchIndex.Mapping.Compile
import SearchIndex.Request.Error

/-!
# Source documents of a request

A document of a request is given as it is, or as text in a string. `compileScopes` compiles the
entity document among four that have been read.
-/

namespace SearchIndex.Request

open Schema Mapping

/-- The document that a value stands for; a string stands for the document it spells. -/
def source (name : String) : Json → Except Error Json
  | .str text => (Json.read text).mapError (.malformed name)
  | v => .ok v

/-- The tree of the entity document; anything but an object has no fields. -/
def compileScopes (name : String) (s : Scopes) : Except Error Tree :=
  if s.entity.isObject then do
    let root ← (Field.ofJson s.entity).mapError (.notASchema name)
    return (Mapping.compileDocument s.resolver root : Id Tree)
  else .ok []

end SearchIndex.Request
