import SearchIndex.Mapping.Attributes
import SearchIndex.Mapping.Kind

/-!
# Compiling schema fields

`compile` turns a schema field into its mapping node, `compileDocument` the fields of an entity into
a mapping tree. An array maps like its element, so the node of the element is laid over what the
array says itself. The resolver is asked in the order of the fields.
-/

namespace SearchIndex.Mapping

open Schema

/-- What one relation does to the groups of a join field. A single child without a name takes its
parent out again. -/
def addRelation (groups : Table Json) (relation : Relation) : Table Json :=
  match relation.parent.filter (· ≠ ""), relation.children with
  | some parent, some [⟨some name⟩] => groups.insert parent (.str name)
  | some parent, some [⟨none⟩] => groups.erase parent
  | some parent, some children =>
    groups.insert parent (.arr (children.map fun c => .str (c.name.getD "")))
  | _, _ => groups

/-- The groups of a join field: each parent with the names below it. -/
def joinGroups (relations : List Relation) : Table Json := relations.foldl addRelation []

/-- What the relations of a join field add to its node. -/
def joinNode (relations : Option (List Relation)) : Node :=
  match relations with
  | some relations => Node.empty.insertPlain "relations" (.obj (joinGroups relations))
  | none => .empty

variable {m : Type → Type} [Monad m]

/-- The identifier of the target of an alias field. -/
def aliasTarget? (path : Option (List Reference)) : Option String :=
  (path.bind List.head?).bind Reference.keyId

/-- What the target of an alias field adds to its node. -/
def aliasNode (r : Resolver m) (path : Option (List Reference)) : m Node :=
  match aliasTarget? path with
  | some id => do
    match ← r.path? id with
    | some path => return Node.empty.insertPlain "path" (.str path)
    | none => return .empty
  | none => return .empty

/-- The node of a kind before its attributes: objects have nested fields from the start. -/
def Kind.node (kind : Kind) : Node :=
  let n := if kind.isStructural then Node.empty else .ofType kind.name
  if kind = .object then n.setNested [] else n

/-- What a field says by itself: its type and attributes. A field without a type says nothing. -/
def heading (r : Resolver m) (f : Field) : m Node :=
  match Kind.of f with
  | some kind => copyAttributes r f.attributes kind.node
  | none => pure .empty

mutual

/-- The mapping node of a field. -/
def compile (r : Resolver m) : Field → m Node
  | ⟨tag, mode, properties, items, path, relations, attributes⟩ => do
    let f : Field := ⟨tag, mode, properties, items, path, relations, attributes⟩
    let n ← heading r f
    match Kind.of f with
    | some .alias => return n.assign (← aliasNode r path)
    | some .join => return n.assign (joinNode relations)
    | kind =>
      if kind.any Kind.isOpaque then return n
      else if tag = some .range then
        match items with
        | some items => return n.assign (← compileItems r items)
        | none => return n
      else
        match properties, items with
        | some properties, _ => return n.setNested (← compileFields r properties)
        | none, some items => return n.assign (← compileItems r items)
        | none, none => return n

/-- The mapping tree of fields. -/
def compileFields (r : Resolver m) : List (String × Field) → m Tree
  | [] => return []
  | (name, f) :: rest => do
    let n ← compile r f
    let ns ← compileFields r rest
    return (name, n) :: ns

/-- The node of the element of an array; empty without a candidate. -/
def compileItems (r : Resolver m) : Items → m Node
  | .one f => compile r f
  | .candidates [] => return .empty
  | .candidates (f :: _) => compile r f

end

/-- The fields of an entity document: those below `_source`. -/
def documentFields (root : Field) : List (String × Field) :=
  ((root.properties.bind fun ps => Table.get? ps sourceName).bind Field.properties).getD []

/-- The mapping tree of an entity document. -/
def compileDocument (r : Resolver m) (root : Field) : m Tree :=
  compileFields r (documentFields root)

end SearchIndex.Mapping
