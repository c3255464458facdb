import SearchIndex.Mapping.Node

/-!
# Merging mapping trees

Entities that share an index have their trees merged. A field that both trees define is merged level
by level if both give it nested fields; otherwise the first definition with nested fields wins, and
if there is none, the first definition. `replacements` lists the definitions that lose their place
to a later one.
-/

namespace SearchIndex.Mapping

/-- A definition without nested fields that gave way to one with nested fields. -/
structure Replacement where
  field : String
  replacedType : Option String
deriving DecidableEq, Repr

/-- What is told as the type of a definition whose type is missing or not a text. -/
def noType : String := "<none>"

/-- The text that is told as the type of the definition that gave way. -/
def Replacement.toldType (r : Replacement) : String := r.replacedType.getD noType

/-- The fields of `b` that `a` does not have. -/
def newFields (a b : Tree) : Tree := b.filter fun e => (Table.get? a e.1).isNone

mutual

/-- The fields of `a`, each merged with that of `b`. -/
def mergeFields : List (String × Node) → Tree → Tree
  | [], _ => []
  | (name, n) :: rest, b =>
    (name, match Table.get? b name with
      | some n' => mergeNode n n'
      | none => n) :: mergeFields rest b
termination_by structural a => a

/-- Merges two definitions of a field. -/
def mergeNode : Node → Node → Node
  | ⟨entries⟩, b =>
    match (Node.mk entries).nested?, b.nested? with
    | some _, some fields => ⟨mergeNested entries fields⟩
    | none, some _ => b
    | _, none => ⟨entries⟩
termination_by structural n => n

/-- The attributes of a definition, with fields merged into its nested ones. -/
def mergeNested : List (String × Attribute) → Tree → List (String × Attribute)
  | [], _ => []
  | (name, a) :: rest, fields =>
    if name = nestedName then (name, mergeAttribute a fields) :: rest
    else (name, a) :: mergeNested rest fields
termination_by structural entries => entries

/-- Merges fields into the nested fields of a definition. -/
def mergeAttribute : Attribute → Tree → Attribute
  | .nested fields, b => .nested (mergeFields fields b ++ newFields fields b)
  | .plain v, _ => .plain v
termination_by structural a => a

end

/-- Merges two trees: the fields of `a` in their order, then those that only `b` has. -/
def merge (a b : Tree) : Tree := mergeFields a b ++ newFields a b

/-- Nested fields are merged as trees are. -/
theorem mergeAttribute_nested (fields b : Tree) :
    mergeAttribute (.nested fields) b = .nested (merge fields b) := rfl

/-- Merges a list of trees from the left. -/
def mergeAll (trees : List Tree) : Tree := trees.foldl merge []

mutual

/-- The definitions of `a` that are replaced when `b` is merged into it, in the order of `a`. -/
def replacements : List (String × Node) → Tree → List Replacement
  | [], _ => []
  | (name, n) :: rest, b =>
    (match Table.get? b name with
      | some n' => nodeReplacements name n n'
      | none => []) ++ replacements rest b
termination_by structural a => a

/-- The replacements at and below a field that both trees define. -/
def nodeReplacements (name : String) : Node → Node → List Replacement
  | ⟨entries⟩, b =>
    match (Node.mk entries).nested?, b.nested? with
    | some _, some fields => nestedReplacements entries fields
    | none, some _ => [⟨name, (Node.mk entries).type?⟩]
    | _, none => []
termination_by structural n => n

/-- The replacements below the nested fields among attributes. -/
def nestedReplacements : List (String × Attribute) → Tree → List Replacement
  | [], _ => []
  | (name, a) :: rest, fields =>
    if name = nestedName then attributeReplacements a fields else nestedReplacements rest fields
termination_by structural entries => entries

/-- The replacements below nested fields. -/
def attributeReplacements : Attribute → Tree → List Replacement
  | .nested fields, b => replacements fields b
  | .plain _, _ => []
termination_by structural a => a

end

/-- The replacements made while trees are merged one after another onto `merged`. -/
def replacementsOnto (merged : Tree) : List Tree → List Replacement
  | [] => []
  | t :: rest => replacements merged t ++ replacementsOnto (merge merged t) rest

/-- The replacements made by merging a list of trees from the left. -/
def allReplacements (trees : List Tree) : List Replacement := replacementsOnto [] trees

end SearchIndex.Mapping
