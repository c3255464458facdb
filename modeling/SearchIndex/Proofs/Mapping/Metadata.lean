import SearchIndex.Proofs.Mapping.Parts

/-!
# Keys of the modelling tool

The modelling tool keeps keys of its own on every field node: identity, documentation, validation,
relationships. `bare` takes them off all field nodes of a document, those that are reached through
`properties` and `items` at any depth; other keys keep their values and their order. Two documents
with the same bare form differ in such keys only, be they put in, taken out, moved or given other
values.

Reading and compiling commute with the bare form: `ofJson_bare` goes through the functions of the
reader, so that what is refused is refused in the same way, and `compile_bareField` says that the
bare field has the same mapping. Hence `mapping_ignores_metadata`.
-/

namespace SearchIndex.Mapping

open Schema

/-! ## The bare form of a document -/

mutual

/-- A document without the keys of the modelling tool on its field nodes. -/
def bare : Json → Json
  | .obj members => .obj (bareMembers members)
  | v => v

/-- The keys of a field node without those of the modelling tool. -/
def bareMembers : List (String × Json) → List (String × Json)
  | [] => []
  | (name, v) :: rest =>
    if isParameter name then
      (name,
        if name = "properties" then bareProperties v
        else if name = "items" then bareItems v
        else v) :: bareMembers rest
    else bareMembers rest

/-- The fields under `properties`, each in its bare form. Their names are not keys of a field
node. -/
def bareProperties : Json → Json
  | .obj members => .obj (bareEntries members)
  | v => v

/-- Fields by name, each in its bare form. -/
def bareEntries : List (String × Json) → List (String × Json)
  | [] => []
  | (name, v) :: rest => (name, bare v) :: bareEntries rest

/-- The element of an array, or each of its candidates, in its bare form. -/
def bareItems : Json → Json
  | .obj members => .obj (bareMembers members)
  | .arr items => .arr (bareCandidates items)
  | v => v

/-- Candidates, each in its bare form. -/
def bareCandidates : List Json → List Json
  | [] => []
  | v :: rest => bare v :: bareCandidates rest

end

mutual

/-- A field without attributes of the modelling tool, at any depth. -/
def bareField : Field → Field
  | ⟨tag, mode, properties, items, path, relations, attributes⟩ =>
    { tag, mode, path, relations
      properties :=
        match properties with
        | some fs => some (bareFields fs)
        | none => none
      items :=
        match items with
        | some i => some (bareElement i)
        | none => none
      attributes := attributes.filter fun e => isParameter e.1 }

/-- Fields by name without attributes of the modelling tool. -/
def bareFields : List (String × Field) → List (String × Field)
  | [] => []
  | (name, f) :: rest => (name, bareField f) :: bareFields rest

/-- The element of an array without attributes of the modelling tool. -/
def bareElement : Items → Items
  | .one f => .one (bareField f)
  | .candidates fs => .candidates (bareFieldList fs)

/-- Candidates without attributes of the modelling tool. -/
def bareFieldList : List Field → List Field
  | [] => []
  | f :: rest => bareField f :: bareFieldList rest

end

/-! ## Reading the bare form -/

/-- A bare field has bare fields below it and keeps its parameters. -/
theorem bareField_eq (f : Field) :
    bareField f = { f with
      properties := f.properties.map bareFields
      items := f.items.map bareElement
      attributes := f.attributes.filter fun e => isParameter e.1 } := by
  obtain ⟨tag, mode, properties, items, path, relations, attributes⟩ := f
  cases properties <;> cases items <;> rfl

theorem bareMembers_properties (v : Json) (rest : List (String × Json)) :
    bareMembers (("properties", v) :: rest) =
      ("properties", bareProperties v) :: bareMembers rest := rfl

theorem bareMembers_items (v : Json) (rest : List (String × Json)) :
    bareMembers (("items", v) :: rest) = ("items", bareItems v) :: bareMembers rest := rfl

/-- Another parameter stays with its value. -/
theorem bareMembers_other {name : String} (h : isParameter name) (hproperties : name ≠ "properties")
    (hitems : name ≠ "items") (v : Json) (rest : List (String × Json)) :
    bareMembers ((name, v) :: rest) = (name, v) :: bareMembers rest := by
  rw [bareMembers, if_pos h, if_neg hproperties, if_neg hitems]

/-- A key of the modelling tool is taken off. -/
theorem bareMembers_metadata {name : String} (h : isParameter name = false) (v : Json)
    (rest : List (String × Json)) : bareMembers ((name, v) :: rest) = bareMembers rest := by
  rw [bareMembers, h]
  rfl

/-- Setting a part of a field commutes with the bare form if it does so for each field. -/
theorem map_set_bareField (x : Except Json.Error Field) {set set' : Field → Field}
    (h : ∀ f, set' (bareField f) = bareField (set f)) :
    (do let f ← x.map bareField; return set' f) = (do let f ← x; return set f).map bareField := by
  cases x with
  | error e => rfl
  | ok f => exact congrArg Except.ok (h f)

mutual

/-- The bare form of a document reads as the bare field, or is refused like the document. -/
theorem ofJson_bare (v : Json) : Field.ofJson (bare v) = (Field.ofJson v).map bareField := by
  cases v with
  | obj members => exact ofMembers_bare members
  | _ => rfl

/-- The members of a field node are read as the bare field. -/
theorem ofMembers_bare (members : List (String × Json)) :
    Field.ofMembers (bareMembers members) = (Field.ofMembers members).map bareField := by
  cases members with
  | nil => rfl
  | cons m rest =>
    obtain ⟨name, v⟩ := m
    have ih := ofMembers_bare rest
    by_cases hname : name ∈ Field.structuralNames
    · simp only [Field.structuralNames, List.mem_cons, List.not_mem_nil, or_false] at hname
      rcases hname with rfl | rfl | rfl | rfl | rfl | rfl
      · rw [bareMembers_other rfl (by decide) (by decide), Field.ofMembers_type,
          Field.ofMembers_type, ih]
        cases Field.tagOf v with
        | error e => rfl
        | ok tag =>
          refine map_set_bareField _ fun f => ?_
          rw [bareField_eq, bareField_eq]
      · rw [bareMembers_other rfl (by decide) (by decide), Field.ofMembers_mode,
          Field.ofMembers_mode, ih]
        refine map_set_bareField _ fun f => ?_
        rw [bareField_eq, bareField_eq]
      · rw [bareMembers_properties, Field.ofMembers_properties, Field.ofMembers_properties, ih,
          propertiesOf_bare v]
        cases Field.propertiesOf v with
        | error e => rfl
        | ok properties =>
          refine map_set_bareField _ fun f => ?_
          rw [bareField_eq, bareField_eq]
      · rw [bareMembers_items, Field.ofMembers_items, Field.ofMembers_items, ih, itemsOf_bare v]
        refine map_set_bareField _ fun f => ?_
        rw [bareField_eq, bareField_eq]
      · rw [bareMembers_other rfl (by decide) (by decide), Field.ofMembers_path,
          Field.ofMembers_path, ih]
        refine map_set_bareField _ fun f => ?_
        rw [bareField_eq, bareField_eq]
      · rw [bareMembers_other rfl (by decide) (by decide), Field.ofMembers_relations,
          Field.ofMembers_relations, ih]
        refine map_set_bareField _ fun f => ?_
        rw [bareField_eq, bareField_eq]
    rw [Field.ofMembers_attribute v rest hname]
    cases hparameter : isParameter name with
    | true =>
      have hproperties : name ≠ "properties" := by
        rintro rfl
        exact hname (by decide)
      have hitems : name ≠ "items" := by
        rintro rfl
        exact hname (by decide)
      rw [bareMembers_other hparameter hproperties hitems, Field.ofMembers_attribute v _ hname, ih]
      refine map_set_bareField _ fun f => ?_
      rw [bareField_eq, bareField_eq]
      simp only [List.filter_cons, hparameter, if_true]
    | false =>
      -- the bare form skips the key, and the bare field the attribute
      rw [bareMembers_metadata hparameter, ih]
      cases Field.ofMembers rest with
      | error e => rfl
      | ok f =>
        refine congrArg Except.ok ?_
        rw [bareField_eq, bareField_eq]
        simp only [List.filter_cons, hparameter, Bool.false_eq_true, if_false]

/-- Properties are read as bare fields. -/
theorem propertiesOf_bare (v : Json) :
    Field.propertiesOf (bareProperties v) = (Field.propertiesOf v).map (Option.map bareFields) := by
  cases v with
  | obj members =>
    rw [bareProperties, Field.propertiesOf, Field.propertiesOf, entriesOf_bare members]
    cases Field.entriesOf members <;> rfl
  | _ => rfl

/-- Fields by name are read as bare fields. -/
theorem entriesOf_bare (members : List (String × Json)) :
    Field.entriesOf (bareEntries members) = (Field.entriesOf members).map bareFields := by
  cases members with
  | nil => rfl
  | cons m rest =>
    obtain ⟨name, v⟩ := m
    rw [bareEntries, Field.entriesOf, Field.entriesOf, ofJson_bare v, entriesOf_bare rest]
    cases Field.ofJson v with
    | error e => rfl
    | ok f => cases Field.entriesOf rest <;> rfl

/-- The element of an array is read as a bare field. -/
theorem itemsOf_bare (v : Json) :
    Field.itemsOf (bareItems v) = (Field.itemsOf v).map bareElement := by
  cases v with
  | obj members =>
    rw [bareItems, Field.itemsOf, Field.itemsOf, ofMembers_bare members]
    cases Field.ofMembers members <;> rfl
  | arr items =>
    rw [bareItems, Field.itemsOf, Field.itemsOf, candidatesOf_bare items]
    cases Field.candidatesOf items <;> rfl
  | _ => rfl

/-- Candidates are read as bare fields. -/
theorem candidatesOf_bare (items : List Json) :
    Field.candidatesOf (bareCandidates items) = (Field.candidatesOf items).map bareFieldList := by
  cases items with
  | nil => rfl
  | cons v rest =>
    rw [bareCandidates, Field.candidatesOf, Field.candidatesOf, ofJson_bare v,
      candidatesOf_bare rest]
    cases Field.ofJson v with
    | error e => rfl
    | ok f => cases Field.candidatesOf rest <;> rfl

end

/-! ## Compiling the bare field -/

/-- Fields by name are bared one by one. -/
theorem bareFields_eq (fs : List (String × Field)) :
    bareFields fs = fs.map fun e => (e.1, bareField e.2) := by
  induction fs with
  | nil => rfl
  | cons e fs ih => exact congrArg ((e.1, bareField e.2) :: ·) ih

/-- A bare field is of the same kind. -/
theorem kind_bareField (f : Field) : Kind.of (bareField f) = Kind.of f := by
  rw [bareField_eq]
  rfl

/-- The visited properties of a bare field are those of the field, each bare. -/
theorem visited?_bareField (f : Field) : visited? (bareField f) = (visited? f).map bareFields := by
  rw [bareField_eq, visited?, visited?]
  exact (apply_ite (Option.map bareFields) _ none f.properties).symm

/-- The element of a bare field is that of the field, bare. -/
theorem item?_bareField (f : Field) : (bareField f).item? = f.item?.map bareField := by
  rw [bareField_eq, Field.item?, Field.item?]
  cases f.items with
  | none => rfl
  | some items =>
    cases items with
    | one g => rfl
    | candidates gs => cases gs <;> rfl

variable {m : Type → Type} [Monad m] (r : Resolver m)

/-- Attributes of the modelling tool are not copied, and the resolver is not asked about them. -/
theorem copyAttributes_filter [LawfulMonad m] (attributes : List (String × Json)) (n : Node) :
    copyAttributes r (attributes.filter fun e => isParameter e.1) n =
      copyAttributes r attributes n := by
  induction attributes generalizing n with
  | nil => rfl
  | cons e rest ih =>
    obtain ⟨name, v⟩ := e
    cases hparameter : isParameter name with
    | true =>
      rw [List.filter_cons, if_pos hparameter, copyAttributes, copyAttributes]
      refine bind_congr fun parameter => ?_
      cases parameter with
      | none => exact ih n
      | some parameter => exact ih (n.insertPlain parameter.1 parameter.2)
    | false =>
      have hnone : parameter? r name v = pure none := by
        rw [parameter?, hparameter]
        rfl
      rw [List.filter_cons, if_neg (by simp [hparameter]), ih, copyAttributes, hnone, pure_bind]

/-- A bare field says the same by itself, since no key of the modelling tool is a parameter. -/
theorem heading_bareField [LawfulMonad m] (f : Field) : heading r (bareField f) = heading r f := by
  rw [heading, heading, kind_bareField, bareField_eq]
  cases Kind.of f with
  | none => rfl
  | some kind => exact copyAttributes_filter r f.attributes kind.node

/-- Bare fields have the same mapping if each of them has. -/
theorem compileFields_bareFields {fs : List (String × Field)}
    (h : ∀ e ∈ fs, compile r (bareField e.2) = compile r e.2) :
    compileFields r (bareFields fs) = compileFields r fs := by
  induction fs with
  | nil => rfl
  | cons e rest ih =>
    obtain ⟨hfirst, hrest⟩ := List.forall_mem_cons.1 h
    rw [bareFields, compileFields, compileFields, hfirst, ih hrest]

/-- The same is laid over a bare field if the same comes from below. -/
theorem overlay_bareField {f : Field} (h : below r (bareField f) = below r f) :
    overlay r (bareField f) = overlay r f := by
  have hpath : (bareField f).path = f.path := by rw [bareField_eq]
  have hrelations : (bareField f).relations = f.relations := by rw [bareField_eq]
  rw [overlay, overlay, kind_bareField, hpath, hrelations, h]

/-- The bare field has the same mapping. -/
theorem compile_bareField [LawfulMonad m] (f : Field) : compile r (bareField f) = compile r f := by
  induction f using field_induction with
  | h f hproperties hitem =>
  have hbelow : below r (bareField f) = below r f := by
    rw [below, below, visited?_bareField, item?_bareField]
    cases hvisited : visited? f with
    | some fs =>
      have hfs := compileFields_bareFields r (hproperties fs (properties_of_visited? hvisited))
      exact congrArg (Node.ofNested <$> ·) hfs
    | none =>
      cases hg : f.item? with
      | none => rfl
      | some g => exact hitem g hg
  rw [compile_eq, compile_eq, heading_bareField, overlay_bareField r hbelow]

/-- The fields of an entity in its bare form are those of the entity, in their bare form. -/
theorem documentFields_bareField (f : Field) :
    documentFields (bareField f) = bareFields (documentFields f) := by
  have hproperties : ∀ g : Field, (bareField g).properties = g.properties.map bareFields := by
    intro g
    rw [bareField_eq]
  rw [documentFields, documentFields, hproperties]
  cases f.properties with
  | none => rfl
  | some fs =>
    rw [Option.map_some, Option.bind_some, Option.bind_some, bareFields_eq, Table.get?_map]
    cases Table.get? fs sourceName with
    | none => rfl
    | some source =>
      rw [Option.map_some, Option.bind_some, Option.bind_some, hproperties]
      cases source.properties <;> rfl

/-- A bare entity has the same mapping. -/
theorem compileDocument_bareField [LawfulMonad m] (f : Field) :
    compileDocument r (bareField f) = compileDocument r f := by
  rw [compileDocument, documentFields_bareField]
  exact compileFields_bareFields r fun e _ => compile_bareField r e.2

/-- Documents that differ in keys of the modelling tool only have the same mappings, as a field and
as an entity: if one of them can be read, so can the other one. -/
theorem mapping_ignores_metadata [LawfulMonad m] {v v' : Json} (h : bare v = bare v') {f : Field}
    (hf : Field.ofJson v = .ok f) :
    ∃ f', Field.ofJson v' = .ok f' ∧ compile r f' = compile r f ∧
      compileDocument r f' = compileDocument r f := by
  have hread : (Field.ofJson v').map bareField = .ok (bareField f) := by
    rw [← ofJson_bare, ← h, ofJson_bare, hf]
    rfl
  obtain ⟨f', hf', hbare⟩ := Except.map_eq_ok.1 hread
  refine ⟨f', hf', ?_, ?_⟩
  · rw [← compile_bareField, hbare, compile_bareField]
  · rw [← compileDocument_bareField, hbare, compileDocument_bareField]

/-- A person with a title and roles; the first of these names is also a key of a field node. -/
def personField : Json :=
  .obj [("type", .str "object"), ("GUID", .str "a1"), ("properties", .obj
    [("title", .obj [("type", .str "string"), ("index", .bool false), ("required", .bool true)]),
     ("roles", .obj [("type", .str "array"), ("items", .arr
      [.obj [("type", .str "string"), ("mode", .str "keyword"), ("maxLength", .str "many")]])])])]

/-- The same person without identifier and validation, but documented, with a default that looks
like a list of references and with definitions. -/
def documentedField : Json :=
  .obj [("definitions", .obj [("role", .obj [("type", .num (.integer 1))])]),
    ("type", .str "object"), ("properties", .obj
    [("title", .obj [("description", .str "Mr or Mrs"), ("type", .str "string"),
      ("default", .arr [.obj [("keyId", .str "a1")]]), ("index", .bool false)]),
     ("roles", .obj [("type", .str "array"), ("items", .arr
      [.obj [("type", .str "string"), ("title", .null), ("mode", .str "keyword")]])])])]

/-- Two forms of a person differ in keys of the modelling tool, at the root and further down. -/
theorem mapping_ignores_metadata_person :
    let r := Scopes.resolver ⟨personField, .null, .null, .null⟩
    bare personField = bare documentedField ∧ ∃ f, Field.ofJson personField = .ok f ∧
      ∃ f', Field.ofJson documentedField = .ok f' ∧ compile r f' = compile r f ∧
        compileDocument r f' = compileDocument r f := by
  have hbare : bare personField = bare documentedField := rfl
  obtain ⟨f, hf⟩ : ∃ f, Field.ofJson personField = .ok f := ⟨_, rfl⟩
  exact ⟨hbare, f, hf, mapping_ignores_metadata _ hbare hf⟩

end SearchIndex.Mapping
