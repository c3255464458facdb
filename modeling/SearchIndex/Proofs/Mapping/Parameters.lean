import Mathlib.Data.List.Nodup
import Mathlib.Data.List.ReduceOption
import SearchIndex.Proofs.Mapping.Parts
import SearchIndex.Proofs.Mapping.References
import SearchIndex.Proofs.Schema.Distinct

/-!
# The attributes of a field without anything below it

`Carries` lists what may become of an attribute on its way into the mapping: it is left out, it is
copied, or it is written with the names that its references stand for. `carried` are the parameters
that come of a list of attributes, in its order.

Sub-fields can be given twice, as such and as a text. They are the only parameter with two sources,
so that parameters are written as they come up to that one name: `joined_carried`. Hence
`entries_compile_of_leaf` lists the attributes of a compiled field that has nothing below it.
-/

namespace SearchIndex.Mapping

open Schema

/-! ## What becomes of an attribute -/

/-- What becomes of an attribute, name and value. -/
inductive Carries (r : Resolver Id) : String × Json → Option (String × Json) → Prop
  /-- Keys of the modelling tool are left out. -/
  | metadata {name : String} {v : Json} (h : name ∈ metadataNames) : Carries r (name, v) none
  /-- Sub-fields in text form are written as what the text says. -/
  | parsed {text : String} {fields : Json} (h : Json.read text = .ok fields) :
      Carries r (subFieldsText, .str text) (some (subFields, fields))
  /-- Sub-fields in text form that cannot be read are left out. -/
  | malformed {v : Json} (h : ∀ text fields, v = .str text → Json.read text ≠ .ok fields) :
      Carries r (subFieldsText, v) none
  /-- Any value that is not a list of references is copied. -/
  | copied {name : String} {v : Json} (hname : Kept name) (h : ¬ReferenceList v) :
      Carries r (name, v) (some (name, v))
  /-- References without names are left out. -/
  | unresolved {name : String} {v : Json} (hname : Kept name) (h : ReferenceList v)
      (hnames : r.names (referenceIds v) = []) : Carries r (name, v) none
  /-- References with one name are written as this name. -/
  | single {name only : String} {v : Json} (hname : Kept name) (h : ReferenceList v)
      (hnames : r.names (referenceIds v) = [only]) : Carries r (name, v) (some (name, .str only))
  /-- References with several names are written as the list of names. -/
  | several {name first second : String} {rest : List String} {v : Json} (hname : Kept name)
      (h : ReferenceList v) (hnames : r.names (referenceIds v) = first :: second :: rest) :
      Carries r (name, v) (some (name, .arr ((first :: second :: rest).map .str)))

section

variable (r : Resolver Id) {name : String} (v : Json)

/-- Keys of the modelling tool are left out. -/
theorem parameter?_of_metadata (h : name ∈ metadataNames) :
    (parameter? r name v : Option (String × Json)) = none := by
  have hp : isParameter name = false := by simpa [isParameter] using h
  unfold parameter?
  rw [hp]
  rfl

/-- A text of sub-fields gives what it says as a document, or nothing if it is none. -/
theorem parameter?_subFieldsText :
    (parameter? r subFieldsText v : Option (String × Json)) =
      (v.text?.bind fun t => (Json.read t).toOption).map fun fields => (subFields, fields) :=
  rfl

/-- Any other attribute is copied, or written with the names that its references stand for. -/
theorem parameter?_of_kept (h : Kept name) :
    (parameter? r name v : Option (String × Json)) =
      if ReferenceList v then
        (namesValue (r.names (referenceIds v))).map fun value => (name, value)
      else some (name, v) := by
  obtain ⟨hp, htext⟩ := kept_iff.1 h
  unfold parameter?
  simp only [hp, htext, Bool.not_true, Bool.false_eq_true, if_false, isList_iff, keyIds_eq]
  rfl

end

/-- The compiler makes of an attribute what becomes of it. -/
theorem carries_parameter? (r : Resolver Id) (e : String × Json) :
    Carries r e (parameter? r e.1 e.2) := by
  obtain ⟨name, v⟩ := e
  by_cases hmetadata : name ∈ metadataNames
  · rw [parameter?_of_metadata r v hmetadata]
    exact .metadata hmetadata
  by_cases htext : name = subFieldsText
  · subst htext
    rw [parameter?_subFieldsText]
    cases v with
    | str text =>
      cases hread : Json.read text with
      | ok fields => simpa [Json.text?, hread, Except.toOption] using .parsed hread
      | error e =>
        simp only [Json.text?, Option.bind_some, hread]
        refine .malformed ?_
        rintro text' fields heq hok
        rw [← Json.str.inj heq, hread] at hok
        cases hok
    | _ =>
      refine .malformed ?_
      rintro text fields ⟨⟩
  have hname : Kept name := ⟨hmetadata, htext⟩
  rw [parameter?_of_kept r v hname]
  by_cases hlist : ReferenceList v
  · rw [if_pos hlist]
    -- nothing is written for no name, a text for one, a list for several
    cases hnames : (r.names (referenceIds v) : List String) with
    | nil => exact .unresolved hname hlist hnames
    | cons first rest =>
      cases rest with
      | nil => exact .single hname hlist hnames
      | cons second rest => exact .several hname hlist hnames
  · rw [if_neg hlist]
    exact .copied hname hlist

/-- What becomes of an attribute is fixed by its name and value. -/
theorem carries_iff {r : Resolver Id} {e : String × Json} {o : Option (String × Json)} :
    Carries r e o ↔ o = parameter? r e.1 e.2 := by
  constructor
  · intro h
    symm
    cases h with
    | metadata h => exact parameter?_of_metadata r _ h
    | parsed h =>
      rw [parameter?_subFieldsText, Json.text?, Option.bind_some, h]
      rfl
    | @malformed v h =>
      rw [parameter?_subFieldsText]
      cases v with
      | str text =>
        cases hread : Json.read text with
        | ok fields => exact absurd hread (h text fields rfl)
        | error e => simp [Json.text?, hread, Except.toOption]
      | _ => rfl
    | copied hname h => rw [parameter?_of_kept r _ hname, if_neg h]
    | unresolved hname h hnames =>
      rw [parameter?_of_kept r _ hname, if_pos h, hnames]
      rfl
    | single hname h hnames =>
      rw [parameter?_of_kept r _ hname, if_pos h, hnames]
      rfl
    | several hname h hnames =>
      rw [parameter?_of_kept r _ hname, if_pos h, hnames]
      rfl
  · rintro rfl
    exact carries_parameter? r e

/-- Only sub-fields in text form are written under another name. -/
theorem Carries.name_eq {r : Resolver Id} {e d : String × Json} (h : Carries r e (some d)) :
    d.1 = e.1 ∨ d.1 = subFields ∧ e.1 = subFieldsText := by
  cases h with
  | parsed => exact .inr ⟨rfl, rfl⟩
  | copied | single | several => exact .inl rfl

/-! ## The parameters among attributes -/

/-- The parameters that come of attributes, in order. -/
def carried (r : Resolver Id) (attributes : List (String × Json)) : List (String × Json) :=
  attributes.filterMap fun e => parameter? r e.1 e.2

/-- The parameter of the first attribute, if any, comes first. -/
theorem carried_cons (r : Resolver Id) (e : String × Json) (rest : List (String × Json)) :
    carried r (e :: rest) =
      (parameter? r e.1 e.2 : Option (String × Json)).toList ++ carried r rest := by
  rw [carried, List.filterMap_cons, ← carried]
  cases (parameter? r e.1 e.2 : Option (String × Json)) <;> rfl

/-- A list of attributes has one list of outcomes. -/
theorem forall₂_carries_iff {r : Resolver Id} {attributes : List (String × Json)}
    {outcomes : List (Option (String × Json))} :
    List.Forall₂ (Carries r) attributes outcomes ↔
      outcomes = attributes.map fun e => parameter? r e.1 e.2 := by
  induction attributes generalizing outcomes with
  | nil => rw [List.forall₂_nil_left_iff, List.map_nil]
  | cons e rest ih =>
    rw [List.forall₂_cons_left_iff, List.map_cons]
    constructor
    · rintro ⟨o, os, ho, hos, rfl⟩
      rw [carries_iff.1 ho, ih.1 hos]
    · rintro rfl
      exact ⟨_, _, carries_parameter? r e, ih.2 rfl, rfl⟩

/-- What is left of the outcomes are the parameters. -/
theorem reduceOption_outcomes (r : Resolver Id) (attributes : List (String × Json)) :
    List.reduceOption (attributes.map fun e => (parameter? r e.1 e.2 : Option (String × Json))) =
      carried r attributes := by
  rw [List.reduceOption, List.filterMap_map]
  rfl

/-- Plain attributes with the values of a table. -/
def plainEntries (t : Table Json) : Table Attribute := t.map fun e => (e.1, .plain e.2)

/-- Copying attributes writes the parameters that come of them. -/
theorem copyAttributes_eq (r : Resolver Id) (attributes : List (String × Json)) (n : Node) :
    (copyAttributes r attributes n : Node) =
      ⟨Table.extend n.entries (plainEntries (carried r attributes))⟩ := by
  induction attributes generalizing n with
  | nil =>
    cases n
    rfl
  | cons e rest ih =>
    obtain ⟨name, v⟩ := e
    have hstep : (copyAttributes r ((name, v) :: rest) n : Node) =
        (match (parameter? r name v : Option (String × Json)) with
        | some (key, value) => copyAttributes r rest (n.insertPlain key value)
        | none => copyAttributes r rest n) := rfl
    rw [hstep, carried_cons]
    cases (parameter? r name v : Option (String × Json)) with
    | none => exact ih n
    | some parameter => exact ih (n.insertPlain parameter.1 parameter.2)

/-! ## Sub-fields given twice -/

/-- The table that is left of named values of which at most one name stands twice: it takes the
place of the first one and the value of the last one. -/
inductive Joined (name : String) : Table Json → Table Json → Prop
  | apart {t : Table Json} (h : t.Distinct) : Joined name t t
  | twice {before between after : Table Json} {first last : Json}
      (h : Table.Distinct (before ++ (name, last) :: between ++ after)) :
      Joined name (before ++ (name, first) :: between ++ (name, last) :: after)
        (before ++ (name, last) :: between ++ after)

/-- What is left is what is written onto a table that has none of the names. -/
theorem Joined.extend_eq {name : String} {t u start : Table Json} (h : Joined name t u)
    (hstart : ∀ key ∈ Table.names t, key ∉ Table.names start) :
    Table.extend start t = start ++ u := by
  cases h with
  | apart h => exact Table.extend_of_disjoint h hstart
  | @twice before between after first last h =>
    simp only [Table.names, List.map_append, List.map_cons, List.mem_append,
      List.mem_cons] at hstart
    have hnodup : ((Table.names before ++ name :: Table.names between) ++
        Table.names after).Nodup := by
      simpa [Table.Distinct, Table.names] using h
    obtain ⟨hfront, hafter, hapart⟩ := List.nodup_append.1 hnodup
    have hbefore : name ∉ Table.names before := by
      intro hmem
      exact (List.nodup_append.1 hfront).2.2 name hmem name List.mem_cons_self rfl
    have hfirst : Table.extend start (before ++ (name, first) :: between) =
        (start ++ before) ++ (name, first) :: between := by
      rw [Table.extend_of_disjoint, List.append_assoc]
      · simpa [Table.Distinct, Table.names] using hfront
      · intro key hkey
        refine hstart key (.inl ?_)
        simpa [Table.names] using hkey
    -- the second value finds the first one in its place
    have hlast : Table.insert ((start ++ before) ++ (name, first) :: between) name last =
        (start ++ before) ++ (name, last) :: between := by
      refine Table.insert_append_cons ?_ between first last
      rw [Table.names_append, List.mem_append, not_or]
      exact ⟨hstart name (.inr (.inl rfl)), hbefore⟩
    calc Table.extend start (before ++ (name, first) :: between ++ (name, last) :: after)
        = Table.extend (Table.insert
            (Table.extend start (before ++ (name, first) :: between)) name last) after := by
          rw [Table.extend_append]
          rfl
      _ = Table.extend ((start ++ before) ++ (name, last) :: between) after := by
          rw [hfirst, hlast]
      _ = start ++ (before ++ (name, last) :: between ++ after) := by
          rw [Table.extend_of_disjoint hafter]
          · simp only [List.append_assoc]
          · intro key hkey hmem
            simp only [Table.names, List.map_append, List.map_cons, List.mem_append,
              List.mem_cons] at hmem
            rcases hmem with (hmem | hmem) | hmem
            · exact hstart key (.inr (.inr hkey)) hmem
            · exact hapart key (List.mem_append_left _ hmem) key hkey rfl
            · exact hapart key (List.mem_append_right _ (List.mem_cons.2 hmem)) key hkey rfl

/-- The parameters of two lists stand one behind the other. -/
theorem carried_append (r : Resolver Id) (attributes others : List (String × Json)) :
    carried r (attributes ++ others) = carried r attributes ++ carried r others :=
  List.filterMap_append

/-- Without sub-fields in text form, parameters have the names of their attributes. -/
theorem names_carried_sublist (r : Resolver Id) {attributes : List (String × Json)}
    (h : subFieldsText ∉ Table.names attributes) :
    (Table.names (carried r attributes)).Sublist (Table.names attributes) := by
  induction attributes with
  | nil => exact List.Sublist.refl []
  | cons e rest ih =>
    simp only [Table.names, List.map_cons, List.mem_cons, not_or] at h
    obtain ⟨hne, hrest⟩ := h
    rw [carried_cons]
    have hcarries := carries_parameter? r e
    cases hp : (parameter? r e.1 e.2 : Option (String × Json)) with
    | none => exact (ih hrest).cons e.1
    | some d =>
      rw [hp] at hcarries
      obtain hname | ⟨-, htext⟩ := hcarries.name_eq
      · rw [Option.toList_some, List.singleton_append, Table.names, List.map_cons, hname]
        exact (ih hrest).cons_cons e.1
      · exact absurd htext.symm hne

/-- A table with a name, taken apart at it. -/
theorem exists_split_of_mem_names {t : Table Json} {name : String} (h : name ∈ Table.names t) :
    ∃ before value after, t = before ++ (name, value) :: after := by
  obtain ⟨e, he, rfl⟩ := List.mem_map.1 h
  obtain ⟨before, after, rfl⟩ := List.append_of_mem he
  exact ⟨before, e.2, after, rfl⟩

/-- The parameters of attributes with distinct names: only sub-fields can stand twice among them. -/
theorem joined_carried (r : Resolver Id) {attributes : List (String × Json)}
    (h : Table.Distinct attributes) : ∃ t, Joined subFields (carried r attributes) t := by
  by_cases hmem : subFieldsText ∈ Table.names attributes
  · obtain ⟨front, v, back, rfl⟩ := exists_split_of_mem_names hmem
    have hnodup : (Table.names front ++ subFieldsText :: Table.names back).Nodup := by
      simpa [Table.Distinct, Table.names] using h
    obtain ⟨htext, hothers⟩ := List.nodup_cons.1 (List.nodup_middle.1 hnodup)
    rw [List.mem_append, not_or] at htext
    -- what the other attributes become has their names
    have hdistinct : Table.Distinct (carried r front ++ carried r back) := by
      refine List.Nodup.sublist ?_ hothers
      rw [Table.names_append]
      exact (names_carried_sublist r htext.1).append (names_carried_sublist r htext.2)
    rw [carried_append, carried_cons]
    cases hp : (parameter? r subFieldsText v : Option (String × Json)) with
    | none => exact ⟨_, .apart hdistinct⟩
    | some d =>
      obtain ⟨key, value⟩ := d
      obtain rfl : key = subFields := by
        rcases parameter?_name hp with hkey | ⟨-, -, hne⟩
        · exact hkey
        · exact absurd rfl hne
      rw [Option.toList_some, List.singleton_append]
      by_cases hfront : subFields ∈ Table.names (carried r front)
      · obtain ⟨before, first, between, hsplit⟩ := exists_split_of_mem_names hfront
        rw [hsplit] at hdistinct ⊢
        refine ⟨_, .twice ?_⟩
        simpa [Table.Distinct, Table.names] using hdistinct
      by_cases hback : subFields ∈ Table.names (carried r back)
      · obtain ⟨between, last, after, hsplit⟩ := exists_split_of_mem_names hback
        rw [hsplit] at hdistinct ⊢
        rw [← List.cons_append, ← List.append_assoc]
        refine ⟨_, .twice ?_⟩
        rw [Table.Distinct, Table.names, ← List.append_assoc, List.map_append, List.map_cons,
          List.nodup_middle] at hdistinct
        rw [Table.Distinct, Table.names, List.append_assoc, List.cons_append, List.map_append,
          List.map_cons, List.nodup_middle]
        simpa only [List.map_append, List.append_assoc] using hdistinct
      · refine ⟨_, .apart ?_⟩
        rw [Table.Distinct, Table.names, List.map_append, List.map_cons, List.nodup_middle,
          List.nodup_cons, List.mem_append, not_or, ← List.map_append]
        exact ⟨⟨hfront, hback⟩, hdistinct⟩
  · exact ⟨_, .apart (List.Nodup.sublist (names_carried_sublist r hmem) h)⟩

/-! ## Fields with nothing below them -/

/-- The type that is written for a kind; arrays have none. -/
def typeEntry (kind : Kind) : Table Json :=
  if kind = .array then [] else [(typeName, .str kind.name)]

/-- Nothing but a type is written for a kind. -/
theorem names_typeEntry {kind : Kind} {key : String} (h : key ∈ Table.names (typeEntry kind)) :
    key = typeName := by
  unfold typeEntry at h
  split at h
  · simp [Table.names] at h
  · simpa [Table.names] using h

/-- A kind other than that of objects gives plain values only. -/
theorem entries_node {kind : Kind} (h : kind ≠ .object) :
    kind.node.entries = plainEntries (typeEntry kind) := by
  unfold Kind.node typeEntry
  cases kind with
  | object => exact absurd rfl h
  | _ => rfl

/-- Nothing lies over the heading of a field of an opaque kind, nor of one that has nothing below
it and no target or groups. -/
theorem overlay_of_leaf (r : Resolver Id) {f : Field}
    (h : (Kind.of f).any Kind.isOpaque ∨
      (f.properties = none ∧ f.items = none ∧ f.path = none ∧ f.relations = none)) :
    (overlay r f : Node) = .empty := by
  rcases h with hopaque | ⟨hproperties, hitems, hpath, hrelations⟩
  · unfold overlay
    split
    · next hk => simp [hk, Kind.isOpaque] at hopaque
    · next hk => simp [hk, Kind.isOpaque] at hopaque
    · rw [if_pos hopaque]
      rfl
  · have hbelow : (below r f : Node) = .empty := by
      have hvisited : visited? f = none := by
        rw [visited?, hproperties, ite_self]
      rw [below, hvisited, Field.item?, hitems]
      rfl
    unfold overlay
    rw [hpath, hrelations]
    split
    · rfl
    · rfl
    · split
      · rfl
      · exact hbelow

/-- The attributes of a compiled field without anything below it, in order: its type and what
becomes of its attributes. -/
theorem entries_compile_of_leaf (r : Resolver Id) {f : Field} (hf : f.ReadsDistinct) {kind : Kind}
    (hkind : Kind.of f = some kind) (hobject : kind ≠ .object)
    (hleaf : kind.isOpaque ∨
      (f.properties = none ∧ f.items = none ∧ f.path = none ∧ f.relations = none)) :
    ∃ outcomes parameters,
      (∀ others, List.Forall₂ (Carries r) f.attributes others ↔ others = outcomes) ∧
      Joined subFields outcomes.reduceOption parameters ∧
      Node.entries (compile r f) = plainEntries (typeEntry kind ++ parameters) := by
  obtain ⟨parameters, hparameters⟩ := joined_carried r hf.distinct_attributes
  refine ⟨_, parameters, fun others => forall₂_carries_iff, ?_, ?_⟩
  · rw [reduceOption_outcomes]
    exact hparameters
  have hoverlay : (overlay r f : Node) = .empty := by
    refine overlay_of_leaf r ?_
    rw [hkind]
    exact hleaf
  have hheading : (heading r f : Node) = copyAttributes r f.attributes kind.node := by
    unfold heading
    rw [hkind]
  -- no attribute is copied onto the type, so the parameters all stand behind it
  have hstart : ∀ key ∈ Table.names (carried r f.attributes),
      key ∉ Table.names (typeEntry kind) := by
    intro key hkey htype
    obtain ⟨⟨key, value⟩, hmem, rfl⟩ := List.mem_map.1 hkey
    obtain ⟨e, he, hparameter⟩ := List.mem_filterMap.1 hmem
    have hcopied := copied_of_parameter? (hf.isRead.attributes e he) hparameter
    obtain rfl : key = typeName := names_typeEntry htype
    exact hcopied.untyped (by decide)
  rw [compile_eq_assign, hoverlay, Node.assign_empty, hheading, copyAttributes_eq,
    entries_node hobject, plainEntries, plainEntries, Table.extend_map,
    hparameters.extend_eq hstart]
  rfl

/-- A text with sub-fields in both forms, a list of references and a key of the modelling tool. -/
def titleField : Json :=
  .obj [("type", .str "string"), ("GUID", .str "a1"),
    ("fields", .obj [("raw", .obj [("type", .str "keyword")])]),
    ("copy_to", .arr [.obj [("keyId", .str "b1")], .obj [("keyId", .str "b2")]]),
    ("stringfields", .str "{}"), ("analyzer", .str "english")]

/-- The sub-fields of a title are given twice, and take the place of the first form and the value of
the last. -/
theorem entries_compile_of_leaf_title :
    let s : Scopes := ⟨titleField, .null, .null, .null⟩
    ∃ f, Field.ofJson titleField = .ok f ∧ f.ReadsDistinct ∧ Kind.of f = some .text ∧
      Kind.text ≠ .object ∧
      (f.properties = none ∧ f.items = none ∧ f.path = none ∧ f.relations = none) ∧
      ∃ outcomes parameters,
        (∀ others, List.Forall₂ (Carries s.resolver) f.attributes others ↔ others = outcomes) ∧
        Joined subFields outcomes.reduceOption parameters ∧
        Node.entries (compile s.resolver f) = plainEntries (typeEntry .text ++ parameters) := by
  have hdistinct : titleField.Distinct := by
    simp [titleField, Table.Distinct, Table.names]
  refine ⟨_, rfl, ⟨_, hdistinct, rfl⟩, rfl, by decide, ⟨rfl, rfl, rfl, rfl⟩, ?_⟩
  exact entries_compile_of_leaf _ ⟨_, hdistinct, rfl⟩ rfl (by decide) (.inr ⟨rfl, rfl, rfl, rfl⟩)

end SearchIndex.Mapping
