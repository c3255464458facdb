import SearchIndex.Proofs.Json.Parsed
import SearchIndex.Proofs.Schema.Grammar

/-!
# Two ways to read a field from a text

A field is read straight from a text, or from the value that the text is read as. The first way sees
the keys of an object as they come: a typed key that comes twice is refused, as is a value that a
later one with its name would replace. The second way only sees what is left of them.

`reads_text_alike` says that the second way reads whatever the first one does, as the same field,
and that the first one does so for texts that repeat no key. Both are statements about the value
that stands in the text: it fits the shape of a field (`read_text_iff`), or it is of the grammar of
fields, and without repeated keys these are the same (`fits_of_accepted`). What the field has of
keys that are repeated is said by `ReadsLast`.
-/

namespace SearchIndex.Schema.Field

open Json (Holds KeysOnce Fits IsOptional)

/-- The shape of a field keeps everything. -/
theorem keeps_shape : shape.Keeps := by
  refine .record ?_
  simp only [List.forall_mem_cons]
  exact ⟨.nullable .string, .any, .nullable (.table .whole), .any, .any, .any,
    List.forall_mem_nil _⟩

/-- The field is read straight from the text iff a value stands in the text that fits the shape of
fields and is, with each name once, read as the field. -/
theorem read_text_iff {text : String} {f : Field} :
    read text = .ok f ↔
      ∃ v, Holds text v ∧ Fits shape shape v ∧ ofJson v.collapse = .ok f := by
  have hbind : read text = .ok f ↔ ∃ w, Json.readAs shape text = .ok w ∧ ofJson w = .ok f :=
    Except.bind_eq_ok
  simp only [hbind, Json.readAs_iff keeps_shape]
  constructor
  · rintro ⟨-, ⟨v, hholds, hfits, rfl⟩, hf⟩
    exact ⟨v, hholds, hfits, hf⟩
  · rintro ⟨v, hholds, hfits, hf⟩
    exact ⟨v.collapse, ⟨v, hholds, hfits, rfl⟩, hf⟩

/-! ## Values that fit -/

/-- What is expected under the keys of a field. -/
def members : Json.Members :=
  .record "SchemaField"
    [("type", .nullable .string), ("mode", .any),
     ("properties", .nullable (.object (.table .whole))),
     ("items", .any), ("path", .any), ("relations", .any)] true

theorem members?_shape : shape.members? = some members := rfl

/-- Anything may stand under the other keys. -/
theorem entry_of_ne {name : String} (htype : name ≠ "type") (hproperties : name ≠ "properties") :
    members.entry name = .any := by
  have htype' : "type" ≠ name := htype.symm
  have hproperties' : "properties" ≠ name := hproperties.symm
  simp only [members, Json.Members.entry, Table.get?, if_neg htype', if_neg hproperties',
    if_true]
  repeat' split
  all_goals rfl

/-- Properties are fields under any names, which may be repeated. -/
theorem fits_table {entries : List (String × Json)} (h : ∀ e ∈ entries, Fits shape shape e.2) :
    Fits shape (.nullable (.object (.table .whole))) (.obj entries) := by
  have hdeclared : (Table.names entries).filter (Json.Members.table .whole).declares = [] :=
    List.filter_eq_nil_iff.2 fun _ _ => Bool.false_ne_true
  refine .obj rfl ?_ rfl h
  rw [hdeclared]
  exact List.nodup_nil

/-- Without repeated keys, the documents of the grammar fit. -/
theorem fits_of_accepted {v : Json} (h : Accepted v) (hdistinct : v.Distinct) :
    Fits shape shape v := by
  induction h with
  | @intro ms htype hproperties hentries ih =>
  obtain ⟨hnames, hvalues⟩ := Json.distinct_obj.1 hdistinct
  refine .obj members?_shape (List.Nodup.sublist List.filter_sublist hnames) rfl ?_
  rintro ⟨name, w⟩ hm
  by_cases hname : name = "type"
  · subst hname
    rcases htype w hm with rfl | ⟨s, rfl⟩ <;> exact .scalar rfl rfl rfl
  by_cases hname' : name = "properties"
  · subst hname'
    rcases hproperties w hm with rfl | ⟨entries, rfl⟩
    · exact .scalar rfl rfl rfl
    · obtain ⟨-, hdistincts⟩ := Json.distinct_obj.1 (hvalues _ hm)
      exact fits_table fun e he => ih entries hm e he (hdistincts e he)
  · rw [entry_of_ne hname hname']
    exact Json.fits_any shape w

/-! ## Repeated keys -/

/-- The values that may stand for an element. -/
def elementsOf : Json → List Json
  | .arr vs => vs
  | v => [v]

/-- What a field has of the members of an object in which keys may come again: of each key the last
value, in the place of the first one. The fields below it are read from such values in turn. -/
structure ReadsLast (members : List (String × Json)) (f : Field) : Prop where
  /-- The attributes stand in the order in which their keys come first. -/
  names : Table.names f.attributes =
    ((Table.names members).filter fun name => name ∉ structuralNames).eraseDups
  /-- Each attribute has the value that comes last. -/
  values : ∀ name, name ∉ structuralNames →
    f.attribute? name = (Table.get? members.reverse name).map Json.collapse
  /-- So do the properties, for which any keys may be repeated. -/
  properties : ∀ fs, f.properties = some fs →
    ∃ entries, Table.get? members.reverse "properties" = some (.obj entries) ∧
      Table.names fs = (Table.names entries).eraseDups ∧
      ∀ name g, Table.get? fs name = some g →
        ∃ v, Table.get? entries.reverse name = some v ∧ ofJson v.collapse = .ok g
  /-- The candidates for an element stand in their order. -/
  items : ∀ items, f.items = some items →
    ∃ v, Table.get? members.reverse "items" = some v ∧
      List.Forall₂ (fun v g => ofJson v.collapse = .ok g) (elementsOf v) items.fields

/-- Under each key the value that comes last is left. -/
theorem get?_collapse (members : List (String × Json)) (name : String) :
    Table.get? (Table.ofList (Json.collapseMembers members)) name =
      (Table.get? members.reverse name).map Json.collapse := by
  rw [Table.get?_ofList, Json.collapseMembers_eq, ← List.map_reverse, Table.get?_map]

section ReadFrom

variable {members : List (String × Json)} {f : Field}
  (h : ReadFrom (Table.ofList (Json.collapseMembers members)) f)
include h

/-- The attributes are the other keys, each in the place where it came first. -/
theorem names_attributes : Table.names f.attributes =
    ((Table.names members).filter fun name => name ∉ structuralNames).eraseDups := by
  have hnames : Table.names f.attributes = (Table.names
      (Table.ofList (Json.collapseMembers members))).filter fun name => name ∉ structuralNames := by
    rw [h.attributes, Table.names, Table.names, List.filter_map]
    simp [Function.comp_def]
  rw [hnames, Table.names_ofList, Json.names_collapseMembers, filter_eraseDups]

/-- An attribute has the value that its key came with last. -/
theorem attribute?_collapse {name : String} (hname : name ∉ structuralNames) :
    f.attribute? name = (Table.get? members.reverse name).map Json.collapse := by
  rw [attribute?, h.attributes, Table.get?_filter fun name => !structuralNames.contains name,
    if_pos (by simpa using hname), get?_collapse]

/-- The properties are those of the last `properties`, by the same rule. -/
theorem properties_collapse {fs : List (String × Field)} (hfs : f.properties = some fs) :
    ∃ entries, Table.get? members.reverse "properties" = some (.obj entries) ∧
      Table.names fs = (Table.names entries).eraseDups ∧
      ∀ name g, Table.get? fs name = some g →
        ∃ v, Table.get? entries.reverse name = some v ∧ ofJson v.collapse = .ok g := by
  obtain ⟨ps, hps, hread⟩ := h.properties_eq_some hfs
  rw [get?_collapse, Option.map_eq_some_iff] at hps
  obtain ⟨w, hw, hcollapse⟩ := hps
  cases w with
  | obj entries =>
    obtain rfl := Json.obj.inj hcollapse
    refine ⟨entries, hw, ?_, fun name g hg => ?_⟩
    · rw [names_of_entriesOf hread, Table.names_ofList, Json.names_collapseMembers]
    · obtain ⟨v, hv, hvread⟩ := get?_of_entriesOf hread hg
      rw [get?_collapse, Option.map_eq_some_iff] at hv
      obtain ⟨v, hv, rfl⟩ := hv
      exact ⟨v, hv, hvread⟩
  | _ => exact nomatch hcollapse

/-- The items are those of the last `items`, by the same rule. -/
theorem items_collapse {items : Items} (hitems : f.items = some items) :
    ∃ v, Table.get? members.reverse "items" = some v ∧
      List.Forall₂ (fun v g => ofJson v.collapse = .ok g) (elementsOf v) items.fields := by
  rw [h.items, get?_collapse, Option.bind_eq_some_iff] at hitems
  obtain ⟨w, hw, hread⟩ := hitems
  obtain ⟨v, hv, rfl⟩ := Option.map_eq_some_iff.1 hw
  refine ⟨v, hv, ?_⟩
  cases v with
  | obj ms =>
    rw [Json.collapse, itemsOf_obj, Option.map_eq_some_iff] at hread
    obtain ⟨g, hg, rfl⟩ := hread
    exact .cons (Except.toOption_eq_some.1 hg) .nil
  | arr vs =>
    obtain ⟨fs, hfs, rfl⟩ := Option.map_eq_some_iff.1 hread
    rw [Json.collapseItems_eq] at hfs
    exact List.forall₂_map_left_iff.1 (values_of_candidatesOf hfs)
  | _ => simp [Json.collapse, itemsOf] at hread

end ReadFrom

/-- A field that is read from what is left of an object has the last value of each key. -/
theorem readsLast_of_ofJson {members : List (String × Json)} {f : Field}
    (h : ofJson (Json.obj members).collapse = .ok f) : ReadsLast members f := by
  have hread := readFrom_of_ofMembers h
  exact ⟨names_attributes hread, fun _ => attribute?_collapse hread,
    fun _ => properties_collapse hread, fun _ => items_collapse hread⟩

/-- What is read straight from a text is also read by way of the value of the text, with the same
field, in which repeated keys have their first place and their last value. A text that repeats no
key is read straight if it is read by way of its value. -/
theorem reads_text_alike (text : String) :
    (∀ f, read text = .ok f → ∃ members, Holds text (.obj members) ∧
        Json.read text = .ok (Json.obj members).collapse ∧
        ofJson (Json.obj members).collapse = .ok f) ∧
      (∀ members f, ofJson (Json.obj members).collapse = .ok f → ReadsLast members f) ∧
      ∀ v f, Json.read text = .ok v → KeysOnce text → ofJson v = .ok f → read text = .ok f := by
  refine ⟨?_, fun _ _ => readsLast_of_ofJson, ?_⟩
  · intro f hf
    obtain ⟨v, hholds, -, hread⟩ := read_text_iff.1 hf
    have hvalue : Json.read text = .ok v.collapse := Json.read_iff.2 ⟨v, hholds, rfl⟩
    cases v with
    | obj members => exact ⟨members, hholds, hvalue, hread⟩
    | _ => exact nomatch hread
  · -- without repeated keys, the value in the text is the value that is read
    intro v f hv honce hf
    obtain ⟨w, hholds, hdistinct⟩ := honce
    have hcollapse : w.collapse = w := Json.collapse_of_distinct hdistinct
    have hw : Json.read text = .ok w.collapse := Json.read_iff.2 ⟨w, hholds, rfl⟩
    rw [hcollapse, hv] at hw
    obtain rfl := Except.ok.inj hw
    have haccepted : Accepted v := (exists_ofJson_iff v).1 ⟨f, hf⟩
    refine read_text_iff.2 ⟨v, hholds, fits_of_accepted haccepted hdistinct, ?_⟩
    rwa [hcollapse]

/-- Of a repeated attribute the last value is left in the first place, whereas a repeated type is
only read by way of the value of the text. -/
example :
    let stores := "\x7b\"store\":null,\"index\":true,\"store\":false\x7d"
    let types := "\x7b\"type\":null,\"type\":\"id\"\x7d"
    (read stores).toOption.map Field.attributes =
        some [("store", .bool false), ("index", .bool true)] ∧
      (read types).toOption.isNone ∧ ((Json.read types).bind ofJson).toOption.isSome := by
  cbv

end SearchIndex.Schema.Field
