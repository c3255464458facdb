import SearchIndex.Proofs.Except
import SearchIndex.Schema.Field

/-!
# What reading a field keeps

A document that reads as a field is an object, and each part of the field comes from one of its
members: `ReadFrom` lists the parts and `readFrom_of_ofJson` says that a field that was read has
them. `IsRead` holds of every field that some document reads as; it is handed down to properties and
elements.
-/

namespace SearchIndex.Schema

/-- All fields that may stand for an element. -/
def Items.fields : Items → List Field
  | .one f => [f]
  | .candidates fs => fs

namespace Field

/-- The typed keys of a field. All others are attributes. -/
def structuralNames : List String := ["type", "mode", "properties", "items", "path", "relations"]

section

variable (v : Json) (rest : List (String × Json))

theorem ofMembers_type :
    ofMembers (("type", v) :: rest) = do
      let tag ← tagOf v
      let f ← ofMembers rest
      return { f with tag } := rfl

theorem ofMembers_mode :
    ofMembers (("mode", v) :: rest) = do
      let f ← ofMembers rest
      return { f with mode := v.text? } := rfl

theorem ofMembers_properties :
    ofMembers (("properties", v) :: rest) = do
      let properties ← propertiesOf v
      let f ← ofMembers rest
      return { f with properties } := rfl

theorem ofMembers_items :
    ofMembers (("items", v) :: rest) = do
      let f ← ofMembers rest
      return { f with items := itemsOf v } := rfl

theorem ofMembers_path :
    ofMembers (("path", v) :: rest) = do
      let f ← ofMembers rest
      return { f with path := lenient (Json.listOf Reference.ofJson) v } := rfl

theorem ofMembers_relations :
    ofMembers (("relations", v) :: rest) = do
      let f ← ofMembers rest
      return { f with relations := lenient (Json.listOf Relation.ofJson) v } := rfl

/-- Any other key is an attribute, with its value as it stands. -/
theorem ofMembers_attribute {name : String} (h : name ∉ structuralNames) :
    ofMembers ((name, v) :: rest) = do
      let f ← ofMembers rest
      return { f with attributes := (name, v) :: f.attributes } := by
  simp only [structuralNames, List.mem_cons, List.not_mem_nil, or_false, not_or] at h
  obtain ⟨htype, hmode, hproperties, hitems, hpath, hrelations⟩ := h
  rw [ofMembers, if_neg htype, if_neg hmode, if_neg hproperties, if_neg hitems, if_neg hpath,
    if_neg hrelations]

end

/-- Where the parts of a field come from among the members of an object. -/
structure ReadFrom (members : List (String × Json)) (f : Field) : Prop where
  tag : ((Table.get? members "type").map tagOf).getD (.ok none) = .ok f.tag
  mode : f.mode = (Table.get? members "mode").bind Json.text?
  properties : ((Table.get? members "properties").map propertiesOf).getD (.ok none) =
    .ok f.properties
  items : f.items = (Table.get? members "items").bind itemsOf
  path : f.path = (Table.get? members "path").bind (lenient (Json.listOf Reference.ofJson))
  relations : f.relations =
    (Table.get? members "relations").bind (lenient (Json.listOf Relation.ofJson))
  attributes : f.attributes = members.filter fun m => !structuralNames.contains m.1

/-- A field that is read has its parts from the members of the object. -/
theorem readFrom_of_ofMembers {members : List (String × Json)} {f : Field}
    (h : ofMembers members = .ok f) : ReadFrom members f := by
  induction members generalizing f with
  | nil =>
    obtain rfl : empty = f := by simpa [ofMembers] using h
    constructor <;> rfl
  | cons m rest ih =>
    obtain ⟨name, v⟩ := m
    by_cases ht : name = "type"
    · rw [ofMembers, if_pos ht] at h
      obtain ⟨tag, htag, h⟩ := Except.bind_eq_ok.1 h
      obtain ⟨f', hf', h⟩ := Except.bind_eq_ok.1 h
      obtain rfl := Except.ok.inj h
      obtain ⟨-, hmode, hproperties, hitems, hpath, hrelations, hattributes⟩ := ih hf'
      constructor <;> simp [Table.get?, structuralNames, *]
    by_cases hp : name = "properties"
    · rw [ofMembers, if_neg ht, if_neg (by simp [hp]), if_pos hp] at h
      obtain ⟨properties, hproperties, h⟩ := Except.bind_eq_ok.1 h
      obtain ⟨f', hf', h⟩ := Except.bind_eq_ok.1 h
      obtain rfl := Except.ok.inj h
      obtain ⟨htag, hmode, -, hitems, hpath, hrelations, hattributes⟩ := ih hf'
      constructor <;> simp [Table.get?, structuralNames, *]
    -- the value of any other key is never refused
    simp only [ofMembers, if_neg ht, if_neg hp] at h
    repeat' split at h
    all_goals
      obtain ⟨f', hf', h⟩ := Except.bind_eq_ok.1 h
      obtain rfl := Except.ok.inj h
      obtain ⟨htag, hmode, hproperties, hitems, hpath, hrelations, hattributes⟩ := ih hf'
      constructor <;> simp [Table.get?, structuralNames, *]

/-- A field is read from the members of an object. -/
theorem ofJson_eq_ok {v : Json} {f : Field} :
    ofJson v = .ok f ↔ ∃ members, v = .obj members ∧ ofMembers members = .ok f := by
  cases v <;> simp [ofJson]

/-- A document that reads as a field is an object whose members are the parts of the field. -/
theorem readFrom_of_ofJson {v : Json} {f : Field} (h : ofJson v = .ok f) :
    ∃ members, v = .obj members ∧ ReadFrom members f := by
  obtain ⟨members, rfl, h⟩ := ofJson_eq_ok.1 h
  exact ⟨members, rfl, readFrom_of_ofMembers h⟩

/-- Fields read by name: each one from the value of its name. -/
theorem get?_of_entriesOf {members : List (String × Json)} {fs : List (String × Field)}
    (h : entriesOf members = .ok fs) {name : String} {f : Field}
    (hf : Table.get? fs name = some f) :
    ∃ v, Table.get? members name = some v ∧ ofJson v = .ok f := by
  induction members generalizing fs with
  | nil =>
    obtain rfl : [] = fs := by simpa [entriesOf] using h
    simp at hf
  | cons m rest ih =>
    obtain ⟨key, v⟩ := m
    rw [entriesOf] at h
    obtain ⟨f', hf', h⟩ := Except.bind_eq_ok.1 h
    obtain ⟨fs', hfs', h⟩ := Except.bind_eq_ok.1 h
    obtain rfl : (key, f') :: fs' = fs := Except.ok.inj h
    by_cases hk : key = name
    · obtain rfl : f' = f := by simpa [Table.get?, hk] using hf
      exact ⟨v, by simp [Table.get?, hk], hf'⟩
    · obtain ⟨w, hw, hread⟩ := ih hfs' (by simpa [Table.get?, hk] using hf)
      exact ⟨w, by simp [Table.get?, hk, hw], hread⟩

/-- Fields read by name have the names of the members. -/
theorem names_of_entriesOf {members : List (String × Json)} {fs : List (String × Field)}
    (h : entriesOf members = .ok fs) : Table.names fs = Table.names members := by
  induction members generalizing fs with
  | nil =>
    obtain rfl : [] = fs := by simpa [entriesOf] using h
    rfl
  | cons m rest ih =>
    obtain ⟨key, v⟩ := m
    rw [entriesOf] at h
    obtain ⟨f, -, h⟩ := Except.bind_eq_ok.1 h
    obtain ⟨fs', hfs', h⟩ := Except.bind_eq_ok.1 h
    obtain rfl : (key, f) :: fs' = fs := Except.ok.inj h
    exact congrArg (key :: ·) (ih hfs')

/-- Each of several fields is read from a member. -/
theorem mem_of_entriesOf {members : List (String × Json)} {fs : List (String × Field)}
    (h : entriesOf members = .ok fs) : ∀ e ∈ fs, ∃ v, (e.1, v) ∈ members ∧ ofJson v = .ok e.2 := by
  induction members generalizing fs with
  | nil =>
    obtain rfl : [] = fs := by simpa [entriesOf] using h
    simp
  | cons m rest ih =>
    obtain ⟨key, v⟩ := m
    rw [entriesOf] at h
    obtain ⟨f, hf, h⟩ := Except.bind_eq_ok.1 h
    obtain ⟨fs', hfs', h⟩ := Except.bind_eq_ok.1 h
    obtain rfl : (key, f) :: fs' = fs := Except.ok.inj h
    intro e he
    rcases List.mem_cons.1 he with rfl | he
    · exact ⟨v, List.mem_cons_self, hf⟩
    · obtain ⟨w, hw, hread⟩ := ih hfs' e he
      exact ⟨w, List.mem_cons_of_mem _ hw, hread⟩

/-- Properties are read from an object, field by field. -/
theorem ReadFrom.properties_eq_some {members : List (String × Json)} {f : Field}
    (h : ReadFrom members f) {fs : List (String × Field)} (hfs : f.properties = some fs) :
    ∃ properties, Table.get? members "properties" = some (.obj properties) ∧
      entriesOf properties = .ok fs := by
  have hread := h.properties
  rw [hfs] at hread
  cases hp : Table.get? members "properties" with
  | none => simp [hp] at hread
  | some v =>
    simp only [hp, Option.map_some, Option.getD_some] at hread
    cases v with
    | obj properties =>
      obtain ⟨fs', hfs', heq⟩ := Except.map_eq_ok.1 hread
      exact ⟨properties, rfl, Option.some.inj heq ▸ hfs'⟩
    | _ => simp [propertiesOf] at hread

/-- An object under `items` is the element, if it reads as a field. -/
theorem itemsOf_obj (members : List (String × Json)) :
    itemsOf (.obj members) = (ofJson (.obj members)).toOption.map .one := rfl

/-- The element that `items` stand for: the first candidate of a list. -/
def firstItem? : Json → Option Json
  | .arr candidates => candidates.head?
  | v => some v

/-- The element of an array field that takes part in the mapping. -/
def item? (f : Field) : Option Field := f.items.bind Items.first?

/-- The element of an array field is read from the element that `items` stand for. -/
theorem ReadFrom.item {members : List (String × Json)} {f g : Field} (h : ReadFrom members f)
    (hg : f.item? = some g) :
    ∃ v item, Table.get? members "items" = some v ∧ firstItem? v = some item ∧
      ofJson item = .ok g := by
  obtain ⟨items, hitems, hg⟩ := Option.bind_eq_some_iff.1 hg
  rw [h.items, Option.bind_eq_some_iff] at hitems
  obtain ⟨v, hv, hread⟩ := hitems
  cases v with
  | obj members' =>
    obtain ⟨f', hf', rfl⟩ := Option.map_eq_some_iff.1 hread
    obtain rfl : f' = g := by simpa [Items.first?] using hg
    exact ⟨_, _, hv, rfl, Except.toOption_eq_some.1 hf'⟩
  | arr candidates =>
    -- all candidates were read, and the first of them is the element
    obtain ⟨fs, hfs, rfl⟩ := Option.map_eq_some_iff.1 hread
    cases candidates with
    | nil =>
      obtain rfl : [] = fs := by simpa [candidatesOf] using hfs
      simp [Items.first?] at hg
    | cons c rest =>
      rw [candidatesOf] at hfs
      split at hfs
      · next f' fs' hc hrest =>
        obtain rfl := Option.some.inj hfs
        obtain rfl : f' = g := by simpa [Items.first?] using hg
        exact ⟨_, c, hv, rfl, hc⟩
      · simp at hfs
  | _ => simp [itemsOf] at hread

/-- Some document reads as the field. -/
def IsRead (f : Field) : Prop := ∃ v, ofJson v = .ok f

/-- Some document reads as each of the fields by name that were read. -/
theorem isRead_of_entriesOf {members : List (String × Json)} {fs : List (String × Field)}
    (h : entriesOf members = .ok fs) : ∀ e ∈ fs, IsRead e.2 := by
  intro e he
  obtain ⟨v, -, hv⟩ := mem_of_entriesOf h e he
  exact ⟨v, hv⟩

/-- The properties of a field that was read were read. -/
theorem IsRead.properties {f : Field} (h : IsRead f) {fs : List (String × Field)}
    (hfs : f.properties = some fs) : ∀ e ∈ fs, IsRead e.2 := by
  obtain ⟨v, hv⟩ := h
  obtain ⟨members, -, hread⟩ := readFrom_of_ofJson hv
  obtain ⟨properties, -, hproperties⟩ := hread.properties_eq_some hfs
  exact isRead_of_entriesOf hproperties

/-- The element of a field that was read was read. -/
theorem IsRead.item {f g : Field} (h : IsRead f) (hg : f.item? = some g) : IsRead g := by
  obtain ⟨v, hv⟩ := h
  obtain ⟨members, -, hread⟩ := readFrom_of_ofJson hv
  obtain ⟨-, item, -, -, hitem⟩ := hread.item hg
  exact ⟨item, hitem⟩

/-- Candidates are read one by one. -/
theorem values_of_candidatesOf {vs : List Json} {fs : List Field} (h : candidatesOf vs = some fs) :
    List.Forall₂ (fun v f => ofJson v = .ok f) vs fs := by
  induction vs generalizing fs with
  | nil =>
    obtain rfl : [] = fs := Option.some.inj h
    exact .nil
  | cons v rest ih =>
    rw [candidatesOf] at h
    split at h
    · next f fs' hf hrest =>
      obtain rfl := Option.some.inj h
      exact .cons hf (ih hrest)
    · exact nomatch h

/-- Some document reads as each of the candidates that were read. -/
theorem isRead_of_candidatesOf {vs : List Json} {fs : List Field} (h : candidatesOf vs = some fs) :
    ∀ f ∈ fs, IsRead f := by
  intro f hf
  obtain ⟨v, -, hv⟩ := Except.mem_of_values (values_of_candidatesOf h) f hf
  exact ⟨v, hv⟩

/-- The candidates of a field that was read were read. -/
theorem IsRead.items {f : Field} (h : IsRead f) {items : Items} (hitems : f.items = some items) :
    ∀ g ∈ items.fields, IsRead g := by
  obtain ⟨v, hv⟩ := h
  obtain ⟨members, -, hread⟩ := readFrom_of_ofJson hv
  rw [hread.items, Option.bind_eq_some_iff] at hitems
  obtain ⟨w, -, hw⟩ := hitems
  cases w with
  | obj members' =>
    rw [itemsOf_obj] at hw
    obtain ⟨g, hg, rfl⟩ := Option.map_eq_some_iff.1 hw
    exact List.forall_mem_singleton.2 ⟨_, Except.toOption_eq_some.1 hg⟩
  | arr vs =>
    obtain ⟨fs, hfs, rfl⟩ := Option.map_eq_some_iff.1 hw
    exact isRead_of_candidatesOf hfs
  | _ => simp [itemsOf] at hw

/-- No attribute of a field that was read has a typed key. -/
theorem IsRead.attributes {f : Field} (h : IsRead f) :
    ∀ e ∈ f.attributes, e.1 ∉ structuralNames := by
  obtain ⟨v, hv⟩ := h
  obtain ⟨members, -, hread⟩ := readFrom_of_ofJson hv
  intro e he
  rw [hread.attributes, List.mem_filter] at he
  simpa using he.2

/-- The type of a field that was read is read back. -/
theorem IsRead.tag {f : Field} (h : IsRead f) {tag : Tag} (htag : f.tag = some tag) :
    Tag.ofName tag.name = tag := by
  obtain ⟨v, hv⟩ := h
  obtain ⟨members, -, hread⟩ := readFrom_of_ofJson hv
  have hsome := hread.tag
  rw [htag] at hsome
  cases hget : Table.get? members "type" with
  | none => simp [hget] at hsome
  | some w =>
    cases w with
    | str s =>
      obtain rfl : .ofName s = tag := by simpa [hget, tagOf] using hsome
      rw [Tag.name_ofName]
    | _ => simp [hget, tagOf] at hsome

end Field

end SearchIndex.Schema
