import SearchIndex.Proofs.Json.Grammar
import SearchIndex.Proofs.Schema.Reading

/-!
# Which documents read as fields

`Accepted` is the grammar of the documents that read as fields. Only `type` and `properties` can
make a document fail, at any depth that is reached through `properties`. The other typed keys may
hold anything: `WellShaped` says what is read under them, and `ofJson_without` that anything else
reads like a missing key. A list of candidates is well-shaped only if every one of them reads.

`reads_by_grammar` puts this together with what becomes of the type and of the other keys.
-/

namespace SearchIndex.Schema

open Json (IsOptional IsText IsList IsRecord)

/-- What a reference may be. -/
def IsReference : Json → Prop := IsRecord [("keyId", IsOptional IsText)]

/-- What a child may be. -/
def IsChild : Json → Prop := IsRecord [("name", IsOptional IsText)]

/-- What a relation may be. -/
def IsRelation : Json → Prop :=
  IsRecord [("parent", IsOptional IsText), ("children", IsOptional (IsList IsChild))]

/-- A reference is read iff it is of the grammar. -/
theorem exists_reference_iff (v : Json) : (∃ r, Reference.ofJson v = .ok r) ↔ IsReference v := by
  have hfields : Table.Distinct [("keyId", IsOptional IsText)] := by
    simp [Table.Distinct, Table.names]
  refine Json.exists_recordOf_iff hfields "Reference" (fun t => ?_) v
  rw [List.forall_mem_singleton, ← Json.exists_optional_iff fun _ => Json.exists_textOf_iff]
  simp [Except.exists_bind_eq_ok, pure, Except.pure]

/-- A child is read iff it is of the grammar. -/
theorem exists_child_iff (v : Json) : (∃ c, Child.ofJson v = .ok c) ↔ IsChild v := by
  have hfields : Table.Distinct [("name", IsOptional IsText)] := by
    simp [Table.Distinct, Table.names]
  refine Json.exists_recordOf_iff hfields "JoinChild" (fun t => ?_) v
  rw [List.forall_mem_singleton, ← Json.exists_optional_iff fun _ => Json.exists_textOf_iff]
  simp [Except.exists_bind_eq_ok, pure, Except.pure]

/-- A relation is read iff it is of the grammar. -/
theorem exists_relation_iff (v : Json) : (∃ r, Relation.ofJson v = .ok r) ↔ IsRelation v := by
  have hfields : Table.Distinct [("parent", IsOptional IsText),
      ("children", IsOptional (IsList IsChild))] := by
    simp [Table.Distinct, Table.names]
  refine Json.exists_recordOf_iff hfields "JoinRelation" (fun t => ?_) v
  rw [List.forall_mem_cons, List.forall_mem_singleton,
    ← Json.exists_optional_iff fun _ => Json.exists_textOf_iff,
    ← Json.exists_optional_iff fun _ => Json.exists_listOf_iff exists_child_iff]
  simp [Except.exists_bind_eq_ok, pure, Except.pure]

namespace Field

/-! ## Documents -/

/-- The documents that read as fields: objects whose `type` is a text or `null` and whose
`properties` are `null` or an object of such documents. Both may be missing. -/
inductive Accepted : Json → Prop
  | intro {members : List (String × Json)}
      (type : ∀ v, ("type", v) ∈ members → IsOptional IsText v)
      (properties : ∀ v, ("properties", v) ∈ members → v = .null ∨ ∃ entries, v = .obj entries)
      (entries : ∀ entries, ("properties", .obj entries) ∈ members →
        ∀ e ∈ entries, Accepted e.2) : Accepted (.obj members)

/-- What `properties` may hold. -/
def IsProperties (v : Json) : Prop := ∃ entries, v = .obj entries ∧ ∀ e ∈ entries, Accepted e.2

/-- An object is accepted iff type and properties hold what they may. -/
theorem accepted_obj_iff {members : List (String × Json)} :
    Accepted (.obj members) ↔ ∀ e ∈ members, (e.1 = "type" → IsOptional IsText e.2) ∧
      (e.1 = "properties" → IsOptional IsProperties e.2) := by
  constructor
  · rintro ⟨htype, hproperties, hentries⟩ ⟨name, v⟩ he
    refine ⟨?_, ?_⟩
    · rintro rfl
      exact htype v he
    · rintro rfl
      refine (hproperties v he).imp_right ?_
      rintro ⟨entries, rfl⟩
      exact ⟨entries, rfl, hentries entries he⟩
  · intro h
    refine ⟨fun v hv => (h _ hv).1 rfl, fun v hv => ?_, fun entries hv => ?_⟩
    · refine ((h _ hv).2 rfl).imp_right ?_
      rintro ⟨entries, rfl, -⟩
      exact ⟨entries, rfl⟩
    · rcases (h _ hv).2 rfl with hnull | ⟨entries', heq, hentries⟩
      · exact absurd hnull Json.noConfusion
      · exact Json.obj.inj heq ▸ hentries

/-- A type is read from a text, or from `null`. -/
theorem exists_tagOf_iff {v : Json} : (∃ tag, tagOf v = .ok tag) ↔ IsOptional IsText v := by
  cases v <;> simp [tagOf, IsOptional, IsText]

/-- Of the keys of a field only `type` and `properties` can be refused. -/
theorem exists_ofMembers_cons {name : String} {v : Json} {rest : List (String × Json)} :
    (∃ f, ofMembers ((name, v) :: rest) = .ok f) ↔
      ((name = "type" → ∃ tag, tagOf v = .ok tag) ∧
        (name = "properties" → ∃ properties, propertiesOf v = .ok properties)) ∧
      ∃ f, ofMembers rest = .ok f := by
  by_cases htype : name = "type"
  · subst htype
    rw [ofMembers_type]
    cases tagOf v <;> cases ofMembers rest <;> simp [bind, Except.bind, pure, Except.pure]
  by_cases hproperties : name = "properties"
  · subst hproperties
    rw [ofMembers_properties]
    cases propertiesOf v <;> cases ofMembers rest <;> simp [bind, Except.bind, pure, Except.pure]
  simp only [ofMembers, htype, hproperties, if_false, false_implies, and_self, true_and]
  repeat' split
  all_goals cases ofMembers rest <;> simp [bind, Except.bind, pure, Except.pure]

mutual

/-- A document reads as a field iff it is of the grammar. -/
theorem exists_ofJson_iff (v : Json) : (∃ f, ofJson v = .ok f) ↔ Accepted v := by
  cases v with
  | obj members =>
    rw [accepted_obj_iff]
    exact exists_ofMembers_iff members
  | _ =>
    constructor
    · rintro ⟨f, hf⟩
      exact nomatch hf
    · rintro ⟨⟩

/-- Members are read iff type and properties hold what they may. -/
theorem exists_ofMembers_iff (members : List (String × Json)) :
    (∃ f, ofMembers members = .ok f) ↔ ∀ e ∈ members,
      (e.1 = "type" → IsOptional IsText e.2) ∧
        (e.1 = "properties" → IsOptional IsProperties e.2) := by
  cases members with
  | nil => simp [ofMembers]
  | cons m rest =>
    obtain ⟨name, v⟩ := m
    rw [exists_ofMembers_cons, List.forall_mem_cons, exists_ofMembers_iff rest, exists_tagOf_iff,
      exists_propertiesOf_iff v]

/-- Properties are read iff they are `null` or an object of accepted documents. -/
theorem exists_propertiesOf_iff (v : Json) :
    (∃ properties, propertiesOf v = .ok properties) ↔ IsOptional IsProperties v := by
  cases v with
  | obj members =>
    have hentries := exists_entriesOf_iff members
    simpa [propertiesOf, IsOptional, IsProperties, Except.map_eq_ok] using hentries
  | _ => simp [propertiesOf, IsOptional, IsProperties]

/-- Fields by name are read iff each of them is accepted. -/
theorem exists_entriesOf_iff (members : List (String × Json)) :
    (∃ fs, entriesOf members = .ok fs) ↔ ∀ e ∈ members, Accepted e.2 := by
  cases members with
  | nil => simp [entriesOf]
  | cons m rest =>
    obtain ⟨name, v⟩ := m
    rw [List.forall_mem_cons, ← exists_ofJson_iff v, ← exists_entriesOf_iff rest, entriesOf]
    cases ofJson v <;> cases entriesOf rest <;> simp [bind, Except.bind, pure, Except.pure]

end

/-! ## Lenient keys -/

/-- The keys under which an ill-shaped value reads like a missing one. -/
def lenientNames : List String := ["mode", "items", "path", "relations"]

/-- What is read under a lenient key: a mode is a text, items are a field or a list of fields, and
the others are lists of references and of relations. -/
def WellShaped : String → Json → Prop
  | "mode", v => IsText v
  | "items", v => Accepted v ∨ IsList Accepted v
  | "path", v => IsList IsReference v
  | "relations", v => IsList IsRelation v
  | _, _ => False

/-- The field has something under a lenient key. -/
def Has (f : Field) : String → Prop
  | "mode" => f.mode.isSome
  | "items" => f.items.isSome
  | "path" => f.path.isSome
  | "relations" => f.relations.isSome
  | _ => False

/-- Candidates are read iff each of them is accepted. -/
theorem isSome_candidatesOf_iff {vs : List Json} :
    (candidatesOf vs).isSome ↔ ∀ v ∈ vs, Accepted v := by
  induction vs with
  | nil => simp [candidatesOf]
  | cons v rest ih =>
    rw [List.forall_mem_cons, ← ih, ← exists_ofJson_iff, candidatesOf]
    cases ofJson v <;> cases candidatesOf rest <;> simp

/-- Lenient reading gives something iff the value is of the grammar. -/
theorem isSome_lenient_iff {α : Type} {P : Json → Prop} {read : Json → Except Json.Error α}
    (hread : ∀ v, (∃ a, read v = .ok a) ↔ P v) {v : Json} : (lenient read v).isSome ↔ P v := by
  rw [lenient, ← hread]
  cases read v <;> simp [Except.toOption]

/-- Texts, and nothing else, give a text. -/
theorem isSome_text?_iff {v : Json} : v.text?.isSome ↔ IsText v := by
  cases v <;> simp [Json.text?, IsText]

/-- Items are read iff they are an accepted document or a list of such. -/
theorem isSome_itemsOf_iff {v : Json} :
    (itemsOf v).isSome ↔ Accepted v ∨ IsList Accepted v := by
  cases v with
  | obj members =>
    have hlist : ¬ IsList Accepted (.obj members) := by simp [IsList]
    rw [or_iff_left hlist, ← exists_ofJson_iff, itemsOf_obj, Option.isSome_map]
    cases ofJson (.obj members) <;> simp [Except.toOption]
  | arr vs =>
    have hone : ¬ Accepted (.arr vs) := by rintro ⟨⟩
    rw [or_iff_right hone, itemsOf, Option.isSome_map, isSome_candidatesOf_iff]
    simp [IsList]
  | _ => simp [itemsOf, IsList, ← exists_ofJson_iff, ofJson]

/-- A field that was read has something under a lenient key iff a well-shaped value stands there. -/
theorem ReadFrom.has_iff {members : List (String × Json)} {f : Field} (h : ReadFrom members f)
    {name : String} (hname : name ∈ lenientNames) :
    f.Has name ↔ ∃ v, Table.get? members name = some v ∧ WellShaped name v := by
  have hbind : ∀ {α : Type} (o : Option Json) (read : Json → Option α) {P : Json → Prop},
      (∀ v, (read v).isSome ↔ P v) → ((o.bind read).isSome ↔ ∃ v, o = some v ∧ P v) := by
    intro α o read P hP
    cases o <;> simp [hP]
  simp only [lenientNames, List.mem_cons, List.not_mem_nil, or_false] at hname
  rcases hname with rfl | rfl | rfl | rfl
  · rw [Has, h.mode]
    exact hbind _ _ fun v => isSome_text?_iff
  · rw [Has, h.items]
    exact hbind _ _ fun v => isSome_itemsOf_iff
  · rw [Has, h.path]
    exact hbind _ _ fun v =>
      isSome_lenient_iff fun _ => Json.exists_listOf_iff exists_reference_iff
  · rw [Has, h.relations]
    exact hbind _ _ fun v =>
      isSome_lenient_iff fun _ => Json.exists_listOf_iff exists_relation_iff

/-- What is read from two values is the same if the values are, or if nothing is read from either.
-/
theorem eq_of_agree_or_none {α : Type} {read : Json → Option α} {x x' : Option Json}
    {o o' : Option α} (h : o = x.bind read) (h' : o' = x'.bind read)
    (hagree : x = x' ∨ ¬ o.isSome ∧ ¬ o'.isSome) : o = o' := by
  rcases hagree with rfl | ⟨ho, ho'⟩
  · rw [h, h']
  · rw [Option.not_isSome_iff_eq_none.1 ho, Option.not_isSome_iff_eq_none.1 ho']

/-- Two fields are equal if what they are read from agrees under each typed key, lenient keys apart
under which neither has anything, and if they have the same attributes. -/
theorem ReadFrom.eq_of_agree {members members' : List (String × Json)} {f f' : Field}
    (h : ReadFrom members f) (h' : ReadFrom members' f')
    (htype : Table.get? members "type" = Table.get? members' "type")
    (hproperties : Table.get? members "properties" = Table.get? members' "properties")
    (hlenient : ∀ name ∈ lenientNames,
      Table.get? members name = Table.get? members' name ∨ ¬ f.Has name ∧ ¬ f'.Has name)
    (hattributes : f.attributes = f'.attributes) : f = f' := by
  have htag : f.tag = f'.tag := by
    have htag := h.tag
    rw [htype, h'.tag] at htag
    exact (Except.ok.inj htag).symm
  have hnested : f.properties = f'.properties := by
    have hnested := h.properties
    rw [hproperties, h'.properties] at hnested
    exact (Except.ok.inj hnested).symm
  have hmode := eq_of_agree_or_none h.mode h'.mode (hlenient "mode" (by decide))
  have hitems := eq_of_agree_or_none h.items h'.items (hlenient "items" (by decide))
  have hpath := eq_of_agree_or_none h.path h'.path (hlenient "path" (by decide))
  have hrelations := eq_of_agree_or_none h.relations h'.relations (hlenient "relations" (by decide))
  cases f
  cases f'
  simp_all

/-- The members without a key. -/
def without (name : String) (members : List (String × Json)) : List (String × Json) :=
  members.filter fun m => m.1 ≠ name

/-- Without a key, the other keys stay. -/
theorem get?_without (name other : String) (members : List (String × Json)) :
    Table.get? (without name members) other =
      if other = name then none else Table.get? members other := by
  rw [without, Table.get?_filter fun key => key ≠ name]
  by_cases h : other = name <;> simp [h]

/-- A property that holds under the key anyway holds of all members iff it holds of the others. -/
theorem forall_mem_without {P : String × Json → Prop} {name : String}
    (members : List (String × Json)) (h : ∀ e ∈ members, e.1 = name → P e) :
    (∀ e ∈ without name members, P e) ↔ ∀ e ∈ members, P e := by
  constructor
  · intro hkept e he
    by_cases hname : e.1 = name
    · exact h e he hname
    · exact hkept e (List.mem_filter.2 ⟨he, by simpa using hname⟩)
  · intro hall e he
    exact hall e (List.mem_filter.1 he).1

/-- An ill-shaped value under a lenient key reads like a missing key. -/
theorem ofJson_without {members : List (String × Json)} {name : String}
    (hname : name ∈ lenientNames)
    (hill : ∀ v, Table.get? members name = some v → ¬ WellShaped name v) (f : Field) :
    ofJson (.obj (without name members)) = .ok f ↔ ofJson (.obj members) = .ok f := by
  obtain ⟨htype, hproperties, hstructural⟩ : name ≠ "type" ∧ name ≠ "properties" ∧
      name ∈ structuralNames := by
    clear hill
    revert name
    decide
  -- the key cannot make a document fail, since only the type and the properties can
  have hexists : (∃ f, ofMembers (without name members) = .ok f) ↔
      ∃ f, ofMembers members = .ok f := by
    rw [exists_ofMembers_iff, exists_ofMembers_iff, forall_mem_without]
    rintro e - rfl
    exact ⟨fun h => absurd h htype, fun h => absurd h hproperties⟩
  -- nothing is read under the key itself, and every other part comes from the same members
  have hequal : ∀ f f', ofMembers (without name members) = .ok f → ofMembers members = .ok f' →
      f = f' := by
    intro f f' hf hf'
    have h := readFrom_of_ofMembers hf
    have h' := readFrom_of_ofMembers hf'
    refine h.eq_of_agree h' ?_ ?_ ?_ ?_
    · rw [get?_without, if_neg htype.symm]
    · rw [get?_without, if_neg hproperties.symm]
    · intro other hother
      by_cases heq : other = name
      · subst heq
        right
        rw [h.has_iff hother, h'.has_iff hother, get?_without, if_pos rfl]
        refine ⟨by simp, ?_⟩
        rintro ⟨v, hv, hshape⟩
        exact hill v hv hshape
      · left
        rw [get?_without, if_neg heq]
    · rw [h.attributes, h'.attributes, without, List.filter_filter]
      refine List.filter_congr fun m _ => ?_
      by_cases heq : m.1 = name
      · simp [heq, hstructural]
      · simp [heq]
  rw [ofJson, ofJson]
  constructor
  · intro hf
    obtain ⟨f', hf'⟩ := hexists.1 ⟨f, hf⟩
    rw [hequal f f' hf hf', hf']
  · intro hf
    obtain ⟨f', hf'⟩ := hexists.2 ⟨f, hf⟩
    rw [← hequal f' f hf' hf, hf']

/-! ## All of it -/

/-- Under no lenient key is `null` well-shaped. -/
theorem not_wellShaped_null {name : String} (hname : name ∈ lenientNames) :
    ¬ WellShaped name .null := by
  have hone : ¬ Accepted .null := by rintro ⟨⟩
  simp only [lenientNames, List.mem_cons, List.not_mem_nil, or_false] at hname
  rcases hname with rfl | rfl | rfl | rfl <;> simp [WellShaped, IsText, IsList, hone]

/-- The type is written first. -/
theorem get?_type_toJson {f : Field} {tag : Tag} (h : f.tag = some tag) :
    (toJson f).get? "type" = some (.str tag.name) := by
  obtain ⟨_, mode, properties, items, path, relations, attributes⟩ := f
  obtain rfl := h
  rfl

/-- What becomes of the keys of an object that is read as a field. -/
structure ReadsByGrammar (members : List (String × Json)) : Prop where
  /-- A value under a lenient key that is `null` or ill-shaped reads like a missing key. -/
  lenient : ∀ name ∈ lenientNames,
    (∀ v, Table.get? members name = some v → v = .null ∨ ¬ WellShaped name v) → ∀ f,
      ofJson (.obj members) = .ok f ↔ ofJson (.obj (without name members)) = .ok f
  /-- The field has something under a lenient key iff a well-shaped value stands there. -/
  kept : ∀ f, ofJson (.obj members) = .ok f → ∀ name ∈ lenientNames,
    (f.Has name ↔ ∃ v, Table.get? members name = some v ∧ WellShaped name v)
  /-- All keys that are not typed are attributes, in order and with their values. -/
  attributes : ∀ f, ofJson (.obj members) = .ok f →
    f.attributes = members.filter fun m => m.1 ∉ structuralNames
  /-- Every type is written as it was read. -/
  type : ∀ f s, ofJson (.obj members) = .ok f → Table.get? members "type" = some (.str s) →
    (toJson f).get? "type" = some (.str s)

/-- An object is read by the grammar of fields. -/
theorem readsByGrammar (members : List (String × Json)) : ReadsByGrammar members where
  lenient := by
    intro name hname hill f
    refine (ofJson_without hname (fun v hv => ?_) f).symm
    rcases hill v hv with rfl | hshape
    · exact not_wellShaped_null hname
    · exact hshape
  kept := fun _ hf _ hname => (readFrom_of_ofMembers hf).has_iff hname
  attributes := by
    intro f hf
    rw [(readFrom_of_ofMembers hf).attributes]
    refine List.filter_congr fun m _ => ?_
    simp
  type := by
    intro f s hf hs
    have htag := (readFrom_of_ofMembers hf).tag
    rw [hs] at htag
    rw [get?_type_toJson (Except.ok.inj htag).symm, Tag.name_ofName]

/-- The documents of the grammar read as fields and no others do, and of an object only its type and
its properties count for that. -/
theorem reads_by_grammar :
    (∀ v, (∃ f, ofJson v = .ok f) ↔ Accepted v) ∧ ∀ members, ReadsByGrammar members :=
  ⟨exists_ofJson_iff, readsByGrammar⟩

end Field

end SearchIndex.Schema
