import SearchIndex.Index.Document
import SearchIndex.Proofs.Json.ReadBack

/-!
# The settings of a document

A container is read from a value with many keys, and most of them do not count. `ListsSettings` says
which ones are in the settings of its document, and in which order: neither the order of the keys of
the value nor a key that is not recognized or not set has an effect.

`documents_alike` puts this as a property of two values: if the settings that are set in either of
them are the same in both, the two containers have the same documents.
-/

namespace SearchIndex.Index

/-! ## What a container keeps of the value that it is read from -/

namespace Container

/-- What is read as a container is an object, and the container keeps the other members. -/
theorem eq_of_ofJson {v : Json} {c : Container} (h : ofJson v = .ok c) :
    ∃ members, v = .obj members ∧
      c.extra = members.filter fun m => m.1 ≠ "name" ∧ m.1 ≠ "aliases" := by
  cases v with
  | obj members =>
    obtain ⟨name, -, h⟩ := Except.bind_eq_ok.1 h
    obtain ⟨aliases, -, h⟩ := Except.bind_eq_ok.1 h
    exact ⟨members, rfl, by rw [← Except.ok.inj h]⟩
  | _ => exact nomatch h

/-- Apart from its name and its aliases, a container keeps every member. -/
theorem get?_extra {v : Json} {c : Container} (h : ofJson v = .ok c) {key : String}
    (hname : key ≠ "name") (haliases : key ≠ "aliases") :
    Table.get? c.extra key = v.get? key := by
  obtain ⟨members, rfl, hextra⟩ := eq_of_ofJson h
  rw [hextra, Table.get?_filter fun key => key ≠ "name" ∧ key ≠ "aliases"]
  exact if_pos (decide_eq_true ⟨hname, haliases⟩)

/-- Neither the name nor the aliases are a setting. -/
theorem setting?_eq {v : Json} {c : Container} (h : ofJson v = .ok c) {name : String}
    (hmem : name ∈ settingNames) : c.setting? name = (v.get? name).filter Json.isSet := by
  have hname : name ≠ "name" := by
    rintro rfl
    exact absurd hmem (by decide)
  have haliases : name ≠ "aliases" := by
    rintro rfl
    exact absurd hmem (by decide)
  rw [setting?, get?_extra h hname haliases]

/-- The settings that are set, as they are written. -/
def settingMembers (c : Container) : Table Json :=
  Json.present (settingNames.map fun name => (name, c.setting? name))

/-- A member is a setting iff its name is one of a setting and its value is set. -/
theorem mem_settingMembers {v : Json} {c : Container} (h : ofJson v = .ok c) {name : String}
    {x : Json} :
    (name, x) ∈ c.settingMembers ↔ name ∈ settingNames ∧ v.get? name = some x ∧ x.isSet := by
  rw [settingMembers, Json.mem_present, List.mem_map]
  constructor
  · rintro ⟨name', hmem, heq⟩
    obtain ⟨rfl, hx⟩ := Prod.mk.inj heq
    rw [setting?_eq h hmem] at hx
    exact ⟨hmem, Option.filter_eq_some_iff.1 hx⟩
  · rintro ⟨hmem, hx⟩
    refine ⟨name, hmem, Prod.ext rfl ?_⟩
    rw [setting?_eq h hmem]
    exact Option.filter_eq_some_iff.2 hx

/-- The settings stand in the order of the known ones. -/
theorem names_settingMembers (c : Container) :
    (Table.names c.settingMembers).Sublist settingNames := by
  have hnames : Table.names (settingNames.map fun name => (name, c.setting? name)) =
      settingNames := by
    simp [Table.names, Function.comp_def]
  exact hnames ▸ Json.names_present_sublist (settingNames.map fun name => (name, c.setting? name))

/-- There are no settings rather than an empty table of them. -/
theorem settings_eq (c : Container) :
    c.settings = if c.settingMembers = [] then none else some c.settingMembers := by
  have hmembers : c.settingMembers =
      settingNames.filterMap fun name => (c.setting? name).map fun v => (name, v) :=
    List.filterMap_map
  rw [settings, ← hmembers]
  cases c.settingMembers <;> rfl

end Container

/-! ## The section of the settings -/

/-- What the section of the settings holds of the value that the container was read from. -/
structure ListsSettings (v : Json) (settings? : Option Json) : Prop where
  /-- There is no section iff no recognized setting is set. -/
  absent_iff : settings? = none ↔
    ∀ name ∈ settingNames, ∀ x, v.get? name = some x → x.isSet = false
  /-- The recognized settings that are set stand in their own order, each with its value. -/
  listed : ∀ w, settings? = some w → ∃ settings : Table Json, w = .obj settings ∧
    (Table.names settings).Sublist settingNames ∧
    ∀ name x, (name, x) ∈ settings ↔ name ∈ settingNames ∧ v.get? name = some x ∧ x.isSet

namespace Document

open Container

/-- A document lists the settings of the value that its container is read from. -/
theorem listsSettings_ofMappings {v : Json} {c : Container} (h : Container.ofJson v = .ok c)
    (m : Mappings) : ListsSettings v ((ofMappings c m).toJson.get? "settings") := by
  have hget : (ofMappings c m).toJson.get? "settings" =
      if c.settingMembers = [] then none else some (.obj c.settingMembers) := by
    have hsettings : (ofMappings c m).toJson.get? "settings" = c.settings.map .obj := by
      simp [toJson, Json.get?, ofMappings]
    rw [hsettings, settings_eq, apply_ite (Option.map Json.obj)]
    rfl
  rw [hget]
  constructor
  case absent_iff =>
    -- nothing is listed iff no name of a setting has a value that is set
    rw [ite_eq_left_iff]
    simp only [reduceCtorEq, imp_false, not_not, List.eq_nil_iff_forall_not_mem, Prod.forall,
      mem_settingMembers h, not_and, Bool.not_eq_true]
    constructor
    · intro hnone name hmem x hx
      exact hnone name x hmem hx
    · intro hnone name x hmem hx
      exact hnone name hmem x hx
  case listed =>
    intro w hw
    split at hw
    · exact nomatch hw
    · obtain rfl := Option.some.inj hw
      exact ⟨_, rfl, names_settingMembers c, fun name x => mem_settingMembers h⟩

end Document

/-! ## Two values -/

/-- The recognized settings that are set in either of the values are the same in both. -/
def SetAlike (v v' : Json) : Prop :=
  ∀ name ∈ settingNames, ∀ x, x.isSet → (v.get? name = some x ↔ v'.get? name = some x)

/-- Two values are set alike iff they have the same list of set settings. -/
theorem setAlike_iff {v v' : Json} :
    SetAlike v v' ↔ settingNames.map (fun name => (v.get? name).filter Json.isSet) =
      settingNames.map fun name => (v'.get? name).filter Json.isSet := by
  rw [List.map_inj_left]
  refine forall₂_congr fun name _ => ?_
  rw [Option.ext_iff]
  refine forall_congr' fun x => ?_
  rw [Option.filter_eq_some_iff, Option.filter_eq_some_iff, and_congr_left_iff]

/-- No other key and no order of the keys is in the settings. -/
theorem Container.settings_eq_of_setAlike {v v' : Json} {c c' : Container}
    (h : Container.ofJson v = .ok c) (h' : Container.ofJson v' = .ok c') (halike : SetAlike v v') :
    c.settings = c'.settings := by
  have hmembers : c.settingMembers = c'.settingMembers := by
    refine congrArg Json.present (List.map_congr_left fun name hmem => ?_)
    rw [setting?_eq h hmem, setting?_eq h' hmem]
    rw [List.map_inj_left.1 (setAlike_iff.1 halike) name hmem]
  rw [settings_eq, settings_eq, hmembers]

/-- The aliases and the settings that are set are all that the documents have of the value that a
container is read from, and each setting stands there as it was given. -/
theorem documents_alike {v v' : Json} {c c' : Container} (h : Container.ofJson v = .ok c)
    (h' : Container.ofJson v' = .ok c') (haliases : c.aliases = c'.aliases)
    (halike : SetAlike v v') :
    (∀ e fields, Document.ofEntity c e fields = Document.ofEntity c' e fields) ∧
      (∀ fields, Document.ofContainer c fields = Document.ofContainer c' fields) ∧
      ∀ m, ListsSettings v ((Document.ofMappings c m).toJson.get? "settings") := by
  have hsections : ∀ m, Document.ofMappings c m = Document.ofMappings c' m := by
    intro m
    rw [Document.ofMappings, Document.ofMappings, Container.settings_eq_of_setAlike h h' halike,
      Container.aliasBodies, Container.aliasBodies, haliases]
  exact ⟨fun e fields => hsections _, fun fields => hsections _,
    Document.listsSettings_ofMappings h⟩

/-- A replica count of zero is as good as none, an empty analysis is a setting, and other keys do
not count. -/
theorem documents_alike_reordered :
    let v := Json.obj [("name", .str "Shop"), ("number_of_shards", .num (.integer 3)),
      ("number_of_replicas", .num (.integer 0)), ("comments", .str "old"), ("analysis", .obj [])]
    let v' := Json.obj [("analysis", .obj []), ("refresh_interval", .str ""), ("aliases", .null),
      ("number_of_shards", .num (.integer 3)), ("name", .str "Shop")]
    ∃ c c', Container.ofJson v = .ok c ∧ Container.ofJson v' = .ok c' ∧
      c.aliases = c'.aliases ∧ SetAlike v v' ∧
      (∀ fields, Document.ofContainer c fields = Document.ofContainer c' fields) ∧
      c.settings = some [("number_of_shards", .num (.integer 3)), ("analysis", .obj [])] := by
  intro v v'
  have halike : SetAlike v v' := setAlike_iff.2 rfl
  have h : Container.ofJson v = .ok _ := rfl
  have h' : Container.ofJson v' = .ok _ := rfl
  exact ⟨_, _, h, h', rfl, halike, (documents_alike h h' rfl halike).2.1, rfl⟩

end SearchIndex.Index
