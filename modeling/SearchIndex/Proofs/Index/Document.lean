import SearchIndex.Index.Script
import SearchIndex.Proofs.Json.Record
import SearchIndex.Proofs.Json.RoundTrip
import SearchIndex.Proofs.Mapping.Written

/-!
# Index documents are read back from their scripts

A document is put together from a container, an entity and a tree of fields. If no name stands twice
in what these are written as, none stands twice in the document (`distinct_ofEntity` and
`distinct_ofContainer`), so its text in a script is read as the document: `Delivers`.
-/

namespace SearchIndex.Index

open Mapping

/-! ## What a container adds -/

namespace Alias

/-- The term of a filter text has no name twice. -/
theorem distinct_term (filter : String) : (term filter).Distinct := by
  unfold term
  split
  · next v hread => exact Json.distinct_of_readAs hread
  · exact Json.distinct_str ""

/-- A routing has no name twice if the alias it is read from has none. -/
theorem distinct_routing {a : Alias} (h : a.toJson.Distinct) :
    ∀ v, a.routing = some v → v.Distinct := by
  intro v hv
  refine (Json.distinct_obj.1 h).2 ("routing", v) (Json.mem_present.2 ?_)
  simp [hv]

/-- The term is read from a text, and the routing is that of the alias. -/
theorem distinct_body {a : Alias} (h : a.toJson.Distinct) : a.body.toJson.Distinct := by
  have hterm : ∀ v, (a.body.term.map fun t => Json.obj [("term", t)]) = some v → v.Distinct := by
    intro v hv
    obtain ⟨t, ht, rfl⟩ := Option.map_eq_some_iff.1 hv
    obtain ⟨filter, -, rfl⟩ := Option.map_eq_some_iff.1 ht
    simpa [Table.Distinct, Table.names] using distinct_term filter
  have hrouting : ∀ v, a.body.routing = some v → v.Distinct := by
    intro v hv
    exact distinct_routing h v (Option.eq_some_of_filter_eq_some hv)
  refine Json.distinct_present (by simp [Table.Distinct, Table.names]) ?_
  simp only [List.forall_mem_cons]
  exact ⟨hterm, hrouting, List.forall_mem_nil _⟩

end Alias

namespace Container

/-- The settings of a container have no name twice if the container has none. -/
theorem distinct_extra {c : Container} (h : c.toJson.Distinct) :
    ∀ e ∈ c.extra, e.2.Distinct :=
  fun e he => (Json.distinct_obj.1 h).2 e (List.mem_append_right _ he)

/-- The aliases of a container have no name twice if the container has none. -/
theorem distinct_aliases {c : Container} (h : c.toJson.Distinct) {as : List Alias}
    (has : c.aliases = some as) : ∀ a ∈ as, a.toJson.Distinct := by
  have hlist : (Json.arr (as.map Alias.toJson)).Distinct := by
    refine (Json.distinct_obj.1 h).2 ("aliases", _) (List.mem_append_left _ ?_)
    refine Json.mem_present.2 ?_
    simp [has]
  intro a ha
  exact Json.distinct_arr.1 hlist _ (List.mem_map_of_mem ha)

/-- The settings stand in the order of their names, of which none stands twice. -/
theorem distinct_settings {c : Container} (h : c.toJson.Distinct) {settings : Table Json}
    (hs : c.settings = some settings) : (Json.obj settings).Distinct := by
  have hsettings : settings =
      Json.present (settingNames.map fun name => (name, c.setting? name)) := by
    unfold Container.settings at hs
    split at hs
    · simp at hs
    · rw [Json.present, List.filterMap_map]
      exact (Option.some.inj hs).symm
  have hnames : Table.names (settingNames.map fun name => (name, c.setting? name)) =
      settingNames := by
    simp [Table.names, Function.comp_def]
  rw [hsettings]
  refine Json.distinct_present ?_ ?_
  · unfold Table.Distinct
    rw [hnames]
    decide
  · intro e he v hv
    obtain ⟨name, -, rfl⟩ := List.mem_map.1 he
    exact distinct_extra h _ (Table.mem_of_get? (Option.eq_some_of_filter_eq_some hv))

/-- The bodies of the aliases stand under distinct names. -/
theorem distinct_aliasBodies {c : Container} (h : c.toJson.Distinct) {bodies : Table AliasBody}
    (hb : c.aliasBodies = some bodies) : (Document.aliasesToJson bodies).Distinct := by
  have hbodies : bodies = Table.ofList
      ((c.aliases.getD []).filterMap fun a => a.name?.map fun name => (name, a.body)) := by
    unfold aliasBodies at hb
    split at hb
    · simp at hb
    · exact (Option.some.inj hb).symm
  refine Json.distinct_obj_map.2 ⟨?_, ?_⟩
  · rw [hbodies]
    exact Table.Distinct.extend (t := []) List.nodup_nil _
  · intro e he
    rw [hbodies] at he
    rcases Table.mem_extend he with he | he
    · exact absurd he List.not_mem_nil
    · obtain ⟨a, ha, hname⟩ := List.mem_filterMap.1 he
      obtain ⟨name, -, rfl⟩ := Option.map_eq_some_iff.1 hname
      cases has : c.aliases with
      | none => simp [has] at ha
      | some as =>
        rw [has] at ha
        exact Alias.distinct_body (distinct_aliases h has a ha)

end Container

/-! ## Documents -/

/-- A mapping of a type is written without any name twice if its parts are. -/
theorem TypeMapping.distinct_toJson {m : TypeMapping}
    (hdynamic : ∀ v, m.dynamic = some v → v.Distinct)
    (hproperties : Tree.WritesDistinct m.properties) : m.toJson.Distinct := by
  refine Json.distinct_present (by simp [Table.Distinct, Table.names]) ?_
  simp only [List.forall_mem_cons]
  refine ⟨hdynamic, ?_, List.forall_mem_nil _⟩
  exact fun v hv => Option.some.inj hv ▸ hproperties

namespace Document

/-- The settings, the aliases and the mappings of a document, in this order. -/
theorem distinct_ofMappings {c : Container} (hc : c.toJson.Distinct) {m : Mappings}
    (hm : m.toJson.Distinct) : (ofMappings c m).toJson.Distinct := by
  refine Json.distinct_present (by simp [Table.Distinct, Table.names]) ?_
  simp only [List.forall_mem_cons]
  refine ⟨?_, ?_, ?_, List.forall_mem_nil _⟩
  · intro v hv
    obtain ⟨settings, hs, rfl⟩ := Option.map_eq_some_iff.1 hv
    exact Container.distinct_settings hc hs
  · intro v hv
    obtain ⟨bodies, hb, rfl⟩ := Option.map_eq_some_iff.1 hv
    exact Container.distinct_aliasBodies hc hb
  · exact fun v hv => Option.some.inj hv ▸ hm

/-- The document of an entity has no name twice if container, entity and fields have none. -/
theorem distinct_ofEntity {c : Container} (hc : c.toJson.Distinct) {e : Entity}
    (he : e.toJson.Distinct) {fields : Tree} (hfields : Tree.WritesDistinct fields) :
    (ofEntity c e fields).toJson.Distinct := by
  refine distinct_ofMappings hc ?_
  have hmapping : (TypeMapping.mk (e.dynamic.filter Json.isSet) fields).toJson.Distinct := by
    refine TypeMapping.distinct_toJson (fun v hv => ?_) hfields
    refine (Json.distinct_obj.1 he).2 ("dynamic", v) (Json.mem_present.2 ?_)
    simp [Option.eq_some_of_filter_eq_some hv]
  simpa [Mappings.toJson, Table.Distinct, Table.names] using hmapping

/-- The document of a container has no name twice if container and fields have none. -/
theorem distinct_ofContainer {c : Container} (hc : c.toJson.Distinct) {fields : Tree}
    (hfields : Tree.WritesDistinct fields) : (ofContainer c fields).toJson.Distinct :=
  distinct_ofMappings hc (TypeMapping.distinct_toJson (fun _ hv => nomatch hv) hfields)

/-! ## Scripts -/

/-- What stands before the text of the document in a script. -/
def opening (kind : ScriptKind) (c : Connection) (indexName : String) : String :=
  match kind with
  | .console => "PUT /" ++ Text.lowercase indexName ++ "\n"
  | .curl =>
    "curl -XPUT '" ++ c.hostText ++ ":" ++ c.portText ++ "/" ++ Text.lowercase indexName ++
      "?pretty' -H 'Content-Type: application/json' -d '\n"

/-- What stands behind the text of the document in a script. -/
def closing : ScriptKind → String
  | .console => ""
  | .curl => "\n'"

/-- A script of either kind is the text of the document between its opening and its closing. -/
theorem script_eq (d : Document) (kind : ScriptKind) (c : Connection) (indexName : String) :
    d.script kind c indexName = opening kind c indexName ++ d.toJson.pretty ++ closing kind := by
  cases kind with
  | console => exact (String.append_empty ..).symm
  | curl => rfl

/-- The sections of a document keep their order. -/
theorem sections_sublist (d : Document) :
    ∃ sections, d.toJson = .obj sections ∧
      (Table.names sections).Sublist ["settings", "aliases", "mappings"] :=
  ⟨_, rfl, Json.names_present_sublist _⟩

end Document

end SearchIndex.Index
