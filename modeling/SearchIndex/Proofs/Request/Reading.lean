import SearchIndex.Proofs.Json.Distinct
import SearchIndex.Proofs.Json.Record
import SearchIndex.Request.Container

/-!
# Requests that were read have distinct names

What is read from a text has no name twice in an object, and the records of a request are read part
by part. So no name stands twice in any document that a request holds, nor in the request as it is
written: `EntityRequest.distinct_of_read` and `ContainerRequest.distinct_of_read`.
-/

namespace SearchIndex

open SearchIndex.Except (Yields yields_ok yields_error yields_true)

/-- A text is written without names. -/
theorem Json.distinct_of_texts {text : Option String} :
    ∀ v, text.map Json.str = some v → v.Distinct := by
  intro v hv
  obtain ⟨s, -, rfl⟩ := Option.map_eq_some_iff.1 hv
  exact Json.distinct_str s

namespace Index

/-! ## The records of a request -/

/-- An entity has no name twice if its document has none. -/
theorem Entity.yields_ofJson (v : Json) (hv : v.Distinct) :
    Yields (fun e : Entity => e.toJson.Distinct) (Entity.ofJson v) := by
  refine (Json.yields_recordOf hv _ _).bind fun t ht => ?_
  refine (yields_true _).bind fun collectionName _ => ?_
  refine (Json.yields_optional ht (fun _ hw => yields_ok hw) "dynamic").bind
    fun dynamic hdynamic => ?_
  refine yields_ok (Json.distinct_present (by simp [Table.Distinct, Table.names]) ?_)
  simp only [List.forall_mem_cons]
  exact ⟨Json.distinct_of_texts, hdynamic, List.forall_mem_nil _⟩

/-- A connection has no name twice if its document has none. -/
theorem Connection.yields_ofJson (v : Json) (hv : v.Distinct) :
    Yields (fun c : Connection => c.toJson.Distinct) (Connection.ofJson v) := by
  refine (Json.yields_recordOf hv _ _).bind fun t ht => ?_
  refine (yields_true _).bind fun host _ => ?_
  refine (Json.yields_optional ht (fun _ hw => yields_ok hw) "port").bind
    fun port hport => ?_
  refine yields_ok (Json.distinct_present (by simp [Table.Distinct, Table.names]) ?_)
  simp only [List.forall_mem_cons]
  exact ⟨Json.distinct_of_texts, hport, List.forall_mem_nil _⟩

/-- An alias has no name twice if its document has none. -/
theorem Alias.yields_ofJson (v : Json) (hv : v.Distinct) :
    Yields (fun a : Alias => a.toJson.Distinct) (Alias.ofJson v) := by
  refine (Json.yields_recordOf hv _ _).bind fun t ht => ?_
  refine (yields_true _).bind fun name _ => ?_
  refine (yields_true _).bind fun filter _ => ?_
  refine (Json.yields_optional ht (fun _ hw => yields_ok hw) "routing").bind
    fun routing hrouting => ?_
  refine yields_ok (Json.distinct_present (by simp [Table.Distinct, Table.names]) ?_)
  simp only [List.forall_mem_cons]
  exact ⟨Json.distinct_of_texts, Json.distinct_of_texts, hrouting,
    List.forall_mem_nil _⟩

/-- The other keys of a container are neither its name nor its aliases. -/
theorem Container.yields_ofJson (v : Json) (hv : v.Distinct) :
    Yields (fun c : Container => c.toJson.Distinct) (Container.ofJson v) := by
  cases v with
  | obj members =>
    obtain ⟨hnames, hvalues⟩ := Json.distinct_obj.1 hv
    refine (yields_true _).bind fun name _ => ?_
    refine (Json.yields_optional hvalues (fun _ hw => Json.yields_listOf hw Alias.yields_ofJson)
      "aliases").bind fun aliases haliases => ?_
    have hknown : (Json.obj (Json.present [("name", name.map .str),
        ("aliases", aliases.map fun as => .arr (as.map Alias.toJson))])).Distinct := by
      refine Json.distinct_present (by simp [Table.Distinct, Table.names]) ?_
      simp only [List.forall_mem_cons]
      refine ⟨Json.distinct_of_texts, ?_, List.forall_mem_nil _⟩
      intro v hv
      obtain ⟨as, has, rfl⟩ := Option.map_eq_some_iff.1 hv
      exact Json.distinct_arr.2 (List.forall_mem_map.2 (haliases as has))
    obtain ⟨hknown, hparts⟩ := Json.distinct_obj.1 hknown
    refine yields_ok (Json.distinct_obj.2 ⟨?_, ?_⟩)
    · -- the other members are filtered, so neither of the two names is among theirs
      rw [Table.Distinct, Table.names, List.map_append]
      refine List.nodup_append.2 ⟨hknown, ?_, ?_⟩
      · exact List.Nodup.sublist (List.filter_sublist.map Prod.fst) hnames
      · intro key hkey other hother heq
        obtain ⟨e, he, rfl⟩ := List.mem_map.1 hother
        have hextra : e.1 ≠ "name" ∧ e.1 ≠ "aliases" := by
          simpa using (List.mem_filter.1 he).2
        have hfixed : key = "name" ∨ key = "aliases" := by
          simpa [Table.names] using (Json.names_present_sublist _).subset hkey
        rcases hfixed with rfl | rfl
        · exact hextra.1 heq.symm
        · exact hextra.2 heq.symm
    · intro e he
      rcases List.mem_append.1 he with he | he
      · exact hparts e he
      · exact hvalues e (List.mem_filter.1 he).1
  | _ => exact yields_error _ _

end Index

namespace Request

open Index

/-- A request for an entity has no name twice if its document has none. -/
theorem EntityRequest.yields_ofJson (v : Json) (hv : v.Distinct) :
    Yields (fun r : EntityRequest => r.toJson.Distinct) (EntityRequest.ofJson v) := by
  refine (Json.yields_recordOf hv _ _).bind fun t ht => ?_
  refine (Json.yields_defaulted ht Entity.yields_ofJson "entityData" ?_).bind
    fun entity hentity => ?_
  · exact Json.distinct_nil
  refine (Json.yields_defaulted ht Container.yields_ofJson "containerData" ?_).bind
    fun container hcontainer => ?_
  · exact Json.distinct_nil
  refine (Json.yields_defaulted ht Connection.yields_ofJson "modelData" ?_).bind
    fun connection hconnection => ?_
  · exact Json.distinct_nil
  refine (yields_true _).bind fun update _ => ?_
  have hdocument := Json.distinct_getD ht
  refine yields_ok (Json.distinct_obj.2 ⟨by simp [Table.Distinct, Table.names], ?_⟩)
  simp only [List.forall_mem_cons]
  exact ⟨hdocument "jsonSchema", hdocument "internalDefinitions", hdocument "modelDefinitions",
    hdocument "externalDefinitions", hentity, hcontainer, hconnection, Json.distinct_leaf rfl rfl,
    List.forall_mem_nil _⟩

/-- No name stands twice in a request that was read. -/
theorem EntityRequest.distinct_of_read {text : String} {r : EntityRequest}
    (h : EntityRequest.read text = .ok r) : r.toJson.Distinct := by
  obtain ⟨v, hv, hr⟩ := Except.bind_eq_ok.1 h
  exact EntityRequest.yields_ofJson v (Json.distinct_of_readAs hv) r hr

/-- A request for a shared index has no name twice if its document has none. -/
theorem ContainerRequest.yields_ofJson (v : Json) (hv : v.Distinct) :
    Yields (fun r : ContainerRequest => r.toJson.Distinct) (ContainerRequest.ofJson v) := by
  refine (Json.yields_recordOf hv _ _).bind fun t ht => ?_
  refine (yields_true _).bind fun entities _ => ?_
  refine (Json.yields_defaulted ht (fun _ => Json.yields_tableOf) "jsonSchema"
    Json.distinct_nil).bind fun schemas hschemas => ?_
  refine (Json.yields_defaulted ht (fun _ => Json.yields_tableOf) "internalDefinitions"
    Json.distinct_nil).bind fun internals hinternals => ?_
  refine (Json.yields_defaulted ht (fun _ hw => Json.yields_listOf hw Container.yields_ofJson)
    "containerData" (List.forall_mem_nil _)).bind fun containers hcontainers => ?_
  refine (Json.yields_defaulted ht (fun _ hw => Json.yields_listOf hw Connection.yields_ofJson)
    "modelData" (List.forall_mem_nil _)).bind fun connections hconnections => ?_
  refine (yields_true _).bind fun update _ => ?_
  have hdocument := Json.distinct_getD ht
  refine yields_ok (Json.distinct_obj.2 ⟨by simp [Table.Distinct, Table.names], ?_⟩)
  simp only [List.forall_mem_cons]
  refine ⟨?_, hschemas, hinternals, hdocument "modelDefinitions", hdocument "externalDefinitions",
    ?_, ?_, Json.distinct_leaf rfl rfl, List.forall_mem_nil _⟩
  · exact Json.distinct_arr.2 (List.forall_mem_map.2 fun s _ => Json.distinct_str s)
  · exact Json.distinct_arr.2 (List.forall_mem_map.2 hcontainers)
  · exact Json.distinct_arr.2 (List.forall_mem_map.2 hconnections)

/-- No name stands twice in a request that was read. -/
theorem ContainerRequest.distinct_of_read {text : String} {r : ContainerRequest}
    (h : ContainerRequest.read text = .ok r) : r.toJson.Distinct := by
  obtain ⟨v, hv, hr⟩ := Except.bind_eq_ok.1 h
  exact ContainerRequest.yields_ofJson v (Json.distinct_of_readAs hv) r hr

end Request

end SearchIndex
