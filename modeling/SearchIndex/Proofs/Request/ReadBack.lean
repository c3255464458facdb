import SearchIndex.Proofs.Schema.ReadBack
import SearchIndex.Request.Container

/-!
# Requests are read back

A request is written as an object with all of its parts, whatever was left out of the document that
it was read from and whether that was an object or a list. The records that it holds are written
without the parts that they lack. `read_back` says that all of them, and fields, are read back.
-/

namespace SearchIndex

open Json (ReadsBack)

namespace Index

/-- An entity is read back. -/
theorem Entity.readsBack : ReadsBack ofJson toJson := by
  intro v e he
  obtain ⟨t, -, he⟩ := Except.bind_eq_ok.1 he
  obtain ⟨collectionName, -, he⟩ := Except.bind_eq_ok.1 he
  obtain ⟨dynamic, hdynamic, he⟩ := Except.bind_eq_ok.1 he
  obtain rfl := Except.ok.inj he
  exact Except.bind_eq_ok.2 ⟨_, rfl,
    Except.bind_eq_ok.2 ⟨collectionName, Json.optional_textOf_of_written (by simp),
      Except.bind_eq_ok.2 ⟨dynamic, Json.optional_ok_of_written hdynamic (by simp), rfl⟩⟩⟩

/-- A connection is read back, be its port a text or a number. -/
theorem Connection.readsBack : ReadsBack ofJson toJson := by
  intro v c hc
  obtain ⟨t, -, hc⟩ := Except.bind_eq_ok.1 hc
  obtain ⟨host, -, hc⟩ := Except.bind_eq_ok.1 hc
  obtain ⟨port, hport, hc⟩ := Except.bind_eq_ok.1 hc
  obtain rfl := Except.ok.inj hc
  exact Except.bind_eq_ok.2 ⟨_, rfl,
    Except.bind_eq_ok.2 ⟨host, Json.optional_textOf_of_written (by simp),
      Except.bind_eq_ok.2 ⟨port, Json.optional_ok_of_written hport (by simp), rfl⟩⟩⟩

/-- An alias is read back. -/
theorem Alias.readsBack : ReadsBack ofJson toJson := by
  intro v a ha
  obtain ⟨t, -, ha⟩ := Except.bind_eq_ok.1 ha
  obtain ⟨name, -, ha⟩ := Except.bind_eq_ok.1 ha
  obtain ⟨filter, -, ha⟩ := Except.bind_eq_ok.1 ha
  obtain ⟨routing, hrouting, ha⟩ := Except.bind_eq_ok.1 ha
  obtain rfl := Except.ok.inj ha
  exact Except.bind_eq_ok.2 ⟨_, rfl,
    Except.bind_eq_ok.2 ⟨name, Json.optional_textOf_of_written (by simp),
      Except.bind_eq_ok.2 ⟨filter, Json.optional_textOf_of_written (by simp),
        Except.bind_eq_ok.2 ⟨routing, Json.optional_ok_of_written hrouting (by simp), rfl⟩⟩⟩⟩

/-- The keys of a container other than its own are those that are put behind its own ones. -/
theorem Container.filter_written {extra : Table Json}
    (hextra : ∀ e ∈ extra, e.1 ≠ "name" ∧ e.1 ≠ "aliases") (name aliases : Option Json) :
    (Json.present [("name", name), ("aliases", aliases)] ++ extra).filter
      (fun m => m.1 ≠ "name" ∧ m.1 ≠ "aliases") = extra := by
  have hown : (Json.present [("name", name), ("aliases", aliases)]).filter
      (fun m => m.1 ≠ "name" ∧ m.1 ≠ "aliases") = [] := by
    cases name <;> cases aliases <;> rfl
  rw [List.filter_append, hown, List.nil_append, List.filter_eq_self]
  simpa using hextra

/-- A container is read back, with its settings in order. -/
theorem Container.readsBack : ReadsBack ofJson toJson := by
  intro v c hc
  cases v with
  | obj members =>
    obtain ⟨name, -, hc⟩ := Except.bind_eq_ok.1 hc
    obtain ⟨aliases, haliases, hc⟩ := Except.bind_eq_ok.1 hc
    obtain ⟨_, _, extra⟩ := c
    obtain ⟨rfl, rfl, hfilter⟩ := Container.mk.inj (Except.ok.inj hc)
    have hextra : ∀ e ∈ extra, e.1 ≠ "name" ∧ e.1 ≠ "aliases" := by
      intro e he
      rw [← hfilter] at he
      simpa using (List.mem_filter.1 he).2
    -- the known members are found first, since the others do not have their names
    have hnone : ∀ key, key = "name" ∨ key = "aliases" → Table.get? extra key = none := by
      intro key hkey
      rw [Table.get?_eq_none_iff]
      intro hmem
      obtain ⟨e, he, rfl⟩ := List.mem_map.1 hmem
      exact hkey.elim (hextra e he).1 (hextra e he).2
    refine Except.bind_eq_ok.2 ⟨name, Json.optional_textOf_of_written ?_,
      Except.bind_eq_ok.2 ⟨aliases, Alias.readsBack.listOf.optional ?_ haliases ?_, ?_⟩⟩
    · simp [Table.get?_append, hnone]
    · exact fun _ _ _ _ => Json.noConfusion
    · simp [Table.get?_append, hnone]
    · rw [Container.filter_written hextra]
      rfl
  | _ => exact nomatch hc

end Index

namespace Request

open Index

/-- A request for an entity is read back. -/
theorem EntityRequest.readsBack : ReadsBack ofJson toJson := by
  intro v r hr
  obtain ⟨t, -, hr⟩ := Except.bind_eq_ok.1 hr
  obtain ⟨entity, hentity, hr⟩ := Except.bind_eq_ok.1 hr
  obtain ⟨container, hcontainer, hr⟩ := Except.bind_eq_ok.1 hr
  obtain ⟨connection, hconnection, hr⟩ := Except.bind_eq_ok.1 hr
  obtain ⟨update, -, hr⟩ := Except.bind_eq_ok.1 hr
  obtain rfl := Except.ok.inj hr
  have hentity := Entity.readsBack.of_defaulted ⟨.obj [], rfl⟩ hentity
  have hcontainer := Container.readsBack.of_defaulted ⟨.obj [], rfl⟩ hcontainer
  have hconnection := Connection.readsBack.of_defaulted ⟨.obj [], rfl⟩ hconnection
  exact Except.bind_eq_ok.2 ⟨_, rfl, Except.bind_eq_ok.2 ⟨entity, hentity, Except.bind_eq_ok.2
    ⟨container, hcontainer, Except.bind_eq_ok.2 ⟨connection, hconnection, rfl⟩⟩⟩⟩

/-- A request for a shared index is read back. -/
theorem ContainerRequest.readsBack : ReadsBack ofJson toJson := by
  intro v r hr
  obtain ⟨t, -, hr⟩ := Except.bind_eq_ok.1 hr
  obtain ⟨entities, hentities, hr⟩ := Except.bind_eq_ok.1 hr
  obtain ⟨schemas, hschemas, hr⟩ := Except.bind_eq_ok.1 hr
  obtain ⟨internals, hinternals, hr⟩ := Except.bind_eq_ok.1 hr
  obtain ⟨containers, hcontainers, hr⟩ := Except.bind_eq_ok.1 hr
  obtain ⟨connections, hconnections, hr⟩ := Except.bind_eq_ok.1 hr
  obtain ⟨update, -, hr⟩ := Except.bind_eq_ok.1 hr
  obtain rfl := Except.ok.inj hr
  have hentities := Json.readsBack_textOf.listOf.of_defaulted ⟨.arr [], rfl⟩ hentities
  have hschemas := Json.readsBack_tableOf.of_defaulted ⟨.obj [], rfl⟩ hschemas
  have hinternals := Json.readsBack_tableOf.of_defaulted ⟨.obj [], rfl⟩ hinternals
  have hcontainers := Container.readsBack.listOf.of_defaulted ⟨.arr [], rfl⟩ hcontainers
  have hconnections := Connection.readsBack.listOf.of_defaulted ⟨.arr [], rfl⟩ hconnections
  exact Except.bind_eq_ok.2 ⟨_, rfl, Except.bind_eq_ok.2 ⟨entities, hentities, Except.bind_eq_ok.2
    ⟨schemas, hschemas, Except.bind_eq_ok.2 ⟨internals, hinternals, Except.bind_eq_ok.2
      ⟨containers, hcontainers, Except.bind_eq_ok.2 ⟨connections, hconnections, rfl⟩⟩⟩⟩⟩⟩

end Request

open Index Request Schema

/-- Whatever is read from a document is read back from what is written for it. -/
theorem read_back :
    ReadsBack Field.ofJson Field.toJson ∧ ReadsBack Container.ofJson Container.toJson ∧
      ReadsBack Entity.ofJson Entity.toJson ∧ ReadsBack Connection.ofJson Connection.toJson ∧
      ReadsBack EntityRequest.ofJson EntityRequest.toJson ∧
      ReadsBack ContainerRequest.ofJson ContainerRequest.toJson :=
  ⟨Field.readsBack, Container.readsBack, Entity.readsBack, Connection.readsBack,
    EntityRequest.readsBack, ContainerRequest.readsBack⟩

-- A list of parts and a field with ill-shaped keys are written in the form that is read back.
example :
    (Entity.ofJson (.arr [.str "Shop", .null])).map Entity.toJson =
        .ok (.obj [("collectionName", .str "Shop")]) ∧
      (Field.ofJson (.obj [("items", .arr [.null]), ("label", .null), ("type", .str "array")])).map
          Field.toJson = .ok (.obj [("type", .str "array"), ("label", .null)]) :=
  ⟨rfl, rfl⟩

end SearchIndex
