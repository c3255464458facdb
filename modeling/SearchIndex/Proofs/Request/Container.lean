import SearchIndex.Proofs.Except
import SearchIndex.Proofs.Mapping.Monoid
import SearchIndex.Request.Container

/-!
# A shared index and its entities

A request for a shared index asks for the tree of each entity as a request for that entity alone
would: `compileEntity_eq_ok`. The faults of both name their documents differently, so only what is
compiled is compared. `AgreesWithEntities` collects what follows for the merged tree.
-/

namespace SearchIndex.Request

open Index Mapping Schema

/-! ## Names of documents only show in faults -/

/-- The value stands for a document. -/
def Readable (v : Json) : Prop := ∃ w, source "" v = .ok w

/-- A document is read alike under any name. -/
theorem source_eq_ok (name other : String) {v w : Json} :
    source name v = .ok w ↔ source other v = .ok w := by
  cases v with
  | str text => rw [source, source, Except.mapError_eq_ok, Except.mapError_eq_ok]
  | _ => exact Iff.rfl

/-- Whether a value stands for a document does not depend on the name of its document. -/
theorem readable_iff (name : String) {v : Json} : Readable v ↔ ∃ w, source name v = .ok w := by
  constructor
  · rintro ⟨w, hw⟩
    exact ⟨w, (source_eq_ok "" name).1 hw⟩
  · rintro ⟨w, hw⟩
    exact ⟨w, (source_eq_ok "" name).2 hw⟩

/-- An entity document is compiled alike under any name. -/
theorem compileScopes_eq_ok (name other : String) {s : Scopes} {t : Tree} :
    compileScopes name s = .ok t ↔ compileScopes other s = .ok t := by
  unfold compileScopes
  split
  · simp only [Except.bind_eq_ok, Except.mapError_eq_ok]
  · exact Iff.rfl

/-- The document of an entity is that of its entry, or `null` without one. -/
theorem entry_eq_ok (name other : String) {documents : Table Json} {id : String} {w : Json} :
    ContainerRequest.entry name documents id = .ok w ↔
      source other ((documents.get? id).getD .null) = .ok w := by
  unfold ContainerRequest.entry
  cases documents.get? id with
  | none => exact Iff.rfl
  | some v => exact source_eq_ok _ other

/-! ## The request for one entity -/

/-- A request for one entity compiles iff its four documents are read and the first one, among them,
describes a schema. -/
theorem EntityRequest.compile_eq_ok {r : EntityRequest} {t : Tree} :
    r.compile = .ok t ↔
      ∃ entity internal model external,
        source "jsonSchema" r.schema = .ok entity ∧
        source "internalDefinitions" r.internal = .ok internal ∧
        source "modelDefinitions" r.model = .ok model ∧
        source "externalDefinitions" r.external = .ok external ∧
        compileScopes "jsonSchema" ⟨entity, internal, model, external⟩ = .ok t := by
  simp only [EntityRequest.compile, EntityRequest.scopes, Except.bind_eq_ok]
  constructor
  · rintro ⟨s, ⟨entity, hentity, internal, hinternal, model, hmodel, external, hexternal, hs⟩, ht⟩
    obtain rfl := Except.ok.inj hs
    exact ⟨entity, internal, model, external, hentity, hinternal, hmodel, hexternal, ht⟩
  · rintro ⟨entity, internal, model, external, hentity, hinternal, hmodel, hexternal, ht⟩
    exact ⟨_, ⟨entity, hentity, internal, hinternal, model, hmodel, external, hexternal, rfl⟩, ht⟩

namespace ContainerRequest

/-- The request for one entity of a shared index: its own documents, `null` where they are missing,
and those that all entities share. -/
def entityRequest (c : ContainerRequest) (id : String) : EntityRequest where
  schema := (c.schemas.get? id).getD .null
  internal := (c.internals.get? id).getD .null
  model := c.model
  external := c.external
  entity := .unnamed
  container := c.container
  connection := c.connection
  update := c.update

/-- Once the shared documents are read, an entity compiles as in a request of its own. -/
theorem compileEntity_eq_ok {c : ContainerRequest} {model external : Json}
    (hmodel : source "modelDefinitions" c.model = .ok model)
    (hexternal : source "externalDefinitions" c.external = .ok external) {id : String} {t : Tree} :
    c.compileEntity model external id = .ok t ↔ (c.entityRequest id).compile = .ok t := by
  rw [EntityRequest.compile_eq_ok, compileEntity]
  simp only [Except.bind_eq_ok, entry_eq_ok "jsonSchema" "jsonSchema",
    entry_eq_ok "internalDefinitions" "internalDefinitions",
    compileScopes_eq_ok ("jsonSchema of entity " ++ id) "jsonSchema"]
  constructor
  · rintro ⟨entity, hentity, internal, hinternal, ht⟩
    exact ⟨entity, internal, model, external, hentity, hinternal, hmodel, hexternal, ht⟩
  -- the request for the entity reads the shared documents again, with the same result
  · rintro ⟨entity, internal, model', external', hentity, hinternal, hmodel', hexternal', ht⟩
    obtain rfl : model = model' := Except.ok.inj (hmodel.symm.trans hmodel')
    obtain rfl : external = external' := Except.ok.inj (hexternal.symm.trans hexternal')
    exact ⟨entity, hentity, internal, hinternal, ht⟩

/-- The trees of a shared index are those of the requests for its entities, in order. -/
theorem trees_eq_ok {c : ContainerRequest} {ts : List Tree} :
    c.trees = .ok ts ↔ Readable c.model ∧ Readable c.external ∧
      List.Forall₂ (fun id t => (c.entityRequest id).compile = .ok t) c.entities ts := by
  rw [readable_iff "modelDefinitions", readable_iff "externalDefinitions", trees]
  simp only [Except.bind_eq_ok, Except.mapM_eq_ok]
  constructor
  · rintro ⟨model, hmodel, external, hexternal, hts⟩
    exact ⟨⟨model, hmodel⟩, ⟨external, hexternal⟩,
      hts.imp fun id t => (compileEntity_eq_ok hmodel hexternal).1⟩
  · rintro ⟨⟨model, hmodel⟩, ⟨external, hexternal⟩, hts⟩
    exact ⟨model, hmodel, external, hexternal,
      hts.imp fun id t => (compileEntity_eq_ok hmodel hexternal).2⟩

/-- A request for an entity is compiled only if the shared documents are read. -/
theorem readable_of_entityRequest {c : ContainerRequest} {id : String} {t : Tree}
    (h : (c.entityRequest id).compile = .ok t) : Readable c.model ∧ Readable c.external := by
  obtain ⟨-, -, model, external, -, -, hmodel, hexternal, -⟩ := EntityRequest.compile_eq_ok.1 h
  exact ⟨(readable_iff "modelDefinitions").2 ⟨model, hmodel⟩,
    (readable_iff "externalDefinitions").2 ⟨external, hexternal⟩⟩

/-- The merged tree is folded from the trees of the requests for the entities. -/
theorem compile_eq_ok {c : ContainerRequest} {t : Tree} :
    c.compile = .ok t ↔ Readable c.model ∧ Readable c.external ∧
      ∃ ts, List.Forall₂ (fun id t => (c.entityRequest id).compile = .ok t) c.entities ts ∧
        ts.foldl merge [] = t := by
  rw [compile, Except.map_eq_ok]
  constructor
  · rintro ⟨ts, hts, ht⟩
    obtain ⟨hmodel, hexternal, hts⟩ := trees_eq_ok.1 hts
    exact ⟨hmodel, hexternal, ts, hts, ht⟩
  · rintro ⟨hmodel, hexternal, ts, hts, ht⟩
    exact ⟨ts, trees_eq_ok.2 ⟨hmodel, hexternal, hts⟩, ht⟩

/-- Only the entries of the entities that are listed are looked at. -/
theorem compile_congr {c c' : ContainerRequest} (hentities : c'.entities = c.entities)
    (hmodel : c'.model = c.model) (hexternal : c'.external = c.external)
    (hentry : ∀ id ∈ c.entities, c'.schemas.get? id = c.schemas.get? id ∧
      c'.internals.get? id = c.internals.get? id) : c'.compile = c.compile := by
  have hentity : ∀ model external, ∀ id ∈ c.entities,
      c'.compileEntity model external id = c.compileEntity model external id := by
    intro model external id hid
    obtain ⟨hschema, hinternal⟩ := hentry id hid
    rw [compileEntity, compileEntity, entry, entry, entry, entry, hschema, hinternal]
  have hmapM : ∀ model external, c.entities.mapM (c'.compileEntity model external) =
      c.entities.mapM (c.compileEntity model external) :=
    fun model external => Except.mapM_congr (hentity model external)
  rw [compile, compile, trees, trees, hentities, hmodel, hexternal]
  simp only [hmapM]

/-- How a request for a shared index relates to the requests for its entities. -/
structure AgreesWithEntities (c : ContainerRequest) : Prop where
  /-- It compiles iff the shared documents are read and each entity compiles. -/
  succeeds_iff : (∃ t, c.compile = .ok t) ↔
    Readable c.model ∧ Readable c.external ∧
      ∀ id ∈ c.entities, ∃ t, (c.entityRequest id).compile = .ok t
  /-- What it compiles to is folded, in order, from what the entities compile to. -/
  value : ∀ t, c.compile = .ok t →
    ∃ ts, List.Forall₂ (fun id t => (c.entityRequest id).compile = .ok t) c.entities ts ∧
      t = ts.foldl merge []
  /-- With a single entity it compiles to what that entity compiles to. -/
  single : ∀ id t, c.entities = [id] →
    (c.compile = .ok t ↔ (c.entityRequest id).compile = .ok t)
  /-- Entries of entities that are not listed change neither the tree nor the fault. -/
  unlisted : ∀ schemas internals,
    (∀ id ∈ c.entities, Table.get? schemas id = c.schemas.get? id ∧
      Table.get? internals id = c.internals.get? id) →
    { c with schemas, internals }.compile = c.compile

/-- A shared index is compiled as its entities are. -/
theorem compile_agrees (c : ContainerRequest) : AgreesWithEntities c where
  succeeds_iff := by
    simp only [compile_eq_ok, ← Except.exists_values]
    constructor
    · rintro ⟨t, hmodel, hexternal, ts, hts, -⟩
      exact ⟨hmodel, hexternal, ts, hts⟩
    · rintro ⟨hmodel, hexternal, ts, hts⟩
      exact ⟨_, hmodel, hexternal, ts, hts, rfl⟩
  value := by
    intro t ht
    obtain ⟨-, -, ts, hts, hfold⟩ := compile_eq_ok.1 ht
    exact ⟨ts, hts, hfold.symm⟩
  single := by
    intro id t hid
    rw [compile_eq_ok, hid]
    constructor
    · -- a single tree is merged onto the empty one
      rintro ⟨-, -, ts, hts, hfold⟩
      obtain ⟨u, us, hu, hus, rfl⟩ := List.forall₂_cons_left_iff.1 hts
      obtain rfl := List.forall₂_nil_left_iff.1 hus
      rw [List.foldl_cons, List.foldl_nil, nil_merge] at hfold
      exact hfold ▸ hu
    · intro ht
      obtain ⟨hmodel, hexternal⟩ := readable_of_entityRequest ht
      exact ⟨hmodel, hexternal, [t], .cons ht .nil, nil_merge t⟩
  unlisted := fun _ _ hentry => compile_congr rfl rfl rfl hentry

end ContainerRequest

end SearchIndex.Request
