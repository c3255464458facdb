import SearchIndex.Proofs.Except
import SearchIndex.Request.Container

/-!
# Which fault of a request is reported

A request makes a fixed list of checks: each source document has to be readable, and an entity
document that is an object has to describe a schema. `EntityRequest.checks` and
`ContainerRequest.checks` list them in order, each naming its document. `reports_first_fault` says
that a request, whatever is asked of it, reports the fault of the first check that fails, and that
it succeeds iff none does.
-/

namespace SearchIndex.Request

open Index Mapping Schema

/-- Something that has to be so for a request to succeed. -/
inductive Check where
  /-- The value stands for a document. -/
  | readable (document : String) (value : Json)
  /-- If the value stands for an object, the object describes a schema. -/
  | schema (document : String) (value : Json)

/-- The document that a value stands for, if there is one. -/
def document? : Json → Option Json
  | .str text => (Json.read text).toOption
  | v => some v

namespace Check

/-- What is reported when the check fails. -/
def fault? : Check → Option Error
  | .readable document (.str text) => (Except.failure? (Json.read text)).map (.malformed document)
  | .readable _ _ => none
  | .schema document value =>
    ((document? value).filter Json.isObject).bind fun v =>
      (Except.failure? (Field.ofJson v)).map (.notASchema document)

end Check

/-! ## The checks of a request, in order -/

/-- All four documents are read before the schema is looked at. -/
def EntityRequest.checks (r : EntityRequest) : List Check :=
  [.readable "jsonSchema" r.schema, .readable "internalDefinitions" r.internal,
   .readable "modelDefinitions" r.model, .readable "externalDefinitions" r.external,
   .schema "jsonSchema" r.schema]

namespace ContainerRequest

/-- The value given for an entity; a missing one is `null`. -/
def value (documents : Table Json) (id : String) : Json := (documents.get? id).getD .null

/-- The checks of one entity. -/
def entityChecks (r : ContainerRequest) (id : String) : List Check :=
  [.readable ("jsonSchema of entity " ++ id) (value r.schemas id),
   .readable ("internalDefinitions of entity " ++ id) (value r.internals id),
   .schema ("jsonSchema of entity " ++ id) (value r.schemas id)]

/-- The shared documents come first, then all of one entity before anything of the next. -/
def checks (r : ContainerRequest) : List Check :=
  .readable "modelDefinitions" r.model :: .readable "externalDefinitions" r.external ::
    r.entities.flatMap r.entityChecks

end ContainerRequest

/-! ## Each step of a request fails as its check does -/

/-- Reading a source document fails as the check does. -/
theorem failure?_source (name : String) (v : Json) :
    Except.failure? (source name v) = (Check.readable name v).fault? := by
  cases v with
  | str text => exact Except.failure?_mapError _ _
  | _ => rfl

/-- A value that was read stands for what was read. -/
theorem document?_of_source {name : String} {v w : Json} (h : source name v = .ok w) :
    document? v = some w := by
  cases v with
  | str text =>
    have hread : Json.read text = .ok w := Except.mapError_eq_ok.1 h
    rw [document?, hread]
    rfl
  | _ => exact congrArg some (Except.ok.inj h)

/-- The first fault of checks is that of the first one, or else that of the others. -/
theorem findSome?_checks (c : Check) (cs : List Check) :
    (c :: cs).findSome? Check.fault? = c.fault?.or (cs.findSome? Check.fault?) := by
  rw [List.findSome?_cons]
  cases c.fault? <;> rfl

/-- Reading a document comes before the checks of what is done with it. -/
theorem failure?_source_bind {α : Type} {name : String} {v : Json} {k : Json → Except Error α}
    {cs : List Check}
    (h : ∀ w, document? v = some w → Except.failure? (k w) = cs.findSome? Check.fault?) :
    Except.failure? (source name v >>= k) =
      (Check.readable name v :: cs).findSome? Check.fault? := by
  rw [findSome?_checks, ← failure?_source]
  exact Except.failure?_bind fun w hw => h w (document?_of_source hw)

/-- Only the entity document can be at fault when documents that were read are compiled. -/
theorem failure?_compileScopes {name : String} {v : Json} {s : Scopes}
    (h : document? v = some s.entity) :
    Except.failure? (compileScopes name s) = [Check.schema name v].findSome? Check.fault? := by
  rw [findSome?_checks, List.findSome?_nil, Option.or_none, Check.fault?, h, compileScopes]
  by_cases hobject : s.entity.isObject
  · have hread : Except.failure? ((Field.ofJson s.entity).mapError (Error.notASchema name)) =
        (Except.failure? (Field.ofJson s.entity)).map (.notASchema name) :=
      Except.failure?_mapError _ _
    rw [if_pos hobject, Option.filter_some_pos hobject, Option.bind_some, ← hread]
    -- compiling itself never fails
    have hcompile := Except.failure?_bind
      (x := (Field.ofJson s.entity).mapError (Error.notASchema name))
      (f := fun root => .ok (Mapping.compileDocument s.resolver root : Id Tree)) fun _ _ => rfl
    exact hcompile.trans Option.or_none
  · rw [if_neg hobject, Option.filter_some_neg (Bool.eq_false_iff.2 hobject)]
    rfl

/-! ## The first fault of a request -/

/-- A request for an entity fails as the first of its checks that does. -/
theorem EntityRequest.failure?_compile (r : EntityRequest) :
    Except.failure? r.compile = r.checks.findSome? Check.fault? := by
  rw [compile, scopes, checks]
  simp only [bind_assoc, pure_bind]
  refine failure?_source_bind fun entity hentity => ?_
  refine failure?_source_bind fun internal _ => ?_
  refine failure?_source_bind fun model _ => ?_
  refine failure?_source_bind fun external _ => ?_
  exact failure?_compileScopes hentity

namespace ContainerRequest

/-- The document of an entity is read under a name that tells the entity. -/
theorem entry_eq (name : String) (documents : Table Json) (id : String) :
    entry name documents id = source (name ++ " of entity " ++ id) (value documents id) := by
  unfold entry value
  cases documents.get? id with
  | none => rfl
  | some v => rfl

/-- One entity of a shared index fails as the first of its checks that does. -/
theorem failure?_compileEntity (r : ContainerRequest) (model external : Json) (id : String) :
    Except.failure? (r.compileEntity model external id) =
      (r.entityChecks id).findSome? Check.fault? := by
  rw [compileEntity, entityChecks, entry_eq, entry_eq]
  refine failure?_source_bind fun entity hentity => ?_
  refine failure?_source_bind fun internal _ => ?_
  exact failure?_compileScopes hentity

/-- The first fault of several entities is that of the first entity at fault. -/
theorem findSome?_entityChecks (r : ContainerRequest) (ids : List String) :
    (ids.flatMap r.entityChecks).findSome? Check.fault? =
      ids.findSome? fun id => (r.entityChecks id).findSome? Check.fault? := by
  induction ids with
  | nil => rfl
  | cons id ids ih =>
    rw [List.flatMap_cons, List.findSome?_append, List.findSome?_cons, ih]
    cases (r.entityChecks id).findSome? Check.fault? <;> rfl

/-- A request for a shared index fails as the first of its checks that does. -/
theorem failure?_compile (r : ContainerRequest) :
    Except.failure? r.compile = r.checks.findSome? Check.fault? := by
  rw [compile, Except.failure?_map, trees, checks]
  refine failure?_source_bind fun model _ => ?_
  refine failure?_source_bind fun external _ => ?_
  rw [Except.failure?_mapM, findSome?_entityChecks]
  simp only [failure?_compileEntity]

end ContainerRequest

/-- A result is the fault of the first check that fails; it is there iff no check fails. -/
structure ReportsFirst {α : Type} (checks : List Check) (x : Except Error α) : Prop where
  /-- The fault is that of a check before which no check fails. -/
  error_iff : ∀ e, x = .error e ↔ ∃ before c after, checks = before ++ c :: after ∧
    c.fault? = some e ∧ ∀ b ∈ before, b.fault? = none
  /-- Success means that nothing is at fault. -/
  ok_iff : (∃ a, x = .ok a) ↔ ∀ c ∈ checks, c.fault? = none

/-- What fails as the first of the checks that does, reports that one. -/
theorem reportsFirst_of_failure? {α : Type} {checks : List Check} {x : Except Error α}
    (h : Except.failure? x = checks.findSome? Check.fault?) : ReportsFirst checks x where
  error_iff := by
    intro e
    rw [← Except.failure?_eq_some, h, List.findSome?_eq_some_iff]
  ok_iff := by
    rw [← Except.failure?_eq_none, h, List.findSome?_eq_none_iff]

/-- What is made of a result is reported as the result is. -/
theorem ReportsFirst.map {α β : Type} {checks : List Check} {x : Except Error α}
    (h : ReportsFirst checks x) (f : α → β) : ReportsFirst checks (x.map f) where
  error_iff := by
    intro e
    rw [← h.error_iff, ← Except.failure?_eq_some, Except.failure?_map, Except.failure?_eq_some]
  ok_iff := by
    rw [← h.ok_iff, ← Except.failure?_eq_none, Except.failure?_map, Except.failure?_eq_none]

/-- Whatever is asked of a request, it reports the fault of the first check that fails. -/
theorem reports_first_fault :
    (∀ r : EntityRequest, ReportsFirst r.checks r.compile ∧ ReportsFirst r.checks r.document ∧
      ∀ kind, ReportsFirst r.checks (r.generate kind)) ∧
    ∀ r : ContainerRequest, ReportsFirst r.checks r.compile ∧ ReportsFirst r.checks r.document ∧
      ∀ kind, ReportsFirst r.checks (r.generate kind) := by
  constructor
  · intro r
    have hcompile : ReportsFirst r.checks r.compile := reportsFirst_of_failure? r.failure?_compile
    have hdocument : ReportsFirst r.checks r.document := hcompile.map _
    exact ⟨hcompile, hdocument, fun kind => hdocument.map _⟩
  · intro r
    have hcompile : ReportsFirst r.checks r.compile := reportsFirst_of_failure? r.failure?_compile
    have hdocument : ReportsFirst r.checks r.document := hcompile.map _
    exact ⟨hcompile, hdocument, fun kind => hdocument.map _⟩

end SearchIndex.Request
