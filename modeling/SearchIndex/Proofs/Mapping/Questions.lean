import SearchIndex.Proofs.Mapping.Parts
import SearchIndex.Proofs.Mapping.References

/-!
# What a compiled field asks its resolver

`questions` lists what compiling a field asks, from the field alone: `visits` are the fields that
are compiled, in order, and `ownQuestions` what each of them asks, first for the names in its
reference lists, then for the target of an alias.

`Asks` is a judgement on programs that use a resolver of any monad. It says that a program asks
given questions, whatever is answered, and that nothing but these answers counts. It has a rule for
each way to build a program, so that the functions of the compiler are gone through once, up to
`asks_compile`.
-/

namespace SearchIndex.Mapping

open Schema

/-! ## The questions of a field -/

mutual

/-- The fields that are compiled for a field, itself first. -/
def visits : Field → List Field
  | ⟨tag, mode, properties, items, path, relations, attributes⟩ =>
    let f : Field := ⟨tag, mode, properties, items, path, relations, attributes⟩
    f ::
      if (Kind.of f).any Kind.isClosed then []
      else if tag = some .range then elementVisits items
      else
        match properties with
        | some properties => fieldVisits properties
        | none => elementVisits items

/-- The fields that are compiled for fields by name. -/
def fieldVisits : List (String × Field) → List Field
  | [] => []
  | (_, f) :: rest => visits f ++ fieldVisits rest

/-- The fields that are compiled for the element of an array. -/
def elementVisits : Option Items → List Field
  | none => []
  | some (.one f) => visits f
  | some (.candidates []) => []
  | some (.candidates (f :: _)) => visits f

end

/-- The question for an attribute: the names behind the identifiers of a reference list. -/
def attributeQuestion? (e : String × Json) : Option Question :=
  if Kept e.1 ∧ ReferenceList e.2 then some (.names (referenceIds e.2)) else none

/-- The questions for the attributes of a field. Those of a field without a type are not looked
at. -/
def headingQuestions (f : Field) : List Question :=
  if (Kind.of f).isSome then f.attributes.filterMap attributeQuestion? else []

/-- The question for the target of an alias: the path to what its first reference identifies. -/
def targetQuestions (f : Field) : List Question :=
  match Kind.of f, f.path with
  | some .alias, some (⟨some id⟩ :: _) => [.path id]
  | _, _ => []

/-- What a field asks for itself. -/
def ownQuestions (f : Field) : List Question := headingQuestions f ++ targetQuestions f

/-- What compiling a field asks, in order. -/
def questions (f : Field) : List Question := (visits f).flatMap ownQuestions

/-- Fields by name are visited one after the other. -/
theorem fieldVisits_eq (fs : List (String × Field)) :
    fieldVisits fs = fs.flatMap fun e => visits e.2 := by
  induction fs with
  | nil => rfl
  | cons e fs ih => rw [fieldVisits, ih, List.flatMap_cons]

/-- Of a list of candidates, the first one is visited. -/
theorem elementVisits_eq (items : Option Items) :
    elementVisits items = (items.bind Items.first?).elim [] visits := by
  match items with
  | none | some (.one _) | some (.candidates []) | some (.candidates (_ :: _)) => rfl

/-- The question for an attribute by the tests that the compiler makes. -/
theorem attributeQuestion?_eq (name : String) (v : Json) :
    attributeQuestion? (name, v) =
      if isParameter name ∧ name ≠ subFieldsText ∧ Reference.isList v then
        some (.names (keyIds v))
      else none := by
  simp only [attributeQuestion?, kept_iff, isList_iff, keyIds_eq, and_assoc]

/-- The question for a target is that for the target that the compiler takes. -/
theorem targetQuestions_eq (f : Field) :
    targetQuestions f =
      if Kind.of f = some .alias then ((aliasTarget? f.path).map .path).toList else [] := by
  unfold targetQuestions
  by_cases halias : Kind.of f = some .alias
  · rw [halias, if_pos rfl]
    match f.path with
    | none | some [] | some (⟨none⟩ :: _) | some (⟨some _⟩ :: _) => rfl
  · rw [if_neg halias]
    split
    · next hkind _ => exact absurd hkind halias
    · rfl

/-- The fields that are compiled for what a field has from below. -/
def visitsBelow (f : Field) : List Field :=
  match visited? f with
  | some fs => fs.flatMap fun e => visits e.2
  | none => f.item?.elim [] visits

/-- A field is visited before the fields below it. -/
theorem visits_eq (f : Field) :
    visits f = f :: if (Kind.of f).any Kind.isClosed then [] else visitsBelow f := by
  obtain ⟨tag, mode, properties, items, path, relations, attributes⟩ := f
  cases properties with
  | none =>
    rw [visits, visitsBelow, visited?, Field.item?, ← elementVisits_eq]
    simp only [ite_self]
  | some fs =>
    rw [visits, visitsBelow, visited?, Field.item?, ← elementVisits_eq]
    -- a range goes to its element whether it has properties or not
    by_cases ht : tag = some .range
    · simp only [if_pos ht]
    · simp only [if_neg ht, fieldVisits_eq]

/-- A field asks for itself first; a closed field asks for nothing else. -/
theorem questions_eq (f : Field) :
    questions f = ownQuestions f ++
      if (Kind.of f).any Kind.isClosed then [] else (visitsBelow f).flatMap ownQuestions := by
  rw [questions, visits_eq, List.flatMap_cons]
  split <;> rfl

/-! ## Asking -/

/-- Two resolvers have the same answer to a question. -/
def AnswerAlike (r r' : Resolver Id) : Question → Prop
  | .names ids => r.names ids = r'.names ids
  | .path id => r.path? id = r'.path? id

/-- The program asks these questions, in this order, and its value depends on the answers to them
alone. -/
structure Asks {α : Type} (p : ∀ (m : Type → Type) [Monad m], Resolver m → m α)
    (qs : List Question) : Prop where
  recorded : ∀ (r : Resolver Id) (log : List Question),
    (p (StateM (List Question)) r.recorded).run log = (p Id r, qs.reverse ++ log)
  alike : ∀ r r' : Resolver Id, (∀ q ∈ qs, AnswerAlike r r' q) → p Id r = p Id r'

namespace Asks

variable {α β : Type} {qs qs' : List Question}

/-- A program that gives a value at once asks nothing. -/
theorem pure (a : α) : Asks (fun _ _ _ => Pure.pure a) [] where
  recorded := fun _ _ => rfl
  alike := fun _ _ _ => rfl

/-- Asking for names is one question. -/
theorem names (ids : List String) : Asks (fun _ _ r => r.names ids) [.names ids] where
  recorded := fun _ _ => rfl
  alike := fun _ _ h => h _ List.mem_cons_self

/-- Asking for a path is one question. -/
theorem path (id : String) : Asks (fun _ _ r => r.path? id) [.path id] where
  recorded := fun _ _ => rfl
  alike := fun _ _ h => h _ List.mem_cons_self

/-- One program after another asks its questions after those of the other. -/
theorem bind {p : ∀ (m : Type → Type) [Monad m], Resolver m → m α}
    {k : α → ∀ (m : Type → Type) [Monad m], Resolver m → m β}
    (hp : Asks p qs) (hk : ∀ a, Asks (k a) qs') :
    Asks (fun m _ r => p m r >>= fun a => k a m r) (qs ++ qs') where
  recorded := by
    intro r log
    rw [StateT.run_bind, hp.recorded]
    refine ((hk (p Id r)).recorded r (qs.reverse ++ log)).trans ?_
    rw [List.reverse_append, List.append_assoc]
    rfl
  alike := by
    intro r r' h
    have hpr : p Id r = p Id r' := hp.alike r r' fun q hq => h q (List.mem_append_left qs' hq)
    have hkr := (hk (p Id r)).alike r r' fun q hq => h q (List.mem_append_right qs hq)
    refine hkr.trans ?_
    rw [hpr]
    rfl

/-- What is made of the value of a program asks nothing more. -/
theorem map {p : ∀ (m : Type → Type) [Monad m], Resolver m → m α} (f : α → β) (hp : Asks p qs) :
    Asks (fun m _ r => p m r >>= fun a => Pure.pure (f a)) qs := by
  have h := hp.bind fun a => Asks.pure (f a)
  rwa [List.append_nil] at h

/-- A program asks what an equal one asks. -/
theorem of_eq {p p' : ∀ (m : Type → Type) [Monad m], Resolver m → m α}
    (h : ∀ (m : Type → Type) [Monad m] [LawfulMonad m] (r : Resolver m), p m r = p' m r)
    (hp : Asks p' qs) : Asks p qs where
  recorded := by
    intro r log
    rw [h, h]
    exact hp.recorded r log
  alike := by
    intro r r' hqs
    rw [h, h]
    exact hp.alike r r' hqs

end Asks

/-! ## What the compiler asks -/

/-- An attribute asks for names if it is a list of references, and for nothing otherwise. -/
theorem asks_parameter? (name : String) (v : Json) :
    Asks (fun _ _ r => parameter? r name v) (attributeQuestion? (name, v)).toList := by
  rw [attributeQuestion?_eq]
  unfold parameter?
  by_cases hp : isParameter name
  · by_cases ht : name = subFieldsText
    · simp only [ht, ne_eq, not_true_eq_false, false_and, and_false, if_true, if_false]
      exact .pure _
    · by_cases hl : Reference.isList v
      · simp only [hp, ht, hl, Bool.not_true, Bool.false_eq_true, ne_eq, not_false_eq_true, and_true,
          if_true, if_false]
        exact (Asks.names (keyIds v)).map _
      · simp only [hp, ht, hl, Bool.not_true, Bool.false_eq_true, and_false, if_false]
        exact .pure _
  · simp only [hp, Bool.not_false, Bool.false_eq_true, false_and, if_true, if_false]
    exact .pure _

/-- Copying attributes asks for the names in their reference lists, in order. -/
theorem asks_copyAttributes (attributes : List (String × Json)) (n : Node) :
    Asks (fun _ _ r => copyAttributes r attributes n)
      (attributes.filterMap attributeQuestion?) := by
  induction attributes generalizing n with
  | nil => exact .pure n
  | cons e rest ih =>
    obtain ⟨name, v⟩ := e
    have hstep : (((name, v) :: rest).filterMap attributeQuestion?) =
        (attributeQuestion? (name, v)).toList ++ rest.filterMap attributeQuestion? := by
      rw [List.filterMap_cons]
      cases attributeQuestion? (name, v) <;> rfl
    rw [hstep]
    refine (asks_parameter? name v).bind fun parameter => ?_
    cases parameter with
    | none => exact ih n
    | some parameter => exact ih (n.insertPlain parameter.1 parameter.2)

/-- The heading of a field asks for the names in its reference lists. -/
theorem asks_heading (f : Field) : Asks (fun _ _ r => heading r f) (headingQuestions f) := by
  unfold heading headingQuestions
  cases Kind.of f with
  | none => exact .pure _
  | some kind => exact asks_copyAttributes f.attributes kind.node

/-- An alias asks for the path to its target. -/
theorem asks_aliasNode (path : Option (List Reference)) :
    Asks (fun _ _ r => aliasNode r path) ((aliasTarget? path).map .path).toList := by
  unfold aliasNode
  cases aliasTarget? path with
  | none => exact .pure _
  | some id =>
    refine (Asks.path id).bind fun target => ?_
    cases target <;> exact .pure _

/-- Fields by name ask their questions one after the other. -/
theorem asks_compileFields {fs : List (String × Field)}
    (h : ∀ e ∈ fs, Asks (fun _ _ r => compile r e.2) (questions e.2)) :
    Asks (fun _ _ r => compileFields r fs) (fs.flatMap fun e => questions e.2) := by
  induction fs with
  | nil => exact .pure _
  | cons e fs ih =>
    obtain ⟨hf, hfs⟩ := List.forall_mem_cons.1 h
    rw [List.flatMap_cons]
    exact hf.bind fun n => (ih hfs).map _

/-- What a field has from below asks what the fields compiled for it ask. -/
theorem asks_below {f : Field}
    (hproperties : ∀ fs, f.properties = some fs →
      ∀ e ∈ fs, Asks (fun _ _ r => compile r e.2) (questions e.2))
    (hitem : ∀ g, f.item? = some g → Asks (fun _ _ r => compile r g) (questions g)) :
    Asks (fun _ _ r => below r f) ((visitsBelow f).flatMap ownQuestions) := by
  unfold below visitsBelow
  cases hfs : visited? f with
  | some fs =>
    have hfields := asks_compileFields (hproperties fs (properties_of_visited? hfs))
    refine .of_eq (fun m _ _ r => (bind_pure_comp ..).symm) ?_
    simp only [List.flatMap_assoc]
    exact hfields.map Node.ofNested
  | none =>
    cases hg : f.item? with
    | none => exact .pure _
    | some g => exact hitem g hg

/-- The overlay of a field asks for the target of an alias, or what the fields below ask. -/
theorem asks_overlay {f : Field}
    (hbelow : Asks (fun _ _ r => below r f) ((visitsBelow f).flatMap ownQuestions)) :
    Asks (fun _ _ r => overlay r f) (targetQuestions f ++
      if (Kind.of f).any Kind.isClosed then [] else (visitsBelow f).flatMap ownQuestions) := by
  by_cases h : (Kind.of f).any Kind.isClosed
  · rw [if_pos h, List.append_nil]
    unfold overlay
    rw [targetQuestions_eq]
    split
    · next hk =>
      rw [if_pos hk]
      exact asks_aliasNode f.path
    · next hk =>
      rw [hk, if_neg (by decide)]
      exact .pure _
    · -- of the closed kinds, the opaque ones are left
      next halias hjoin =>
      have hop := any_isOpaque_of_closed h halias hjoin
      simp only [if_neg halias, hop, if_true]
      exact .pure _
  · rw [Bool.not_eq_true] at h
    have htarget : targetQuestions f = [] := by
      rw [targetQuestions_eq, if_neg]
      intro hk
      simp [hk, Kind.isClosed] at h
    rw [htarget, h]
    exact .of_eq (fun m _ _ r => overlay_of_open r h) hbelow

/-- Compiling a field asks its questions. -/
theorem asks_compile (f : Field) : Asks (fun _ _ r => compile r f) (questions f) := by
  induction f using field_induction with
  | h f hproperties hitem =>
  rw [questions_eq, ownQuestions, List.append_assoc]
  refine .of_eq (fun m _ _ r => compile_eq r f) ?_
  exact (asks_heading f).bind fun n => (asks_overlay (asks_below hproperties hitem)).map n.assign

/-- What compiling a field asks, and what its mapping depends on. -/
structure AsksItsQuestions (f : Field) : Prop where
  /-- A resolver whose questions are recorded, the last one first, is asked the questions of the
  field, and the mapping is the same as without the record. -/
  recorded : ∀ (r : Resolver Id) (log : List Question),
    (compile r.recorded f).run log = (compile r f, (questions f).reverse ++ log)
  /-- Resolvers that answer these questions alike give the same mapping. -/
  alike : ∀ r r' : Resolver Id, (∀ q ∈ questions f, AnswerAlike r r' q) → compile r f = compile r' f
  /-- A field that asks nothing has the same mapping under every resolver. -/
  silent : questions f = [] → ∀ r r' : Resolver Id, compile r f = compile r' f

/-- What a field asks is fixed by the field alone, and nothing else that a resolver says counts. -/
theorem compile_questions (f : Field) : AsksItsQuestions f where
  recorded := (asks_compile f).recorded
  alike := (asks_compile f).alike
  silent := by
    intro hsilent r r'
    refine (asks_compile f).alike r r' fun q hq => ?_
    rw [hsilent] at hq
    exact absurd hq List.not_mem_nil

-- The alias asks for its copies and then for its target. The field without a type asks nothing for
-- its own list, nor does the alias for the field below it.
example :
    let copies := Json.arr [.obj [("keyId", .str "b")], .obj [("keyId", .str "")]]
    let leaf : Field := { Field.ofTag .string with attributes := [("copy_to", copies)] }
    let target : Field := { Field.ofTag .alias with
      properties := some [("x", leaf)], path := some [⟨some "c"⟩], attributes := [("copy_to", copies)] }
    questions { Field.empty with
        properties := some [("a", target), ("d", leaf)], attributes := [("copy_to", copies)] } =
      [.names ["b"], .path "c", .names ["b"]] := by
  decide

end SearchIndex.Mapping
