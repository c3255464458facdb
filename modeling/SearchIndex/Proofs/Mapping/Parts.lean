import SearchIndex.Mapping.Compile
import SearchIndex.Proofs.Mapping.Tree
import SearchIndex.Proofs.Schema.Reading

/-!
# The two parts of a compiled field

A compiled field is its heading, which says what the field says by itself, with its overlay laid
over it: the target of an alias, the groups of a join field, or what comes from below, be it the
properties of the field or the node of its element. `compile_eq` says so for a resolver in any
monad.

* `heading_induction` is the way to a property of headings: the node of the kind has it, and copied
  parameters keep it. `heading_induction_of_parameters` also tells where the parameters come from.
* `overlay_induction` is the way to a property of overlays: what the compiler writes has it, and so
  has what comes from below, for which there is `below_induction`.
* `field_induction` is the way to a property of fields: it passes from properties and element to the
  field.
-/

namespace SearchIndex.Mapping

open Schema

/-- Fields of the kind take nothing from the fields below them. -/
def Kind.isClosed (kind : Kind) : Bool := kind = .alias || kind = .join || kind.isOpaque

/-- The properties that take part in the mapping; those of a range do not. -/
def visited? (f : Field) : Option (List (String × Field)) :=
  if f.tag = some .range then none else f.properties

/-- The visited properties are all properties of the field. -/
theorem properties_of_visited? {f : Field} {fs : List (String × Field)} (h : visited? f = some fs) :
    f.properties = some fs := by
  unfold visited? at h
  split at h
  · simp at h
  · exact h

mutual

/-- A property of fields that passes from the properties of a field and from its element to the
field holds of all. -/
theorem field_induction {P : Field → Prop}
    (h : ∀ f, (∀ fs, f.properties = some fs → ∀ e ∈ fs, P e.2) →
      (∀ g, f.item? = some g → P g) → P f) : ∀ f, P f
  | ⟨tag, mode, properties, items, path, relations, attributes⟩ => by
    refine h _ ?_ ?_
    · intro fs hfs
      cases properties with
      | none => simp at hfs
      | some properties =>
        obtain rfl : properties = fs := by simpa using hfs
        exact fields_induction h properties
    · intro g hg
      cases items with
      | none => simp [Field.item?] at hg
      | some items => exact items_induction h items g (by simpa [Field.item?] using hg)

/-- A property that passes upwards holds of fields by name. -/
theorem fields_induction {P : Field → Prop}
    (h : ∀ f, (∀ fs, f.properties = some fs → ∀ e ∈ fs, P e.2) →
      (∀ g, f.item? = some g → P g) → P f) : ∀ fs : List (String × Field), ∀ e ∈ fs, P e.2
  | [], e, he => by simp at he
  | (name, f) :: rest, e, he => by
    rcases List.mem_cons.1 he with rfl | he
    · exact field_induction h f
    · exact fields_induction h rest e he

/-- A property that passes upwards holds of the element of an array. -/
theorem items_induction {P : Field → Prop}
    (h : ∀ f, (∀ fs, f.properties = some fs → ∀ e ∈ fs, P e.2) →
      (∀ g, f.item? = some g → P g) → P f) :
    ∀ (items : Items) (g : Field), items.first? = some g → P g
  | .one f, g, hg => by
    obtain rfl : f = g := by simpa [Items.first?] using hg
    exact field_induction h f
  | .candidates [], g, hg => by simp [Items.first?] at hg
  | .candidates (f :: _), g, hg => by
    obtain rfl : f = g := by simpa [Items.first?] using hg
    exact field_induction h f

end

/-! ## The heading -/

/-- What the name of a parameter that is copied from a field can be. -/
structure Copied (key : String) : Prop where
  parameter : isParameter key
  ne_text : key ≠ subFieldsText
  untyped : key ∉ Field.structuralNames

/-- The name of the sub-fields may be copied. -/
theorem copied_subFields : Copied subFields := by
  constructor <;> decide

/-- A parameter keeps the name of its attribute or holds sub-fields. -/
theorem parameter?_name {r : Resolver Id} {name key : String} {v value : Json}
    (h : (parameter? r name v : Option (String × Json)) = some (key, value)) :
    key = subFields ∨ key = name ∧ isParameter name ∧ name ≠ subFieldsText := by
  unfold parameter? at h
  split at h
  · simp [pure] at h
  next hp =>
  have hparameter : isParameter name := by simpa using hp
  split at h
  · obtain ⟨fields, -, hkey⟩ := Option.map_eq_some_iff.1 h
    exact .inl (Prod.mk.inj hkey).1.symm
  next htext =>
  split at h
  · obtain ⟨names, -, hkey⟩ := Option.map_eq_some_iff.1 h
    exact .inr ⟨(Prod.mk.inj hkey).1.symm, hparameter, htext⟩
  · exact .inr ⟨(Prod.mk.inj (Option.some.inj h)).1.symm, hparameter, htext⟩

/-- A parameter that is not typed may be copied. -/
theorem copied_of_parameter? {r : Resolver Id} {name key : String} {v value : Json}
    (hname : name ∉ Field.structuralNames)
    (h : (parameter? r name v : Option (String × Json)) = some (key, value)) : Copied key := by
  rcases parameter?_name h with rfl | ⟨rfl, hparameter, htext⟩
  · exact copied_subFields
  · exact ⟨hparameter, htext, hname⟩

/-- Attributes are copied by inserting the parameters that they become. -/
theorem copyAttributes_induction {r : Resolver Id} {P : Node → Prop}
    {attributes : List (String × Json)}
    (hinsert : ∀ n key value, ∀ e ∈ attributes,
      (parameter? r e.1 e.2 : Option (String × Json)) = some (key, value) →
        P n → P (n.insertPlain key value))
    {n : Node} (hn : P n) : P (copyAttributes r attributes n) := by
  induction attributes generalizing n with
  | nil => exact hn
  | cons e rest ih =>
    obtain ⟨name, v⟩ := e
    have hrest : ∀ {n : Node}, P n → P (copyAttributes r rest n) :=
      ih fun n key value e he => hinsert n key value e (List.mem_cons_of_mem _ he)
    have hstep : copyAttributes r ((name, v) :: rest) n =
        (match (parameter? r name v : Option (String × Json)) with
        | some (key, value) => copyAttributes r rest (n.insertPlain key value)
        | none => copyAttributes r rest n) := rfl
    rw [hstep]
    split
    · next key value hkey =>
      exact hrest (hinsert n key value (name, v) List.mem_cons_self hkey hn)
    · exact hrest hn

/-- What every heading has: what the node of the kind has and the parameters that the attributes
become leave alone. -/
theorem heading_induction_of_parameters {r : Resolver Id} {P : Node → Prop} {f : Field}
    (hinsert : ∀ n key value, ∀ e ∈ f.attributes,
      (parameter? r e.1 e.2 : Option (String × Json)) = some (key, value) →
        P n → P (n.insertPlain key value))
    (hstart : P ((Kind.of f).elim .empty Kind.node)) : P (heading r f) := by
  unfold heading
  split
  · next kind hkind =>
    rw [hkind] at hstart
    exact copyAttributes_induction hinsert hstart
  · next hkind =>
    rw [hkind] at hstart
    exact hstart

/-- What every heading of a field that was read has: what the node of the kind has and copied
parameters leave alone. -/
theorem heading_induction {r : Resolver Id} {P : Node → Prop} {f : Field} (hf : f.IsRead)
    (hinsert : ∀ n key value, Copied key → P n → P (n.insertPlain key value))
    (hstart : P ((Kind.of f).elim .empty Kind.node)) : P (heading r f) := by
  refine heading_induction_of_parameters ?_ hstart
  intro n key value e he hkey hn
  exact hinsert n key value (copied_of_parameter? (hf.attributes e he) hkey) hn

/-! ## The overlay -/

/-- The node with nested fields and nothing else. -/
def Node.ofNested (fields : Tree) : Node := Node.empty.setNested fields

/-- Laying nested fields over a node sets them there. -/
theorem Node.assign_ofNested (n : Node) (fields : Tree) :
    n.assign (.ofNested fields) = n.setNested fields := rfl

variable {m : Type → Type} [Monad m]

/-- What a field has from below: its properties, or else the node of its element. -/
def below (r : Resolver m) (f : Field) : m Node :=
  match visited? f with
  | some fs => Node.ofNested <$> compileFields r fs
  | none => f.item?.elim (pure .empty) (compile r)

/-- What is laid over the heading of a field. -/
def overlay (r : Resolver m) (f : Field) : m Node :=
  match Kind.of f with
  | some .alias => aliasNode r f.path
  | some .join => pure (joinNode f.relations)
  | kind => if kind.any Kind.isOpaque then pure .empty else below r f

/-- An array has the node of its element, and an empty one without an element. -/
theorem compileItems_eq (r : Resolver m) (items : Items) :
    compileItems r items = items.first?.elim (pure .empty) (compile r) := by
  cases items with
  | one f => rfl
  | candidates fs => cases fs <;> rfl

/-- A compiled field is its heading with its overlay on top. -/
theorem compile_eq [LawfulMonad m] (r : Resolver m) (f : Field) :
    compile r f = (do return (← heading r f).assign (← overlay r f)) := by
  obtain ⟨tag, mode, properties, items, path, relations, attributes⟩ := f
  have hitem : (items.bind Items.first?).elim (pure .empty) (compile r) =
      items.elim (pure .empty) (compileItems r) := by
    cases items with
    | none => rfl
    | some items => exact (compileItems_eq r items).symm
  rw [compile]
  refine bind_congr fun n => ?_
  simp only [overlay, below, visited?, Field.item?, hitem]
  generalize Kind.of ⟨tag, mode, properties, items, path, relations, attributes⟩ = kind
  split
  · rfl
  · simp
  by_cases hop : kind.any Kind.isOpaque
  · simp [hop]
  simp only [if_neg hop]
  -- a range goes to its element whether it has properties or not
  by_cases ht : tag = some .range
  · simp only [if_pos ht]
    cases items <;> simp
  · simp only [if_neg ht]
    cases properties with
    | some properties => simp [Node.assign_ofNested, ← bind_pure_comp]
    | none => cases items <;> simp

/-- A compiled field is its heading with its overlay on top, without a monad. -/
theorem compile_eq_assign (r : Resolver Id) (f : Field) :
    compile r f = (Node.assign (heading r f) (overlay r f) : Node) :=
  compile_eq r f

/-- Fields are compiled one by one and keep their names. -/
theorem compileFields_eq (r : Resolver Id) (fs : List (String × Field)) :
    compileFields r fs = (fs.map fun e => (e.1, compile r e.2) : Tree) := by
  induction fs with
  | nil => rfl
  | cons e fs ih =>
    obtain ⟨name, f⟩ := e
    rw [List.map_cons, ← ih]
    rfl

/-- An alias adds the path of its target, if it has a target that is found. -/
theorem aliasNode_eq (r : Resolver Id) (path : Option (List Reference)) :
    aliasNode r path = (((aliasTarget? path).bind r.path?).elim .empty fun target =>
      Node.empty.insertPlain "path" (.str target) : Node) := by
  unfold aliasNode
  cases aliasTarget? path with
  | none => rfl
  | some id =>
    have hbind : (some id).bind r.path? = (r.path? id : Option String) := rfl
    rw [hbind]
    cases hp : (r.path? id : Option String) <;> simp only [hp] <;> rfl

/-- What takes something from below is not opaque. -/
theorem any_isOpaque_of_open {kind : Option Kind} (h : kind.any Kind.isClosed = false) :
    kind.any Kind.isOpaque = false := by
  cases kind with
  | none => rfl
  | some kind =>
    simp only [Option.any_some, Kind.isClosed, Bool.or_eq_false_iff] at h
    exact h.2

/-- Of the kinds that take nothing from below, all but aliases and join fields are opaque. -/
theorem any_isOpaque_of_closed {kind : Option Kind} (h : kind.any Kind.isClosed)
    (halias : kind ≠ some .alias) (hjoin : kind ≠ some .join) : kind.any Kind.isOpaque := by
  cases kind with
  | none => simp at h
  | some kind =>
    have ha : kind ≠ .alias := fun heq => halias (congrArg some heq)
    have hj : kind ≠ .join := fun heq => hjoin (congrArg some heq)
    simpa [Kind.isClosed, ha, hj] using h

/-- Over the heading of an open field lies what it has from below. -/
theorem overlay_of_open (r : Resolver m) {f : Field} (h : (Kind.of f).any Kind.isClosed = false) :
    overlay r f = below r f := by
  unfold overlay
  split
  · next hk => simp [hk, Kind.isClosed] at h
  · next hk => simp [hk, Kind.isClosed] at h
  · rw [any_isOpaque_of_open h]
    rfl

/-- What a field has from below: what the empty node has, and so have the nested fields that its
properties are compiled to and the node of its element. -/
theorem below_induction {r : Resolver Id} {P : Node → Prop} {f : Field} (hempty : P .empty)
    (hproperties : ∀ fs, f.properties = some fs → P (.ofNested (compileFields r fs)))
    (hitem : ∀ g, f.item? = some g → P (compile r g)) : P (below r f) := by
  unfold below
  cases hfs : visited? f with
  | some fs => exact hproperties fs (properties_of_visited? hfs)
  | none =>
    cases hg : f.item? with
    | none => exact hempty
    | some g => exact hitem g hg

/-- What every overlay of a field has: what the empty node, the path of a target and the groups of a
join field have, and so has what an open field has from below. -/
theorem overlay_induction {r : Resolver Id} {P : Node → Prop} {f : Field} (hempty : P .empty)
    (htarget : ∀ target, P (Node.empty.insertPlain "path" (.str target)))
    (hgroups : ∀ relations,
      P (Node.empty.insertPlain "relations" (.obj (joinGroups relations))))
    (hbelow : (Kind.of f).any Kind.isClosed = false → P (below r f)) : P (overlay r f) := by
  cases h : (Kind.of f).any Kind.isClosed with
  | false =>
    rw [overlay_of_open r h]
    exact hbelow h
  | true =>
    unfold overlay
    split
    · rw [aliasNode_eq]
      cases (aliasTarget? f.path).bind r.path? with
      | none => exact hempty
      | some target => exact htarget target
    · cases f.relations with
      | none => exact hempty
      | some relations => exact hgroups relations
    · next halias hjoin =>
      rw [if_pos (any_isOpaque_of_closed h halias hjoin)]
      exact hempty

end SearchIndex.Mapping
