import SearchIndex.Proofs.Mapping.Parts
import SearchIndex.Proofs.Schema.Grammar

/-!
# The candidates that take no part

Of a list of candidates only the first one is compiled, but all of them have to read: a list with
one that does not is ill-shaped and reads like a missing key. So the later candidates may be changed
at will as long as this stays as it is.

`MapsAlike` are fields that cannot be told apart by what they are compiled to, `ReadsAlike`
documents that read as such fields or do not read at all. A document that holds another one, as a
property or under `items`, keeps `ReadsAlike`: `readsAlike_property` and `readsAlike_items` are the
steps, and `Throughout.readsAlike` goes with them from the place of a change to the whole document.
-/

namespace SearchIndex.Mapping

open Schema Schema.Field
open Json (IsOptional)

variable {m : Type → Type} [Monad m] (r : Resolver m)

/-! ## Fields with the same mapping -/

/-- The fields agree in what they say by themselves. -/
structure SaysAlike (f f' : Field) : Prop where
  tag : f.tag = f'.tag
  mode : f.mode = f'.mode
  path : f.path = f'.path
  relations : f.relations = f'.relations
  attributes : f.attributes = f'.attributes

/-- The fields give the same mapping, as they stand, as the fields of an entity and as an entity. -/
structure MapsAlike (f f' : Field) : Prop where
  node : compile r f = compile r f'
  fields : f.properties.map (compileFields r) = f'.properties.map (compileFields r)
  document : compileDocument r f = compileDocument r f'

variable {r}

theorem MapsAlike.symm {f f' : Field} (h : MapsAlike r f f') : MapsAlike r f' f :=
  ⟨h.node.symm, h.fields.symm, h.document.symm⟩

theorem MapsAlike.trans {f f' f'' : Field} (h : MapsAlike r f f') (h' : MapsAlike r f' f'') :
    MapsAlike r f f'' :=
  ⟨h.node.trans h'.node, h.fields.trans h'.fields, h.document.trans h'.document⟩

/-- Below a field stand its visited properties or, without those, the node of its element. -/
theorem below_eq (f : Field) :
    below r f = ((visited? f).map (compileFields r)).elim
      ((f.item?.map (compile r)).getD (pure .empty)) (Node.ofNested <$> ·) := by
  unfold below
  cases visited? f with
  | some fs => rfl
  | none => cases f.item? <;> rfl

/-- Fields that say the same have the same mapping if their properties and their elements have. -/
theorem compile_congr [LawfulMonad m] {f f' : Field} (h : SaysAlike f f')
    (hfields : f.properties.map (compileFields r) = f'.properties.map (compileFields r))
    (hitem : f.item?.map (compile r) = f'.item?.map (compile r)) : compile r f = compile r f' := by
  obtain ⟨tag, mode, properties, items, path, relations, attributes⟩ := f
  obtain ⟨tag', mode', properties', items', path', relations', attributes'⟩ := f'
  obtain ⟨rfl, rfl, rfl, rfl, rfl⟩ := h
  have hvisited : (visited? ⟨tag, mode, properties, items, path, relations, attributes⟩).map
        (compileFields r) =
      (visited? ⟨tag, mode, properties', items', path, relations, attributes⟩).map
        (compileFields r) := by
    unfold visited?
    by_cases htag : tag = some .range
    · simp only [if_pos htag]
    · simpa only [if_neg htag] using hfields
  rw [compile_eq, compile_eq]
  refine congrArg₂ _ ?_ ?_
  · rfl
  · unfold overlay
    rw [below_eq, below_eq, hvisited, hitem]
    rfl

/-- A property may be replaced by one with the same mapping. -/
theorem compileFields_replace {g g' : Field} (h : compile r g = compile r g') (name : String)
    (front rest : List (String × Field)) :
    compileFields r (front ++ (name, g) :: rest) =
      compileFields r (front ++ (name, g') :: rest) := by
  induction front with
  | nil => rw [List.nil_append, List.nil_append, compileFields, compileFields, h]
  | cons e front ih => rw [List.cons_append, List.cons_append, compileFields, compileFields, ih]

/-- The mapping of an entity is that of the properties of its wrapper. -/
theorem compileDocument_eq (f : Field) :
    compileDocument r f = ((f.properties.bind fun fs => Table.get? fs sourceName).bind fun g =>
      g.properties.map (compileFields r)).getD (pure []) := by
  rw [compileDocument, documentFields]
  cases f.properties.bind fun fs => Table.get? fs sourceName with
  | none => rfl
  | some g =>
    cases hg : g.properties with
    | none => simp [hg, compileFields]
    | some fs => simp [hg]

/-- Fields that say the same and have the same properties have the same mapping if their elements
have. -/
theorem MapsAlike.of_properties_eq [LawfulMonad m] {f f' : Field} (h : SaysAlike f f')
    (hproperties : f.properties = f'.properties)
    (hitem : f.item?.map (compile r) = f'.item?.map (compile r)) : MapsAlike r f f' := by
  refine ⟨compile_congr h (by rw [hproperties]) hitem, by rw [hproperties], ?_⟩
  rw [compileDocument_eq, compileDocument_eq, hproperties]

/-- Fields of which one property differs have the same mapping if that property has. -/
theorem MapsAlike.of_property [LawfulMonad m] {f f' g g' : Field} (h : SaysAlike f f')
    (hitem : f.item? = f'.item?) {name : String} {front rest : List (String × Field)}
    (hfs : f.properties = some (front ++ (name, g) :: rest))
    (hfs' : f'.properties = some (front ++ (name, g') :: rest)) (hmaps : MapsAlike r g g') :
    MapsAlike r f f' := by
  have hfields : f.properties.map (compileFields r) = f'.properties.map (compileFields r) := by
    rw [hfs, hfs', Option.map_some, Option.map_some,
      compileFields_replace hmaps.node name front rest]
  refine ⟨compile_congr h hfields (by rw [hitem]), hfields, ?_⟩
  rw [compileDocument_eq, compileDocument_eq, hfs, hfs']
  simp only [Option.bind_some, Table.get?_append]
  cases Table.get? front sourceName with
  | some w => rfl
  | none =>
    by_cases hname : name = sourceName
    · simpa [Table.get?, hname] using congrArg (·.getD (pure [])) hmaps.fields
    · simp [Table.get?, hname]

/-! ## Documents that read as such fields -/

/-- Either document reads iff the other one does, and they read as fields with the same mapping. -/
structure ReadsAlike (r : Resolver m) (v v' : Json) : Prop where
  accepted : Accepted v ↔ Accepted v'
  maps : ∀ f f', ofJson v = .ok f → ofJson v' = .ok f' → MapsAlike r f f'

/-- If a document reads, one that reads alike does so. -/
theorem ReadsAlike.exists_read {v v' : Json} (h : ReadsAlike r v v') {f : Field}
    (hf : ofJson v = .ok f) : ∃ f', ofJson v' = .ok f' := by
  rw [exists_ofJson_iff, ← h.accepted, ← exists_ofJson_iff]
  exact ⟨f, hf⟩

theorem ReadsAlike.symm {v v' : Json} (h : ReadsAlike r v v') : ReadsAlike r v' v :=
  ⟨h.accepted.symm, fun f' f hf' hf => (h.maps f f' hf hf').symm⟩

theorem ReadsAlike.trans {v v' v'' : Json} (h : ReadsAlike r v v') (h' : ReadsAlike r v' v'') :
    ReadsAlike r v v'' := by
  refine ⟨h.accepted.trans h'.accepted, fun f f'' hf hf'' => ?_⟩
  obtain ⟨f', hf'⟩ := h.exists_read hf
  exact (h.maps f f' hf hf').trans (h'.maps f' f'' hf' hf'')

/-- Another value of one key leaves the other keys. -/
theorem get?_replace_of_ne {front rest : List (String × Json)} {name key : String} (h : name ≠ key)
    (v v' : Json) : Table.get? (front ++ (name, v) :: rest) key =
      Table.get? (front ++ (name, v') :: rest) key := by
  simp [Table.get?_append, Table.get?, h]

/-- Fields say the same if they are read from members that differ in properties or items only. -/
theorem saysAlike_replace {front rest : List (String × Json)} {name : String} {v v' : Json}
    {f f' : Field} (hname : name = "properties" ∨ name = "items")
    (h : ReadFrom (front ++ (name, v) :: rest) f) (h' : ReadFrom (front ++ (name, v') :: rest) f') :
    SaysAlike f f' := by
  have hget : ∀ key, key ≠ "properties" → key ≠ "items" →
      Table.get? (front ++ (name, v) :: rest) key =
        Table.get? (front ++ (name, v') :: rest) key := by
    intro key hproperties hitems
    refine get?_replace_of_ne ?_ v v'
    rintro rfl
    exact hname.elim hproperties hitems
  constructor
  · have htag := h.tag
    rw [hget "type" (by decide) (by decide), h'.tag] at htag
    exact (Except.ok.inj htag).symm
  · rw [h.mode, h'.mode, hget "mode" (by decide) (by decide)]
  · rw [h.path, h'.path, hget "path" (by decide) (by decide)]
  · rw [h.relations, h'.relations, hget "relations" (by decide) (by decide)]
  · rw [h.attributes, h'.attributes]
    rcases hname with rfl | rfl <;> simp [structuralNames]

/-- Only the value under a key matters for whether an object is accepted. -/
theorem accepted_replace {front rest : List (String × Json)} {name : String} {v v' : Json}
    (htype : name ≠ "type")
    (h : name = "properties" → (IsOptional IsProperties v ↔ IsOptional IsProperties v')) :
    Accepted (.obj (front ++ (name, v) :: rest)) ↔
      Accepted (.obj (front ++ (name, v') :: rest)) := by
  simp only [accepted_obj_iff, List.forall_mem_append, List.forall_mem_cons, htype, false_implies,
    true_and]
  rw [forall_congr' h]

/-- The element of items, in a document. -/
def elementOf (v : Json) : Option Field := (itemsOf v).bind Items.first?

/-- Items whose elements have the same mapping may stand for each other. -/
theorem readsAlike_items [LawfulMonad m] {v v' : Json}
    (h : (elementOf v).map (compile r) = (elementOf v').map (compile r))
    (front rest : List (String × Json)) :
    ReadsAlike r (.obj (front ++ ("items", v) :: rest))
      (.obj (front ++ ("items", v') :: rest)) := by
  refine ⟨accepted_replace (by decide) (by simp), fun f f' hf hf' => ?_⟩
  have hread := readFrom_of_ofMembers hf
  have hread' := readFrom_of_ofMembers hf'
  have hsays := saysAlike_replace (.inr rfl) hread hread'
  have hproperties : f.properties = f'.properties := by
    have hproperties := hread.properties
    rw [get?_replace_of_ne (by decide) v v', hread'.properties] at hproperties
    exact (Except.ok.inj hproperties).symm
  have hitem : f.item?.map (compile r) = f'.item?.map (compile r) := by
    rw [item?, item?, hread.items, hread'.items, Table.get?_append, Table.get?_append]
    cases Table.get? front "items" with
    | some w => rfl
    | none => simpa [Table.get?, elementOf] using h
  exact .of_properties_eq hsays hproperties hitem

/-- Another document of one property leaves the fields of the other properties. -/
theorem entriesOf_replace {before after : List (String × Json)} {name : String} {v v' : Json}
    {fs fs' : List (String × Field)} (h : entriesOf (before ++ (name, v) :: after) = .ok fs)
    (h' : entriesOf (before ++ (name, v') :: after) = .ok fs') :
    ∃ front g g' rest, ofJson v = .ok g ∧ ofJson v' = .ok g' ∧
      fs = front ++ (name, g) :: rest ∧ fs' = front ++ (name, g') :: rest := by
  induction before generalizing fs fs' with
  | nil =>
    rw [List.nil_append, entriesOf] at h h'
    obtain ⟨g, hg, h⟩ := Except.bind_eq_ok.1 h
    obtain ⟨rest, hrest, h⟩ := Except.bind_eq_ok.1 h
    obtain ⟨g', hg', h'⟩ := Except.bind_eq_ok.1 h'
    obtain ⟨rest', hrest', h'⟩ := Except.bind_eq_ok.1 h'
    -- what stands around the entry is read twice, with the same result
    obtain rfl : rest = rest' := Except.ok.inj (hrest.symm.trans hrest')
    exact ⟨[], g, g', rest, hg, hg', (Except.ok.inj h).symm, (Except.ok.inj h').symm⟩
  | cons e before ih =>
    obtain ⟨key, w⟩ := e
    rw [List.cons_append, entriesOf] at h h'
    obtain ⟨first, hfirst, h⟩ := Except.bind_eq_ok.1 h
    obtain ⟨others, hothers, h⟩ := Except.bind_eq_ok.1 h
    obtain ⟨first', hfirst', h'⟩ := Except.bind_eq_ok.1 h'
    obtain ⟨others', hothers', h'⟩ := Except.bind_eq_ok.1 h'
    obtain rfl : first = first' := Except.ok.inj (hfirst.symm.trans hfirst')
    obtain ⟨front, g, g', rest, hg, hg', rfl, rfl⟩ := ih hothers hothers'
    exact ⟨(key, first) :: front, g, g', rest, hg, hg', (Except.ok.inj h).symm,
      (Except.ok.inj h').symm⟩

/-- Properties of which one is replaced by one with the same mapping are accepted alike. -/
theorem isProperties_replace {v v' : Json} (h : Accepted v ↔ Accepted v') (name : String)
    (before after : List (String × Json)) :
    IsProperties (.obj (before ++ (name, v) :: after)) ↔
      IsProperties (.obj (before ++ (name, v') :: after)) := by
  have hobj : ∀ entries, IsProperties (.obj entries) ↔ ∀ e ∈ entries, Accepted e.2 := by
    intro entries
    simp [IsProperties]
  rw [hobj, hobj, List.forall_mem_append, List.forall_mem_append, List.forall_mem_cons,
    List.forall_mem_cons, h]

/-- Under the key of the properties stands the same, or properties of which one is replaced. -/
theorem properties_replace {front rest before after : List (String × Json)} {name : String}
    {v v' : Json} {f f' : Field}
    (h : ReadFrom (front ++ ("properties", .obj (before ++ (name, v) :: after)) :: rest) f)
    (h' : ReadFrom (front ++ ("properties", .obj (before ++ (name, v') :: after)) :: rest) f') :
    f.properties = f'.properties ∨ ∃ fs fs', f.properties = some fs ∧ f'.properties = some fs' ∧
      entriesOf (before ++ (name, v) :: after) = .ok fs ∧
      entriesOf (before ++ (name, v') :: after) = .ok fs' := by
  have hproperties := h.properties
  have hproperties' := h'.properties
  rw [Table.get?_append] at hproperties hproperties'
  cases hfront : Table.get? front "properties" with
  | some w =>
    left
    rw [hfront] at hproperties hproperties'
    exact Except.ok.inj (hproperties.symm.trans hproperties')
  | none =>
    right
    rw [hfront] at hproperties hproperties'
    obtain ⟨fs, hfs, hsome⟩ := Except.map_eq_ok.1
      (by simpa [Table.get?, propertiesOf] using hproperties)
    obtain ⟨fs', hfs', hsome'⟩ := Except.map_eq_ok.1
      (by simpa [Table.get?, propertiesOf] using hproperties')
    exact ⟨fs, fs', hsome.symm, hsome'.symm, hfs, hfs'⟩

/-- A property with the same mapping may stand for another one. -/
theorem readsAlike_property [LawfulMonad m] {v v' : Json} (h : ReadsAlike r v v') (name : String)
    (before after front rest : List (String × Json)) :
    ReadsAlike r (.obj (front ++ ("properties", .obj (before ++ (name, v) :: after)) :: rest))
      (.obj (front ++ ("properties", .obj (before ++ (name, v') :: after)) :: rest)) := by
  refine ⟨accepted_replace (by decide) fun _ => ?_, fun f f' hf hf' => ?_⟩
  · rw [IsOptional, IsOptional, isProperties_replace h.accepted]
    simp
  have hread := readFrom_of_ofMembers hf
  have hread' := readFrom_of_ofMembers hf'
  have hsays := saysAlike_replace (.inl rfl) hread hread'
  have hitem : f.item? = f'.item? := by
    rw [item?, item?, hread.items, hread'.items, get?_replace_of_ne (by decide)]
  rcases properties_replace hread hread' with heq | ⟨fs, fs', hfs, hfs', hentries, hentries'⟩
  · exact .of_properties_eq hsays heq (by rw [hitem])
  · obtain ⟨before, g, g', after, hg, hg', rfl, rfl⟩ := entriesOf_replace hentries hentries'
    exact .of_property hsays hitem hfs hfs' (h.maps g g' hg hg')

/-! ## The element of a list -/

/-- If all candidates read, the first one is the element. -/
theorem elementOf_list {v : Json} {vs : List Json} (h : ∀ w ∈ v :: vs, Accepted w) :
    elementOf (.arr (v :: vs)) = (ofJson v).toOption := by
  rw [List.forall_mem_cons, ← isSome_candidatesOf_iff, ← exists_ofJson_iff] at h
  obtain ⟨⟨f, hf⟩, hrest⟩ := h
  obtain ⟨fs, hfs⟩ := Option.isSome_iff_exists.1 hrest
  simp [elementOf, itemsOf, candidatesOf, hf, hfs, Items.first?, Except.toOption]

/-- If one of the candidates does not read, there is no element. -/
theorem elementOf_list_of_not {vs : List Json} (h : ¬ ∀ w ∈ vs, Accepted w) :
    elementOf (.arr vs) = none := by
  rw [← isSome_candidatesOf_iff, Option.not_isSome_iff_eq_none] at h
  simp [elementOf, itemsOf, h]

/-- A single candidate is the element if it reads. -/
theorem elementOf_obj (members : List (String × Json)) :
    elementOf (.obj members) = (ofJson (.obj members)).toOption := by
  rw [elementOf, itemsOf_obj]
  cases ofJson (.obj members) <;> rfl

/-- Documents that read alike are compiled alike, if they read. -/
theorem ReadsAlike.compile_eq {v v' : Json} (h : ReadsAlike r v v') :
    (ofJson v).toOption.map (compile r) = (ofJson v').toOption.map (compile r) := by
  cases hf : ofJson v with
  | ok f =>
    obtain ⟨f', hf'⟩ := h.exists_read hf
    simp [hf', Except.toOption, (h.maps f f' hf hf').node]
  | error e =>
    cases hf' : ofJson v' with
    | ok f' =>
      obtain ⟨f, hok⟩ := h.symm.exists_read hf'
      simp [hf] at hok
    | error e' => rfl

/-- Lists with the same first candidate have the same element if both read or neither does. -/
theorem elementOf_later {v : Json} {vs ws : List Json}
    (h : (∀ w ∈ v :: vs, Accepted w) ↔ ∀ w ∈ v :: ws, Accepted w) :
    elementOf (.arr (v :: vs)) = elementOf (.arr (v :: ws)) := by
  by_cases hvs : ∀ w ∈ v :: vs, Accepted w
  · rw [elementOf_list hvs, elementOf_list (h.1 hvs)]
  · rw [elementOf_list_of_not hvs, elementOf_list_of_not (mt h.2 hvs)]

/-- A candidate with the same mapping may stand for another one. -/
theorem elementOf_candidate {v v' : Json} (h : ReadsAlike r v v') (before after : List Json) :
    (elementOf (.arr (before ++ v :: after))).map (compile r) =
      (elementOf (.arr (before ++ v' :: after))).map (compile r) := by
  have hread : (∀ w ∈ before ++ v :: after, Accepted w) ↔
      ∀ w ∈ before ++ v' :: after, Accepted w := by
    simp only [List.forall_mem_append, List.forall_mem_cons, h.accepted]
  cases before with
  | cons w before => exact congrArg (Option.map (compile r)) (elementOf_later hread)
  | nil =>
    simp only [List.nil_append] at hread ⊢
    by_cases hall : ∀ w ∈ v :: after, Accepted w
    · rw [elementOf_list hall, elementOf_list (hread.1 hall)]
      exact h.compile_eq
    · rw [elementOf_list_of_not hall, elementOf_list_of_not (mt hread.2 hall)]

/-! ## A change at any depth -/

/-- A change of one field document that takes no part in its mapping. -/
inductive Inert : Json → Json → Prop
  /-- Other later candidates; all candidates read in both documents, or in neither. -/
  | later {front rest : List (String × Json)} {v : Json} {vs ws : List Json}
      (h : (∀ w ∈ v :: vs, Accepted w) ↔ ∀ w ∈ v :: ws, Accepted w) :
      Inert (.obj (front ++ ("items", .arr (v :: vs)) :: rest))
        (.obj (front ++ ("items", .arr (v :: ws)) :: rest))
  /-- No items instead of a list with a candidate that does not read. -/
  | unread {members : List (String × Json)} {vs : List Json}
      (hget : Table.get? members "items" = some (.arr vs)) (h : ¬ ∀ w ∈ vs, Accepted w) :
      Inert (.obj members) (.obj (without "items" members))

/-- Changes of the field documents in a document, any number of them at any depth. -/
inductive Throughout (change : Json → Json → Prop) : Json → Json → Prop
  | here {v v' : Json} (h : change v v') : Throughout change v v'
  | property {v v' : Json} (h : Throughout change v v') (name : String)
      (before after front rest : List (String × Json)) :
      Throughout change
        (.obj (front ++ ("properties", .obj (before ++ (name, v) :: after)) :: rest))
        (.obj (front ++ ("properties", .obj (before ++ (name, v') :: after)) :: rest))
  | item {members members' : List (String × Json)}
      (h : Throughout change (.obj members) (.obj members')) (front rest : List (String × Json)) :
      Throughout change (.obj (front ++ ("items", .obj members) :: rest))
        (.obj (front ++ ("items", .obj members') :: rest))
  | candidate {v v' : Json} (h : Throughout change v v') (before after : List Json)
      (front rest : List (String × Json)) :
      Throughout change (.obj (front ++ ("items", .arr (before ++ v :: after)) :: rest))
        (.obj (front ++ ("items", .arr (before ++ v' :: after)) :: rest))
  | trans {v v' v'' : Json} (h : Throughout change v v') (h' : Throughout change v' v'') :
      Throughout change v v''

/-- What an inert change leaves of a field document reads as the document did. -/
theorem Inert.readsAlike [LawfulMonad m] {v v' : Json} (h : Inert v v') : ReadsAlike r v v' := by
  cases h with
  | later h => exact readsAlike_items (congrArg (Option.map (compile r)) (elementOf_later h)) _ _
  | @unread members vs hget h =>
    have hill : ∀ w, Table.get? members "items" = some w → ¬ WellShaped "items" w := by
      rintro w hw (hone | ⟨ws, rfl, hws⟩)
      · obtain rfl : .arr vs = w := Option.some.inj (hget.symm.trans hw)
        exact nomatch hone
      · obtain rfl : vs = ws := Json.arr.inj (Option.some.inj (hget.symm.trans hw))
        exact h hws
    have hwithout := ofJson_without (by decide) hill
    refine ⟨?_, fun f f' hf hf' => ?_⟩
    · rw [← exists_ofJson_iff, ← exists_ofJson_iff]
      exact (exists_congr hwithout).symm
    · obtain rfl : f = f' := Except.ok.inj (hf.symm.trans ((hwithout f').1 hf'))
      exact ⟨rfl, rfl, rfl⟩

/-- What may be changed in one document may be changed in every document that holds it. -/
theorem Throughout.readsAlike [LawfulMonad m] {change : Json → Json → Prop}
    (hchange : ∀ v v', change v v' → ReadsAlike r v v') {v v' : Json}
    (h : Throughout change v v') : ReadsAlike r v v' := by
  induction h with
  | here h => exact hchange _ _ h
  | property _ name before after front rest ih =>
    exact readsAlike_property ih name before after front rest
  | item _ front rest ih =>
    refine readsAlike_items ?_ front rest
    rw [elementOf_obj, elementOf_obj]
    exact ih.compile_eq
  | candidate _ before after front rest ih =>
    exact readsAlike_items (elementOf_candidate ih before after) front rest
  | trans _ _ ih ih' => exact ih.trans ih'

/-- Documents that differ in later candidates only, all of which read in both documents or not in
either, have the same mapping, and a list with a candidate that does not read maps like a missing
one. -/
theorem mapping_ignores_later_candidates [LawfulMonad m] (r : Resolver m) {v v' : Json} {f : Field}
    (h : Throughout Inert v v') (hf : ofJson v = .ok f) :
    ∃ f', ofJson v' = .ok f' ∧ compile r f' = compile r f ∧
      compileDocument r f' = compileDocument r f := by
  have halike : ReadsAlike r v v' := h.readsAlike fun _ _ => Inert.readsAlike
  obtain ⟨f', hf'⟩ := halike.exists_read hf
  have hmaps := halike.maps f f' hf hf'
  exact ⟨f', hf', hmaps.node.symm, hmaps.document.symm⟩

/-- An entity with a list of texts, with candidates behind the first one. -/
def textsDocument (later : List Json) : Json :=
  .obj [("properties", .obj [("_source", .obj [("properties", .obj [("tags",
    .obj [("type", .str "array"), ("items", .arr (.obj [("type", .str "string")] :: later))])])])])]

/-- Texts have one candidate behind the first one, or two others in its place. -/
theorem mapping_ignores_later_candidates_texts :
    let v := textsDocument [.obj [("type", .str "object")]]
    let v' := textsDocument [.obj [("items", .null)], .obj [("type", .str "integer")]]
    let s : Scopes := ⟨.null, .null, .null, .null⟩
    Throughout Inert v v' ∧ ∃ f, ofJson v = .ok f ∧ ∃ f', ofJson v' = .ok f' ∧
      compile s.resolver f' = compile s.resolver f ∧
      compileDocument s.resolver f' = compileDocument s.resolver f := by
  intro v v' s
  have htyped : ∀ name, Accepted (.obj [("type", .str name)]) :=
    fun name => (exists_ofJson_iff _).1 ⟨_, rfl⟩
  have huntyped : Accepted (.obj [("items", .null)]) := (exists_ofJson_iff _).1 ⟨_, rfl⟩
  have hlist : Inert (.obj ([("type", .str "array")] ++
        ("items", .arr [.obj [("type", .str "string")], .obj [("type", .str "object")]]) :: []))
      (.obj ([("type", .str "array")] ++ ("items", .arr [.obj [("type", .str "string")],
        .obj [("items", .null)], .obj [("type", .str "integer")]]) :: [])) :=
    .later (by simp [htyped, huntyped])
  have hchange : Throughout Inert v v' :=
    .property (.property (.here hlist) "tags" [] [] [] []) "_source" [] [] [] []
  exact ⟨hchange, _, rfl, mapping_ignores_later_candidates s.resolver hchange rfl⟩

/-- A later candidate that does not read takes the first one with it. -/
theorem unread_candidate_changes_mapping :
    let first : Json := .obj [("type", .str "string")]
    let document (later : List Json) : Json :=
      .obj [("type", .str "array"), ("items", .arr (first :: later))]
    let s : Scopes := ⟨.null, .null, .null, .null⟩
    (∃ f, ofJson first = .ok f) ∧
      ∃ f f', ofJson (document []) = .ok f ∧ ofJson (document [.num (.integer 5)]) = .ok f' ∧
        (compile s.resolver f : Node) = .ofType "text" ∧ (compile s.resolver f' : Node) = .empty ∧
        (compile s.resolver f : Node) ≠ compile s.resolver f' := by
  intro first document s
  have htext : Node.ofType "text" ≠ .empty := by
    intro h
    exact List.cons_ne_nil _ _ (Node.mk.inj h)
  exact ⟨⟨_, rfl⟩, _, _, rfl, rfl, rfl, rfl, htext⟩

end SearchIndex.Mapping
