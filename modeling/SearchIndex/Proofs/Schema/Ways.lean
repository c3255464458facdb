import SearchIndex.Proofs.Json.Every
import SearchIndex.Proofs.Schema.Search

/-!
# Ways to the fields of a document

`Leads` and `Defines` say what stands below a node, without the order and the trail of a search: a
property on a way of names, and a definition anywhere. `Placed` tells which place is reported for
such a field. The way counts from the document or from the nearest definition on, and each `_source`
that it begins with is left out.

`mem_entries_iff` says that these are the fields that a search goes through, and `Placed.ends` that
a path ends with the name of its field unless there is nothing left of the way.
-/

namespace SearchIndex.Schema

/-- A property that stands below a node, with the names of the properties on the way to it and its
own name. Candidates for an element add no name. -/
inductive Leads : Json → List String → String → Json → Prop
  | property {v w : Json} {name : String} (h : (name, w) ∈ membersAt v "properties") :
      Leads v [] name w
  | deeper {v u w : Json} {first : String} {names : List String} {name : String}
      (h : (first, u) ∈ membersAt v "properties") (h' : Leads u names name w) :
      Leads v (first :: names) name w
  | item {v u w : Json} {names : List String} {name : String} (h : u ∈ candidates v)
      (h' : Leads u names name w) : Leads v names name w

/-- A definition that stands in a node or anywhere below it. -/
inductive Defines : Json → String → Json → Prop
  | own {v w : Json} {name : String} (h : (name, w) ∈ membersAt v "definitions") :
      Defines v name w
  | property {v u w : Json} {name other : String} (h : (other, u) ∈ membersAt v "properties")
      (h' : Defines u name w) : Defines v name w
  | definition {v u w : Json} {name other : String} (h : (other, u) ∈ membersAt v "definitions")
      (h' : Defines u name w) : Defines v name w
  | item {v u w : Json} {name : String} (h : u ∈ candidates v) (h' : Defines u name w) :
      Defines v name w

/-- The members of a node are below it. -/
theorem mem_membersAt {v : Json} {name : String} {e : String × Json} (h : e ∈ membersAt v name) :
    ∃ ms entries, v = .obj ms ∧ (name, .obj entries) ∈ ms ∧ e ∈ entries := by
  cases v with
  | obj ms =>
    rw [membersAt, Json.get?] at h
    cases hget : Table.get? ms name with
    | none => simp [hget] at h
    | some w =>
      cases w with
      | obj entries =>
        exact ⟨ms, entries, rfl, Table.mem_of_get? hget, by simpa [hget, Json.members?] using h⟩
      | _ => simp [hget, Json.members?] at h
  | _ => simp [membersAt, Json.get?] at h

/-- A candidate for the element of a node stands below it. -/
theorem mem_candidates {v u : Json} (h : u ∈ candidates v) :
    ∃ ms, v = .obj ms ∧ (("items", u) ∈ ms ∨ ∃ us, ("items", .arr us) ∈ ms ∧ u ∈ us) := by
  cases v with
  | obj ms =>
    rw [candidates, Json.get?] at h
    refine ⟨ms, rfl, ?_⟩
    split at h
    · next us hget => exact .inr ⟨us, Table.mem_of_get? hget, h⟩
    · next item _ hget =>
      obtain rfl := List.mem_singleton.1 h
      exact .inl (Table.mem_of_get? hget)
    · simp at h
  | _ => simp [candidates, Json.get?] at h

/-- A property of nodes that passes from properties, definitions and candidates to the node holds of
all. -/
theorem node_induction {P : Json → Prop}
    (h : ∀ v, (∀ e ∈ membersAt v "properties", P e.2) → (∀ e ∈ membersAt v "definitions", P e.2) →
      (∀ u ∈ candidates v, P u) → P v) (v : Json) : P v := by
  -- what stands under a key of a node is a step further down than the value of the key
  have hbelow : P v ∧ (∀ ms, v = .obj ms → ∀ e ∈ ms, P e.2) ∧
      ∀ us, v = .arr us → ∀ u ∈ us, P u := by
    induction v using Json.value_induction with
    | h v hitems hmembers =>
    have hat : ∀ name, ∀ e ∈ membersAt v name, P e.2 := by
      intro name e he
      obtain ⟨ms, entries, hv, hname, he⟩ := mem_membersAt he
      exact (hmembers ms hv _ hname).2.1 entries rfl e he
    refine ⟨h v (hat "properties") (hat "definitions") fun u hu => ?_,
      fun ms hv e he => (hmembers ms hv e he).1, fun us hv u hu => (hitems us hv u hu).1⟩
    obtain ⟨ms, hv, hu | ⟨us, hus, hu⟩⟩ := mem_candidates hu
    · exact (hmembers ms hv _ hu).1
    · exact (hmembers ms hv _ hus).2.2 us rfl u hu
  exact hbelow.1

/-- The names of a way, without each `_source` that has nothing before it. -/
def unwrapped (names : List String) : List String := names.dropWhile (· = sourceName)

/-- Every name extends a trail that is not empty. -/
theorem foldl_extendTrail_of_ne_nil {trail : List String} (h : trail ≠ []) (names : List String) :
    names.foldl extendTrail trail = trail ++ names := by
  induction names generalizing trail with
  | nil => simp
  | cons name names ih =>
    have hstep : extendTrail trail name = trail ++ [name] := by simp [extendTrail, h]
    rw [List.foldl_cons, hstep, ih (by simp), List.append_assoc, List.singleton_append]

/-- An empty trail is not extended by any `_source` before the first other name. -/
theorem foldl_extendTrail_nil (names : List String) :
    names.foldl extendTrail [] = unwrapped names := by
  induction names with
  | nil => rfl
  | cons name names ih =>
    by_cases h : name = sourceName
    · simpa [extendTrail, unwrapped, h] using ih
    · simp [extendTrail, unwrapped, h, foldl_extendTrail_of_ne_nil]

/-- The place that is reported for a field below a node that is reached by `trail`. -/
inductive Placed (trail : List String) (v : Json) : Location → Json → Prop
  | field {names : List String} {name : String} {w : Json} (h : Leads v names name w) :
      Placed trail v ⟨name, (names ++ [name]).foldl extendTrail trail⟩ w
  | definition {name : String} {w : Json} (h : Defines v name w) : Placed trail v ⟨name, [name]⟩ w
  | fieldOf {names : List String} {definition name : String} {u w : Json}
      (h : Defines v definition u) (h' : Leads u names name w) :
      Placed trail v ⟨name, unwrapped (names ++ [name])⟩ w

variable {trail : List String} {v u w : Json} {l : Location} {names : List String} {name : String}

/-- What is placed below a property is placed below the node. -/
theorem Placed.of_property (h : (name, u) ∈ membersAt v "properties")
    (hplaced : Placed (extendTrail trail name) u l w) : Placed trail v l w := by
  cases hplaced with
  | field hleads => exact .field (.deeper h hleads)
  | definition hdefines => exact .definition (.property h hdefines)
  | fieldOf hdefines hleads => exact .fieldOf (.property h hdefines) hleads

/-- What is placed below a definition is placed below the node. -/
theorem Placed.of_definition (h : (name, u) ∈ membersAt v "definitions")
    (hplaced : Placed [] u l w) : Placed trail v l w := by
  cases hplaced with
  | field hleads =>
    rw [foldl_extendTrail_nil]
    exact .fieldOf (.own h) hleads
  | definition hdefines => exact .definition (.definition h hdefines)
  | fieldOf hdefines hleads => exact .fieldOf (.definition h hdefines) hleads

/-- What is placed below a candidate is placed below the node. -/
theorem Placed.of_item (h : u ∈ candidates v) (hplaced : Placed trail u l w) :
    Placed trail v l w := by
  cases hplaced with
  | field hleads => exact .field (.item h hleads)
  | definition hdefines => exact .definition (.item h hdefines)
  | fieldOf hdefines hleads => exact .fieldOf (.item h hdefines) hleads

/-- Every entry is placed. -/
theorem placed_of_mem_entries (h : (l, w) ∈ entries trail v) : Placed trail v l w := by
  induction v using node_induction generalizing trail l w with
  | h v hproperties hdefinitions hcandidates =>
  rw [entries_eq, List.mem_append, List.mem_append, List.mem_flatMap, List.mem_flatMap,
    List.mem_flatMap] at h
  rcases h with (⟨⟨name, u⟩, he, h⟩ | ⟨⟨name, u⟩, he, h⟩) | ⟨u, he, h⟩
  · rcases List.mem_cons.1 h with heq | h
    · obtain ⟨rfl, rfl⟩ := Prod.mk.inj heq
      exact .field (.property he)
    · exact .of_property he (hproperties _ he h)
  · rcases List.mem_cons.1 h with heq | h
    · obtain ⟨rfl, rfl⟩ := Prod.mk.inj heq
      exact .definition (.own he)
    · exact .of_definition he (hdefinitions _ he h)
  · exact .of_item he (hcandidates u he h)

/-- A property and what is below it are entries. -/
theorem mem_entries_property (h : (name, u) ∈ membersAt v "properties") {e : Location × Json}
    (he : e ∈ withProperty trail (name, u)) : e ∈ entries trail v := by
  rw [entries_eq]
  exact List.mem_append_left _ (List.mem_append_left _ (List.mem_flatMap_of_mem h he))

/-- A definition and what is below it are entries. -/
theorem mem_entries_definition (h : (name, u) ∈ membersAt v "definitions") {e : Location × Json}
    (he : e ∈ withDefinition (name, u)) : e ∈ entries trail v := by
  rw [entries_eq]
  exact List.mem_append_left _ (List.mem_append_right _ (List.mem_flatMap_of_mem h he))

/-- What is below a candidate is an entry. -/
theorem mem_entries_item (h : u ∈ candidates v) {e : Location × Json}
    (he : e ∈ entries trail u) : e ∈ entries trail v := by
  rw [entries_eq]
  exact List.mem_append_right _ (List.mem_flatMap_of_mem h he)

/-- Where a way of names leads, there is an entry. -/
theorem mem_entries_of_leads (h : Leads v names name w) (trail : List String) :
    (⟨name, (names ++ [name]).foldl extendTrail trail⟩, w) ∈ entries trail v := by
  induction h generalizing trail with
  | property h => exact mem_entries_property h List.mem_cons_self
  | deeper h _ ih => exact mem_entries_property h (List.mem_cons_of_mem _ (ih _))
  | item h _ ih => exact mem_entries_item h (ih trail)

/-- A definition is listed, and so is what is below it. -/
theorem mem_entries_of_defines (h : Defines v name u) (trail : List String) :
    withDefinition (name, u) ⊆ entries trail v := by
  induction h generalizing trail with
  | own h => exact fun e he => mem_entries_definition h he
  | property h _ ih => exact fun e he => mem_entries_property h (List.mem_cons_of_mem _ (ih _ he))
  | definition h _ ih =>
    exact fun e he => mem_entries_definition h (List.mem_cons_of_mem _ (ih _ he))
  | item h _ ih => exact fun e he => mem_entries_item h (ih trail he)

/-- A search goes through the fields that have a place, under that place. -/
theorem mem_entries_iff : (l, w) ∈ entries trail v ↔ Placed trail v l w := by
  refine ⟨placed_of_mem_entries, fun h => ?_⟩
  cases h with
  | field hleads => exact mem_entries_of_leads hleads trail
  | definition hdefines => exact mem_entries_of_defines hdefines trail List.mem_cons_self
  | fieldOf hdefines hleads =>
    rw [← foldl_extendTrail_nil]
    exact mem_entries_of_defines hdefines trail
      (List.mem_cons_of_mem _ (mem_entries_of_leads hleads []))

/-! ## The end of a path -/

/-- A `_source` below a document or a definition with at most other ones on the way to it. -/
inductive IsWrapper (v : Json) : Json → Prop
  | ofDocument {names : List String} {w : Json} (h : Leads v names sourceName w)
      (hnames : ∀ name ∈ names, name = sourceName) : IsWrapper v w
  | ofDefinition {names : List String} {definition : String} {u w : Json}
      (h : Defines v definition u) (h' : Leads u names sourceName w)
      (hnames : ∀ name ∈ names, name = sourceName) : IsWrapper v w

/-- Of a way there is left its last name, or nothing if it has no name but `_source`. -/
theorem getLast?_unwrapped (names : List String) (name : String) :
    (unwrapped (names ++ [name])).getLast? = some name ∨
      unwrapped (names ++ [name]) = [] ∧ name = sourceName ∧ ∀ n ∈ names, n = sourceName := by
  induction names with
  | nil => by_cases h : name = sourceName <;> simp [unwrapped, h]
  | cons first names ih =>
    by_cases h : first = sourceName
    · simpa [unwrapped, h] using ih
    · left
      have hkept : unwrapped (first :: names ++ [name]) = first :: names ++ [name] := by
        simp [unwrapped, h]
      rw [hkept, List.getLast?_concat]

/-- A path ends with the name of its field; only a wrapper has an empty one. -/
theorem Placed.ends (h : Placed [] v l w) :
    l.path.getLast? = some l.name ∨ l.path = [] ∧ l.name = sourceName ∧ IsWrapper v w := by
  cases h with
  | @field names name _ hleads =>
    rw [foldl_extendTrail_nil]
    refine (getLast?_unwrapped names name).imp_right ?_
    rintro ⟨hpath, rfl, hnames⟩
    exact ⟨hpath, rfl, .ofDocument hleads hnames⟩
  | definition => exact .inl rfl
  | @fieldOf names _ name _ _ hdefines hleads =>
    refine (getLast?_unwrapped names name).imp_right ?_
    rintro ⟨hpath, rfl, hnames⟩
    exact ⟨hpath, rfl, .ofDefinition hdefines hleads hnames⟩

/-! ## Scopes -/

namespace Scopes

/-- The documents of the scopes. -/
def documents (s : Scopes) : List Json := [s.entity, s.internal, s.model, s.external]

/-- The entries of the scopes are what is placed below their documents. -/
theorem mem_entries_iff {s : Scopes} :
    (l, w) ∈ s.entries ↔ ∃ v ∈ s.documents, Placed [] v l w := by
  simp only [entries, documents, List.mem_flatMap, Schema.mem_entries_iff]

/-- What is located stands in one of the documents and carries the key identifier. -/
theorem placed_of_locate? {s : Scopes} {id : String} (h : s.locate? id = some l) :
    ∃ w, w.get? "GUID" = some (.str id) ∧ ∃ v ∈ s.documents, Placed [] v l w := by
  obtain ⟨front, w, rest, hentries, hid, -⟩ := ((s.looksUp id).located_iff l).1 h
  have hmem : (l, w) ∈ s.entries := by simp [hentries]
  exact ⟨w, hid, mem_entries_iff.1 hmem⟩

/-- Nothing is located iff no field of the documents carries the key identifier. -/
theorem locate?_eq_none_iff {s : Scopes} {id : String} :
    s.locate? id = none ↔
      ∀ v ∈ s.documents, ∀ l w, Placed [] v l w → w.get? "GUID" ≠ some (.str id) := by
  rw [(s.looksUp id).missing_iff]
  constructor
  · intro h v hv l w hplaced
    exact h (l, w) (mem_entries_iff.2 ⟨v, hv, hplaced⟩)
  · rintro h ⟨l, w⟩ hmem
    obtain ⟨v, hv, hplaced⟩ := mem_entries_iff.1 hmem
    exact h v hv l w hplaced

end Scopes

end SearchIndex.Schema
