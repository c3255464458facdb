import SearchIndex.Proofs.Schema.Reading
import SearchIndex.Schema.Scope

/-!
# The fields of a document in search order

`entries` lists every field that a search can find, with the place it reports for it, and
`search_finds` says that a search finds the first one of that list and leaves its trail as it was. A
field that alone carries its key identifier is therefore found wherever it stands
(`locate?_of_unique`).

An entry of `properties` extends the path, one of `definitions` begins it anew and `items` leave it.
`mem_entries_of_property` and `entries_subset_of_item` follow a document downwards in this way.
-/

namespace SearchIndex.Schema

/-- The names on the way to a property of a node that is reached by `trail`. -/
def extendTrail (trail : List String) (name : String) : List String :=
  if trail = [] ∧ name = sourceName then trail else trail ++ [name]

mutual

/-- The fields below a node that is reached by `trail`, in the order of a search. -/
def entries (trail : List String) : Json → List (Location × Json)
  | .obj members =>
    propertyEntries trail members ++ definitionEntries members ++ itemEntries trail members
  | _ => []

/-- The fields in and below the `properties` among the members of a node. -/
def propertyEntries (trail : List String) : List (String × Json) → List (Location × Json)
  | [] => []
  | (key, v) :: rest =>
    if key = "properties" then
      match v with
      | .obj properties => propertyEntriesOf trail properties
      | _ => []
    else propertyEntries trail rest

/-- Properties, each before what is below it. -/
def propertyEntriesOf (trail : List String) : List (String × Json) → List (Location × Json)
  | [] => []
  | (name, v) :: rest =>
    (⟨name, extendTrail trail name⟩, v) ::
      (entries (extendTrail trail name) v ++ propertyEntriesOf trail rest)

/-- The fields in and below the `definitions` among the members of a node. -/
def definitionEntries : List (String × Json) → List (Location × Json)
  | [] => []
  | (key, v) :: rest =>
    if key = "definitions" then
      match v with
      | .obj definitions => definitionEntriesOf definitions
      | _ => []
    else definitionEntries rest

/-- Definitions, each before what is below it. -/
def definitionEntriesOf : List (String × Json) → List (Location × Json)
  | [] => []
  | (name, v) :: rest => (⟨name, [name]⟩, v) :: (entries [] v ++ definitionEntriesOf rest)

/-- The fields below the `items` among the members of a node. -/
def itemEntries (trail : List String) : List (String × Json) → List (Location × Json)
  | [] => []
  | (key, v) :: rest =>
    if key = "items" then
      match v with
      | .arr candidates => candidateEntries trail candidates
      | v => entries trail v
    else itemEntries trail rest

/-- The fields below candidates. -/
def candidateEntries (trail : List String) : List Json → List (Location × Json)
  | [] => []
  | v :: rest => entries trail v ++ candidateEntries trail rest

end

/-- The place of the first entry that carries a key identifier. -/
def firstCarrying (id : String) (l : List (Location × Json)) : Option Location :=
  (l.find? fun e => hasKeyId id e.2).map Prod.fst

@[simp] theorem firstCarrying_nil (id : String) : firstCarrying id [] = none := rfl

@[simp] theorem firstCarrying_cons (id : String) (e : Location × Json)
    (l : List (Location × Json)) :
    firstCarrying id (e :: l) = if hasKeyId id e.2 then some e.1 else firstCarrying id l := by
  by_cases h : hasKeyId id e.2 <;> simp [firstCarrying, h]

@[simp] theorem firstCarrying_append (id : String) (l l' : List (Location × Json)) :
    firstCarrying id (l ++ l') = (firstCarrying id l).or (firstCarrying id l') := by
  simp only [firstCarrying, List.find?_append]
  cases l.find? fun e => hasKeyId id e.2 <;> simp

/-! ## A search is the search through the entries -/

/-- From a trail, a search comes to a result and back to the trail. -/
def Search.Finds (act : Search) (trail : List String) (found : Option Location) : Prop :=
  act.run trail = (found, trail)

namespace Search

variable {act first second : Search} {trail : List String} {found later : Option Location}

/-- A search that returns at once keeps its trail. -/
theorem finds_return (trail : List String) (found : Option Location) :
    Finds (return found) trail found :=
  rfl

/-- One search after another finds what the first one finds, or else what the second one does. -/
theorem Finds.orElse (h : first.Finds trail found) (h' : second.Finds trail later) :
    (first.orElse second).Finds trail (found.or later) := by
  unfold Finds at h h' ⊢
  rw [Search.orElse, StateT.run_bind, h]
  cases found with
  | some l => rfl
  | none => exact h'

/-- What is put at the end of the trail is taken off it. -/
theorem Finds.along (name : String) (h : act.Finds (extendTrail trail name) found) :
    (act.along name).Finds trail found := by
  unfold Finds extendTrail at h
  unfold Finds
  by_cases hwrapper : trail = [] ∧ name = sourceName
  · rw [if_pos hwrapper] at h
    obtain ⟨rfl, hname⟩ := hwrapper
    simp [Search.along, hname, h]
  · rw [if_neg hwrapper] at h
    have hback : (trail ++ [name]).dropLast = trail := List.dropLast_concat
    simp only [Search.along, hwrapper, decide_false, Bool.false_eq_true, if_false,
      StateT.run_bind, StateT.run_get, StateT.run_set, StateT.run_modify, StateT.run_pure,
      pure_bind, h]
    exact congrArg (Prod.mk found) hback

/-- A search that begins with an empty trail finds the same from any trail, and gives that trail
back. -/
theorem Finds.afresh (h : act.Finds [] found) : act.afresh.Finds trail found :=
  congrArg (fun result : Option Location × List String => (result.1, trail)) h

end Search

mutual

/-- A search finds the first entry that carries the key identifier. -/
theorem search_finds (id : String) (trail : List String) (v : Json) :
    (search id v).Finds trail (firstCarrying id (entries trail v)) := by
  -- search and list recur alike, one theorem for each of the functions
  cases v with
  | obj members =>
    rw [search, entries, firstCarrying_append, firstCarrying_append, Option.or_assoc]
    exact (underProperties_finds id trail members).orElse
      ((underDefinitions_finds id trail members).orElse (underItems_finds id trail members))
  | _ => exact Search.finds_return trail none

/-- A search of the properties of a node goes through their entries. -/
theorem underProperties_finds (id : String) (trail : List String)
    (members : List (String × Json)) :
    (underProperties id members).Finds trail
      (firstCarrying id (propertyEntries trail members)) := by
  cases members with
  | nil => exact Search.finds_return trail none
  | cons m rest =>
    obtain ⟨key, v⟩ := m
    by_cases h : key = "properties"
    · cases v with
      | obj properties =>
        simpa [underProperties, propertyEntries, h] using amongProperties_finds id trail properties
      | _ => simpa [underProperties, propertyEntries, h] using Search.finds_return trail none
    · have hrest := underProperties_finds id trail rest
      cases v <;> simpa [underProperties, propertyEntries, h] using hrest

/-- A search of properties goes through their entries. -/
theorem amongProperties_finds (id : String) (trail : List String)
    (properties : List (String × Json)) :
    (amongProperties id properties).Finds trail
      (firstCarrying id (propertyEntriesOf trail properties)) := by
  cases properties with
  | nil => exact Search.finds_return trail none
  | cons e rest =>
    obtain ⟨name, v⟩ := e
    rw [amongProperties, propertyEntriesOf, ← List.cons_append, firstCarrying_append,
      firstCarrying_cons]
    refine (Search.Finds.along name ?_).orElse (amongProperties_finds id trail rest)
    by_cases h : hasKeyId id v
    · rw [if_pos h, if_pos h]
      exact Search.finds_return _ _
    · rw [if_neg h, if_neg h]
      exact search_finds id (extendTrail trail name) v

/-- A search of the definitions of a node goes through their entries. -/
theorem underDefinitions_finds (id : String) (trail : List String)
    (members : List (String × Json)) :
    (underDefinitions id members).Finds trail (firstCarrying id (definitionEntries members)) := by
  cases members with
  | nil => exact Search.finds_return trail none
  | cons m rest =>
    obtain ⟨key, v⟩ := m
    by_cases h : key = "definitions"
    · cases v with
      | obj definitions =>
        simpa [underDefinitions, definitionEntries, h] using
          amongDefinitions_finds id trail definitions
      | _ => simpa [underDefinitions, definitionEntries, h] using Search.finds_return trail none
    · have hrest := underDefinitions_finds id trail rest
      cases v <;> simpa [underDefinitions, definitionEntries, h] using hrest

/-- A search of definitions goes through their entries. -/
theorem amongDefinitions_finds (id : String) (trail : List String)
    (definitions : List (String × Json)) :
    (amongDefinitions id definitions).Finds trail
      (firstCarrying id (definitionEntriesOf definitions)) := by
  cases definitions with
  | nil => exact Search.finds_return trail none
  | cons e rest =>
    obtain ⟨name, v⟩ := e
    rw [amongDefinitions, definitionEntriesOf, firstCarrying_cons, firstCarrying_append]
    by_cases h : hasKeyId id v
    · rw [if_pos h, if_pos h]
      exact Search.finds_return trail _
    · rw [if_neg h, if_neg h]
      exact (search_finds id [] v).afresh.orElse (amongDefinitions_finds id trail rest)

/-- A search of the items of a node goes through their entries. -/
theorem underItems_finds (id : String) (trail : List String) (members : List (String × Json)) :
    (underItems id members).Finds trail (firstCarrying id (itemEntries trail members)) := by
  cases members with
  | nil => exact Search.finds_return trail none
  | cons m rest =>
    obtain ⟨key, v⟩ := m
    have hitem := search_finds id trail v
    by_cases h : key = "items"
    · cases v with
      | arr candidates =>
        simpa [underItems, itemEntries, h] using amongCandidates_finds id trail candidates
      | _ => simpa [underItems, itemEntries, h] using hitem
    · have hrest := underItems_finds id trail rest
      cases v <;> simpa [underItems, itemEntries, h] using hrest

/-- A search of candidates goes through their entries. -/
theorem amongCandidates_finds (id : String) (trail : List String) (candidates : List Json) :
    (amongCandidates id candidates).Finds trail
      (firstCarrying id (candidateEntries trail candidates)) := by
  cases candidates with
  | nil => exact Search.finds_return trail none
  | cons v rest =>
    rw [amongCandidates, candidateEntries, firstCarrying_append]
    exact (search_finds id trail v).orElse (amongCandidates_finds id trail rest)

end

/-- The located field is the first entry that carries the identifier. -/
theorem locate?_eq (id : String) (trail : List String) (v : Json) :
    locate? id trail v = firstCarrying id (entries trail v) :=
  congrArg Prod.fst (search_finds id trail v)

/-! ## A field that alone carries its key identifier -/

/-- The number of fields of a document that carry a key identifier. -/
def carriers (id : String) (v : Json) : Nat := (entries [] v).countP fun e => hasKeyId id e.2

/-- The only element with a property is the first one. -/
theorem find?_of_countP_le_one {α : Type} {p : α → Bool} {l : List α} {a : α} (ha : a ∈ l)
    (hp : p a) (h : l.countP p ≤ 1) : l.find? p = some a := by
  induction l with
  | nil => simp at ha
  | cons b l ih =>
    by_cases hb : p b
    · have hrest : l.countP p = 0 := by
        rw [List.countP_cons_of_pos hb] at h
        omega
      rcases List.mem_cons.1 ha with rfl | ha
      · simp [hp]
      · exact absurd hp (List.countP_eq_zero.1 hrest a ha)
    · rw [List.countP_cons_of_neg hb] at h
      rcases List.mem_cons.1 ha with rfl | ha
      · exact absurd hp hb
      · simpa [hb] using ih ha h

/-- A field that alone carries its key identifier is found at its place. -/
theorem locate?_of_unique {id : String} {v w : Json} {l : Location} (hmem : (l, w) ∈ entries [] v)
    (hid : hasKeyId id w) (hunique : carriers id v ≤ 1) : locate? id [] v = some l := by
  rw [locate?_eq, firstCarrying, find?_of_countP_le_one hmem hid hunique]
  rfl

/-! ## Going down a document -/

/-- The entries of a node under `properties` are those of the object there. -/
theorem propertyEntries_eq (trail : List String) {members properties : List (String × Json)}
    (h : Table.get? members "properties" = some (.obj properties)) :
    propertyEntries trail members = propertyEntriesOf trail properties := by
  induction members with
  | nil => simp at h
  | cons m rest ih =>
    obtain ⟨key, v⟩ := m
    by_cases hk : key = "properties"
    · obtain rfl : v = .obj properties := by simpa [Table.get?, hk] using h
      simp [propertyEntries, hk]
    · have hrest := ih (by simpa [Table.get?, hk] using h)
      cases v <;> simpa [propertyEntries, hk] using hrest

/-- A property is an entry, and so is every field below it. -/
theorem mem_propertyEntriesOf (trail : List String) {properties : List (String × Json)}
    {name : String} {v : Json} (h : Table.get? properties name = some v) :
    (⟨name, extendTrail trail name⟩, v) ∈ propertyEntriesOf trail properties ∧
      entries (extendTrail trail name) v ⊆ propertyEntriesOf trail properties := by
  induction properties with
  | nil => simp at h
  | cons e rest ih =>
    obtain ⟨key, w⟩ := e
    rw [propertyEntriesOf]
    by_cases hk : key = name
    · obtain rfl : w = v := by simpa [Table.get?, hk] using h
      subst hk
      exact ⟨by simp, fun x hx => by simp [hx]⟩
    · obtain ⟨hmem, hsub⟩ := ih (by simpa [Table.get?, hk] using h)
      exact ⟨by simp [hmem], fun x hx => by simp [hsub hx]⟩

/-- A property and what is below it are entries of its node. -/
theorem mem_entries_of_property (trail : List String) {members properties : List (String × Json)}
    (hp : Table.get? members "properties" = some (.obj properties)) {name : String} {v : Json}
    (hv : Table.get? properties name = some v) :
    (⟨name, extendTrail trail name⟩, v) ∈ entries trail (.obj members) ∧
      entries (extendTrail trail name) v ⊆ entries trail (.obj members) := by
  obtain ⟨hmem, hsub⟩ := mem_propertyEntriesOf trail hv
  rw [entries, propertyEntries_eq trail hp]
  exact ⟨by simp [hmem], fun x hx => by simp [hsub hx]⟩

/-- The fields below the element are among the entries of the items. -/
theorem entries_subset_itemEntries (trail : List String) {members : List (String × Json)}
    {v item : Json} (h : Table.get? members "items" = some v)
    (hitem : Field.firstItem? v = some item) :
    entries trail item ⊆ itemEntries trail members := by
  induction members with
  | nil => simp at h
  | cons m rest ih =>
    obtain ⟨key, w⟩ := m
    by_cases hk : key = "items"
    · obtain rfl : w = v := by simpa [Table.get?, hk] using h
      cases w with
      | arr candidates =>
        obtain ⟨others, rfl⟩ : ∃ others, candidates = item :: others :=
          List.head?_eq_some_iff.1 hitem
        intro e he
        simp [itemEntries, hk, candidateEntries, he]
      | _ =>
        obtain rfl := Option.some.inj hitem
        intro e he
        simpa [itemEntries, hk] using he
    · have hrest := ih (by simpa [Table.get?, hk] using h)
      cases w <;> simpa [itemEntries, hk] using hrest

/-- What is below the element of an array is below the array. -/
theorem entries_subset_of_item (trail : List String) {members : List (String × Json)}
    {v item : Json} (h : Table.get? members "items" = some v)
    (hitem : Field.firstItem? v = some item) :
    entries trail item ⊆ entries trail (.obj members) := by
  intro e he
  simp [entries, entries_subset_itemEntries trail h hitem he]

end SearchIndex.Schema
