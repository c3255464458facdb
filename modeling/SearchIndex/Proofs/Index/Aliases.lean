import SearchIndex.Index.Document
import SearchIndex.Proofs.Json.ReadBack
import SearchIndex.Proofs.Table

/-!
# The aliases of a document, name by name

Aliases are entered one after another, and a name may be entered again. `ListsAliases` says what
comes of it for each name: it stands where it was entered first, and its body is that of the
definition that was entered last. `Alias.Describes` says what is in such a body.

The body of a definition depends on that definition alone. A filter text that is no document gives
an empty term in the body of its own alias, and `sparesOthers_filter` says that no filter reaches
another alias or another section.
-/

namespace SearchIndex.Index

namespace Alias

/-! ## What is written for a definition -/

/-- The term that a filter text stands for: what it says, or the empty text if it is malformed. -/
inductive Term (filter : String) : Json → Prop
  | parsed {v : Json} (h : Json.read filter = .ok v) : Term filter v
  | malformed (h : ∀ v, Json.read filter ≠ .ok v) : Term filter (.str "")

/-- There is exactly one term for a filter text. -/
theorem term_iff {filter : String} {v : Json} : Term filter v ↔ v = term filter := by
  unfold term
  cases hread : Json.read filter with
  | ok w =>
    constructor
    · rintro (h | h)
      · exact Except.ok.inj (h.symm.trans hread)
      · exact absurd hread (h w)
    · rintro rfl
      exact .parsed hread
  | error e =>
    have hfails : ∀ w, Json.read filter ≠ .ok w := by
      intro w hw
      exact nomatch hread.symm.trans hw
    constructor
    · rintro (h | -)
      · exact absurd h (hfails v)
      · rfl
    · rintro rfl
      exact .malformed hfails

/-- What the body of an alias says of its definition. -/
structure Describes (a : Alias) (body : Json) : Prop where
  /-- There is nothing else in it. -/
  parts : ∃ parts, body = .obj parts ∧ (Table.names parts).Sublist ["filter", "routing"]
  /-- It has a filter iff the filter text is not empty, with the term of that text. -/
  filter_iff : ∀ v, body.get? "filter" = some v ↔
    ∃ text t, a.filter = some text ∧ text ≠ "" ∧ Term text t ∧ v = .obj [("term", t)]
  /-- It has a routing iff the routing is set. -/
  routing_iff : ∀ v, body.get? "routing" = some v ↔ a.routing = some v ∧ v.isSet

/-- The body of an alias is written as it is described. -/
theorem describes_body (a : Alias) : a.Describes a.body.toJson where
  parts := ⟨_, rfl, Json.names_present_sublist _⟩
  filter_iff := by
    intro v
    have hget : a.body.toJson.get? "filter" =
        (a.filter.filter (· ≠ "")).map fun text => .obj [("term", term text)] := by
      simp [AliasBody.toJson, Json.get?, body, Function.comp_def]
    rw [hget, Option.map_eq_some_iff]
    simp only [Option.filter_eq_some_iff, decide_eq_true_eq, term_iff]
    constructor
    · rintro ⟨text, ⟨htext, hne⟩, rfl⟩
      exact ⟨text, _, htext, hne, rfl, rfl⟩
    · rintro ⟨text, t, htext, hne, rfl, rfl⟩
      exact ⟨text, ⟨htext, hne⟩, rfl⟩
  routing_iff := by
    intro v
    have hget : a.body.toJson.get? "routing" = a.routing.filter Json.isSet := by
      simp [AliasBody.toJson, Json.get?, body]
    rw [hget, Option.filter_eq_some_iff]

/-- An alias has no name, or an empty one, iff there is none that counts. -/
theorem name?_eq_none_iff {a : Alias} : a.name? = none ↔ a.name = none ∨ a.name = some "" := by
  unfold name?
  cases a.name <;> simp

end Alias

/-! ## The section of the aliases -/

/-- The definition of an alias that counts: the last one that has its name. -/
def lastNamed? (definitions : List Alias) (name : String) : Option Alias :=
  definitions.reverse.find? fun a => a.name? = some name

/-- The bodies of definitions by name, as they are entered. -/
def namedBodies (definitions : List Alias) : List (String × AliasBody) :=
  definitions.filterMap fun a => a.name?.map fun name => (name, a.body)

/-- The entered names are those of the definitions that have one, in order. -/
theorem names_namedBodies (definitions : List Alias) :
    Table.names (namedBodies definitions) = definitions.filterMap Alias.name? := by
  rw [Table.names, namedBodies, List.map_filterMap]
  refine congrArg (definitions.filterMap ·) (funext fun a => ?_)
  cases a.name? <;> rfl

/-- The first entry of a name is that of the first definition with the name. -/
theorem get?_namedBodies (definitions : List Alias) (name : String) :
    Table.get? (namedBodies definitions) name =
      (definitions.find? fun a => a.name? = some name).map Alias.body := by
  induction definitions with
  | nil => rfl
  | cons a definitions ih =>
    rw [namedBodies, List.filterMap_cons, ← namedBodies, List.find?_cons]
    cases hname : a.name? with
    | none => simpa using ih
    | some key => by_cases hkey : key = name <;> simp [Table.get?, hkey, ih]

/-- What the section of the aliases holds. -/
structure ListsAliases (definitions : List Alias) (aliases? : Option Json) : Prop where
  /-- There is no section iff no definition has a name other than the empty one. -/
  absent_iff : aliases? = none ↔ ∀ a ∈ definitions, a.name = none ∨ a.name = some ""
  /-- Each name stands once, in the order of first appearance, with the body of the last definition
  that has it. -/
  listed : ∀ v, aliases? = some v → ∃ bodies : Table Json, v = .obj bodies ∧
    Table.Distinct bodies ∧
    Table.names bodies = (definitions.filterMap Alias.name?).eraseDups ∧
    ∀ name, (Table.get? bodies name = none ↔ lastNamed? definitions name = none) ∧
      ∀ a, lastNamed? definitions name = some a →
        ∃ body, Table.get? bodies name = some body ∧ a.Describes body

namespace Document

/-- The bodies of the aliases as they are written. -/
def aliasMembers (definitions : List Alias) : Table Json :=
  (Table.ofList (namedBodies definitions)).map fun a => (a.1, a.2.toJson)

/-- Every name is listed once, where it was entered first. -/
theorem names_aliasMembers (definitions : List Alias) :
    Table.names (aliasMembers definitions) = (definitions.filterMap Alias.name?).eraseDups := by
  rw [← names_namedBodies, ← Table.names_ofList]
  exact List.map_map

/-- No name is listed twice. -/
theorem distinct_aliasMembers (definitions : List Alias) :
    Table.Distinct (aliasMembers definitions) := by
  rw [Table.Distinct, names_aliasMembers]
  exact nodup_eraseDups _

/-- Under a name stands the body of the last definition with the name. -/
theorem get?_aliasMembers (definitions : List Alias) (name : String) :
    Table.get? (aliasMembers definitions) name =
      (lastNamed? definitions name).map fun a => a.body.toJson := by
  rw [aliasMembers, Table.get?_map, Table.get?_ofList, namedBodies, ← List.filterMap_reverse,
    ← namedBodies, get?_namedBodies, Option.map_map]
  rfl

/-- The section of the aliases is left out if there are none. -/
theorem get?_aliases (c : Container) (m : Mappings) :
    (ofMappings c m).toJson.get? "aliases" =
      if aliasMembers (c.aliases.getD []) = [] then none
      else some (.obj (aliasMembers (c.aliases.getD []))) := by
  have hget : (ofMappings c m).toJson.get? "aliases" = c.aliasBodies.map aliasesToJson := by
    simp [toJson, Json.get?, ofMappings]
  rw [hget, Container.aliasBodies, ← namedBodies, aliasMembers]
  cases Table.ofList (namedBodies (c.aliases.getD [])) with
  | nil => rfl
  | cons first bodies => rfl

/-- Nothing is listed iff no definition has a name. -/
theorem aliasMembers_eq_nil_iff {definitions : List Alias} :
    aliasMembers definitions = [] ↔ ∀ a ∈ definitions, a.name? = none := by
  have hnames : aliasMembers definitions = [] ↔
      (definitions.filterMap Alias.name?).eraseDups = [] := by
    rw [← names_aliasMembers, Table.names, List.map_eq_nil_iff]
  rw [hnames, ← List.filterMap_eq_nil_iff]
  simp only [List.eq_nil_iff_forall_not_mem, List.mem_eraseDups]

/-- The aliases of a document are listed name by name, whatever its mappings are. -/
theorem listsAliases_ofMappings (c : Container) (m : Mappings) :
    ListsAliases (c.aliases.getD []) ((ofMappings c m).toJson.get? "aliases") where
  absent_iff := by
    rw [get?_aliases, ite_eq_left_iff]
    simp only [← Alias.name?_eq_none_iff, ← aliasMembers_eq_nil_iff, reduceCtorEq, imp_false,
      not_not]
  listed := by
    intro v hv
    rw [get?_aliases] at hv
    split at hv
    · exact nomatch hv
    · obtain rfl := Option.some.inj hv
      refine ⟨_, rfl, distinct_aliasMembers _, names_aliasMembers _, fun name => ?_⟩
      rw [get?_aliasMembers]
      refine ⟨Option.map_eq_none_iff, fun a ha => ?_⟩
      rw [ha]
      exact ⟨_, rfl, a.describes_body⟩

/-! ## One filter and the rest of the document -/

/-- The documents agree in all sections but the aliases, in the names of the aliases, and in all
aliases but the one of the name. -/
structure SparesOthers (name? : Option String) (d d' : Document) : Prop where
  sections : ∀ key, key ≠ "aliases" → d'.toJson.get? key = d.toJson.get? key
  names : ((d'.toJson.get? "aliases").bind Json.members?).map Table.names =
    ((d.toJson.get? "aliases").bind Json.members?).map Table.names
  others : ∀ other, name? ≠ some other →
    (d'.toJson.get? "aliases").bind (·.get? other) = (d.toJson.get? "aliases").bind (·.get? other)

/-- The names in the section of the aliases depend on the names of the definitions alone. -/
theorem names_aliases (c : Container) (m : Mappings) :
    (((ofMappings c m).toJson.get? "aliases").bind Json.members?).map Table.names =
      if ∀ a ∈ c.aliases.getD [], a.name? = none then none
      else some ((c.aliases.getD []).filterMap Alias.name?).eraseDups := by
  rw [get?_aliases, ← names_aliasMembers]
  by_cases hempty : aliasMembers (c.aliases.getD []) = []
  · rw [if_pos hempty, if_pos (aliasMembers_eq_nil_iff.1 hempty)]
    rfl
  · rw [if_neg hempty, if_neg (mt aliasMembers_eq_nil_iff.2 hempty)]
    rfl

/-- An alias in its section is that of the last definition with its name. -/
theorem get?_alias (c : Container) (m : Mappings) (name : String) :
    ((ofMappings c m).toJson.get? "aliases").bind (·.get? name) =
      (lastNamed? (c.aliases.getD []) name).map fun a => a.body.toJson := by
  rw [get?_aliases, ← get?_aliasMembers]
  split
  · next hempty => rw [hempty]; rfl
  · rfl

/-- Another filter of a definition, malformed or not, changes no other alias. -/
theorem sparesOthers_filter (c : Container) (m : Mappings) {before after : List Alias} {a : Alias}
    (h : c.aliases = some (before ++ a :: after)) (filter : Option String) :
    SparesOthers a.name? (ofMappings c m)
      (ofMappings { c with aliases := some (before ++ { a with filter } :: after) } m) where
  sections := by
    intro key hkey
    have hne : "aliases" ≠ key := fun heq => hkey heq.symm
    simp only [toJson, Json.get?, Json.get?_present_cons, Json.get?_present_nil, if_neg hne]
    rfl
  names := by
    have hname : ({ a with filter } : Alias).name? = a.name? := rfl
    rw [names_aliases, names_aliases, h]
    simp only [Option.getD_some, List.forall_mem_append, List.forall_mem_cons,
      List.filterMap_append, List.filterMap_cons, hname]
  others := by
    intro other hother
    have hlast : lastNamed? (before ++ { a with filter } :: after) other =
        lastNamed? (before ++ a :: after) other := by
      have hother' : ({ a with filter } : Alias).name? ≠ some other := hother
      simp [lastNamed?, List.find?_append, hother, hother']
    rw [get?_alias, get?_alias, h, Option.getD_some, Option.getD_some, hlast]

end Document

end SearchIndex.Index
