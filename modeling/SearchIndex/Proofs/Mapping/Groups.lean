import Mathlib.Data.List.DropRight
import SearchIndex.Proofs.Mapping.Children

/-!
# The groups of a join field

The relations of a join field are written one after the other, and a single child without a name
takes its parent out again. `Grouping.ByParent` describes the result without the writing: what
stands under a parent depends on its last grouping alone, and the parents stand in the order of
their openings, where the opening of a parent is its earliest grouping behind the last one that
takes it out.

`Grouping.byParent_iff` says that this fits one table, the one that is written; the step from one
relation to the next is in the lemmas on `gs ++ [g]`. `join_groups_by_parent` says it of compiled
join fields.
-/

namespace SearchIndex.Mapping

open Schema

/-- A relation that counts: its parent has a name, and it has a list of children. -/
structure Grouping where
  parent : String
  children : List Child
deriving DecidableEq

namespace Grouping

/-- What a relation says, if it counts. -/
def of? (relation : Relation) : Option Grouping :=
  (relation.parent.filter (· ≠ "")).bind fun parent =>
    relation.children.map fun children => ⟨parent, children⟩

/-- The only child has no name. -/
def IsVoid (g : Grouping) : Prop := g.children = [⟨none⟩]

instance (g : Grouping) : Decidable g.IsVoid :=
  inferInstanceAs (Decidable (g.children = [⟨none⟩]))

/-- The name of an only child, or the list of the names of the children. -/
def value (g : Grouping) : Json :=
  match g.children with
  | [only] => .str (only.name.getD "")
  | children => .arr (children.map fun c => .str (c.name.getD ""))

/-- Writes a grouping onto groups. -/
def addTo (groups : Table Json) (g : Grouping) : Table Json :=
  if g.IsVoid then groups.erase g.parent else groups.insert g.parent g.value

/-- The groups that are written by groupings in order. -/
def written (gs : List Grouping) : Table Json := gs.foldl addTo []

/-- A relation that counts writes its grouping, any other one nothing. -/
theorem addRelation_eq (groups : Table Json) (relation : Relation) :
    addRelation groups relation = (of? relation).elim groups (addTo groups) := by
  obtain ⟨parent, children⟩ := relation
  unfold addRelation of?
  cases parent.filter (· ≠ "") with
  | none => rfl
  | some parent =>
    match children with
    | none | some [] | some [⟨none⟩] | some [⟨some _⟩] | some (⟨none⟩ :: _ :: _)
    | some (⟨some _⟩ :: _ :: _) => rfl

/-- Only the relations that count write groups. -/
theorem joinGroups_eq (relations : List Relation) :
    joinGroups relations = written (relations.filterMap of?) := by
  rw [joinGroups, written, List.foldl_filterMap]
  congr 1
  funext groups relation
  rw [addRelation_eq]
  cases of? relation <;> rfl

/-! ## Groups by their parents -/

/-- The last grouping of a parent. -/
def last? (gs : List Grouping) (parent : String) : Option Grouping :=
  (gs.filter fun g => g.parent = parent).getLast?

/-- The groupings behind the last one that takes a parent out. -/
def since (gs : List Grouping) (parent : String) : List Grouping :=
  gs.rtakeWhile fun g => ¬(g.parent = parent ∧ g.IsVoid)

/-- The place of the earliest grouping of a parent behind the last one that takes it out. -/
def opening (gs : List Grouping) (parent : String) : Nat :=
  gs.length - (since gs parent).length + (since gs parent).findIdx fun g => g.parent = parent

/-- What groupings say of each parent, and in which order the parents stand. -/
structure ByParent (gs : List Grouping) (groups : Table Json) : Prop where
  /-- A parent appears iff it has a grouping and its last one does not take it out. -/
  mem_names_iff : ∀ parent,
    parent ∈ groups.names ↔ ∃ g, last? gs parent = some g ∧ ¬g.IsVoid
  /-- The last grouping of a parent that appears gives its value. -/
  get?_eq : ∀ parent g, last? gs parent = some g → ¬g.IsVoid → groups.get? parent = some g.value
  /-- The parents stand in the order of their openings. -/
  ordered : groups.names.Pairwise fun parent later => opening gs parent < opening gs later

/-! ## One more grouping -/

variable (gs : List Grouping) (g : Grouping)

/-- One more grouping is written onto the groups. -/
theorem written_concat : written (gs ++ [g]) = addTo (written gs) g := by
  rw [written, List.foldl_concat, written]

/-- One more grouping is the last one of its parent. -/
theorem last?_concat (parent : String) :
    last? (gs ++ [g]) parent = if g.parent = parent then some g else last? gs parent := by
  unfold last?
  rw [List.filter_append]
  by_cases h : g.parent = parent
  · simp [h]
  · simp [h]

/-- One more grouping is one of those behind, unless it takes the parent out. -/
theorem since_concat (parent : String) :
    since (gs ++ [g]) parent =
      if g.parent = parent ∧ g.IsVoid then [] else since gs parent ++ [g] := by
  rw [since, List.rtakeWhile_concat]
  by_cases h : g.parent = parent ∧ g.IsVoid
  · simp [h]
  · simp [h, since]

theorem length_since_le (parent : String) : (since gs parent).length ≤ gs.length :=
  (List.rtakeWhile_suffix _ gs).length_le

variable {gs g}

/-- A parent that is named behind the last grouping that takes it out has a first place there. -/
theorem findIdx_since_lt {parent : String} (h : ∃ g ∈ since gs parent, g.parent = parent) :
    ((since gs parent).findIdx fun g => g.parent = parent) < (since gs parent).length := by
  obtain ⟨g, hg, hparent⟩ := h
  exact List.findIdx_lt_length_of_exists ⟨g, hg, by simpa using hparent⟩

/-- The opening of a parent is a place among the groupings. -/
theorem opening_lt {parent : String} (h : ∃ g ∈ since gs parent, g.parent = parent) :
    opening gs parent < gs.length := by
  have hfound := findIdx_since_lt h
  have hle := length_since_le gs parent
  rw [opening]
  omega

/-- A parent that has its opening keeps it until it is taken out. -/
theorem opening_concat {parent : String} (h : ∃ g ∈ since gs parent, g.parent = parent)
    (hg : ¬(g.parent = parent ∧ g.IsVoid)) : opening (gs ++ [g]) parent = opening gs parent := by
  rw [opening, opening, since_concat, if_neg hg, List.findIdx_append,
    if_pos (findIdx_since_lt h), List.length_append, List.length_append]
  omega

/-- A parent without an opening has it at the next grouping that does not take it out. -/
theorem opening_concat_self (h : ¬∃ h ∈ since gs g.parent, h.parent = g.parent)
    (hg : ¬g.IsVoid) : opening (gs ++ [g]) g.parent = gs.length := by
  have hnone : ((since gs g.parent).findIdx fun h => h.parent = g.parent) =
      (since gs g.parent).length := by
    rw [List.findIdx_eq_length]
    intro later hlater
    simpa using fun hparent => h ⟨later, hlater, hparent⟩
  have hle := length_since_le gs g.parent
  rw [opening, since_concat, if_neg fun hvoid => hg hvoid.2, List.findIdx_append, hnone,
    if_neg (Nat.lt_irrefl _), List.length_append, List.length_append]
  simp
  omega

/-! ## The written groups -/

variable (gs)

/-- No parent is written twice. -/
theorem distinct_written : (written gs).Distinct := by
  induction gs using List.reverseRecOn with
  | nil => exact List.nodup_nil
  | append_singleton gs g ih =>
    rw [written_concat, addTo]
    split
    · exact ih.erase g.parent
    · exact ih.insert g.parent g.value

/-- What is written under a parent is what its last grouping says. -/
theorem get?_written (parent : String) :
    (written gs).get? parent =
      (last? gs parent).bind fun g => if g.IsVoid then none else some g.value := by
  induction gs using List.reverseRecOn with
  | nil => rfl
  | append_singleton gs g ih =>
    rw [written_concat, last?_concat, addTo]
    by_cases hvoid : g.IsVoid
    · rw [if_pos hvoid, Table.get?_erase (distinct_written gs), ih]
      by_cases hparent : g.parent = parent
      · simp [hparent, hvoid]
      · simp [hparent]
    · rw [if_neg hvoid, Table.get?_insert, ih]
      by_cases hparent : g.parent = parent
      · simp [hparent, hvoid]
      · simp [hparent]

/-- A parent is there iff its last grouping does not take it out. -/
theorem mem_names_written_iff (parent : String) :
    parent ∈ (written gs).names ↔ ∃ g, last? gs parent = some g ∧ ¬g.IsVoid := by
  have hnone := Table.get?_eq_none_iff (written gs) parent
  rw [← not_iff_not, ← hnone, get?_written, Option.bind_eq_none_iff]
  constructor
  · rintro h ⟨g, hg, hvoid⟩
    simpa [hvoid] using h g hg
  · intro h g hg
    rw [if_pos]
    by_contra hvoid
    exact h ⟨g, hg, hvoid⟩

/-- A parent appears iff it has its opening. -/
theorem mem_names_iff_exists_since (parent : String) :
    parent ∈ (written gs).names ↔ ∃ g ∈ since gs parent, g.parent = parent := by
  rw [mem_names_written_iff]
  induction gs using List.reverseRecOn with
  | nil => simp [last?, since]
  | append_singleton gs g ih =>
    rw [last?_concat, since_concat]
    by_cases hparent : g.parent = parent
    · by_cases hvoid : g.IsVoid
      · simp [hparent, hvoid]
      · simp [hparent, hvoid]
    · simp [hparent, ih]

/-- The parents stand in the order of their openings. -/
theorem ordered_written :
    (written gs).names.Pairwise fun parent later => opening gs parent < opening gs later := by
  induction gs using List.reverseRecOn with
  | nil => exact List.Pairwise.nil
  | append_singleton gs g ih =>
    -- parents that stay keep their opening, so that the old order is kept among them
    have hkeep : ∀ {parent}, parent ∈ (written gs).names → ¬(g.parent = parent ∧ g.IsVoid) →
        opening (gs ++ [g]) parent = opening gs parent := by
      intro parent hmem hg
      exact opening_concat ((mem_names_iff_exists_since gs parent).1 hmem) hg
    rw [written_concat, addTo]
    by_cases hvoid : g.IsVoid
    · rw [if_pos hvoid, Table.names_erase]
      refine (ih.sublist List.erase_sublist).imp_of_mem ?_
      intro parent later hp hl hlt
      obtain ⟨hpne, hp⟩ := (List.Nodup.mem_erase_iff (distinct_written gs)).1 hp
      obtain ⟨hlne, hl⟩ := (List.Nodup.mem_erase_iff (distinct_written gs)).1 hl
      rw [hkeep hp fun h => hpne h.1.symm, hkeep hl fun h => hlne h.1.symm]
      exact hlt
    · have hold : (written gs).names.Pairwise fun parent later =>
          opening (gs ++ [g]) parent < opening (gs ++ [g]) later := by
        refine ih.imp_of_mem ?_
        intro parent later hp hl hlt
        rw [hkeep hp fun h => hvoid h.2, hkeep hl fun h => hvoid h.2]
        exact hlt
      rw [if_neg hvoid, Table.names_insert]
      by_cases hmem : g.parent ∈ (written gs).names
      · rw [if_pos hmem]
        exact hold
      · rw [if_neg hmem]
        refine List.pairwise_append.2 ⟨hold, List.pairwise_singleton _ _, ?_⟩
        intro parent hp later hl
        obtain rfl : later = g.parent := by simpa using hl
        rw [hkeep hp fun h => hvoid h.2, opening_concat_self _ hvoid]
        · exact opening_lt ((mem_names_iff_exists_since gs parent).1 hp)
        · exact fun h => hmem ((mem_names_iff_exists_since gs g.parent).2 h)

/-- What is written is grouped by parents. -/
theorem byParent_written : ByParent gs (written gs) where
  mem_names_iff := mem_names_written_iff gs
  get?_eq := by
    intro parent g hg hvoid
    rw [get?_written, hg, Option.bind_some, if_neg hvoid]
  ordered := ordered_written gs

variable {gs}

/-- Parents whose openings go up stand once each. -/
theorem ByParent.distinct {groups : Table Json} (h : ByParent gs groups) : groups.Distinct := by
  have hne : groups.names.Pairwise (· ≠ ·) := by
    refine h.ordered.imp ?_
    rintro parent later hlt rfl
    exact Nat.lt_irrefl _ hlt
  exact hne

/-- Groupings fix the groups, their order included. -/
theorem ByParent.unique {groups other : Table Json} (h : ByParent gs groups)
    (h' : ByParent gs other) : groups = other := by
  have hnames : groups.names = other.names := by
    have hperm : groups.names.Perm other.names := by
      rw [List.perm_ext_iff_of_nodup h.distinct h'.distinct]
      intro parent
      rw [h.mem_names_iff, h'.mem_names_iff]
    refine hperm.eq_of_pairwise ?_ h.ordered h'.ordered
    intro parent later _ _ hlt hgt
    exact absurd hlt (Nat.lt_asymm hgt)
  refine Table.eq_of_get? h.distinct hnames fun parent => ?_
  by_cases hmem : parent ∈ groups.names
  · obtain ⟨g, hg, hvoid⟩ := (h.mem_names_iff parent).1 hmem
    rw [h.get?_eq parent g hg hvoid, h'.get?_eq parent g hg hvoid]
  · rw [(Table.get?_eq_none_iff groups parent).2 hmem,
      (Table.get?_eq_none_iff other parent).2 (hnames ▸ hmem)]

/-- What groupings say by parents holds of the table that they write, and of no other one. -/
theorem byParent_iff {groups : Table Json} : ByParent gs groups ↔ groups = written gs := by
  constructor
  · intro h
    exact h.unique (byParent_written gs)
  · rintro rfl
    exact byParent_written gs

end Grouping

/-! ## Compiled join fields -/

/-- The relations of a compiled join field are its groups, whatever its attributes are. -/
theorem plain?_relations (r : Resolver Id) {f : Field} (hkind : Kind.of f = some .join)
    {relations : List Relation} (hrelations : f.relations = some relations) :
    Node.plain? (compile r f) "relations" = some (.obj (joinGroups relations)) := by
  have hoverlay : (overlay r f : Node) =
      Node.empty.insertPlain "relations" (.obj (joinGroups relations)) := by
    unfold overlay
    rw [hkind, hrelations]
    rfl
  rw [Node.plain?, get?_compile_eq, hoverlay]
  rfl

/-- The groups of a compiled join field are determined parent by parent. -/
theorem join_groups_by_parent (r : Resolver Id) {f : Field} (hkind : Kind.of f = some .join)
    {relations : List Relation} (hrelations : f.relations = some relations) :
    ∃ groups, Node.plain? (compile r f) "relations" = some (.obj groups) ∧
      ∀ other, Grouping.ByParent (relations.filterMap Grouping.of?) other ↔ other = groups := by
  refine ⟨joinGroups relations, plain?_relations r hkind hrelations, fun other => ?_⟩
  rw [Grouping.byParent_iff, Grouping.joinGroups_eq]

/-- Posts are taken out and named again; one relation has no parent. -/
def threadRelations : List Relation :=
  [⟨some "post", some [⟨some "comment"⟩]⟩, ⟨none, some [⟨some "orphan"⟩]⟩,
   ⟨some "thread", some [⟨some "reply"⟩, ⟨none⟩]⟩, ⟨some "post", some [⟨none⟩]⟩,
   ⟨some "post", some []⟩, ⟨some "thread", none⟩]

/-- Posts stand behind threads here, since a relation takes them out in between. -/
theorem join_groups_by_parent_threads :
    let f : Field := { Field.ofTag .join with relations := some threadRelations }
    let s : Scopes := ⟨.null, .null, .null, .null⟩
    Kind.of f = some .join ∧ f.relations = some threadRelations ∧
      ∃ groups, Node.plain? (compile s.resolver f) "relations" = some (.obj groups) ∧
        ∀ other, Grouping.ByParent (threadRelations.filterMap Grouping.of?) other ↔
          other = groups :=
  ⟨rfl, rfl, join_groups_by_parent _ rfl rfl⟩

-- The posts stand behind the threads, since they were taken out in between.
example :
    (joinGroups [⟨some "post", some [⟨some "comment"⟩]⟩, ⟨some "thread", some []⟩,
      ⟨some "post", some [⟨none⟩]⟩, ⟨some "post", some [⟨none⟩, ⟨none⟩]⟩]).names =
      ["thread", "post"] := by
  decide

end SearchIndex.Mapping
