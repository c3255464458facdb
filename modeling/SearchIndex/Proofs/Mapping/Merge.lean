import SearchIndex.Mapping.Merge
import SearchIndex.Proofs.Mapping.Tree
import SearchIndex.Proofs.Table

/-!
# Merging, path by path

Merging two trees merges what stands at each path: `level?_merge` for levels and `field?_merge` for
fields. A list of trees is therefore merged at each path alone, and what it gives there depends on
the definitions that the trees have for that path:

* `mergeAll_path` describes every field and every level of a merged list of trees.
-/

namespace SearchIndex.Mapping

/-! ## One merge -/

/-- Each field of the first tree is merged with the one of the same name, if there is one. -/
theorem mergeFields_eq_map (a b : Tree) :
    mergeFields a b =
      a.map fun e => (e.1, ((Table.get? b e.1).map (mergeNode e.2)).getD e.2) := by
  induction a with
  | nil => rfl
  | cons e a ih =>
    rw [mergeFields, ih, List.map_cons]
    cases Table.get? b e.1 <;> rfl

/-- Merging keeps the names of the first tree in their order. -/
theorem names_mergeFields (a b : Tree) : Table.names (mergeFields a b) = Table.names a := by
  simp [mergeFields_eq_map, Table.names, Function.comp_def]

/-- The new names are those that the first tree lacks, in the order of the second one. -/
theorem names_newFields (a b : Tree) :
    Table.names (newFields a b) = (Table.names b).removeAll (Table.names a) := by
  have hnew : ∀ name, (Table.get? a name).isNone = !(Table.names a).elem name := by
    intro name
    rw [Bool.eq_iff_iff, Option.isNone_iff_eq_none, Table.get?_eq_none_iff]
    simp
  simp only [newFields, Table.names, List.removeAll, List.filter_map, Function.comp_def]
  simp only [hnew, Table.names]

/-- The names of `b` that `a` lacks stand behind those of `a`. -/
theorem names_merge (a b : Tree) :
    Table.names (merge a b) = Table.names a ++ (Table.names b).removeAll (Table.names a) := by
  rw [← names_newFields, ← names_mergeFields a b, merge, Table.names_append]

/-- The names of a merged tree are distinct if those of both trees are. -/
theorem distinct_merge {a b : Tree} (ha : Table.Distinct a) (hb : Table.Distinct b) :
    Table.Distinct (merge a b) := by
  unfold Table.Distinct
  rw [names_merge, List.removeAll]
  refine List.nodup_append.2 ⟨ha, hb.filter _, ?_⟩
  intro name hname other hother heq
  obtain ⟨-, hnew⟩ := List.mem_filter.1 hother
  simp [← heq, hname] at hnew

/-- Under a name of the first tree stands its field, merged with the one of the second tree. -/
theorem get?_mergeFields (a b : Tree) (name : String) :
    Table.get? (mergeFields a b) name =
      (Table.get? a name).map fun n => ((Table.get? b name).map (mergeNode n)).getD n := by
  induction a with
  | nil => rfl
  | cons e a ih =>
    by_cases h : e.1 = name
    · subst h
      cases hb : Table.get? b e.1 <;> simp [mergeFields, Table.get?, hb]
    · simp [mergeFields, Table.get?, h, ih]

/-- A field that both trees define is merged, any other one is kept. -/
theorem get?_merge (a b : Tree) (name : String) :
    Table.get? (merge a b) name =
      Option.merge mergeNode (Table.get? a name) (Table.get? b name) := by
  have hnew : Table.get? (newFields a b) name =
      if (Table.get? a name).isNone then Table.get? b name else none :=
    Table.get?_filter (fun k => (Table.get? a k).isNone) b name
  rw [merge, Table.get?_append, get?_mergeFields, hnew]
  cases Table.get? a name <;> cases Table.get? b name <;> rfl

/-- The nested fields are merged in their place among the attributes. -/
theorem get?_mergeNested (entries : List (String × Attribute)) (fields : Tree) :
    Table.get? (mergeNested entries fields) nestedName =
      (Table.get? entries nestedName).map fun a => mergeAttribute a fields := by
  induction entries with
  | nil => rfl
  | cons e entries ih =>
    by_cases h : e.1 = nestedName <;> simp [mergeNested, Table.get?, h, ih]

/-- Two definitions with nested fields: the first one, with the other's fields merged in. -/
theorem mergeNode_of_objects {a b : Node} {fields fields' : Tree} (ha : a.nested? = some fields)
    (hb : b.nested? = some fields') : mergeNode a b = ⟨mergeNested a.entries fields'⟩ := by
  obtain ⟨entries⟩ := a
  rw [mergeNode, ha, hb]

/-- Nested fields take the place of a definition without them. -/
theorem mergeNode_of_object {a b : Node} {fields : Tree} (ha : a.nested? = none)
    (hb : b.nested? = some fields) : mergeNode a b = b := by
  obtain ⟨entries⟩ := a
  rw [mergeNode, ha, hb]

/-- A definition without nested fields changes nothing. -/
theorem mergeNode_of_scalar {a b : Node} (hb : b.nested? = none) : mergeNode a b = a := by
  obtain ⟨entries⟩ := a
  rw [mergeNode, hb]
  cases (Node.mk entries).nested? <;> rfl

/-- The nested fields of two definitions are merged as trees. -/
theorem nested?_mergeNode (a b : Node) :
    (mergeNode a b).nested? = Option.merge merge a.nested? b.nested? := by
  cases hb : b.nested? with
  | none => rw [mergeNode_of_scalar hb, Option.merge_none_right]
  | some fields' =>
    cases ha : a.nested? with
    | none => rw [mergeNode_of_object ha hb, hb, Option.merge_none_left]
    | some fields =>
      rw [mergeNode_of_objects ha hb, Option.merge_some_some, Node.nested?_eq_some_iff, Node.get?,
        get?_mergeNested]
      rw [Node.nested?_eq_some_iff, Node.get?] at ha
      rw [ha]
      rfl

/-- A merged node has nested fields iff one of the two nodes has. -/
theorem isObject_mergeNode (a b : Node) :
    (mergeNode a b).isObject = (a.isObject || b.isObject) := by
  simp only [Node.isObject, nested?_mergeNode]
  cases a.nested? <;> cases b.nested? <;> rfl

/-- Merging nested fields leaves the outline. -/
theorem outline_mergeNested (entries : List (String × Attribute)) (fields : Tree) :
    (Node.mk (mergeNested entries fields)).outline = (Node.mk entries).outline := by
  induction entries with
  | nil => rfl
  | cons e entries ih =>
    by_cases h : e.1 = nestedName
    · simp [mergeNested, Node.outline, h]
    · simpa [mergeNested, Node.outline, h] using ih

/-- Apart from nested fields, the second of two definitions counts only if it has nested fields and
the first one has none. -/
theorem outline_mergeNode (a b : Node) :
    (mergeNode a b).outline = if !a.isObject && b.isObject then b.outline else a.outline := by
  cases hb : b.nested? with
  | none => simp [mergeNode_of_scalar hb, Node.isObject, hb]
  | some fields' =>
    cases ha : a.nested? with
    | none => simp [mergeNode_of_object ha hb, Node.isObject, ha, hb]
    | some fields =>
      rw [mergeNode_of_objects ha hb, outline_mergeNested]
      simp [Node.isObject, ha, Node.outline]

/-- What stands at a level of two merged trees is merged from what stands there in each. -/
theorem level?_merge (a b : Tree) (path : List String) :
    Tree.level? (merge a b) path =
      Option.merge merge (Tree.level? a path) (Tree.level? b path) := by
  induction path generalizing a b with
  | nil => rfl
  | cons name path ih =>
    have hbelow : (Table.get? (merge a b) name).bind Node.nested? =
        Option.merge merge ((Table.get? a name).bind Node.nested?)
          ((Table.get? b name).bind Node.nested?) := by
      rw [get?_merge]
      cases Table.get? a name <;> cases Table.get? b name <;> simp [nested?_mergeNode]
    simp only [Tree.level?, Table.level?, hbelow]
    cases (Table.get? a name).bind Node.nested? <;> cases (Table.get? b name).bind Node.nested?
    case some.some fields fields' => exact ih fields fields'
    all_goals simp

/-- What stands at a path of two merged trees is merged from what stands there in each. -/
theorem field?_merge (a b : Tree) (path : List String) :
    Tree.field? (merge a b) path =
      Option.merge mergeNode (Tree.field? a path) (Tree.field? b path) := by
  rcases List.eq_nil_or_concat path with rfl | ⟨front, name, rfl⟩
  · rfl
  · simp only [List.concat_eq_append, Tree.field?_concat, level?_merge]
    cases Tree.level? a front <;> cases Tree.level? b front
    case some.some fields fields' => exact get?_merge fields fields' name
    all_goals simp

/-! ## A list of trees -/

/-- The values of a list joined from the left; none without a value. -/
def joined? {α : Type} (join : α → α → α) : List α → Option α
  | [] => none
  | x :: xs => some (xs.foldl join x)

/-- If `g` takes the joining of trees to that of values, it takes a joined list of trees to the
joined values of those that have one. -/
theorem joined?_of_foldl {α : Type} {join : α → α → α} {g : Tree → Option α}
    (hg : ∀ a b, g (merge a b) = Option.merge join (g a) (g b)) (acc : Tree) (trees : List Tree) :
    g (trees.foldl merge acc) = joined? join ((g acc).toList ++ trees.filterMap g) := by
  induction trees generalizing acc with
  | nil => cases h : g acc <;> simp [h, joined?]
  | cons t trees ih =>
    rw [List.foldl_cons, ih, hg]
    cases ha : g acc <;> cases ht : g t <;> simp [ht, joined?]

/-- The definitions of the field at a path, in the order of the trees that have it. -/
def definitions (trees : List Tree) (path : List String) : List Node :=
  trees.filterMap fun t => Tree.field? t path

/-- The levels at a path, in the order of the trees that have it. -/
def levels (trees : List Tree) (path : List String) : List Tree :=
  trees.filterMap fun t => Tree.level? t path

/-- Some definition of a path has a property iff the path leads to such a field in some tree. -/
theorem exists_mem_definitions (trees : List Tree) (path : List String) (p : Node → Bool) :
    (∃ n ∈ definitions trees path, p n) ↔ ∃ t ∈ trees, (Tree.field? t path).any p := by
  simp only [definitions, List.mem_filterMap, Option.any_eq_true]
  constructor
  · rintro ⟨n, ⟨t, ht, hn⟩, hp⟩
    exact ⟨t, ht, n, hn, hp⟩
  · rintro ⟨t, ht, n, hn, hp⟩
    exact ⟨n, ⟨t, ht, hn⟩, hp⟩

/-- Each field of a merged list of trees is merged from its definitions. -/
theorem field?_mergeAll (trees : List Tree) (path : List String) :
    Tree.field? (mergeAll trees) path = joined? mergeNode (definitions trees path) := by
  have hnone : Tree.field? [] path = none := by
    match path with
    | [] | [_] | _ :: _ :: _ => rfl
  have hfold := joined?_of_foldl (g := fun t => Tree.field? t path)
    (fun a b => field?_merge a b path) [] trees
  rwa [hnone] at hfold

/-- Each level of a merged list of trees is merged from what the trees have there. -/
theorem level?_mergeAll (trees : List Tree) (path : List String) :
    Tree.level? (mergeAll trees) path =
      joined? merge ((Tree.level? [] path).toList ++ levels trees path) :=
  joined?_of_foldl (g := fun t => Tree.level? t path) (fun a b => level?_merge a b path) [] trees

/-- The first definition with nested fields or, if none has any, the first one. -/
def leading? (ns : List Node) : Option Node := ns.find? Node.isObject <|> ns.head?

/-- A run of merges has the outline of the leading definition. -/
theorem outline_foldl (n : Node) (ns : List Node) :
    some (ns.foldl mergeNode n).outline = (leading? (n :: ns)).map Node.outline := by
  -- a merged definition leads the rest just as the two it was merged from would
  induction ns generalizing n with
  | nil => cases h : n.isObject <;> simp [leading?, h]
  | cons n' ns ih =>
    rw [List.foldl_cons, ih]
    simp only [leading?, List.find?_cons, List.head?_cons, isObject_mergeNode]
    cases hn : n.isObject with
    | true => simp [outline_mergeNode, hn]
    | false =>
      cases hn' : n'.isObject with
      | true => simp [outline_mergeNode, hn, hn']
      | false => cases ns.find? Node.isObject <;> simp [outline_mergeNode, hn, hn']

/-- Merged definitions have nested fields iff one of them has. -/
theorem any_isObject_joined? (ns : List Node) :
    (joined? mergeNode ns).any Node.isObject = ns.any Node.isObject := by
  cases ns with
  | nil => rfl
  | cons n ns =>
    simp only [joined?, Option.any_some]
    induction ns generalizing n with
    | nil => simp
    | cons n' ns ih =>
      rw [List.foldl_cons, ih]
      simp [isObject_mergeNode, Bool.or_assoc]

/-- The names at a level of merged trees stand in the order of their first appearance. -/
theorem names_foldl (acc : Tree) {trees : List Tree} (h : ∀ t ∈ trees, Table.Distinct t) :
    Table.names (trees.foldl merge acc) =
      Table.names acc ++ ((trees.flatMap Table.names).removeAll (Table.names acc)).eraseDups := by
  -- names that `acc` has are taken out in front, so that the rest does not depend on their order
  induction trees generalizing acc with
  | nil => simp
  | cons t trees ih =>
    have hnew : ((Table.names t).removeAll (Table.names acc)).Nodup := (h t (by simp)).filter _
    have hrest : (trees.flatMap Table.names).removeAll (Table.names (merge acc t)) =
        ((trees.flatMap Table.names).removeAll (Table.names acc)).removeAll
          ((Table.names t).removeAll (Table.names acc)) := by
      rw [names_merge]
      simp only [List.removeAll, List.filter_filter]
      refine List.filter_congr fun name _ => ?_
      rw [Bool.eq_iff_iff]
      simpa using and_comm
    calc Table.names ((t :: trees).foldl merge acc)
      _ = Table.names (merge acc t) ++
            ((trees.flatMap Table.names).removeAll (Table.names (merge acc t))).eraseDups :=
          ih (merge acc t) fun u hu => h u (by simp [hu])
      _ = Table.names acc ++ ((Table.names t).removeAll (Table.names acc) ++
            (trees.flatMap Table.names).removeAll (Table.names acc)).eraseDups := by
          rw [hrest, names_merge, List.append_assoc, List.eraseDups_append,
            eraseDups_of_nodup hnew]
      _ = _ := by simp [List.removeAll]

/-- A level joined from others has each of their names once, in the order of first appearance. -/
theorem names_joined? {trees : List Tree} (h : ∀ t ∈ trees, Table.Distinct t) {level : Tree}
    (hlevel : joined? merge trees = some level) :
    Table.names level = (trees.flatMap Table.names).eraseDups := by
  cases trees with
  | nil => simp [joined?] at hlevel
  | cons t trees =>
    obtain rfl : trees.foldl merge t = level := by simpa [joined?] using hlevel
    rw [names_foldl t fun u hu => h u (by simp [hu]), List.flatMap_cons, List.eraseDups_append,
      eraseDups_of_nodup (h t (by simp))]

/-- The empty tree has no level but an empty one. -/
theorem eq_nil_of_level?_nil {path : List String} {level : Tree}
    (h : Tree.level? [] path = some level) : level = [] := by
  cases path with
  | nil => simpa using h.symm
  | cons name path => simp [Table.level?] at h

/-- What a list of trees says of a path, and what a tree that is merged from them has there. -/
structure MergedAt (trees : List Tree) (path : List String) (merged : Tree) : Prop where
  /-- There is a field iff some tree has one. -/
  field_iff : (Tree.field? merged path).isSome ↔ ∃ t ∈ trees, (Tree.field? t path).isSome
  /-- The field has nested fields iff it has some in one of the trees. -/
  object_iff : (Tree.field? merged path).any Node.isObject ↔
    ∃ t ∈ trees, (Tree.field? t path).any Node.isObject
  /-- Its other attributes and the place of the nested fields among them are those of the first
  definition with nested fields or, without such a one, of the first definition. -/
  outline_eq : (Tree.field? merged path).map Node.outline =
    (leading? (definitions trees path)).map Node.outline
  /-- At a level each name stands once, in the order in which the levels of the trees bring it. -/
  names_eq : ∀ level, Tree.level? merged path = some level → Table.Distinct level ∧
    Table.names level = ((levels trees path).flatMap Table.names).eraseDups

/-- A merged list of trees has at every path what the trees together say of it. -/
theorem mergeAll_path (trees : List Tree) (h : ∀ t ∈ trees, Tree.Distinct t)
    (path : List String) : MergedAt trees path (mergeAll trees) where
  field_iff := by
    have hsome : ∀ t, (Tree.field? t path).isSome = (Tree.field? t path).any fun _ => true := by
      intro t
      cases Tree.field? t path <;> rfl
    simp only [hsome, field?_mergeAll, ← exists_mem_definitions]
    cases definitions trees path <;> simp [joined?]
  object_iff := by
    rw [field?_mergeAll, any_isObject_joined?, List.any_eq_true]
    exact exists_mem_definitions trees path Node.isObject
  outline_eq := by
    rw [field?_mergeAll]
    cases definitions trees path with
    | nil => rfl
    | cons n ns => exact outline_foldl n ns
  names_eq := by
    intro level hlevel
    rw [level?_mergeAll] at hlevel
    have hdistinct : ∀ u ∈ (Tree.level? [] path).toList ++ levels trees path,
        Table.Distinct u := by
      intro u hu
      rcases List.mem_append.1 hu with hu | hu
      · rw [eq_nil_of_level?_nil (Option.mem_toList.1 hu)]
        exact List.nodup_nil
      · obtain ⟨t, ht, hu⟩ := List.mem_filterMap.1 hu
        exact (h t ht).level hu
    -- the empty tree that merging begins with has no names to add
    have hempty : (Tree.level? [] path).toList.flatMap Table.names = [] := by
      refine List.flatMap_eq_nil_iff.2 fun u hu => ?_
      rw [eq_nil_of_level?_nil (Option.mem_toList.1 hu)]
      rfl
    have hnames := names_joined? hdistinct hlevel
    rw [List.flatMap_append, hempty, List.nil_append] at hnames
    refine ⟨?_, hnames⟩
    rw [Table.Distinct, hnames]
    exact nodup_eraseDups _

/-- Three trees that define the same field: by its type, and twice by nested fields. -/
def threeTrees : List Tree :=
  [[("f", .ofType "keyword")],
   [("f", Node.empty.setNested [("x", .ofType "text")])],
   [("g", .ofType "long"),
    ("f", (Node.ofType "nested").setNested [("y", .ofType "long"), ("x", .ofType "keyword")])]]

/-- Three trees define the same field, first by a type and then twice by nested fields. -/
theorem mergeAll_path_three :
    (∀ t ∈ threeTrees, Tree.Distinct t) ∧
      ∀ path, MergedAt threeTrees path (mergeAll threeTrees) := by
  have hdistinct : ∀ t ∈ threeTrees, Tree.Distinct t := by
    simp [threeTrees, Tree.Distinct, Node.ofType, Node.setNested, Node.empty, Node.insertPlain,
      Node.insert, Table.insert, Table.names, Node.Distinct, Node.AttributesDistinct,
      Attribute.Distinct, nestedName, typeName]
  exact ⟨hdistinct, mergeAll_path threeTrees hdistinct⟩

end SearchIndex.Mapping
