import SearchIndex.Proofs.Mapping.Places

/-!
# Definitions that are replaced

Merging tells which definitions lose their place, each by its own name. `replaced` lists the same
definitions with their paths, and `replacements_eq` says that what is told is that list without the
paths, in document order. A definition is listed iff it has no nested fields and the other tree has
some at its path; every other field keeps what it says apart from its nested fields
(`TellsReplaced`).

A path that has nested fields keeps having some. So over a whole list of trees no path is told
twice: `replacements_by_path`.
-/

namespace SearchIndex.Mapping

/-- The field gives way to `b`: it has no nested fields, and `b` has some at its path. -/
def givesWay (b : Tree) (e : List String × Node) : Bool :=
  !e.2.isObject && (Tree.field? b e.1).any Node.isObject

/-- The fields of `a` that give way to `b`, with their paths, in document order. -/
def replaced (a b : Tree) : List (List String × Node) := (places a).filter (givesWay b)

/-- What is told of a field that gives way: its own name, and its type if that is a text. -/
def Replacement.ofPlace (e : List String × Node) : Replacement :=
  ⟨e.1.getLast?.getD "", e.2.type?⟩

/-- The fields that give way while trees are merged one after another onto `merged`. -/
def replacedOnto (merged : Tree) : List Tree → List (List String × Node)
  | [] => []
  | t :: rest => replaced merged t ++ replacedOnto (merge merged t) rest

/-! ## One merge -/

/-- The replacements below a node are those in its nested fields. -/
theorem nestedReplacements_eq (n : Node) (b : Tree) :
    nestedReplacements n.entries b =
      (n.nested?.map fun fields => replacements fields b).getD [] := by
  obtain ⟨entries⟩ := n
  dsimp only
  induction entries with
  | nil => rfl
  | cons e entries ih =>
    obtain ⟨name, a⟩ := e
    by_cases h : name = nestedName
    · rw [nestedReplacements, if_pos h]
      cases a <;> simp [attributeReplacements, Node.nested?, Node.get?, Table.get?, h]
    · rw [nestedReplacements, if_neg h, ih]
      simp [Node.nested?, Node.get?, Table.get?, h]

/-- A definition without nested fields in the other tree replaces nothing. -/
theorem nodeReplacements_of_scalar (name : String) (n : Node) {n' : Node} (h : n'.nested? = none) :
    nodeReplacements name n n' = [] := by
  obtain ⟨entries⟩ := n
  rw [nodeReplacements, h]
  cases (Node.mk entries).nested? <;> rfl

/-- A definition with nested fields replaces the definition if it has none, and what gives way below
it otherwise. -/
theorem nodeReplacements_of_object (name : String) (n : Node) {n' : Node} {b : Tree}
    (h : n'.nested? = some b) :
    nodeReplacements name n n' =
      (n.nested?.map fun fields => replacements fields b).getD [⟨name, n.type?⟩] := by
  obtain ⟨entries⟩ := n
  rw [nodeReplacements, h]
  cases hn : (Node.mk entries).nested? with
  | none => rfl
  | some fields =>
    have hbelow := nestedReplacements_eq ⟨entries⟩ b
    rwa [hn] at hbelow

/-- A name in front of a path changes nothing but the path. -/
theorem ofPlace_cons (name : String) {e : List String × Node} (h : e.1 ≠ []) :
    Replacement.ofPlace (name :: e.1, e.2) = Replacement.ofPlace e := by
  obtain ⟨first, rest, hpath⟩ := List.exists_cons_of_ne_nil h
  rw [Replacement.ofPlace, Replacement.ofPlace, hpath, List.getLast?_cons_cons]

/-- Below a field the fields nested in its counterpart decide what gives way. -/
theorem givesWay_cons (b : Tree) (name : String) {e : List String × Node} (h : e.1 ≠ []) :
    givesWay b (name :: e.1, e.2) =
      ((Table.get? b name).bind Node.nested?).any fun fields => givesWay fields e := by
  rw [givesWay, Tree.field?, Table.follow?_cons Node.nested? b name h]
  cases (Table.get? b name).bind Node.nested? with
  | none => exact Bool.and_false _
  | some fields => rfl

/-- A field whose counterpart has nested fields gives way itself, or some of its own do. -/
theorem replaced_cons (name : String) (n : Node) (rest b : Tree) :
    replaced ((name, n) :: rest) b =
      (match (Table.get? b name).bind Node.nested?, n.nested? with
        | none, _ => []
        | some _, none => [([name], n)]
        | some fields', some fields =>
          (replaced fields fields').map fun e => (name :: e.1, e.2)) ++ replaced rest b := by
  have hself : givesWay b ([name], n) =
      (!n.isObject && ((Table.get? b name).bind Node.nested?).isSome) := by
    rw [givesWay, Tree.field?, Table.follow?]
    cases Table.get? b name <;> rfl
  have hbelow : ∀ fields, ((places fields).map fun e => (name :: e.1, e.2)).filter (givesWay b) =
      ((places fields).filter fun e =>
        ((Table.get? b name).bind Node.nested?).any fun fields' => givesWay fields' e).map
          fun e => (name :: e.1, e.2) := by
    intro fields
    rw [List.filter_map]
    exact congrArg _ (List.filter_congr fun e he => givesWay_cons b name (ne_nil_of_mem_places he))
  rw [replaced, places_cons, List.filter_append, List.filter_cons, hself, Node.isObject]
  cases hb : (Table.get? b name).bind Node.nested? <;> cases n.nested? <;>
    simp [replaced, hbelow, hb]

/-- What is told is what gives way, in document order. -/
theorem replacements_eq (a b : Tree) :
    replacements a b = (replaced a b).map Replacement.ofPlace := by
  induction a using nested_induction generalizing b with
  | h a ih =>
  -- along one level; `ih` is about the levels below its fields
  induction a with
  | nil => rfl
  | cons e rest ihrest =>
    obtain ⟨name, n⟩ := e
    obtain ⟨hn, hrest⟩ := List.forall_mem_cons.1 ih
    rw [replacements, replaced_cons, List.map_append, ← ihrest hrest]
    congr 1
    cases hb : Table.get? b name with
    | none => rfl
    | some n' =>
      cases hn' : n'.nested? with
      | none => simp [hn', nodeReplacements_of_scalar]
      | some fields' =>
        cases hfields : n.nested? with
        | none => simp [hn', hfields, nodeReplacements_of_object name n hn', Replacement.ofPlace]
        | some fields =>
          have hbelow : nodeReplacements name n n' =
              (replaced fields fields').map Replacement.ofPlace := by
            rw [nodeReplacements_of_object name n hn', hfields]
            exact hn fields hfields fields'
          simp only [hn', hbelow, Option.bind_some, List.map_map]
          exact List.map_congr_left fun e he =>
            (ofPlace_cons name (ne_nil_of_mem_places (List.mem_filter.1 he).1)).symm

/-! ## What is told of a field -/

/-- A field is told iff it has no nested fields and the other tree has some at its path. -/
theorem mem_replaced_iff {a b : Tree} (h : Tree.LevelsDistinct a) {path : List String} {n : Node} :
    (path, n) ∈ replaced a b ↔ Tree.field? a path = some n ∧ n.isObject = false ∧
      (Tree.field? b path).any Node.isObject := by
  rw [replaced, List.mem_filter, mem_places_iff h, givesWay, Bool.and_eq_true, Bool.not_eq_true']

/-- Where a field is told, the merged tree has the definition of the other tree. -/
theorem field?_merge_of_replaced {a b : Tree} (h : Tree.LevelsDistinct a) {path : List String}
    {n : Node} (hmem : (path, n) ∈ replaced a b) :
    Tree.field? (merge a b) path = Tree.field? b path := by
  obtain ⟨ha, hn, hb⟩ := (mem_replaced_iff h).1 hmem
  obtain ⟨n', hb, hn'⟩ := (Option.any_eq_true _ _).1 hb
  obtain ⟨fields, hfields⟩ := Option.isSome_iff_exists.1 hn'
  have hnone : n.nested? = none := Option.not_isSome_iff_eq_none.1 (Bool.eq_false_iff.1 hn)
  rw [field?_merge, ha, hb, Option.merge_some_some, mergeNode_of_object hnone hfields]

/-- Where a field is not told, the merged tree has what it says apart from its nested fields. -/
theorem outline_merge_of_kept {a b : Tree} (h : Tree.LevelsDistinct a) {path : List String}
    {n : Node} (hn : Tree.field? a path = some n) (hmem : (path, n) ∉ replaced a b) :
    (Tree.field? (merge a b) path).map Node.outline = some n.outline := by
  rw [mem_replaced_iff h] at hmem
  rw [field?_merge, hn]
  cases hb : Tree.field? b path with
  | none => rfl
  | some n' =>
    have hkept : (!n.isObject && n'.isObject) = false := by
      simpa [hn, hb] using hmem
    rw [Option.merge_some_some, Option.map_some, outline_mergeNode, hkept]
    rfl

/-- What merging `b` into `a` tells of the fields of `a`. -/
structure TellsReplaced (a b : Tree) : Prop where
  /-- Each field that is listed is told by its own name and its type. -/
  told_eq : replacements a b = (replaced a b).map Replacement.ofPlace
  /-- The type is told as its text, or as `<none>` if there is no text for it. -/
  type_eq : ∀ path n, (path, n) ∈ replaced a b →
    (∀ s, n.get? typeName = some (.plain (.str s)) →
      (Replacement.ofPlace (path, n)).toldType = s) ∧
    ((∀ s, n.get? typeName ≠ some (.plain (.str s))) →
      (Replacement.ofPlace (path, n)).toldType = "<none>")
  /-- The list is in document order. -/
  in_order : (replaced a b).Sublist (places a)
  /-- No path is listed twice. -/
  once : ((replaced a b).map Prod.fst).Nodup
  /-- Listed are the fields without nested fields at whose path `b` has nested fields. -/
  mem_iff : ∀ path n, (path, n) ∈ replaced a b ↔ Tree.field? a path = some n ∧
    n.isObject = false ∧ (Tree.field? b path).any Node.isObject
  /-- At the path of such a field the merged tree has the definition of `b`. -/
  replaced_eq : ∀ path n, (path, n) ∈ replaced a b →
    Tree.field? (merge a b) path = Tree.field? b path
  /-- Any other field keeps its attributes, and their order, apart from its nested fields. -/
  kept_eq : ∀ path n, Tree.field? a path = some n → (path, n) ∉ replaced a b →
    (Tree.field? (merge a b) path).map Node.outline = some n.outline

/-- A definition is told with its type if that is a text, and as one without a type otherwise. -/
theorem toldType_ofPlace (path : List String) (n : Node) :
    (∀ s, n.get? typeName = some (.plain (.str s)) →
      (Replacement.ofPlace (path, n)).toldType = s) ∧
    ((∀ s, n.get? typeName ≠ some (.plain (.str s))) →
      (Replacement.ofPlace (path, n)).toldType = "<none>") := by
  have htold : (Replacement.ofPlace (path, n)).toldType = n.type?.getD noType := rfl
  rw [htold]
  constructor
  · intro s hs
    rw [Node.type?_eq_some_iff.2 hs, Option.getD_some]
  · intro hnone
    have htype : n.type? = none := by
      refine Option.eq_none_iff_forall_ne_some.2 fun s hs => ?_
      exact hnone s (Node.type?_eq_some_iff.1 hs)
    rw [htype, Option.getD_none, noType]

/-- Merging tells the fields that give way, and the merged tree keeps what all others say. -/
theorem tellsReplaced {a : Tree} (h : Tree.LevelsDistinct a) (b : Tree) : TellsReplaced a b where
  told_eq := replacements_eq a b
  type_eq := fun path n _ => toldType_ofPlace path n
  in_order := List.filter_sublist
  once := (nodup_places h).sublist (List.filter_sublist.map Prod.fst)
  mem_iff := fun _ _ => mem_replaced_iff h
  replaced_eq := fun _ _ => field?_merge_of_replaced h
  kept_eq := fun _ _ => outline_merge_of_kept h

/-! ## A list of trees -/

/-- What a run of merges tells is what its steps list, without the paths. -/
theorem replacementsOnto_eq (merged : Tree) (trees : List Tree) :
    replacementsOnto merged trees = (replacedOnto merged trees).map Replacement.ofPlace := by
  induction trees generalizing merged with
  | nil => rfl
  | cons t trees ih =>
    rw [replacementsOnto, replacedOnto, List.map_append, replacements_eq, ih]

section List

variable {merged : Tree} {trees : List Tree} (hmerged : Tree.LevelsDistinct merged)
  (htrees : ∀ t ∈ trees, Tree.LevelsDistinct t)
include hmerged htrees

/-- A path that has nested fields is not told any more. -/
theorem not_isObject_of_mem_replacedOnto {e : List String × Node}
    (he : e ∈ replacedOnto merged trees) : (Tree.field? merged e.1).any Node.isObject = false := by
  induction trees generalizing merged with
  | nil => exact absurd he List.not_mem_nil
  | cons t trees ih =>
    obtain ⟨ht, htrees⟩ := List.forall_mem_cons.1 htrees
    rcases List.mem_append.1 he with he | he
    · obtain ⟨hfield, hn, -⟩ := (mem_replaced_iff hmerged).1 he
      rw [hfield, Option.any_some, hn]
    · -- merging only adds nested fields
      have hlater := ih (hmerged.merge ht) htrees he
      rw [field?_merge] at hlater
      cases hm : Tree.field? merged e.1 with
      | none => rfl
      | some n =>
        cases htree : Tree.field? t e.1 with
        | none => simpa [hm, htree] using hlater
        | some n' =>
          have hboth : n.isObject = false ∧ n'.isObject = false := by
            simpa [hm, htree, isObject_mergeNode] using hlater
          rw [Option.any_some, hboth.1]

/-- No path is told twice while trees are merged one after another. -/
theorem nodup_replacedOnto : ((replacedOnto merged trees).map Prod.fst).Nodup := by
  induction trees generalizing merged with
  | nil => exact List.nodup_nil
  | cons t trees ih =>
    obtain ⟨ht, htrees⟩ := List.forall_mem_cons.1 htrees
    rw [replacedOnto, List.map_append]
    refine List.nodup_append.2
      ⟨(tellsReplaced hmerged t).once, ih (hmerged.merge ht) htrees, ?_⟩
    rintro path hpath other hother rfl
    obtain ⟨e, he, rfl⟩ := List.mem_map.1 hpath
    obtain ⟨e', he', heq⟩ := List.mem_map.1 hother
    -- once told, the path has the nested fields of the tree that was merged
    have hobject : (Tree.field? (merge merged t) e.1).any Node.isObject := by
      rw [field?_merge_of_replaced hmerged he]
      exact ((mem_replaced_iff hmerged).1 he).2.2
    have hlater := not_isObject_of_mem_replacedOnto (hmerged.merge ht) htrees he'
    rw [heq, hobject] at hlater
    exact absurd hlater (Bool.noConfusion)

end List

/-- Merging tells the fields that give way, and while a list of trees is merged it tells no path
twice. -/
theorem replacements_by_path :
    (∀ a b, Tree.LevelsDistinct a → TellsReplaced a b) ∧
      ∀ trees : List Tree, (∀ t ∈ trees, Tree.LevelsDistinct t) →
        allReplacements trees = (replacedOnto [] trees).map Replacement.ofPlace ∧
          ((replacedOnto [] trees).map Prod.fst).Nodup :=
  ⟨fun _ b h => tellsReplaced h b, fun trees h =>
    ⟨replacementsOnto_eq [] trees, nodup_replacedOnto Tree.levelsDistinct_nil h⟩⟩

/-- Books whose author and whose place of print are names. -/
def plainBooks : Tree :=
  [("author", .ofType "keyword"),
   ("print", Node.empty.setNested [("place", .ofType "text"), ("year", .ofType "long")])]

/-- Books whose author and whose place of print are described by fields of their own. -/
def describedBooks : Tree :=
  [("print", Node.empty.setNested [("place", Node.empty.setNested [("city", .ofType "text")])]),
   ("author", Node.empty.setNested [("name", .ofType "text")]), ("title", .ofType "text")]

/-- No name stands twice in plain books. -/
theorem levelsDistinct_plainBooks : Tree.LevelsDistinct plainBooks := Tree.Distinct.levels (by
  simp [plainBooks, Tree.Distinct, Node.ofType, Node.setNested, Node.empty, Node.insertPlain,
    Node.insert, Table.insert, Table.names, Node.Distinct, Node.AttributesDistinct,
    Attribute.Distinct])

/-- No name stands twice in described books. -/
theorem levelsDistinct_describedBooks : Tree.LevelsDistinct describedBooks :=
  Tree.Distinct.levels (by
    simp [describedBooks, Tree.Distinct, Node.ofType, Node.setNested, Node.empty,
      Node.insertPlain, Node.insert, Table.insert, Table.names, Node.Distinct,
      Node.AttributesDistinct, Attribute.Distinct])

/-- Author and place of plain books give way to described ones, and are told once although the plain
books come again. -/
theorem replacements_by_path_books :
    (Tree.LevelsDistinct plainBooks ∧ TellsReplaced plainBooks describedBooks ∧
      replacements plainBooks describedBooks =
        [⟨"author", some "keyword"⟩, ⟨"place", some "text"⟩]) ∧
    (∀ t ∈ [plainBooks, describedBooks, plainBooks], Tree.LevelsDistinct t) ∧
      allReplacements [plainBooks, describedBooks, plainBooks] =
        [⟨"author", some "keyword"⟩, ⟨"place", some "text"⟩] ∧
      ((replacedOnto [] [plainBooks, describedBooks, plainBooks]).map Prod.fst).Nodup := by
  have hall : ∀ t ∈ [plainBooks, describedBooks, plainBooks], Tree.LevelsDistinct t := by
    simp [levelsDistinct_plainBooks, levelsDistinct_describedBooks]
  obtain ⟨hone, hlist⟩ := replacements_by_path
  exact ⟨⟨levelsDistinct_plainBooks, hone _ _ levelsDistinct_plainBooks, rfl⟩, hall, rfl,
    (hlist _ hall).2⟩

end SearchIndex.Mapping
