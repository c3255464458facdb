import SearchIndex.Proofs.Mapping.Tree

/-!
# Nodes by the history of their writes

A node is written in three ways: one attribute at a time, the nested fields, or all attributes of
another node at once. `history` lists the entries that come of any sequence of such writes, from
those that the node starts with to the last one. At the start the attributes are a table, as in
every node that is read, compiled or merged: no name stands twice among them.

`Keeps` says what a node keeps of a history: each name once, in the order of first writes, with the
value that was written last, be it nested fields or a plain value. `Keeps.apply` is the step from
one write to the next and `Keeps.writeAll` the run.

No other node keeps the same history (`keeps_iff`), so that nodes may be compared by their
histories. Assigning is associative for this reason: both ways write the same entries, except that
one of them leaves out beforehand what is overwritten anyway (`keeps_append_entries`).
-/

namespace SearchIndex.Mapping

/-- A write to a node. -/
inductive Write
  /-- One attribute under any name, nested fields or a plain value. -/
  | insert (name : String) (value : Attribute)
  /-- The nested fields, under their name. -/
  | setNested (fields : Tree)
  /-- All attributes of another node. -/
  | assign (other : Node)

namespace Write

/-- What a write makes of a node. -/
def apply (n : Node) : Write → Node
  | .insert name value => n.insert name value
  | .setNested fields => n.setNested fields
  | .assign other => n.assign other

/-- The entries that are written, in order. -/
def entries : Write → List (String × Attribute)
  | .insert name value => [(name, value)]
  | .setNested fields => [(nestedName, .nested fields)]
  | .assign other => other.entries

/-- Each kind of write writes its entries one by one. -/
theorem entries_apply (n : Node) (w : Write) :
    (w.apply n).entries = Table.extend n.entries w.entries := by
  cases w <;> rfl

end Write

/-- The node after writes in order. -/
def Node.writeAll (n : Node) (writes : List Write) : Node := writes.foldl Write.apply n

/-- All entries that are ever written, beginning with those at the start. -/
def history (n : Node) (writes : List Write) : List (String × Attribute) :=
  n.entries ++ writes.flatMap Write.entries

/-- The last write of a name in a history, with the value that it gives. -/
def WrittenLast (ws : List (String × Attribute)) (name : String) (a : Attribute) : Prop :=
  ∃ before after, ws = before ++ (name, a) :: after ∧ name ∉ Table.names after

/-- What a node keeps of a history. -/
structure Keeps (ws : List (String × Attribute)) (n : Node) : Prop where
  /-- No name stands twice. -/
  distinct : Table.Distinct n.entries
  /-- The names stand in the order of their first writes. -/
  names_eq : n.names = (Table.names ws).eraseDups
  /-- The value of a name is that of its last write. -/
  get?_iff : ∀ name a, n.get? name = some a ↔ WrittenLast ws name a
  /-- A name has a plain value iff its last write is one. -/
  plain?_iff : ∀ name v, n.plain? name = some v ↔ WrittenLast ws name (.plain v)
  /-- There are nested fields iff the last write of their name is one. -/
  nested?_iff : ∀ fields, n.nested? = some fields ↔ WrittenLast ws nestedName (.nested fields)

variable {ws vs : List (String × Attribute)} {n : Node}

/-! ## The node of a history -/

/-- The table of a history keeps it. -/
theorem keeps_ofList (ws : List (String × Attribute)) : Keeps ws ⟨Table.ofList ws⟩ := by
  have hget : ∀ name a, Node.get? ⟨Table.ofList ws⟩ name = some a ↔ WrittenLast ws name a := by
    intro name a
    rw [Node.get?, Table.get?_ofList, Table.get?_reverse_eq_some_iff, WrittenLast]
  constructor
  · exact Table.distinct_ofList ws
  · exact Table.names_ofList ws
  · exact hget
  · intro name v
    rw [Node.plain?_eq_some_iff, hget]
  · intro fields
    rw [Node.nested?_eq_some_iff, hget]

/-- A history fixes what is kept of it. -/
theorem Keeps.unique {m : Node} (hn : Keeps ws n) (hm : Keeps ws m) : n = m := by
  have hnames : n.names = m.names := hn.names_eq.trans hm.names_eq.symm
  have hget : ∀ name, n.get? name = m.get? name := by
    intro name
    refine Option.ext fun a => ?_
    rw [hn.get?_iff, hm.get?_iff]
  have hentries : n.entries = m.entries := Table.eq_of_get? hn.distinct hnames hget
  cases n
  cases m
  exact congrArg Node.mk hentries

/-- Exactly one node keeps a history. -/
theorem keeps_iff : Keeps ws n ↔ n.entries = Table.ofList ws := by
  constructor
  · intro h
    rw [h.unique (keeps_ofList ws)]
  · intro h
    obtain ⟨entries⟩ := n
    obtain rfl : entries = Table.ofList ws := h
    exact keeps_ofList ws

/-- A node without repeated names keeps its own entries. -/
theorem keeps_entries (h : Table.Distinct n.entries) : Keeps n.entries n := by
  rw [keeps_iff, Table.ofList_of_distinct h]

/-! ## One more write -/

/-- A write adds its entries to the history. -/
theorem Keeps.apply (h : Keeps ws n) (w : Write) : Keeps (ws ++ w.entries) (w.apply n) := by
  rw [keeps_iff] at h ⊢
  rw [w.entries_apply, h, Table.ofList, Table.ofList, Table.extend_append]

/-- Writes in order add their entries to the history. -/
theorem Keeps.writeAll (h : Keeps ws n) (writes : List Write) :
    Keeps (ws ++ writes.flatMap Write.entries) (n.writeAll writes) := by
  induction writes generalizing ws n with
  | nil =>
    rw [List.flatMap_nil, List.append_nil]
    exact h
  | cons w writes ih =>
    rw [List.flatMap_cons, ← List.append_assoc]
    exact ih (h.apply w)

/-- A node and its writes are known by their history. -/
theorem keeps_history (h : Table.Distinct n.entries) (writes : List Write) :
    Keeps (history n writes) (n.writeAll writes) :=
  (keeps_entries h).writeAll writes

/-! ## Assigning -/

/-- Behind what was written before, what a node keeps of a history is as good as the history. -/
theorem keeps_append_entries {m : Node} (h : Keeps vs m) :
    Keeps (ws ++ m.entries) n ↔ Keeps (ws ++ vs) n := by
  rw [keeps_iff, keeps_iff, keeps_iff.1 h, Table.ofList_append_ofList]

/-- How other nodes are assigned to a node. -/
structure AssignLaws (n : Node) : Prop where
  empty_assign : Node.empty.assign n = n
  assign_empty : n.assign .empty = n
  /-- Two nodes are assigned one after the other or, put together, at once. -/
  assoc : ∀ b c : Node, Table.Distinct b.entries →
    (n.assign b).assign c = n.assign (b.assign c)
  /-- Assigning a node once more changes nothing. -/
  twice : ∀ b : Node, (n.assign b).assign b = n.assign b

/-- Assigning is associative. -/
theorem assign_assoc {a b : Node} (ha : Table.Distinct a.entries) (hb : Table.Distinct b.entries)
    (c : Node) : (a.assign b).assign c = a.assign (b.assign c) := by
  have hleft : Keeps (a.entries ++ b.entries ++ c.entries) ((a.assign b).assign c) :=
    ((keeps_entries ha).apply (.assign b)).apply (.assign c)
  have hright : Keeps (a.entries ++ (b.assign c).entries) (a.assign (b.assign c)) :=
    (keeps_entries ha).apply (.assign (b.assign c))
  have hjoined : Keeps (b.entries ++ c.entries) (b.assign c) :=
    (keeps_entries hb).apply (.assign c)
  rw [List.append_assoc] at hleft
  exact hleft.unique ((keeps_append_entries hjoined).1 hright)

/-- Assigning a node again has no effect. -/
theorem assign_assign {a : Node} (ha : Table.Distinct a.entries) (b : Node) :
    (a.assign b).assign b = a.assign b := by
  have honce : Keeps (a.entries ++ b.entries) (a.assign b) := (keeps_entries ha).apply (.assign b)
  have htwice : Keeps (a.entries ++ b.entries ++ b.entries) ((a.assign b).assign b) :=
    honce.apply (.assign b)
  rw [keeps_iff, Table.ofList_append_self, ← keeps_iff] at htwice
  exact htwice.unique honce

/-- A node without an attribute twice is assigned to by the laws. -/
theorem assignLaws (h : Table.Distinct n.entries) : AssignLaws n where
  empty_assign := Node.empty_assign h
  assign_empty := n.assign_empty
  assoc := fun _ c hb => assign_assoc h hb c
  twice := assign_assign h

/-- Whatever is written to a node, the history of its writes says exactly what the node is: each
name stands where it was first written, with the value that was written last. Hence assigning is
associative, the empty node is neutral and assigning once more changes nothing. -/
theorem keeps_last_writes (h : Table.Distinct n.entries) (writes : List Write) :
    (∀ m, Keeps (history n writes) m ↔ m = n.writeAll writes) ∧ AssignLaws n := by
  have hkeeps := keeps_history h writes
  refine ⟨fun m => ⟨fun hm => hm.unique hkeeps, ?_⟩, assignLaws h⟩
  rintro rfl
  exact hkeeps

/-- An object with a field. -/
def articleNode : Node :=
  ⟨[("type", .plain (.str "object")), ("properties", .nested [("title", Node.ofType "text")])]⟩

/-- A text with an analyzer, and a plain value in the place of the nested fields. -/
def titleNode : Node :=
  ⟨[("analyzer", .plain (.str "english")), ("properties", .plain .null),
    ("type", .plain (.str "text"))]⟩

/-- Nested fields are overwritten by a plain value, and a plain value by nested fields. -/
theorem keeps_last_writes_article :
    let writes : List Write :=
      [.insert "store" (.plain (.bool true)), .assign titleNode, .setNested [],
       .insert "properties" (.plain (.str "none")), .insert "store" (.nested [])]
    Table.Distinct articleNode.entries ∧ Table.Distinct titleNode.entries ∧
      ((∀ m, Keeps (history articleNode writes) m ↔ m = articleNode.writeAll writes) ∧
        AssignLaws articleNode) ∧
      (articleNode.assign titleNode).assign articleNode =
        articleNode.assign (titleNode.assign articleNode) := by
  intro writes
  have harticle : (Table.names articleNode.entries).Nodup := by decide
  have htitle : (Table.names titleNode.entries).Nodup := by decide
  have hlaws := keeps_last_writes harticle writes
  exact ⟨harticle, htitle, hlaws, hlaws.2.assoc titleNode articleNode htitle⟩

-- The type keeps its place and takes the new value; a plain value replaces the nested fields.
example :
    let base := ((Node.ofType "text").setNested []).insertPlain "analyzer" (.str "standard")
    let other := ((Node.ofType "keyword").insertPlain "ignore_above" .null).insertPlain
      "properties" .null
    base.assign other =
      ⟨[("type", .plain (.str "keyword")), ("properties", .plain .null),
        ("analyzer", .plain (.str "standard")), ("ignore_above", .plain .null)]⟩ :=
  rfl

end SearchIndex.Mapping
