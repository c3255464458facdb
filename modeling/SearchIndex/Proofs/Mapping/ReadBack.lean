import SearchIndex.Proofs.Json.Grammar
import SearchIndex.Proofs.Mapping.Every

/-!
# Reading and writing of nodes are inverse to each other

A node is written attribute by attribute, and what is written does not tell nested fields from a
plain value: the reader goes by the name alone. `Node.Accepted` is the grammar of the documents that
it reads, and `Node.toJson_of_ofJson` says that nothing of such a document is lost.

In the other direction, the nodes that are read back are those whose nested fields are `Placed` at
every depth. A plain value under the name of the nested fields is read as nested fields, if at all;
nested fields under any other name are read as a plain value.
-/

namespace SearchIndex.Mapping

namespace Node

/-! ## Documents that read as nodes -/

/-- The documents that read as nodes: objects whose nested fields, if there are any, are an object
of such documents. -/
inductive Accepted : Json → Prop
  | intro {members : List (String × Json)}
      (nested : ∀ v, (nestedName, v) ∈ members → ∃ fields, v = .obj fields)
      (below : ∀ fields, (nestedName, .obj fields) ∈ members → ∀ e ∈ fields, Accepted e.2) :
      Accepted (.obj members)

/-- An object is accepted iff nested fields stand where they should, each of them accepted. -/
theorem accepted_obj_iff {members : List (String × Json)} :
    Accepted (.obj members) ↔ ∀ e ∈ members, e.1 = nestedName →
      ∃ fields, e.2 = .obj fields ∧ ∀ d ∈ fields, Accepted d.2 := by
  constructor
  · rintro ⟨hnested, hbelow⟩ ⟨name, v⟩ he rfl
    obtain ⟨fields, rfl⟩ := hnested v he
    exact ⟨fields, rfl, hbelow fields he⟩
  · intro h
    refine ⟨fun v hv => ?_, fun fields hv => ?_⟩
    · obtain ⟨fields, hfields, -⟩ := h _ hv rfl
      exact ⟨fields, hfields⟩
    · obtain ⟨fields', hfields', hbelow⟩ := h _ hv rfl
      exact Json.obj.inj hfields' ▸ hbelow

mutual

/-- A document reads as a node iff it is of the grammar. -/
theorem exists_ofJson_iff (v : Json) : (∃ n, ofJson v = .ok n) ↔ Accepted v := by
  cases v with
  | obj members =>
    rw [accepted_obj_iff, ← exists_attributesOf_iff members]
    simp [ofJson, Except.map_eq_ok]
  | _ =>
    constructor
    · rintro ⟨n, hn⟩
      exact nomatch hn
    · rintro ⟨⟩

/-- Attributes are read iff nested fields stand where they should, each of them accepted. -/
theorem exists_attributesOf_iff (members : List (String × Json)) :
    (∃ as, attributesOf members = .ok as) ↔ ∀ e ∈ members, e.1 = nestedName →
      ∃ fields, e.2 = .obj fields ∧ ∀ d ∈ fields, Accepted d.2 := by
  cases members with
  | nil => simp [attributesOf]
  | cons m rest =>
    obtain ⟨name, v⟩ := m
    rw [List.forall_mem_cons, ← exists_attributesOf_iff rest, ← exists_treeOf_iff v]
    by_cases hname : name = nestedName
    · simp [attributesOf, hname, Except.exists_bind_eq_ok, Except.map_eq_ok, pure, Except.pure]
    · simp [attributesOf, hname, Except.exists_bind_eq_ok, pure, Except.pure]

/-- A tree is read iff it is an object of accepted fields. -/
theorem exists_treeOf_iff (v : Json) :
    (∃ t, treeOf v = .ok t) ↔ ∃ fields, v = .obj fields ∧ ∀ d ∈ fields, Accepted d.2 := by
  cases v with
  | obj members => simpa [treeOf] using exists_fieldsOf_iff members
  | _ => simp [treeOf]

/-- Fields are read iff each of them is accepted. -/
theorem exists_fieldsOf_iff (members : List (String × Json)) :
    (∃ t, fieldsOf members = .ok t) ↔ ∀ e ∈ members, Accepted e.2 := by
  cases members with
  | nil => simp [fieldsOf]
  | cons m rest =>
    obtain ⟨name, v⟩ := m
    rw [List.forall_mem_cons, ← exists_ofJson_iff v, ← exists_fieldsOf_iff rest]
    simp [fieldsOf, Except.exists_bind_eq_ok, pure, Except.pure]

end

/-- How an attribute is read: what stands under the name of the nested fields as a tree, and
everything else as it is. -/
inductive ReadsAs : String → Json → Attribute → Prop
  | nested {v : Json} {t : Tree} (h : treeOf v = .ok t) : ReadsAs nestedName v (.nested t)
  | plain {name : String} {v : Json} (h : name ≠ nestedName) : ReadsAs name v (.plain v)

/-- Attributes are read one by one. -/
theorem attributesOf_cons_eq_ok {name : String} {v : Json} {rest : List (String × Json)}
    {as : List (String × Attribute)} (h : attributesOf ((name, v) :: rest) = .ok as) :
    ∃ a as', ReadsAs name v a ∧ attributesOf rest = .ok as' ∧ as = (name, a) :: as' := by
  by_cases hname : name = nestedName
  · subst hname
    simp only [attributesOf, if_true] at h
    obtain ⟨a, ha, h⟩ := Except.bind_eq_ok.1 h
    obtain ⟨t, ht, rfl⟩ := Except.map_eq_ok.1 ha
    obtain ⟨as', has', h⟩ := Except.bind_eq_ok.1 h
    exact ⟨_, as', .nested ht, has', (Except.ok.inj h).symm⟩
  · simp only [attributesOf, hname, if_false] at h
    obtain ⟨a, ha, h⟩ := Except.bind_eq_ok.1 h
    obtain rfl := Except.ok.inj ha
    obtain ⟨as', has', h⟩ := Except.bind_eq_ok.1 h
    exact ⟨_, as', .plain hname, has', (Except.ok.inj h).symm⟩

/-! ## Writing what was read -/

mutual

/-- What is written for a node that was read is the document that it was read from. -/
theorem toJson_of_ofJson {v : Json} {n : Node} (h : ofJson v = .ok n) : n.toJson = v := by
  cases v with
  | obj members =>
    obtain ⟨as, has, rfl⟩ := Except.map_eq_ok.1 h
    rw [toJson, attributesToJson_of_attributesOf has]
  | _ => exact nomatch h

/-- Attributes that were read are written as they stood. -/
theorem attributesToJson_of_attributesOf {members : List (String × Json)}
    {as : List (String × Attribute)} (h : attributesOf members = .ok as) :
    attributesToJson as = members := by
  cases members with
  | nil =>
    obtain rfl := Except.ok.inj h
    rfl
  | cons m rest =>
    obtain ⟨name, v⟩ := m
    obtain ⟨a, as', ha, has', rfl⟩ := attributesOf_cons_eq_ok h
    rw [attributesToJson, attributesToJson_of_attributesOf has']
    cases ha with
    | nested ht => rw [attributeToJson, obj_of_treeOf ht]
    | plain => rfl

/-- A tree that was read is written as it stood. -/
theorem obj_of_treeOf {v : Json} {t : Tree} (h : treeOf v = .ok t) :
    .obj (fieldsToJson t) = v := by
  cases v with
  | obj members => rw [fieldsToJson_of_fieldsOf h]
  | _ => exact nomatch h

/-- Fields that were read are written as they stood. -/
theorem fieldsToJson_of_fieldsOf {members : List (String × Json)} {t : Tree}
    (h : fieldsOf members = .ok t) : fieldsToJson t = members := by
  cases members with
  | nil =>
    obtain rfl := Except.ok.inj h
    rfl
  | cons m rest =>
    obtain ⟨name, v⟩ := m
    obtain ⟨n, hn, h⟩ := Except.bind_eq_ok.1 h
    obtain ⟨ns, hns, h⟩ := Except.bind_eq_ok.1 h
    obtain rfl := Except.ok.inj h
    rw [fieldsToJson, toJson_of_ofJson hn, fieldsToJson_of_fieldsOf hns]

end

/-! ## Reading what was written -/

/-- An attribute that is read back is placed, and the fields nested in it are read back. -/
theorem placed_of_attributesOf {entries : List (String × Attribute)}
    (h : attributesOf (attributesToJson entries) = .ok entries) {e : String × Attribute}
    (he : e ∈ entries) : Attribute.Placed e.1 e.2 ∧ ∀ fields, e.2 = .nested fields →
      fieldsOf (fieldsToJson fields) = .ok fields := by
  induction entries with
  | nil => exact absurd he List.not_mem_nil
  | cons d entries ih =>
    obtain ⟨name, a⟩ := d
    obtain ⟨a', as, ha, has, heq⟩ := attributesOf_cons_eq_ok h
    obtain ⟨hfirst, rfl⟩ := List.cons.inj heq
    obtain rfl : a = a' := (Prod.mk.inj hfirst).2
    rcases List.mem_cons.1 he with rfl | he
    · generalize hv : attributeToJson a = v at ha
      cases ha with
      | @nested _ t ht =>
        refine ⟨⟨fun _ => ⟨t, rfl⟩, fun _ => rfl⟩, fun fields heq => ?_⟩
        obtain rfl := Attribute.nested.inj heq
        rwa [← hv] at ht
      | plain hname => exact ⟨placed_plain hname _, fun fields heq => nomatch heq⟩
    · exact ih has he

/-- If fields are read back, each of them is. -/
theorem mem_of_fieldsOf {t : Tree} (h : fieldsOf (fieldsToJson t) = .ok t) :
    ∀ e ∈ t, ofJson e.2.toJson = .ok e.2 := by
  induction t with
  | nil => exact List.forall_mem_nil _
  | cons e t ih =>
    obtain ⟨n, hn, h⟩ := Except.bind_eq_ok.1 h
    obtain ⟨ns, hns, h⟩ := Except.bind_eq_ok.1 h
    obtain ⟨hfirst, rfl⟩ := List.cons.inj (Except.ok.inj h)
    exact List.forall_mem_cons.2 ⟨hfirst ▸ hn, ih hns⟩

/-- A node that is read back has its nested fields placed at every depth. -/
theorem every_placed_of_readBack (n : Node) (h : ofJson n.toJson = .ok n) :
    n.Every Attribute.Placed := by
  induction n using node_induction with
  | h n ih =>
    obtain ⟨entries⟩ := n
    have hentries : attributesOf (attributesToJson entries) = .ok entries := by
      obtain ⟨as, has, heq⟩ := Except.map_eq_ok.1 h
      exact Node.mk.inj heq ▸ has
    refine ⟨fun e he => (placed_of_attributesOf hentries he).1, fun name fields hmem e he => ?_⟩
    have hfields := (placed_of_attributesOf hentries hmem).2 fields rfl
    exact ih name fields hmem e he (mem_of_fieldsOf hfields e he)

end Node

/-- The documents that read as nodes are those of the grammar, and each is what is written for the
node that it reads as. The nodes that are read back from what is written for them are those whose
nested fields are placed at every depth. -/
theorem reads_what_it_writes :
    (∀ v, ((∃ n, Node.ofJson v = .ok n) ↔ Node.Accepted v) ∧
        ∀ n, Node.ofJson v = .ok n → n.toJson = v) ∧
      ∀ n : Node, Node.ofJson n.toJson = .ok n ↔ n.Every Attribute.Placed :=
  ⟨fun v => ⟨Node.exists_ofJson_iff v, fun _ => Node.toJson_of_ofJson⟩,
    fun n => ⟨n.every_placed_of_readBack, Node.ofJson_toJson⟩⟩

/-- A node with nested fields under a name that is not theirs. -/
def fieldsElsewhere : Node := Node.empty.insert "fields" (.nested [])

/-- No plain value stands under the name of the nested fields, and still the node is not read back:
its fields are read as a plain value. -/
theorem fieldsElsewhere_not_readBack :
    fieldsElsewhere.Every (fun name a => name = nestedName → ∃ fields, a = .nested fields) ∧
      Node.ofJson fieldsElsewhere.toJson = .ok (Node.empty.insertPlain "fields" (.obj [])) ∧
      Node.ofJson fieldsElsewhere.toJson ≠ .ok fieldsElsewhere := by
  refine ⟨?_, rfl, ?_⟩
  · refine Node.every_empty.insert (fun _ => ⟨[], rfl⟩) fun fields heq => ?_
    obtain rfl := Attribute.nested.inj heq
    exact fun e he => absurd he List.not_mem_nil
  · intro h
    have heq : Node.empty.insertPlain "fields" (.obj []) = fieldsElsewhere := Except.ok.inj h
    have hentries := congrArg Node.entries heq
    exact Attribute.noConfusion (Prod.mk.inj (List.cons.inj hentries).1).2

end SearchIndex.Mapping
