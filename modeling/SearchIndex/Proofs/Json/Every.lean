import SearchIndex.Json.Numeral

/-!
# What holds of every value in a document

`Json.Every P` says that `P` holds of a value and of all values below it, and `Json.value_induction`
goes up from the items and members of a value to the value. Two such properties matter for texts:
no name stands twice in an object (`Distinct`), and every number is an integer of a word
(`Integral`). `depth` counts how many lists and objects are nested.
-/

namespace SearchIndex.Json

mutual

/-- A property of values that passes from items and members to the value holds of all. -/
theorem value_induction {P : Json → Prop}
    (h : ∀ v, (∀ vs, v = .arr vs → ∀ w ∈ vs, P w) → (∀ ms, v = .obj ms → ∀ e ∈ ms, P e.2) → P v) :
    ∀ v, P v
  | .arr vs => h _ (fun _ heq => Json.arr.inj heq ▸ items_induction h vs) fun _ heq => nomatch heq
  | .obj ms => h _ (fun _ heq => nomatch heq) fun _ heq => Json.obj.inj heq ▸ members_induction h ms
  | .null | .bool _ | .num _ | .str _ => h _ (fun _ heq => nomatch heq) fun _ heq => nomatch heq

/-- A property that passes upwards holds of the values of a list. -/
theorem items_induction {P : Json → Prop}
    (h : ∀ v, (∀ vs, v = .arr vs → ∀ w ∈ vs, P w) → (∀ ms, v = .obj ms → ∀ e ∈ ms, P e.2) → P v) :
    ∀ vs : List Json, ∀ w ∈ vs, P w
  | [], w, hw => by simp at hw
  | v :: vs, w, hw => by
    rcases List.mem_cons.1 hw with heq | hw
    · exact heq ▸ value_induction h v
    · exact items_induction h vs w hw

/-- A property that passes upwards holds of the values of an object. -/
theorem members_induction {P : Json → Prop}
    (h : ∀ v, (∀ vs, v = .arr vs → ∀ w ∈ vs, P w) → (∀ ms, v = .obj ms → ∀ e ∈ ms, P e.2) → P v) :
    ∀ ms : List (String × Json), ∀ e ∈ ms, P e.2
  | [], e, he => by simp at he
  | (_, v) :: ms, e, he => by
    rcases List.mem_cons.1 he with heq | he
    · exact heq ▸ value_induction h v
    · exact members_induction h ms e he

end

/-- The value and each value below it has the property. -/
inductive Every (P : Json → Prop) : Json → Prop
  | intro {v : Json} (own : P v) (items : ∀ vs, v = .arr vs → ∀ w ∈ vs, Every P w)
      (members : ∀ ms, v = .obj ms → ∀ e ∈ ms, Every P e.2) : Every P v

namespace Every

variable {P Q : Json → Prop}

/-- What every part has, the value has. -/
theorem own {v : Json} (h : Every P v) : P v := by
  cases h with
  | intro own _ _ => exact own

/-- What every part of a list has, every part of each value has. -/
theorem items {vs : List Json} (h : Every P (.arr vs)) : ∀ v ∈ vs, Every P v := by
  cases h with
  | intro _ items _ => exact items vs rfl

/-- What every part of an object has, every part of each value has. -/
theorem members {ms : List (String × Json)} (h : Every P (.obj ms)) : ∀ e ∈ ms, Every P e.2 := by
  cases h with
  | intro _ _ members => exact members ms rfl

/-- Every part of a list has what the list and the parts of its values have. -/
theorem arr {vs : List Json} (hown : P (.arr vs)) (h : ∀ v ∈ vs, Every P v) : Every P (.arr vs) :=
  ⟨hown, fun _ heq => Json.arr.inj heq ▸ h, fun _ heq => nomatch heq⟩

/-- Every part of an object has what the object and the parts of its values have. -/
theorem obj {ms : List (String × Json)} (hown : P (.obj ms)) (h : ∀ e ∈ ms, Every P e.2) :
    Every P (.obj ms) :=
  ⟨hown, (fun _ heq => nomatch heq), fun _ heq => Json.obj.inj heq ▸ h⟩

/-- A value with nothing below it only has to have the property itself. -/
theorem leaf {v : Json} (hown : P v) (hitems : v.items? = none) (hmembers : v.members? = none) :
    Every P v := by
  refine ⟨hown, ?_, ?_⟩
  · rintro vs rfl
    exact absurd hitems (by simp [items?])
  · rintro ms rfl
    exact absurd hmembers (by simp [members?])

end Every

/-! ## Names that stand once -/

/-- No name stands twice in an object, at any depth. -/
def Distinct : Json → Prop := Every fun v => ∀ ms, v = .obj ms → Table.Distinct ms

/-- A value without parts has no name twice. -/
theorem distinct_leaf {v : Json} (hitems : v.items? = none) (hmembers : v.members? = none) :
    v.Distinct := by
  refine Every.leaf ?_ hitems hmembers
  rintro ms rfl
  exact absurd hmembers (by simp [members?])

@[simp] theorem distinct_null : Json.null.Distinct := distinct_leaf rfl rfl

@[simp] theorem distinct_bool (b : Bool) : (Json.bool b).Distinct := distinct_leaf rfl rfl

@[simp] theorem distinct_str (s : String) : (Json.str s).Distinct := distinct_leaf rfl rfl

@[simp] theorem distinct_num (n : Number) : (Json.num n).Distinct := distinct_leaf rfl rfl

/-- A list has no name twice iff none of its values has. -/
@[simp] theorem distinct_arr {vs : List Json} : (Json.arr vs).Distinct ↔ ∀ v ∈ vs, v.Distinct :=
  ⟨Every.items, fun h => Every.arr (fun _ heq => nomatch heq) h⟩

/-- An object has no name twice iff its own names are distinct and none of its values has one twice.
-/
@[simp] theorem distinct_obj {ms : List (String × Json)} :
    (Json.obj ms).Distinct ↔ Table.Distinct ms ∧ ∀ e ∈ ms, e.2.Distinct := by
  constructor
  · intro h
    exact ⟨h.own ms rfl, h.members⟩
  · rintro ⟨hnames, hvalues⟩
    exact Every.obj (fun _ heq => Json.obj.inj heq ▸ hnames) hvalues

theorem distinct_nil : (Json.obj []).Distinct :=
  distinct_obj.2 ⟨List.nodup_nil, List.forall_mem_nil _⟩

/-- Writing a distinct value into a distinct object keeps it distinct. -/
theorem distinct_insert {entries : List (String × Json)} (h : (Json.obj entries).Distinct)
    (key : String) {v : Json} (hv : v.Distinct) :
    (Json.obj (Table.insert entries key v)).Distinct := by
  obtain ⟨hnames, hvalues⟩ := distinct_obj.1 h
  refine distinct_obj.2 ⟨hnames.insert key v, fun e he => ?_⟩
  rcases Table.mem_insert he with rfl | he
  · exact hv
  · exact hvalues e he

/-- An object that is written from a table has the names of the table. -/
theorem distinct_obj_map {α : Type} {f : α → Json} {t : Table α} :
    (Json.obj (t.map fun e => (e.1, f e.2))).Distinct ↔ t.Distinct ∧ ∀ e ∈ t, (f e.2).Distinct := by
  have hnames : Table.names (t.map fun e => (e.1, f e.2)) = Table.names t := List.map_map
  rw [distinct_obj, Table.Distinct, hnames, List.forall_mem_map]
  exact Iff.rfl

/-! ## Numbers that are integers -/

/-- The number is an integer of 64 bits, with or without a sign. -/
def Number.IsWord : Number → Prop
  | .integer n => -(Numeral.greatestNegated : Int) ≤ n ∧ n ≤ Numeral.greatestWord
  | .double _ => False

/-- Every number of the document is an integer of a word. -/
def Integral : Json → Prop := Every fun v => ∀ n, v = .num n → n.IsWord

@[simp] theorem integral_null : Json.null.Integral := Every.leaf (fun _ heq => nomatch heq) rfl rfl

@[simp] theorem integral_bool (b : Bool) : (Json.bool b).Integral :=
  Every.leaf (fun _ heq => nomatch heq) rfl rfl

@[simp] theorem integral_str (s : String) : (Json.str s).Integral :=
  Every.leaf (fun _ heq => nomatch heq) rfl rfl

/-- The only condition on a document of integers is on its numbers. -/
@[simp] theorem integral_num {n : Number} : (Json.num n).Integral ↔ n.IsWord :=
  ⟨fun h => h.own n rfl, fun h => Every.leaf (fun _ heq => Json.num.inj heq ▸ h) rfl rfl⟩

@[simp] theorem integral_arr {vs : List Json} : (Json.arr vs).Integral ↔ ∀ v ∈ vs, v.Integral :=
  ⟨Every.items, fun h => Every.arr (fun _ heq => nomatch heq) h⟩

@[simp] theorem integral_obj {ms : List (String × Json)} :
    (Json.obj ms).Integral ↔ ∀ e ∈ ms, e.2.Integral :=
  ⟨Every.members, fun h => Every.obj (fun _ heq => nomatch heq) h⟩

/-! ## Nesting -/

mutual

/-- How many lists and objects are nested in a value. -/
def depth : Json → Nat
  | .arr vs => itemsDepth vs + 1
  | .obj ms => membersDepth ms + 1
  | _ => 0

/-- The greatest depth of an item. -/
def itemsDepth : List Json → Nat
  | [] => 0
  | v :: vs => max (depth v) (itemsDepth vs)

/-- The greatest depth of the value of a member. -/
def membersDepth : List (String × Json) → Nat
  | [] => 0
  | (_, v) :: ms => max (depth v) (membersDepth ms)

end

/-- Nothing is nested in a value that is neither list nor object. -/
theorem depth_of_scalar {v : Json} (hitems : v.items? = none) (hmembers : v.members? = none) :
    v.depth = 0 := by
  cases v with
  | arr vs => exact nomatch hitems
  | obj ms => exact nomatch hmembers
  | _ => rfl

/-- A list is as deep as its deepest value. -/
theorem itemsDepth_le_iff {vs : List Json} {n : Nat} :
    itemsDepth vs ≤ n ↔ ∀ v ∈ vs, v.depth ≤ n := by
  induction vs with
  | nil => simp [itemsDepth]
  | cons v vs ih => rw [itemsDepth, Nat.max_le, ih, List.forall_mem_cons]

/-- An object is as deep as its deepest value. -/
theorem membersDepth_le_iff {ms : List (String × Json)} {n : Nat} :
    membersDepth ms ≤ n ↔ ∀ m ∈ ms, m.2.depth ≤ n := by
  induction ms with
  | nil => simp [membersDepth]
  | cons m ms ih => rw [membersDepth, Nat.max_le, ih, List.forall_mem_cons]

end SearchIndex.Json
