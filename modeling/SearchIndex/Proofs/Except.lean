import Mathlib.Data.List.Forall2

/-!
# Steps that may fail

When a chain of steps succeeds, each of its steps does: `bind_eq_ok`, `map_eq_ok` and
`mapError_eq_ok` take one step off, `mapM_eq_ok` opens a whole list.

When it fails, it fails as its first failing step does. `failure?` tells how a step fails, and the
same chains are taken apart by `failure?_bind`, `failure?_map`, `failure?_mapError` and
`failure?_mapM`.

`Yields P` says that whatever a step gives has a property, which passes along such a chain as well.
-/

namespace SearchIndex.Except

variable {ε ε' α β : Type}

/-- Two steps give a value iff the first one gives some value, on which the second one gives it. -/
theorem bind_eq_ok {x : Except ε α} {f : α → Except ε β} {b : β} :
    x >>= f = .ok b ↔ ∃ a, x = .ok a ∧ f a = .ok b := by
  cases x with
  | error e => simp [bind, Except.bind]
  | ok a => simp [bind, Except.bind]

/-- Two steps succeed iff the first one does, and the second one on its value. -/
theorem exists_bind_eq_ok {x : Except ε α} {f : α → Except ε β} :
    (∃ b, x >>= f = .ok b) ↔ ∃ a, x = .ok a ∧ ∃ b, f a = .ok b := by
  simp only [bind_eq_ok]
  exact exists_comm.trans (exists_congr fun _ => exists_and_left)

/-- A converted step gives the values of the step, converted. -/
theorem map_eq_ok {x : Except ε α} {f : α → β} {b : β} :
    x.map f = .ok b ↔ ∃ a, x = .ok a ∧ f a = b := by
  cases x <;> simp [Except.map]

/-- What becomes of an error has no effect on success. -/
theorem mapError_eq_ok {x : Except ε α} {f : ε → ε'} {a : α} :
    x.mapError f = .ok a ↔ x = .ok a := by
  cases x <;> simp [Except.mapError]

/-- Without its error, a step gives the same value. -/
theorem toOption_eq_some {x : Except ε α} {a : α} : x.toOption = some a ↔ x = .ok a := by
  cases x <;> simp [Except.toOption]

/-- A list of steps succeeds iff each step does, and gives the values of the steps in order. -/
theorem mapM_eq_ok {f : α → Except ε β} {xs : List α} {ys : List β} :
    xs.mapM f = .ok ys ↔ List.Forall₂ (fun x y => f x = .ok y) xs ys := by
  induction xs generalizing ys with
  | nil =>
    rw [List.forall₂_nil_left_iff]
    exact ⟨fun h => (Except.ok.inj h).symm, fun h => h ▸ rfl⟩
  | cons x xs ih =>
    rw [List.mapM_cons, bind_eq_ok, List.forall₂_cons_left_iff]
    constructor
    · rintro ⟨y, hy, h⟩
      obtain ⟨ys', hys', h⟩ := bind_eq_ok.1 h
      exact ⟨y, ys', hy, ih.1 hys', (Except.ok.inj h).symm⟩
    · rintro ⟨y, ys', hy, hys', rfl⟩
      exact ⟨y, hy, bind_eq_ok.2 ⟨ys', ih.2 hys', rfl⟩⟩

/-- A list of steps only depends on the steps at its elements. -/
theorem mapM_congr {f g : α → Except ε β} {xs : List α} (h : ∀ x ∈ xs, f x = g x) :
    xs.mapM f = xs.mapM g := by
  induction xs with
  | nil => rfl
  | cons x xs ih =>
    obtain ⟨hx, hxs⟩ := List.forall_mem_cons.1 h
    rw [List.mapM_cons, List.mapM_cons, hx, ih hxs]

/-- Steps that each have a value have a list of values. -/
theorem exists_values {f : α → Except ε β} {xs : List α} :
    (∃ ys, List.Forall₂ (fun x y => f x = .ok y) xs ys) ↔ ∀ x ∈ xs, ∃ y, f x = .ok y := by
  induction xs with
  | nil => simp
  | cons x xs ih =>
    rw [List.forall_mem_cons, ← ih]
    simp only [List.forall₂_cons_left_iff]
    constructor
    · rintro ⟨-, y, ys, hy, hys, -⟩
      exact ⟨⟨y, hy⟩, ys, hys⟩
    · rintro ⟨⟨y, hy⟩, ys, hys⟩
      exact ⟨y :: ys, y, ys, hy, hys, rfl⟩

/-- Each of the values of a list of steps is the value of one of the steps. -/
theorem mem_of_values {R : α → β → Prop} {xs : List α} {ys : List β} (h : List.Forall₂ R xs ys) :
    ∀ y ∈ ys, ∃ x ∈ xs, R x y := by
  induction h with
  | nil => simp
  | @cons x y xs ys hxy _ ih =>
    refine List.forall_mem_cons.2 ⟨⟨x, List.mem_cons_self, hxy⟩, fun y' hy' => ?_⟩
    obtain ⟨x', hx', hxy'⟩ := ih y' hy'
    exact ⟨x', List.mem_cons_of_mem _ hx', hxy'⟩

/-- How a step fails. -/
def failure? : Except ε α → Option ε
  | .error e => some e
  | .ok _ => none

/-- The failure of a step is the error that it ends with. -/
theorem failure?_eq_some {x : Except ε α} {e : ε} : failure? x = some e ↔ x = .error e := by
  cases x <;> simp [failure?]

/-- There is no failure iff there is a value. -/
theorem failure?_eq_none {x : Except ε α} : failure? x = none ↔ ∃ a, x = .ok a := by
  cases x <;> simp [failure?]

/-- Converting the value of a step leaves its failure. -/
theorem failure?_map (f : α → β) (x : Except ε α) : failure? (x.map f) = failure? x := by
  cases x <;> rfl

/-- Converting the error of a step converts its failure. -/
theorem failure?_mapError (f : ε → ε') (x : Except ε α) :
    failure? (x.mapError f) = (failure? x).map f := by
  cases x <;> rfl

/-- Of two steps the first failure shows. How the second one fails need only be known where the
first one succeeds. -/
theorem failure?_bind {x : Except ε α} {f : α → Except ε β} {second : Option ε}
    (h : ∀ a, x = .ok a → failure? (f a) = second) :
    failure? (x >>= f) = (failure? x).or second := by
  cases x with
  | error e => rfl
  | ok a => exact h a rfl

/-- Of a list of steps the first failure shows. -/
theorem failure?_mapM (f : α → Except ε β) (xs : List α) :
    failure? (xs.mapM f) = xs.findSome? fun x => failure? (f x) := by
  induction xs with
  | nil => rfl
  | cons x xs ih =>
    rw [List.mapM_cons, List.findSome?_cons, ← ih]
    cases f x with
    | error e => rfl
    | ok y => exact failure?_map (y :: ·) (xs.mapM f)

/-- Whatever the step gives has the property. -/
def Yields (P : α → Prop) (x : Except ε α) : Prop := ∀ a, x = .ok a → P a

/-- A step that succeeds yields a property of its value. -/
theorem yields_ok {P : α → Prop} {a : α} (h : P a) : Yields P (.ok a : Except ε α) :=
  fun _ heq => Except.ok.inj heq ▸ h

theorem yields_true (x : Except ε α) : Yields (fun _ => True) x := fun _ _ => trivial

/-- A step that fails yields every property. -/
theorem yields_error (P : α → Prop) (e : ε) : Yields P (.error e : Except ε α) :=
  fun _ heq => nomatch heq

/-- If the first step yields what the second one needs, both together yield what the second one
does. -/
theorem Yields.bind {P : α → Prop} {Q : β → Prop} {x : Except ε α} {f : α → Except ε β}
    (h : Yields P x) (hf : ∀ a, P a → Yields Q (f a)) : Yields Q (x.bind f) := by
  cases x with
  | error e => exact yields_error Q e
  | ok a => exact hf a (h a rfl)

/-- A converted step yields what the converted values have. -/
theorem yields_map {P : β → Prop} {x : Except ε α} {f : α → β}
    (h : ∀ a, x = .ok a → P (f a)) : Yields P (x.map f) := by
  cases x with
  | error e => exact yields_error P e
  | ok a => exact yields_ok (h a rfl)

/-- What is known of the elements so far and of the state holds at the end of a run if each step
keeps it. -/
theorem yields_foldlM_append {P : List α → β → Prop} {f : β → α → Except ε β}
    (h : ∀ xs b a, P xs b → Yields (P (xs ++ [a])) (f b a)) (xs : List α) {b : β} (hb : P xs b)
    (ys : List α) : Yields (P (xs ++ ys)) (ys.foldlM f b) := by
  induction ys generalizing xs b with
  | nil =>
    rw [List.append_nil]
    exact yields_ok hb
  | cons y ys ih =>
    rw [List.foldlM_cons, List.append_cons]
    exact (h xs b y hb).bind fun _ hb' => ih _ hb'

/-- A property that each step keeps holds at the end of a run. -/
theorem yields_foldlM {P : β → Prop} {f : β → α → Except ε β}
    (h : ∀ b a, P b → Yields P (f b a)) {b : β} (hb : P b) (xs : List α) :
    Yields P (xs.foldlM f b) :=
  yields_foldlM_append (fun _ => h) [] hb xs

/-- A list of steps gives values with the property if each of its steps does. -/
theorem yields_mapM {P : β → Prop} {f : α → Except ε β} {xs : List α}
    (h : ∀ x ∈ xs, Yields P (f x)) : Yields (fun ys => ∀ y ∈ ys, P y) (xs.mapM f) := by
  intro ys hys y hy
  obtain ⟨x, hx, hxy⟩ := mem_of_values (mapM_eq_ok.1 hys) y hy
  exact h x hx y hxy

end SearchIndex.Except
