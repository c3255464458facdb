import SearchIndex.Table

/-!
# Paths through nested tables

The values of a table may have tables below them. `level?` is the table that a path of names leads
to and `follow?` the value; all names but the last one have to lead further down. Mapping trees and
schema fields are both walked in this way, and `follow?_map` carries a walk from one to the other.
-/

namespace SearchIndex.Table

variable {α β : Type} (below : α → Option (Table α))

/-- The table that a path leads to, from a table to that below the value of a name. -/
def level? : Table α → List String → Option (Table α)
  | t, [] => some t
  | t, name :: path => ((get? t name).bind below).bind fun u => level? u path

/-- The value that a path leads to; the empty path leads to none. -/
def follow? : Table α → List String → Option α
  | _, [] => none
  | t, [name] => get? t name
  | t, name :: next :: path => ((get? t name).bind below).bind fun u => follow? u (next :: path)

@[simp] theorem level?_nil (t : Table α) : level? below t [] = some t := rfl

@[simp] theorem follow?_nil (t : Table α) : follow? below t [] = none := rfl

/-- A path of several names leads on from the table below the first one. -/
theorem follow?_cons (t : Table α) (name : String) {path : List String} (h : path ≠ []) :
    follow? below t (name :: path) =
      ((get? t name).bind below).bind fun u => follow? below u path := by
  cases path with
  | nil => exact absurd rfl h
  | cons next path => rfl

/-- The last name of a path is looked up at the level that the others lead to. -/
theorem follow?_concat (t : Table α) (front : List String) (name : String) :
    follow? below t (front ++ [name]) = (level? below t front).bind fun u => get? u name := by
  induction front generalizing t with
  | nil => rfl
  | cons first front ih =>
    rw [List.cons_append, follow?_cons below t first (by simp), level?,
      Option.bind_assoc ((get? t first).bind below)]
    exact congrArg _ (funext fun u => ih u)

/-- What passes from a value to those below it holds of every value that a path leads to. -/
theorem of_follow? {P : α → Prop} (hbelow : ∀ v u, P v → below v = some u → ∀ e ∈ u, P e.2)
    {t : Table α} (ht : ∀ e ∈ t, P e.2) {path : List String} {v : α}
    (h : follow? below t path = some v) : P v := by
  induction path generalizing t with
  | nil => simp at h
  | cons name path ih =>
    by_cases hp : path = []
    · subst hp
      exact ht _ (mem_of_get? h)
    · rw [follow?_cons below t name hp, Option.bind_eq_some_iff] at h
      obtain ⟨u, hu, h⟩ := h
      obtain ⟨w, hw, hwu⟩ := Option.bind_eq_some_iff.1 hu
      exact ih (hbelow w u (ht _ (mem_of_get? hw)) hwu) h

/-- If `f` turns the table below a value into the one below its image, then a walk through an image
leads to the image of what the walk leads to. -/
theorem follow?_map (below' : β → Option (Table β)) (f : α → β) {P : α → Prop}
    (hbelow : ∀ v u, P v → below v = some u → ∀ e ∈ u, P e.2)
    (hf : ∀ v, P v → below' (f v) = (below v).map fun u => u.map fun e => (e.1, f e.2))
    {t : Table α} (ht : ∀ e ∈ t, P e.2) (path : List String) :
    follow? below' (t.map fun e => (e.1, f e.2)) path = (follow? below t path).map f := by
  induction path generalizing t with
  | nil => rfl
  | cons name path ih =>
    by_cases hp : path = []
    · subst hp
      exact get?_map f t name
    · rw [follow?_cons below' _ name hp, follow?_cons below t name hp, get?_map]
      cases hv : get? t name with
      | none => rfl
      | some v =>
        have hPv : P v := ht _ (mem_of_get? hv)
        simp only [Option.map_some, Option.bind_some, hf v hPv]
        cases hu : below v with
        | none => rfl
        | some u => exact ih (hbelow v u hPv hu)

end SearchIndex.Table
