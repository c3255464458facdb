import SearchIndex.Proofs.Mapping.Alias
import SearchIndex.Proofs.Schema.Ways

/-!
# Names and paths of targets

The same field is behind the name and behind the path that a key identifier is resolved to: `Target`
has all that is said of it, `Missing` what holds if there is none. A path ends with the name, with
one exception. The `_source` around the fields of an entity adds nothing to a path, so there is
nothing left of a path to itself; an alias to it has the empty path
(`wrapper_target_has_no_segment`).
-/

namespace SearchIndex.Mapping

open Schema

/-- No field carries the key identifier. -/
structure Missing (s : Scopes) (id : String) : Prop where
  nowhere : ∀ v ∈ s.documents, ∀ l w, Placed [] v l w → w.get? "GUID" ≠ some (.str id)
  /-- There is no name. -/
  name : s.names [id] = []
  /-- There is no path. -/
  path : s.path? id = none
  /-- Aliases to it get none. -/
  aliases : ∀ f a, f.IsRead → MapsAsAlias f a → aliasTarget? a.path = some id →
    Node.get? (compile s.resolver f) "path" = none

/-- A field that a key identifier is resolved to, with its place. -/
structure Target (s : Scopes) (id : String) (l : Location) (w : Json) : Prop where
  carries : w.get? "GUID" = some (.str id)
  placed : ∃ v ∈ s.documents, Placed [] v l w
  /-- The name is that of the place. -/
  name : s.names [id] = [l.name]
  /-- The path is that of the place. -/
  path : s.path? id = some (".".intercalate l.path)
  /-- The path ends with the name; there is nothing of it only for a wrapper. -/
  ends : l.path.getLast? = some l.name ∨
    l.path = [] ∧ l.name = sourceName ∧ ∃ v ∈ s.documents, IsWrapper v w
  /-- Aliases to the field get this path. -/
  aliases : ∀ f a, f.IsRead → MapsAsAlias f a → aliasTarget? a.path = some id →
    Node.get? (compile s.resolver f) "path" = some (.plain (.str (".".intercalate l.path)))

/-- An alias has the path that its target is resolved to. -/
theorem get?_path_of_target (s : Scopes) {f a : Field} (hf : f.IsRead) (ha : MapsAsAlias f a)
    {id : String} (hid : aliasTarget? a.path = some id) :
    Node.get? (compile s.resolver f) "path" =
      (s.path? id).map fun path => .plain (.str path) := by
  rw [get?_path_of_mapsAsAlias s.resolver hf ha, hid]
  rfl

/-- If no place is found, a key identifier is missing. -/
theorem missing_of_locate? {s : Scopes} {id : String} (h : s.locate? id = none) :
    Missing s id := by
  have hpath : s.path? id = none := by rw [Scopes.path?, h, Option.map_none]
  refine ⟨Scopes.locate?_eq_none_iff.1 h, by simp [Scopes.names, h], hpath, ?_⟩
  intro f a hf ha hid
  rw [get?_path_of_target s hf ha hid, hpath, Option.map_none]

/-- Where a place is found, there is a target of a key identifier. -/
theorem target_of_locate? {s : Scopes} {id : String} {l : Location} (h : s.locate? id = some l) :
    ∃ w, Target s id l w := by
  obtain ⟨w, hid, v, hv, hplaced⟩ := Scopes.placed_of_locate? h
  have hpath : s.path? id = some (".".intercalate l.path) := by
    rw [Scopes.path?, h, Option.map_some]
  refine ⟨w, hid, ⟨v, hv, hplaced⟩, by simp [Scopes.names, h], hpath, ?_, ?_⟩
  · refine hplaced.ends.imp_right ?_
    rintro ⟨hempty, hname, hwrapper⟩
    exact ⟨hempty, hname, v, hv, hwrapper⟩
  · intro f a hf ha htarget
    rw [get?_path_of_target s hf ha htarget, hpath, Option.map_some]

/-- A key identifier is resolved to the name and to the path of one and the same field, or to
neither. -/
theorem names_agree_with_paths (s : Scopes) (id : String) :
    Missing s id ∨ ∃ l w, Target s id l w := by
  cases h : s.locate? id with
  | none => exact .inl (missing_of_locate? h)
  | some l => exact .inr ⟨l, target_of_locate? h⟩

/-- A wrapper that carries a key identifier is found by name, but no segment is left of its path. -/
theorem wrapper_target_has_no_segment :
    let wrapper : Json := .obj [("GUID", .str "g")]
    let s : Scopes := ⟨.obj [("properties", .obj [("_source", wrapper)])], .null, .null, .null⟩
    let f : Field := { Field.ofTag .alias with path := some [⟨some "g"⟩] }
    s.names ["g"] = ["_source"] ∧ s.locate? "g" = some ⟨"_source", []⟩ ∧ s.path? "g" = some "" ∧
      (compile s.resolver f : Node) =
        ⟨[("type", .plain (.str "alias")), ("path", .plain (.str ""))]⟩ ∧
      ¬ ∀ (s : Scopes) id l, s.locate? id = some l → l.path.getLast? = some l.name := by
  intro wrapper s f
  refine ⟨rfl, rfl, rfl, rfl, fun h => ?_⟩
  exact nomatch h s "g" ⟨"_source", []⟩ rfl

end SearchIndex.Mapping
