import SearchIndex.Json.Reader
import SearchIndex.Proofs.Except
import SearchIndex.Proofs.Json.Every

/-!
# Read documents have no name twice

Whatever shape a document is read against, its objects are written name by name, and a name that
comes again replaces its value. `Machine.IsDistinct` says so of everything the reader holds; a step
keeps it (`yields_step`), hence every document that is read has distinct names
(`distinct_of_readAs`).
-/

namespace SearchIndex.Json

open SearchIndex.Except (Yields yields_ok yields_error yields_map)

/-- What an open list or object holds has distinct names. -/
def Frame.IsDistinct : Frame → Prop
  | .list _ items | .positions _ items => ∀ v ∈ items, v.Distinct
  | .object _ _ entries _ => (Json.obj entries).Distinct

/-- The value that is about to be put into its place has distinct names. -/
def Phase.IsDistinct : Phase → Prop
  | .word _ v _ | .done v => v.Distinct
  | _ => True

namespace Machine

/-- Everything that has been read has distinct names. -/
structure IsDistinct (m : Machine) : Prop where
  frames : ∀ f ∈ m.frames, f.IsDistinct
  phase : m.phase.IsDistinct

/-- A value with distinct names may be put into its place: in an object, a name that comes again
replaces its value. -/
theorem isDistinct_deliver {v : Json} (hv : v.Distinct) {fs : List Frame}
    (hfs : ∀ f ∈ fs, f.IsDistinct) : (deliver v fs).IsDistinct := by
  cases fs with
  | nil => exact ⟨hfs, hv⟩
  | cons f fs =>
    obtain ⟨hf, htail⟩ := List.forall_mem_cons.1 hfs
    cases f with
    | list element items =>
      exact ⟨List.forall_mem_cons.2 ⟨List.forall_mem_cons.2 ⟨hv, hf⟩, htail⟩, trivial⟩
    | positions pending items =>
      refine ⟨List.forall_mem_cons.2 ⟨List.forall_mem_cons.2 ⟨hv, hf⟩, htail⟩, ?_⟩
      unfold deliver
      dsimp only
      split <;> trivial
    | object members loose entries key =>
      refine ⟨List.forall_mem_cons.2 ⟨?_, htail⟩, trivial⟩
      unfold Frame.IsDistinct
      dsimp only
      split
      · exact hf
      · exact distinct_insert hf key hv

theorem isDistinct_list (element : Shape) : (Frame.list element []).IsDistinct :=
  List.forall_mem_nil _

theorem isDistinct_positions (pending : List Shape) : (Frame.positions pending []).IsDistinct :=
  List.forall_mem_nil _

theorem isDistinct_object (members : Members) (loose : Bool) :
    (Frame.object members loose [] "").IsDistinct :=
  distinct_nil

section Frames

variable {fs : List Frame} (hfs : ∀ f ∈ fs, f.IsDistinct)
include hfs

/-- Closing a list or an object delivers what has been read of it. -/
theorem yields_close : Yields IsDistinct (close fs) := by
  cases fs with
  | nil => exact yields_error _ _
  | cons f fs =>
    obtain ⟨hf, htail⟩ := List.forall_mem_cons.1 hfs
    cases f with
    | list element items =>
      refine yields_ok (isDistinct_deliver (distinct_arr.2 fun v hv => ?_) htail)
      exact hf v (List.mem_reverse.1 hv)
    | positions pending items =>
      refine yields_ok (isDistinct_deliver (distinct_arr.2 fun v hv => ?_) htail)
      exact hf v (List.mem_reverse.1 hv)
    | object members loose entries key =>
      unfold close
      dsimp only
      split
      · exact yields_error _ _
      · exact yields_ok (isDistinct_deliver hf htail)

/-- A finished value is either delivered or refused. -/
theorem yields_settle (shape : Shape) {v : Json} (hv : v.Distinct) :
    Yields IsDistinct (settle fs shape v) := by
  unfold settle
  split
  · exact yields_ok (isDistinct_deliver hv hfs)
  · exact yields_error _ _

/-- Opening a list or an object adds a frame in which there is nothing yet. -/
theorem yields_push {f : Frame} (hf : f.IsDistinct) {phase : Phase} (hphase : phase.IsDistinct) :
    Yields IsDistinct (push fs f phase) := by
  unfold push
  split
  · exact yields_ok ⟨List.forall_mem_cons.2 ⟨hf, hfs⟩, hphase⟩
  · exact yields_error _ _

/-- For every shape, an opened list has distinct names. -/
theorem yields_openList : ∀ shape : Shape, Yields IsDistinct (openList fs shape)
  | .any => yields_push hfs (isDistinct_list .any) trivial
  | .list element => yields_push hfs (isDistinct_list element) trivial
  | .skipped => yields_ok ⟨List.forall_mem_cons.2 ⟨isDistinct_list .skipped, hfs⟩, trivial⟩
  | .nullable inner => yields_openList inner
  | .object (.record title fields extensible) => by
    unfold openList
    split
    · exact yields_push hfs (isDistinct_positions _) trivial
    · exact yields_error _ _
  | .object (.table _) | .object (.audited _) | .string | .boolean | .whole => yields_error _ _

/-- For every shape, an opened object has distinct names. -/
theorem yields_openObject : ∀ shape : Shape, Yields IsDistinct (openObject fs shape)
  | .any => yields_push hfs (isDistinct_object (.table .any) false) trivial
  | .object members => yields_push hfs (isDistinct_object members false) trivial
  | .skipped =>
    yields_ok ⟨List.forall_mem_cons.2 ⟨isDistinct_object (.table .skipped) true, hfs⟩, trivial⟩
  | .nullable inner => yields_openObject inner
  | .list _ | .string | .boolean | .whole => yields_error _ _

/-- The first character of a value opens something or starts a scalar. -/
theorem yields_begin (shape : Shape) (c : Char) : Yields IsDistinct (begin fs shape c) := by
  unfold begin
  split
  · exact yields_ok ⟨hfs, trivial⟩
  split
  · exact yields_openList hfs shape
  split
  · exact yields_openObject hfs shape
  iterate 3
    split
    · exact yields_ok ⟨hfs, distinct_leaf rfl rfl⟩
  split
  · exact yields_ok ⟨hfs, trivial⟩
  split
  · exact yields_ok ⟨hfs, trivial⟩
  · exact yields_error _ _

/-- A finished number is delivered or refused. -/
theorem yields_endNumeral (n : Numeral) (shape : Shape) :
    Yields IsDistinct (endNumeral fs n shape) := by
  unfold endNumeral
  split
  · exact yields_ok (isDistinct_deliver distinct_null hfs)
  split
  · exact yields_settle hfs shape (distinct_leaf rfl rfl)
  · exact yields_error _ _

/-- A finished name becomes the key of the innermost object. -/
theorem yields_endKey (key : String) : Yields IsDistinct (endKey key fs) := by
  unfold endKey
  split
  · next members loose entries _ fs =>
    split
    · exact yields_error _ _
    · obtain ⟨hf, htail⟩ := List.forall_mem_cons.1 hfs
      exact yields_ok ⟨List.forall_mem_cons.2 ⟨hf, htail⟩, trivial⟩
  · exact yields_error _ _

/-- Between two values, a list or an object goes on or is closed. -/
theorem yields_continueOpen (root : Shape) (c : Char) :
    Yields IsDistinct (continueOpen root c fs) := by
  cases fs with
  | nil => exact yields_error _ _
  | cons f fs =>
    cases f
    all_goals
      unfold continueOpen
      dsimp only
      split
      · exact yields_ok ⟨hfs, trivial⟩
      split
      · exact yields_close hfs
      · exact yields_error _ _

/-- Whatever is being read, one more character keeps the names distinct. -/
theorem yields_act (root : Shape) {phase : Phase} (hphase : phase.IsDistinct) (c : Char) :
    Yields IsDistinct (act root ⟨fs, phase⟩ c) := by
  have hsame : IsDistinct ⟨fs, phase⟩ := ⟨hfs, hphase⟩
  cases phase <;> unfold act <;> dsimp only
  case value slot shape =>
    -- where blanks may stand, the first branch takes one and leaves the state
    split
    · exact yields_ok hsame
    split
    · exact yields_close hfs
    split
    · exact yields_error _ _
    · exact yields_begin hfs shape c
  case key first =>
    split
    · exact yields_ok hsame
    split
    · exact yields_ok ⟨hfs, trivial⟩
    split
    · exact yields_close hfs
    split <;> exact yields_error _ _
  case colon =>
    split
    · exact yields_ok hsame
    split
    · exact yields_ok ⟨hfs, trivial⟩
    · exact yields_error _ _
  case between =>
    split
    · exact yields_ok hsame
    · exact yields_continueOpen hfs root c
  case word rest v shape =>
    -- nothing to end the word, its last character, or one in between
    split
    · exact yields_error _ _
    · split
      · exact yields_settle hfs shape hphase
      · exact yields_error _ _
    · split
      · exact yields_ok ⟨hfs, hphase⟩
      · exact yields_error _ _
  case numeral stage n shape => exact yields_error _ _
  case text place t =>
    cases place <;> dsimp only <;> split
    · exact yields_endKey hfs t.text
    · exact yields_map fun _ _ => ⟨hfs, trivial⟩
    · exact yields_settle hfs _ (distinct_str _)
    · exact yields_map fun _ _ => ⟨hfs, trivial⟩
  case lastField =>
    split
    · exact yields_ok hsame
    split
    · exact yields_close hfs
    split
    · exact yields_ok ⟨hfs, trivial⟩
    · exact yields_error _ _
  case lastComma =>
    split
    · exact yields_ok hsame
    split <;> exact yields_error _ _
  case done v =>
    split
    · exact yields_ok hsame
    · exact yields_error _ _

end Frames

/-- A step keeps names distinct. -/
theorem yields_step (root : Shape) {m : Machine} (h : m.IsDistinct) (c : Char) :
    Yields IsDistinct (step root m c) := by
  obtain ⟨hfs, hphase⟩ := h
  unfold step
  split
  · split
    · exact yields_ok ⟨hfs, trivial⟩
    · exact (yields_endNumeral hfs _ _).bind fun m hm => yields_act hm.frames root hm.phase c
    · exact yields_error _ _
  · exact yields_act hfs root hphase c

/-- At the end, the value that has been read is the result. -/
theorem yields_conclude {m : Machine} (h : m.IsDistinct) : Yields Json.Distinct m.conclude := by
  obtain ⟨frames, phase⟩ := m
  cases phase with
  | done v => exact yields_ok h.phase
  | value slot shape => cases slot <;> exact yields_error _ _
  | between =>
    unfold conclude
    dsimp only
    split <;> exact yields_error _ _
  | _ => exact yields_error _ _

/-- A number may end with the text, which delivers it first. -/
theorem yields_finish {m : Machine} (h : m.IsDistinct) : Yields Json.Distinct (finish m) := by
  unfold finish
  split
  · split
    · exact (yields_endNumeral h.frames _ _).bind fun m hm => yields_conclude hm
    · exact yields_error _ _
  · exact yields_conclude h

end Machine

/-- A document that is read, against whatever shape, has no name twice. -/
theorem distinct_of_readAs {shape : Shape} {text : String} {v : Json}
    (h : readAs shape text = .ok v) : v.Distinct := by
  have hstart : (Machine.start shape).IsDistinct := ⟨List.forall_mem_nil _, trivial⟩
  have hrun := Except.yields_foldlM (fun m c hm => Machine.yields_step shape hm c) hstart
    text.toList
  exact (hrun.bind fun m hm => Machine.yields_finish hm) v h

end SearchIndex.Json
