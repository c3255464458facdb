import SearchIndex.Proofs.Except
import SearchIndex.Proofs.Json.Fitting

/-!
# Texts that are read spell a value

`Explains p m` says what the text `p` has been so far if it has led the reader to the state `m`: the
lists and objects that are still open, with their items and members as they stand in the text, and
the part that has been begun. A step keeps this (`explains_step`), so a text that is read to its end
holds a value that fits the shape, and what is read is this value with each name once.

Together with the other direction this is `readAs_iff`: a text is read iff it holds a value that
fits.
-/

namespace SearchIndex.Json

open SearchIndex.Except (Yields yields_ok yields_error yields_map)

/-- The value fits the shape and may stand inside so many lists and objects. -/
structure Sits (root : Shape) (level : Nat) (shape : Shape) (v : Json) : Prop where
  fits : Fits root shape v
  depth_le : level + v.depth ≤ maxDepth

/-- The members sit in an object that is open. -/
structure MembersSit (root : Shape) (level : Nat) (members : Members) (ms : List (String × Json)) :
    Prop where
  once : ((Table.names ms).filter members.declares).Nodup
  sits : ∀ m ∈ ms, Sits root level ((members.entry m.1).resolve root) m.2

theorem membersSit_nil (root : Shape) (level : Nat) (members : Members) :
    MembersSit root level members [] :=
  ⟨List.nodup_nil, List.forall_mem_nil _⟩

/-- One more member, of a key that may stand behind the others. -/
theorem MembersSit.concat {root : Shape} {level : Nat} {members : Members}
    {ms : List (String × Json)} (h : MembersSit root level members ms) {name : String}
    (hnew : members.declares name → name ∉ Table.names ms) {v : Json}
    (hv : Sits root level ((members.entry name).resolve root) v) :
    MembersSit root level members (ms ++ [(name, v)]) where
  once := by
    rw [Table.names_concat, List.filter_append, List.nodup_append]
    refine ⟨h.once, .sublist List.filter_sublist (List.pairwise_singleton _ name), ?_⟩
    intro other hother name' hname' heq
    obtain ⟨hmem, hdeclares⟩ := List.mem_filter.1 hname'
    obtain rfl := List.mem_singleton.1 hmem
    exact hnew hdeclares (heq ▸ (List.mem_filter.1 hother).1)
  sits := List.forall_mem_append.2 ⟨h.sits, List.forall_mem_singleton.2 hv⟩

namespace Machine

/-! ## What a text has been so far -/

mutual

/-- Behind the text, inside the open lists and objects, a value of the shape may stand. -/
inductive Awaits (root : Shape) : List Char → List Frame → Shape → Prop
  | document {b : List Char} (hb : AreBlank b) : Awaits root b [] root
  | item {p front b : List Char} {fs : List Frame} {element : Shape} {vs : List Json}
      (hlist : InList root p fs element) (hfront : Leads Spells vs front)
      (hvs : ∀ v ∈ vs, Sits root (fs.length + 1) element v) (hb : AreBlank b) :
      Awaits root (p ++ (front ++ b)) (.list element (collapseItems vs).reverse :: fs) element
  | value {p key b b' : List Char} {fs : List Frame} {members : Members}
      {ms : List (String × Json)} {name : String} (hplace : AwaitsKey root p fs members ms)
      (hkey : Literal.Stands key name) (hnew : members.declares name → name ∉ Table.names ms)
      (hb : AreBlank b) (hb' : AreBlank b') :
      Awaits root (p ++ '"' :: (key ++ '"' :: (b ++ ':' :: b')))
        (.object members false (Table.ofList (collapseMembers ms)) name :: fs)
        ((members.entry name).resolve root)

/-- The text ends with the bracket that opens a list inside of others. -/
inductive InList (root : Shape) : List Char → List Frame → Shape → Prop
  | intro {p : List Char} {fs : List Frame} {shape element : Shape} (h : Awaits root p fs shape)
      (helement : shape.element? = some element) (hroom : fs.length < maxDepth) :
      InList root (p ++ ['[']) fs element

/-- The text ends with the bracket that opens an object inside of others. -/
inductive InObject (root : Shape) : List Char → List Frame → Members → Prop
  | intro {p : List Char} {fs : List Frame} {shape : Shape} {members : Members}
      (h : Awaits root p fs shape) (hmembers : shape.members? = some members)
      (hroom : fs.length < maxDepth) : InObject root (p ++ ['\x7b']) fs members

/-- Behind the text, inside an object with the members, a key may stand. -/
inductive AwaitsKey (root : Shape) :
    List Char → List Frame → Members → List (String × Json) → Prop
  | intro {p front b : List Char} {fs : List Frame} {members : Members} {ms : List (String × Json)}
      (hobject : InObject root p fs members) (hfront : Leads (Named Spells) ms front)
      (hms : MembersSit root (fs.length + 1) members ms) (hb : AreBlank b) :
      AwaitsKey root (p ++ (front ++ b)) fs members ms

end

/-- The text has led to the state. -/
inductive Explains (root : Shape) : List Char → Machine → Prop
  | value {p : List Char} {frames : List Frame} {slot : Slot} {shape : Shape}
      (h : Awaits root p frames shape)
      (hfirst : slot = .first → ∃ element fs, frames = .list element [] :: fs) :
      Explains root p ⟨frames, .value slot shape⟩
  | word {p front rest : List Char} {frames : List Frame} {shape : Shape} {v : Json}
      (h : Awaits root p frames shape) (hword : Spells v (front ++ rest))
      (hitems : v.items? = none) (hmembers : v.members? = none) :
      Explains root (p ++ front) ⟨frames, .word rest v shape⟩
  | numeral {p cs : List Char} {frames : List Frame} {shape : Shape} {negative : Bool}
      {stage : Numeral.Stage} {n : Numeral} (h : Awaits root p frames shape)
      (htakes : Numeral.Takes .sign ⟨negative, [], [], none⟩ cs stage n) :
      Explains root (p ++ Numeral.signed negative cs) ⟨frames, .numeral stage n shape⟩
  | text {p cs : List Char} {frames : List Frame} {shape : Shape} {t : Literal}
      (h : Awaits root p frames shape) (htakes : Literal.Takes .empty cs t) :
      Explains root (p ++ '"' :: cs) ⟨frames, .text (some shape) t⟩
  | key {p : List Char} {fs : List Frame} {members : Members} {ms : List (String × Json)}
      {key : String} {first : Bool} (hplace : AwaitsKey root p fs members ms)
      (hfirst : first → ms = []) :
      Explains root p
        ⟨.object members false (Table.ofList (collapseMembers ms)) key :: fs, .key first⟩
  | name {p cs : List Char} {fs : List Frame} {members : Members} {ms : List (String × Json)}
      {key : String} {t : Literal} (hplace : AwaitsKey root p fs members ms)
      (htakes : Literal.Takes .empty cs t) :
      Explains root (p ++ '"' :: cs)
        ⟨.object members false (Table.ofList (collapseMembers ms)) key :: fs, .text none t⟩
  | colon {p key b : List Char} {fs : List Frame} {members : Members} {ms : List (String × Json)}
      {name : String} (hplace : AwaitsKey root p fs members ms) (hkey : Literal.Stands key name)
      (hnew : members.declares name → name ∉ Table.names ms) (hb : AreBlank b) :
      Explains root (p ++ '"' :: (key ++ '"' :: b))
        ⟨.object members false (Table.ofList (collapseMembers ms)) name :: fs, .colon⟩
  | items {p cs : List Char} {fs : List Frame} {element : Shape} {vs : List Json}
      (hlist : InList root p fs element) (hsep : Separated Spells vs cs)
      (hvs : ∀ v ∈ vs, Sits root (fs.length + 1) element v) :
      Explains root (p ++ cs) ⟨.list element (collapseItems vs).reverse :: fs, .between⟩
  | members {p cs : List Char} {fs : List Frame} {members : Members} {ms : List (String × Json)}
      {key : String} (hobject : InObject root p fs members) (hsep : Separated (Named Spells) ms cs)
      (hms : MembersSit root (fs.length + 1) members ms) :
      Explains root (p ++ cs)
        ⟨.object members false (Table.ofList (collapseMembers ms)) key :: fs, .between⟩
  | done {b cs b' : List Char} {v : Json} (hb : AreBlank b) (hspells : Spells v cs)
      (hsits : Sits root 0 root v) (hb' : AreBlank b') :
      Explains root (b ++ (cs ++ b')) ⟨[], .done v.collapse⟩

variable {root : Shape}

/-- In the beginning nothing has been read. -/
theorem explains_start (root : Shape) : Explains root [] (start root) :=
  .value (.document areBlank_nil) fun h => nomatch h

/-- A blank in front of a value leaves its place. -/
theorem Awaits.blank {p : List Char} {frames : List Frame} {shape : Shape}
    (h : Awaits root p frames shape) {c : Char} (hc : isBlank c) :
    Awaits root (p ++ [c]) frames shape := by
  cases h with
  | document hb => exact .document (hb.append (areBlank_singleton hc))
  | item hlist hfront hvs hb =>
    rw [List.append_assoc, List.append_assoc]
    exact .item hlist hfront hvs (hb.append (areBlank_singleton hc))
  | value hplace hkey hnew hb hb' =>
    simp only [List.append_assoc, List.cons_append]
    exact .value hplace hkey hnew hb (hb'.append (areBlank_singleton hc))

/-- A blank in front of a key leaves its place. -/
theorem AwaitsKey.blank {p : List Char} {fs : List Frame} {members : Members}
    {ms : List (String × Json)} (h : AwaitsKey root p fs members ms) {c : Char} (hc : isBlank c) :
    AwaitsKey root (p ++ [c]) fs members ms := by
  obtain ⟨hobject, hfront, hms, hb⟩ := h
  rw [List.append_assoc, List.append_assoc]
  exact .intro hobject hfront hms (hb.append (areBlank_singleton hc))

mutual

/-- Wherever a value may stand, everything in it is kept. -/
theorem Awaits.keeps (hroot : root.Keeps) : ∀ {p : List Char} {frames : List Frame} {shape : Shape},
    Awaits root p frames shape → shape.Keeps
  | _, _, _, .document _ => hroot
  | _, _, _, .item hlist _ _ _ => (InList.keeps hroot hlist).1
  | _, _, _, .value (.intro hobject _ _ _) _ _ _ _ => (InObject.keeps hroot hobject _).resolve hroot

/-- Everything in the elements of an open list is kept. -/
theorem InList.keeps (hroot : root.Keeps) : ∀ {p : List Char} {fs : List Frame} {element : Shape},
    InList root p fs element → element.Keeps ∧ ∀ root, element.resolve root = element
  | _, _, _, .intro h helement _ => (Awaits.keeps hroot h).element helement

/-- Everything in the members of an open object is kept. -/
theorem InObject.keeps (hroot : root.Keeps) :
    ∀ {p : List Char} {fs : List Frame} {members : Members},
      InObject root p fs members → ∀ key, (members.entry key).Keeps
  | _, _, _, .intro h hmembers _ => (Awaits.keeps hroot h).entry hmembers

end

/-! ## Complete values -/

/-- A value that stands where one may stand has been put into its place. -/
theorem explains_deliver (hroot : root.Keeps) {p : List Char} {frames : List Frame} {shape : Shape}
    (h : Awaits root p frames shape) {v : Json} {cs : List Char} (hspells : Spells v cs)
    (hsits : Sits root frames.length shape v) :
    Explains root (p ++ cs) (deliver v.collapse frames) := by
  rw [← List.append_nil cs]
  cases h with
  | document hb => exact .done hb hspells hsits areBlank_nil
  | @item _ _ _ fs _ vs hlist hfront hvs hb =>
    have hitems :
        v.collapse :: (collapseItems vs).reverse = (collapseItems (vs ++ [v])).reverse := by
      simp [collapseItems_eq]
    have hvs' : ∀ w ∈ vs ++ [v], Sits root (fs.length + 1) shape w :=
      List.forall_mem_append.2 ⟨hvs, List.forall_mem_singleton.2 hsits⟩
    rw [deliver, hitems, List.append_assoc, List.append_assoc]
    exact .items hlist (hfront.separated hb hspells areBlank_nil) hvs'
  | @value _ key c c' fs members ms name hplace hkey hnew hc hc' =>
    obtain ⟨hobject, hfront, hms, hb⟩ := hplace
    -- the value ends a member, of a name that has been read before
    have hkept := (hobject.keeps hroot name).isSkipped_eq
    have hmember : Named Spells (name, v) ('"' :: (key ++ '"' :: (c ++ ':' :: (c' ++ cs)))) :=
      .intro hkey hc hc' hspells
    have hmembers : Explains root _ ⟨.object members false
        (Table.ofList (collapseMembers (ms ++ [(name, v)]))) name :: fs, .between⟩ :=
      .members hobject (hfront.separated hb hmember areBlank_nil) (hms.concat hnew hsits)
    rw [ofList_collapseMembers_concat] at hmembers
    simpa [deliver, hkept] using hmembers

/-- A list that has been closed is put into its place. -/
theorem explains_closed_list (hroot : root.Keeps) {p : List Char} {fs : List Frame}
    {element : Shape} (hlist : InList root p fs element) {vs : List Json} {cs : List Char}
    (hspells : Spells (.arr vs) ('[' :: cs)) (hvs : ∀ v ∈ vs, Sits root (fs.length + 1) element v) :
    Explains root (p ++ cs) (deliver (.arr (collapseItems vs)) fs) := by
  cases hlist with
  | @intro p _ shape _ h helement hroom =>
  have hitems : itemsDepth vs ≤ maxDepth - (fs.length + 1) := by
    refine itemsDepth_le_iff.2 fun v hv => ?_
    have hdepth := (hvs v hv).depth_le
    omega
  have hsits : Sits root fs.length shape (.arr vs) := by
    refine ⟨.arr helement fun v hv => (hvs v hv).fits, ?_⟩
    rw [Json.depth]
    omega
  rw [List.append_assoc, List.singleton_append]
  exact explains_deliver hroot h hspells hsits

/-- An object that has been closed is put into its place, unless it lacks something. -/
theorem explains_closed_object (hroot : root.Keeps) {p : List Char} {fs : List Frame}
    {members : Members} (hobject : InObject root p fs members) {ms : List (String × Json)}
    {cs : List Char} (hspells : Spells (.obj ms) ('\x7b' :: cs))
    (hms : MembersSit root (fs.length + 1) members ms) (key : String) :
    Yields (Explains root (p ++ cs))
      (close (.object members false (Table.ofList (collapseMembers ms)) key :: fs)) := by
  cases hobject with
  | @intro p _ shape _ h hmembers hroom =>
  unfold close
  dsimp only
  split
  · exact yields_error _ _
  · next hlack =>
    have hdepth : membersDepth ms ≤ maxDepth - (fs.length + 1) := by
      refine membersDepth_le_iff.2 fun m hm => ?_
      have hdepth := (hms.sits m hm).depth_le
      omega
    have hsits : Sits root fs.length shape (.obj ms) := by
      refine ⟨.obj hmembers hms.once hlack fun m hm => (hms.sits m hm).fits, ?_⟩
      rw [Json.depth]
      omega
    rw [List.append_assoc, List.singleton_append]
    exact yields_ok (explains_deliver hroot h hspells hsits)

/-- No more lists and objects are open than may be. -/
theorem Awaits.length_le {p : List Char} {frames : List Frame} {shape : Shape}
    (h : Awaits root p frames shape) : frames.length ≤ maxDepth := by
  cases h with
  | document => exact Nat.zero_le _
  | item hlist =>
    obtain ⟨-, -, hroom⟩ := hlist
    exact hroom
  | value hplace =>
    obtain ⟨⟨-, -, hroom⟩, -, -, -⟩ := hplace
    exact hroom

/-- A value that is neither list nor object is put into its place if it may stand there. -/
theorem explains_settle (hroot : root.Keeps) {p : List Char} {frames : List Frame} {shape : Shape}
    (h : Awaits root p frames shape) {v : Json} {cs : List Char} (hspells : Spells v cs)
    (hitems : v.items? = none) (hmembers : v.members? = none) :
    Yields (Explains root (p ++ cs)) (settle frames shape v) := by
  unfold settle
  split
  · next hadmits =>
    have hsits : Sits root frames.length shape v := by
      refine ⟨.scalar hadmits hitems hmembers, ?_⟩
      rw [depth_of_scalar hitems hmembers]
      exact h.length_le
    have hdelivered := explains_deliver hroot h hspells hsits
    rw [collapse_of_scalar hitems hmembers] at hdelivered
    exact yields_ok hdelivered
  · exact yields_error _ _

/-! ## Parts that are begun -/

/-- An opened list holds nothing yet and is not too deep. -/
theorem yields_openList_of_keeps {shape : Shape} (h : shape.Keeps) (frames : List Frame) :
    Yields (fun m => ∃ element, shape.element? = some element ∧ frames.length < maxDepth ∧
      m = ⟨.list element [] :: frames, .value .first element⟩) (openList frames shape) := by
  cases helement : shape.element? with
  | some element =>
    rw [openList_eq frames shape helement, push]
    split
    · next hroom => exact yields_ok ⟨element, rfl, hroom, rfl⟩
    · exact yields_error _ _
  | none =>
    induction h with
    | any | list => exact nomatch helement
    | nullable _ ih => exact ih helement
    | _ => exact yields_error _ _

/-- An opened object holds nothing yet and is not too deep. -/
theorem yields_openObject_of_keeps {shape : Shape} (h : shape.Keeps) (frames : List Frame) :
    Yields (fun m => ∃ members, shape.members? = some members ∧ frames.length < maxDepth ∧
      m = ⟨.object members false [] "" :: frames, .key true⟩) (openObject frames shape) := by
  cases hmembers : shape.members? with
  | some members =>
    rw [openObject_eq frames shape hmembers, push]
    split
    · next hroom => exact yields_ok ⟨members, rfl, hroom, rfl⟩
    · exact yields_error _ _
  | none =>
    induction h with
    | any | table | audited | record => exact nomatch hmembers
    | nullable _ ih => exact ih hmembers
    | _ => exact yields_error _ _

/-- The first character of a value begins it. -/
theorem explains_begin (hroot : root.Keeps) {p : List Char} {frames : List Frame} {shape : Shape}
    (h : Awaits root p frames shape) (c : Char) :
    Yields (Explains root (p ++ [c])) (begin frames shape c) := by
  -- by the first character: a quote, the brackets, the words, a sign, and at last the digits
  unfold begin
  split
  · next hc =>
    subst hc
    exact yields_ok (.text h .nil)
  split
  · next hc =>
    subst hc
    rintro m hm
    obtain ⟨element, helement, hroom, rfl⟩ := yields_openList_of_keeps (h.keeps hroot) frames m hm
    have hitem := Awaits.item (.intro h helement hroom) .first (List.forall_mem_nil _) areBlank_nil
    rw [List.append_nil, List.append_nil] at hitem
    exact .value hitem fun _ => ⟨element, frames, rfl⟩
  split
  · next hc =>
    subst hc
    rintro m hm
    obtain ⟨members, hmembers, hroom, rfl⟩ :=
      yields_openObject_of_keeps (h.keeps hroot) frames m hm
    have hkey :=
      AwaitsKey.intro (.intro h hmembers hroom) .first (membersSit_nil _ _ _) areBlank_nil
    rw [List.append_nil, List.append_nil] at hkey
    exact .key hkey fun _ => rfl
  split
  · next hc =>
    subst hc
    exact yields_ok (.word h .null rfl rfl)
  split
  · next hc =>
    subst hc
    exact yields_ok (.word h .true rfl rfl)
  split
  · next hc =>
    subst hc
    exact yields_ok (.word h .false rfl rfl)
  split
  · next hc =>
    subst hc
    have htakes : Numeral.Takes .sign ⟨true, [], [], none⟩ [] .sign _ := .nil
    exact yields_ok (.numeral h htakes)
  split
  · next stage n hfeed =>
    have htakes : Numeral.Takes .sign ⟨false, [], [], none⟩ [c] stage n := .cons hfeed .nil
    exact yields_ok (.numeral h htakes)
  · exact yields_error _ _

/-! ## Steps -/

/-- A list that holds nothing yet has just been opened. -/
theorem Awaits.opened {p : List Char} {frames : List Frame} {shape : Shape}
    (h : Awaits root p frames shape) {element : Shape} {fs : List Frame}
    (hframes : frames = .list element [] :: fs) :
    ∃ p' b, p = p' ++ b ∧ AreBlank b ∧ InList root p' fs element := by
  cases h with
  | document => exact nomatch hframes
  | value => exact nomatch hframes
  | @item p front b fs' _ vs hlist hfront hvs hb =>
    obtain ⟨hframe, rfl⟩ := List.cons.inj hframes
    obtain ⟨rfl, hitems⟩ := Frame.list.inj hframe
    obtain rfl : vs = [] := by simpa [collapseItems_eq] using hitems
    rw [hfront.eq_nil]
    exact ⟨p, b, rfl, hb, hlist⟩

/-- Where a value may stand, blanks, a first character and, right behind a bracket, the end of the
list are explained. -/
theorem explains_value (hroot : root.Keeps) {p : List Char} {frames : List Frame} {slot : Slot}
    {shape : Shape} (h : Awaits root p frames shape)
    (hfirst : slot = .first → ∃ element fs, frames = .list element [] :: fs) (c : Char) :
    Yields (Explains root (p ++ [c])) (act root ⟨frames, .value slot shape⟩ c) := by
  unfold act
  dsimp only
  split
  · next hc => exact yields_ok (.value (h.blank hc) hfirst)
  split
  · next hc =>
    obtain ⟨rfl, hslot⟩ := hc
    obtain ⟨element, fs, rfl⟩ := hfirst hslot
    obtain ⟨p, b, rfl, hb, hlist⟩ := h.opened rfl
    rw [List.append_assoc]
    exact yields_ok (explains_closed_list hroot hlist (.emptyArr hb) (List.forall_mem_nil _))
  split
  · exact yields_error _ _
  · exact explains_begin hroot h c

/-- One more character of a word is explained. -/
theorem explains_word (hroot : root.Keeps) {p front rest : List Char} {frames : List Frame}
    {shape : Shape} {v : Json} (h : Awaits root p frames shape) (hword : Spells v (front ++ rest))
    (hitems : v.items? = none) (hmembers : v.members? = none) (c : Char) :
    Yields (Explains root (p ++ front ++ [c])) (act root ⟨frames, .word rest v shape⟩ c) := by
  unfold act
  dsimp only
  rw [List.append_assoc]
  split
  · exact yields_error _ _
  · split
    · next hc =>
      subst hc
      exact explains_settle hroot h hword hitems hmembers
    · exact yields_error _ _
  · split
    · next hc =>
      subst hc
      rw [List.append_cons] at hword
      exact yields_ok (.word h hword hitems hmembers)
    · exact yields_error _ _

/-- One more character of a text is explained. -/
theorem explains_text (hroot : root.Keeps) {p cs : List Char} {frames : List Frame} {shape : Shape}
    {t : Literal} (h : Awaits root p frames shape) (htakes : Literal.Takes .empty cs t) (c : Char) :
    Yields (Explains root (p ++ '"' :: cs ++ [c])) (act root ⟨frames, .text (some shape) t⟩ c) := by
  unfold act
  dsimp only
  rw [List.append_assoc, List.cons_append]
  split
  · next hclose =>
    obtain rfl := Literal.eq_of_closes hclose
    exact explains_settle hroot h (.str ⟨t, htakes, hclose, rfl⟩) rfl rfl
  · next hopen =>
    rw [(h.keeps hroot).isSkipped_eq]
    refine yields_map fun t' hfeed => ?_
    exact .text h (htakes.append (.cons (Bool.eq_false_iff.2 hopen) hfeed .nil))

/-- Where a key may stand, blanks, a quote and, before any key, the end of the object are explained.
-/
theorem explains_key (hroot : root.Keeps) {p : List Char} {fs : List Frame} {members : Members}
    {ms : List (String × Json)} {key : String} {first : Bool}
    (hplace : AwaitsKey root p fs members ms) (hfirst : first → ms = []) (c : Char) :
    Yields (Explains root (p ++ [c])) (act root
      ⟨.object members false (Table.ofList (collapseMembers ms)) key :: fs, .key first⟩ c) := by
  unfold act
  dsimp only
  split
  · next hc => exact yields_ok (.key (hplace.blank hc) hfirst)
  split
  · next hc =>
    subst hc
    exact yields_ok (.name hplace .nil)
  split
  · next hc =>
    obtain ⟨rfl, hc⟩ := hc
    obtain rfl := hfirst hc
    cases hplace with
    | intro hobject hfront hms hb =>
      rw [hfront.eq_nil, List.append_assoc]
      exact explains_closed_object hroot hobject (.emptyObj hb) hms key
  split <;> exact yields_error _ _

/-- One more character of a key is explained. -/
theorem explains_name {p cs : List Char} {fs : List Frame} {members : Members}
    {ms : List (String × Json)} {key : String} {t : Literal}
    (hplace : AwaitsKey root p fs members ms) (htakes : Literal.Takes .empty cs t) (c : Char) :
    Yields (Explains root (p ++ '"' :: cs ++ [c])) (act root
      ⟨.object members false (Table.ofList (collapseMembers ms)) key :: fs, .text none t⟩ c) := by
  unfold act
  dsimp only
  rw [List.append_assoc, List.cons_append]
  split
  · next hclose =>
    obtain rfl := Literal.eq_of_closes hclose
    unfold endKey
    dsimp only
    split
    · exact yields_error _ _
    · next hnew =>
      -- the name was not refused, hence it is new if it is declared
      have hnew' : members.declares t.text → t.text ∉ Table.names ms := by
        intro hdeclares hmem
        have hnone : Table.get? (Table.ofList (collapseMembers ms)) t.text = none := by
          simpa [hdeclares] using hnew
        rw [Table.get?_eq_none_iff, Table.names_ofList, names_collapseMembers,
          List.mem_eraseDups] at hnone
        exact hnone hmem
      exact yields_ok (.colon hplace ⟨t, htakes, hclose, rfl⟩ hnew' areBlank_nil)
  · next hopen =>
    refine yields_map fun t' hfeed => ?_
    exact .name hplace (htakes.append (.cons (Bool.eq_false_iff.2 hopen) hfeed .nil))

/-- Between a key and its value, blanks and the colon are explained. -/
theorem explains_colon {p key b : List Char} {fs : List Frame} {members : Members}
    {ms : List (String × Json)} {name : String} (hplace : AwaitsKey root p fs members ms)
    (hkey : Literal.Stands key name) (hnew : members.declares name → name ∉ Table.names ms)
    (hb : AreBlank b) (c : Char) :
    Yields (Explains root (p ++ '"' :: (key ++ '"' :: b) ++ [c])) (act root
      ⟨.object members false (Table.ofList (collapseMembers ms)) name :: fs, .colon⟩ c) := by
  unfold act
  dsimp only
  rw [List.append_assoc, List.cons_append, List.append_assoc, List.cons_append]
  split
  · next hc => exact yields_ok (.colon hplace hkey hnew (hb.append (areBlank_singleton hc)))
  split
  · next hc =>
    subst hc
    have hvalue := Awaits.value hplace hkey hnew hb areBlank_nil
    exact yields_ok (.value hvalue fun h => nomatch h)
  · exact yields_error _ _

/-- Behind an element, blanks, a comma and the end of the list are explained. -/
theorem explains_items (hroot : root.Keeps) {p cs : List Char} {fs : List Frame} {element : Shape}
    {vs : List Json} (hlist : InList root p fs element) (hsep : Separated Spells vs cs)
    (hvs : ∀ v ∈ vs, Sits root (fs.length + 1) element v) (c : Char) :
    Yields (Explains root (p ++ cs ++ [c]))
      (act root ⟨.list element (collapseItems vs).reverse :: fs, .between⟩ c) := by
  unfold act
  dsimp only
  rw [List.append_assoc]
  split
  · next hc => exact yields_ok (.items hlist (hsep.blanks (areBlank_singleton hc)) hvs)
  unfold continueOpen
  dsimp only
  split
  · next hc =>
    subst hc
    have hitem := Awaits.item hlist (.next hsep) hvs areBlank_nil
    rw [(hlist.keeps hroot).2 root]
    rw [List.append_nil] at hitem
    exact yields_ok (.value hitem fun h => nomatch h)
  split
  · next hc =>
    subst hc
    have hclosed := explains_closed_list hroot hlist (.arr hsep) hvs
    rw [close, List.reverse_reverse]
    exact yields_ok hclosed
  · exact yields_error _ _

/-- Behind a member, blanks, a comma and the end of the object are explained. -/
theorem explains_members (hroot : root.Keeps) {p cs : List Char} {fs : List Frame}
    {members : Members} {ms : List (String × Json)} (hobject : InObject root p fs members)
    (hsep : Separated (Named Spells) ms cs) (hms : MembersSit root (fs.length + 1) members ms)
    (key : String) (c : Char) :
    Yields (Explains root (p ++ cs ++ [c])) (act root
      ⟨.object members false (Table.ofList (collapseMembers ms)) key :: fs, .between⟩ c) := by
  unfold act
  dsimp only
  rw [List.append_assoc]
  split
  · next hc => exact yields_ok (.members hobject (hsep.blanks (areBlank_singleton hc)) hms)
  unfold continueOpen
  dsimp only
  split
  · next hc =>
    subst hc
    have hkey := AwaitsKey.intro hobject (.next hsep) hms areBlank_nil
    rw [List.append_nil] at hkey
    exact yields_ok (.key hkey fun h => nomatch h)
  split
  · next hc =>
    subst hc
    exact explains_closed_object hroot hobject (.obj hsep) hms key
  · exact yields_error _ _

/-- Whatever has led to a state, one more character is explained. -/
theorem explains_act (hroot : root.Keeps) {p : List Char} {m : Machine} (h : Explains root p m)
    (c : Char) : Yields (Explains root (p ++ [c])) (act root m c) := by
  cases h with
  | value h hfirst => exact explains_value hroot h hfirst c
  | word h hword hitems hmembers => exact explains_word hroot h hword hitems hmembers c
  | numeral => exact yields_error _ _
  | text h htakes => exact explains_text hroot h htakes c
  | key hplace hfirst => exact explains_key hroot hplace hfirst c
  | name hplace htakes => exact explains_name hplace htakes c
  | colon hplace hkey hnew hb => exact explains_colon hplace hkey hnew hb c
  | items hlist hsep hvs => exact explains_items hroot hlist hsep hvs c
  | members hobject hsep hms => exact explains_members hroot hobject hsep hms _ c
  | done hb hspells hsits hb' =>
    unfold act
    dsimp only
    rw [List.append_assoc, List.append_assoc]
    split
    · next hc => exact yields_ok (.done hb hspells hsits (hb'.append (areBlank_singleton hc)))
    · exact yields_error _ _

/-- A number that ends is put into its place. -/
theorem explains_endNumeral (hroot : root.Keeps) {p cs : List Char} {frames : List Frame}
    {shape : Shape} {negative : Bool} {stage : Numeral.Stage} {n : Numeral}
    (h : Awaits root p frames shape)
    (htakes : Numeral.Takes .sign ⟨negative, [], [], none⟩ cs stage n) (hstage : stage.isComplete) :
    Yields (Explains root (p ++ Numeral.signed negative cs))
      (endNumeral frames n shape) := by
  unfold endNumeral
  rw [(h.keeps hroot).isSkipped_eq, if_neg Bool.false_ne_true]
  cases hvalue : n.value? with
  | some v => exact explains_settle hroot h (.num ⟨stage, n, htakes, hstage, hvalue⟩) rfl rfl
  | none => exact yields_error _ _

/-- A number goes on, or it ends and the character is taken behind it. -/
theorem explains_numeral (hroot : root.Keeps) {p cs : List Char} {frames : List Frame}
    {shape : Shape} {negative : Bool} {stage : Numeral.Stage} {n : Numeral}
    (h : Awaits root p frames shape)
    (htakes : Numeral.Takes .sign ⟨negative, [], [], none⟩ cs stage n) (c : Char) :
    Yields (Explains root (p ++ Numeral.signed negative cs ++ [c]))
      (step root ⟨frames, .numeral stage n shape⟩ c) := by
  unfold step
  dsimp only
  cases hfeed : n.feed stage c with
  | more stage' n' =>
    have htakes' : Numeral.Takes .sign ⟨negative, [], [], none⟩ (cs ++ [c]) stage' n' :=
      htakes.append (.cons hfeed .nil)
    rw [List.append_assoc, Numeral.signed_append]
    exact yields_ok (.numeral h htakes')
  | ended =>
    have hstage := Numeral.isComplete_of_ended hfeed
    exact (explains_endNumeral hroot h htakes hstage).bind fun m hm => explains_act hroot hm c
  | bad => exact yields_error _ _

/-- A step keeps what is known of the text. -/
theorem explains_step (hroot : root.Keeps) {p : List Char} {m : Machine} (h : Explains root p m)
    (c : Char) : Yields (Explains root (p ++ [c])) (step root m c) := by
  obtain ⟨frames, phase⟩ := m
  cases phase with
  | numeral stage n shape =>
    cases h with
    | numeral h htakes => exact explains_numeral hroot h htakes c
  | _ => exact explains_act hroot h c

/-- The characters are a document, and the value is what is left of it. -/
def IsRead (root : Shape) (p : List Char) (v : Json) : Prop :=
  ∃ raw b cs b', AreBlank b ∧ Spells raw cs ∧ AreBlank b' ∧ p = b ++ (cs ++ b') ∧
    Sits root 0 root raw ∧ v = raw.collapse

/-- What has led to the end of a document is the document. -/
theorem explains_conclude {p : List Char} {m : Machine} (h : Explains root p m) :
    Yields (IsRead root p) m.conclude := by
  cases h with
  | @done b cs b' raw hb hspells hsits hb' =>
    exact yields_ok ⟨raw, b, cs, b', hb, hspells, hb', rfl, hsits, rfl⟩
  | @value _ _ slot => cases slot <;> exact yields_error _ _
  | _ => exact yields_error _ _

/-- What is read at the end is a document. -/
theorem explains_finish (hroot : root.Keeps) {p : List Char} {m : Machine} (h : Explains root p m) :
    Yields (IsRead root p) (finish m) := by
  obtain ⟨frames, phase⟩ := m
  cases phase with
  | numeral stage n shape =>
    cases h with
    | numeral h htakes =>
      unfold finish
      dsimp only
      split
      · next hstage =>
        exact (explains_endNumeral hroot h htakes hstage).bind fun m hm => explains_conclude hm
      · exact yields_error _ _
  | _ => exact explains_conclude h

end Machine

/-- A text is read iff it holds a value that fits, and what is read is this value, each name with
its last value in its first place. -/
theorem readAs_iff {root : Shape} (hroot : root.Keeps) {text : String} {v : Json} :
    readAs root text = .ok v ↔ ∃ raw, Holds text raw ∧ Fits root root raw ∧ v = raw.collapse := by
  constructor
  · intro h
    have hrun := Except.yields_foldlM_append (P := Machine.Explains root)
      (fun _ _ c hm => Machine.explains_step hroot hm c) [] (Machine.explains_start root) text.toList
    have hread := hrun.bind fun m hm => Machine.explains_finish hroot hm
    obtain ⟨raw, b, cs, b', hb, hspells, hb', htext, ⟨hfits, hdepth⟩, hv⟩ := hread v h
    rw [Nat.zero_add] at hdepth
    exact ⟨raw, ⟨hdepth, b, cs, b', hb, hspells, hb', htext⟩, hfits, hv⟩
  · rintro ⟨raw, hholds, hfits, rfl⟩
    exact readAs_of_holds hroot hholds hfits

/-- A text is read against no shape iff it holds a value. -/
theorem read_iff {text : String} {v : Json} :
    read text = .ok v ↔ ∃ raw, Holds text raw ∧ v = raw.collapse := by
  rw [read, readAs_iff .any]
  refine exists_congr fun raw => ?_
  rw [and_iff_right (fits_any .any raw)]

end SearchIndex.Json
