import SearchIndex.Proofs.Mapping.Absorption
import SearchIndex.Proofs.Request.Script

/-!
# Entities that are listed again

An entity that is listed again has the tree it had before, and a merged list of trees covers each of
them. So a request is compiled alike without the repetition, and fails alike if it fails
(`ContainerRequest.compile_drop`). `merge_again` collects what holds of trees and of requests.
-/

namespace SearchIndex.Request

open Index Mapping

/-- A step that is taken again may be left out if its value may be left out where it comes again. -/
theorem map_mapM_drop {ε α β γ : Type} {f : α → Except ε β} {g : List β → γ} {front : List α}
    {x : α} (hx : x ∈ front) (rest : List α)
    (h : ∀ ys zs, List.Forall₂ (fun x y => f x = .ok y) front ys → ∀ y ∈ ys,
      g (ys ++ y :: zs) = g (ys ++ zs)) :
    ((front ++ x :: rest).mapM f).map g = ((front ++ rest).mapM f).map g := by
  rw [List.mapM_append, List.mapM_append, List.mapM_cons]
  cases hfront : front.mapM f with
  | error e => rfl
  | ok ys =>
    have hys := Except.mapM_eq_ok.1 hfront
    obtain ⟨y, hy, hxy⟩ := Except.mem_of_values hys.flip x hx
    rw [hxy]
    cases rest.mapM f with
    | error e => rfl
    | ok zs => exact congrArg Except.ok (h ys zs hys y hy)

namespace ContainerRequest

variable {r : ContainerRequest} (h : ∀ e ∈ r.schemas, e.2.Distinct)
include h

/-- The trees of entities have no name twice at a level. -/
theorem levelsDistinct_compileEntity {model external : Json}
    (hmodel : source "modelDefinitions" r.model = .ok model)
    (hexternal : source "externalDefinitions" r.external = .ok external) {id : String} {t : Tree}
    (ht : r.compileEntity model external id = .ok t) : Tree.LevelsDistinct t := by
  have hentity : (r.entityRequest id).compile = .ok t :=
    (compileEntity_eq_ok hmodel hexternal).1 ht
  exact ((r.entityRequest id).writesDistinct_compile (Json.distinct_getD h id) hentity).levels

/-- An entity that is listed again changes neither the tree nor the fault. -/
theorem compile_drop {front : List String} {id : String} (hid : id ∈ front) (rest : List String) :
    { r with entities := front ++ id :: rest }.compile =
      { r with entities := front ++ rest }.compile := by
  unfold compile trees
  cases hmodel : source "modelDefinitions" r.model with
  | error e => rfl
  | ok model =>
  cases hexternal : source "externalDefinitions" r.external with
  | error e => rfl
  | ok external =>
  refine map_mapM_drop (f := r.compileEntity model external) hid rest fun ys zs hys y hy => ?_
  refine mergeAll_drop (fun t ht => ?_) hy (Tree.Covers.refl y) zs
  obtain ⟨id', -, hid'⟩ := Except.mem_of_values hys t ht
  exact levelsDistinct_compileEntity h hmodel hexternal hid'

/-- Entities count once. -/
theorem compile_eraseDups :
    { r with entities := r.entities.eraseDups }.compile = r.compile := by
  refine apply_eraseDupsBy (P := fun _ => True)
    (F := fun ids => { r with entities := ids }.compile) ?_ [] fun _ _ => trivial
  intro front id id' rest _ hid hsame
  obtain rfl : id' = id := eq_of_beq hsame
  exact compile_drop h hid rest

end ContainerRequest

/-- What a list of trees makes of a tree that comes again. -/
structure AbsorbsAgain (trees : List Tree) : Prop where
  /-- Merging one of the trees again changes nothing. -/
  merge_eq : ∀ s ∈ trees, merge (mergeAll trees) s = mergeAll trees
  /-- Nothing is replaced on the way. -/
  replaces_none : ∀ s ∈ trees, replacements (mergeAll trees) s = []
  /-- Trees that are equal to earlier ones may be left out. -/
  eraseDups_eq : ∀ [DecidableEq Tree], mergeAll trees.eraseDups = mergeAll trees
  /-- So may trees that have no more than earlier ones, such as the same fields in another order. -/
  eraseDupsBy_eq : ∀ same : Tree → Tree → Bool, (∀ s t, same s t → t.Covers s) →
    mergeAll (trees.eraseDupsBy same) = mergeAll trees

/-- What a request makes of an entity that is listed again. -/
structure CountsOnce (r : ContainerRequest) : Prop where
  /-- One repetition may be left out. -/
  compile_eq : ∀ front id rest, id ∈ front → r.entities = front ++ id :: rest →
    { r with entities := front ++ rest }.compile = r.compile
  /-- All repetitions may be left out. -/
  eraseDups_eq : { r with entities := r.entities.eraseDups }.compile = r.compile
  /-- The index document does not tell them. -/
  document_eq : { r with entities := r.entities.eraseDups }.document = r.document

/-- Trees and entities that come again count once. -/
theorem merge_again :
    (∀ trees : List Tree, (∀ t ∈ trees, Tree.LevelsDistinct t) → AbsorbsAgain trees) ∧
    (∀ t, Tree.LevelsDistinct t → merge t t = t) ∧
    (∀ text r, ContainerRequest.read text = .ok r → r.toJson.Distinct) ∧
      ∀ r : ContainerRequest, r.toJson.Distinct → CountsOnce r := by
  refine ⟨fun trees h => ?_, fun t ht => (merge_eq_left_iff ht).2 (Tree.Covers.refl t),
    fun _ _ => ContainerRequest.distinct_of_read, fun r hr => ?_⟩
  · have hall : Tree.LevelsDistinct (mergeAll trees) := Tree.LevelsDistinct.mergeAll h
    refine ⟨fun s hs => ?_, fun s hs => ?_, ?_, fun same hsame => mergeAll_eraseDupsBy hsame h⟩
    · exact (merge_eq_left_iff hall).2 (Tree.covers_mergeAll hs)
    · exact replacements_of_covers hall (Tree.covers_mergeAll hs)
    · intro _
      refine mergeAll_eraseDupsBy (fun s t hst => ?_) h
      obtain rfl : s = t := eq_of_beq hst
      exact Tree.Covers.refl s
  · obtain ⟨hschemas, -⟩ := ContainerRequest.distinct_parts hr
    have hcompile := ContainerRequest.compile_eraseDups hschemas
    refine ⟨fun front id rest hid hentities => ?_, hcompile, ?_⟩
    · have hdrop := ContainerRequest.compile_drop hschemas hid rest
      rw [← hentities] at hdrop
      exact hdrop.symm
    · exact congrArg (Except.map (Document.ofContainer r.container)) hcompile

/-- A request for the index of a shop that lists the articles twice. -/
def repeatedRequest : ContainerRequest := { shopRequest with entities := ["a", "b", "a"] }

/-- Plain books come again behind described ones, and a request lists its first entity again. -/
theorem merge_again_books :
    (∀ t ∈ [plainBooks, describedBooks, plainBooks], Tree.LevelsDistinct t) ∧
      AbsorbsAgain [plainBooks, describedBooks, plainBooks] ∧
    (Tree.LevelsDistinct describedBooks ∧ merge describedBooks describedBooks = describedBooks) ∧
    repeatedRequest.toJson.Distinct ∧ CountsOnce repeatedRequest ∧
      ∃ t, repeatedRequest.compile = .ok t ∧ shopRequest.compile = .ok t := by
  have hall : ∀ t ∈ [plainBooks, describedBooks, plainBooks], Tree.LevelsDistinct t := by
    simp [levelsDistinct_plainBooks, levelsDistinct_describedBooks]
  have hrequest : repeatedRequest.toJson.Distinct := by
    simp [repeatedRequest, shopRequest, shopSchema, shopContainer, ContainerRequest.toJson,
      Container.toJson, Alias.toJson, Json.present, Table.Distinct, Table.names]
  obtain ⟨htrees, hself, -, hrequests⟩ := merge_again
  have honce : CountsOnce repeatedRequest := hrequests repeatedRequest hrequest
  have hdescribed := levelsDistinct_describedBooks
  exact ⟨hall, htrees _ hall, ⟨hdescribed, hself _ hdescribed⟩, hrequest, honce, _, rfl,
    honce.eraseDups_eq⟩

end SearchIndex.Request
