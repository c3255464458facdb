import SearchIndex.Proofs.Json.RoundTrip
import SearchIndex.Proofs.Request.Faults

/-!
# Documents embedded as text

A source document of a request may be given as it is or as its text. Reading the text gives the
document back, so no part of a request can tell the two apart: `Alike` values are interchangeable in
every place of a request (`compile_alike`), and a document is alike to its texts (`alike_text`).
-/

namespace SearchIndex.Request

open Index Mapping Schema

/-- The value is a text of the document, with or without blanks. -/
def IsTextOf (w v : Json) : Prop := w = .str v.compact ∨ w = .str v.pretty

/-- The values stand for the same document, or fail alike, under every name. -/
def Alike (w v : Json) : Prop := ∀ name, source name w = source name v

namespace Alike

/-- A value is alike to itself. -/
theorem refl (v : Json) : Alike v v := fun _ => rfl

/-- A string is alike to the document that is read from it, unless that is a string itself. -/
theorem of_read {text : String} {v : Json} (hinline : v.text? = none)
    (hread : Json.read text = .ok v) : Alike (.str text) v := by
  intro name
  have hstring : source name (.str text) = .ok v := by
    rw [source, hread]
    rfl
  rw [hstring]
  cases v with
  | str s => exact absurd hinline (by simp [Json.text?])
  | _ => rfl

end Alike

/-- A document is alike to its texts. -/
theorem alike_text {v w : Json} (hinline : v.text? = none) (hdistinct : v.Distinct)
    (hintegral : v.Integral) (hdepth : v.depth ≤ Json.maxDepth) (htext : IsTextOf w v) :
    Alike w v := by
  obtain ⟨hcompact, hpretty⟩ := Json.read_texts hdistinct hintegral hdepth
  rcases htext with rfl | rfl
  · exact Alike.of_read hinline hcompact
  · exact Alike.of_read hinline hpretty

/-! ## Requests for one entity -/

namespace EntityRequest

/-- The places of the source documents. -/
inductive Place where
  | schema
  | internal
  | model
  | external

/-- The document at a place. -/
def given (r : EntityRequest) : Place → Json
  | .schema => r.schema
  | .internal => r.internal
  | .model => r.model
  | .external => r.external

/-- The request with another document at a place. -/
def replace (r : EntityRequest) (w : Json) : Place → EntityRequest
  | .schema => { r with schema := w }
  | .internal => { r with internal := w }
  | .model => { r with model := w }
  | .external => { r with external := w }

/-- A request for an entity is compiled alike with an alike document at a place. -/
theorem compile_alike (r : EntityRequest) {p : Place} {w : Json} (h : Alike w (r.given p)) :
    (r.replace w p).compile = r.compile := by
  unfold Alike at h
  cases p <;> simp only [compile, scopes, replace, given] at h ⊢ <;> simp only [h]

/-- The container and the connection stay the same, so the script only depends on the tree. -/
theorem generate_replace {r : EntityRequest} {p : Place} {w : Json}
    (h : (r.replace w p).compile = r.compile) (kind : ScriptKind) :
    (r.replace w p).generate kind = r.generate kind := by
  unfold generate document
  rw [h]
  cases p <;> rfl

end EntityRequest

/-! ## Requests for a shared index -/

namespace ContainerRequest

/-- The places of the source documents: the shared ones, and those of an entity. -/
inductive Place where
  | model
  | external
  | schema (id : String)
  | internal (id : String)

/-- The document at a place; an entity may have none. -/
def given? (r : ContainerRequest) : Place → Option Json
  | .model => some r.model
  | .external => some r.external
  | .schema id => r.schemas.get? id
  | .internal id => r.internals.get? id

/-- The request with another document at a place. -/
def replace (r : ContainerRequest) (w : Json) : Place → ContainerRequest
  | .model => { r with model := w }
  | .external => { r with external := w }
  | .schema id => { r with schemas := r.schemas.insert id w }
  | .internal id => { r with internals := r.internals.insert id w }

/-- Writing an alike value for one entity leaves every entity an alike value. -/
theorem value_insert_alike {documents : Table Json} {id : String} {v w : Json}
    (hgiven : documents.get? id = some v) (h : Alike w v) (other : String) :
    Alike (value (documents.insert id w) other) (value documents other) := by
  unfold value
  rw [Table.get?_insert]
  by_cases hid : id = other
  · rw [if_pos hid, ← hid, hgiven]
    exact h
  · rw [if_neg hid]
    exact Alike.refl _

/-- Requests with alike documents for the same entities compile alike. -/
theorem compile_congr_alike {r r' : ContainerRequest} (hentities : r'.entities = r.entities)
    (hmodel : Alike r'.model r.model) (hexternal : Alike r'.external r.external)
    (hschemas : ∀ id, Alike (value r'.schemas id) (value r.schemas id))
    (hinternals : ∀ id, Alike (value r'.internals id) (value r.internals id)) :
    r'.compile = r.compile := by
  -- the documents of an entity are read under the same names in both requests
  have hentity : r'.compileEntity = r.compileEntity := by
    funext model external id
    rw [compileEntity, compileEntity]
    simp only [entry_eq]
    rw [hschemas id, hinternals id]
  rw [compile, compile, trees, trees, hentities, hentity, hmodel, hexternal]

/-- A request for a shared index is compiled alike with an alike document where it has one. -/
theorem compile_alike (r : ContainerRequest) {p : Place} {v w : Json}
    (hgiven : r.given? p = some v) (h : Alike w v) : (r.replace w p).compile = r.compile := by
  cases p with
  | model =>
    obtain rfl := Option.some.inj hgiven
    exact compile_congr_alike rfl h (.refl _) (fun _ => .refl _) fun _ => .refl _
  | external =>
    obtain rfl := Option.some.inj hgiven
    exact compile_congr_alike rfl (.refl _) h (fun _ => .refl _) fun _ => .refl _
  | schema id =>
    exact compile_congr_alike rfl (.refl _) (.refl _) (value_insert_alike hgiven h)
      fun _ => .refl _
  | internal id =>
    exact compile_congr_alike rfl (.refl _) (.refl _) (fun _ => .refl _)
      (value_insert_alike hgiven h)

/-- A document counts for a script only by what the request is compiled to. -/
theorem generate_replace {r : ContainerRequest} {p : Place} {w : Json}
    (h : (r.replace w p).compile = r.compile) (kind : ScriptKind) :
    (r.replace w p).generate kind = r.generate kind := by
  unfold generate document
  rw [h]
  cases p <;> rfl

end ContainerRequest

/-- A document of a request may be given by its text: what is compiled and generated stays the same,
and so does the fault if the request has one. The document has to be one that can be read, without
a name twice, with integers only and not nested too deep. -/
theorem embedded_text_alike {v w : Json} (hinline : v.text? = none) (hdistinct : v.Distinct)
    (hintegral : v.Integral) (hdepth : v.depth ≤ Json.maxDepth) (htext : IsTextOf w v) :
    (∀ (r : EntityRequest) (p : EntityRequest.Place), r.given p = v →
      (r.replace w p).compile = r.compile ∧
      ∀ kind, (r.replace w p).generate kind = r.generate kind) ∧
    ∀ (r : ContainerRequest) (p : ContainerRequest.Place), r.given? p = some v →
      (r.replace w p).compile = r.compile ∧
      ∀ kind, (r.replace w p).generate kind = r.generate kind := by
  have halike : Alike w v := alike_text hinline hdistinct hintegral hdepth htext
  constructor
  · intro r p hgiven
    have hcompile : (r.replace w p).compile = r.compile := r.compile_alike (hgiven ▸ halike)
    exact ⟨hcompile, EntityRequest.generate_replace hcompile⟩
  · intro r p hgiven
    have hcompile : (r.replace w p).compile = r.compile := r.compile_alike hgiven halike
    exact ⟨hcompile, ContainerRequest.generate_replace hcompile⟩

/-- A book has a number of pages. -/
def bookSchema : Json :=
  .obj [("type", .str "object"), ("properties", .obj
    [("pages", .obj [("type", .str "integer"), ("maximum", .num (.integer 9000))])])]

/-- The schema of a book may be given as its text, to one entity and to a shared index. -/
theorem embedded_text_alike_book :
    bookSchema.text? = none ∧ bookSchema.Distinct ∧ bookSchema.Integral ∧
      bookSchema.depth ≤ Json.maxDepth ∧ IsTextOf (.str bookSchema.pretty) bookSchema ∧
      (let r : EntityRequest := ⟨bookSchema, .null, .null, .null, .unnamed, .unnamed, .unset, false⟩
      (r.replace (.str bookSchema.pretty) .schema).compile = r.compile) ∧
      (let r : ContainerRequest :=
        ⟨["book"], [("book", bookSchema)], [], .null, .null, [], [], true⟩
      (r.replace (.str bookSchema.pretty) (.schema "book")).generate .curl = r.generate .curl) := by
  have hdistinct : bookSchema.Distinct := by
    simp [bookSchema, Table.Distinct, Table.names]
  have hintegral : bookSchema.Integral := by
    simp [bookSchema, Json.Number.IsWord, Json.Numeral.greatestNegated, Json.Numeral.greatestWord]
  have hdepth : bookSchema.depth ≤ Json.maxDepth := by decide
  have htext : IsTextOf (.str bookSchema.pretty) bookSchema := .inr rfl
  obtain ⟨hentity, hcontainer⟩ := embedded_text_alike rfl hdistinct hintegral hdepth htext
  exact ⟨rfl, hdistinct, hintegral, hdepth, htext, (hentity _ .schema rfl).1,
    (hcontainer _ (.schema "book") rfl).2 .curl⟩

end SearchIndex.Request
