import SearchIndex.Proofs.Index.Document
import SearchIndex.Proofs.Request.Container
import SearchIndex.Proofs.Request.Reading

/-!
# Scripts of a request carry its document

The two scripts of a request have the same text of its index document, and reading that text gives
the document back: `script_read_back`. A request is taken to hold documents in which no name stands
twice, as every request that was read does (`EntityRequest.distinct_of_read` and
`ContainerRequest.distinct_of_read`).
-/

namespace SearchIndex.Request

open Index Mapping Schema

/-! ## The tree of a request -/

/-- Reading a document from a text drops names that stand twice. -/
theorem distinct_of_source {name : String} {v w : Json} (hv : v.Distinct)
    (h : source name v = .ok w) : w.Distinct := by
  cases v with
  | str text => exact Json.distinct_of_readAs (Except.mapError_eq_ok.1 h)
  | _ => exact Except.ok.inj h ▸ hv

/-- The tree of an entity has no name twice if its document has none. -/
theorem writesDistinct_compileScopes {name : String} {s : Scopes} (h : s.entity.Distinct) {t : Tree}
    (ht : compileScopes name s = .ok t) : Tree.WritesDistinct t := by
  unfold compileScopes at ht
  split at ht
  · obtain ⟨root, hroot, ht⟩ := Except.bind_eq_ok.1 ht
    obtain rfl := Except.ok.inj ht
    exact writesDistinct_compileDocument s.resolver ⟨s.entity, h, Except.mapError_eq_ok.1 hroot⟩
  · exact Except.ok.inj ht ▸ Tree.writesDistinct_nil

/-- The names of an entity's tree come from its schema, so only the schema has to be distinct. -/
theorem EntityRequest.writesDistinct_compile {r : EntityRequest} (h : r.schema.Distinct) {t : Tree}
    (ht : r.compile = .ok t) : Tree.WritesDistinct t := by
  obtain ⟨entity, internal, model, external, hentity, -, -, -, ht⟩ := compile_eq_ok.1 ht
  exact writesDistinct_compileScopes (distinct_of_source h hentity) ht

/-- The tree of a shared index has no name twice if no entity document has. -/
theorem ContainerRequest.writesDistinct_compile {r : ContainerRequest}
    (h : ∀ e ∈ r.schemas, e.2.Distinct) {t : Tree} (ht : r.compile = .ok t) :
    Tree.WritesDistinct t := by
  obtain ⟨-, -, ts, hts, rfl⟩ := compile_eq_ok.1 ht
  refine Tree.writesDistinct_mergeAll fun t ht => ?_
  obtain ⟨id, -, hid⟩ := Except.mem_of_values hts t ht
  exact EntityRequest.writesDistinct_compile (Json.distinct_getD h id) hid

/-! ## The parts of a request -/

/-- The parts of a request for an entity have no name twice if the request has none. -/
theorem EntityRequest.distinct_parts {r : EntityRequest} (h : r.toJson.Distinct) :
    r.schema.Distinct ∧ r.entity.toJson.Distinct ∧ r.container.toJson.Distinct := by
  obtain ⟨-, hvalues⟩ := Json.distinct_obj.1 h
  exact ⟨hvalues ("jsonSchema", r.schema) (by simp),
    hvalues ("entityData", r.entity.toJson) (by simp),
    hvalues ("containerData", r.container.toJson) (by simp)⟩

/-- The parts of a request for a shared index have no name twice if the request has none. -/
theorem ContainerRequest.distinct_parts {r : ContainerRequest} (h : r.toJson.Distinct) :
    (∀ e ∈ r.schemas, e.2.Distinct) ∧ r.container.toJson.Distinct := by
  obtain ⟨-, hvalues⟩ := Json.distinct_obj.1 h
  have hschemas : (Json.obj r.schemas).Distinct := hvalues ("jsonSchema", _) (by simp)
  have hcontainers : (Json.arr (r.containers.map Container.toJson)).Distinct :=
    hvalues ("containerData", _) (by simp)
  refine ⟨(Json.distinct_obj.1 hschemas).2, ?_⟩
  unfold container
  cases hhead : r.containers.head? with
  | none => exact Json.distinct_nil
  | some c =>
    exact Json.distinct_arr.1 hcontainers _ (List.mem_map_of_mem (List.mem_of_mem_head? hhead))

/-! ## The document in the scripts -/

/-- What scripts of both kinds say about the document of a request. -/
structure Delivers (generate : ScriptKind → Except Error String) (d : Document) (c : Connection)
    (indexName : String) : Prop where
  /-- Each has the same text of the document, between the opening and the closing of its kind. -/
  generate_eq : ∀ kind, generate kind =
    .ok (Document.opening kind c indexName ++ d.toJson.pretty ++ Document.closing kind)
  /-- The document has its settings, its aliases and its mappings, in this order. -/
  sections : ∃ sections, d.toJson = .obj sections ∧
    (Table.names sections).Sublist ["settings", "aliases", "mappings"]
  /-- The text is read as the document. -/
  read_eq : d.toJson.depth ≤ Json.maxDepth → d.toJson.Integral →
    Json.read d.toJson.pretty = .ok d.toJson

/-- Both scripts have the same text of a document without any name twice. -/
theorem delivers_of_distinct {x : Except Error Document} {d : Document} (hx : x = .ok d)
    (h : d.toJson.Distinct) (c : Connection) (indexName : String) :
    Delivers (fun kind => x.map fun d => d.script kind c indexName) d c indexName where
  generate_eq := by
    intro kind
    rw [hx, ← Document.script_eq]
    rfl
  sections := d.sections_sublist
  read_eq := fun hdepth hintegral => (Json.read_texts h hintegral hdepth).2

/-- If a request has a script of some kind, its document stands in the scripts of both kinds as the
same text, which is read as the document. The names in a request have to be distinct, which they
always are in one that was read. -/
theorem script_read_back :
    ((∀ text r, EntityRequest.read text = .ok r → r.toJson.Distinct) ∧
      ∀ (r : EntityRequest) (kind : ScriptKind) (script : String), r.toJson.Distinct →
        r.generate kind = .ok script → ∃ d, r.document = .ok d ∧
          Delivers r.generate d r.connection r.container.indexName) ∧
    (∀ text r, ContainerRequest.read text = .ok r → r.toJson.Distinct) ∧
      ∀ (r : ContainerRequest) (kind : ScriptKind) (script : String), r.toJson.Distinct →
        r.generate kind = .ok script → ∃ d, r.document = .ok d ∧
          Delivers r.generate d r.connection r.container.indexName := by
  refine ⟨⟨fun _ _ => EntityRequest.distinct_of_read, ?_⟩,
    fun _ _ => ContainerRequest.distinct_of_read, ?_⟩
  · -- the script is there, so the document is, and so is the tree that it was made from
    intro r kind script hr hscript
    obtain ⟨hschema, hentity, hcontainer⟩ := EntityRequest.distinct_parts hr
    obtain ⟨d, hd, -⟩ := Except.map_eq_ok.1 hscript
    obtain ⟨t, ht, hdt⟩ := Except.map_eq_ok.1 hd
    have hdistinct : d.toJson.Distinct :=
      hdt ▸ Document.distinct_ofEntity hcontainer hentity (r.writesDistinct_compile hschema ht)
    exact ⟨d, hd, delivers_of_distinct hd hdistinct r.connection r.container.indexName⟩
  · intro r kind script hr hscript
    obtain ⟨hschemas, hcontainer⟩ := ContainerRequest.distinct_parts hr
    obtain ⟨d, hd, -⟩ := Except.map_eq_ok.1 hscript
    obtain ⟨t, ht, hdt⟩ := Except.map_eq_ok.1 hd
    have hdistinct : d.toJson.Distinct :=
      hdt ▸ Document.distinct_ofContainer hcontainer (r.writesDistinct_compile hschemas ht)
    exact ⟨d, hd, delivers_of_distinct hd hdistinct r.connection r.container.indexName⟩

/-- An entity with a text that has quotes and a line break in it, and with a number. -/
def shopSchema : Json :=
  .obj [("properties", .obj [("_source", .obj [("type", .str "object"), ("properties", .obj
    [("title", .obj [("type", .str "string"), ("null_value", .str "\"untitled\"\n")]),
     ("stock", .obj [("type", .str "number"), ("ignore_above", .num (.integer 256))])])])])]

/-- A container with a setting and an alias. -/
def shopContainer : Container :=
  ⟨some "Shop", some [⟨some "articles", none, some (.str "eu")⟩],
    [("number_of_shards", .num (.integer 3))]⟩

/-- A request for the articles of a shop. -/
def articleRequest : EntityRequest :=
  ⟨shopSchema, .null, .null, .null, ⟨some "Article", some (.bool true)⟩, shopContainer, .unset,
    false⟩

/-- A request for an index that the articles share with an entity without a schema. -/
def shopRequest : ContainerRequest :=
  ⟨["a", "b"], [("a", shopSchema)], [], .null, .null, [shopContainer], [], true⟩

/-- The fields of the articles, compiled. -/
def shopFields : Json :=
  .obj [("title", .obj [("type", .str "text"), ("null_value", .str "\"untitled\"\n")]),
    ("stock", .obj [("type", .str "long"), ("ignore_above", .num (.integer 256))])]

/-- The document of an index of the shop. -/
def shopDocument (mappings : Json) : Json :=
  .obj [("settings", .obj [("number_of_shards", .num (.integer 3))]),
    ("aliases", .obj [("articles", .obj [("routing", .str "eu")])]), ("mappings", mappings)]

/-- The articles of a shop have scripts for an index of their own and for a shared one. -/
theorem script_read_back_shop :
    articleRequest.toJson.Distinct ∧ shopRequest.toJson.Distinct ∧
      (∃ d, articleRequest.document = .ok d ∧
        d.toJson = shopDocument
          (.obj [("article", .obj [("dynamic", .bool true), ("properties", shopFields)])]) ∧
        Delivers articleRequest.generate d .unset "shop" ∧
        Json.read d.toJson.pretty = .ok d.toJson) ∧
      ∃ d, shopRequest.document = .ok d ∧
        d.toJson = shopDocument (.obj [("properties", shopFields)]) ∧
        Delivers shopRequest.generate d .unset "shop" ∧
        Json.read d.toJson.pretty = .ok d.toJson := by
  have harticle : articleRequest.toJson.Distinct := by
    simp [articleRequest, shopSchema, shopContainer, EntityRequest.toJson, Entity.toJson,
      Container.toJson, Alias.toJson, Connection.toJson, Connection.unset, Json.present,
      Table.Distinct, Table.names]
  have hshop : shopRequest.toJson.Distinct := by
    simp [shopRequest, shopSchema, shopContainer, ContainerRequest.toJson, Container.toJson,
      Alias.toJson, Json.present, Table.Distinct, Table.names]
  have hintegral : ∀ mappings, Json.Integral mappings → (shopDocument mappings).Integral := by
    intro mappings hmappings
    simp [shopDocument, hmappings, Json.Number.IsWord, Json.Numeral.greatestNegated,
      Json.Numeral.greatestWord]
  have hfields : shopFields.Integral := by
    simp [shopFields, Json.Number.IsWord, Json.Numeral.greatestNegated, Json.Numeral.greatestWord]
  obtain ⟨⟨-, hentities⟩, -, hcontainers⟩ := script_read_back
  refine ⟨harticle, hshop, ?_, ?_⟩
  · obtain ⟨d, hd, hdelivers⟩ := hentities articleRequest .console _ harticle rfl
    have hjson : d.toJson = shopDocument
        (.obj [("article", .obj [("dynamic", .bool true), ("properties", shopFields)])]) := by
      obtain rfl := Except.ok.inj hd
      rfl
    refine ⟨d, hd, hjson, hdelivers, hdelivers.read_eq ?_ ?_⟩
    · rw [hjson]
      decide
    · rw [hjson]
      exact hintegral _ (by simp [hfields])
  · obtain ⟨d, hd, hdelivers⟩ := hcontainers shopRequest .curl _ hshop rfl
    have hjson : d.toJson = shopDocument (.obj [("properties", shopFields)]) := by
      obtain rfl := Except.ok.inj hd
      rfl
    refine ⟨d, hd, hjson, hdelivers, hdelivers.read_eq ?_ ?_⟩
    · rw [hjson]
      decide
    · rw [hjson]
      exact hintegral _ (by simp [hfields])

end SearchIndex.Request
