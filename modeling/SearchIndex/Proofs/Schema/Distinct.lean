import SearchIndex.Proofs.Json.Every
import SearchIndex.Proofs.Schema.Reading

/-!
# Fields of documents without repeated names

`ReadsDistinct` holds of a field that is read from a document in which no name stands twice. It is
handed down to properties and elements, whose names and attributes are then distinct as well.
-/

namespace SearchIndex.Schema.Field

/-- A document in which no name stands twice reads as the field. -/
def ReadsDistinct (f : Field) : Prop := ∃ v : Json, v.Distinct ∧ ofJson v = .ok f

namespace ReadsDistinct

/-- The members from which the field was read. -/
theorem members {f : Field} (h : f.ReadsDistinct) :
    ∃ members, ReadFrom members f ∧ Table.Distinct members ∧ ∀ e ∈ members, e.2.Distinct := by
  obtain ⟨v, hdistinct, hv⟩ := h
  obtain ⟨members, rfl, hread⟩ := readFrom_of_ofJson hv
  exact ⟨members, hread, Json.distinct_obj.1 hdistinct⟩

/-- No two properties have the same name, and each is read from a distinct document. -/
theorem properties {f : Field} (h : f.ReadsDistinct) {fs : List (String × Field)}
    (hfs : f.properties = some fs) : Table.Distinct fs ∧ ∀ e ∈ fs, e.2.ReadsDistinct := by
  obtain ⟨members, hread, -, hvalues⟩ := h.members
  obtain ⟨properties, hget, hproperties⟩ := hread.properties_eq_some hfs
  obtain ⟨hnames, hdistinct⟩ := Json.distinct_obj.1 (hvalues _ (Table.mem_of_get? hget))
  constructor
  · unfold Table.Distinct
    rw [names_of_entriesOf hproperties]
    exact hnames
  · intro e he
    obtain ⟨v, hv, hf⟩ := mem_of_entriesOf hproperties e he
    exact ⟨v, hdistinct _ hv, hf⟩

/-- The element of an array is read from a distinct document. -/
theorem item {f g : Field} (h : f.ReadsDistinct) (hg : f.item? = some g) : g.ReadsDistinct := by
  obtain ⟨members, hread, -, hvalues⟩ := h.members
  obtain ⟨v, item, hget, hitem, hread⟩ := hread.item hg
  have hv : v.Distinct := hvalues _ (Table.mem_of_get? hget)
  refine ⟨item, ?_, hread⟩
  cases v with
  | arr candidates => exact Json.distinct_arr.1 hv item (List.mem_of_mem_head? hitem)
  | _ => exact Option.some.inj hitem ▸ hv

/-- The values of attributes are distinct documents. -/
theorem attributes {f : Field} (h : f.ReadsDistinct) : ∀ e ∈ f.attributes, e.2.Distinct := by
  obtain ⟨members, hread, -, hvalues⟩ := h.members
  intro e he
  rw [hread.attributes, List.mem_filter] at he
  exact hvalues e he.1

/-- No two attributes have the same name. -/
theorem distinct_attributes {f : Field} (h : f.ReadsDistinct) : Table.Distinct f.attributes := by
  obtain ⟨members, hread, hdistinct, -⟩ := h.members
  rw [hread.attributes]
  exact List.Nodup.sublist (List.filter_sublist.map Prod.fst) hdistinct

/-- What reads from a document without any name twice was read. -/
theorem isRead {f : Field} (h : f.ReadsDistinct) : f.IsRead := by
  obtain ⟨v, -, hv⟩ := h
  exact ⟨v, hv⟩

end ReadsDistinct

end SearchIndex.Schema.Field
