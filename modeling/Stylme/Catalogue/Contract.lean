-- SUMMARY: The filter contract that the catalogue publishes, and the facets of a request that it is to describe.
import Stylme.Catalogue.Query
import Stylme.Chat.Options

/-!
# The filter contract

`get_filters` publishes the fields that the frontend shows with their active options, whether
or not a listing request may filter by them.
-/

namespace Stylme

open Conc Backend

namespace Catalogue

/-! ## Publishing the taxonomy -/

/-- What documents of `metadata_fields` hold for the frontend. -/
structure Presentation where
  frontendVisible : MetadataField → Bool
  sortOrder : MetadataField → ℤ
  /-- The further members of an element of `options`, by its position -/
  members : MetadataField → ℕ → Document

def optionalText (text : Option String) : Json := text.elim .null .str

/-- The members of an option that `OptionDoc` has. -/
def optionMembers : List String := ["key", "label", "aliases", "active"]

/-- `mongo_json(option)` -/
def OptionDoc.json (members : Document) : OptionDoc → Json
  | text key => .str key
  | doc key label aliases active =>
    .obj ((key.elim [] fun key => [("key", .str key)]) ++
      (label.elim [] fun label => [("label", .str label)]) ++
      [("aliases", .arr (aliases.map .str))] ++ (active.elim [] fun active => [("active", active)]) ++
      members.filter (·.1 ∉ optionMembers))

variable (pres : Presentation)

/-- The `options` of a field in the contract. -/
def Presentation.options (field : MetadataField) : List Json :=
  (field.options.zipIdx.filter (·.1.enabled)).map fun (option, i) =>
    option.json (pres.members field i)

/-- A field as `taxonomy_contract` shows it. -/
def Presentation.field (field : MetadataField) : Json :=
  .obj [("key", .str field.key), ("label", .str (field.label.getD field.key)),
    ("dataType", optionalText field.dataType), ("storage", optionalText field.storage),
    ("storagePath", optionalText field.storagePath), ("options", .arr (pres.options field)),
    ("filterable", .bool field.filterable), ("searchable", .bool field.searchable),
    ("aiAllowed", .bool field.geminiAllowed), ("frontendVisible", .bool (pres.frontendVisible field))]

/-- The fields of `taxonomy_contract` -/
def Presentation.fields (store : Store) : List MetadataField :=
  ((store.fields.docs.filter fun field =>
      field.status = "active" ∧ pres.frontendVisible field).insertionSort fun a b =>
    pres.sortOrder a < pres.sortOrder b ∨
      (pres.sortOrder a = pres.sortOrder b ∧ a.key ≤ b.key)).take 500

/-- `(field_map.get(key) or {}).get("options") or []` -/
def Presentation.optionsOf (store : Store) (key : String) : List Json :=
  (Chat.lastWith MetadataField.key (pres.fields store) key).elim [] pres.options

/-- `get_filters`, of which the brands, the colours and the prices are left out. -/
def getFilters (store : Store) : Document :=
  [("fields", .arr ((pres.fields store).map pres.field)),
    ("categories", .arr (pres.optionsOf store "category")),
    ("productTypes", .arr (pres.optionsOf store "product_type")),
    ("sizes", .arr (pres.optionsOf store "size"))]

/-! ## Checking facets -/

section Facets

variable {K : Type} (lib : Library K) (store : Store)

/-- The request of `advanced_search` for the facets of a plan, the rest of it as given. -/
def planRequest (request : Request) (plan : Chat.SearchPlan) : Request :=
  { request with
    size := plan.size.eraseDups
    gender := plan.gender.eraseDups
    metadataFilters := plan.metadata.flatMap fun (field, values) =>
      values.eraseDups.map fun value => field ++ ":" ++ value }

/-- The checks of `list_public_products` on genders, metadata filters and sizes. -/
def checkFacets (request : Request) : Except Exit Unit := do
  let taxonomy := taxonomyFields store request
  let fields := taxonomy.getD []
  let _ ← genderConditions lib fields request.gender
  let _ ← resolveMetadataFilters lib fields request.metadataFilters
  let _ ← addSizes lib store taxonomy request.size {}
  return ()

/-- A metadata filter that the taxonomy knows. -/
def EntryKnown (fields : List MetadataField) (entry : String) : Prop :=
  ∃ key value, splitEntry entry = some (key, value) ∧
    ((fieldOf fields (lib.strip key)).bind (·.storage) = some "product_metadata" ∨
      (fieldOf fields (lib.strip key)).bind (·.storage) = some "offer") ∧
    lib.strip value ∈ allowedValues fields (lib.strip key)

variable {lib store} {fields : List MetadataField}

theorem mem_cleanValues {values : List String} {value : String} :
    value ∈ cleanValues lib values ↔ value ≠ "" ∧ ∃ raw ∈ values, lib.strip raw = value := by
  unfold cleanValues
  rw [List.mem_eraseDups, List.mem_filter, List.mem_map, decide_eq_true_eq, and_comm]

/-- The values of a facet that remain without blanks are all known. -/
theorem forall_mem_cleanValues {values allowed : List String} :
    (∀ value ∈ cleanValues lib values, value ∈ allowed) ↔
      ∀ value ∈ values, lib.strip value = "" ∨ lib.strip value ∈ allowed := by
  constructor
  · intro h value hvalue
    by_cases hblank : lib.strip value = ""
    · exact .inl hblank
    · exact .inr (h _ (mem_cleanValues.2 ⟨hblank, value, hvalue, rfl⟩))
  · intro h value hvalue
    obtain ⟨hne, raw, hraw, rfl⟩ := mem_cleanValues.1 hvalue
    exact (h raw hraw).resolve_left hne

theorem genderConditions_isOk_iff {gender : List String} :
    (∃ conditions, genderConditions lib fields gender = .ok conditions) ↔
      ∀ value ∈ gender, lib.strip value = "" ∨ lib.strip value ∈ allowedValues fields "gender" := by
  rw [← forall_mem_cleanValues, ← unknownValues_eq_nil_iff]
  unfold genderConditions
  dsimp only
  split_ifs with hnil hunknown
  · subst hnil
    simp [cleanValues, unknownValues]
  · simp [hunknown]
  · simp [of_not_not hunknown]

theorem addMetadataFilter_isOk_iff {filters : MetadataFilters} {entry : String} :
    (∃ filters', addMetadataFilter lib fields filters entry = .ok filters') ↔
      EntryKnown lib fields entry := by
  unfold addMetadataFilter EntryKnown
  cases splitEntry entry with
  | none => simp
  | some part =>
    obtain ⟨key, value⟩ := part
    dsimp only
    by_cases hstorage : (fieldOf fields (lib.strip key)).bind (·.storage) = some "product_metadata" ∨
        (fieldOf fields (lib.strip key)).bind (·.storage) = some "offer"
    · rw [if_neg fun h => hstorage.elim h.1 h.2]
      by_cases hvalue : lib.strip value ∈ allowedValues fields (lib.strip key)
      · rw [if_neg (not_not_intro hvalue)]
        split_ifs <;> simp [hstorage, hvalue]
      · rw [if_pos hvalue]
        simp [hvalue]
    · rw [if_pos (not_or.1 hstorage)]
      simp [not_or.1 hstorage]

theorem resolveMetadataFilters_isOk_iff {entries : List String} :
    (∃ filters, resolveMetadataFilters lib fields entries = .ok filters) ↔
      ∀ entry ∈ entries, EntryKnown lib fields entry :=
  exists_foldlM_eq_ok_iff (I := fun _ => True) trivial (fun _ _ _ _ _ _ => trivial)
    fun _ _ _ => addMetadataFilter_isOk_iff

theorem addSizes_isOk_iff {taxonomy : Option (List MetadataField)} {size : List String}
    {filters : OfferFilters} :
    (∃ filters', addSizes lib store taxonomy size filters = .ok filters') ↔
      (allowedSizes store taxonomy ≠ [] → ∀ value ∈ size,
        lib.strip value = "" ∨ lib.strip value ∈ allowedSizes store taxonomy) := by
  rw [← forall_mem_cleanValues, ← unknownValues_eq_nil_iff]
  unfold addSizes
  dsimp only
  split_ifs with hnil hallowed hunknown hunknown
  · subst hnil
    simp [cleanValues, unknownValues]
  · simp [hunknown, hallowed]
  · simp [of_not_not hunknown]
  · exact (hunknown rfl).elim
  · simp [hallowed]

/-- The three checks pass if each of them does. -/
theorem checkFacets_eq_ok_iff {request : Request} :
    checkFacets lib store request = .ok () ↔
      (∃ conditions, genderConditions lib ((taxonomyFields store request).getD []) request.gender =
        .ok conditions) ∧
      (∃ filters, resolveMetadataFilters lib ((taxonomyFields store request).getD [])
        request.metadataFilters = .ok filters) ∧
      ∃ filters, addSizes lib store (taxonomyFields store request) request.size {} = .ok filters := by
  unfold checkFacets
  simp only [bind_eq_ok]
  constructor
  · rintro ⟨conditions, hgender, metadata, hmetadata, sizes, hsizes, -⟩
    exact ⟨⟨conditions, hgender⟩, ⟨metadata, hmetadata⟩, ⟨sizes, hsizes⟩⟩
  · rintro ⟨⟨conditions, hgender⟩, ⟨metadata, hmetadata⟩, ⟨sizes, hsizes⟩⟩
    exact ⟨conditions, hgender, metadata, hmetadata, sizes, hsizes, rfl⟩

end Facets

end Catalogue

end Stylme
