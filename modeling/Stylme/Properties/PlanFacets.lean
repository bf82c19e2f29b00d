-- SUMMARY: When the search accepts the facets that the plan sanitizer lets through.
import Mathlib.Algebra.Field.Rat
import Stylme.Catalogue.Contract

/-!
# The facets of a sanitized plan

The sanitizer replaces a value by the first text of the contract that it is equal to but for
case and blanks, be it the key of an option, its label or another name. The search only
knows the keys, and only of the fields that can be filtered by.
-/

namespace Stylme

open Chat Catalogue

namespace PlanFacets

variable {K : Type} (lib : Library K) (platform : Chat.Platform) (pres : Presentation)
  (store : Store)

/-! ## What a value becomes -/

/-- The text of the contract by which the sanitizer replaces a value that is asked of a field. -/
def offered (field value : String) : Option String :=
  if field = "" then none
  else (lastWith MetadataField.key (pres.fields store) field).bind fun f =>
    optionText platform (pres.options f) (platform.toLower (trimSpace value))

section Sanitized

variable {platform pres store} {plan : SearchPlan}

theorem lookup_fieldSets_getFilters {field : String} (hfield : field ≠ "") :
    (fieldSets platform (getFilters pres store)).lookup field =
      (lastWith MetadataField.key (pres.fields store) field).map fun f =>
        optionSet platform (some (.arr (pres.options f))) := by
  have hfields : (getFilters pres store).lookup "fields" =
      some (.arr ((pres.fields store).map pres.field)) := rfl
  rw [lookup_fieldSets hfields hfield, lastWith_map, Option.map_map]
  rfl

/-- What the options of a field turn a value into. -/
theorem lookup_fieldSets_bind {field value : String} :
    ((fieldSets platform (getFilters pres store)).lookup field).bind
      (·.lookup (platform.toLower (trimSpace value))) = offered platform pres store field value := by
  unfold offered
  split_ifs with hfield
  · rw [hfield, lookup_fieldSets_empty rfl]
    rfl
  · rw [lookup_fieldSets_getFilters hfield]
    cases lastWith MetadataField.key (pres.fields store) field with
    | none => rfl
    | some f => exact lookup_optionSet

theorem mem_sanitizePlan_gender {v : String} :
    v ∈ (sanitizePlan platform plan (getFilters pres store)).gender ↔
      ∃ value ∈ plan.gender, offered platform pres store "gender" value = some v := by
  refine mem_allowedValues.trans (exists_congr fun value => and_congr_right fun _ => ?_)
  rw [← lookup_fieldSets_bind]
  cases (fieldSets platform (getFilters pres store)).lookup "gender" <;> rfl

theorem mem_sanitizePlan_size {v : String} :
    v ∈ (sanitizePlan platform plan (getFilters pres store)).size ↔
      ∃ value ∈ plan.size, offered platform pres store "size" value = some v := by
  refine mem_allowedValues.trans (exists_congr fun value => and_congr_right fun _ => ?_)
  have hsizes : (getFilters pres store).lookup "sizes" =
      some (.arr (pres.optionsOf store "size")) := rfl
  dsimp only
  rw [hsizes, lookup_optionSet, offered, if_neg (by decide), Presentation.optionsOf]
  cases lastWith MetadataField.key (pres.fields store) "size" with
  | none => rfl
  | some f => rfl

theorem mem_sanitizePlan_metadata {field v : String} :
    (∃ values, (field, values) ∈ (sanitizePlan platform plan (getFilters pres store)).metadata ∧
      v ∈ values) ↔
      ∃ values, (field, values) ∈ plan.metadata ∧
        ∃ value ∈ values, offered platform pres store field value = some v := by
  simp only [← lookup_fieldSets_bind]
  constructor
  · rintro ⟨clean, hclean, hv⟩
    obtain ⟨⟨key, values⟩, hmem, hkept⟩ := List.mem_filterMap.1 hclean
    dsimp only at hkept
    split at hkept
    case h_2 => cases hkept
    case h_1 allowed hallowed =>
      split_ifs at hkept
      obtain ⟨rfl, rfl⟩ := Prod.mk.inj (Option.some.inj hkept)
      refine ⟨values, hmem, ?_⟩
      simpa only [hallowed, Option.bind_some] using mem_allowedValues.1 hv
  · rintro ⟨values, hmem, value, hvalue, hoffered⟩
    obtain ⟨allowed, hallowed, hlookup⟩ := Option.bind_eq_some_iff.1 hoffered
    have hv := mem_allowedValues.2 ⟨value, hvalue, hlookup⟩
    refine ⟨_, List.mem_filterMap.2 ⟨(field, values), hmem, ?_⟩, hv⟩
    dsimp only
    rw [hallowed]
    exact if_pos (List.ne_nil_of_mem hv)

end Sanitized

/-! ## What the search accepts -/

/-- Every genders, sizes and metadata value of a plan is the key of an option that the search
knows for its field, and the request for the plan passes the checks. -/
structure Accepted (request : Request) (plan : SearchPlan) : Prop where
  metadata : ∀ field values, (field, values) ∈ plan.metadata → ∀ value ∈ values,
    value ∈ Catalogue.allowedValues store.filterableFields field
  gender : ∀ value ∈ plan.gender,
    value ∈ Catalogue.allowedValues store.filterableFields "gender"
  size : ∀ value ∈ plan.size, value ∈ Catalogue.allowedValues store.filterableFields "size"
  passes : checkFacets lib store (planRequest request plan) = .ok ()

/-- The text that a value becomes is the key of an active option of a field that can be
filtered by, also without outer blanks. -/
def KeyOf (field : String) (text : String) : Prop :=
  text ∈ Catalogue.allowedValues store.filterableFields field ∧
    (lib.strip text = "" ∨
      lib.strip text ∈ Catalogue.allowedValues store.filterableFields field)

/-- Whatever the plan asks of a field is a key of the field wherever the contract has a text
for it, and is read back from `field:value`. -/
structure AsksForKeys (plan : SearchPlan) : Prop where
  metadata : ∀ field values, (field, values) ∈ plan.metadata → ∀ value ∈ values,
    ∀ text, offered platform pres store field value = some text →
      text ∈ Catalogue.allowedValues store.filterableFields field ∧
        EntryKnown lib store.filterableFields (field ++ ":" ++ text)
  gender : ∀ value ∈ plan.gender, ∀ text,
    offered platform pres store "gender" value = some text → KeyOf lib store "gender" text
  size : ∀ value ∈ plan.size, ∀ text,
    offered platform pres store "size" value = some text → KeyOf lib store "size" text

section Accepted

variable {lib store}

theorem getD_taxonomyFields {request : Request} (h : request.gender ≠ [] ∨ request.metadataFilters ≠ []) :
    (taxonomyFields store request).getD [] = store.filterableFields := by
  unfold taxonomyFields
  rw [if_pos (by tauto)]
  rfl

theorem find?_of_find?_take {α : Type} {p : α → Bool} {l : List α} {n : ℕ} {a : α}
    (h : (l.take n).find? p = some a) : l.find? p = some a := by
  rw [← List.take_append_drop n l, List.find?_append, h]
  rfl

/-- The sizes that the search knows do not depend on whether the fields have been read. -/
theorem allowedSizes_taxonomyFields {request : Request}
    (h : Catalogue.allowedValues store.filterableFields "size" ≠ []) :
    allowedSizes store (taxonomyFields store request) =
      Catalogue.allowedValues store.filterableFields "size" := by
  unfold taxonomyFields
  split_ifs
  · rfl
  unfold Catalogue.allowedValues fieldOf at h ⊢
  cases hfind : store.filterableFields.find? (·.key = "size") with
  | none => exact (h (by rw [hfind]; rfl)).elim
  | some field =>
    have hfirst : store.fields.find? (fun field =>
        field.key = "size" ∧ field.status = "active" ∧ field.filterable) = some field := by
      have hwhole := find?_of_find?_take hfind
      rw [List.find?_filter] at hwhole
      exact (congrArg (store.fields.docs.find? ·) (funext fun _ => by grind)).trans hwhole
    rw [allowedSizes, hfirst]

theorem mem_metadataFilters {request : Request} {plan : SearchPlan} {entry : String} :
    entry ∈ (planRequest request plan).metadataFilters ↔
      ∃ field values, (field, values) ∈ plan.metadata ∧
        ∃ value ∈ values, field ++ ":" ++ value = entry := by
  simp [planRequest, List.mem_eraseDups]

/-- The checks on the request for a plan, field by field. -/
theorem checkFacets_planRequest_iff {request : Request} {plan : SearchPlan}
    (hsizes : Catalogue.allowedValues store.filterableFields "size" ≠ [] ∨ plan.size = []) :
    checkFacets lib store (planRequest request plan) = .ok () ↔
      (∀ value ∈ plan.gender, lib.strip value = "" ∨
        lib.strip value ∈ Catalogue.allowedValues store.filterableFields "gender") ∧
      (∀ field values, (field, values) ∈ plan.metadata → ∀ value ∈ values,
        EntryKnown lib store.filterableFields (field ++ ":" ++ value)) ∧
      ∀ value ∈ plan.size, lib.strip value = "" ∨
        lib.strip value ∈ Catalogue.allowedValues store.filterableFields "size" := by
  rw [checkFacets_eq_ok_iff, genderConditions_isOk_iff, resolveMetadataFilters_isOk_iff,
    addSizes_isOk_iff]
  have hgender : ∀ value, value ∈ (planRequest request plan).gender ↔ value ∈ plan.gender :=
    fun _ => List.mem_eraseDups
  have hsize : ∀ value, value ∈ (planRequest request plan).size ↔ value ∈ plan.size :=
    fun _ => List.mem_eraseDups
  refine and_congr ?_ (and_congr ?_ ?_)
  · refine forall_congr' fun value => ?_
    rw [hgender]
    refine forall_congr' fun hvalue => ?_
    rw [getD_taxonomyFields (.inl (List.ne_nil_of_mem ((hgender value).2 hvalue)))]
  · constructor
    · intro h field values hvalues value hvalue
      have hentry : field ++ ":" ++ value ∈ (planRequest request plan).metadataFilters :=
        mem_metadataFilters.2 ⟨field, values, hvalues, value, hvalue, rfl⟩
      have hknown := h _ hentry
      rwa [getD_taxonomyFields (.inr (List.ne_nil_of_mem hentry))] at hknown
    · intro h entry hentry
      rw [getD_taxonomyFields (.inr (List.ne_nil_of_mem hentry))]
      obtain ⟨field, values, hvalues, value, hvalue, rfl⟩ := mem_metadataFilters.1 hentry
      exact h field values hvalues value hvalue
  · simp only [hsize]
    rcases hsizes with hsizes | hnil
    · rw [allowedSizes_taxonomyFields hsizes]
      exact ⟨fun h => h hsizes, fun h _ => h⟩
    · simp [hnil]

end Accepted

section Sample

/-- The gender field, with one option whose label is not its key. -/
def genderField : MetadataField :=
  { Sample.metadataField "gender" "multi_enum" "women" with
    options := [.doc (some "women") (some "Ladies") [] (some (.bool true))] }

def labelledStore : Store :=
  { Sample.shop ∅ ∅ with fields := ⟨[genderField], by decide +kernel, by decide +kernel⟩ }

def plainPresentation : Presentation := ⟨fun _ => true, fun _ => 0, fun _ _ => []⟩

def asciiPlatform : Chat.Platform := ⟨id, String.toLower, 0⟩

/-- The model asks for the label, in lower case. -/
def labelPlan : SearchPlan := { gender := ["ladies"] }

def sampleRequest : Request := { sortBy := "relevance", order := "desc", radiusKm := 100 }

end Sample

end PlanFacets

end Stylme
