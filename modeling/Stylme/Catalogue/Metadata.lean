-- SUMMARY: The validation of product metadata against the taxonomy, and the metadata that it accepts.
import Mathlib.Data.List.Dedup
import Stylme.Lib.Fallible
import Stylme.Catalogue.Query

/-!
# Product metadata

`metadata_service.py` checks a product's classification and its metadata against the
active taxonomy fields. What a field accepts depends on its data type; a field of a
type that is not checked accepts every value.
-/

namespace Stylme

open Conc Backend

namespace Catalogue

/-- The error that a failed check raises. -/
structure Refusal where
  statusCode : ℕ
  message : String
  values : List String := []

/-! ## Values -/

/-- A string of a JSON value. -/
def text? : Json → Option String
  | .str s => some s
  | _ => none

/-- The elements of a list of strings. -/
def textItems? : Json → Option (List String)
  | .arr items => if items.all (text? · |>.isSome) then some (items.filterMap text?) else none
  | _ => none

def isNumeric : Json → Bool
  | .num _ | .bool _ => true
  | _ => false

def isBoolean : Json → Bool
  | .bool _ => true
  | _ => false

/-- `_option_keys` -/
def MetadataField.optionKeys (field : MetadataField) : List String :=
  (field.options.filter fun option => option.enabled ∧ (option.key?.getD "") ≠ "").map (·.keyText)

/-- `sorted(set(value) - options) if options else []` -/
def invalidOptions (options values : List String) : List String :=
  if options = [] then [] else unknownValues values options

/-- `_validate_enum_values` -/
def validateEnumValues (field : MetadataField) (value : Json) (path : String) :
    Except Refusal Json :=
  if field.dataType = some "multi_enum" then
    match textItems? value with
    | none => .error ⟨422, path ++ " must be a string array", []⟩
    | some items =>
      if ¬ items.Nodup then .error ⟨422, path ++ " contains duplicates", []⟩
      else if field.maxSelections.any (· < (items.length : Int)) then
        .error ⟨422, path ++ " allows at most " ++ toString (field.maxSelections.getD 0) ++ " values", []⟩
      else if invalidOptions field.optionKeys items ≠ [] then
        .error ⟨422, path ++ " contains unknown options", invalidOptions field.optionKeys items⟩
      else .ok value
  else if field.dataType = some "enum" then
    match text? value with
    | none => .error ⟨422, path ++ " must be a string", []⟩
    | some s =>
      if field.optionKeys ≠ [] ∧ s ∉ field.optionKeys then
        .error ⟨422, path ++ " contains an unknown option", [s]⟩
      else .ok value
  else if field.dataType = some "text" ∧ (text? value).isNone then
    .error ⟨422, path ++ " must be text", []⟩
  else if field.dataType = some "number" ∧ ¬ isNumeric value then
    .error ⟨422, path ++ " must be numeric", []⟩
  else if field.dataType = some "boolean" ∧ ¬ isBoolean value then
    .error ⟨422, path ++ " must be boolean", []⟩
  else .ok value

/-! ## Products -/

/-- `active_fields` -/
def Store.activeFields (store : Store) : List MetadataField :=
  (store.fields.docs.filter (·.status = "active")).take 500

/-- The classification of a product: `category_key`, `product_type_key` and `gender_keys`. -/
structure Classification where
  categoryKey : Option String
  productTypeKey : Option String
  genderKeys : Option (List String)

/-- `core_values` -/
def Classification.coreValues (c : Classification) : List (String × Option Json) :=
  [("category", c.categoryKey.map .str), ("product_type", c.productTypeKey.map .str),
    ("gender", c.genderKeys.map fun keys => .arr (keys.map .str))]

section Validate

variable (jsonSize : Document → ℕ) (fields : List MetadataField)

/-- One turn of the loop over `core_values`. -/
def validateCore (aiOnly : Bool) : String × Option Json → Except Refusal Unit
  | (_, none) => .ok ()
  | (key, some value) =>
    match fieldOf fields key with
    | none => .error ⟨503, "Controlled field " ++ key ++ " is unavailable", []⟩
    | some field =>
      if aiOnly ∧ ¬ field.geminiAllowed then .error ⟨422, "AI cannot propose " ++ key, []⟩
      else
        let path := if field.storagePath.getD "" = "" then key else field.storagePath.getD ""
        (validateEnumValues field value path).map fun _ => ()

/-- One turn of the loop over the metadata. -/
def validateEntry (aiOnly : Bool) : String × Json → Except Refusal (String × Json)
  | (key, value) =>
    if key.startsWith "$" ∨ '.' ∈ key.toList then .error ⟨422, "Invalid metadata key", []⟩
    else
      match fieldOf fields key with
      | none => .error ⟨422, "Unknown product metadata field", [key]⟩
      | some field =>
        if field.storage ≠ some "product_metadata" then
          .error ⟨422, "Unknown product metadata field", [key]⟩
        else if aiOnly ∧ ¬ field.geminiAllowed then
          .error ⟨422, "AI cannot propose metadata." ++ key, []⟩
        else (validateEnumValues field value ("metadata." ++ key)).map fun value => (key, value)

/-- `validate_product_metadata`; `jsonSize` is the length of the compact JSON text in UTF-8. -/
def validateProductMetadata (c : Classification) (metadata : Document) (isPartial aiOnly : Bool) :
    Except Refusal Document := do
  if ¬ isPartial ∧ c.coreValues.any (·.2.isNone) then
    throw ⟨422, "Product classification is incomplete", []⟩
  else
    c.coreValues.forM (validateCore fields aiOnly)
    let clean ← metadata.mapM (validateEntry fields aiOnly)
    if 32768 < jsonSize clean then throw ⟨422, "Product metadata exceeds 32 KB", []⟩ else return clean

/-- The metadata of the product passes the check, as it does before a product is written. -/
def Validated (p : Product) : Prop :=
  ∃ clean, validateProductMetadata jsonSize fields ⟨p.categoryKey, p.productTypeKey, p.genderKeys⟩
    p.metadata false false = .ok clean

end Validate

/-! ## What is accepted -/

/-- The values that a field accepts. -/
def MetadataField.Admits (field : MetadataField) (value : Json) : Prop :=
  if field.dataType = some "multi_enum" then
    ∃ items : List String, value = .arr (items.map .str) ∧ items.Nodup ∧
      (∀ n ∈ field.maxSelections, (items.length : Int) ≤ n) ∧
      (field.optionKeys ≠ [] → ∀ item ∈ items, item ∈ field.optionKeys)
  else if field.dataType = some "enum" then
    ∃ s, value = .str s ∧ (field.optionKeys ≠ [] → s ∈ field.optionKeys)
  else if field.dataType = some "text" then ∃ s, value = .str s
  else if field.dataType = some "number" then isNumeric value
  else if field.dataType = some "boolean" then isBoolean value
  else True

theorem text?_eq_some {v : Json} {s : String} : text? v = some s ↔ v = .str s := by
  cases v <;> simp [text?]

theorem textItems?_eq_some {v : Json} {l : List String} :
    textItems? v = some l ↔ v = .arr (l.map .str) := by
  constructor
  · intro h
    cases v with
    | arr items =>
      simp only [textItems?] at h
      split at h
      · rename_i hall
        obtain rfl := Option.some.inj h
        clear h
        refine congrArg Json.arr ?_
        induction items with
        | nil => rfl
        | cons item items ih =>
          rw [List.all_cons, Bool.and_eq_true] at hall
          obtain ⟨s, hs⟩ := Option.isSome_iff_exists.1 hall.1
          rw [List.filterMap_cons_some hs, List.map_cons, ← ih hall.2, text?_eq_some.1 hs]
      · cases h
    | _ => cases h
  · rintro rfl
    have hall : (l.map Json.str).all (text? · |>.isSome) := by simp [text?]
    have hitems : (l.map Json.str).filterMap text? = l := by
      rw [List.filterMap_map]
      exact List.filterMap_some
    rw [textItems?, if_pos hall, hitems]

theorem invalidOptions_eq_nil {options values : List String} :
    invalidOptions options values = [] ↔ (options ≠ [] → ∀ v ∈ values, v ∈ options) := by
  unfold invalidOptions
  split
  · rename_i hnil
    simp [hnil]
  · rename_i hne
    rw [unknownValues_eq_nil_iff]
    exact ⟨fun h _ => h, fun h => h hne⟩

theorem arr_map_str_inj {l l' : List String} : Json.arr (l.map .str) = .arr (l'.map .str) ↔ l = l' := by
  rw [Json.arr.injEq]
  exact (List.map_injective_iff.2 fun _ _ => Json.str.inj).eq_iff

theorem isSome_text? {v : Json} : (text? v).isSome ↔ ∃ s, v = .str s := by
  simp only [Option.isSome_iff_exists, text?_eq_some]

/-- The check of a value passes exactly for the values that the field accepts, and returns them. -/
theorem validateEnumValues_eq_ok {field : MetadataField} {value value' : Json} {path : String} :
    validateEnumValues field value path = .ok value' ↔ field.Admits value ∧ value' = value := by
  have hok : ∀ v : Json, (.ok v : Except Refusal Json) = .ok value' ↔ value' = v := fun v => by
    rw [Except.ok.injEq, eq_comm]
  unfold validateEnumValues MetadataField.Admits
  by_cases hmulti : field.dataType = some "multi_enum"
  · rw [if_pos hmulti, if_pos hmulti]
    cases hitems : textItems? value with
    | none =>
      refine iff_of_false nofun ?_
      rintro ⟨⟨items, rfl, -⟩, -⟩
      rw [textItems?_eq_some.2 rfl] at hitems
      cases hitems
    | some items =>
      obtain rfl := textItems?_eq_some.1 hitems
      have hlimit : (field.maxSelections.any (· < (items.length : Int)) = true) ↔
          ¬ ∀ n ∈ field.maxSelections, (items.length : Int) ≤ n := by
        cases field.maxSelections <;> simp
      simp only [arr_map_str_inj, exists_eq_left', ← invalidOptions_eq_nil]
      split_ifs with hdup hover hinvalid
      · exact iff_of_false nofun fun h => hlimit.1 hover h.1.2.1
      · exact iff_of_false nofun fun h => hinvalid h.1.2.2
      · rw [hok, and_iff_right ⟨hdup, not_not.1 (mt hlimit.2 hover), not_not.1 hinvalid⟩]
      · exact iff_of_false nofun fun h => hdup h.1.1
  rw [if_neg hmulti, if_neg hmulti]
  by_cases henum : field.dataType = some "enum"
  · rw [if_pos henum, if_pos henum]
    cases hs : text? value with
    | none =>
      refine iff_of_false nofun ?_
      rintro ⟨⟨s, rfl, -⟩, -⟩
      cases hs
    | some s =>
      obtain rfl := text?_eq_some.1 hs
      simp only [Json.str.injEq, exists_eq_left']
      split_ifs with hunknown
      · exact iff_of_false nofun fun h => hunknown.2 (h.1 hunknown.1)
      · rw [hok, and_iff_right fun hne => not_not.1 fun hnot => hunknown ⟨hne, hnot⟩]
  rw [if_neg henum, if_neg henum, ← isSome_text?]
  by_cases htext : field.dataType = some "text"
  · cases text? value <;> simp [htext, hok]
  by_cases hnumber : field.dataType = some "number"
  · cases isNumeric value <;> simp [hnumber, hok]
  by_cases hboolean : field.dataType = some "boolean"
  · cases isBoolean value <;> simp [hboolean, hok]
  · simp [htext, hnumber, hboolean, hok]

/-! ## Validated products -/

section Validated

variable {jsonSize : Document → ℕ} {fields : List MetadataField}

/-- The entry belongs to a product field of the taxonomy, which accepts its value. -/
def EntryAdmitted (fields : List MetadataField) (entry : String × Json) : Prop :=
  ¬ entry.1.startsWith "$" ∧ '.' ∉ entry.1.toList ∧ ∃ field, fieldOf fields entry.1 = some field ∧
    field.storage = some "product_metadata" ∧ field.Admits entry.2

/-- The entries that pass are those of fields that are kept with the product. -/
theorem validateEntry_eq_ok {entry entry' : String × Json} :
    validateEntry fields false entry = .ok entry' ↔
      EntryAdmitted fields entry ∧ entry = entry' := by
  obtain ⟨key, value⟩ := entry
  unfold validateEntry EntryAdmitted
  dsimp only
  split_ifs with hkey
  · exact iff_of_false nofun fun h => hkey.elim h.1.1 h.1.2.1
  rw [not_or] at hkey
  cases hfield : fieldOf fields key with
  | none =>
    refine iff_of_false nofun ?_
    rintro ⟨⟨-, -, field, ⟨⟩, -⟩, -⟩
  | some field =>
    dsimp only
    split_ifs with hstorage hai
    · refine iff_of_false nofun ?_
      rintro ⟨⟨-, -, _, ⟨⟩, h, -⟩, -⟩
      exact hstorage h
    · exact hai.1.elim
    · rw [map_eq_ok]
      simp only [validateEnumValues_eq_ok, Option.some.injEq, exists_eq_left']
      constructor
      · rintro ⟨value', ⟨hadmits, rfl⟩, rfl⟩
        exact ⟨⟨hkey.1, hkey.2, not_not.1 hstorage, hadmits⟩, rfl⟩
      · rintro ⟨⟨-, -, -, hadmits⟩, rfl⟩
        exact ⟨value, ⟨hadmits, rfl⟩, rfl⟩

theorem validateCore_eq_ok {core : String × Option Json} :
    validateCore fields false core = .ok () ↔
      ∀ value ∈ core.2, ∃ field, fieldOf fields core.1 = some field ∧ field.Admits value := by
  obtain ⟨key, value⟩ := core
  cases value with
  | none => simp [validateCore]
  | some value =>
    cases hfield : fieldOf fields key with
    | none => simp [validateCore, hfield]
    | some field =>
      simp [validateCore, hfield, map_eq_ok, validateEnumValues_eq_ok]

/-- The classification names known values of the controlled fields. -/
def Classified (fields : List MetadataField) (c : Classification) : Prop :=
  ∀ core ∈ c.coreValues, ∃ value field, core.2 = some value ∧ fieldOf fields core.1 = some field ∧
    field.Admits value

theorem classified_iff {c : Classification} : Classified fields c ↔
    ¬ c.coreValues.any (·.2.isNone) ∧ c.coreValues.forM (validateCore fields false) = .ok () := by
  simp only [Classified, forM_eq_ok_iff, validateCore_eq_ok, List.any_eq_true, not_exists, not_and,
    ← forall_and]
  refine forall_congr' fun core => imp_congr_right fun _ => ?_
  cases core.2 <;> simp

/-- The check of a product's metadata passes exactly for what the taxonomy admits. -/
theorem validated_iff {p : Product} : Validated jsonSize fields p ↔
    Classified fields ⟨p.categoryKey, p.productTypeKey, p.genderKeys⟩ ∧
      (∀ entry ∈ p.metadata, EntryAdmitted fields entry) ∧ jsonSize p.metadata ≤ 32768 := by
  have hentries : ∀ clean, p.metadata.mapM (validateEntry fields false) = .ok clean ↔
      (∀ entry ∈ p.metadata, EntryAdmitted fields entry) ∧ p.metadata = clean := by
    intro clean
    rw [mapM_eq_ok_iff]
    simp only [validateEntry_eq_ok]
    rw [List.forall₂_and_left, List.forall₂_eq_eq_eq]
  rw [classified_iff, Validated]
  simp only [validateProductMetadata, Bool.false_eq_true, not_false_eq_true, true_and]
  split
  case isTrue hincomplete => exact iff_of_false (fun ⟨_, h⟩ => nomatch h) fun h => h.1.1 hincomplete
  case isFalse hcomplete =>
    rw [and_iff_right hcomplete]
    constructor
    · rintro ⟨clean, h⟩
      obtain ⟨_, hcore, h⟩ := bind_eq_ok.1 h
      obtain ⟨clean', hclean, h⟩ := bind_eq_ok.1 h
      obtain ⟨hadmitted, rfl⟩ := (hentries clean').1 hclean
      refine ⟨hcore, hadmitted, not_lt.1 fun hlong => ?_⟩
      rw [if_pos hlong] at h
      cases h
    · rintro ⟨hcore, hadmitted, hshort⟩
      refine ⟨p.metadata, bind_eq_ok.2 ⟨(), hcore, bind_eq_ok.2 ⟨_, (hentries _).2 ⟨hadmitted, rfl⟩, ?_⟩⟩⟩
      rw [if_neg (not_lt.2 hshort)]
      rfl

end Validated

end Catalogue

end Stylme
