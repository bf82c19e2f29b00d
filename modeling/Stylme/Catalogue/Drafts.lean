-- SUMMARY: Product drafts, the checks on their ranges, and the documents that an approval writes.
import Mathlib.Algebra.Order.Ring.Unbundled.Rat
import Stylme.Lib.Extrema
import Stylme.Catalogue.Query

/-!
# Drafts

A seller describes a product with its variants and its stock. Approving the draft
turns it into a product and an offer; the ranges of the variants are summed up as
bounds of the offer.
-/

namespace Stylme

open Conc Backend

namespace Catalogue

/-! ## Ranges -/

/-- `Field(ge=low, le=high)` on an optional number. -/
def inField (low high : ℚ) (v : Option ℚ) : Bool := v.all fun x => low ≤ x ∧ x ≤ high

/-- `a > b` of two numbers -/
def exceeds : Option ℚ → Option ℚ → Bool
  | some a, some b => b < a
  | _, _ => false

structure FitRangeInput where
  applicable : Bool
  minHeightCm : Option ℚ
  maxHeightCm : Option ℚ
  minWeightKg : Option ℚ
  maxWeightKg : Option ℚ

namespace FitRangeInput

def fields (r : FitRangeInput) : List (Option ℚ) :=
  [r.minHeightCm, r.maxHeightCm, r.minWeightKg, r.maxWeightKg]

def validateBounds (r : FitRangeInput) : Except String Unit :=
  if r.applicable ∧ r.fields.any (·.isNone) then
    .error "Applicable fit ranges require all height/weight bounds"
  else if ¬ r.applicable ∧ r.fields.any (·.isSome) then
    .error "Non-applicable fit ranges must use null bounds"
  else if r.applicable ∧ exceeds r.minHeightCm r.maxHeightCm then
    .error "Minimum height cannot exceed maximum height"
  else if r.applicable ∧ exceeds r.minWeightKg r.maxWeightKg then
    .error "Minimum weight cannot exceed maximum weight"
  else .ok ()

/-- The model accepts the range. -/
structure Valid (r : FitRangeInput) : Prop where
  heights : inField 40 260 r.minHeightCm ∧ inField 40 260 r.maxHeightCm
  weights : inField 2 400 r.minWeightKg ∧ inField 2 400 r.maxWeightKg
  bounds : r.validateBounds = .ok ()

end FitRangeInput

structure AgeRangeInput where
  applicable : Bool
  minAge : Option ℚ
  maxAge : Option ℚ

namespace AgeRangeInput

def validateBounds (r : AgeRangeInput) : Except String Unit :=
  if r.applicable ∧ (r.minAge.isNone ∨ r.maxAge.isNone) then
    .error "Applicable age ranges require minimum and maximum ages"
  else if ¬ r.applicable ∧ (r.minAge.isSome ∨ r.maxAge.isSome) then
    .error "Non-applicable age ranges must use null bounds"
  else if r.applicable ∧ exceeds r.minAge r.maxAge then
    .error "Minimum age cannot exceed maximum age"
  else .ok ()

/-- The model accepts the range. -/
structure Valid (r : AgeRangeInput) : Prop where
  ages : inField 0 110 r.minAge ∧ inField 0 110 r.maxAge
  bounds : r.validateBounds = .ok ()

end AgeRangeInput

/-! ## Drafts -/

/-- A variant, with ranges that the model has accepted. -/
structure VariantInput where
  id : String
  sku : String
  sizeKey : String
  colorID : ObjectId
  fitRange : FitRangeInput
  ageRange : AgeRangeInput
  fit_valid : fitRange.Valid
  age_valid : ageRange.Valid

structure InventoryInput where
  variantID : String
  locationID : ObjectId
  availableQty : ℕ
  active : Bool

/-- The content of a document of `product_drafts`. -/
structure Draft where
  id : ObjectId
  sellerID : ObjectId
  brandID : ObjectId
  source : Option String
  title : String
  description : String
  categoryKey : String
  productTypeKey : String
  genderKeys : List String
  metadata : Document
  salePricePaise : ℕ
  variants : List VariantInput
  inventory : List InventoryInput
  media : List Media := []

/-! ## Bounds -/

/-- `_fit_bounds` -/
def fitBounds (variants : List VariantInput) : FitBounds :=
  let applicable := (variants.map (·.fitRange)).filter (·.applicable)
  if applicable = [] then ⟨false, none, none, none, none⟩
  else {
    applicable := true
    minHeightCm := (applicable.filterMap (·.minHeightCm)).min?
    maxHeightCm := (applicable.filterMap (·.maxHeightCm)).max?
    minWeightKg := (applicable.filterMap (·.minWeightKg)).min?
    maxWeightKg := (applicable.filterMap (·.maxWeightKg)).max? }

/-- `_age_bounds` -/
def ageBounds (variants : List VariantInput) : AgeBounds :=
  let applicable := (variants.map (·.ageRange)).filter (·.applicable)
  if applicable = [] then ⟨false, none, none⟩
  else {
    applicable := true
    minAge := (applicable.filterMap (·.minAge)).min?
    maxAge := (applicable.filterMap (·.maxAge)).max? }

/-! ## Documents -/

/-- `inventory` -/
def InventoryInput.row (item : InventoryInput) : InventoryRow :=
  ⟨item.variantID, item.locationID, item.availableQty, item.active⟩

namespace Draft

def rows (draft : Draft) : List InventoryRow := draft.inventory.map (·.row)

/-- `draft.get("source") or "manual_seller"` -/
def sourceName (draft : Draft) : String :=
  match draft.source with
  | some source => if source = "" then "manual_seller" else source
  | none => "manual_seller"

variable (idText : ObjectId → String)

/-- `f"draft:{draft_id}"` -/
def sourceProductID (draft : Draft) : String := "draft:" ++ idText draft.id

/-- `f"MANUAL-{str(draft_id).upper()}"` -/
def offerCode (draft : Draft) : String := "MANUAL-" ++ (idText draft.id).toUpper

/-- `product_document` as the product with this identifier, created at `createdAt`. -/
def productDocument (draft : Draft) (colors : List Color) (metadataText : String) (id : ObjectId)
    (createdAt : Time) : Product where
  id
  source := draft.sourceName
  sourceProductID := draft.sourceProductID idText
  brandID := draft.brandID
  title := draft.title
  description := draft.description
  searchText := " ".intercalate
    [draft.title, draft.description, draft.categoryKey, draft.productTypeKey, metadataText]
  status := "active"
  visibility := "public"
  categoryKey := some draft.categoryKey
  productTypeKey := some draft.productTypeKey
  genderKeys := some draft.genderKeys
  metadata := draft.metadata
  colorPalette := colors.map (·.familyKeys)
  rating := ⟨0, 0⟩
  catalogueEligible := draft.rows.any (·.stocked)
  catalogueMinPricePaise := some draft.salePricePaise
  createdAt
  media := draft.media

/-- `offer_document` as the offer with this identifier. -/
def offerDocument (draft : Draft) (colors : List Color) (productID id : ObjectId) : Offer where
  id
  offerCode := draft.offerCode idText
  productID
  sellerID := draft.sellerID
  status := "active"
  salePricePaise := draft.salePricePaise
  inventory := draft.rows
  fitBounds := some (fitBounds draft.variants)
  ageBounds := some (ageBounds draft.variants)
  availableSizeKeys := (draft.variants.map (·.sizeKey)).eraseDups.insertionSort (· ≤ ·)
  availableColorIDs := (draft.variants.map (·.colorID)).eraseDups
  availableColorFamilyKeys := (colors.flatMap (·.familyKeys)).eraseDups.insertionSort (· ≤ ·)
  locationIDs := (draft.inventory.map (·.locationID)).eraseDups

end Draft

namespace Sample

def anyFit : FitRangeInput := ⟨false, none, none, none, none⟩

theorem anyFit_valid : anyFit.Valid := ⟨by decide, by decide, rfl⟩

/-- One size for everybody. -/
def freeSize : VariantInput :=
  ⟨"free", "sku-free", "free", 1, anyFit, ⟨false, none, none⟩, anyFit_valid, ⟨by decide, rfl⟩⟩

/-- A draft of a shawl in stock. -/
def shawlDraft : Draft where
  id := 7
  sellerID := 1
  brandID := 1
  source := none
  title := "Shawl"
  description := "A woollen shawl"
  categoryKey := "accessories"
  productTypeKey := "shawl"
  genderKeys := []
  metadata := []
  salePricePaise := 50000
  variants := [freeSize]
  inventory := [⟨"free", 1, 3, true⟩]

end Sample

end Catalogue

end Stylme
