-- SUMMARY: The advanced search: from a shopper's choice and the inferred intent to a listing, or to a fallback shelf.
import Stylme.Catalogue.Storefront

/-!
# Advanced search

`advanced_search` merges what the shopper chose with the intent that the search
text implies and with the shopper's profile. When nothing is found it shows a
fallback shelf: the first of four broader requests that finds something.
-/

namespace Stylme

open Conc Backend

namespace Catalogue

/-- `AdvancedSearchRequest` -/
structure SearchPayload where
  query : String
  lexicalQuery : Option String := none
  page : ℕ := 1
  pageSize : ℕ := 12
  brand : List String := []
  category : List String := []
  productType : List String := []
  colour : List String := []
  size : List String := []
  gender : List String := []
  profileGender : List String := []
  profileAge : Option ℚ := none
  profileHeightCm : Option ℚ := none
  profileWeightKg : Option ℚ := none
  metadata : List (String × List String) := []
  minPrice : Option ℚ := none
  maxPrice : Option ℚ := none
  minAge : Option ℚ := none
  maxAge : Option ℚ := none
  minHeightCm : Option ℚ := none
  maxHeightCm : Option ℚ := none
  minWeightKg : Option ℚ := none
  maxWeightKg : Option ℚ := none
  sort : CatalogSort := .recommended
  pincode : Option String := none
  swoopstyl : Bool := false
  radiusKm : ℚ := 100

/-- What `compile_search_intent` infers from the text of a search. -/
structure Intent where
  lexicalQuery : Option String := none
  brand : List String := []
  category : List String := []
  productType : List String := []
  colour : List String := []
  size : List String := []
  gender : List String := []
  metadata : List (String × List String) := []
  minPrice : Option ℚ := none
  maxPrice : Option ℚ := none
  minAge : Option ℚ := none
  maxAge : Option ℚ := none
  minHeightCm : Option ℚ := none
  maxHeightCm : Option ℚ := none
  minWeightKg : Option ℚ := none
  maxWeightKg : Option ℚ := none
  sort : Option CatalogSort := none
  pincode : Option String := none
  swoopstyl : Bool := false
  /-- `field`, `value` and `weight` of the signals -/
  rankingVector : List (String × String × ℚ) := []

/-! ## Profile -/

/-- `measurement_band` -/
def measurementBand (width : ℕ) (value : ℚ) : ℚ × ℚ :=
  let minimum : ℚ := (value / width).floor * width
  (minimum, minimum + width)

/-- The departments that a preference stands for at some age. -/
def departments (age : Option ℤ) (value : String) : List String :=
  let adult := age.all (13 ≤ ·)
  let child := age.all (· ≤ 14)
  if value = "unspecified" then []
  else if value ∈ ["women", "girls"] then
    (if adult then ["women"] else []) ++ (if child then ["girls", "kids"] else []) ++ ["unisex"]
  else if value ∈ ["men", "boys"] then
    (if adult then ["men"] else []) ++ (if child then ["boys", "kids"] else []) ++ ["unisex"]
  else if value = "kids" then ["kids", "girls", "boys", "unisex"]
  else [value]

/-- `compatible_gender_keys` -/
def compatibleGenderKeys (values : List String) (age : Option ℤ) : List String :=
  (values.flatMap (departments age)).eraseDups

/-- `_use_profile_measurements` -/
def useProfileMeasurements (currentGender profileGender : List String) (profileAge : Option ℚ) :
    Bool :=
  currentGender = [] ∨
    currentGender.any (· ∈ compatibleGenderKeys profileGender (profileAge.map roundEven))

/-! ## The resolved query -/

/-- `explicit or inferred` of two lists -/
def explicitOr {α : Type} (explicit inferred : List α) : List α :=
  if explicit.isEmpty then inferred else explicit

/-- `resolved` -/
structure Resolved where
  lexicalQuery : String
  brand : List String
  category : List String
  productType : List String
  colour : List String
  size : List String
  gender : List String
  metadata : List (String × List String)
  minPrice : Option ℚ
  maxPrice : Option ℚ
  minAge : Option ℚ
  maxAge : Option ℚ
  minHeightCm : Option ℚ
  maxHeightCm : Option ℚ
  minWeightKg : Option ℚ
  maxWeightKg : Option ℚ
  sort : CatalogSort
  pincode : Option String
  swoopStyl : Bool

section Resolve

variable (payload : SearchPayload) (intent : Intent)

def SearchPayload.resolved : Resolved :=
  let useProfile := useProfileMeasurements (explicitOr payload.gender intent.gender)
    payload.profileGender payload.profileAge
  let ofProfile (v : Option ℚ) : Option ℚ := if useProfile then v else none
  let height := payload.profileHeightCm.map (measurementBand 15)
  let weight := payload.profileWeightKg.map (measurementBand 10)
  let swoopStyl := payload.swoopstyl || intent.swoopstyl
  let gender := explicitOr payload.gender intent.gender
  {
    lexicalQuery := payload.lexicalQuery.getD (intent.lexicalQuery.getD "")
    brand := (explicitOr payload.brand intent.brand).eraseDups
    category := (explicitOr payload.category intent.category).eraseDups
    productType := (explicitOr payload.productType intent.productType).eraseDups
    colour := (explicitOr payload.colour intent.colour).eraseDups
    size := (explicitOr payload.size intent.size).eraseDups
    gender := if gender.isEmpty then
        compatibleGenderKeys payload.profileGender (payload.profileAge.map roundEven)
      else gender.eraseDups
    metadata := (payload.metadata.filter fun entry => !entry.2.isEmpty).map fun (key, values) =>
      (key, values.eraseDups)
    minPrice := payload.minPrice <|> intent.minPrice
    maxPrice := payload.maxPrice <|> intent.maxPrice
    minAge := payload.minAge <|> intent.minAge <|> ofProfile payload.profileAge
    maxAge := payload.maxAge <|> intent.maxAge <|> ofProfile payload.profileAge
    minHeightCm := payload.minHeightCm <|> intent.minHeightCm <|> ofProfile (height.map (·.1))
    maxHeightCm := payload.maxHeightCm <|> intent.maxHeightCm <|> ofProfile (height.map (·.2))
    minWeightKg := payload.minWeightKg <|> intent.minWeightKg <|> ofProfile (weight.map (·.1))
    maxWeightKg := payload.maxWeightKg <|> intent.maxWeightKg <|> ofProfile (weight.map (·.2))
    sort := if payload.sort ≠ .recommended then payload.sort else intent.sort.getD .recommended
    pincode := if swoopStyl then nonEmpty payload.pincode <|> nonEmpty intent.pincode else none
    swoopStyl }

/-- `sort_map` of the search -/
def CatalogSort.searchParams : CatalogSort → String × String
  | recommended => ("relevance", "desc")
  | newest => ("newest", "desc")
  | priceLow => ("price_low", "asc")
  | priceHigh => ("price_high", "desc")
  | rating => ("rating", "desc")

/-- `blocked_ranking_fields` -/
def Resolved.blocks (resolved : Resolved) (field : String) : Bool :=
  resolved.metadata.any (·.1 = field) ∨
    (field = "category" ∧ resolved.category ≠ []) ∨
    (field = "product_type" ∧ resolved.productType ≠ []) ∨
    (field = "gender" ∧ resolved.gender ≠ []) ∨
    (field = "size" ∧ resolved.size ≠ []) ∨
    (field ∈ ["color", "color_family"] ∧ resolved.colour ≠ [])

/-- `soft_filter_weights` -/
def softFilterWeights (resolved : Resolved) (vector : List (String × String × ℚ)) : Weights :=
  vector.foldl (fun weights (field, value, weight) =>
    if field = "" ∨ value = "" ∨ resolved.blocks field ∨ weight < 1 / 2 then weights
    else
      let values := (weights.lookup field).getD []
      setKey field (setKey value (max ((values.lookup value).getD 0) weight) values) weights) []

/-- `soft_metadata` -/
def softMetadata (resolved : Resolved) (inferred : List (String × List String)) :
    List (String × List String) :=
  inferred.filter fun (key, _) => !resolved.metadata.any (·.1 = key)

def metadataEntries (metadata : List (String × List String)) : List String :=
  metadata.flatMap fun (key, values) => values.map fun value => key ++ ":" ++ value

def rupeesToPaise (rupees : Option ℚ) : Option ℤ := rupees.map fun x => roundEven (x * 100)

/-- `FASHION_SEARCH_EXCLUDED_PRODUCT_TYPES`, sorted -/
def excludedProductTypes : List String :=
  ["appliance-covers", "art-and-craft", "baby-sleeping-bag", "bath-accessories", "bath-robe",
    "beauty-gift-set", "boxers", "bra", "briefs", "camisoles", "corset", "dining-essentials",
    "electric-toothbrush", "eye-cream", "facial-kit", "hand-and-feet-cream",
    "hand-wash-and-sanitizer", "https", "innerwear-vests", "key-chain", "lingerie-accessories",
    "lingerie-set", "lounge-pants", "lounge-shorts", "lounge-tshirts", "mask-and-peel", "massager",
    "night-suits", "nightdress", "outdoor-masks", "pyjamas", "robe", "shapewear", "sleepsuit",
    "slips", "socks", "stationery", "stockings", "swim-bottoms", "swim-tops", "swimwear",
    "swimwear-accessories", "swimwear-cover-up-bottom", "swimwear-cover-up-top", "tablet-sleeve",
    "teether", "thermal-bottoms", "thermal-set", "thermal-tops", "trunk"]

/-- `FORBIDDEN_PRODUCT_TEXT_PATTERN` -/
def forbiddenProductTextPattern : String :=
  "(?<![a-z0-9])(?:bra|bralette|panty|panties|lingerie|underwear|undergarment|" ++
    "briefs?|trunks?|boxers?|shapewear|innerwear|camisoles?|corsets?|sleepwear|" ++
    "nightwear|nightdress|swimwear|bikini|stockings?|socks?|thermals?)(?![a-z0-9])"

/-- The request of `fetch_page` -/
def searchRequest : Request :=
  let resolved := payload.resolved intent
  let weights := softFilterWeights resolved intent.rankingVector
  {
    page := payload.page
    pageSize := payload.pageSize
    search := nonEmpty (some resolved.lexicalQuery)
    category := resolved.category
    productType := resolved.productType
    brand := resolved.brand
    colour := resolved.colour
    size := resolved.size
    gender := resolved.gender
    metadataFilters := metadataEntries resolved.metadata
    minPricePaise := rupeesToPaise resolved.minPrice
    maxPricePaise := rupeesToPaise resolved.maxPrice
    minAge := resolved.minAge
    maxAge := resolved.maxAge
    minHeightCm := resolved.minHeightCm
    maxHeightCm := resolved.maxHeightCm
    minWeightKg := resolved.minWeightKg
    maxWeightKg := resolved.maxWeightKg
    sortBy := resolved.sort.searchParams.1
    order := resolved.sort.searchParams.2
    pincode := resolved.pincode
    swoopstyl := resolved.swoopStyl
    radiusKm := payload.radiusKm
    softMetadataFilters := softMetadata resolved intent.metadata
    softFilterWeights := weights
    requireSoftMatch := !weights.isEmpty && resolved.lexicalQuery = ""
    excludedProductTypes := excludedProductTypes
    excludedTextPattern := some forbiddenProductTextPattern }

/-! ## The fallback shelf -/

/-- `base`, with the soft filters that the graph suggests -/
def fallbackBase (soft : List (String × List String)) : Request where
  page := payload.page
  pageSize := payload.pageSize
  sortBy := "relevance"
  order := "desc"
  radiusKm := payload.radiusKm
  softMetadataFilters := soft
  excludedProductTypes := excludedProductTypes
  excludedTextPattern := some forbiddenProductTextPattern

/-- `levels` -/
def fallbackLevels (resolved : Resolved) (soft : List (String × List String)) : List Request :=
  let base := fallbackBase payload soft
  let priced := { base with
    gender := resolved.gender
    minPricePaise := rupeesToPaise resolved.minPrice
    maxPricePaise := rupeesToPaise resolved.maxPrice }
  let located := { priced with
    category := resolved.category
    productType := resolved.productType
    pincode := if resolved.swoopStyl then resolved.pincode else none
    swoopstyl := resolved.swoopStyl }
  let explicit := { located with
    brand := resolved.brand
    colour := resolved.colour
    size := resolved.size
    metadataFilters := metadataEntries resolved.metadata
    minAge := resolved.minAge
    maxAge := resolved.maxAge
    minHeightCm := resolved.minHeightCm
    maxHeightCm := resolved.maxHeightCm
    minWeightKg := resolved.minWeightKg
    maxWeightKg := resolved.maxWeightKg }
  [explicit, located, priced, base]

end Resolve

section Search

variable {K : Type} [Field K] [LinearOrder K] (lib : Library K) (store : Store)

/-- The first level that finds something. -/
def firstShelf (ties : Ties) : List Request → Except PyErr (Option (Listing K))
  | [] => .ok none
  | request :: requests => do
    let listing ← listPublicProducts lib store request ties
    if 0 < listing.total then return some listing else firstShelf ties requests

/-- What a search shows. -/
structure SearchResult (K : Type) where
  listing : Listing K
  /-- The listing is the fallback shelf. -/
  isFallback : Bool

/-- `advanced_search`, given the intent of the query and the soft filters of the graph. -/
def advancedSearch (payload : SearchPayload) (intent : Intent)
    (soft : Except PyErr (List (String × List String))) (ties : Ties) :
    Except PyErr (SearchResult K) := do
  let listing ← listPublicProducts lib store (searchRequest payload intent) ties
  if 0 < listing.total then return ⟨listing, false⟩
  else
    let shelf := soft >>= fun soft =>
      firstShelf lib store ties (fallbackLevels payload (payload.resolved intent) soft)
    match shelf with
    | .ok (some shelf) => return ⟨shelf, true⟩
    | .ok none | .error _ => return ⟨listing, false⟩

end Search

end Catalogue

end Stylme
