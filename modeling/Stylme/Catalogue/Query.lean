-- SUMMARY: From a listing request to the filters on products and offers.
import Mathlib.Algebra.Order.Ring.Unbundled.Rat
import Stylme.Lib.Fallible
import Stylme.Catalogue.Store

/-!
# Queries

The first half of `list_public_products`: the request's filters are resolved
against the taxonomy, the brands and the colours, and become one filter on the
products and one on the offers. A filter that resolves to nothing ends the request
with an empty page, one that the taxonomy does not know with an error.
-/

namespace Stylme

open Conc Backend

namespace Catalogue

/-- What the service takes from its text functions and from the indexes of the database; scores
are in `K`. -/
structure Library (K : Type) where
  /-- `_lexical_search(search.strip()[:100])` -/
  lexicalSearch : String → List String × Option ℤ
  /-- `_normalize_option` -/
  normalizeOption : String → String
  normalizeName : String → String
  strip : String → String
  casefold : String → String
  /-- `^…$` with the option `i`. -/
  equalsIgnoringCase : String → String → Bool
  /-- `ObjectId` of a string that `ObjectId.is_valid` accepts. -/
  parseID : String → Option ObjectId
  idText : ObjectId → String
  /-- `{"$regex": pattern, "$options": "i"}` -/
  patternMatches : String → String → Bool
  /-- `$text` and `{"$meta": "textScore"}` -/
  textMatches : List String → Product → Bool
  textScore : List String → Product → K
  distanceMeters : Point → Point → ℚ
  sqrt : ℚ → K

/-- The text functions and indexes for lower-case words without blanks, in stores whose products
have a single word as their text and whose locations lie on one meridian. -/
def Sample.library {K : Type} [One K] (sqrt : ℚ → K) : Library K where
  lexicalSearch := fun search => ([search], none)
  normalizeOption := id
  normalizeName := id
  strip := id
  casefold := id
  equalsIgnoringCase := fun a b => a = b
  parseID := fun _ => none
  idText := toString
  patternMatches := fun pattern text => pattern = text
  textMatches := fun terms p => p.searchText ∈ terms
  textScore := fun _ _ => 1
  distanceMeters := fun a b => 111319 * |a.latitude - b.latitude|
  sqrt := sqrt

abbrev Weights := List (String × List (String × ℚ))

/-- The arguments of `list_public_products`. -/
structure Request where
  page : ℕ := 1
  pageSize : ℕ := 24
  search : Option String := none
  category : List String := []
  productType : List String := []
  brandID : Option String := none
  brand : List String := []
  colour : List String := []
  size : List String := []
  gender : List String := []
  metadataFilters : List String := []
  minPricePaise : Option ℤ := none
  maxPricePaise : Option ℤ := none
  minAge : Option ℚ := none
  maxAge : Option ℚ := none
  minHeightCm : Option ℚ := none
  maxHeightCm : Option ℚ := none
  minWeightKg : Option ℚ := none
  maxWeightKg : Option ℚ := none
  sortBy : String
  order : String
  pincode : Option String := none
  swoopstyl : Bool := false
  radiusKm : ℚ
  softMetadataFilters : List (String × List String) := []
  softFilterWeights : Weights := []
  requireSoftMatch : Bool := false
  hybridCandidateLimit : ℤ := 800
  excludedProductTypes : List String := []
  excludedTextPattern : Option String := none

/-- The same request for another page. -/
def Request.atPage (request : Request) (page size : ℕ) : Request :=
  { request with page, pageSize := size }

/-- The request ends before the products are read. -/
inductive Exit where
  | http (statusCode : ℕ) (message : String) (values : List String)
  | emptyPage

/-! ## Filters on products -/

inductive SoftCondition where
  | category (values : List String)
  | productType (values : List String)
  | gender (values : List String)
  | colorFamily (values : List String)
  | metadata (field : String) (values : List String)

def SoftCondition.selects (p : Product) : SoftCondition → Bool
  | category values => p.categoryKey.any (· ∈ values)
  | productType values => p.productTypeKey.any (· ∈ values)
  | gender values => (p.genderKeys.getD []).any (· ∈ values)
  | colorFamily values => p.colorPalette.any fun families => families.any (· ∈ values)
  | metadata field values => storedIn values (p.metadata.lookup field)

/-- An element of the `$and` of the product query. -/
inductive ProductCondition where
  | typeNotIn (types : List String)
  /-- The pattern is found in neither `title`, `description` nor `search_text`. -/
  | textFree (pattern : String)
  /-- One of the genders, or none given. -/
  | genderIn (keys : List String)
  | metadataIn (field : String) (values : List String)
  | anyOf (conditions : List SoftCondition)

/-- `query` -/
structure ProductQuery where
  text : List String := []
  categoryKeys : Option (List String) := none
  productTypeKeys : Option (List String) := none
  brandIDs : Option (List ObjectId) := none
  ids : Option (List ObjectId) := none
  conditions : List ProductCondition := []

section Selects

variable {K : Type} (lib : Library K)

def ProductCondition.selects (p : Product) : ProductCondition → Bool
  | typeNotIn types => p.productTypeKey.all (· ∉ types)
  | textFree pattern => ¬ lib.patternMatches pattern p.title ∧
      ¬ lib.patternMatches pattern p.description ∧ ¬ lib.patternMatches pattern p.searchText
  | genderIn keys => (p.genderKeys.getD []).any (· ∈ keys) ∨ p.genderKeys.getD [] = []
  | metadataIn field values => storedIn values (p.metadata.lookup field)
  | anyOf conditions => conditions.any (·.selects p)

/-- The product matches `query`, but for the flag `catalogue_eligible`. -/
def ProductQuery.selects (query : ProductQuery) (p : Product) : Bool :=
  p.status = "active" ∧ p.visibility = "public" ∧
    (query.text ≠ [] → lib.textMatches query.text p) ∧
    query.categoryKeys.all (fun keys => p.categoryKey.any (· ∈ keys)) ∧
    query.productTypeKeys.all (fun keys => p.productTypeKey.any (· ∈ keys)) ∧
    query.brandIDs.all (p.brandID ∈ ·) ∧ query.ids.all (p.id ∈ ·) ∧
    query.conditions.all (·.selects lib p)

end Selects

/-! ## Filters on offers -/

/-- What a shopper's age, height and weight are compared with. -/
inductive Dimension where
  | age
  | height
  | weight
  deriving DecidableEq

/-- The bounds of an offer in one dimension. Height and weight share their flag. -/
structure Bounds where
  applicable : Bool
  minimum : Option ℚ
  maximum : Option ℚ

def Offer.bounds (o : Offer) : Dimension → Option Bounds
  | .age => o.ageBounds.map fun b => ⟨b.applicable, b.minAge, b.maxAge⟩
  | .height => o.fitBounds.map fun b => ⟨b.applicable, b.minHeightCm, b.maxHeightCm⟩
  | .weight => o.fitBounds.map fun b => ⟨b.applicable, b.minWeightKg, b.maxWeightKg⟩

/-- An interval that a request asks for; a missing end is open. -/
structure Interval where
  minimum : Option ℚ
  maximum : Option ℚ

/-- The bounds are not applicable, or they reach both requested ends. -/
def Bounds.reach (bounds : Bounds) (requested : Interval) : Bool :=
  bounds.applicable → requested.minimum.all (fun low => bounds.maximum.any (low ≤ ·)) ∧
    requested.maximum.all (fun high => bounds.minimum.any (· ≤ high))

/-- An element of the `$and` of the offer filters. -/
structure Overlap where
  dimension : Dimension
  requested : Interval

def Overlap.selects (overlap : Overlap) (o : Offer) : Bool :=
  (o.bounds overlap.dimension).all (·.reach overlap.requested)

/-- `offer_filters`. The last three filters are only set for SwoopStyl, where the inventory
filter takes the place of `Offer.stocked`. -/
structure OfferFilters where
  availableSizeKeys : Option (List String) := none
  availableColorFamilyKeys : Option (List String) := none
  availableColorIDs : Option (List ObjectId) := none
  salePricePaise : Option (Option ℤ × Option ℤ) := none
  overlaps : List Overlap := []
  sellerIDs : Option (List ObjectId) := none
  locationIDs : Option (List ObjectId) := none
  inventoryAt : Option (List ObjectId) := none

namespace OfferFilters

/-- `bool(offer_filters)` -/
def isSet (filters : OfferFilters) : Bool :=
  filters.availableSizeKeys.isSome ∨ filters.availableColorFamilyKeys.isSome ∨
    filters.availableColorIDs.isSome ∨ filters.salePricePaise.isSome ∨ filters.overlaps ≠ [] ∨
    filters.sellerIDs.isSome ∨ filters.locationIDs.isSome ∨ filters.inventoryAt.isSome

/-- The condition on the inventory. -/
def selectsInventory (filters : OfferFilters) (o : Offer) : Bool :=
  match filters.inventoryAt with
  | none => o.stocked
  | some ids => o.inventory.any fun row => row.locationID ∈ ids ∧ row.stocked

/-- The offer satisfies the filters on its own fields. -/
def selects (filters : OfferFilters) (o : Offer) : Bool :=
  filters.availableSizeKeys.all (fun keys => o.availableSizeKeys.any (· ∈ keys)) ∧
    filters.availableColorFamilyKeys.all (fun keys => o.availableColorFamilyKeys.any (· ∈ keys)) ∧
    filters.availableColorIDs.all (fun ids => o.availableColorIDs.any (· ∈ ids)) ∧
    filters.salePricePaise.all (fun (low, high) =>
      low.all (· ≤ o.salePricePaise) ∧ high.all (o.salePricePaise ≤ ·)) ∧
    filters.overlaps.all (·.selects o) ∧
    filters.sellerIDs.all (o.sellerID ∈ ·) ∧
    filters.locationIDs.all (fun ids => o.locationIDs.any (· ∈ ids))

end OfferFilters

/-- `add_overlap` -/
def addOverlap (dimension : Dimension) (requestedMinimum requestedMaximum : Option ℚ)
    (overlaps : List Overlap) : List Overlap :=
  if requestedMinimum = none ∧ requestedMaximum = none then overlaps
  else overlaps ++ [⟨dimension, ⟨requestedMinimum, requestedMaximum⟩⟩]

/-- `offer_and` -/
def Request.overlaps (request : Request) : List Overlap :=
  addOverlap .weight request.minWeightKg request.maxWeightKg
    (addOverlap .height request.minHeightCm request.maxHeightCm
      (addOverlap .age request.minAge request.maxAge []))

/-! ## Ranking weights -/

/-- `d.setdefault(k, v)` -/
def setDefault {α : Type} (k : String) (v : α) (d : List (String × α)) : List (String × α) :=
  if d.any (·.1 = k) then d else d ++ [(k, v)]

/-- The positive weights of a field, at most one. -/
def clampedWeights (values : List (String × ℚ)) : List (String × ℚ) :=
  values.foldl (fun d (value, weight) =>
    if value ≠ "" ∧ 0 < weight then setKey value (max 0 (min weight 1)) d else d) []

/-- `ranking_weights` -/
def Request.rankingWeights (request : Request) : Weights :=
  request.softMetadataFilters.foldl
    (fun d (field, values) => setKey field
      (values.foldl (fun target value => setDefault value 1 target) ((d.lookup field).getD [])) d)
    (request.softFilterWeights.foldl
      (fun d (field, values) => setKey field (clampedWeights values) d) [])

/-! ## Resolving the request -/

section Resolve

variable {K : Type} (lib : Library K) (store : Store)

/-- `list(dict.fromkeys(value.strip() for value in values if value.strip()))` -/
def cleanValues (values : List String) : List String :=
  ((values.map lib.strip).filter (· ≠ "")).eraseDups

/-- `sorted(set(values) - allowed)` -/
def unknownValues (values allowed : List String) : List String :=
  (values.filter (· ∉ allowed)).eraseDups.insertionSort (· ≤ ·)

theorem unknownValues_eq_nil_iff {values allowed : List String} :
    unknownValues values allowed = [] ↔ ∀ value ∈ values, value ∈ allowed := by
  unfold unknownValues
  rw [← List.length_eq_zero_iff, List.length_insertionSort, List.length_eq_zero_iff]
  constructor
  · intro h value hvalue
    by_contra hnot
    have hmem : value ∈ (values.filter (· ∉ allowed)).eraseDups :=
      List.mem_eraseDups.2 (List.mem_filter.2 ⟨hvalue, decide_eq_true hnot⟩)
    rw [h] at hmem
    exact List.not_mem_nil hmem
  · intro h
    refine List.eq_nil_iff_forall_not_mem.2 fun value hvalue => ?_
    obtain ⟨hvalue, hnot⟩ := List.mem_filter.1 (List.mem_eraseDups.1 hvalue)
    exact of_decide_eq_true hnot (h value hvalue)

/-- The option goes by this normalized name. -/
def OptionDoc.named (normalized : String) : OptionDoc → Bool
  | text _ => false
  | doc key label aliases _ =>
    (key.toList ++ label.toList ++ aliases).any fun name =>
      name ≠ "" ∧ lib.normalizeOption name = normalized

/-- `option.get("key")` -/
def OptionDoc.key? : OptionDoc → Option String
  | text _ => none
  | doc key _ _ _ => key

/-- `_resolve_metadata_option` -/
def resolveMetadataOption (fieldKey value : String) : Option String :=
  (store.fields.find? fun field => field.key = fieldKey ∧ field.status = "active").bind fun field =>
    (field.options.find? fun option =>
      option.enabled ∧ option.named lib (lib.normalizeOption value)).bind (·.key?)

/-- The keys that the given names resolve to; one that resolves to none empties the page. -/
def resolveOptions (fieldKey : String) (values : List String) : Except Exit (List String) :=
  let resolved := values.map (resolveMetadataOption lib store fieldKey)
  if resolved.any (fun key => key.getD "" = "") then .error .emptyPage
  else .ok (resolved.filterMap id).eraseDups

/-- One turn of the loop over `brand`. -/
def resolveBrand (rawBrand : String) : Except Exit ObjectId :=
  let value := lib.strip rawBrand
  match lib.parseID value with
  | some id => .ok id
  | none =>
    match store.brands.find? fun brand => brand.status = "active" ∧
        (brand.normalizedName = lib.normalizeName value ∨ lib.equalsIgnoringCase value brand.name ∨
          brand.aliases.any (lib.equalsIgnoringCase value)) with
    | some brand => .ok brand.id
    | none => .error .emptyPage

/-- The filter on `brand_id`. -/
def brandFilter (request : Request) : Except Exit (Option (List ObjectId)) :=
  if request.brandID.getD "" ≠ "" then
    match lib.parseID (request.brandID.getD "") with
    | some id => .ok (some [id])
    | none => .error (.http 422 "Invalid brandId" [])
  else if request.brand ≠ [] then
    (request.brand.mapM (resolveBrand lib store)).map fun ids => some ids.eraseDups
  else .ok none

/-- The fields that filters and rankings refer to. -/
def Store.filterableFields (store : Store) : List MetadataField :=
  (store.fields.docs.filter fun field => field.status = "active" ∧ field.filterable).take 500

/-- `fields`, which is only read when the request refers to the taxonomy. -/
def taxonomyFields (request : Request) : Option (List MetadataField) :=
  if request.gender ≠ [] ∨ request.metadataFilters ≠ [] ∨ request.softMetadataFilters ≠ [] ∨
      request.softFilterWeights ≠ [] then some store.filterableFields
  else none

/-- `fields.get(key)` -/
def fieldOf (fields : List MetadataField) (key : String) : Option MetadataField :=
  fields.find? (·.key = key)

/-- `allowed_values` -/
def allowedValues (fields : List MetadataField) (key : String) : List String :=
  (fieldOf fields key).elim [] (·.allowedValues)

def genderConditions (fields : List MetadataField) (gender : List String) :
    Except Exit (List ProductCondition) :=
  if gender = [] then .ok []
  else
    let clean := cleanValues lib gender
    let unknown := unknownValues clean (allowedValues fields "gender")
    if unknown ≠ [] then .error (.http 422 "Unknown gender filters" unknown)
    else .ok [.genderIn clean]

/-- `entry.split(":", 1)` -/
def splitEntry (entry : String) : Option (String × String) :=
  match entry.toList.span (· ≠ ':') with
  | (key, _ :: value) => some (String.ofList key, String.ofList value)
  | (_, []) => none

/-- `resolved_metadata` and `resolved_offer_metadata` -/
structure MetadataFilters where
  product : List (String × List String)
  offer : List (String × List String)

/-- `d.setdefault(k, []).append(v)` -/
def appendTo (k v : String) (d : List (String × List String)) : List (String × List String) :=
  setKey k ((d.lookup k).getD [] ++ [v]) d

/-- One turn of the loop over `metadata_filters`. -/
def addMetadataFilter (fields : List MetadataField) (filters : MetadataFilters) (entry : String) :
    Except Exit MetadataFilters :=
  match splitEntry entry with
  | none => .error (.http 422 "Metadata filters must use key:value" [])
  | some (rawKey, rawValue) =>
    let key := lib.strip rawKey
    let value := lib.strip rawValue
    let storage := (fieldOf fields key).bind (·.storage)
    if storage ≠ some "product_metadata" ∧ storage ≠ some "offer" then
      .error (.http 422 ("Unknown metadata filter: " ++ key) [])
    else if value ∉ allowedValues fields key then
      .error (.http 422 ("Unknown " ++ key ++ " option: " ++ value) [])
    else if storage = some "product_metadata" then
      .ok { filters with product := appendTo key value filters.product }
    else .ok { filters with offer := appendTo key value filters.offer }

def resolveMetadataFilters (fields : List MetadataField) (entries : List String) :
    Except Exit MetadataFilters :=
  entries.foldlM (addMetadataFilter lib fields) ⟨[], []⟩

/-- The values of a ranked field that the taxonomy knows: `clean_values`. -/
def knownWeights (fields : List MetadataField) (key : String) (values : List (String × ℚ)) :
    List (String × ℚ) :=
  values.filter (·.1 ∈ allowedValues fields key)

/-- `candidate_conditions` -/
def candidateConditions (fields : List MetadataField) (weights : Weights) : List SoftCondition :=
  weights.filterMap fun (key, values) =>
    let clean := (knownWeights fields key values).map (·.1)
    if clean = [] then none
    else if key = "category" then some (.category clean)
    else if key = "product_type" then some (.productType clean)
    else if key = "gender" then some (.gender clean)
    else if key = "color_family" then some (.colorFamily clean)
    else if (fieldOf fields key).bind (·.storage) = some "product_metadata" then
      some (.metadata key clean)
    else none

/-! ## Resolving the offer filters -/

/-- The filters on sizes, colour families and colours that come from the taxonomy. -/
def addOfferMetadata (filters : OfferFilters) : String × List String → OfferFilters
  | (key, values) =>
    if key = "size" then { filters with availableSizeKeys := some values.eraseDups }
    else if key = "color_family" then
      { filters with availableColorFamilyKeys := some values.eraseDups }
    else if key = "color" then
      { filters with availableColorIDs := some ((store.colors.docs.filter fun color =>
          color.status = "active" ∧ color.key ∈ values).map (·.id)) }
    else filters

/-- `colors.distinct("_id", color_query)` -/
def matchingColorIDs (values : List String) : List ObjectId :=
  let normalized := values.map lib.casefold
  (store.colors.docs.filter fun color => color.status = "active" ∧
    (color.key ∈ normalized ∨ color.normalizedName ∈ normalized ∨
      values.any (lib.equalsIgnoringCase · color.name) ∨
      color.aliases.any (fun name => values.any (lib.equalsIgnoringCase · name)) ∨
      color.familyKeys.any (· ∈ normalized))).map (·.id)

def addColours (colour : List String) (filters : OfferFilters) : Except Exit OfferFilters :=
  if colour = [] then .ok filters
  else
    let ids := matchingColorIDs lib store (cleanValues lib colour)
    if ids = [] then .error .emptyPage else .ok { filters with availableColorIDs := some ids }

/-- `allowed_sizes` -/
def allowedSizes (fields : Option (List MetadataField)) : List String :=
  match fields with
  | some fields => allowedValues fields "size"
  | none => ((store.fields.find? fun field =>
      field.key = "size" ∧ field.status = "active" ∧ field.filterable).elim [] (·.allowedValues))

def addSizes (fields : Option (List MetadataField)) (size : List String) (filters : OfferFilters) :
    Except Exit OfferFilters :=
  if size = [] then .ok filters
  else
    let values := cleanValues lib size
    let allowed := allowedSizes store fields
    let unknown := if allowed ≠ [] then unknownValues values allowed else []
    if unknown ≠ [] then .error (.http 422 "Unknown size options" unknown)
    else .ok { filters with availableSizeKeys := some values }

def priceFilter (minimum maximum : Option ℤ) : Option (Option ℤ × Option ℤ) :=
  if minimum = none ∧ maximum = none then none else some (minimum, maximum)

/-! ## The plan of a request -/

/-- What the second half of `list_public_products` uses. -/
structure Plan where
  query : ProductQuery
  searchTerms : List String
  fields : List MetadataField
  weights : Weights
  filters : OfferFilters

def excludedConditions (request : Request) : List ProductCondition :=
  (if request.excludedProductTypes = [] then []
    else [.typeNotIn request.excludedProductTypes.eraseDups]) ++
  (match request.excludedTextPattern with
    | some pattern => if pattern = "" then [] else [.textFree pattern]
    | none => [])

def softConditions (request : Request) (fields : List MetadataField) : List ProductCondition :=
  let conditions := candidateConditions fields request.rankingWeights
  if request.requireSoftMatch ∧ conditions ≠ [] then [.anyOf conditions] else []

/-- The search terms, and the price ceiling that the search names. -/
def searchTerms (request : Request) : List String × Option ℤ :=
  match request.search with
  | some search => if search = "" then ([], none) else lib.lexicalSearch search
  | none => ([], none)

/-- The filter on a field of the product that is resolved from names. -/
def keyFilter (fieldKey : String) (values : List String) : Except Exit (Option (List String)) :=
  if values = [] then .ok none else (resolveOptions lib store fieldKey values).map some

/-- The first half of `list_public_products`. -/
def resolveRequest (request : Request) : Except Exit Plan := do
  let (terms, ceiling) := searchTerms lib request
  let categoryKeys ← keyFilter lib store "category" request.category
  let productTypeKeys ← keyFilter lib store "product_type" request.productType
  let brandIDs ← brandFilter lib store request
  let taxonomy := taxonomyFields store request
  let fields := taxonomy.getD []
  let gender ← genderConditions lib fields request.gender
  let metadata ← resolveMetadataFilters lib fields request.metadataFilters
  let query : ProductQuery := {
    text := terms
    categoryKeys
    productTypeKeys
    brandIDs
    conditions := excludedConditions request ++ gender ++
      metadata.product.map (fun (key, values) => .metadataIn key values.eraseDups) ++
      softConditions request fields }
  let fromTaxonomy : OfferFilters := {
    metadata.offer.foldl (addOfferMetadata store) {} with
    salePricePaise := priceFilter request.minPricePaise (request.maxPricePaise <|> ceiling) }
  let filters ← addColours lib store request.colour fromTaxonomy
  let filters ← addSizes lib store taxonomy request.size filters
  return {
    query
    searchTerms := terms
    fields
    weights := request.rankingWeights
    filters := { filters with overlaps := request.overlaps } }

/-- None of the filters that only SwoopStyl sets. -/
structure OfferFilters.Unlocated (filters : OfferFilters) : Prop where
  sellerIDs : filters.sellerIDs = none
  locationIDs : filters.locationIDs = none
  inventoryAt : filters.inventoryAt = none

/-- What the plan takes over from the request. -/
structure Plan.PlanOf (plan : Plan) (request : Request) : Prop where
  searchTerms : plan.searchTerms = (Catalogue.searchTerms lib request).1
  fields : plan.fields = (taxonomyFields store request).getD []
  weights : plan.weights = request.rankingWeights
  overlaps : plan.filters.overlaps = request.overlaps
  ids : plan.query.ids = none
  unlocated : plan.filters.Unlocated

variable {lib store}

theorem OfferFilters.Unlocated.addOfferMetadata {filters : OfferFilters} (h : filters.Unlocated)
    (entries : List (String × List String)) :
    (entries.foldl (addOfferMetadata store) filters).Unlocated := by
  induction entries generalizing filters with
  | nil => exact h
  | cons entry entries ih =>
    refine ih ?_
    unfold Catalogue.addOfferMetadata
    dsimp only
    split_ifs <;> exact ⟨h.1, h.2, h.3⟩

theorem OfferFilters.Unlocated.addColours {filters filters' : OfferFilters} (h : filters.Unlocated)
    {colour : List String} (hok : addColours lib store colour filters = .ok filters') :
    filters'.Unlocated := by
  unfold Catalogue.addColours at hok
  dsimp only at hok
  split_ifs at hok <;> cases hok <;> exact ⟨h.1, h.2, h.3⟩

theorem OfferFilters.Unlocated.addSizes {filters filters' : OfferFilters} (h : filters.Unlocated)
    {fields : Option (List MetadataField)} {size : List String}
    (hok : addSizes lib store fields size filters = .ok filters') : filters'.Unlocated := by
  unfold Catalogue.addSizes at hok
  dsimp only at hok
  split_ifs at hok <;> cases hok <;> exact ⟨h.1, h.2, h.3⟩

theorem resolveRequest_planOf {request : Request} {plan : Plan}
    (h : resolveRequest lib store request = .ok plan) : plan.PlanOf lib store request := by
  unfold resolveRequest at h
  obtain ⟨_, -, h⟩ := bind_eq_ok.1 h
  obtain ⟨_, -, h⟩ := bind_eq_ok.1 h
  obtain ⟨_, -, h⟩ := bind_eq_ok.1 h
  obtain ⟨_, -, h⟩ := bind_eq_ok.1 h
  obtain ⟨metadata, -, h⟩ := bind_eq_ok.1 h
  obtain ⟨coloured, hcoloured, h⟩ := bind_eq_ok.1 h
  obtain ⟨sized, hsized, h⟩ := bind_eq_ok.1 h
  obtain rfl := Except.ok.inj h
  have hstart : ({} : OfferFilters).Unlocated := ⟨rfl, rfl, rfl⟩
  have hmetadata : (metadata.offer.foldl (addOfferMetadata store) {}).Unlocated :=
    hstart.addOfferMetadata metadata.offer
  have hpriced : OfferFilters.Unlocated { metadata.offer.foldl (addOfferMetadata store) {} with
      salePricePaise := priceFilter request.minPricePaise
        (request.maxPricePaise <|> (Catalogue.searchTerms lib request).2) } :=
    ⟨hmetadata.1, hmetadata.2, hmetadata.3⟩
  have hfinal := (hpriced.addColours hcoloured).addSizes hsized
  exact ⟨rfl, rfl, rfl, rfl, rfl, ⟨hfinal.1, hfinal.2, hfinal.3⟩⟩

theorem resolveRequest_atPage {request : Request} {page size : ℕ} :
    resolveRequest lib store (request.atPage page size) = resolveRequest lib store request := rfl

end Resolve

end Catalogue

end Stylme
