-- SUMMARY: The two entry points of the storefront's listings: the products request and the advanced search.
import Stylme.Catalogue.SwoopStyl

/-!
# Storefront

A shopper chooses filters and a sort in the storefront. `getCatalogPage` turns the
choice into a request to `/products`; `/search/advanced` merges it with what the
search text implies. Both end in `list_public_products`.
-/

namespace Stylme

open Conc Backend

namespace Catalogue

/-! ## The service -/

section Service

variable {K : Type} [Field K] [LinearOrder K]

inductive Listing (K : Type) where
  | page (page : Page K)
  | swoopStyl (page : SwoopPage K)

def Listing.total : Listing K → ℕ
  | page p => p.total
  | swoopStyl p => p.total

/-- `list_public_products` -/
def listPublicProducts (lib : Library K) (store : Store) (request : Request) (ties : Ties) :
    Except PyErr (Listing K) :=
  match resolveRequest lib store request with
  | .error (.http statusCode message _) => .error (.httpException statusCode message)
  | .error .emptyPage => .ok (.page (emptyPage request))
  | .ok plan =>
    if request.swoopstyl then
      if request.pincode.getD "" = "" then
        .error (.httpException 422 "pincode is required when SwoopStyl is enabled")
      else (listSwoopStyl lib store request plan (request.pincode.getD "") ties).map .swoopStyl
    else (listPlanned lib store request plan ties).map .page

end Service

/-! ## The products request -/

inductive CatalogSort where
  | recommended
  | newest
  | priceLow
  | priceHigh
  | rating
  deriving DecidableEq

structure CatalogQuery where
  page : Option ℤ := none
  pageSize : Option ℤ := none
  query : Option String := none
  lexicalQuery : Option String := none
  brand : List String := []
  category : List String := []
  productType : List String := []
  colour : List String := []
  size : List String := []
  gender : List String := []
  metadata : List (String × List String) := []
  minPrice : Option ℚ := none
  maxPrice : Option ℚ := none
  minAge : Option ℚ := none
  maxAge : Option ℚ := none
  minHeightCm : Option ℚ := none
  maxHeightCm : Option ℚ := none
  minWeightKg : Option ℚ := none
  maxWeightKg : Option ℚ := none
  sort : Option CatalogSort := none
  pincode : Option String := none
  swoopStyl : Bool := false
  intentParsed : Bool := false

/-- The query parameters of `GET /products`. -/
structure ProductsParams where
  page : ℤ := 1
  limit : ℤ := 24
  pageSize : Option ℤ := none
  search : Option String := none
  category : List String := []
  productType : List String := []
  brandID : Option String := none
  brand : List String := []
  colour : List String := []
  size : List String := []
  gender : List String := []
  metadata : List String := []
  minPrice : Option ℚ := none
  maxPrice : Option ℚ := none
  minPricePaise : Option ℤ := none
  maxPricePaise : Option ℤ := none
  minAge : Option ℚ := none
  maxAge : Option ℚ := none
  minHeightCm : Option ℚ := none
  maxHeightCm : Option ℚ := none
  minWeightKg : Option ℚ := none
  maxWeightKg : Option ℚ := none
  sortBy : String := "createdAt"
  sort : Option String := none
  order : String := "desc"
  pincode : Option String := none
  swoopstyl : Bool := false
  radiusKm : ℚ := 100

/-- `sortMap` -/
def CatalogSort.params : CatalogSort → String × String
  | recommended => ("relevance", "desc")
  | newest => ("createdAt", "desc")
  | priceLow => ("price", "asc")
  | priceHigh => ("price", "desc")
  | rating => ("avg_rating", "desc")

/-- A parameter that is only set if its value is truthy. -/
def nonEmpty (s : Option String) : Option String := s.filter (· ≠ "")

/-- The request that `getCatalogPage` sends. -/
def CatalogQuery.params (query : CatalogQuery) : ProductsParams where
  page := max 1 (query.page.getD 1)
  limit := max 1 (query.pageSize.getD 12)
  search := if query.intentParsed then nonEmpty query.lexicalQuery else nonEmpty query.query
  brand := query.brand
  category := query.category
  productType := query.productType
  colour := query.colour
  size := query.size
  gender := query.gender
  metadata := query.metadata.flatMap fun (key, values) => values.map fun value => key ++ ":" ++ value
  minPrice := query.minPrice
  maxPrice := query.maxPrice
  minAge := query.minAge
  maxAge := query.maxAge
  minHeightCm := query.minHeightCm
  maxHeightCm := query.maxHeightCm
  minWeightKg := query.minWeightKg
  maxWeightKg := query.maxWeightKg
  sortBy := ((query.sort.getD .recommended).params).1
  order := ((query.sort.getD .recommended).params).2
  pincode := nonEmpty query.pincode
  swoopstyl := query.swoopStyl

/-! ## The products endpoint -/

/-- Python's `round`, which rounds halves to even. -/
def roundEven (x : ℚ) : ℤ :=
  let low := x.floor
  if x - low < 1 / 2 then low
  else if 1 / 2 < x - low then low + 1
  else if low % 2 = 0 then low else low + 1

/-- A range of optional numbers is in order. -/
def inOrder {α : Type} [LT α] [DecidableRel ((· < ·) : α → α → Prop)] : Option α → Option α → Bool
  | some low, some high => ¬ high < low
  | _, _ => true

/-- `v` lies in the bounds of the parameter. -/
def within (low : ℚ) (high : Option ℚ) (v : Option ℚ) : Bool :=
  v.all fun x => low ≤ x ∧ high.all (x ≤ ·)

/-- `^[1-9][0-9]{5}$` -/
def isPincode (s : String) : Bool :=
  match s.toList with
  | c :: cs => c ≠ '0' ∧ cs.length = 5 ∧ (c :: cs).all (·.isDigit)
  | [] => false

namespace ProductsParams

variable (params : ProductsParams)

/-- The constraints of the query parameters. -/
def wellFormed : Bool :=
  1 ≤ params.page ∧ 1 ≤ params.limit ∧ params.limit ≤ 100 ∧
    params.pageSize.all (fun n => 1 ≤ n ∧ n ≤ 100) ∧ params.search.all (·.length ≤ 100) ∧
    within 0 none params.minPrice ∧ within 0 none params.maxPrice ∧
    params.minPricePaise.all (0 ≤ ·) ∧ params.maxPricePaise.all (0 ≤ ·) ∧
    within 0 (some 110) params.minAge ∧ within 0 (some 110) params.maxAge ∧
    within 40 (some 260) params.minHeightCm ∧ within 40 (some 260) params.maxHeightCm ∧
    within 2 (some 400) params.minWeightKg ∧ within 2 (some 400) params.maxWeightKg ∧
    params.sortBy.length ≤ 40 ∧ params.sort.all (·.length ≤ 40) ∧
    (params.order = "asc" ∨ params.order = "desc") ∧ params.pincode.all isPincode ∧
    1 ≤ params.radiusKm ∧ params.radiusKm ≤ 250

/-- `resolved_min` and `resolved_max`, in paise -/
def paise (given : Option ℤ) (rupees : Option ℚ) : Option ℤ :=
  given <|> rupees.map fun x => roundEven (x * 100)

def request : Request where
  page := params.page.toNat
  pageSize := (params.pageSize.getD params.limit).toNat
  search := params.search
  category := params.category
  productType := params.productType
  brandID := params.brandID
  brand := params.brand
  colour := params.colour
  size := params.size
  gender := params.gender
  metadataFilters := params.metadata
  minPricePaise := paise params.minPricePaise params.minPrice
  maxPricePaise := paise params.maxPricePaise params.maxPrice
  minAge := params.minAge
  maxAge := params.maxAge
  minHeightCm := params.minHeightCm
  maxHeightCm := params.maxHeightCm
  minWeightKg := params.minWeightKg
  maxWeightKg := params.maxWeightKg
  sortBy := (nonEmpty params.sort).getD params.sortBy
  order := params.order
  pincode := params.pincode
  swoopstyl := params.swoopstyl
  radiusKm := params.radiusKm

end ProductsParams

/-- `get_products` -/
def getProducts {K : Type} [Field K] [LinearOrder K] (lib : Library K) (store : Store)
    (params : ProductsParams) (ties : Ties) : Except PyErr (Listing K) :=
  let request := params.request
  if ¬ params.wellFormed then .error (.httpException 422 "Request validation failed")
  else if ¬ inOrder request.minPricePaise request.maxPricePaise then
    .error (.httpException 422 "Minimum price cannot exceed maximum price")
  else if ¬ inOrder params.minAge params.maxAge then
    .error (.httpException 422 "Minimum age cannot exceed maximum age")
  else if ¬ inOrder params.minHeightCm params.maxHeightCm then
    .error (.httpException 422 "Minimum height cannot exceed maximum height")
  else if ¬ inOrder params.minWeightKg params.maxWeightKg then
    .error (.httpException 422 "Minimum weight cannot exceed maximum weight")
  else listPublicProducts lib store request ties

end Catalogue

end Stylme
