-- SUMMARY: The request of an advanced search, and the ends of its ranges from the request, the query and the profile.
import Stylme.Catalogue.Search
import Stylme.Search.Compile

/-!
# The advanced search of a query

`advanced_search` compiles its query and resolves each end of each range on its own.
-/

namespace Stylme

open Conc Backend Catalogue

namespace Search

/-! ## The schema -/

/-- A number between two bounds, if there is one. -/
def Within (low high : ℚ) (x : Option ℚ) : Prop := ∀ y ∈ x, low ≤ y ∧ y ≤ high

/-- `^[1-9][0-9]{5}$` -/
def IsPincode (text : String) : Prop :=
  text.length = 6 ∧ text.toList.all Char.isDigit ∧ text.toList.head? ≠ some '0'

/-! ## Ranges -/

/-- The two ends of a range. -/
structure Ends where
  low : Option ℚ
  high : Option ℚ

namespace Ends

/-- The minimum is at most the maximum where both are present. -/
def Ordered (e : Ends) : Prop := ∀ low ∈ e.low, ∀ high ∈ e.high, low ≤ high

/-- `_profile_fallback`, end by end -/
def orElse (e f : Ends) : Ends := ⟨e.low <|> f.low, e.high <|> f.high⟩

end Ends

inductive Measure where
  | price
  | age
  | height
  | weight
  deriving DecidableEq

end Search

namespace Catalogue

open Search

namespace SearchPayload

variable (payload : SearchPayload)

/-- The ends that the shopper chose. -/
def explicitEnds : Measure → Ends
  | .price => ⟨payload.minPrice, payload.maxPrice⟩
  | .age => ⟨payload.minAge, payload.maxAge⟩
  | .height => ⟨payload.minHeightCm, payload.maxHeightCm⟩
  | .weight => ⟨payload.minWeightKg, payload.maxWeightKg⟩

/-- What `AdvancedSearchRequest` leaves of a request that it accepts: the bounds of the fields, the
order of `ordered_advanced_ranges`, and the pincode that it fills in. -/
structure Accepted : Prop where
  query : 1 ≤ payload.query.length ∧ payload.query.length ≤ 300
  lexicalQuery : ∀ text ∈ payload.lexicalQuery, text.length ≤ 100
  page : 1 ≤ payload.page
  pageSize : 1 ≤ payload.pageSize ∧ payload.pageSize ≤ 100
  lists : payload.brand.length ≤ 20 ∧ payload.category.length ≤ 20 ∧ payload.productType.length ≤ 30 ∧
    payload.colour.length ≤ 20 ∧ payload.size.length ≤ 30 ∧ payload.gender.length ≤ 10 ∧
    payload.profileGender.length ≤ 3
  profile : Within 0 110 payload.profileAge ∧ Within 40 260 payload.profileHeightCm ∧
    Within 2 400 payload.profileWeightKg
  prices : (∀ x ∈ payload.minPrice, 0 ≤ x) ∧ ∀ x ∈ payload.maxPrice, 0 ≤ x
  ages : Within 0 110 payload.minAge ∧ Within 0 110 payload.maxAge
  heights : Within 40 260 payload.minHeightCm ∧ Within 40 260 payload.maxHeightCm
  weights : Within 2 400 payload.minWeightKg ∧ Within 2 400 payload.maxWeightKg
  pincode : ∀ text ∈ payload.pincode, IsPincode text
  radiusKm : 1 ≤ payload.radiusKm ∧ payload.radiusKm ≤ 250
  ordered : ∀ m, (payload.explicitEnds m).Ordered
  delivered : payload.swoopstyl → payload.pincode.isSome

end SearchPayload

/-- The ends that the words of the query imply. -/
def Intent.inferredEnds (intent : Intent) : Measure → Ends
  | .price => ⟨intent.minPrice, intent.maxPrice⟩
  | .age => ⟨intent.minAge, intent.maxAge⟩
  | .height => ⟨intent.minHeightCm, intent.maxHeightCm⟩
  | .weight => ⟨intent.minWeightKg, intent.maxWeightKg⟩

/-- The ends of the saved profile, where it applies. -/
def SearchPayload.profileEnds (payload : SearchPayload) (intent : Intent) (m : Measure) : Ends :=
  if useProfileMeasurements (explicitOr payload.gender intent.gender) payload.profileGender
      payload.profileAge then
    match m with
    | .price => ⟨none, none⟩
    | .age => ⟨payload.profileAge, payload.profileAge⟩
    | .height => ⟨payload.profileHeightCm.map fun x => (measurementBand 15 x).1,
        payload.profileHeightCm.map fun x => (measurementBand 15 x).2⟩
    | .weight => ⟨payload.profileWeightKg.map fun x => (measurementBand 10 x).1,
        payload.profileWeightKg.map fun x => (measurementBand 10 x).2⟩
  else ⟨none, none⟩

/-- The ends that the search uses. -/
def Resolved.ends (resolved : Resolved) : Measure → Ends
  | .price => ⟨resolved.minPrice, resolved.maxPrice⟩
  | .age => ⟨resolved.minAge, resolved.maxAge⟩
  | .height => ⟨resolved.minHeightCm, resolved.maxHeightCm⟩
  | .weight => ⟨resolved.minWeightKg, resolved.maxWeightKg⟩

end Catalogue

namespace Search

/-- `sort` of the filters as a member of the enumeration. -/
def sortOf (sort : String) : Option CatalogSort :=
  [("recommended", CatalogSort.recommended), ("newest", .newest), ("price-low", .priceLow),
    ("price-high", .priceHigh), ("rating", .rating)].lookup sort

/-- The part of the result that `advanced_search` reads. -/
def SearchIntent.inferred (intent : SearchIntent) : Catalogue.Intent where
  lexicalQuery := some intent.lexicalQuery
  brand := intent.hardFilters.direct.brand
  category := intent.hardFilters.direct.category
  productType := intent.hardFilters.direct.productType
  colour := intent.hardFilters.direct.colour
  size := intent.hardFilters.direct.size
  gender := intent.hardFilters.direct.gender
  metadata := intent.hardFilters.metadata
  minPrice := intent.hardFilters.minPrice.map fun n => (n : ℚ)
  maxPrice := intent.hardFilters.maxPrice.map fun n => (n : ℚ)
  minAge := intent.hardFilters.age.map (·.1)
  maxAge := intent.hardFilters.age.map (·.2)
  minHeightCm := intent.hardFilters.height.map (·.1)
  maxHeightCm := intent.hardFilters.height.map (·.2)
  minWeightKg := intent.hardFilters.weight.map (·.1)
  maxWeightKg := intent.hardFilters.weight.map (·.2)
  sort := sortOf intent.hardFilters.sort
  pincode := intent.hardFilters.pincode
  swoopstyl := intent.hardFilters.swoopstyl
  rankingVector := intent.rankingVector.map fun e => (e.field, e.value, e.weight)

end Search

end Stylme
