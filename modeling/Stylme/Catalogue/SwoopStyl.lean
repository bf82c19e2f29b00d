-- SUMMARY: The SwoopStyl listing: places in reach, offers in stock there, their scores, and the page.
import Mathlib.Data.Rat.Cast.Defs
import Stylme.Catalogue.Listing

/-!
# SwoopStyl

`_list_swoopstyl_products` lists products that are delivered within a day. It looks
for seller locations near a pincode, for offers in stock at these, keeps the best
offer of every product, and reads the products of one page.
-/

namespace Stylme

open Conc Backend

namespace Catalogue

/-! ## Locations -/

/-- The query of `$geoNear` -/
def Location.serves (l : Location) : Bool :=
  l.status = "active" ∧ l.geocodeResolved ∧ l.swoopstylEnabled ∧ l.handlingHours.any (· ≤ 24)

/-- The committed load is below the capacity; a missing value counts as zero. -/
def Location.hasCapacity (l : Location) : Bool :=
  l.currentCommittedLoad.getD 0 < l.dailyCapacity.getD 0

/-- `min(radius_km, float(location.get("radius_km_override") or radius_km))` -/
def Location.effectiveRadius (l : Location) (radiusKm : ℚ) : ℚ :=
  min radiusKm (if l.radiusKmOverride.getD 0 = 0 then radiusKm else l.radiusKmOverride.getD 0)

/-- A location with its distance from the pincode. -/
structure Place where
  location : Location
  distanceKm : ℚ

section Places

variable {K : Type} (lib : Library K) (store : Store)

/-- The active locations within the radius. -/
def placesWithin (center : Point) (radiusKm : ℚ) : List Place :=
  store.locations.docs.filterMap fun l => l.geoPoint.bind fun point =>
    let meters := lib.distanceMeters center point
    if l.serves ∧ meters ≤ radiusKm * 1000 then some ⟨l, meters / 1000⟩ else none

/-- `locations`: the nearest ones with capacity. -/
def nearestPlaces (center : Point) (radiusKm : ℚ) (ties : Ties) : List Place :=
  ((sortBy (compareOn (·.distanceKm)) (fun place => ties place.location.id)
    (placesWithin lib store center radiusKm)).filter (·.location.hasCapacity)).take 2000

/-- `approved_seller_ids` -/
def approvedSellers (places : List Place) : List ObjectId :=
  (places.map (·.location.sellerID)).eraseDups.filter (· ∈ store.approvedSellerIDs)

/-- `location_map` -/
def reachablePlaces (places : List Place) (radiusKm : ℚ) : List Place :=
  places.filter fun place => place.location.sellerID ∈ approvedSellers store places ∧
    place.distanceKm ≤ place.location.effectiveRadius radiusKm

/-- `location_map` around the point of the pincode -/
def locationMap (radiusKm : ℚ) (center : Point) (ties : Ties) : List Place :=
  reachablePlaces store (nearestPlaces lib store center radiusKm ties) radiusKm

/-- `eligible_offer_filters` -/
def eligibleOfferFilters (filters : OfferFilters) (radiusKm : ℚ) (center : Point) (ties : Ties) :
    OfferFilters :=
  let ids := (locationMap lib store radiusKm center ties).map (·.location.id)
  { filters with
    sellerIDs := some (approvedSellers store (nearestPlaces lib store center radiusKm ties))
    locationIDs := some ids
    inventoryAt := some ids }

/-- `offers`, in any order -/
def fetchedOffers (filters : OfferFilters) (ties : Ties) : List Offer :=
  (sortBy (fun _ _ => .eq) (fun o => ties o.id) (store.offers.docs.filter fun o =>
    o.status = "active" ∧ filters.selectsInventory o ∧ filters.selects o)).take 50000

end Places

/-! ## Scores of stock -/

/-- The request's part in a score: whether it searches, the dimensions that it asks for, and its
radius. -/
structure ScoreContext where
  searchActive : Bool
  signals : List Dimension
  radiusKm : ℚ

/-- An element of `candidates`, for an offer -/
structure Candidate where
  offer : Offer
  place : Place
  inventory : InventoryRow
  fitTier : ℕ
  profileFitMatch : ℚ
  score : ℚ

/-- Between zero and one. -/
def clamp {K : Type} [Field K] [LinearOrder K] (x : K) : K := max 0 (min 1 x)

/-- `relevance_score` and `profile_fit_match` of an offer -/
def ScoreContext.relevance (context : ScoreContext) (o : Offer) : ℚ × ℚ :=
  let signals := context.signals
  if signals = [] then (if context.searchActive then 1 else 7 / 10, 0)
  else
    let fit : ℚ := o.fitScore signals / signals.length
    (65 / 100 + 35 / 100 * fit, fit)

/-- The candidate of one row of the inventory, if the row is in stock in reach. -/
def rowCandidate (context : ScoreContext) (reachable : List Place) (o : Offer) (row : InventoryRow) :
    Except PyErr (Option Candidate) :=
  match reachable.find? (·.location.id = row.locationID) with
  | none => .ok none
  | some place =>
    if ¬ row.stocked then .ok none
    else if context.radiusKm = 0 then .error (.exception "ZeroDivisionError" "float division by zero")
    else
      let capacity : ℚ := max 1 (place.location.dailyCapacity.getD 1)
      let currentLoad : ℚ := max 0 (place.location.currentCommittedLoad.getD 0)
      let capacityScore := clamp ((capacity - currentLoad) / capacity)
      let stockScore := min 1 ((row.availableQty : ℚ) / 25)
      let readinessScore := max 0 (1 - place.location.handlingHours.getD 24 / 24)
      let distanceScore := max 0 (1 - place.distanceKm / context.radiusKm)
      let (relevanceScore, fit) := context.relevance o
      .ok (some {
        offer := o
        place
        inventory := row
        fitTier := o.fitScore context.signals
        profileFitMatch := fit
        score := 60 / 100 * distanceScore + 20 / 100 * relevanceScore + 10 / 100 * capacityScore +
          5 / 100 * stockScore + 5 / 100 * readinessScore })

/-- `candidates` -/
def offerCandidates (context : ScoreContext) (reachable : List Place) (o : Offer) :
    Except PyErr (List Candidate) :=
  (o.inventory.mapM (rowCandidate context reachable o)).map (·.filterMap id)

/-- `(fit_tier, score, -distance_km)` is greater. -/
def Candidate.beats (c d : Candidate) : Bool :=
  d.fitTier < c.fitTier ∨ d.fitTier = c.fitTier ∧
    (d.score < c.score ∨ d.score = c.score ∧ c.place.distanceKm < d.place.distanceKm)

/-- The first of the best candidates. -/
def bestCandidate : List Candidate → Option Candidate
  | [] => none
  | c :: cs => some (cs.foldl (fun best d => if d.beats best then d else best) c)

/-- The best candidates of the offers. -/
def bestOfOffers (context : ScoreContext) (reachable : List Place) (offers : List Offer) :
    Except PyErr (List Candidate) :=
  (offers.mapM (offerCandidates context reachable)).map (·.filterMap bestCandidate)

/-- `best_by_product` -/
def bestByProduct (candidates : List Candidate) : List Candidate :=
  (candidates.map (·.offer.productID)).eraseDups.filterMap fun id =>
    bestCandidate (candidates.filter (·.offer.productID = id))

/-! ## Scores of products -/

section Rank

variable {K : Type} [Field K] [LinearOrder K]

/-- A value of `best_by_product`, once the product's profile is scored. -/
structure Ranked (K : Type) where
  candidate : Candidate
  score : K
  profileMatch : Option ℚ
  logisticsScore : Option K
  semantic : Option (VectorScore K)

/-- The profile of a product that is not found. -/
def Product.noProfile : Product where
  id := 0
  source := ""
  sourceProductID := ""
  brandID := 0
  title := ""
  description := ""
  searchText := ""
  status := ""
  visibility := ""
  categoryKey := none
  productTypeKey := none
  genderKeys := none
  metadata := []
  colorPalette := []
  rating := ⟨0, 0⟩
  catalogueEligible := false
  catalogueMinPricePaise := none
  createdAt := 0

/-- `profile_fields` -/
def profileFields (request : Request) : List (String × List String) :=
  request.softMetadataFilters.filter fun entry => !entry.2.isEmpty

/-- The number of profile fields in which the product has an expected value: `matched_fields` -/
def matchedFields (p : Product) : List (String × List String) → Except Raised ℕ
  | [] => .ok 0
  | (field, expected) :: fields => do
    let items ← if field = "color_family" then .ok (p.colorPalette.flatten.map .str)
      else setOf (p.metadata.lookup field)
    let rest ← matchedFields p fields
    return if items.any fun item => expected.any (isText · item) then rest + 1 else rest

/-- The score after the profile fields. -/
def profileScored (request : Request) (searchActive : Bool) (p : Product) (c : Candidate) :
    Except Raised (K × Option ℚ) :=
  let fields := profileFields request
  if fields = [] then .ok (c.score, none)
  else (matchedFields p fields).map fun matched =>
    let ratio : ℚ := matched / fields.length
    let base : ℚ := if searchActive then 1 else 7 / 10
    ((clamp (c.score + 20 / 100 * (65 / 100 + 35 / 100 * ratio - base)) : ℚ), some ratio)

/-- The scores of a product, given its best candidate. -/
def rankCandidate (lib : Library K) (request : Request) (weights : Weights) (searchActive : Bool)
    (p : Product) (c : Candidate) : Except Raised (Ranked K) := do
  let (logistics, profileMatch) ← profileScored request searchActive p c
  if semanticWeights weights = [] then return ⟨c, logistics, profileMatch, none, none⟩
  else
    let semantic ← semanticScore lib.sqrt (semanticWeights weights) p
    return ⟨c, (70 / 100 : ℚ) * logistics + (30 / 100 : ℚ) * semantic.score, profileMatch,
      some logistics, some semantic⟩

/-- `sorted(…)`: the best products first -/
def compareRanked (lib : Library K) : Ranked K → Ranked K → Ordering :=
  compareLex (fun a b => compare b.candidate.fitTier a.candidate.fitTier)
    (compareLex (fun a b => compare b.score a.score)
      (compareLex (compareOn (·.candidate.place.distanceKm))
        (compareOn fun r => lib.idText r.candidate.offer.productID)))

end Rank

/-! ## The listing -/

section Listing

variable {K : Type} [Field K] [LinearOrder K]

structure SwoopItem (K : Type) where
  product : Product
  /-- `_offers` -/
  offers : List Offer
  ranked : Ranked K

structure SwoopPage (K : Type) where
  items : List (SwoopItem K)
  page : ℕ
  pageSize : ℕ
  total : ℕ
  totalPages : ℕ
  eligibleLocations : ℕ

/-- The answer without products. -/
def emptySwoopPage (request : Request) (eligibleLocations : ℕ) : SwoopPage K :=
  ⟨[], request.page, request.pageSize, 0, 0, eligibleLocations⟩

/-- `pincode_geo["geo_point"]` -/
def pincodePoint (store : Store) (pincode : String) : Option Point :=
  (store.pincodes.find? fun geo =>
    geo.countryCode = "IN" ∧ geo.pincode = pincode ∧ geo.resolved).bind (·.geoPoint)

/-- `{**query, "_id": {"$in": ordered_ids}}` -/
def validProducts (lib : Library K) (store : Store) (plan : Plan) : List Product :=
  store.products.docs.filter fun p => p.catalogueEligible ∧ plan.query.selects lib p

/-- The best candidates of the products, with their scores. -/
def rankedProducts (lib : Library K) (store : Store) (request : Request) (plan : Plan)
    (center : Point) (ties : Ties) : Except PyErr (List (Ranked K)) := do
  let reachable := locationMap lib store request.radiusKm center ties
  if reachable = [] then return []
  else
    let searchActive : Bool := plan.searchTerms ≠ []
    let candidates ← bestOfOffers ⟨searchActive, fitSignals request, request.radiusKm⟩ reachable
      (fetchedOffers store (eligibleOfferFilters lib store plan.filters request.radiusKm center ties)
        ties)
    (bestByProduct candidates).mapM fun c =>
      let product := (store.products.get c.offer.productID).getD .noProfile
      (rankCandidate lib request plan.weights searchActive product c).mapError Raised.error

/-- A page of the ranked products. -/
def swoopPage (lib : Library K) (store : Store) (request : Request) (plan : Plan) (center : Point)
    (ties : Ties) (ranked : List (Ranked K)) : SwoopPage K :=
  let ordered := sortBy (compareRanked lib) (fun _ => 0) ranked
  let eligibleLocations := (locationMap lib store request.radiusKm center ties).length
  if ordered = [] then emptySwoopPage request eligibleLocations
  else
    let valid := ordered.filterMap fun r =>
      ((validProducts lib store plan).find? (·.id = r.candidate.offer.productID)).map (·, r)
    let filters := eligibleOfferFilters lib store plan.filters request.radiusKm center ties
    {
      items := (slice request.page request.pageSize valid).filterMap fun (p, r) =>
        let offers := store.joinedOffers filters p
        if offers.isEmpty then none else some ⟨p, offers, r⟩
      page := request.page
      pageSize := request.pageSize
      total := valid.length
      totalPages := if valid.length = 0 then 0 else pageCount valid.length request.pageSize
      eligibleLocations }

/-- `_list_swoopstyl_products` -/
def listSwoopStyl (lib : Library K) (store : Store) (request : Request) (plan : Plan)
    (pincode : String) (ties : Ties) : Except PyErr (SwoopPage K) :=
  match pincodePoint store pincode with
  | none => .error (.httpException 422 "This pincode is not available in the current SwoopStyl zone map")
  | some center =>
    (rankedProducts lib store request plan center ties).map
      (swoopPage lib store request plan center ties)

end Listing

end Catalogue

end Stylme
