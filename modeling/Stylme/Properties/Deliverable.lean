-- SUMMARY: Every SwoopStyl result is in stock within reach, except where an override of zero is ignored.
import Stylme.Catalogue.Rows
import Stylme.Catalogue.SwoopStyl

/-!
# Deliverable results

An item of a SwoopStyl page comes with the location that would deliver it. The
conditions on that location are checked by the search for places, those on the
offer and its stock by the query for offers, and those on the product by the last
query.
-/

namespace Stylme

open Conc Backend

namespace Catalogue

/-! ## What a result promises -/

section Promise

variable {K : Type} (lib : Library K) (store : Store) (request : Request) (plan : Plan)
variable (center : Point)

/-- The offer of the product has stock at a location that serves the area, within the requested
radius. -/
structure StockedNear (p : Product) (o : Offer) (row : InventoryRow) (l : Location) (km : ℚ) :
    Prop where
  offerStored : o ∈ store.offers
  product : o.productID = p.id
  offerActive : o.status = "active"
  seller : o.sellerID ∈ store.approvedSellerIDs
  filters : plan.filters.selects o
  rowOfOffer : row ∈ o.inventory
  rowActive : row.active
  quantity : 0 < row.availableQty
  locationStored : l ∈ store.locations
  place : l.id = row.locationID
  locationActive : l.status = "active"
  geocoded : l.geocodeResolved
  enabled : l.swoopstylEnabled
  handling : ∃ hours, l.handlingHours = some hours ∧ hours ≤ 24
  capacity : l.currentCommittedLoad.getD 0 < l.dailyCapacity.getD 0
  distance : ∃ point, l.geoPoint = some point ∧ km = lib.distanceMeters center point / 1000
  radius : km ≤ request.radiusKm

/-- The product is what the query asks for, and can be delivered within a day from a location that
goes as far. -/
def Deliverable (p : Product) : Prop :=
  p ∈ store.products ∧ plan.query.selects lib p ∧ ∃ o row l km,
    StockedNear lib store request plan center p o row l km ∧
      ∀ override, l.radiusKmOverride = some override → km ≤ override

/-- The location goes nowhere, but its override of zero is read as none. -/
def Overreaches (l : Location) (km : ℚ) : Prop := l.radiusKmOverride = some 0 ∧ 0 < km

/-- The product has stock in reach, where an override of zero is read as none. -/
def StockedWithin (p : Product) (o : Offer) (row : InventoryRow) (l : Location) (km : ℚ) : Prop :=
  StockedNear lib store request plan center p o row l km ∧
    ∀ override, l.radiusKmOverride = some override → override ≠ 0 → km ≤ override

variable {lib store request plan center}

theorem deliverable_iff {p : Product} : Deliverable lib store request plan center p ↔
    p ∈ store.products ∧ plan.query.selects lib p ∧ ∃ o row l km,
      StockedWithin lib store request plan center p o row l km ∧ ¬ Overreaches l km := by
  refine and_congr_right fun _ => and_congr_right fun _ => ?_
  refine exists_congr fun o => exists_congr fun row => exists_congr fun l => exists_congr fun km => ?_
  rw [StockedWithin, and_assoc]
  refine and_congr_right fun _ => ⟨fun h => ⟨fun r hr _ => h r hr, fun ⟨hzero, hpos⟩ => ?_⟩, ?_⟩
  · exact absurd hpos (not_lt.2 (h 0 hzero))
  · rintro ⟨hset, hover⟩ r hr
    by_cases hzero : r = 0
    · subst hzero
      exact not_lt.1 fun hpos => hover ⟨hr, hpos⟩
    · exact hset r hr hzero

end Promise

/-! ## Places and offers -/

section Reach

variable {K : Type} {lib : Library K} {store : Store} {center : Point} {radiusKm : ℚ} {ties : Ties}

theorem mem_placesWithin {place : Place} (h : place ∈ placesWithin lib store center radiusKm) :
    place.location ∈ store.locations ∧ place.location.serves ∧ place.distanceKm ≤ radiusKm ∧
      ∃ point, place.location.geoPoint = some point ∧
        place.distanceKm = lib.distanceMeters center point / 1000 := by
  obtain ⟨l, hl, h⟩ := List.mem_filterMap.1 h
  obtain ⟨point, hpoint, h⟩ := Option.bind_eq_some_iff.1 h
  dsimp only at h
  split at h
  · rename_i hwithin
    obtain rfl := Option.some.inj h
    exact ⟨hl, hwithin.1, by linarith [hwithin.2], point, hpoint, rfl⟩
  · cases h

theorem mem_nearestPlaces {place : Place} (h : place ∈ nearestPlaces lib store center radiusKm ties) :
    place ∈ placesWithin lib store center radiusKm ∧ place.location.hasCapacity := by
  obtain ⟨hmem, hcapacity⟩ := List.mem_filter.1 (List.mem_of_mem_take h)
  exact ⟨mem_sortBy.1 hmem, hcapacity⟩

/-- An override that is set and not zero bounds the distance. -/
theorem le_override {l : Location} {km : ℚ} (h : km ≤ l.effectiveRadius radiusKm) {override : ℚ}
    (hset : l.radiusKmOverride = some override) (hne : override ≠ 0) : km ≤ override := by
  simp only [Location.effectiveRadius, hset, Option.getD_some, hne, if_false] at h
  exact h.trans (min_le_right _ _)

theorem mem_fetchedOffers {filters : OfferFilters} {o : Offer} (h : o ∈ fetchedOffers store filters ties) :
    o ∈ store.offers ∧ o.status = "active" ∧ filters.selectsInventory o ∧ filters.selects o := by
  obtain ⟨hmem, hselects⟩ := List.mem_filter.1 (mem_sortBy.1 (List.mem_of_mem_take h))
  exact ⟨hmem, of_decide_eq_true hselects⟩

theorem mem_approvedSellers {places : List Place} {id : ObjectId}
    (h : id ∈ approvedSellers store places) : id ∈ store.approvedSellerIDs :=
  of_decide_eq_true (List.mem_filter.1 h).2

end Reach

/-! ## Candidates -/

section Candidates

variable {K : Type} {context : ScoreContext} {reachable : List Place} {o : Offer}

theorem rowCandidate_eq_some {row : InventoryRow} {c : Candidate}
    (h : rowCandidate context reachable o row = .ok (some c)) :
    c.offer = o ∧ c.inventory = row ∧ row.stocked ∧ c.place ∈ reachable ∧
      c.place.location.id = row.locationID := by
  unfold rowCandidate at h
  split at h
  · cases h
  · rename_i place hplace
    split_ifs at h with hstock hzero
    · obtain rfl := Option.some.inj (Except.ok.inj h)
      exact ⟨rfl, rfl, hstock, List.mem_of_find?_eq_some hplace, by simpa using List.find?_some hplace⟩
    · cases h

/-- A row in stock in reach has a candidate, unless its score raises. -/
theorem isSome_of_rowCandidate {row : InventoryRow} (hstock : row.stocked)
    (hplace : ∃ place ∈ reachable, place.location.id = row.locationID) {c : Option Candidate}
    (h : rowCandidate context reachable o row = .ok c) : c.isSome := by
  unfold rowCandidate at h
  split at h
  · rename_i hnone
    obtain ⟨place, hmem, hid⟩ := hplace
    exact absurd (decide_eq_true hid) (List.find?_eq_none.1 hnone place hmem)
  · split_ifs at h with hzero
    obtain rfl := Except.ok.inj h
    rfl

theorem bestCandidate_mem {cs : List Candidate} {c : Candidate} (h : bestCandidate cs = some c) :
    c ∈ cs := by
  have hfold : ∀ (l : List Candidate) (best : Candidate),
      l.foldl (fun best d => if d.beats best then d else best) best ∈ best :: l := by
    intro l
    induction l with
    | nil => exact fun best => List.mem_singleton_self best
    | cons d l ih =>
      intro best
      rw [List.foldl_cons]
      rcases List.mem_cons.1 (ih (if d.beats best then d else best)) with heq | hmem
      · rw [heq]
        split
        · exact List.mem_cons_of_mem _ List.mem_cons_self
        · exact List.mem_cons_self
      · exact List.mem_cons_of_mem _ (List.mem_cons_of_mem _ hmem)
  cases cs with
  | nil => cases h
  | cons best l => exact Option.some.inj h ▸ hfold l best

theorem bestCandidate_isSome {cs : List Candidate} (h : cs ≠ []) : ∃ c, bestCandidate cs = some c := by
  obtain ⟨best, l, rfl⟩ := List.exists_cons_of_ne_nil h
  exact ⟨_, rfl⟩

/-- A candidate is a row in stock of a fetched offer, at a place in reach. -/
structure FromStock (reachable : List Place) (offers : List Offer) (c : Candidate) : Prop where
  offer : c.offer ∈ offers
  inventory : c.inventory ∈ c.offer.inventory
  stocked : c.inventory.stocked
  place : c.place ∈ reachable
  location : c.place.location.id = c.inventory.locationID

theorem offerCandidates_fromStock {offers : List Offer} (ho : o ∈ offers) {cs : List Candidate}
    (h : offerCandidates context reachable o = .ok cs) {c : Candidate} (hc : c ∈ cs) :
    FromStock reachable offers c ∧ c.offer = o := by
  obtain ⟨rows, hrows, rfl⟩ := map_eq_ok.1 h
  obtain ⟨c', hc', rfl⟩ := List.mem_filterMap.1 hc
  obtain ⟨row, hrow, hcandidate⟩ := exists_of_mem_mapM hrows hc'
  obtain ⟨rfl, rfl, hstock, hplace, hid⟩ := rowCandidate_eq_some hcandidate
  exact ⟨⟨ho, hrow, hstock, hplace, hid⟩, rfl⟩

theorem bestOfOffers_fromStock {offers : List Offer} {cs : List Candidate}
    (h : bestOfOffers context reachable offers = .ok cs) {c : Candidate} (hc : c ∈ cs) :
    FromStock reachable offers c := by
  obtain ⟨groups, hgroups, rfl⟩ := map_eq_ok.1 h
  obtain ⟨group, hgroup, hbest⟩ := List.mem_filterMap.1 hc
  obtain ⟨o, ho, hcandidates⟩ := exists_of_mem_mapM hgroups hgroup
  exact (offerCandidates_fromStock ho hcandidates (bestCandidate_mem hbest)).1

/-- Every fetched offer with stock in reach has its best candidate. -/
theorem exists_bestOfOffers {offers : List Offer} {cs : List Candidate}
    (h : bestOfOffers context reachable offers = .ok cs) (ho : o ∈ offers)
    (hstock : ∃ row ∈ o.inventory, row.stocked ∧
      ∃ place ∈ reachable, place.location.id = row.locationID) : ∃ c ∈ cs, c.offer = o := by
  obtain ⟨groups, hgroups, rfl⟩ := map_eq_ok.1 h
  obtain ⟨group, hgroup, hcandidates⟩ := mem_mapM_of_mem hgroups ho
  obtain ⟨rows, hrows, hrows'⟩ := map_eq_ok.1 hcandidates
  obtain ⟨row, hrow, hstocked, hplace⟩ := hstock
  obtain ⟨c, hc, hcandidate⟩ := mem_mapM_of_mem hrows hrow
  obtain ⟨c, rfl⟩ := Option.isSome_iff_exists.1 (isSome_of_rowCandidate hstocked hplace hcandidate)
  have hmem : c ∈ group := hrows' ▸ List.mem_filterMap.2 ⟨_, hc, rfl⟩
  obtain ⟨best, hbest⟩ := bestCandidate_isSome (List.ne_nil_of_mem hmem)
  exact ⟨best, List.mem_filterMap.2 ⟨group, hgroup, hbest⟩,
    (offerCandidates_fromStock ho hcandidates (bestCandidate_mem hbest)).2⟩

theorem mem_of_mem_bestByProduct {cs : List Candidate} {c : Candidate} (h : c ∈ bestByProduct cs) :
    c ∈ cs := by
  obtain ⟨id, -, hbest⟩ := List.mem_filterMap.1 h
  exact (List.mem_filter.1 (bestCandidate_mem hbest)).1

/-- Every product with a candidate has its best one. -/
theorem exists_bestByProduct {cs : List Candidate} {c : Candidate} (h : c ∈ cs) :
    ∃ best ∈ bestByProduct cs, best.offer.productID = c.offer.productID := by
  have hgroup : c ∈ cs.filter (·.offer.productID = c.offer.productID) :=
    List.mem_filter.2 ⟨h, decide_eq_true rfl⟩
  obtain ⟨best, hbest⟩ := bestCandidate_isSome (List.ne_nil_of_mem hgroup)
  refine ⟨best, List.mem_filterMap.2 ⟨_, ?_, hbest⟩, ?_⟩
  · exact List.mem_eraseDups.2 (List.mem_map_of_mem h)
  · exact of_decide_eq_true (List.mem_filter.1 (bestCandidate_mem hbest)).2

end Candidates

/-! ## Pages -/

section Page

variable {K : Type} [Field K] [LinearOrder K] {lib : Library K} {store : Store} {request : Request}
variable {plan : Plan} {pincode : String} {ties : Ties}

theorem rankCandidate_candidate {weights : Weights} {searchActive : Bool} {p : Product}
    {c : Candidate} {r : Ranked K} (h : rankCandidate lib request weights searchActive p c = .ok r) :
    r.candidate = c := by
  obtain ⟨scored, -, h⟩ := bind_eq_ok.1 h
  obtain ⟨logistics, profileMatch⟩ := scored
  dsimp only at h
  split at h
  · obtain rfl := Except.ok.inj h
    rfl
  · obtain ⟨semantic, -, h⟩ := bind_eq_ok.1 h
    obtain rfl := Except.ok.inj h
    rfl

/-- What the ranked candidates of a request are made of. -/
structure RankedFrom (lib : Library K) (store : Store) (request : Request) (plan : Plan)
    (center : Point) (ties : Ties) (ranked : List (Ranked K)) : Prop where
  fromStock : ∀ r ∈ ranked, FromStock (locationMap lib store request.radiusKm center ties)
    (fetchedOffers store (eligibleOfferFilters lib store plan.filters request.radiusKm center ties)
      ties) r.candidate
  complete : ∀ o ∈ fetchedOffers store
      (eligibleOfferFilters lib store plan.filters request.radiusKm center ties) ties,
    ∃ r ∈ ranked, r.candidate.offer.productID = o.productID

omit [Field K] [LinearOrder K] in
/-- The query for offers finds offers with stock in reach. -/
theorem exists_stock {filters : OfferFilters} {radiusKm : ℚ} {center : Point} {o : Offer}
    (h : o ∈ fetchedOffers store (eligibleOfferFilters lib store filters radiusKm center ties) ties) :
    ∃ row ∈ o.inventory, row.stocked ∧
      ∃ place ∈ locationMap lib store radiusKm center ties, place.location.id = row.locationID := by
  obtain ⟨-, -, hinventory, -⟩ := mem_fetchedOffers h
  obtain ⟨row, hrow, hstock⟩ := List.any_eq_true.1 hinventory
  obtain ⟨hid, hstocked⟩ := of_decide_eq_true hstock
  obtain ⟨place, hplace, hid⟩ := List.mem_map.1 hid
  exact ⟨row, hrow, hstocked, place, hplace, hid⟩

theorem rankedProducts_from {center : Point} {ranked : List (Ranked K)}
    (h : rankedProducts lib store request plan center ties = .ok ranked) :
    RankedFrom lib store request plan center ties ranked := by
  unfold rankedProducts at h
  dsimp only at h
  split at h
  · rename_i hnone
    obtain rfl := Except.ok.inj h
    refine ⟨fun r hr => absurd hr List.not_mem_nil, fun o ho => ?_⟩
    obtain ⟨-, -, -, place, hplace, -⟩ := exists_stock ho
    rw [hnone] at hplace
    exact absurd hplace List.not_mem_nil
  · obtain ⟨candidates, hcandidates, h⟩ := bind_eq_ok.1 h
    have hcandidate : ∀ {c : Candidate} {r : Ranked K},
        (rankCandidate lib request plan.weights (plan.searchTerms ≠ [] : Bool)
          ((store.products.get c.offer.productID).getD .noProfile) c).mapError Raised.error = .ok r →
        r.candidate = c := by
      intro c r hr
      cases hrank : rankCandidate lib request plan.weights (plan.searchTerms ≠ [] : Bool)
          ((store.products.get c.offer.productID).getD .noProfile) c with
      | error e =>
        rw [hrank] at hr
        cases hr
      | ok r' =>
        rw [hrank] at hr
        obtain rfl := Except.ok.inj hr
        exact rankCandidate_candidate hrank
    refine ⟨fun r hr => ?_, fun o ho => ?_⟩
    · obtain ⟨c, hc, hr⟩ := exists_of_mem_mapM h hr
      rw [hcandidate hr]
      exact bestOfOffers_fromStock hcandidates (mem_of_mem_bestByProduct hc)
    · obtain ⟨c, hc, rfl⟩ := exists_bestOfOffers hcandidates ho (exists_stock ho)
      obtain ⟨best, hbest, hid⟩ := exists_bestByProduct hc
      obtain ⟨r, hr, hrank⟩ := mem_mapM_of_mem h hbest
      exact ⟨r, hr, by rw [hcandidate hrank, hid]⟩

omit [Field K] in
/-- The items of a page are ranked products that the query selects. -/
theorem mem_swoopPage {center : Point} {ranked : List (Ranked K)} {item : SwoopItem K}
    (h : item ∈ (swoopPage lib store request plan center ties ranked).items) :
    item.ranked ∈ ranked ∧ item.product ∈ validProducts lib store plan ∧
      item.product.id = item.ranked.candidate.offer.productID := by
  unfold swoopPage at h
  dsimp only at h
  split at h
  · exact absurd h List.not_mem_nil
  · obtain ⟨⟨p, r⟩, hslice, hitem⟩ := List.mem_filterMap.1 h
    obtain ⟨r', hr, hvalid⟩ := List.mem_filterMap.1 (mem_of_mem_slice hslice)
    obtain ⟨p', hfind, heq⟩ := Option.map_eq_some_iff.1 hvalid
    obtain ⟨rfl, rfl⟩ := Prod.mk.inj heq
    dsimp only at hitem
    split at hitem
    · cases hitem
    · obtain rfl := Option.some.inj hitem
      exact ⟨mem_sortBy.1 hr, List.mem_of_find?_eq_some hfind, by simpa using List.find?_some hfind⟩

omit [Field K] in
/-- Every ranked product that the query selects is on some page. -/
theorem exists_swoopPage {center : Point} {ranked : List (Ranked K)} {r : Ranked K} (hr : r ∈ ranked)
    {p : Product} (hp : p ∈ validProducts lib store plan) (hid : r.candidate.offer.productID = p.id)
    (hoffers : store.joinedOffers
      (eligibleOfferFilters lib store plan.filters request.radiusKm center ties) p ≠ []) :
    ∃ page, ∃ item ∈ (swoopPage lib store (request.atPage page 1) plan center ties ranked).items,
      item.product = p := by
  set valid := (sortBy (compareRanked lib) (fun _ => 0) ranked).filterMap fun r =>
    ((validProducts lib store plan).find? (·.id = r.candidate.offer.productID)).map (·, r) with hvalid
  have hmem : (p, r) ∈ valid := by
    refine List.mem_filterMap.2 ⟨r, mem_sortBy.2 hr, ?_⟩
    cases hfind : (validProducts lib store plan).find? (·.id = r.candidate.offer.productID) with
    | none => exact absurd (decide_eq_true hid.symm) (List.find?_eq_none.1 hfind p hp)
    | some p' =>
      have hid' : p'.id = p.id := by simpa [hid] using List.find?_some hfind
      have hp' := List.mem_of_find?_eq_some hfind
      rw [store.products.eq_of_id_eq (List.mem_filter.1 hp').1 (List.mem_filter.1 hp).1 hid']
      rfl
  obtain ⟨i, hi, hget⟩ := List.getElem_of_mem hmem
  have hordered : sortBy (compareRanked lib) (fun _ => 0) ranked ≠ [] :=
    List.ne_nil_of_mem (mem_sortBy.2 hr)
  refine ⟨i + 1, ⟨p, store.joinedOffers
    (eligibleOfferFilters lib store plan.filters request.radiusKm center ties) p, r⟩, ?_, rfl⟩
  unfold swoopPage
  dsimp only
  rw [if_neg hordered]
  refine List.mem_filterMap.2 ⟨(p, r), ?_, ?_⟩
  · change (p, r) ∈ slice (i + 1) 1 valid
    rw [slice_one hi, hget]
    exact List.mem_singleton_self _
  · exact if_neg (mt List.isEmpty_iff.1 hoffers)

omit [Field K] [LinearOrder K] in
/-- What the queries find is stock in reach, where an override of zero is read as none. -/
theorem stockedWithin_of_mem {center : Point} (hfilters : plan.filters.Unlocated) {p : Product}
    {o : Offer} (ho : o ∈ fetchedOffers store
      (eligibleOfferFilters lib store plan.filters request.radiusKm center ties) ties)
    (hid : o.productID = p.id) {row : InventoryRow} (hrow : row ∈ o.inventory) (hstock : row.stocked)
    {place : Place} (hplace : place ∈ locationMap lib store request.radiusKm center ties)
    (hlocated : place.location.id = row.locationID) :
    StockedWithin lib store request plan center p o row place.location place.distanceKm := by
  obtain ⟨hoffer, hactive, -, hselects⟩ := mem_fetchedOffers ho
  obtain ⟨hplace, hreach⟩ := List.mem_filter.1 hplace
  obtain ⟨-, heffective⟩ := of_decide_eq_true hreach
  obtain ⟨hwithin, hcapacity⟩ := mem_nearestPlaces hplace
  obtain ⟨hlocation, hserves, hradius, hpoint⟩ := mem_placesWithin hwithin
  obtain ⟨hstatus, hgeocoded, henabled, hhandling⟩ := of_decide_eq_true hserves
  obtain ⟨hours, hhours, hle⟩ := (Option.any_eq_true _ _).1 hhandling
  obtain ⟨hrowActive, hquantity⟩ := of_decide_eq_true hstock
  obtain ⟨hsize, hfamily, hcolor, hprice, hoverlaps, hseller, -⟩ := of_decide_eq_true hselects
  have hfiltered : plan.filters.selects o :=
    decide_eq_true ⟨hsize, hfamily, hcolor, hprice, hoverlaps, by rw [hfilters.sellerIDs]; rfl,
      by rw [hfilters.locationIDs]; rfl⟩
  exact ⟨⟨hoffer, hid, hactive, mem_approvedSellers (of_decide_eq_true hseller), hfiltered,
    hrow, hrowActive, hquantity, hlocation, hlocated, hstatus, hgeocoded, henabled,
    ⟨hours, hhours, of_decide_eq_true hle⟩, of_decide_eq_true hcapacity, hpoint, hradius⟩,
    fun _ hset hne => le_override heffective hset hne⟩

/-- Every item of every page can be delivered as promised. -/
def ResultsDeliverable (lib : Library K) (store : Store) (request : Request) (plan : Plan)
    (pincode : String) (ties : Ties) : Prop :=
  ∀ page size result, listSwoopStyl lib store (request.atPage page size) plan pincode ties = .ok result →
    ∀ item ∈ result.items, ∃ center, pincodePoint store pincode = some center ∧
      Deliverable lib store request plan center item.product

/-- All the stock of the product that the queries find is at locations that overreach. -/
def OnlyOverreached (lib : Library K) (store : Store) (request : Request) (plan : Plan)
    (center : Point) (ties : Ties) (p : Product) : Prop :=
  ∀ o ∈ fetchedOffers store
      (eligibleOfferFilters lib store plan.filters request.radiusKm center ties) ties,
    o.productID = p.id → ∀ row ∈ o.inventory, row.stocked →
      ∀ place ∈ locationMap lib store request.radiusKm center ties,
        place.location.id = row.locationID → Overreaches place.location place.distanceKm

end Page

namespace Sample

/-- A shop whose location is eleven kilometres from a pincode, and has this override. -/
def nearShop (override : Option ℚ) : Store :=
  { shop ⟨[shawl 1 10 ⟨4, 2⟩ (some 90000)], by decide, by decide⟩
      oneOffer with
    locations := ⟨[{
      id := 1
      sellerID := 1
      status := "active"
      geoPoint := some ⟨77, 281 / 10⟩
      geocodeResolved := true
      swoopstylEnabled := true
      handlingHours := some 12
      currentCommittedLoad := some 0
      dailyCapacity := some 5
      radiusKmOverride := override }], List.nodup_singleton _, List.nodup_singleton _⟩
    pincodes := [⟨"IN", "110001", true, some ⟨77, 28⟩⟩] }

def swoopRequest : Request :=
  { sortBy := "createdAt", order := "desc", radiusKm := 100, swoopstyl := true,
    pincode := some "110001" }

end Sample

end Catalogue

end Stylme
