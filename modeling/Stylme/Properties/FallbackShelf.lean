-- SUMMARY: The levels of the fallback shelf only relax each other, and the shelf is that of the first level with a product.
import Stylme.Catalogue.Search
import Stylme.Properties.Deliverable
import Stylme.Properties.PagePartition

/-!
# The fallback shelf

A search that finds nothing shows what the first of four levels finds. A level is a listing request
of its own. Whether a product belongs to a listing depends neither on its page nor on its order.
-/

namespace Stylme

open Conc Backend

namespace Catalogue

/-! ## Admitted products -/

section Admission

variable {K : Type} (lib : Library K) (store : Store)

/-- The product is among those that the listing of the request counts. -/
def Admits (request : Request) (ties : Ties) (p : Product) : Prop :=
  ∃ plan, resolveRequest lib store request = .ok plan ∧
    if request.swoopstyl then
      p ∈ validProducts lib store plan ∧
        ∃ center, pincodePoint store (request.pincode.getD "") = some center ∧
          ∃ o ∈ fetchedOffers store (eligibleOfferFilters lib store plan.filters request.radiusKm center ties) ties,
            o.productID = p.id
    else p ∈ matchedProducts lib store plan

/-- The product may be shown to a shopper. -/
structure Showable (p : Product) : Prop where
  eligible : p.catalogueEligible
  active : p.status = "active"
  visible : p.visibility = "public"
  type : ∀ type ∈ p.productTypeKey, type ∉ excludedProductTypes
  text : ∀ text ∈ [p.title, p.description, p.searchText], ¬ lib.patternMatches forbiddenProductTextPattern text

variable {lib store} {request : Request} {ties : Ties} {p : Product}

theorem admits_atPage {page size : ℕ} :
    Admits lib store (request.atPage page size) ties p ↔ Admits lib store request ties p := Iff.rfl

end Admission

/-- The products of a listing's page. -/
def Listing.products {K : Type} : Listing K → List Product
  | page p => p.items.map (·.product)
  | swoopStyl p => p.items.map (·.product)

/-! ## Totals -/

section Totals

variable {K : Type} [Field K] [LinearOrder K] {lib : Library K} {store : Store} {request : Request} {plan : Plan}
variable {ties : Ties} {p : Product} {rows : List (Row K)}

omit [Field K] [LinearOrder K] in
theorem isSet_of_not_early (hplan : plan.PlanOf lib store request) (h : ¬ canPageBeforeOfferJoin request plan) :
    plan.filters.isSet := by
  by_contra hset
  refine h (decide_eq_true ⟨?_, fun hprice => hset hprice.1⟩)
  have hoverlaps : plan.filters.overlaps = [] := by
    by_contra hne
    exact hset (by simp [OfferFilters.isSet, hne])
  rw [fitSignals, ← hplan.overlaps, hoverlaps, List.map_nil]

omit [Field K] [LinearOrder K] in
/-- Where the offers are joined first, every matched product has one. -/
theorem joinedOffers_of_matched (hset : plan.filters.isSet) (hp : p ∈ matchedProducts lib store plan) :
    store.joinedOffers plan.filters p ≠ [] :=
  Store.mem_eligibleProductIDs.1 ((mem_matchedProducts hp).2.2 hset)

/-- The total of a page is that of the candidates. -/
theorem total_listPlanned (hplan : plan.PlanOf lib store request) {page : Page K}
    (h : listPlanned lib store request plan ties = .ok page) :
    page.total = reportedTotal request plan (matchedProducts lib store plan).length := by
  rw [listPlanned] at h
  split at h
  · rename_i hnone
    cases h
    have hnil : matchedProducts lib store plan = [] := by
      refine List.eq_nil_iff_forall_not_mem.2 fun p hp => ?_
      have hmem := (mem_matchedProducts hp).2.2 hnone.1
      rw [hnone.2] at hmem
      exact List.not_mem_nil hmem
    simp [emptyPage, reportedTotal, hnil]
  · obtain ⟨rows, hrows, h⟩ := bind_eq_ok.1 h
    cases h
    have hrows : ScoredRows lib plan (matchedProducts lib store plan) rows := hrows
    have hlength : rows.length = (matchedProducts lib store plan).length := by
      rw [← hrows.map_product, List.length_map]
    dsimp only
    by_cases hearly : canPageBeforeOfferJoin request plan
    · rw [if_pos hearly, pagedBeforeJoin, length_prelimit, hlength]
    · rw [if_neg hearly, joinedBeforePage]
      dsimp only
      rw [joinRows_eq_map, List.length_map, length_prelimit, hlength]
      intro row hrow
      exact joinedOffers_of_matched (isSet_of_not_early hplan hearly)
        (hrows.mem_product (perm_candidates.mem_iff.1 (prelimit_sublist.mem hrow)))

theorem reportedTotal_pos {count : ℕ} : 0 < reportedTotal request plan count ↔ 0 < count := by
  unfold reportedTotal candidateLimit
  split
  · omega
  · rfl

/-- The products of a page are matched. -/
theorem mem_matched_of_page {page : Page K} (h : listPlanned lib store request plan ties = .ok page)
    (hp : p ∈ page.items.map (·.product)) : p ∈ matchedProducts lib store plan := by
  rw [listPlanned] at h
  split at h
  · cases h
    cases hp
  · obtain ⟨rows, hrows, h⟩ := bind_eq_ok.1 h
    cases h
    have hrows : ScoredRows lib plan (matchedProducts lib store plan) rows := hrows
    have hmatched : ∀ row ∈ prelimit request plan rows, row.product ∈ matchedProducts lib store plan :=
      fun row hrow => hrows.mem_product (perm_candidates.mem_iff.1 (prelimit_sublist.mem hrow))
    obtain ⟨row, hrow, rfl⟩ := List.mem_map.1 hp
    dsimp only at hrow
    by_cases hearly : canPageBeforeOfferJoin request plan
    · rw [if_pos hearly] at hrow
      obtain ⟨row', hrow', rfl⟩ := List.mem_map.1 (List.mem_filter.1 hrow).1
      exact hmatched row' (mem_sortBy.1 (mem_of_mem_slice hrow'))
    · rw [if_neg hearly] at hrow
      obtain ⟨row', hrow', rfl⟩ := List.mem_map.1 (List.mem_filter.1 (mem_sortBy.1 (mem_of_mem_slice hrow))).1
      exact hmatched row' hrow'

/-- A SwoopStyl page counts the valid products with an offer in reach. -/
theorem total_swoopPage_pos {center : Point} {ranked : List (Ranked K)}
    (h : rankedProducts lib store request plan center ties = .ok ranked) :
    0 < (swoopPage lib store request plan center ties ranked).total ↔ ∃ p ∈ validProducts lib store plan,
      ∃ o ∈ fetchedOffers store (eligibleOfferFilters lib store plan.filters request.radiusKm center ties) ties,
        o.productID = p.id := by
  have hfrom := rankedProducts_from h
  have hcount : 0 < (swoopPage lib store request plan center ties ranked).total ↔
      ∃ r ∈ ranked, ∃ p ∈ validProducts lib store plan, p.id = r.candidate.offer.productID := by
    unfold swoopPage
    dsimp only
    by_cases hnone : sortBy (compareRanked lib) (fun _ => 0) ranked = []
    · rw [if_pos hnone]
      have hranked : ranked = [] := List.length_eq_zero_iff.1 (by rw [← length_sortBy, hnone, List.length_nil])
      simp [emptySwoopPage, hranked]
    · rw [if_neg hnone, List.length_pos_iff_exists_mem]
      constructor
      · rintro ⟨⟨p, r⟩, hmem⟩
        obtain ⟨r', hr', hfind⟩ := List.mem_filterMap.1 hmem
        obtain ⟨p', hp', heq⟩ := Option.map_eq_some_iff.1 hfind
        obtain ⟨rfl, rfl⟩ := Prod.mk.inj heq
        exact ⟨r', mem_sortBy.1 hr', p', List.mem_of_find?_eq_some hp', by simpa using List.find?_some hp'⟩
      · rintro ⟨r, hr, p, hp, hid⟩
        cases hfind : (validProducts lib store plan).find? (·.id = r.candidate.offer.productID) with
        | none => exact absurd (decide_eq_true hid) (List.find?_eq_none.1 hfind p hp)
        | some p' => exact ⟨(p', r), List.mem_filterMap.2 ⟨r, mem_sortBy.2 hr, by rw [hfind]; rfl⟩⟩
  rw [hcount]
  constructor
  · rintro ⟨r, hr, p, hp, hid⟩
    exact ⟨p, hp, _, (hfrom.fromStock r hr).offer, hid.symm⟩
  · rintro ⟨p, hp, o, ho, hid⟩
    obtain ⟨r, hr, hproduct⟩ := hfrom.complete o ho
    exact ⟨r, hr, p, hp, by rw [hproduct, hid]⟩

variable {listing : Listing K}

/-- A listing finds something exactly if the request admits a product. -/
theorem total_pos_iff (h : listPublicProducts lib store request ties = .ok listing) :
    0 < listing.total ↔ ∃ p, Admits lib store request ties p := by
  unfold listPublicProducts at h
  unfold Admits
  cases hplan : resolveRequest lib store request with
  | error exit =>
    rw [hplan] at h
    cases exit with
    | http => cases h
    | emptyPage =>
      cases h
      refine iff_of_false (Nat.lt_irrefl 0) ?_
      rintro ⟨p, plan, hplan', -⟩
      cases hplan'
  | ok plan =>
    rw [hplan] at h
    dsimp only at h
    by_cases hswoop : request.swoopstyl
    · rw [if_pos hswoop] at h
      by_cases hpincode : request.pincode.getD "" = ""
      · rw [if_pos hpincode] at h
        cases h
      rw [if_neg hpincode] at h
      obtain ⟨page, hpage, rfl⟩ := map_eq_ok.1 h
      rw [listSwoopStyl] at hpage
      cases hcenter : pincodePoint store (request.pincode.getD "") with
      | none =>
        rw [hcenter] at hpage
        cases hpage
      | some center =>
        rw [hcenter] at hpage
        obtain ⟨ranked, hranked, rfl⟩ := map_eq_ok.1 hpage
        rw [Listing.total, total_swoopPage_pos hranked]
        refine exists_congr fun p => ?_
        constructor
        · rintro ⟨hp, hoffer⟩
          exact ⟨plan, rfl, by rw [if_pos hswoop]; exact ⟨hp, center, rfl, hoffer⟩⟩
        · rintro ⟨plan', hplan', hadmits⟩
          cases hplan'
          rw [if_pos hswoop] at hadmits
          obtain ⟨hp, center', hcenter', hoffer⟩ := hadmits
          cases hcenter'
          exact ⟨hp, hoffer⟩
    · rw [if_neg hswoop] at h
      obtain ⟨page, hpage, rfl⟩ := map_eq_ok.1 h
      rw [Listing.total, total_listPlanned (resolveRequest_planOf hplan) hpage, reportedTotal_pos,
        List.length_pos_iff_exists_mem]
      refine exists_congr fun p => ?_
      constructor
      · intro hp
        exact ⟨plan, rfl, by rw [if_neg hswoop]; exact hp⟩
      · rintro ⟨plan', hplan', hadmits⟩
        cases hplan'
        rwa [if_neg hswoop] at hadmits

/-- Whatever a listing shows, the request admits. -/
theorem admits_of_mem_products (h : listPublicProducts lib store request ties = .ok listing)
    (hp : p ∈ listing.products) : Admits lib store request ties p := by
  unfold listPublicProducts at h
  cases hplan : resolveRequest lib store request with
  | error exit =>
    rw [hplan] at h
    cases exit with
    | http => cases h
    | emptyPage =>
      cases h
      cases hp
  | ok plan =>
    rw [hplan] at h
    dsimp only at h
    refine ⟨plan, hplan, ?_⟩
    by_cases hswoop : request.swoopstyl
    · rw [if_pos hswoop] at h ⊢
      by_cases hpincode : request.pincode.getD "" = ""
      · rw [if_pos hpincode] at h
        cases h
      rw [if_neg hpincode] at h
      obtain ⟨page, hpage, rfl⟩ := map_eq_ok.1 h
      rw [listSwoopStyl] at hpage
      cases hcenter : pincodePoint store (request.pincode.getD "") with
      | none =>
        rw [hcenter] at hpage
        cases hpage
      | some center =>
        rw [hcenter] at hpage
        obtain ⟨ranked, hranked, rfl⟩ := map_eq_ok.1 hpage
        obtain ⟨item, hitem, rfl⟩ := List.mem_map.1 hp
        obtain ⟨hr, hvalid, hid⟩ := mem_swoopPage hitem
        exact ⟨hvalid, center, rfl, _, ((rankedProducts_from hranked).fromStock _ hr).offer, hid.symm⟩
    · rw [if_neg hswoop] at h ⊢
      obtain ⟨page, hpage, rfl⟩ := map_eq_ok.1 h
      exact mem_matched_of_page hpage hp

end Totals

/-! ## Relaxation -/

section Relaxation

/-- A request by category, product type, department and price alone. -/
structure Request.Broad (r : Request) : Prop where
  search : r.search = none
  brandID : r.brandID = none
  brand : r.brand = []
  colour : r.colour = []
  size : r.size = []
  metadataFilters : r.metadataFilters = []
  overlaps : r.overlaps = []
  requireSoftMatch : r.requireSoftMatch = false

/-- `r'` is broad, and asks for nothing that `r` does not ask for. -/
structure Request.Relaxes (r r' : Request) : Prop where
  search : r.search = none
  broad : r'.Broad
  category : r'.category = [] ∨ r'.category = r.category
  productType : r'.productType = [] ∨ r'.productType = r.productType
  gender : r'.gender = [] ∨ r'.gender = r.gender
  price : (r'.minPricePaise = none ∧ r'.maxPricePaise = none) ∨
    (r'.minPricePaise = r.minPricePaise ∧ r'.maxPricePaise = r.maxPricePaise)
  excluded : r'.excludedProductTypes = r.excludedProductTypes ∧ r'.excludedTextPattern = r.excludedTextPattern
  place : r'.swoopstyl = false ∨
    (r'.swoopstyl = r.swoopstyl ∧ r'.pincode = r.pincode ∧ r'.radiusKm = r.radiusKm)

variable {K : Type} {lib : Library K} {store : Store} {r r' : Request} {plan plan' : Plan} {ties : Ties} {p : Product}

theorem excludedConditions_eq (h : r'.excludedProductTypes = r.excludedProductTypes)
    (h' : r'.excludedTextPattern = r.excludedTextPattern) : excludedConditions r' = excludedConditions r := by
  rw [excludedConditions, excludedConditions, h, h']

theorem salePricePaise_addColours {colour : List String} {filters filters' : OfferFilters}
    (h : addColours lib store colour filters = .ok filters') : filters'.salePricePaise = filters.salePricePaise := by
  unfold addColours at h
  dsimp only at h
  split_ifs at h <;> cases h <;> rfl

theorem salePricePaise_addSizes {fields : Option (List MetadataField)} {size : List String}
    {filters filters' : OfferFilters} (h : addSizes lib store fields size filters = .ok filters') :
    filters'.salePricePaise = filters.salePricePaise := by
  unfold addSizes at h
  dsimp only at h
  split_ifs at h <;> cases h <;> rfl

/-- What the plan of a request makes of its category, its product type, its department, its price and what it
leaves out. -/
structure PlanParts (lib : Library K) (store : Store) (r : Request) (plan : Plan) (genders : List ProductCondition) :
    Prop where
  category : keyFilter lib store "category" r.category = .ok plan.query.categoryKeys
  productType : keyFilter lib store "product_type" r.productType = .ok plan.query.productTypeKeys
  gender : genderConditions lib ((taxonomyFields store r).getD []) r.gender = .ok genders
  conditions : ∀ c ∈ excludedConditions r ++ genders, c ∈ plan.query.conditions
  price : plan.filters.salePricePaise = priceFilter r.minPricePaise (r.maxPricePaise <|> (searchTerms lib r).2)

theorem exists_planParts (h : resolveRequest lib store r = .ok plan) : ∃ genders, PlanParts lib store r plan genders := by
  unfold resolveRequest at h
  obtain ⟨category, hcategory, h⟩ := bind_eq_ok.1 h
  obtain ⟨productType, hproductType, h⟩ := bind_eq_ok.1 h
  obtain ⟨brand, -, h⟩ := bind_eq_ok.1 h
  obtain ⟨gender, hgender, h⟩ := bind_eq_ok.1 h
  obtain ⟨metadata, -, h⟩ := bind_eq_ok.1 h
  obtain ⟨coloured, hcoloured, h⟩ := bind_eq_ok.1 h
  obtain ⟨sized, hsized, h⟩ := bind_eq_ok.1 h
  obtain rfl := Except.ok.inj h
  refine ⟨gender, hcategory, hproductType, hgender, fun c hc => ?_, ?_⟩
  · exact List.mem_append_left _ (List.mem_append_left _ hc)
  · exact (salePricePaise_addSizes hsized).trans (salePricePaise_addColours hcoloured)

/-- The plan of a broad request. -/
def broadPlan (store : Store) (r : Request) (categoryKeys productTypeKeys : Option (List String))
    (gender : List ProductCondition) : Plan where
  query := { categoryKeys, productTypeKeys, conditions := excludedConditions r ++ gender }
  searchTerms := []
  fields := (taxonomyFields store r).getD []
  weights := r.rankingWeights
  filters := { salePricePaise := priceFilter r.minPricePaise r.maxPricePaise }

theorem resolveRequest_broad (h : r.Broad) {categoryKeys productTypeKeys : Option (List String)}
    {gender : List ProductCondition} (hcategory : keyFilter lib store "category" r.category = .ok categoryKeys)
    (hproductType : keyFilter lib store "product_type" r.productType = .ok productTypeKeys)
    (hgender : genderConditions lib ((taxonomyFields store r).getD []) r.gender = .ok gender) :
    resolveRequest lib store r = .ok (broadPlan store r categoryKeys productTypeKeys gender) := by
  have hsearch : searchTerms lib r = ([], none) := by rw [searchTerms, h.search]
  have hbrand : brandFilter lib store r = .ok none := by simp [brandFilter, h.brandID, h.brand]
  have hmetadata : resolveMetadataFilters lib ((taxonomyFields store r).getD []) r.metadataFilters = .ok ⟨[], []⟩ := by
    rw [h.metadataFilters]
    rfl
  have hsoft : softConditions r ((taxonomyFields store r).getD []) = [] := by
    rw [softConditions, h.requireSoftMatch]
    rfl
  have hceiling : (r.maxPricePaise <|> none) = r.maxPricePaise := by cases r.maxPricePaise <;> rfl
  have hok : ∀ {α β : Type} (a : α) (f : α → Except Exit β), (Except.ok a >>= f) = f a := fun _ _ => rfl
  unfold resolveRequest
  simp only [hsearch, hcategory, hproductType, hbrand, hgender, hmetadata, hsoft, h.colour, h.size, h.overlaps,
    addColours, addSizes, if_true, hok, hceiling, List.map_nil, List.foldl_nil, List.append_nil]
  rfl

theorem keyFilter_mono {fieldKey : String} {values values' : List String} {keys : Option (List String)}
    (h : keyFilter lib store fieldKey values = .ok keys) (hvalues : values' = [] ∨ values' = values) :
    ∃ keys', keyFilter lib store fieldKey values' = .ok keys' ∧ (keys' = none ∨ keys' = keys) := by
  rcases hvalues with rfl | rfl
  · exact ⟨none, if_pos rfl, .inl rfl⟩
  · exact ⟨keys, h, .inr rfl⟩

theorem genderConditions_mono {genders : List ProductCondition}
    (h : genderConditions lib ((taxonomyFields store r).getD []) r.gender = .ok genders)
    (hgender : r'.gender = [] ∨ r'.gender = r.gender) :
    ∃ genders', genderConditions lib ((taxonomyFields store r').getD []) r'.gender = .ok genders' ∧
      (genders' = [] ∨ genders' = genders) := by
  by_cases hnil : r'.gender = []
  · exact ⟨[], by rw [genderConditions, if_pos hnil], .inl rfl⟩
  · have heq := hgender.resolve_left hnil
    have hfields : ∀ request : Request, request.gender ≠ [] →
        taxonomyFields store request = some store.filterableFields :=
      fun request hne => if_pos (.inl hne)
    rw [hfields r (heq ▸ hnil)] at h
    rw [hfields r' hnil, heq]
    exact ⟨genders, h, .inr rfl⟩

/-- The second plan selects whatever the first one selects. -/
structure Plan.Covers (plan plan' : Plan) (lib : Library K) : Prop where
  product : ∀ p, plan.query.selects lib p → plan'.query.selects lib p
  offer : ∀ o, plan.filters.selects o → plan'.filters.selects o
  isSet : plan'.filters.isSet → plan.filters.isSet

theorem Request.Relaxes.exists_plan (h : r.Relaxes r') (hplan : resolveRequest lib store r = .ok plan) :
    ∃ plan', resolveRequest lib store r' = .ok plan' ∧ plan.Covers plan' lib := by
  obtain ⟨genders, hparts⟩ := exists_planParts hplan
  obtain ⟨categoryKeys, hcategory, hcategory'⟩ := keyFilter_mono hparts.category h.category
  obtain ⟨productTypeKeys, hproductType, hproductType'⟩ := keyFilter_mono hparts.productType h.productType
  obtain ⟨genders', hgender, hgender'⟩ := genderConditions_mono hparts.gender h.gender
  have hprice : priceFilter r'.minPricePaise r'.maxPricePaise = none ∨
      priceFilter r'.minPricePaise r'.maxPricePaise = plan.filters.salePricePaise := by
    have hceiling : (r.maxPricePaise <|> none) = r.maxPricePaise := by cases r.maxPricePaise <;> rfl
    have hsearch : searchTerms lib r = ([], none) := by rw [searchTerms, h.search]
    rw [hparts.price, hsearch, hceiling]
    rcases h.price with ⟨hmin, hmax⟩ | ⟨hmin, hmax⟩
    · exact .inl (by rw [hmin, hmax]; exact if_pos ⟨rfl, rfl⟩)
    · exact .inr (by rw [hmin, hmax])
  refine ⟨_, resolveRequest_broad h.broad hcategory hproductType hgender,
    ⟨fun p hp => ?_, fun o ho => ?_, fun hset => ?_⟩⟩
  · obtain ⟨hactive, hvisible, -, hkeys, htypes, -, -, hconditions⟩ := of_decide_eq_true hp
    refine decide_eq_true ⟨hactive, hvisible, fun hne => absurd rfl hne, ?_, ?_, rfl, rfl, ?_⟩
    · rcases hcategory' with rfl | rfl
      · rfl
      · exact hkeys
    · rcases hproductType' with rfl | rfl
      · rfl
      · exact htypes
    · refine List.all_eq_true.2 fun c hc => List.all_eq_true.1 hconditions c (hparts.conditions c ?_)
      have hexcluded : excludedConditions r' = excludedConditions r :=
        excludedConditions_eq h.excluded.1 h.excluded.2
      rw [broadPlan, hexcluded] at hc
      rcases hgender' with rfl | rfl
      · rw [List.append_nil] at hc
        exact List.mem_append_left _ hc
      · exact hc
  · obtain ⟨-, -, -, hsale, -⟩ := of_decide_eq_true ho
    refine decide_eq_true ⟨rfl, rfl, rfl, ?_, rfl, rfl, rfl⟩
    rcases hprice with hnone | heq
    · rw [broadPlan, hnone]
      rfl
    · rw [broadPlan, heq]
      exact hsale
  · rcases hprice with hnone | heq
    · rw [broadPlan, hnone] at hset
      exact absurd hset (by simp [OfferFilters.isSet])
    · have hsome : plan.filters.salePricePaise.isSome := by
        rw [← heq]
        simpa [broadPlan, OfferFilters.isSet] using hset
      simp [OfferFilters.isSet, hsome]

variable {filters : OfferFilters} {radiusKm : ℚ} {center : Point} {o : Offer}

/-- The filters of SwoopStyl add the sellers and the places in reach. -/
theorem selects_eligibleOfferFilters (h : filters.Unlocated) :
    (eligibleOfferFilters lib store filters radiusKm center ties).selects o ↔ filters.selects o ∧
      o.sellerID ∈ approvedSellers store (nearestPlaces lib store center radiusKm ties) ∧
      o.locationIDs.any (· ∈ (locationMap lib store radiusKm center ties).map (·.location.id)) := by
  simp only [OfferFilters.selects, eligibleOfferFilters, h.sellerIDs, h.locationIDs, Option.all_none, Option.all_some,
    decide_eq_true_eq]
  tauto

theorem selectsInventory_eligibleOfferFilters (filters' : OfferFilters) :
    (eligibleOfferFilters lib store filters radiusKm center ties).selectsInventory o =
      (eligibleOfferFilters lib store filters' radiusKm center ties).selectsInventory o := rfl

/-- Below the limit, every offer that the filters select is fetched. -/
theorem mem_fetchedOffers_iff (hoffers : store.offers.docs.length ≤ 50000) :
    o ∈ fetchedOffers store filters ties ↔
      o ∈ store.offers ∧ o.status = "active" ∧ filters.selectsInventory o ∧ filters.selects o := by
  refine ⟨mem_fetchedOffers, fun ⟨hmem, hselects⟩ => ?_⟩
  rw [fetchedOffers, List.take_of_length_le]
  · exact mem_sortBy.2 (List.mem_filter.2 ⟨hmem, decide_eq_true hselects⟩)
  · rw [length_sortBy]
    exact (List.length_filter_le _ _).trans hoffers

/-- An offer in reach is one that the storefront sells. -/
theorem mem_joinedOffers_of_fetched (hfilters : filters.Unlocated) {filters' : OfferFilters}
    (hinventory : filters'.inventoryAt = none) (hselects : ∀ o, filters.selects o → filters'.selects o)
    (ho : o ∈ fetchedOffers store (eligibleOfferFilters lib store filters radiusKm center ties) ties)
    (hid : o.productID = p.id) : o ∈ store.joinedOffers filters' p := by
  obtain ⟨hmem, hactive, hstock, hoffer⟩ := mem_fetchedOffers ho
  obtain ⟨hoffer, hseller, -⟩ := (selects_eligibleOfferFilters hfilters).1 hoffer
  refine Store.mem_joinedOffers.2 ⟨hmem, hid, hactive, ?_, hselects o hoffer, mem_approvedSellers hseller⟩
  obtain ⟨row, hrow, hstocked⟩ := List.any_eq_true.1 hstock
  rw [OfferFilters.selectsInventory, hinventory]
  exact List.any_eq_true.2 ⟨row, hrow, (of_decide_eq_true hstocked).2⟩

theorem mem_validProducts_iff :
    p ∈ validProducts lib store plan ↔ p ∈ store.products.docs ∧ p.catalogueEligible ∧ plan.query.selects lib p := by
  rw [validProducts, List.mem_filter, decide_eq_true_eq]

theorem mem_matchedProducts_iff (h : plan.PlanOf lib store r) : p ∈ matchedProducts lib store plan ↔
    p ∈ validProducts lib store plan ∧ (plan.filters.isSet → store.joinedOffers plan.filters p ≠ []) := by
  rw [mem_validProducts_iff, matchedProducts, List.mem_filter, decide_eq_true_eq, selects_ids h.ids, ← and_assoc,
    ← and_assoc, ← and_assoc]
  refine and_congr_right fun _ => ?_
  rw [idFilter]
  split
  · rename_i hset
    simp only [Option.all_some, decide_eq_true_eq, Store.mem_eligibleProductIDs, hset, true_imp_iff]
  · rename_i hset
    simp [hset]

theorem Plan.Covers.joinedOffers (h : plan.Covers plan' lib) (hof : plan.PlanOf lib store r)
    (hof' : plan'.PlanOf lib store r') (hoffers : store.joinedOffers plan.filters p ≠ []) :
    store.joinedOffers plan'.filters p ≠ [] := by
  obtain ⟨o, ho⟩ := List.exists_mem_of_ne_nil _ hoffers
  obtain ⟨hmem, hid, hactive, hstock, hselects, hseller⟩ := Store.mem_joinedOffers.1 ho
  refine List.ne_nil_of_mem (Store.mem_joinedOffers.2 ⟨hmem, hid, hactive, ?_, h.offer o hselects, hseller⟩)
  rw [OfferFilters.selectsInventory, hof.unlocated.inventoryAt] at hstock
  rw [OfferFilters.selectsInventory, hof'.unlocated.inventoryAt]
  exact hstock

/-- Whatever a request admits, a request that relaxes it admits. -/
theorem Request.Relaxes.admits (h : r.Relaxes r') (hoffers : store.offers.docs.length ≤ 50000)
    (hp : Admits lib store r ties p) : Admits lib store r' ties p := by
  obtain ⟨plan, hplan, hp⟩ := hp
  obtain ⟨plan', hplan', hcovers⟩ := h.exists_plan hplan
  have hof := resolveRequest_planOf hplan
  have hof' := resolveRequest_planOf hplan'
  have hvalid : p ∈ validProducts lib store plan → p ∈ validProducts lib store plan' := fun hp =>
    mem_validProducts_iff.2 ((mem_validProducts_iff.1 hp).imp_right (And.imp_right (hcovers.product p)))
  refine ⟨plan', hplan', ?_⟩
  rcases h.place with hnot | ⟨hswoop, hpincode, hradius⟩
  · rw [hnot, if_neg Bool.false_ne_true, mem_matchedProducts_iff hof']
    by_cases hswoop : r.swoopstyl
    · rw [if_pos hswoop] at hp
      obtain ⟨hp, center, -, o, ho, hid⟩ := hp
      exact ⟨hvalid hp, fun _ => List.ne_nil_of_mem
        (mem_joinedOffers_of_fetched hof.unlocated hof'.unlocated.inventoryAt hcovers.offer ho hid)⟩
    · rw [if_neg hswoop, mem_matchedProducts_iff hof] at hp
      exact ⟨hvalid hp.1, fun hset => hcovers.joinedOffers hof hof' (hp.2 (hcovers.isSet hset))⟩
  · rw [hswoop, hpincode, hradius]
    by_cases hr : r.swoopstyl
    · rw [if_pos hr] at hp ⊢
      obtain ⟨hp, center, hcenter, o, ho, hid⟩ := hp
      obtain ⟨hmem, hactive, hstock, hoffer⟩ := mem_fetchedOffers ho
      obtain ⟨hoffer, hplace⟩ := (selects_eligibleOfferFilters hof.unlocated).1 hoffer
      exact ⟨hvalid hp, center, hcenter, o, (mem_fetchedOffers_iff hoffers).2 ⟨hmem, hactive, hstock,
        (selects_eligibleOfferFilters hof'.unlocated).2 ⟨hcovers.offer o hoffer, hplace⟩⟩, hid⟩
    · rw [if_neg hr, mem_matchedProducts_iff hof] at hp
      rw [if_neg hr, mem_matchedProducts_iff hof']
      exact ⟨hvalid hp.1, fun hset => hcovers.joinedOffers hof hof' (hp.2 (hcovers.isSet hset))⟩

/-! ## Levels -/

variable {payload : SearchPayload} {resolved : Resolved} {soft : List (String × List String)}

theorem fallbackLevels_atPage {page size : ℕ} :
    fallbackLevels { payload with page := page, pageSize := size } resolved soft =
      (fallbackLevels payload resolved soft).map (·.atPage page size) := rfl

/-- Each level asks for nothing that an earlier one does not ask for. -/
theorem pairwise_relaxes : (fallbackLevels payload resolved soft).Pairwise Request.Relaxes := by
  have hbroad : ∀ r ∈ (fallbackLevels payload resolved soft).tail, r.Broad := by
    intro r hr
    simp only [fallbackLevels, List.tail_cons, List.mem_cons, List.not_mem_nil, or_false] at hr
    rcases hr with rfl | rfl | rfl <;> exact ⟨rfl, rfl, rfl, rfl, rfl, rfl, rfl, rfl⟩
  simp only [fallbackLevels, List.tail_cons, List.mem_cons, List.not_mem_nil, or_false, forall_eq_or_imp,
    forall_eq] at hbroad
  obtain ⟨hlocated, hpriced, hbase⟩ := hbroad
  simp only [fallbackLevels, List.pairwise_cons, List.mem_cons, List.not_mem_nil, or_false, forall_eq_or_imp, forall_eq]
  refine ⟨⟨?_, ?_, ?_⟩, ⟨?_, ?_⟩, ?_, fun _ h => (by cases h), .nil⟩
  · exact ⟨rfl, hlocated, .inr rfl, .inr rfl, .inr rfl, .inr ⟨rfl, rfl⟩, ⟨rfl, rfl⟩, .inr ⟨rfl, rfl, rfl⟩⟩
  · exact ⟨rfl, hpriced, .inl rfl, .inl rfl, .inr rfl, .inr ⟨rfl, rfl⟩, ⟨rfl, rfl⟩, .inl rfl⟩
  · exact ⟨rfl, hbase, .inl rfl, .inl rfl, .inl rfl, .inl ⟨rfl, rfl⟩, ⟨rfl, rfl⟩, .inl rfl⟩
  · exact ⟨rfl, hpriced, .inl rfl, .inl rfl, .inr rfl, .inr ⟨rfl, rfl⟩, ⟨rfl, rfl⟩, .inl rfl⟩
  · exact ⟨rfl, hbase, .inl rfl, .inl rfl, .inl rfl, .inl ⟨rfl, rfl⟩, ⟨rfl, rfl⟩, .inl rfl⟩
  · exact ⟨rfl, hbase, .inl rfl, .inl rfl, .inl rfl, .inl ⟨rfl, rfl⟩, ⟨rfl, rfl⟩, .inl rfl⟩

/-- Every product that a level of the fallback shelf admits, the later levels admit too. -/
theorem fallbackLevels_relax (lib : Library K) (store : Store) (payload : SearchPayload) (resolved : Resolved)
    (soft : List (String × List String)) (ties : Ties) (hoffers : store.offers.docs.length ≤ 50000) :
    (fallbackLevels payload resolved soft).Pairwise fun r r' =>
      ∀ p, Admits lib store r ties p → Admits lib store r' ties p := by
  refine pairwise_relaxes.imp ?_
  intro r r' h p hp
  exact h.admits hoffers hp

/-- All levels of a search for shawls. -/
theorem fallbackLevels_relax_shawls : Sample.shawls.offers.docs.length ≤ 50000 ∧
    (fallbackLevels { query := "shawl", gender := ["women"] } (SearchPayload.resolved { query := "shawl" } {}) []).Pairwise
      fun r r' => ∀ p, Admits (Sample.library (id : ℚ → ℚ)) Sample.shawls r id p →
        Admits (Sample.library (id : ℚ → ℚ)) Sample.shawls r' id p :=
  ⟨by decide, fallbackLevels_relax (Sample.library (id : ℚ → ℚ)) Sample.shawls { query := "shawl", gender := ["women"] }
    (SearchPayload.resolved { query := "shawl" } {}) [] id (by decide)⟩

end Relaxation

/-! ## The first level -/

section Shelf

variable {K : Type} [Field K] [LinearOrder K] {lib : Library K} {store : Store} {ties : Ties} {requests : List Request}

theorem firstShelf_some {shelf : Listing K} (h : firstShelf lib store ties requests = .ok (some shelf)) :
    ∃ strict request rest, requests = strict ++ request :: rest ∧
      listPublicProducts lib store request ties = .ok shelf ∧ (∃ p, Admits lib store request ties p) ∧
      ∀ r ∈ strict, ∀ p, ¬ Admits lib store r ties p := by
  induction requests with
  | nil => cases h
  | cons request requests ih =>
    obtain ⟨listing, hlisting, h⟩ := bind_eq_ok.1 h
    by_cases htotal : 0 < listing.total
    · rw [if_pos htotal] at h
      cases h
      exact ⟨[], request, requests, rfl, hlisting, (total_pos_iff hlisting).1 htotal, fun r hr => (by cases hr)⟩
    · rw [if_neg htotal] at h
      obtain ⟨strict, request', rest, rfl, hshelf, hadmits, hstrict⟩ := ih h
      refine ⟨request :: strict, request', rest, rfl, hshelf, hadmits, List.forall_mem_cons.2 ⟨fun p hp => ?_, hstrict⟩⟩
      exact htotal ((total_pos_iff hlisting).2 ⟨p, hp⟩)

theorem firstShelf_none (h : firstShelf lib store ties requests = .ok none) :
    ∀ r ∈ requests, ∀ p, ¬ Admits lib store r ties p := by
  induction requests with
  | nil => exact fun r hr => (by cases hr)
  | cons request requests ih =>
    obtain ⟨listing, hlisting, h⟩ := bind_eq_ok.1 h
    by_cases htotal : 0 < listing.total
    · rw [if_pos htotal] at h
      cases h
    · rw [if_neg htotal] at h
      exact List.forall_mem_cons.2 ⟨fun p hp => htotal ((total_pos_iff hlisting).2 ⟨p, hp⟩), ih h⟩

theorem firstShelf_error {e : PyErr} (h : firstShelf lib store ties requests = .error e) :
    ∃ r ∈ requests, listPublicProducts lib store r ties = .error e := by
  induction requests with
  | nil => cases h
  | cons request requests ih =>
    cases hlisting : listPublicProducts lib store request ties with
    | error e' =>
      have herror : firstShelf lib store ties (request :: requests) = .error e' := by
        rw [firstShelf, hlisting]
        rfl
      obtain rfl := Except.error.inj (herror.symm.trans h)
      exact ⟨request, List.mem_cons_self, hlisting⟩
    | ok listing =>
      rw [firstShelf, hlisting] at h
      have h : (if 0 < listing.total then pure (some listing) else firstShelf lib store ties requests) = .error e := h
      split at h
      · cases h
      · obtain ⟨r, hr, hlisting⟩ := ih h
        exact ⟨r, List.mem_cons_of_mem _ hr, hlisting⟩

variable {payload : SearchPayload} {intent : Intent} {resolved : Resolved} {soft : List (String × List String)}
variable {request : Request} {p : Product}

omit [Field K] [LinearOrder K] in
theorem excludedConditions_all (hexcluded : request.excludedProductTypes = excludedProductTypes)
    (hpattern : request.excludedTextPattern = some forbiddenProductTextPattern) :
    (excludedConditions request).all (·.selects lib p) ↔ (∀ type ∈ p.productTypeKey, type ∉ excludedProductTypes) ∧
      ∀ text ∈ [p.title, p.description, p.searchText], ¬ lib.patternMatches forbiddenProductTextPattern text := by
  have hconditions : excludedConditions request =
      [.typeNotIn excludedProductTypes.eraseDups, .textFree forbiddenProductTextPattern] := by
    have hne : excludedProductTypes ≠ [] := List.cons_ne_nil _ _
    have htext : (if forbiddenProductTextPattern = "" then []
        else [ProductCondition.textFree forbiddenProductTextPattern]) = [.textFree forbiddenProductTextPattern] :=
      if_neg (by decide +kernel)
    rw [excludedConditions, hexcluded, hpattern, if_neg hne]
    exact congrArg ([.typeNotIn excludedProductTypes.eraseDups] ++ ·) htext
  rw [hconditions]
  simp only [List.all_cons, List.all_nil, Bool.and_true, Bool.and_eq_true, ProductCondition.selects, Option.all_eq_true,
    Option.mem_def, decide_eq_true_eq, List.mem_eraseDups, List.forall_mem_cons, List.not_mem_nil,
    false_imp_iff, implies_true, and_true]

omit [Field K] [LinearOrder K] in
/-- A listing that leaves out what a search leaves out admits only what may be shown. -/
theorem showable_of_admits (hexcluded : request.excludedProductTypes = excludedProductTypes)
    (hpattern : request.excludedTextPattern = some forbiddenProductTextPattern)
    (h : Admits lib store request ties p) : Showable lib p := by
  obtain ⟨plan, hplan, h⟩ := h
  have hvalid : p ∈ validProducts lib store plan := by
    by_cases hswoop : request.swoopstyl
    · rw [if_pos hswoop] at h
      exact h.1
    · rw [if_neg hswoop] at h
      exact ((mem_matchedProducts_iff (resolveRequest_planOf hplan)).1 h).1
  obtain ⟨hmem, heligible, hselects⟩ := mem_validProducts_iff.1 hvalid
  obtain ⟨genders, hparts⟩ := exists_planParts hplan
  obtain ⟨hactive, hvisible, -, -, -, -, -, hconditions⟩ := of_decide_eq_true hselects
  obtain ⟨htype, htext⟩ := (excludedConditions_all hexcluded hpattern).1 (List.all_eq_true.2 fun c hc =>
    List.all_eq_true.1 hconditions c (hparts.conditions c (List.mem_append_left _ hc)))
  exact ⟨heligible, hactive, hvisible, htype, htext⟩

omit [Field K] [LinearOrder K] in
/-- The last level admits everything that may be shown. -/
theorem admits_fallbackBase (hp : p ∈ store.products) (h : Showable lib p) :
    Admits lib store (fallbackBase payload soft) ties p := by
  have hbroad : (fallbackBase payload soft).Broad := ⟨rfl, rfl, rfl, rfl, rfl, rfl, rfl, rfl⟩
  have hplan : resolveRequest lib store (fallbackBase payload soft) = _ := resolveRequest_broad hbroad rfl rfl rfl
  have hanywhere : (fallbackBase payload soft).swoopstyl ≠ true := Bool.false_ne_true
  refine ⟨_, hplan, ?_⟩
  rw [if_neg hanywhere, mem_matchedProducts_iff (resolveRequest_planOf hplan), mem_validProducts_iff]
  refine ⟨⟨hp, h.eligible, decide_eq_true ⟨h.active, h.visible, fun hne => absurd rfl hne, rfl, rfl, rfl, rfl, ?_⟩⟩,
    fun hset => absurd hset (by simp [broadPlan, OfferFilters.isSet, fallbackBase, priceFilter])⟩
  rw [broadPlan, List.append_nil]
  exact (excludedConditions_all rfl rfl).2 ⟨h.type, h.text⟩

/-- What a search answers, whatever page of it is asked for: its own listing if that finds something; else the shelf of
the first level that admits a product; and nothing only if a level fails or the store has nothing to show. -/
structure Answers (lib : Library K) (store : Store) (payload : SearchPayload) (intent : Intent)
    (soft : List (String × List String)) (ties : Ties) (page size : ℕ) (result : SearchResult K) : Prop where
  search : result.isFallback = false →
    listPublicProducts lib store ((searchRequest payload intent).atPage page size) ties = .ok result.listing
  shelf : result.isFallback = true → (∀ p, ¬ Admits lib store (searchRequest payload intent) ties p) ∧
    ∃ strict request rest, fallbackLevels payload (payload.resolved intent) soft = strict ++ request :: rest ∧
      listPublicProducts lib store (request.atPage page size) ties = .ok result.listing ∧
      (∃ p, Admits lib store request ties p) ∧ ∀ r ∈ strict, ∀ p, ¬ Admits lib store r ties p
  shown : ∀ p ∈ result.listing.products, Showable lib p
  empty : result.listing.total = 0 → (∃ request ∈ fallbackLevels payload (payload.resolved intent) soft, ∃ e,
    listPublicProducts lib store (request.atPage page size) ties = .error e) ∨ ∀ p ∈ store.products, ¬ Showable lib p

theorem advancedSearch_answers {page size : ℕ} {result : SearchResult K}
    (h : advancedSearch lib store { payload with page := page, pageSize := size } intent (.ok soft) ties = .ok result) :
    Answers lib store payload intent soft ties page size result := by
  obtain ⟨listing, hlisting, h⟩ := bind_eq_ok.1 h
  have hlisting : listPublicProducts lib store ((searchRequest payload intent).atPage page size) ties = .ok listing :=
    hlisting
  have hexcluded : ∀ r ∈ fallbackLevels payload (payload.resolved intent) soft,
      r.excludedProductTypes = excludedProductTypes ∧ r.excludedTextPattern = some forbiddenProductTextPattern := by
    intro r hr
    simp only [fallbackLevels, List.mem_cons, List.not_mem_nil, or_false] at hr
    rcases hr with rfl | rfl | rfl | rfl <;> exact ⟨rfl, rfl⟩
  have hshown : ∀ p ∈ listing.products, Showable lib p := fun p hp =>
    showable_of_admits rfl rfl (admits_of_mem_products hlisting hp)
  by_cases htotal : 0 < listing.total
  · rw [if_pos htotal] at h
    cases h
    exact ⟨fun _ => hlisting, fun hfallback => (by cases hfallback), hshown, fun hzero => absurd hzero htotal.ne'⟩
  · rw [if_neg htotal] at h
    have hnone : ∀ p, ¬ Admits lib store (searchRequest payload intent) ties p := fun p hp =>
      htotal ((total_pos_iff hlisting).2 ⟨p, hp⟩)
    have hshelf : (Except.ok soft >>= fun soft => firstShelf lib store ties (fallbackLevels
        { payload with page := page, pageSize := size }
        (SearchPayload.resolved { payload with page := page, pageSize := size } intent) soft)) =
        firstShelf lib store ties ((fallbackLevels payload (payload.resolved intent) soft).map (·.atPage page size)) := rfl
    rw [hshelf] at h
    cases hfirst : firstShelf lib store ties
      ((fallbackLevels payload (payload.resolved intent) soft).map (·.atPage page size)) with
    | error e =>
      rw [hfirst] at h
      cases h
      obtain ⟨r, hr, herror⟩ := firstShelf_error hfirst
      obtain ⟨request, hrequest, rfl⟩ := List.mem_map.1 hr
      exact ⟨fun _ => hlisting, fun hfallback => (by cases hfallback), hshown,
        fun _ => .inl ⟨request, hrequest, e, herror⟩⟩
    | ok shelf =>
      rw [hfirst] at h
      cases shelf with
      | none =>
        cases h
        refine ⟨fun _ => hlisting, fun hfallback => (by cases hfallback), hshown, fun _ => .inr fun p hp hshow => ?_⟩
        refine firstShelf_none hfirst (fallbackBase { payload with page := page, pageSize := size } soft) ?_ p
          (admits_fallbackBase hp hshow)
        exact List.mem_map.2 ⟨fallbackBase payload soft, by simp [fallbackLevels], rfl⟩
      | some shelf =>
        cases h
        obtain ⟨strict, request, rest, heq, hshelf, hadmits, hstrict⟩ := firstShelf_some hfirst
        obtain ⟨strict, requests, hlevels, rfl, hrest⟩ := List.map_eq_append_iff.1 heq
        obtain ⟨request, rest, rfl, rfl, rfl⟩ := List.map_eq_cons_iff.1 hrest
        have hmem : request ∈ fallbackLevels payload (payload.resolved intent) soft :=
          hlevels ▸ List.mem_append_right _ List.mem_cons_self
        refine ⟨fun hfallback => (by cases hfallback),
          fun _ => ⟨hnone, strict, request, rest, hlevels, hshelf, hadmits, ?_⟩, ?_, ?_⟩
        · exact fun r hr => hstrict (r.atPage page size) (List.mem_map_of_mem hr)
        · exact fun p hp => showable_of_admits (hexcluded request hmem).1 (hexcluded request hmem).2
            (admits_atPage.1 (admits_of_mem_products hshelf hp))
        · intro hzero
          exact absurd hzero ((total_pos_iff hshelf).2 hadmits).ne'

end Shelf

namespace Sample

/-- A search for something cheaper than all shawls. -/
def bargains : SearchPayload := { query := "", maxPrice := some 400 }

end Sample

/-- The shelf has shawls, if dearer ones. -/
theorem advancedSearch_answers_bargains :
    ∃ result, advancedSearch (Sample.library (id : ℚ → ℚ)) Sample.shawls { Sample.bargains with page := 1, pageSize := 12 } {}
        (.ok []) id = .ok result ∧ result.isFallback ∧
      Answers (Sample.library (id : ℚ → ℚ)) Sample.shawls Sample.bargains {} [] id 1 12 result := by
  obtain ⟨result, hresult, hfallback⟩ := exists_ok_of_any
    (advancedSearch (Sample.library (id : ℚ → ℚ)) Sample.shawls { Sample.bargains with page := 1, pageSize := 12 } {}
      (.ok []) id) (fun result => result.isFallback) (by decide +kernel)
  exact ⟨result, hresult, hfallback, advancedSearch_answers hresult⟩

end Catalogue

end Stylme
