-- SUMMARY: Cutting the page before the offers are joined lists what joining them first would list.
import Mathlib.Algebra.Order.Ring.Unbundled.Rat
import Mathlib.Analysis.Real.Sqrt
import Stylme.Catalogue.Rows

/-!
# The page before the join

`list_public_products` joins the offers only to the products of one page when it
can. In a store with an exact projection this is the page of the slower pipeline:
no matching product is dropped by the join, and the stored price is the joined one.
-/

namespace Stylme

open Conc Backend

namespace Catalogue

section PagedFirst

variable {K : Type} [Field K] [LinearOrder K]

/-- The listing by the branch that joins the offers before it sorts. -/
def joinedListing (lib : Library K) (store : Store) (request : Request) (plan : Plan)
    (ties : Ties) : Except PyErr (Facet K) := do
  let scored ← (matchedProducts lib store plan).mapM (scoreRow lib plan)
  return joinedBeforePage store request plan ties scored

variable {lib : Library K} {store : Store} {request : Request} {plan : Plan}

/-! ## Sort keys -/

omit [Field K] in
/-- Joining the offers changes the joined price and the fit score only. -/
theorem compare_join {filters : OfferFilters} {signals : List Dimension} {key : SortKey}
    (hprice : key.field ≠ .minimumPrice) (hfit : key.field ≠ .profileFit) (a b : Row K) :
    key.compare (a.join store filters signals) (b.join store filters signals) = key.compare a b := by
  rw [SortKey.compare_apply, SortKey.compare_apply]
  cases hfield : key.field <;> first | contradiction | rfl

/-- A price sort compares the joined price, and the stored one when the page is cut first. -/
theorem sortSpec_of_price (h : sortsByPrice request plan) : ∃ descending,
    sortSpec request plan = [⟨.minimumPrice, descending⟩, ⟨.id, true⟩] ∧
      indexedSortSpec request plan = [⟨.catalogueMinPrice, descending⟩, ⟨.id, true⟩] := by
  have hname := of_decide_eq_true h
  simp only [List.mem_cons, List.not_mem_nil, or_false] at hname
  rw [indexedSortSpec, if_pos h, sortSpec]
  rcases hname with hname | hname | hname
  · exact ⟨request.descending, by simp [hname]⟩
  · exact ⟨false, by simp [hname]⟩
  · exact ⟨true, by simp [hname]⟩

/-- No other sort compares the joined price, and none a fit score that was not asked for. -/
theorem field_ne_of_mem_sortSpec (hprice : ¬ sortsByPrice request plan)
    (hsignals : fitSignals request = []) {key : SortKey} (hkey : key ∈ sortSpec request plan) :
    key.field ≠ .minimumPrice ∧ key.field ≠ .profileFit := by
  have hname : effectiveSort request plan ∉ ["price", "price_low", "price_high"] :=
    fun hmem => hprice (decide_eq_true hmem)
  simp only [List.mem_cons, List.not_mem_nil, or_false, not_or] at hname
  obtain ⟨hprice, hlow, hhigh⟩ := hname
  simp only [sortSpec, hprice, hlow, hhigh, hsignals, if_false, if_true, List.nil_append] at hkey
  split_ifs at hkey <;> simp only [List.mem_append, List.mem_cons, List.not_mem_nil, or_false,
    false_or] at hkey <;> grind

omit [Field K] [LinearOrder K] in
/-- The stored price of a matching product is the one that the join finds. -/
theorem minimumPrice_join {filters : OfferFilters} {signals : List Dimension} {row : Row K}
    (hproject : store.Projected row.product) (heligible : row.product.catalogueEligible)
    (hset : ¬ filters.isSet) :
    (row.join store filters signals).minimumPrice = row.product.catalogueMinPricePaise := by
  have hperm : ((store.joinedOffers filters row.product).map (·.salePricePaise)).Perm
      ((store.sellable row.product).map (·.salePricePaise)) := (Store.joinedOffers_perm hset).map _
  rw [hproject.minPrice heligible]
  exact Store.head?_joinedOffers.trans (Option.ext fun m => by
    rw [List.min?_eq_some_iff, List.min?_eq_some_iff, hperm.mem_iff]
    exact and_congr_right fun _ => forall_congr' fun b => imp_congr_left hperm.mem_iff)

omit [Field K] in
/-- The two branches compare matching products the same way. -/
theorem compareRows_join (hexact : store.ProjectionExact)
    (hearly : canPageBeforeOfferJoin request plan) {a b : Row K}
    (ha : a.product ∈ matchedProducts lib store plan)
    (hb : b.product ∈ matchedProducts lib store plan) :
    compareRows (sortSpec request plan) (a.join store plan.filters (fitSignals request))
        (b.join store plan.filters (fitSignals request)) =
      compareRows (indexedSortSpec request plan) a b := by
  obtain ⟨hsignals, hfilters⟩ := of_decide_eq_true hearly
  by_cases hprice : sortsByPrice request plan
  · obtain ⟨descending, hspec, hindexed⟩ := sortSpec_of_price hprice
    have hset : ¬ plan.filters.isSet := fun hset => hfilters ⟨hset, hprice⟩
    obtain ⟨hamem, haeligible, -⟩ := mem_matchedProducts ha
    obtain ⟨hbmem, hbeligible, -⟩ := mem_matchedProducts hb
    rw [hspec, hindexed]
    refine compareRows_congr (.cons ?_ (.cons ?_ .nil))
    · simp only [SortKey.compare_apply, SortField.compare, compareOn,
        minimumPrice_join (hexact _ hamem) haeligible hset,
        minimumPrice_join (hexact _ hbmem) hbeligible hset]
    · exact compare_join (by decide) (by decide) a b
  · rw [indexedSortSpec, if_neg hprice]
    refine compareRows_congr (List.forall₂_same.2 fun key hkey => ?_)
    obtain ⟨hminimum, hfit⟩ := field_ne_of_mem_sortSpec hprice hsignals hkey
    exact compare_join hminimum hfit a b

/-! ## The branches -/

omit [Field K] in
/-- The page that is cut first is the page of the joined products. -/
theorem pagedBeforeJoin_eq (hexact : store.ProjectionExact)
    (hearly : canPageBeforeOfferJoin request plan) {rows : List (Row K)}
    (hrows : ∀ row ∈ rows, row.product ∈ matchedProducts lib store plan) (ties : Ties) :
    pagedBeforeJoin store request plan ties rows = joinedBeforePage store request plan ties rows := by
  have hoffers : ∀ row ∈ rows, store.joinedOffers plan.filters row.product ≠ [] := fun row hrow =>
    joinedOffers_ne_nil hexact (hrows row hrow)
  have hjoin := joinRows_eq_map (fitSignals request) hoffers
  have hsorted : (sortRows (indexedSortSpec request plan) ties rows).map
      (·.join store plan.filters (fitSignals request)) =
      sortRows (sortSpec request plan) ties
        (rows.map (·.join store plan.filters (fitSignals request))) :=
    map_sortBy _ (fun a ha b hb => compareRows_join hexact hearly (hrows a ha) (hrows b hb))
      fun _ _ => rfl
  set listed := slice request.page request.pageSize
    (sortRows (indexedSortSpec request plan) ties rows) with hlisted
  have hlistedOffers : ∀ row ∈ listed, store.joinedOffers plan.filters row.product ≠ [] :=
    fun row hrow => hoffers row (mem_sortBy.1 (mem_of_mem_slice hrow))
  have hslice := joinRows_eq_map (fitSignals request) hlistedOffers
  rw [pagedBeforeJoin, joinedBeforePage, ← hlisted, hslice, hjoin, ← hsorted, slice_map,
    List.length_map]

/-- A key on the product leaves no ties between joined rows. -/
theorem separates_joinRows {rows : List (Row K)}
    (hrows : ScoredRows lib plan (matchedProducts lib store plan) rows) {descending : Bool}
    (hid : ⟨.id, descending⟩ ∈ sortSpec request plan) :
    Separates (compareRows (sortSpec request plan))
      (joinRows store plan.filters (fitSignals request) rows) := by
  refine separates_of_id (fun a ha b hb hab => ?_) hid
  obtain ⟨row, hrow, rfl⟩ := List.mem_map.1 (List.mem_filter.1 ha).1
  obtain ⟨row', hrow', rfl⟩ := List.mem_map.1 (List.mem_filter.1 hb).1
  rw [hrows.eq_of_id hrow hrow' hab]

theorem joinedBeforePage_eq_of_id {rows : List (Row K)}
    (hrows : ScoredRows lib plan (matchedProducts lib store plan) rows) {descending : Bool}
    (hid : ⟨.id, descending⟩ ∈ sortSpec request plan) (ties ties' : Ties) :
    joinedBeforePage store request plan ties rows = joinedBeforePage store request plan ties' rows := by
  simp only [joinedBeforePage, sortRows]
  rw [sortBy_eq_of_separates (separates_joinRows hrows hid) fun row => ties' row.product.id]

/-- The paged-before-join listing is the joined listing: the same rows in the same order, the same
total, and the same failures. -/
theorem listPlanned_eq_joinedListing (hexact : store.ProjectionExact)
    (hearly : canPageBeforeOfferJoin request plan) (hhybrid : ¬ hybridPrelimited request plan)
    (hid : ∃ descending, ⟨.id, descending⟩ ∈ sortSpec request plan) (ties ties' : Ties) :
    (listPlanned lib store request plan ties).map (fun page => (page.items, page.total)) =
      (joinedListing lib store request plan ties').map fun facet => (facet.items, facet.count) := by
  obtain ⟨descending, hid⟩ := hid
  rw [listPlanned, joinedListing]
  split
  case isTrue hnone =>
    have hnil : matchedProducts lib store plan = [] := by
      refine List.eq_nil_iff_forall_not_mem.2 fun p hp => ?_
      have hmem := (mem_matchedProducts hp).2.2 hnone.1
      rw [hnone.2] at hmem
      exact List.not_mem_nil hmem
    rw [hnil]
    simp [emptyPage, joinedBeforePage, joinRows, sortRows, sortBy, slice, Except.map, bind,
      Except.bind, pure, Except.pure]
  case isFalse =>
    cases hrows : (matchedProducts lib store plan).mapM (scoreRow lib plan) with
    | error e => rfl
    | ok rows =>
      have hfacet := (pagedBeforeJoin_eq hexact hearly (fun _ => ScoredRows.mem_product hrows) ties).trans
        (joinedBeforePage_eq_of_id hrows hid ties ties')
      simp only [bind, Except.bind, pure, Except.pure, Except.map, prelimit, hhybrid, hearly,
        if_false, if_true, Bool.false_eq_true, hfacet]

end PagedFirst

namespace Sample

/-- Two shawls at two prices. -/
def shawls : Store :=
  shop ⟨[shawl 1 10 ⟨4, 2⟩ (some 90000), shawl 2 20 ⟨5, 1⟩ (some 50000)], by decide, by decide⟩
    ⟨[shawlOffer 1 90000, shawlOffer 2 50000], by decide, by decide⟩

def cheapestFirst : Request :=
  { pageSize := 1, sortBy := "price_low", order := "desc", radiusKm := 100 }

def cheapestFirstPlan : Plan := ⟨{}, [], [], [], {}⟩

theorem shawls_projectionExact : shawls.ProjectionExact := by
  intro p hp
  have hcases : p = shawl 1 10 ⟨4, 2⟩ (some 90000) ∨ p = shawl 2 20 ⟨5, 1⟩ (some 50000) := by
    simpa [shawls, shop, Collection.mem_def] using hp
  rcases hcases with rfl | rfl
  · exact ⟨by decide +kernel, by decide +kernel⟩
  · exact ⟨by decide +kernel, by decide +kernel⟩

end Sample

/-- The first page of two shawls, the cheapest first. -/
theorem listPlanned_eq_joinedListing_shawls :
    (listPlanned (Sample.library fun q => Real.sqrt q) Sample.shawls Sample.cheapestFirst
        Sample.cheapestFirstPlan id).map (fun page => (page.items, page.total)) =
      (joinedListing (Sample.library fun q => Real.sqrt q) Sample.shawls Sample.cheapestFirst
        Sample.cheapestFirstPlan fun _ => 0).map fun facet => (facet.items, facet.count) :=
  listPlanned_eq_joinedListing Sample.shawls_projectionExact (by decide +kernel)
    (by decide +kernel) ⟨true, by decide +kernel⟩ id fun _ => 0

end Catalogue

end Stylme
