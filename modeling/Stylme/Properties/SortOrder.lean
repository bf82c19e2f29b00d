-- SUMMARY: In which order the two entry points list products: by the chosen sort, by distance, or by relevance.
import Stylme.Properties.PagedFirst
import Stylme.Catalogue.Search

/-!
# Sort order

The sort that a shopper chooses is named by the storefront, by the search, and by the
service. A listing is in the order of the first of the sort keys that the service
finds for the name that reaches it.
-/

namespace Stylme

open Conc Backend

namespace Catalogue

section Order

variable {K : Type} [LinearOrder K]

/-! ## Orders of a listing -/

/-- `a` is at least as good as `b` by the chosen criterion, given the price of each. -/
def CatalogSort.AtLeastAsGood (price : Row K → Option ℤ) : CatalogSort → Row K → Row K → Prop
  | recommended, _, _ => True
  | newest, a, b => b.product.createdAt ≤ a.product.createdAt
  | priceLow, a, b => price a ≤ price b
  | priceHigh, a, b => price b ≤ price a
  | rating, a, b => b.product.rating.average ≤ a.product.rating.average

/-- The price that a page goes by: an indexed read compares the stored minimum price. -/
def Page.price (page : Page K) (row : Row K) : Option ℤ :=
  if page.strategy = some "indexed-catalogue-read" then row.product.catalogueMinPricePaise
  else row.minimumPrice

variable [Field K]

/-- The listing is in the order of the sort keys; SwoopStyl has an order of its own. -/
def Listing.Follows (lib : Library K) (spec : List SortKey) : Listing K → Prop
  | page p => p.items.Pairwise fun a b => (compareRows spec a b).isLE
  | swoopStyl p => p.items.Pairwise fun a b => (compareRanked lib a.ranked b.ranked).isLE

/-- The listing is in the order of the chosen sort, where the stored prices are those of the offers
if the projection is exact. SwoopStyl has an order of its own. -/
def Listing.SortedBy (lib : Library K) (store : Store) (sort : CatalogSort) : Listing K → Prop
  | page p => p.items.Pairwise (sort.AtLeastAsGood p.price) ∧
      (store.ProjectionExact → p.items.Pairwise (sort.AtLeastAsGood Row.minimumPrice))
  | swoopStyl p => p.items.Pairwise fun a b => (compareRanked lib a.ranked b.ranked).isLE

end Order

/-! ## Names of sorts -/

/-- The request reaches the service under a name of the sort. -/
def Request.Names (request : Request) (plan : Plan) : CatalogSort → Prop
  | .recommended => effectiveSort request plan = "relevance"
  | .newest => effectiveSort request plan = "newest" ∨
      effectiveSort request plan = "createdAt" ∧ request.descending
  | .priceLow => effectiveSort request plan = "price_low" ∨
      effectiveSort request plan = "price" ∧ ¬ request.descending
  | .priceHigh => effectiveSort request plan = "price_high" ∨
      effectiveSort request plan = "price" ∧ request.descending
  | .rating => effectiveSort request plan = "rating"

/-- The first sort key of a sort, given the field that holds the price. -/
def CatalogSort.key (price : SortField) : CatalogSort → Option SortKey
  | recommended => none
  | newest => some ⟨.createdAt, true⟩
  | priceLow => some ⟨price, false⟩
  | priceHigh => some ⟨price, true⟩
  | rating => some ⟨.ratingAverage, true⟩

section Keys

variable {request : Request} {plan : Plan} {sort : CatalogSort}

theorem sortsByPrice_of_names (h : request.Names plan sort) :
    sortsByPrice request plan ↔ sort = .priceLow ∨ sort = .priceHigh := by
  cases sort <;> simp only [Request.Names] at h <;> simp only [sortsByPrice]
  case recommended => simp [h]
  case newest => rcases h with h | ⟨h, -⟩ <;> simp [h]
  case priceLow => rcases h with h | ⟨h, -⟩ <;> simp [h]
  case priceHigh => rcases h with h | ⟨h, -⟩ <;> simp [h]
  case rating => simp [h]

/-- The sort keys of a named sort start with its key. -/
theorem exists_sortSpec (h : request.Names plan sort) :
    ∃ keys, sortSpec request plan = (sort.key .minimumPrice).toList ++ keys := by
  cases sort <;> simp only [Request.Names] at h <;> simp only [sortSpec]
  case recommended => exact ⟨_, rfl⟩
  case newest => rcases h with h | ⟨h, hdesc⟩ <;> simp [*, CatalogSort.key]
  case priceLow => rcases h with h | ⟨h, hdesc⟩ <;> simp [*, CatalogSort.key]
  case priceHigh => rcases h with h | ⟨h, hdesc⟩ <;> simp [*, CatalogSort.key]
  case rating => simp [h, CatalogSort.key]

theorem exists_indexedSortSpec (h : request.Names plan sort) :
    ∃ keys, indexedSortSpec request plan = (sort.key .catalogueMinPrice).toList ++ keys := by
  by_cases hprice : sortsByPrice request plan
  · obtain ⟨descending, hspec, hindexed⟩ := sortSpec_of_price hprice
    obtain ⟨keys, hkeys⟩ := exists_sortSpec h
    rw [hspec] at hkeys
    rw [hindexed]
    rcases (sortsByPrice_of_names h).1 hprice with rfl | rfl
    · exact ⟨[⟨.id, true⟩], by simpa [CatalogSort.key] using congrArg List.head? hkeys⟩
    · exact ⟨[⟨.id, true⟩], by simpa [CatalogSort.key] using congrArg List.head? hkeys⟩
  · obtain ⟨keys, hkeys⟩ := exists_sortSpec h
    rw [indexedSortSpec, if_neg hprice, hkeys]
    have hsort := mt (sortsByPrice_of_names h).2 hprice
    cases sort
    case priceLow => exact absurd (.inl rfl) hsort
    case priceHigh => exact absurd (.inr rfl) hsort
    all_goals exact ⟨keys, rfl⟩

end Keys

/-! ## Pages -/

section Page

variable {K : Type} [LinearOrder K]

theorem isLE_compare {α : Type} [LinearOrder α] {a b : α} : (compare a b).isLE ↔ a ≤ b := by
  rw [← compare_le_iff_le, ← Ordering.ne_gt_iff_isLE]

theorem isLE_compare_option {α : Type} [LinearOrder α] {a b : Option α} :
    (compare a b).isLE ↔ a ≤ b := by
  cases a with
  | none => cases b <;> simp [compare]
  | some a =>
    cases b with
    | none => simp [compare]
    | some b => exact isLE_compare.trans Option.some_le_some.symm

/-- Rows in the order of some keys are in the order of the first. -/
theorem SortKey.compare_of_isLE {key : SortKey} {keys : List SortKey} {a b : Row K}
    (h : (compareRows (key :: keys) a b).isLE) : (key.compare a b).isLE := by
  simp only [compareRows, compareLex] at h
  cases hkey : key.compare a b <;> simp_all

/-- The first sort key of a sort decides its criterion. -/
theorem CatalogSort.atLeastAsGood_of_key {sort : CatalogSort} {field : SortField}
    {price : Row K → Option ℤ} {keys : List SortKey} {a b : Row K}
    (hfield : ∀ a b : Row K, (field.compare a b).isLE → price a ≤ price b)
    (h : (compareRows ((sort.key field).toList ++ keys) a b).isLE) : sort.AtLeastAsGood price a b := by
  cases sort
  case recommended => trivial
  case newest => exact isLE_compare.1 (SortKey.compare_of_isLE h)
  case priceLow => exact hfield a b (SortKey.compare_of_isLE h)
  case priceHigh => exact hfield b a (SortKey.compare_of_isLE h)
  case rating => exact isLE_compare.1 (SortKey.compare_of_isLE h)

variable [Field K] {lib : Library K} {store : Store} {request : Request} {plan : Plan} {ties : Ties}

/-- The sort keys of a page. -/
def pageSpec (request : Request) (plan : Plan) : List SortKey :=
  if canPageBeforeOfferJoin request plan then indexedSortSpec request plan
  else sortSpec request plan

omit [Field K] in
/-- Joined rows compare like the rows if nothing that the join sets is compared. -/
theorem compareRows_indexed_join (hearly : canPageBeforeOfferJoin request plan) (a b : Row K) :
    compareRows (indexedSortSpec request plan) (a.join store plan.filters (fitSignals request))
        (b.join store plan.filters (fitSignals request)) =
      compareRows (indexedSortSpec request plan) a b := by
  obtain ⟨hsignals, -⟩ := of_decide_eq_true hearly
  by_cases hprice : sortsByPrice request plan
  · obtain ⟨descending, -, hindexed⟩ := sortSpec_of_price hprice
    rw [hindexed]
    exact compareRows_congr (.cons (compare_join (by simp) (by simp) a b)
      (.cons (compare_join (by simp) (by simp) a b) .nil))
  · rw [indexedSortSpec, if_neg hprice]
    refine compareRows_congr (List.forall₂_same.2 fun key hkey => ?_)
    obtain ⟨hminimum, hfit⟩ := field_ne_of_mem_sortSpec hprice hsignals hkey
    exact compare_join hminimum hfit a b

/-- The rows of a page are in the order of its sort keys. -/
theorem listPlanned_pairwise {page : Page K} (h : listPlanned lib store request plan ties = .ok page) :
    page.items.Pairwise fun a b => (compareRows (pageSpec request plan) a b).isLE := by
  rw [listPlanned] at h
  split at h
  · obtain rfl := Except.ok.inj h
    exact .nil
  · obtain ⟨scored, -, h⟩ := bind_eq_ok.1 h
    obtain rfl := Except.ok.inj h
    dsimp only
    unfold pageSpec
    split
    · rename_i hearly
      refine List.Pairwise.filter _ (List.pairwise_map.2 ?_)
      simp only [compareRows_indexed_join hearly]
      exact pairwise_sortBy.sublist slice_sublist
    · exact pairwise_sortBy.sublist slice_sublist

omit [Field K] [LinearOrder K] in
/-- Sorts by price are not cut down to the best candidates. -/
theorem not_hybridPrelimited (hprice : sortsByPrice request plan) :
    ¬ hybridPrelimited request plan := by
  intro hhybrid
  obtain ⟨-, -, -, hname⟩ := of_decide_eq_true hhybrid
  have hprice := of_decide_eq_true hprice
  unfold effectiveSort at hprice
  split at hprice
  · simp at hprice
  · simp only [List.mem_cons, List.not_mem_nil, or_false] at hname hprice
    rcases hname with hname | hname <;> simp [hname] at hprice

/-- A page in the order of a price goes by the stored price if it is cut before the join. -/
theorem listPlanned_strategy {page : Page K} (hprice : sortsByPrice request plan)
    (h : listPlanned lib store request plan ties = .ok page) : page.items = [] ∨
      (page.strategy = some "indexed-catalogue-read" ↔ canPageBeforeOfferJoin request plan) := by
  rw [listPlanned] at h
  split at h
  · obtain rfl := Except.ok.inj h
    exact .inl rfl
  · obtain ⟨scored, -, h⟩ := bind_eq_ok.1 h
    obtain rfl := Except.ok.inj h
    refine .inr ?_
    dsimp only
    rw [if_neg (not_hybridPrelimited hprice)]
    cases canPageBeforeOfferJoin request plan <;> simp

/-- A page lists joined rows of matching products. -/
theorem exists_of_mem_items {page : Page K} (hprice : sortsByPrice request plan)
    (h : listPlanned lib store request plan ties = .ok page) {row : Row K} (hrow : row ∈ page.items) :
    ∃ scored : Row K, scored.product ∈ matchedProducts lib store plan ∧
      row = scored.join store plan.filters (fitSignals request) := by
  have hjoined : ∀ {rows : List (Row K)}, row ∈ joinRows store plan.filters (fitSignals request) rows →
      ∃ scored ∈ rows, row = scored.join store plan.filters (fitSignals request) := by
    intro rows hmem
    obtain ⟨scored, hscored, rfl⟩ := List.mem_map.1 (List.mem_filter.1 hmem).1
    exact ⟨scored, hscored, rfl⟩
  rw [listPlanned] at h
  split at h
  · obtain rfl := Except.ok.inj h
    exact absurd hrow List.not_mem_nil
  · obtain ⟨rows, hrows, h⟩ := bind_eq_ok.1 h
    obtain rfl := Except.ok.inj h
    dsimp only [prelimit] at hrow
    rw [if_neg (not_hybridPrelimited hprice)] at hrow
    split at hrow
    · obtain ⟨scored, hscored, rfl⟩ := hjoined hrow
      exact ⟨scored, ScoredRows.mem_product hrows (mem_sortBy.1 (mem_of_mem_slice hscored)), rfl⟩
    · obtain ⟨scored, hscored, rfl⟩ := hjoined (mem_sortBy.1 (mem_of_mem_slice hrow))
      exact ⟨scored, ScoredRows.mem_product hrows hscored, rfl⟩

/-- In a store with an exact projection, a page goes by the prices of the offers. -/
theorem page_price_eq (hexact : store.ProjectionExact) {page : Page K}
    (hprice : sortsByPrice request plan) (h : listPlanned lib store request plan ties = .ok page)
    {row : Row K} (hrow : row ∈ page.items) : page.price row = row.minimumPrice := by
  unfold Page.price
  split
  · rename_i hstrategy
    obtain ⟨scored, hmatched, rfl⟩ := exists_of_mem_items hprice h hrow
    obtain ⟨hmem, heligible, -⟩ := mem_matchedProducts hmatched
    have hearly : canPageBeforeOfferJoin request plan :=
      ((listPlanned_strategy hprice h).resolve_left (List.ne_nil_of_mem hrow)).1 hstrategy
    have hset : ¬ plan.filters.isSet := fun hset => (of_decide_eq_true hearly).2 ⟨hset, hprice⟩
    exact (minimumPrice_join (hexact _ hmem) heligible hset).symm
  · rfl

/-- A page whose sort reaches the service by name is in the order of the sort. -/
theorem listPlanned_sortedBy {sort : CatalogSort} (hnames : request.Names plan sort) {page : Page K}
    (h : listPlanned lib store request plan ties = .ok page) :
    (Listing.page page).SortedBy lib store sort := by
  have hpairwise := listPlanned_pairwise h
  have hsorted : page.items.Pairwise (sort.AtLeastAsGood page.price) := by
    refine hpairwise.imp_of_mem fun {a b} ha _ hab => ?_
    unfold pageSpec at hab
    by_cases hprice : sortsByPrice request plan
    · have hstrategy := (listPlanned_strategy hprice h).resolve_left (List.ne_nil_of_mem ha)
      split at hab
      · rename_i hearly
        obtain ⟨keys, hkeys⟩ := exists_indexedSortSpec hnames
        rw [hkeys] at hab
        refine CatalogSort.atLeastAsGood_of_key (fun a b hab => ?_) hab
        rw [Page.price, Page.price, if_pos (hstrategy.2 hearly), if_pos (hstrategy.2 hearly)]
        exact isLE_compare_option.1 hab
      · rename_i hlate
        obtain ⟨keys, hkeys⟩ := exists_sortSpec hnames
        rw [hkeys] at hab
        refine CatalogSort.atLeastAsGood_of_key (fun a b hab => ?_) hab
        rw [Page.price, Page.price, if_neg (mt hstrategy.1 hlate), if_neg (mt hstrategy.1 hlate)]
        exact isLE_compare_option.1 hab
    · rw [indexedSortSpec, if_neg hprice, ite_self] at hab
      obtain ⟨keys, hkeys⟩ := exists_sortSpec hnames
      rw [hkeys] at hab
      have hsort := mt (sortsByPrice_of_names hnames).2 hprice
      cases sort
      case priceLow => exact absurd (.inl rfl) hsort
      case priceHigh => exact absurd (.inr rfl) hsort
      case recommended => trivial
      all_goals exact isLE_compare.1 (SortKey.compare_of_isLE hab)
  refine ⟨hsorted, fun hexact => hsorted.imp_of_mem fun {a b} ha hb hab => ?_⟩
  cases sort
  case priceLow | priceHigh =>
    have hprice : sortsByPrice request plan := (sortsByPrice_of_names hnames).2 (by simp)
    simpa only [CatalogSort.AtLeastAsGood, page_price_eq hexact hprice h ha,
      page_price_eq hexact hprice h hb] using hab
  all_goals exact hab

/-! ## SwoopStyl -/

instance : Std.TransCmp (compareRanked lib) := by
  have hopposite : ∀ {β : Type} [LinearOrder β] (f : Ranked K → β),
      Std.TransCmp fun a b => compare (f b) (f a) := fun f =>
    @Std.TransCmp.opposite _ (compareOn f) _
  have htier := hopposite fun r => r.candidate.fitTier
  have hscore := hopposite fun r => r.score
  unfold compareRanked
  infer_instance

/-- A SwoopStyl page lists the products by fit, score and distance. -/
theorem listSwoopStyl_pairwise {pincode : String} {page : SwoopPage K}
    (h : listSwoopStyl lib store request plan pincode ties = .ok page) :
    page.items.Pairwise fun a b => (compareRanked lib a.ranked b.ranked).isLE := by
  rw [listSwoopStyl] at h
  split at h
  · cases h
  · obtain ⟨ranked, -, rfl⟩ := map_eq_ok.1 h
    unfold swoopPage
    dsimp only
    split
    · exact .nil
    · have hordered : (sortBy (compareRanked lib) (fun _ => 0) ranked).Pairwise
          fun a b => (compareRanked lib a b).isLE := pairwise_sortBy
      have hvalid : ((sortBy (compareRanked lib) (fun _ => 0) ranked).filterMap fun r =>
          ((validProducts lib store plan).find? (·.id = r.candidate.offer.productID)).map
            (·, r)).Pairwise fun a b => (compareRanked lib a.2 b.2).isLE := by
        refine List.pairwise_filterMap.2 (hordered.imp fun {a b} hab x hx y hy => ?_)
        obtain ⟨_, -, rfl⟩ := Option.map_eq_some_iff.1 hx
        obtain ⟨_, -, rfl⟩ := Option.map_eq_some_iff.1 hy
        exact hab
      refine List.pairwise_filterMap.2
        ((hvalid.sublist slice_sublist).imp fun {a b} hab x hx y hy => ?_)
      split at hx
      · cases hx
      · split at hy
        · cases hy
        · obtain rfl := Option.some.inj hx
          obtain rfl := Option.some.inj hy
          exact hab

/-! ## Listings -/

variable {listing : Listing K}

/-- A listing is in the order of a sort whose name reaches the service. -/
theorem listPublicProducts_sortedBy {sort : CatalogSort}
    (hnames : ∀ plan, resolveRequest lib store request = .ok plan → request.swoopstyl = false →
      request.Names plan sort)
    (h : listPublicProducts lib store request ties = .ok listing) :
    listing.SortedBy lib store sort := by
  rw [listPublicProducts] at h
  split at h
  · cases h
  · obtain rfl := Except.ok.inj h
    exact ⟨.nil, fun _ => .nil⟩
  · rename_i plan hplan
    split at h
    · split at h
      · cases h
      · obtain ⟨page, hpage, rfl⟩ := map_eq_ok.1 h
        exact listSwoopStyl_pairwise hpage
    · rename_i hswoop
      obtain ⟨page, hpage, rfl⟩ := map_eq_ok.1 h
      exact listPlanned_sortedBy (hnames plan hplan (by simpa using hswoop)) hpage

/-- A listing that finds something is in the order of the sort keys of its request. -/
theorem listPublicProducts_follows (h : listPublicProducts lib store request ties = .ok listing)
    (htotal : 0 < listing.total) : ∃ plan, resolveRequest lib store request = .ok plan ∧
      listing.Follows lib (pageSpec request plan) := by
  rw [listPublicProducts] at h
  split at h
  · cases h
  · obtain rfl := Except.ok.inj h
    cases htotal
  · rename_i plan hplan
    refine ⟨plan, hplan, ?_⟩
    split at h
    · split at h
      · cases h
      · obtain ⟨page, hpage, rfl⟩ := map_eq_ok.1 h
        exact listSwoopStyl_pairwise hpage
    · obtain ⟨page, hpage, rfl⟩ := map_eq_ok.1 h
      exact listPlanned_pairwise hpage

/-! ## Entry points -/

omit [LinearOrder K] [Field K] in
/-- The products request of the storefront names a sort that the service knows. -/
theorem names_params {query : CatalogQuery} {sort : CatalogSort} (hsort : query.sort = some sort)
    (hrating : sort ≠ .rating)
    (hnewest : sort = .newest → (searchTerms lib query.params.request).1 = [])
    (hplan : resolveRequest lib store query.params.request = .ok plan) :
    query.params.request.Names plan sort := by
  have hby : query.params.request.sortBy = sort.params.1 := by
    simp [ProductsParams.request, CatalogQuery.params, hsort, nonEmpty]
  have horder : query.params.request.order = sort.params.2 := by
    simp [ProductsParams.request, CatalogQuery.params, hsort]
  have hterms := (resolveRequest_planOf hplan).searchTerms
  cases sort
  case rating => exact absurd rfl hrating
  case newest =>
    rw [hnewest rfl] at hterms
    exact .inr ⟨by simp [effectiveSort, hterms, hby, CatalogSort.params],
      by
        rw [Request.descending, horder]
        decide +kernel⟩
  case recommended => simp [Request.Names, effectiveSort, hby, CatalogSort.params]
  case priceLow =>
    exact .inr ⟨by simp [effectiveSort, hby, CatalogSort.params],
      by
        rw [Request.descending, horder]
        decide +kernel⟩
  case priceHigh =>
    exact .inr ⟨by simp [effectiveSort, hby, CatalogSort.params],
      by
        rw [Request.descending, horder]
        decide +kernel⟩

/-- The search names every sort by a name that the service knows. -/
theorem names_searchRequest {payload : SearchPayload} {intent : Intent}
    (hsort : payload.sort ≠ .recommended) :
    (searchRequest payload intent).Names plan payload.sort := by
  have hresolved : (payload.resolved intent).sort = payload.sort := by
    simp [SearchPayload.resolved, hsort]
  have hby : (searchRequest payload intent).sortBy = payload.sort.searchParams.1 := by
    simp [searchRequest, hresolved]
  cases hpayload : payload.sort <;> rw [hpayload] at hby hsort
  case recommended => exact absurd rfl hsort
  case newest => exact .inl (by simp [effectiveSort, hby, CatalogSort.searchParams])
  case priceLow => exact .inl (by simp [effectiveSort, hby, CatalogSort.searchParams])
  case priceHigh => exact .inl (by simp [effectiveSort, hby, CatalogSort.searchParams])
  case rating => simp [Request.Names, effectiveSort, hby, CatalogSort.searchParams]

/-- The request passes the checks of the endpoint. -/
theorem listPublicProducts_of_getProducts {params : ProductsParams}
    (h : getProducts lib store params ties = .ok listing) :
    listPublicProducts lib store params.request ties = .ok listing := by
  unfold getProducts at h
  dsimp only at h
  split_ifs at h
  exact h

theorem exists_of_firstShelf {requests : List Request} {shelf : Listing K}
    (h : firstShelf lib store ties requests = .ok (some shelf)) : ∃ request ∈ requests,
      listPublicProducts lib store request ties = .ok shelf ∧ 0 < shelf.total := by
  induction requests with
  | nil => cases h
  | cons request requests ih =>
    obtain ⟨listing, hlisting, h⟩ := bind_eq_ok.1 h
    split at h
    · rename_i htotal
      obtain rfl := Option.some.inj (Except.ok.inj h)
      exact ⟨request, List.mem_cons_self, hlisting, htotal⟩
    · obtain ⟨request', hmem, hrequest'⟩ := ih h
      exact ⟨request', List.mem_cons_of_mem _ hmem, hrequest'⟩

/-- The request asks for the order of relevance. -/
theorem sortBy_of_mem_fallbackLevels {payload : SearchPayload} {resolved : Resolved}
    {soft : List (String × List String)} (h : request ∈ fallbackLevels payload resolved soft) :
    request.sortBy = "relevance" := by
  simp only [fallbackLevels, List.mem_cons, List.not_mem_nil, or_false] at h
  rcases h with rfl | rfl | rfl | rfl <;> rfl

/-- A listing in the order of relevance. -/
def Listing.ByRelevance (lib : Library K) (store : Store) (listing : Listing K) : Prop :=
  ∃ request plan, request.sortBy = "relevance" ∧ resolveRequest lib store request = .ok plan ∧
    listing.Follows lib (pageSpec request plan)

/-- Both entry points list by the chosen sort. SwoopStyl lists by fit, score and distance instead,
and the fallback shelf of a search that finds nothing lists by relevance. -/
theorem sortedAsChosen (lib : Library K) (store : Store) (sort : CatalogSort)
    (hsort : sort ≠ .recommended) (ties : Ties) :
    (∀ (query : CatalogQuery) listing, query.sort = some sort →
      (query.swoopStyl = false → sort ≠ .rating ∧
        (sort = .newest → (searchTerms lib query.params.request).1 = [])) →
      getProducts lib store query.params ties = .ok listing → listing.SortedBy lib store sort) ∧
    ∀ (payload : SearchPayload) intent soft result, payload.sort = sort →
      advancedSearch lib store payload intent soft ties = .ok result →
      if result.isFallback then result.listing.ByRelevance lib store
      else result.listing.SortedBy lib store sort := by
  constructor
  · intro query listing hquery hnamed h
    refine listPublicProducts_sortedBy (fun plan hplan hswoop => ?_)
      (listPublicProducts_of_getProducts h)
    obtain ⟨hrating, hnewest⟩ := hnamed hswoop
    exact names_params hquery hrating hnewest hplan
  · rintro payload intent soft result rfl h
    obtain ⟨listing, hlisting, h⟩ := bind_eq_ok.1 h
    have hsorted : listing.SortedBy lib store payload.sort :=
      listPublicProducts_sortedBy (fun plan _ _ => names_searchRequest hsort) hlisting
    dsimp only at h
    split at h
    · obtain rfl := Except.ok.inj h
      exact hsorted
    · split at h
      · rename_i shelf hshelf
        obtain rfl := Except.ok.inj h
        obtain ⟨soft, -, hfirst⟩ := bind_eq_ok.1 hshelf
        obtain ⟨request, hmem, hrequest, htotal⟩ := exists_of_firstShelf hfirst
        obtain ⟨plan, hplan, hfollows⟩ := listPublicProducts_follows hrequest htotal
        exact ⟨request, plan, sortBy_of_mem_fallbackLevels hmem, hplan, hfollows⟩
      all_goals
        obtain rfl := Except.ok.inj h
        exact hsorted

end Page

namespace Sample

/-- A location that delivers within twelve hours. -/
def place (id : ObjectId) (latitude : ℚ) : Location where
  id := id
  sellerID := 1
  status := "active"
  geoPoint := some ⟨77, latitude⟩
  geocodeResolved := true
  swoopstylEnabled := true
  handlingHours := some 12
  currentCommittedLoad := some 0
  dailyCapacity := some 5
  radiusKmOverride := none

/-- Two locations: the dear shawl is nearer to the pincode than the cheap one. -/
def twoPlaces : Store :=
  { shop shawls.products
      ⟨[shawlOffer 1 90000,
        { shawlOffer 2 50000 with inventory := [⟨"free", 2, 3, true⟩], locationIDs := [2] }],
        by decide, by decide⟩ with
    locations := ⟨[place 1 (281 / 10), place 2 (285 / 10)], by decide +kernel, by decide +kernel⟩
    pincodes := [⟨"IN", "110001", true, some ⟨77, 28⟩⟩] }

def cheapest : CatalogQuery := { sort := some .priceLow }

def cheapestSearch : SearchPayload := { query := "", sort := .priceLow }

def cheapestNearby : CatalogQuery :=
  { sort := some .priceLow, swoopStyl := true, pincode := some "110001" }

end Sample

/-- With SwoopStyl, the nearer shawl comes first although the shopper asked for the cheapest. -/
theorem not_sortedAsChosen : ∃ page, getProducts (Sample.library (id : ℚ → ℚ)) Sample.twoPlaces
      Sample.cheapestNearby.params id = .ok (.swoopStyl page) ∧
    Sample.cheapestNearby.sort = some .priceLow ∧
    page.items.map (fun item => item.offers.map (·.salePricePaise)) = [[90000], [50000]] := by
  obtain ⟨listing, hlisting, htest⟩ := exists_ok_of_any
    (getProducts (Sample.library (id : ℚ → ℚ)) Sample.twoPlaces Sample.cheapestNearby.params id)
    (fun
      | .page _ => false
      | .swoopStyl page =>
        page.items.map (fun item => item.offers.map (·.salePricePaise)) = [[90000], [50000]])
    (by decide +kernel)
  cases listing with
  | page page => cases htest
  | swoopStyl page => exact ⟨page, hlisting, rfl, of_decide_eq_true htest⟩

/-- Two shawls, the cheaper first, from both entry points. -/
theorem sortedAsChosen_shawls :
    (∃ listing, getProducts (Sample.library (id : ℚ → ℚ)) Sample.shawls Sample.cheapest.params id =
        .ok listing ∧ listing.SortedBy (Sample.library id) Sample.shawls .priceLow) ∧
    ∃ result, advancedSearch (Sample.library (id : ℚ → ℚ)) Sample.shawls Sample.cheapestSearch {}
        (.ok []) id = .ok result ∧
      if result.isFallback then result.listing.ByRelevance (Sample.library id) Sample.shawls
      else result.listing.SortedBy (Sample.library id) Sample.shawls .priceLow := by
  obtain ⟨hproducts, hsearch⟩ :=
    sortedAsChosen (Sample.library (id : ℚ → ℚ)) Sample.shawls .priceLow nofun id
  obtain ⟨listing, hlisting, -⟩ := exists_ok_of_any
    (getProducts (Sample.library (id : ℚ → ℚ)) Sample.shawls Sample.cheapest.params id)
    (fun _ => true) (by decide +kernel)
  obtain ⟨result, hresult, -⟩ := exists_ok_of_any
    (advancedSearch (Sample.library (id : ℚ → ℚ)) Sample.shawls Sample.cheapestSearch {} (.ok []) id)
    (fun _ => true) (by decide +kernel)
  exact ⟨⟨listing, hlisting, hproducts Sample.cheapest listing rfl (fun _ => ⟨nofun, nofun⟩) hlisting⟩,
    result, hresult, hsearch Sample.cheapestSearch {} (.ok []) result rfl hresult⟩

end Catalogue

end Stylme
