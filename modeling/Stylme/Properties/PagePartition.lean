-- SUMMARY: The pages of a listing partition the matching products where no candidate is cut off and no sort key ties.
import Stylme.Properties.PagedFirst
import Stylme.Properties.VectorScores

/-!
# Pages of a listing

Every page is a query of its own, which sorts the matching products again. The
pages fit together if all of them sort the same products, and if the sort keys
leave no two products in an order of their own choice.
-/

namespace Stylme

open Conc Backend

namespace Catalogue

section Matching

variable {K : Type}

/-- The active public products that the query selects and that have a qualifying offer. -/
def qualifyingProducts (lib : Library K) (store : Store) (plan : Plan) : List Product :=
  store.products.docs.filter fun p =>
    plan.query.selects lib p ∧ ¬ (store.joinedOffers plan.filters p).isEmpty

/-- The products that match the request. -/
def matchingProducts (lib : Library K) (store : Store) (request : Request) : List Product :=
  match resolveRequest lib store request with
  | .ok plan => qualifyingProducts lib store plan
  | .error _ => []

variable {lib : Library K} {store : Store} {request : Request} {plan : Plan}

theorem selects_ids {query : ProductQuery} {ids : Option (List ObjectId)} {p : Product}
    (h : query.ids = none) : { query with ids }.selects lib p ↔
      query.selects lib p ∧ ids.all (p.id ∈ ·) := by
  simp only [ProductQuery.selects, h, Option.all_none, decide_eq_true_eq]
  tauto

/-- A joined offer can be bought. -/
theorem sellable_ne_nil {p : Product} (hinventory : plan.filters.inventoryAt = none)
    (h : store.joinedOffers plan.filters p ≠ []) : store.sellable p ≠ [] := by
  obtain ⟨o, ho⟩ := List.exists_mem_of_ne_nil _ h
  obtain ⟨hmem, hid, hactive, hstock, -, hseller⟩ := Store.mem_joinedOffers.1 ho
  simp only [OfferFilters.selectsInventory, hinventory] at hstock
  exact List.ne_nil_of_mem (List.mem_filter.2 ⟨hmem, by simp [Store.sells, *]⟩)

/-- In a store with an exact projection, the pipeline starts from the qualifying products. -/
theorem matchedProducts_eq (hexact : store.ProjectionExact) (hplan : plan.PlanOf lib store request) :
    matchedProducts lib store plan = qualifyingProducts lib store plan := by
  refine List.filter_congr fun p hp => decide_eq_decide.2 ?_
  have heligible := (hexact p hp).eligible
  rw [selects_ids hplan.ids, List.isEmpty_iff]
  by_cases hset : plan.filters.isSet
  · simp only [idFilter, hset, if_true, Option.all_some, decide_eq_true_eq,
      Store.mem_eligibleProductIDs]
    constructor
    · rintro ⟨-, hselects, hoffers⟩
      exact ⟨hselects, hoffers⟩
    · rintro ⟨hselects, hoffers⟩
      exact ⟨heligible.2 (sellable_ne_nil hplan.unlocated.inventoryAt hoffers), hselects, hoffers⟩
  · have hperm : (store.joinedOffers plan.filters p).Perm (store.sellable p) :=
      Store.joinedOffers_perm hset
    have hiff : store.joinedOffers plan.filters p ≠ [] ↔ store.sellable p ≠ [] := by
      rw [← List.length_pos_iff, ← List.length_pos_iff, hperm.length_eq]
    rw [← Ne, hiff, ← heligible]
    simp [idFilter, hset, and_comm]

end Matching

section Pages

variable {K : Type} [Field K] [LinearOrder K]

/-- The rows in the order in which the candidates are cut off. -/
def candidates (request : Request) (plan : Plan) (rows : List (Row K)) : List (Row K) :=
  if hybridPrelimited request plan then
    sortRows [⟨.hybrid, true⟩, ⟨.ratingCount, true⟩, ⟨.id, true⟩] (fun _ => 0) rows
  else rows

/-- What a page reports as the total. -/
def reportedTotal (request : Request) (plan : Plan) (count : ℕ) : ℕ :=
  if hybridPrelimited request plan then min (candidateLimit request) count else count

variable {lib : Library K} {store : Store} {request : Request} {plan : Plan} {rows : List (Row K)}

omit [Field K] in
theorem perm_candidates : (candidates request plan rows).Perm rows := by
  unfold candidates
  split
  · exact perm_sortBy
  · exact .refl _

omit [Field K] in
theorem length_prelimit :
    (prelimit request plan rows).length = reportedTotal request plan rows.length := by
  unfold prelimit reportedTotal
  split
  · rw [List.length_take, sortRows, length_sortBy]
  · rfl

omit [Field K] in
theorem prelimit_sublist : (prelimit request plan rows).Sublist (candidates request plan rows) := by
  unfold prelimit candidates
  split
  · exact List.take_sublist _ _
  · exact .refl _

omit [Field K] in
/-- No candidate is cut off if they are as many as the limit allows. -/
theorem prelimit_eq (h : reportedTotal request plan rows.length = rows.length) :
    prelimit request plan rows = candidates request plan rows :=
  prelimit_sublist.eq_of_length (by rw [length_prelimit, h, perm_candidates.length_eq])

theorem listProducts_atPage (hplan : resolveRequest lib store request = .ok plan) {page size : ℕ}
    {ties : Ties} : listProducts lib store (request.atPage page size) ties =
      listPlanned lib store (request.atPage page size) plan ties := by
  rw [listProducts, resolveRequest_atPage, hplan]

/-! ## One page -/

/-- A page shows a slice of the joined candidates, and counts the candidates. -/
theorem listPlanned_page (request : Request) (hexact : store.ProjectionExact)
    (hrows : ScoredRows lib plan (matchedProducts lib store plan) rows) (ties : Ties) :
    ∃ page, listPlanned lib store request plan ties = .ok page ∧
      page.items = (joinedBeforePage store request plan ties (prelimit request plan rows)).items ∧
      page.total = reportedTotal request plan rows.length ∧
      page.totalPages = pageCount page.total request.pageSize := by
  rw [listPlanned]
  split
  case isTrue hnone =>
    have hnil : matchedProducts lib store plan = [] := by
      refine List.eq_nil_iff_forall_not_mem.2 fun p hp => ?_
      have hmem := (mem_matchedProducts hp).2.2 hnone.1
      rw [hnone.2] at hmem
      exact List.not_mem_nil hmem
    obtain rfl : rows = [] := by
      have hmap := hrows.map_product
      rwa [hnil, List.map_eq_nil_iff] at hmap
    refine ⟨_, rfl, ?_, ?_, ?_⟩
    · have hprelimit : prelimit request plan ([] : List (Row K)) = [] := by
        unfold prelimit
        split <;> simp [sortRows, sortBy]
      simp [emptyPage, joinedBeforePage, joinRows, sortRows, sortBy, slice, hprelimit]
    · simp [emptyPage, reportedTotal]
    · exact (pageCount_zero request.pageSize).symm
  case isFalse =>
    have hprelimit : ∀ row ∈ prelimit request plan rows,
        row.product ∈ matchedProducts lib store plan := fun row hrow =>
      hrows.mem_product (perm_candidates.mem_iff.1 (prelimit_sublist.mem hrow))
    have hfacet : (if canPageBeforeOfferJoin request plan
        then pagedBeforeJoin store request plan ties (prelimit request plan rows)
        else joinedBeforePage store request plan ties (prelimit request plan rows)) =
        joinedBeforePage store request plan ties (prelimit request plan rows) := by
      split
      · rename_i hearly
        exact pagedBeforeJoin_eq hexact hearly hprelimit ties
      · rfl
    have hcount : (joinedBeforePage store request plan ties (prelimit request plan rows)).count =
        reportedTotal request plan rows.length := by
      simp only [joinedBeforePage]
      rw [joinRows_eq_map _ fun row hrow => joinedOffers_ne_nil hexact (hprelimit row hrow),
        List.length_map, length_prelimit]
    have hscored : (matchedProducts lib store plan).mapM (scoreRow lib plan) = .ok rows := hrows
    rw [hscored]
    exact ⟨_, rfl, congrArg Facet.items hfacet, (congrArg Facet.count hfacet).trans hcount,
      pageCount_of_ite⟩

/-! ## All pages -/

/-- The sort keys tell the rows of matching products apart. -/
def KeysSeparate (lib : Library K) (store : Store) (request : Request) (plan : Plan) : Prop :=
  ∀ rows, ScoredRows lib plan (matchedProducts lib store plan) rows →
    Separates (compareRows (sortSpec request plan))
      (joinRows store plan.filters (fitSignals request) rows)

/-- The pages of this size list every matching product once, and report how many there are. Every
page may break ties in its own way. -/
def PagesPartition (lib : Library K) (store : Store) (request : Request) (size : ℕ)
    (ties : ℕ → Ties) : Prop :=
  ∃ pages : ℕ → Page K,
    (∀ i, 1 ≤ i → listProducts lib store (request.atPage i size) (ties i) = .ok (pages i)) ∧
    (∀ i, 1 ≤ i → i ≤ (pages 1).totalPages →
      (pages i).total = (matchingProducts lib store request).length) ∧
    ((List.range (pages 1).totalPages).flatMap fun i => (pages (i + 1)).items.map (·.product)).Perm
      (matchingProducts lib store request)

/-- The joined candidates, of which every page shows a slice. -/
def joinedCandidates (store : Store) (request : Request) (plan : Plan) (rows : List (Row K)) :
    List (Row K) :=
  joinRows store plan.filters (fitSignals request) (candidates request plan rows)

section Joined

variable (hexact : store.ProjectionExact) (hplan : resolveRequest lib store request = .ok plan)
variable (hrows : ScoredRows lib plan (matchedProducts lib store plan) rows)

include hexact hrows

theorem joinedCandidates_eq : joinedCandidates store request plan rows =
    (candidates request plan rows).map (·.join store plan.filters (fitSignals request)) :=
  joinRows_eq_map _ fun _ hrow =>
    joinedOffers_ne_nil hexact (hrows.mem_product (perm_candidates.mem_iff.1 hrow))

theorem length_joinedCandidates :
    (joinedCandidates store request plan rows).length = rows.length := by
  rw [joinedCandidates_eq hexact hrows, List.length_map, perm_candidates.length_eq]

/-- Two joined candidates are of different products. -/
theorem eq_of_joinedCandidates {a b : Row K} (ha : a ∈ joinedCandidates store request plan rows)
    (hb : b ∈ joinedCandidates store request plan rows) (hid : a.product.id = b.product.id) :
    a = b := by
  rw [joinedCandidates_eq hexact hrows] at ha hb
  obtain ⟨row, hrow, rfl⟩ := List.mem_map.1 ha
  obtain ⟨row', hrow', rfl⟩ := List.mem_map.1 hb
  rw [hrows.eq_of_id (perm_candidates.mem_iff.1 hrow) (perm_candidates.mem_iff.1 hrow') hid]

include hplan

theorem perm_products_joinedCandidates :
    ((joinedCandidates store request plan rows).map (·.product)).Perm
      (matchingProducts lib store request) := by
  have hmatching : matchingProducts lib store request = matchedProducts lib store plan := by
    rw [matchingProducts, hplan]
    exact (matchedProducts_eq hexact (resolveRequest_planOf hplan)).symm
  rw [joinedCandidates_eq hexact hrows, List.map_map, hmatching, ← hrows.map_product]
  exact perm_candidates.map _

theorem length_matchingProducts : (matchingProducts lib store request).length = rows.length := by
  rw [← (perm_products_joinedCandidates hexact hplan hrows).length_eq, List.length_map,
    length_joinedCandidates hexact hrows]

theorem nodup_joinedCandidates : (joinedCandidates store request plan rows).Nodup := by
  have hnodup : (matchingProducts lib store request).Nodup := by
    rw [matchingProducts, hplan]
    exact store.products.docs_nodup.filter _
  exact .of_map _ ((perm_products_joinedCandidates hexact hplan hrows).nodup_iff.2 hnodup)

/-- The pages partition the matching products if they partition the joined candidates. -/
theorem pagesPartition_iff_pages {size : ℕ}
    (hlimit : ∀ i, reportedTotal (request.atPage i size) plan rows.length = rows.length)
    (ties : ℕ → Ties) : PagesPartition lib store request size ties ↔
      (Conc.pages (compareRows (sortSpec request plan)) (fun i row => ties i row.product.id) size
        (joinedCandidates store request plan rows)).Perm
        (joinedCandidates store request plan rows) := by
  set joined := joinedCandidates store request plan rows with hjoined
  choose pages hpages hitems htotal hcount using fun i =>
    listPlanned_page (request.atPage i size) hexact hrows (ties i)
  have hproducts := perm_products_joinedCandidates hexact hplan hrows
  have hlength := length_matchingProducts hexact hplan hrows
  have hlisted : ∀ i, listProducts lib store (request.atPage i size) (ties i) = .ok (pages i) :=
    fun i => by rw [listProducts_atPage hplan, hpages i]
  have hslice : ∀ i, (pages i).items =
      slice i size (sortRows (sortSpec request plan) (ties i) joined) := by
    intro i
    rw [hitems, prelimit_eq (hlimit i)]
    rfl
  have hpageCount : (pages 1).totalPages = pageCount joined.length size := by
    rw [hcount, htotal, hlimit 1, length_joinedCandidates hexact hrows]
    rfl
  have hall : (List.range (pages 1).totalPages).flatMap
      (fun i => (pages (i + 1)).items.map (·.product)) =
      (Conc.pages (compareRows (sortSpec request plan)) (fun i row => ties i row.product.id) size
        joined).map (·.product) := by
    rw [hpageCount, Conc.pages, List.map_flatMap]
    exact List.flatMap_congr fun i _ => congrArg (List.map _) (hslice (i + 1))
  constructor
  · rintro ⟨pages', hpages', -, hperm⟩
    have hsame : ∀ i, 1 ≤ i → pages' i = pages i := fun i hi =>
      Except.ok.inj ((hpages' i hi).symm.trans (hlisted i))
    have hflat : (List.range (pages' 1).totalPages).flatMap
        (fun i => (pages' (i + 1)).items.map (·.product)) =
        (List.range (pages 1).totalPages).flatMap
          fun i => (pages (i + 1)).items.map (·.product) := by
      rw [hsame 1 le_rfl]
      exact List.flatMap_congr fun i _ => by rw [hsame (i + 1) (by omega)]
    rw [hflat, hall] at hperm
    exact perm_of_perm_map (fun a ha => mem_of_mem_pages ha)
      (fun a ha b hb hab => eq_of_joinedCandidates hexact hrows ha hb (congrArg Product.id hab))
      (nodup_joinedCandidates hexact hplan hrows) (hperm.trans hproducts.symm)
  · intro hperm
    refine ⟨pages, fun i _ => hlisted i, fun i _ _ => ?_, ?_⟩
    · rw [htotal, hlimit i, hlength]
    · rw [hall]
      exact (hperm.map _).trans hproducts

theorem pagesPartition_of_separates (hkeys : KeysSeparate lib store request plan) {size : ℕ}
    (hsize : 0 < size)
    (hlimit : ∀ i, reportedTotal (request.atPage i size) plan rows.length = rows.length)
    (ties : ℕ → Ties) : PagesPartition lib store request size ties := by
  have hperm : (joinedCandidates store request plan rows).Perm
      (joinRows store plan.filters (fitSignals request) rows) :=
    (perm_candidates.map _).filter _
  refine (pagesPartition_iff_pages hexact hplan hrows hlimit ties).2
    (pages_perm_of_separates (fun a ha b hb => ?_) _ hsize)
  exact hkeys rows hrows a (hperm.mem_iff.1 ha) b (hperm.mem_iff.1 hb)

end Joined

/-- Sorts with a key on the product leave no ties. -/
theorem keysSeparate_of_id {descending : Bool} (hid : ⟨.id, descending⟩ ∈ sortSpec request plan) :
    KeysSeparate lib store request plan :=
  fun _ hrows => separates_joinRows hrows hid

omit [Field K] [LinearOrder K] in
/-- Ties of rows are ties of their products. -/
theorem exists_ties (h : ∀ a ∈ rows, ∀ b ∈ rows, a.product.id = b.product.id → a = b)
    (rank : Row K → ℕ) : ∃ ties : Ties, ∀ row ∈ rows, rank row = ties row.product.id := by
  refine ⟨fun id => (rows.find? fun row => row.product.id = id).elim 0 rank, fun row hrow => ?_⟩
  cases hfind : rows.find? fun row' => row'.product.id = row.product.id with
  | none => exact absurd (decide_eq_true rfl) (List.find?_eq_none.1 hfind row hrow)
  | some row' =>
    have hid : row'.product.id = row.product.id := by
      simpa using List.find?_some hfind
    obtain rfl := h row' (List.mem_of_find?_eq_some hfind) row hrow hid
    exact (congrArg (Option.elim · 0 rank) hfind).symm

/-- If the pages of one product each partition the matching products for all orders of ties, then
there are no ties. -/
theorem keysSeparate_of_pagesPartition (hexact : store.ProjectionExact)
    (hplan : resolveRequest lib store request = .ok plan)
    (hlimit : ∀ i count, reportedTotal (request.atPage i 1) plan count = count)
    (h : ∀ ties, PagesPartition lib store request 1 ties) : KeysSeparate lib store request plan := by
  classical
  intro rows hrows
  have hperm : (joinRows store plan.filters (fitSignals request) rows).Perm
      (joinedCandidates store request plan rows) := (perm_candidates.symm.map _).filter _
  have hseparates : Separates (compareRows (sortSpec request plan))
      (joinedCandidates store request plan rows) := by
    refine separates_of_pages_perm (nodup_joinedCandidates hexact hplan hrows) fun rank => ?_
    choose ties hties using fun i => exists_ties
      (fun a ha b hb => eq_of_joinedCandidates hexact hrows ha hb) (rank i)
    have hpages := (pagesPartition_iff_pages hexact hplan hrows (fun i => hlimit i _) ties).1
      (h ties)
    have hrank : Conc.pages (compareRows (sortSpec request plan)) rank 1
        (joinedCandidates store request plan rows) =
        Conc.pages (compareRows (sortSpec request plan)) (fun i row => ties i row.product.id) 1
          (joinedCandidates store request plan rows) :=
      List.flatMap_congr fun i _ => congrArg _ (sortBy_congr_rank (hties (i + 1)))
    rwa [hrank]
  intro a ha b hb
  exact hseparates a (hperm.mem_iff.1 ha) b (hperm.mem_iff.1 hb)

/-! ## The candidate limit -/

omit [Field K] [LinearOrder K] in
/-- The least limit is the one of the first page. -/
theorem min_le_candidateLimit (request : Request) (page size : ℕ) :
    min 5000 (max 100 request.hybridCandidateLimit.toNat) ≤
      candidateLimit (request.atPage page size) := by
  simp only [candidateLimit, Request.atPage]
  omega

theorem reportedTotal_atPage {count : ℕ} (h : hybridPrelimited request plan →
    count ≤ min 5000 (max 100 request.hybridCandidateLimit.toNat)) (page size : ℕ) :
    reportedTotal (request.atPage page size) plan count = count := by
  unfold reportedTotal
  split
  · rename_i hhybrid
    exact min_eq_right ((h hhybrid).trans (min_le_candidateLimit request page size))
  · rfl

/-- Pages that report the number of matching products cut off no candidate. -/
theorem le_limit_of_pagesPartition (hexact : store.ProjectionExact)
    (hplan : resolveRequest lib store request = .ok plan)
    (hrows : ScoredRows lib plan (matchedProducts lib store plan) rows) {ties : ℕ → Ties}
    (h : PagesPartition lib store request 1 ties) (hhybrid : hybridPrelimited request plan) :
    rows.length ≤ min 5000 (max 100 request.hybridCandidateLimit.toNat) := by
  obtain ⟨pages, hpages, htotals, hperm⟩ := h
  obtain ⟨page, hpage, -, htotal, hcount⟩ :=
    listPlanned_page (request.atPage 1 1) hexact hrows (ties 1)
  have hfirst : pages 1 = page := by
    have h1 := hpages 1 le_rfl
    rw [listProducts_atPage hplan, hpage] at h1
    exact (Except.ok.inj h1).symm
  have hmatching := length_matchingProducts hexact hplan hrows
  have hlimit : candidateLimit (request.atPage 1 1) =
      min 5000 (max 100 request.hybridCandidateLimit.toNat) := by
    simp only [candidateLimit, Request.atPage]
    omega
  have htotal' : page.total = min (candidateLimit (request.atPage 1 1)) rows.length := by
    rw [htotal, reportedTotal]
    exact if_pos hhybrid
  rcases Nat.eq_zero_or_pos rows.length with hzero | hpos
  · omega
  · have hnonempty : 1 ≤ (pages 1).totalPages := by
      rw [hfirst, hcount]
      change 1 ≤ pageCount page.total 1
      rw [pageCount_one]
      omega
    have hfull := htotals 1 le_rfl hnonempty
    rw [hfirst, htotal', hmatching] at hfull
    omega

/-- What the total of a page means, and when the pages partition the matching products: in requests
that can be ranked and whose sort keys leave no ties, exactly if no candidate is cut off. -/
theorem pagesPartition_iff (hexact : store.ProjectionExact) (hsqrt : ∀ q, 0 < q → lib.sqrt q ≠ 0)
    (haccepted : ∀ statusCode message values,
      resolveRequest lib store request ≠ .error (.http statusCode message values))
    (hscorable : ∀ plan, resolveRequest lib store request = .ok plan →
      ∀ p ∈ matchingProducts lib store request, Scorable (vectorTerms plan.fields plan.weights) p)
    (hkeys : ∀ plan, resolveRequest lib store request = .ok plan →
      KeysSeparate lib store request plan) :
    (∀ page size ties result, listProducts lib store (request.atPage page size) ties = .ok result →
      ∀ plan, resolveRequest lib store request = .ok plan →
        result.total = reportedTotal (request.atPage page size) plan
          (matchingProducts lib store request).length) ∧
    ((∀ size, 0 < size → ∀ ties, PagesPartition lib store request size ties) ↔
      ∀ plan, resolveRequest lib store request = .ok plan → hybridPrelimited request plan →
        (matchingProducts lib store request).length ≤
          min 5000 (max 100 request.hybridCandidateLimit.toNat)) := by
  cases hresolve : resolveRequest lib store request with
  | error e =>
    refine ⟨fun _ _ _ _ _ _ h => (nomatch h), iff_of_true (fun size _ ties => ?_) fun _ h => (nomatch h)⟩
    have hmatching : matchingProducts lib store request = [] := by rw [matchingProducts, hresolve]
    refine ⟨fun i => emptyPage (request.atPage i size), fun i _ => ?_,
      fun i hi hle => absurd (hi.trans hle) (by simp [emptyPage]), ?_⟩
    · rw [listProducts, resolveRequest_atPage, hresolve]
      cases e with
      | http statusCode message values => exact absurd hresolve (haccepted _ _ _)
      | emptyPage => rfl
    · rw [hmatching]
      exact .refl _
  | ok plan =>
    have hplan := resolveRequest_planOf hresolve
    have hmatching : matchingProducts lib store request = matchedProducts lib store plan := by
      rw [matchingProducts, hresolve]
      exact (matchedProducts_eq hexact hplan).symm
    obtain ⟨rows, hrows⟩ : ∃ rows, ScoredRows lib plan (matchedProducts lib store plan) rows := by
      refine exists_mapM_eq_ok_iff.2 fun p hp => ?_
      refine (scoreRow_isOk_iff hsqrt ?_).2 (hscorable plan hresolve p (hmatching ▸ hp))
      exact hplan.weights ▸ rankingWeights_clean request
    rw [length_matchingProducts hexact hresolve hrows]
    simp only [Except.ok.injEq, forall_eq']
    refine ⟨fun page size ties result hresult => ?_, fun h hhybrid => ?_, fun h size hsize ties => ?_⟩
    · obtain ⟨page', hpage, -, htotal, -⟩ :=
        listPlanned_page (request.atPage page size) hexact hrows ties
      rw [listProducts_atPage hresolve, hpage] at hresult
      rw [← Except.ok.inj hresult, htotal]
    · exact le_limit_of_pagesPartition hexact hresolve hrows (h 1 one_pos fun _ _ => 0) hhybrid
    · exact pagesPartition_of_separates hexact hresolve hrows (hkeys plan hresolve) hsize
        (fun i => reportedTotal_atPage h i size) ties

end Pages

namespace Sample

theorem shawls_accepted : ∃ plan,
    resolveRequest (library realSqrt) shawls cheapestFirst = .ok plan ∧
      decide ((vectorTerms plan.fields plan.weights).isEmpty ∧
        ⟨.id, true⟩ ∈ sortSpec cheapestFirst plan) :=
  exists_ok_of_any _ _ (by decide +kernel)

/-- A store with a hundred and one shawls, and a taxonomy with one fit. -/
def manyShawls : Store :=
  { shop ⟨(List.range 101).map fun i => shawl i i ⟨4, 2⟩ (some 90000), by decide +kernel,
        by decide +kernel⟩
      ⟨(List.range 101).map fun i => shawlOffer i 90000, by decide +kernel, by decide +kernel⟩ with
    fields := ⟨[metadataField "fit" "multi_enum" "loose"], by decide, by decide⟩ }

theorem manyShawls_projectionExact : manyShawls.ProjectionExact := by
  intro p hp
  obtain ⟨i, hi, rfl⟩ := List.mem_map.1 hp
  have hsells : shawlOffer i 90000 ∈ manyShawls.sellable (shawl i i ⟨4, 2⟩ (some 90000)) :=
    List.mem_filter.2 ⟨List.mem_map.2 ⟨i, hi, rfl⟩, decide_eq_true ⟨rfl, rfl⟩⟩
  refine ⟨iff_of_true rfl (List.ne_nil_of_mem hsells), fun _ => ?_⟩
  change some 90000 = _
  rw [eq_comm, List.min?_eq_some_iff]
  refine ⟨List.mem_map.2 ⟨_, hsells, rfl⟩, fun price hprice => ?_⟩
  obtain ⟨o, ho, rfl⟩ := List.mem_map.1 hprice
  obtain ⟨j, -, rfl⟩ := List.mem_map.1 (List.mem_filter.1 ho).1
  exact le_rfl

/-- A request that ranks by the fit, among a hundred candidates. -/
def fewCandidates : Request :=
  { sortBy := "createdAt", order := "desc", radiusKm := 100,
    softFilterWeights := [("fit", [("loose", 1)])], hybridCandidateLimit := 1 }

theorem manyShawls_accepted : ∃ plan,
    resolveRequest (library realSqrt) manyShawls fewCandidates = .ok plan ∧
      decide ((matchedProducts (library realSqrt) manyShawls plan).length = 101 ∧
        hybridPrelimited fewCandidates plan ∧ ⟨.id, true⟩ ∈ sortSpec fewCandidates plan) :=
  exists_ok_of_any _ _ (by decide +kernel)

end Sample

/-- The pages of two shawls, the cheapest first. -/
theorem pagesPartition_iff_shawls :
    (∀ page size ties result, listProducts (Sample.library realSqrt) Sample.shawls
        (Sample.cheapestFirst.atPage page size) ties = .ok result →
      ∀ plan, resolveRequest (Sample.library realSqrt) Sample.shawls Sample.cheapestFirst = .ok plan →
        result.total = reportedTotal (Sample.cheapestFirst.atPage page size) plan
          (matchingProducts (Sample.library realSqrt) Sample.shawls Sample.cheapestFirst).length) ∧
    ((∀ size, 0 < size → ∀ ties,
        PagesPartition (Sample.library realSqrt) Sample.shawls Sample.cheapestFirst size ties) ↔
      ∀ plan, resolveRequest (Sample.library realSqrt) Sample.shawls Sample.cheapestFirst = .ok plan →
        hybridPrelimited Sample.cheapestFirst plan →
          (matchingProducts (Sample.library realSqrt) Sample.shawls Sample.cheapestFirst).length ≤
            min 5000 (max 100 Sample.cheapestFirst.hybridCandidateLimit.toNat)) := by
  obtain ⟨plan, hplan, htest⟩ := Sample.shawls_accepted
  obtain ⟨hterms, hid⟩ := of_decide_eq_true htest
  refine pagesPartition_iff Sample.shawls_projectionExact (fun _ => realSqrt_ne_zero) ?_ ?_ ?_
  · rw [hplan]
    exact nofun
  · intro plan' hplan' _ _ t ht
    obtain rfl := Except.ok.inj (hplan.symm.trans hplan')
    rw [List.isEmpty_iff.1 hterms] at ht
    cases ht
  · intro plan' hplan'
    obtain rfl := Except.ok.inj (hplan.symm.trans hplan')
    exact keysSeparate_of_id hid

/-- With more products than candidates, the pages of a ranked request leave products out. -/
theorem not_pagesPartition : ¬ ∀ (lib : Library ℝ) (store : Store) (request : Request),
    store.ProjectionExact → (∀ q, 0 < q → lib.sqrt q ≠ 0) →
    (∀ plan, resolveRequest lib store request = .ok plan →
      ∀ p ∈ matchingProducts lib store request, Scorable (vectorTerms plan.fields plan.weights) p) →
    (∀ plan, resolveRequest lib store request = .ok plan → KeysSeparate lib store request plan) →
    ∀ size, 0 < size → ∀ ties, PagesPartition lib store request size ties := by
  intro h
  obtain ⟨plan, hplan, htest⟩ := Sample.manyShawls_accepted
  obtain ⟨hmany, hhybrid, hid⟩ := of_decide_eq_true htest
  have hscorable : ∀ p ∈ Sample.manyShawls.products,
      Scorable (vectorTerms plan.fields plan.weights) p := by
    intro p hp t _
    obtain ⟨i, -, rfl⟩ := List.mem_map.1 hp
    cases t.source <;> exact ⟨_, rfl⟩
  have hweights : CleanWeights plan.weights :=
    (resolveRequest_planOf hplan).weights ▸ rankingWeights_clean Sample.fewCandidates
  obtain ⟨rows, hrows⟩ : ∃ rows, ScoredRows (Sample.library realSqrt) plan
      (matchedProducts (Sample.library realSqrt) Sample.manyShawls plan) rows :=
    exists_mapM_eq_ok_iff.2 fun p hp => (scoreRow_isOk_iff (fun _ => realSqrt_ne_zero) hweights).2
      (hscorable p (mem_matchedProducts hp).1)
  have hpartition := h (Sample.library realSqrt) Sample.manyShawls Sample.fewCandidates
    Sample.manyShawls_projectionExact (fun _ => realSqrt_ne_zero) (fun plan' hplan' p hp => ?_)
    (fun plan' hplan' => ?_) 1 one_pos fun _ _ => 0
  · have hlimit := le_limit_of_pagesPartition Sample.manyShawls_projectionExact hplan hrows
      hpartition hhybrid
    have hlength : rows.length = 101 := by rw [← hmany, ← hrows.map_product, List.length_map]
    rw [hlength] at hlimit
    exact absurd hlimit (by decide)
  · obtain rfl := Except.ok.inj (hplan.symm.trans hplan')
    rw [matchingProducts, hplan] at hp
    exact hscorable p (List.mem_filter.1 hp).1
  · obtain rfl := Except.ok.inj (hplan.symm.trans hplan')
    exact keysSeparate_of_id hid

end Catalogue

end Stylme
