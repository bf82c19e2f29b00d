-- SUMMARY: The aggregation pipeline of the public listing, with its two ways of joining the offers.
import Stylme.Lib.Paging
import Stylme.Catalogue.Ranking

/-!
# The listing

The second half of `list_public_products`. The matching products are scored,
perhaps cut down to the best candidates, sorted, and cut into pages. Their offers
are joined either after the page is cut or before the products are sorted.
-/

namespace Stylme

open Conc Backend

namespace Catalogue

/-! ## Offers of a product -/

namespace Store

variable (store : Store)

/-- `{"$match": {"_seller.status": "approved"}}` -/
def sellerApproved (o : Offer) : Bool :=
  store.sellers.docs.any fun seller => seller.id = o.sellerID ∧ seller.status = "approved"

/-- The offers that `product_lookups` joins to a product, the cheapest first. -/
def joinedOffers (filters : OfferFilters) (p : Product) : List Offer :=
  ((store.offers.docs.filter fun o => o.productID = p.id ∧ o.status = "active" ∧
    filters.selectsInventory o ∧ filters.selects o).filter store.sellerApproved).insertionSort
      fun a b => a.salePricePaise ≤ b.salePricePaise

/-- `_eligible_product_ids_for_offer_filters` -/
def eligibleProductIDs (filters : OfferFilters) : List ObjectId :=
  if store.approvedSellerIDs = [] then []
  else ((store.offers.docs.filter fun o => o.status = "active" ∧
    o.sellerID ∈ store.approvedSellerIDs ∧ filters.selectsInventory o ∧
    filters.selects o).map (·.productID)).eraseDups

end Store

/-! ## Rows -/

section Row

variable {K : Type} [Field K] [LinearOrder K]

/-- A product on its way through the pipeline. -/
structure Row (K : Type) where
  product : Product
  vector : Option (VectorScore K)
  hybrid : Option K
  /-- `_offers` -/
  offers : List Offer
  /-- `_minimumPrice` -/
  minimumPrice : Option ℤ
  /-- `_profileFitScore` -/
  profileFit : Option ℕ

/-- The stages that set `_vectorScore`. -/
def scoreVector (lib : Library K) (plan : Plan) (p : Product) :
    Except PyErr (Option (VectorScore K)) :=
  let terms := vectorTerms plan.fields plan.weights
  if terms = [] then .ok none else (vectorScore lib.sqrt terms p).map some

/-- The row that enters the pipeline, with its `_hybridScore`. -/
def scoreRow (lib : Library K) (plan : Plan) (p : Product) : Except PyErr (Row K) :=
  (scoreVector lib plan p).map fun vector =>
    let text := if plan.searchTerms = [] then none else some (lib.textScore plan.searchTerms p)
    ⟨p, vector, hybridScore (vector.map (·.score)) text, [], none, none⟩

/-- The dimensions that the request asks for: `fit_signal_scores` -/
def fitSignals (request : Request) : List Dimension := request.overlaps.map (·.dimension)

/-- The number of requested dimensions in which the offer's bounds apply. -/
def Offer.fitScore (signals : List Dimension) (o : Offer) : ℕ :=
  signals.countP fun d => (o.bounds d).any (·.applicable)

/-- `offer_projection` up to the match on `_offers.0`. -/
def Row.join (store : Store) (filters : OfferFilters) (signals : List Dimension) (row : Row K) :
    Row K :=
  let offers := store.joinedOffers filters row.product
  { row with
    offers
    minimumPrice := offers.head?.map (·.salePricePaise)
    profileFit := if signals = [] then none else (offers.map (·.fitScore signals)).max? }

/-- `offer_projection`: products without an offer are dropped. -/
def joinRows (store : Store) (filters : OfferFilters) (signals : List Dimension)
    (rows : List (Row K)) : List (Row K) :=
  (rows.map (·.join store filters signals)).filter fun row => !row.offers.isEmpty

end Row

/-! ## Sorting -/

inductive SortField where
  | createdAt
  | id
  | minimumPrice
  | catalogueMinPrice
  | ratingAverage
  | ratingCount
  | title
  | profileFit
  | hybrid
  deriving DecidableEq

structure SortKey where
  field : SortField
  descending : Bool
  deriving DecidableEq

section Sorting

variable {K : Type} [LinearOrder K]

/-- Compare one field; a missing value comes before all others. -/
def SortField.compare : SortField → Row K → Row K → Ordering
  | createdAt => compareOn (·.product.createdAt)
  | id => compareOn (·.product.id)
  | minimumPrice => compareOn (·.minimumPrice)
  | catalogueMinPrice => compareOn (·.product.catalogueMinPricePaise)
  | ratingAverage => compareOn (·.product.rating.average)
  | ratingCount => compareOn (·.product.rating.count)
  | title => compareOn (·.product.title)
  | profileFit => compareOn (·.profileFit)
  | hybrid => compareOn (·.hybrid)

def SortKey.compare (key : SortKey) : Row K → Row K → Ordering :=
  if key.descending then fun a b => key.field.compare b a else key.field.compare

/-- `{"$sort": spec}` -/
def compareRows : List SortKey → Row K → Row K → Ordering
  | [] => fun _ _ => .eq
  | key :: keys => compareLex key.compare (compareRows keys)

end Sorting

/-- `order.lower() == "desc"` -/
def Request.descending (request : Request) : Bool := request.order.toLower = "desc"

/-- `effective_sort` -/
def effectiveSort (request : Request) (plan : Plan) : String :=
  if plan.searchTerms ≠ [] ∧ request.sortBy = "createdAt" then "relevance" else request.sortBy

/-- `sort_map`, with `createdAt` for an unknown name. -/
def sortSpec (request : Request) (plan : Plan) : List SortKey :=
  let name := effectiveSort request plan
  let scored := vectorTerms plan.fields plan.weights ≠ [] ∨ plan.searchTerms ≠ []
  if name = "newest" then [⟨.createdAt, true⟩, ⟨.id, true⟩]
  else if name = "price" then [⟨.minimumPrice, request.descending⟩, ⟨.id, true⟩]
  else if name = "price_low" then [⟨.minimumPrice, false⟩, ⟨.id, true⟩]
  else if name = "price_high" then [⟨.minimumPrice, true⟩, ⟨.id, true⟩]
  else if name = "rating" then [⟨.ratingAverage, true⟩, ⟨.ratingCount, true⟩]
  else if name = "title" then [⟨.title, request.descending⟩]
  else if name = "relevance" then
    (if fitSignals request = [] then [] else [⟨.profileFit, true⟩]) ++
      (if scored then [⟨.hybrid, true⟩] else []) ++ [⟨.ratingCount, true⟩, ⟨.ratingAverage, true⟩]
  else [⟨.createdAt, request.descending⟩, ⟨.id, request.descending⟩]

/-- `offer_price_sort` -/
def sortsByPrice (request : Request) (plan : Plan) : Bool :=
  effectiveSort request plan ∈ ["price", "price_low", "price_high"]

/-- `indexed_sort_spec`: the stored minimum price takes the place of the joined one. -/
def indexedSortSpec (request : Request) (plan : Plan) : List SortKey :=
  let name := effectiveSort request plan
  if sortsByPrice request plan then
    [⟨.catalogueMinPrice,
      if name = "price_low" then false else if name = "price_high" then true
      else request.descending⟩, ⟨.id, true⟩]
  else sortSpec request plan

/-! ## The pipeline -/

section Pipeline

variable {K : Type} [Field K] [LinearOrder K] (lib : Library K) (store : Store)

/-- `hybrid_prelimited` -/
def hybridPrelimited (request : Request) (plan : Plan) : Bool :=
  vectorTerms plan.fields plan.weights ≠ [] ∧ ¬ plan.filters.isSet ∧ fitSignals request = [] ∧
    request.sortBy ∈ ["relevance", "createdAt"]

/-- `effective_candidate_limit` -/
def candidateLimit (request : Request) : ℕ :=
  min 5000 (max 100 (max request.hybridCandidateLimit.toNat
    (request.page * request.pageSize + request.pageSize)))

/-- `can_page_before_offer_join` -/
def canPageBeforeOfferJoin (request : Request) (plan : Plan) : Bool :=
  fitSignals request = [] ∧ ¬ (plan.filters.isSet ∧ sortsByPrice request plan)

/-- What `$facet` returns: the rows of the page, and the number of all rows. -/
structure Facet (K : Type) where
  items : List (Row K)
  count : ℕ

/-- An order of documents with equal sort keys. -/
abbrev Ties := ObjectId → ℕ

def sortRows (spec : List SortKey) (ties : Ties) (rows : List (Row K)) : List (Row K) :=
  sortBy (compareRows spec) (fun row => ties row.product.id) rows

/-- Cut the page first, and join the offers of its products. -/
def pagedBeforeJoin (request : Request) (plan : Plan) (ties : Ties) (rows : List (Row K)) :
    Facet K where
  items := joinRows store plan.filters (fitSignals request) (slice request.page request.pageSize
    (sortRows (indexedSortSpec request plan) ties rows))
  count := rows.length

/-- Join the offers of all products, and cut the page from those that have some. -/
def joinedBeforePage (request : Request) (plan : Plan) (ties : Ties) (rows : List (Row K)) :
    Facet K :=
  let joined := joinRows store plan.filters (fitSignals request) rows
  ⟨slice request.page request.pageSize (sortRows (sortSpec request plan) ties joined),
    joined.length⟩

/-- The best candidates by their hybrid score. -/
def prelimit (request : Request) (plan : Plan) (rows : List (Row K)) : List (Row K) :=
  if hybridPrelimited request plan then
    (sortRows [⟨.hybrid, true⟩, ⟨.ratingCount, true⟩, ⟨.id, true⟩] (fun _ => 0) rows).take
      (candidateLimit request)
  else rows

/-- The filter on `_id`, once the offer filters are resolved to products. -/
def idFilter (plan : Plan) : Option (List ObjectId) :=
  if plan.filters.isSet then some (store.eligibleProductIDs plan.filters) else none

/-- `{"$match": query}` -/
def matchedProducts (plan : Plan) : List Product :=
  store.products.docs.filter fun p =>
    p.catalogueEligible ∧ { plan.query with ids := idFilter store plan }.selects lib p

structure Page (K : Type) where
  items : List (Row K)
  page : ℕ
  pageSize : ℕ
  total : ℕ
  totalPages : ℕ
  /-- `retrieval`, which an empty page does not have -/
  strategy : Option String
  candidateLimit : Option ℕ

def emptyPage (request : Request) : Page K :=
  ⟨[], request.page, request.pageSize, 0, 0, none, none⟩

/-- The second half of `list_public_products`, without SwoopStyl. -/
def listPlanned (request : Request) (plan : Plan) (ties : Ties) : Except PyErr (Page K) := do
  if plan.filters.isSet ∧ store.eligibleProductIDs plan.filters = [] then
    return emptyPage request
  else
    let scored ← (matchedProducts lib store plan).mapM (scoreRow lib plan)
    let rows := prelimit request plan scored
    let early := canPageBeforeOfferJoin request plan
    let facet := if early then pagedBeforeJoin store request plan ties rows
      else joinedBeforePage store request plan ties rows
    let hybrid := hybridPrelimited request plan
    return {
      items := facet.items
      page := request.page
      pageSize := request.pageSize
      total := facet.count
      totalPages := if facet.count = 0 then 0 else pageCount facet.count request.pageSize
      strategy := some (if hybrid then "top-k-hybrid"
        else if early then "indexed-catalogue-read" else "filtered-hybrid")
      candidateLimit := if hybrid then some (candidateLimit request) else none }

/-- `list_public_products` without SwoopStyl -/
def listProducts (request : Request) (ties : Ties) : Except PyErr (Page K) :=
  match resolveRequest lib store request with
  | .error (.http statusCode message _) => .error (.httpException statusCode message)
  | .error .emptyPage => .ok (emptyPage request)
  | .ok plan => listPlanned lib store request plan ties

end Pipeline

end Catalogue

end Stylme
