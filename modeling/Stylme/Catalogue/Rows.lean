-- SUMMARY: What the stages of the listing pipeline keep: the scored rows, their offers, and their order.
import Stylme.Lib.Extrema
import Stylme.Lib.Fallible
import Stylme.Catalogue.Listing
import Stylme.Catalogue.Weights

/-!
# Rows of the pipeline

Each row belongs to one product, and joining offers only adds to it. The catalogue
projection of a store is exact if the flag and the price stored with a product are
those of the offers that the join would find.
-/

namespace Stylme

open Conc Backend

namespace Catalogue

/-! ## The projection -/

namespace Store

variable (store : Store)

/-- The offers of a product that can be bought. -/
def sellable (p : Product) : List Offer :=
  store.offers.docs.filter fun o => o.productID = p.id ∧ store.sells o

/-- The flag and the price that are stored with the product are those of its offers. -/
structure Projected (p : Product) : Prop where
  eligible : p.catalogueEligible ↔ store.sellable p ≠ []
  minPrice : p.catalogueEligible →
    p.catalogueMinPricePaise = ((store.sellable p).map (·.salePricePaise)).min?

/-- The catalogue projection is exact. -/
def ProjectionExact : Prop := ∀ p ∈ store.products, store.Projected p

variable {store}

theorem sellerApproved_iff {o : Offer} :
    store.sellerApproved o ↔ o.sellerID ∈ store.approvedSellerIDs := by
  simp only [sellerApproved, approvedSellerIDs, List.any_eq_true, List.mem_map, List.mem_filter,
    decide_eq_true_eq]
  exact exists_congr fun s => ⟨fun ⟨hs, hid, happ⟩ => ⟨⟨hs, happ⟩, hid⟩,
    fun ⟨⟨hs, happ⟩, hid⟩ => ⟨hs, hid, happ⟩⟩

theorem mem_joinedOffers {filters : OfferFilters} {p : Product} {o : Offer} :
    o ∈ store.joinedOffers filters p ↔ o ∈ store.offers ∧ o.productID = p.id ∧ o.status = "active" ∧
      filters.selectsInventory o ∧ filters.selects o ∧ o.sellerID ∈ store.approvedSellerIDs := by
  rw [joinedOffers, List.mem_insertionSort, List.mem_filter, List.mem_filter, sellerApproved_iff]
  simp only [decide_eq_true_eq, Collection.mem_def, and_assoc]

theorem mem_eligibleProductIDs {filters : OfferFilters} {p : Product} :
    p.id ∈ store.eligibleProductIDs filters ↔ store.joinedOffers filters p ≠ [] := by
  have hiff : store.joinedOffers filters p ≠ [] ↔ ∃ o, o ∈ store.joinedOffers filters p :=
    ⟨List.exists_mem_of_ne_nil _, fun ⟨_, ho⟩ => List.ne_nil_of_mem ho⟩
  rw [hiff, eligibleProductIDs]
  simp only [mem_joinedOffers]
  split
  · rename_i hnone
    simp [hnone]
  · simp only [List.mem_eraseDups, List.mem_map, List.mem_filter, decide_eq_true_eq]
    exact exists_congr fun o =>
      ⟨fun ⟨⟨ho, hactive, hseller, hstock, hselects⟩, hid⟩ =>
        ⟨ho, hid, hactive, hstock, hselects, hseller⟩,
      fun ⟨ho, hid, hactive, hstock, hselects, hseller⟩ =>
        ⟨⟨ho, hactive, hseller, hstock, hselects⟩, hid⟩⟩

end Store

/-- Filters that are not set select every offer in stock. -/
theorem OfferFilters.selects_of_not_isSet {filters : OfferFilters} (h : ¬ filters.isSet) (o : Offer) :
    filters.selectsInventory o = o.stocked ∧ filters.selects o := by
  simp only [isSet, decide_eq_true_eq, not_or, Option.not_isSome_iff_eq_none, not_not] at h
  obtain ⟨hsize, hfamily, hcolor, hprice, hoverlaps, hseller, hlocation, hinventory⟩ := h
  simp [selectsInventory, selects, hsize, hfamily, hcolor, hprice, hoverlaps, hseller, hlocation,
    hinventory]

namespace Store

variable {store : Store} {filters : OfferFilters} {p : Product}

/-- Without filters, the joined offers are those that can be bought. -/
theorem joinedOffers_perm (h : ¬ filters.isSet) :
    (store.joinedOffers filters p).Perm (store.sellable p) := by
  refine (List.perm_insertionSort _ _).trans (List.Perm.of_eq ?_)
  rw [List.filter_filter]
  refine List.filter_congr fun o _ => Bool.eq_iff_iff.2 ?_
  obtain ⟨hstock, hselects⟩ := OfferFilters.selects_of_not_isSet h o
  simp only [Bool.and_eq_true, sellerApproved_iff, decide_eq_true_eq, hstock, hselects, sells]
  tauto

/-- The price of the first joined offer is the least. -/
theorem head?_joinedOffers : (store.joinedOffers filters p).head?.map (·.salePricePaise) =
    ((store.joinedOffers filters p).map (·.salePricePaise)).min? := by
  have hsorted : (store.joinedOffers filters p).Pairwise
      fun a b => a.salePricePaise ≤ b.salePricePaise := by
    have htotal : Std.Total fun a b : Offer => a.salePricePaise ≤ b.salePricePaise :=
      ⟨fun a b => le_total a.salePricePaise b.salePricePaise⟩
    have htrans : IsTrans Offer fun a b => a.salePricePaise ≤ b.salePricePaise :=
      ⟨fun _ _ _ hab hbc => hab.trans hbc⟩
    exact List.pairwise_insertionSort _ _
  cases hoffers : store.joinedOffers filters p with
  | nil => rfl
  | cons o offers =>
    rw [hoffers, List.pairwise_cons] at hsorted
    rw [List.head?_cons, Option.map_some, eq_comm, List.min?_eq_some_iff]
    refine ⟨List.mem_cons_self, fun b hb => ?_⟩
    rw [List.map_cons] at hb
    rcases List.mem_cons.1 hb with rfl | hb
    · exact le_rfl
    · obtain ⟨o', ho', rfl⟩ := List.mem_map.1 hb
      exact hsorted.1 o' ho'

end Store

/-! ## The order of rows -/

section Order

variable {K : Type} [LinearOrder K]

theorem SortKey.compare_apply (key : SortKey) (a b : Row K) : key.compare a b =
    if key.descending then key.field.compare b a else key.field.compare a b := by
  unfold SortKey.compare
  split <;> rfl

instance (field : SortField) : Std.TransCmp (field.compare (K := K)) := by
  cases field <;> exact inferInstanceAs (Std.TransCmp (compareOn _))

instance (key : SortKey) : Std.TransCmp (key.compare (K := K)) := by
  unfold SortKey.compare
  split
  · exact Std.TransCmp.opposite
  · infer_instance

theorem transCmp_compareRows (spec : List SortKey) :
    Std.TransCmp (compareRows spec : Row K → Row K → Ordering) := by
  induction spec with
  | nil => exact { eq_swap := rfl, isLE_trans := fun _ _ => rfl }
  | cons key keys ih => exact inferInstanceAs (Std.TransCmp (compareLex key.compare (compareRows keys)))

instance (spec : List SortKey) : Std.TransCmp (compareRows spec : Row K → Row K → Ordering) :=
  transCmp_compareRows spec

/-- Rows that compare equal have equal values of every sort key. -/
theorem compare_eq_of_mem {spec : List SortKey} {key : SortKey} (hkey : key ∈ spec) {a b : Row K}
    (h : compareRows spec a b = .eq) : key.compare a b = .eq := by
  induction spec with
  | nil => cases hkey
  | cons k keys ih =>
    simp only [compareRows, compareLex, Ordering.then_eq_eq] at h
    rcases List.mem_cons.1 hkey with rfl | hkey
    · exact h.1
    · exact ih hkey h.2

theorem id_eq_of_compare {descending : Bool} {a b : Row K}
    (h : SortKey.compare ⟨.id, descending⟩ a b = .eq) : a.product.id = b.product.id := by
  cases descending with
  | false => exact compare_eq_iff_eq.1 h
  | true => exact (compare_eq_iff_eq.1 h).symm

/-- The comparison of rows only depends on the compared fields. -/
theorem compareRows_congr {spec spec' : List SortKey} {a b a' b' : Row K}
    (h : List.Forall₂ (fun k k' => k.compare a b = k'.compare a' b') spec spec') :
    compareRows spec a b = compareRows spec' a' b' := by
  induction h with
  | nil => rfl
  | cons hk _ ih => simp only [compareRows, compareLex, hk, ih]

/-- A sort with a key on the product tells scored rows apart. -/
theorem separates_of_id {rows : List (Row K)}
    (hids : ∀ a ∈ rows, ∀ b ∈ rows, a.product.id = b.product.id → a = b)
    {spec : List SortKey} {descending : Bool} (hid : ⟨.id, descending⟩ ∈ spec) :
    Separates (compareRows spec) rows := fun a ha b hb hab =>
  hids a ha b hb (id_eq_of_compare (compare_eq_of_mem hid hab))

end Order

/-! ## Products that can be scored -/

section Scorable

/-- Every term finds an array where it looks for the values of the product. -/
def Scorable (terms : List Term) (p : Product) : Prop :=
  ∀ t ∈ terms, ∃ items, t.source.values p = .arr items

theorem inOperator_isOk_iff {v : String} {value : Json} :
    (∃ b, inOperator v value = .ok b) ↔ ∃ items, value = .arr items := by
  cases value <;> simp [inOperator]

variable {terms : List Term} {p : Product}

theorem matchedTerms_isOk_iff : (∃ matched, matchedTerms p terms = .ok matched) ↔ Scorable terms p := by
  induction terms with
  | nil => exact iff_of_true ⟨[], rfl⟩ fun t ht => absurd ht List.not_mem_nil
  | cons t ts ih =>
    rw [Scorable, List.forall_mem_cons, ← inOperator_isOk_iff (v := t.value), ← Scorable, ← ih]
    constructor
    · rintro ⟨matched, h⟩
      obtain ⟨b, hb, h⟩ := bind_eq_ok.1 h
      obtain ⟨rest, hrest, -⟩ := bind_eq_ok.1 h
      exact ⟨⟨b, hb⟩, rest, hrest⟩
    · rintro ⟨⟨b, hb⟩, rest, hrest⟩
      exact ⟨_, bind_eq_ok.2 ⟨b, hb, bind_eq_ok.2 ⟨rest, hrest, rfl⟩⟩⟩

theorem matchedTerms_sublist {matched : List ℚ} (h : matchedTerms p terms = .ok matched) :
    matched.Sublist (terms.map (·.weight)) := by
  induction terms generalizing matched with
  | nil => exact Except.ok.inj h ▸ .slnil
  | cons t ts ih =>
    obtain ⟨b, -, h⟩ := bind_eq_ok.1 h
    obtain ⟨rest, hrest, h⟩ := bind_eq_ok.1 h
    obtain rfl := Except.ok.inj h
    cases b with
    | true => exact (ih hrest).cons_cons _
    | false => exact (ih hrest).cons _

variable {K : Type} [Field K] [LinearOrder K] {sqrt : ℚ → K}

/-- With positive weights, no score divides by zero. -/
theorem vectorScore_isOk_iff (hsqrt : ∀ q, 0 < q → sqrt q ≠ 0) (hpos : ∀ t ∈ terms, 0 < t.weight) :
    (∃ score, vectorScore sqrt terms p = .ok score) ↔ Scorable terms p := by
  rw [← matchedTerms_isOk_iff]
  constructor
  · rintro ⟨score, h⟩
    obtain ⟨matched, hmatched, -⟩ := bind_eq_ok.1 h
    exact ⟨matched, hmatched⟩
  · rintro ⟨matched, hmatched⟩
    simp only [vectorScore, hmatched, bind, Except.bind]
    split
    · rename_i hlen
      have hsub := matchedTerms_sublist hmatched
      have hne : terms.map (·.weight) ≠ [] := fun h => by
        rw [h, List.sublist_nil] at hsub
        simp [hsub] at hlen
      have hnorm : 0 < squares (terms.map (·.weight)) := squares_pos hne (by simpa using hpos)
      have hcount : (0 : ℚ) < matched.length := by exact_mod_cast hlen
      rw [divideOperator, if_neg (mul_ne_zero (hsqrt _ hnorm) (hsqrt _ hcount))]
      exact ⟨_, rfl⟩
    · exact ⟨_, rfl⟩

theorem scoreRow_isOk_iff {lib : Library K} {plan : Plan} (hsqrt : ∀ q, 0 < q → lib.sqrt q ≠ 0)
    (hweights : CleanWeights plan.weights) : (∃ row, scoreRow lib plan p = .ok row) ↔
      Scorable (vectorTerms plan.fields plan.weights) p := by
  have hvector : (∃ vector, scoreVector lib plan p = .ok vector) ↔
      Scorable (vectorTerms plan.fields plan.weights) p := by
    unfold scoreVector
    dsimp only
    split
    · rename_i hnone
      exact iff_of_true ⟨none, rfl⟩ fun t ht => absurd (hnone ▸ ht) List.not_mem_nil
    · rw [← vectorScore_isOk_iff hsqrt fun t ht => hweights.weight_pos ht]
      simp only [map_eq_ok]
      exact ⟨fun ⟨_, score, h, _⟩ => ⟨score, h⟩, fun ⟨score, h⟩ => ⟨_, score, h, rfl⟩⟩
  rw [← hvector]
  simp only [scoreRow, map_eq_ok]
  exact ⟨fun ⟨_, vector, h, _⟩ => ⟨vector, h⟩, fun ⟨vector, h⟩ => ⟨_, vector, h, rfl⟩⟩

end Scorable

/-! ## Scored rows -/

section Scored

variable {K : Type} [Field K] [LinearOrder K] {lib : Library K} {store : Store} {plan : Plan}

/-- The rows are the scored products. -/
def ScoredRows (lib : Library K) (plan : Plan) (products : List Product) (rows : List (Row K)) :
    Prop :=
  products.mapM (scoreRow lib plan) = .ok rows

theorem scoreRow_product {p : Product} {row : Row K} (h : scoreRow lib plan p = .ok row) :
    row.product = p := by
  unfold scoreRow at h
  cases hvector : scoreVector lib plan p with
  | error e =>
    rw [hvector] at h
    cases h
  | ok vector =>
    rw [hvector] at h
    cases h
    rfl

variable {products : List Product} {rows : List (Row K)}

theorem ScoredRows.map_product (h : ScoredRows lib plan products rows) :
    rows.map (·.product) = products := by
  have hall := mapM_eq_ok_iff.1 h
  clear h
  induction hall with
  | nil => rfl
  | cons hrow _ ih => rw [List.map_cons, ih, scoreRow_product hrow]

theorem ScoredRows.mem_product (h : ScoredRows lib plan products rows) {row : Row K}
    (hrow : row ∈ rows) : row.product ∈ products :=
  h.map_product ▸ List.mem_map_of_mem hrow

/-- Rows of one product are equal. -/
theorem ScoredRows.eq_of_product (h : ScoredRows lib plan products rows) {a b : Row K}
    (ha : a ∈ rows) (hb : b ∈ rows) (hproduct : a.product = b.product) : a = b := by
  have hscore : ∀ row ∈ rows, scoreRow lib plan row.product = .ok row := by
    have hall := mapM_eq_ok_iff.1 h
    clear h ha hb
    induction hall with
    | nil => exact fun row hrow => absurd hrow List.not_mem_nil
    | cons hrow _ ih =>
      intro row hmem
      rcases List.mem_cons.1 hmem with rfl | hmem
      · rw [scoreRow_product hrow, hrow]
      · exact ih row hmem
  exact Except.ok.inj ((hscore a ha).symm.trans (hproduct ▸ hscore b hb))

end Scored

section Matched

variable {K : Type} {lib : Library K} {store : Store} {plan : Plan}

theorem mem_matchedProducts {p : Product} (h : p ∈ matchedProducts lib store plan) :
    p ∈ store.products ∧ p.catalogueEligible ∧
      (plan.filters.isSet → p.id ∈ store.eligibleProductIDs plan.filters) := by
  obtain ⟨hp, hmatch⟩ := List.mem_filter.1 h
  obtain ⟨heligible, hselects⟩ := of_decide_eq_true hmatch
  refine ⟨hp, heligible, fun hset => ?_⟩
  simp only [ProductQuery.selects, idFilter, hset, if_true, Option.all_some, decide_eq_true_eq]
    at hselects
  exact hselects.2.2.2.2.2.2.1

/-- In a store with an exact projection, every matching product has an offer that qualifies. -/
theorem joinedOffers_ne_nil (h : store.ProjectionExact) {p : Product}
    (hp : p ∈ matchedProducts lib store plan) : store.joinedOffers plan.filters p ≠ [] := by
  obtain ⟨hmem, heligible, hids⟩ := mem_matchedProducts hp
  by_cases hset : plan.filters.isSet
  · exact Store.mem_eligibleProductIDs.1 (hids hset)
  · intro hnone
    have hperm : (store.joinedOffers plan.filters p).Perm (store.sellable p) :=
      Store.joinedOffers_perm hset
    rw [hnone] at hperm
    exact (h p hmem).eligible.1 heligible hperm.nil_eq.symm

/-- No row of a matching product is dropped by the join. -/
theorem joinRows_eq_map (signals : List Dimension) {rows : List (Row K)}
    (h : ∀ row ∈ rows, store.joinedOffers plan.filters row.product ≠ []) :
    joinRows store plan.filters signals rows = rows.map (·.join store plan.filters signals) := by
  refine List.filter_eq_self.2 fun row hrow => ?_
  obtain ⟨scored, hscored, rfl⟩ := List.mem_map.1 hrow
  simpa [Row.join] using h scored hscored

theorem ScoredRows.eq_of_id [Field K] [LinearOrder K] {rows : List (Row K)}
    (h : ScoredRows lib plan (matchedProducts lib store plan) rows) {a b : Row K} (ha : a ∈ rows)
    (hb : b ∈ rows) (hid : a.product.id = b.product.id) : a = b := by
  refine h.eq_of_product ha hb ?_
  exact store.products.eq_of_id_eq (mem_matchedProducts (h.mem_product ha)).1
    (mem_matchedProducts (h.mem_product hb)).1 hid

end Matched

end Catalogue

end Stylme
