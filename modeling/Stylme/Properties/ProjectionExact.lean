-- SUMMARY: When approvals and decisions keep the catalogue projection exact: which writes have to be right, or to be followed by others.
import Stylme.Catalogue.ApprovalProtocol
import Stylme.Catalogue.Rows

/-!
# The catalogue projection under concurrency

The flag and the price of a product are written by the transaction of an approval,
from the draft alone, and by decisions, from what they have read of the offers. At
any time each projection is exact, or some decision in progress has still to write
it. The last writer of a projection must therefore write what holds then.
-/

namespace Stylme

open Conc Backend

namespace Catalogue

/-! ## Prices -/

namespace Store

variable (store : Store)

/-- The prices at which the product with this identifier can be bought. -/
def prices (id : ObjectId) : List ℤ :=
  (store.offers.docs.filter fun o => o.productID = id ∧ store.sells o).map (·.salePricePaise)

def leastPrice (id : ObjectId) : Option ℤ := (store.prices id).min?

variable {store} {store' : Store} {p : Product} {id : ObjectId}

theorem mem_prices {price : ℤ} : price ∈ store.prices id ↔
    ∃ o ∈ store.offers, o.productID = id ∧ store.sells o ∧ o.salePricePaise = price := by
  simp only [prices, List.mem_map, List.mem_filter, Collection.mem_def, decide_eq_true_eq, and_assoc]

theorem projected_iff : store.Projected p ↔
    (p.catalogueEligible ↔ store.leastPrice p.id ≠ none) ∧
      (p.catalogueEligible → p.catalogueMinPricePaise = store.leastPrice p.id) := by
  have hprices : store.prices p.id = (store.sellable p).map (·.salePricePaise) := rfl
  have hnone : store.leastPrice p.id = none ↔ store.sellable p = [] := by
    rw [leastPrice, List.min?_eq_none_iff, hprices, List.map_eq_nil_iff]
  rw [ne_eq, hnone]
  exact ⟨fun h => ⟨h.eligible, h.minPrice⟩, fun h => ⟨h.1, h.2⟩⟩

/-- A projection with the least price is exact. -/
theorem projected_of_leastPrice (hflag : p.catalogueEligible = (store.leastPrice p.id).isSome)
    (hprice : p.catalogueEligible → p.catalogueMinPricePaise = store.leastPrice p.id) :
    store.Projected p :=
  projected_iff.2 ⟨by rw [hflag, Option.isSome_iff_ne_none], hprice⟩

theorem projected_congr (h : store'.leastPrice p.id = store.leastPrice p.id) :
    store'.Projected p ↔ store.Projected p := by
  rw [projected_iff, projected_iff, h]

/-! ## Writes -/

theorem leastPrice_setProjection {id' : ObjectId} {minimumPrice : Option ℤ} :
    (store.setProjection id' minimumPrice).leastPrice id = store.leastPrice id := rfl

theorem mem_setProjection {id : ObjectId} {minimumPrice : Option ℤ}
    (h : p ∈ (store.setProjection id minimumPrice).products) :
    (p.id ≠ id ∧ p ∈ store.products) ∨ p.id = id ∧ (∃ q ∈ store.products, q.id = id) ∧
      p.catalogueEligible = minimumPrice.isSome ∧ p.catalogueMinPricePaise = minimumPrice := by
  obtain ⟨q, hq, rfl⟩ := List.mem_map.1 h
  by_cases hid : q.id = id
  · rw [if_pos hid]
    exact .inr ⟨hid, ⟨q, hq, hid⟩, rfl, rfl⟩
  · rw [if_neg hid]
    exact .inl ⟨hid, hq⟩

theorem mem_approved_setSellerStatus {seller : ObjectId} {status : String} (hne : seller ≠ id) :
    seller ∈ (store.setSellerStatus id status).approvedSellerIDs ↔ seller ∈ store.approvedSellerIDs := by
  simp only [approvedSellerIDs, setSellerStatus, Collection.updateAll, List.mem_map, List.mem_filter,
    decide_eq_true_eq]
  constructor
  · rintro ⟨s, ⟨⟨s', hs', rfl⟩, hstatus⟩, rfl⟩
    split at hstatus
    · rename_i hid
      rw [if_pos hid] at hne
      exact absurd hid hne
    · rename_i hid
      rw [if_neg hid]
      exact ⟨s', ⟨hs', hstatus⟩, rfl⟩
  · rintro ⟨s, ⟨hs, hstatus⟩, rfl⟩
    exact ⟨s, ⟨⟨s, hs, if_neg hne⟩, hstatus⟩, rfl⟩

/-- The status of a seller matters to the products with an offer of the seller only. -/
theorem leastPrice_setSellerStatus {seller : ObjectId} {status : String}
    (h : ∀ o ∈ store.offers, o.sellerID = seller → o.productID ≠ id) :
    (store.setSellerStatus seller status).leastPrice id = store.leastPrice id := by
  refine min?_congr fun price => ?_
  rw [mem_prices, mem_prices]
  refine exists_congr fun o => and_congr_right fun ho => and_congr_right fun hid => ?_
  have hne : o.sellerID ≠ seller := fun hseller => h o ho hseller hid
  simp only [sells, mem_approved_setSellerStatus hne]

end Store

/-! ## Publications -/

section Publish

variable (lib : Platform) (store : Store) (draft : Draft)

/-- The prices of the other offers of the draft's product. -/
def otherPrices : List ℤ :=
  (store.draftProduct? lib draft).elim [] fun p => (store.offers.docs.filter fun o =>
    o.productID = p.id ∧ o.offerCode ≠ draft.offerCode lib.idText ∧ store.sells o).map
      (·.salePricePaise)

/-- The price of the draft, if its offer can be bought. -/
def ownPrices : List ℤ :=
  if draft.rows.any (·.stocked) ∧ draft.sellerID ∈ store.approvedSellerIDs then
    [(draft.salePricePaise : ℤ)]
  else []

/-- The price of the draft, if it is in stock. -/
def draftPrice (draft : Draft) : Option ℤ :=
  if draft.rows.any (·.stocked) then some draft.salePricePaise else none

/-- An offer with the draft's code is one of the draft's product and seller. -/
def OwnsOffer : Prop :=
  ∀ o ∈ store.offers, o.offerCode = draft.offerCode lib.idText → o.sellerID = draft.sellerID ∧
    ∃ p, store.draftProduct? lib draft = some p ∧ o.productID = p.id

variable {lib store} {store' : Store} {publication : Publication} {o : Approvals.Oracle}

namespace PublishedInto

variable (h : PublishedInto lib publication o store store')

include h

theorem approvedSellerIDs : store'.approvedSellerIDs = store.approvedSellerIDs := by
  rw [Store.approvedSellerIDs, h.sellers, Store.approvedSellerIDs]

theorem sells {e : Offer} : store'.sells e = store.sells e := by
  rw [Store.sells, h.approvedSellerIDs, Store.sells]

/-- The offer that is replaced is the one with the draft's code. -/
theorem id_eq_iff {e : Offer} {productID : ObjectId} (he : e ∈ store.offers) :
    e.id = (store.publishedOffer lib publication productID o.offerID).id ↔
      e.offerCode = publication.draft.offerCode lib.idText := by
  obtain ⟨-, hfresh⟩ := of_decide_eq_true h.fresh
  change e.id = (store.draftOffer? lib publication.draft).elim o.offerID (·.id) ↔ _
  cases hfind : store.draftOffer? lib publication.draft with
  | none =>
    have hid : ∀ e' ∈ store.offers, e'.id ≠ o.offerID := by
      simpa [hfind, Collection.mem_def] using hfresh
    have hcode := Collection.find?_none hfind he
    exact iff_of_false (hid e he) (by simpa using hcode)
  | some e' =>
    obtain ⟨he', hcode⟩ := Collection.find?_some hfind
    have hcode : e'.offerCode = publication.draft.offerCode lib.idText := by simpa using hcode
    constructor
    · intro hid
      rw [store.offers.eq_of_id_eq he he' hid, hcode]
    · intro hcode'
      rw [store.offers.eq_of_key_eq he he' (hcode'.trans hcode.symm)]
      rfl

/-- No offer refers to a new product. -/
theorem productID_ne (hnew : store.draftProduct? lib publication.draft = none) {e : Offer}
    (he : e ∈ store.offers) :
    e.productID ≠ (store.publishedProduct lib publication o.productID).id := by
  obtain ⟨hfresh, -⟩ := of_decide_eq_true h.fresh
  have hid := hfresh (by rw [hnew]; rfl)
  simp only [Store.freshProductID, List.any_eq_true, decide_eq_true_eq, not_exists, not_and] at hid
  simp only [Store.publishedProduct, hnew]
  exact hid.2 e he

omit h in
theorem publishedProduct_id {p : Product} (hp : store.draftProduct? lib publication.draft = some p) :
    (store.publishedProduct lib publication o.productID).id = p.id := by
  simp only [Store.publishedProduct, hp]
  rfl

omit h in
theorem catalogueEligible_publishedProduct : (store.publishedProduct lib publication
    o.productID).catalogueEligible = publication.draft.rows.any (·.stocked) := by
  unfold Store.publishedProduct
  dsimp only
  split <;> rfl

omit h in
theorem catalogueMinPricePaise_publishedProduct : (store.publishedProduct lib publication
    o.productID).catalogueMinPricePaise = some (publication.draft.salePricePaise : ℤ) := by
  unfold Store.publishedProduct
  dsimp only
  split <;> rfl

/-- The least price of the draft's product afterwards. -/
theorem leastPrice_product :
    store'.leastPrice (store.publishedProduct lib publication o.productID).id =
      (otherPrices lib store publication.draft ++ ownPrices store publication.draft).min? := by
  refine min?_congr fun price => ?_
  rw [Store.mem_prices, List.mem_append]
  have hother : price ∈ otherPrices lib store publication.draft ↔ ∃ e ∈ store.offers,
      e.offerCode ≠ publication.draft.offerCode lib.idText ∧
      e.productID = (store.publishedProduct lib publication o.productID).id ∧ store.sells e ∧
        e.salePricePaise = price := by
    unfold otherPrices
    cases hp : store.draftProduct? lib publication.draft with
    | none =>
      refine iff_of_false List.not_mem_nil ?_
      rintro ⟨e, he, -, hid, -⟩
      exact h.productID_ne hp he hid
    | some p =>
      rw [publishedProduct_id hp]
      simp only [Option.elim_some, List.mem_map, List.mem_filter, decide_eq_true_eq,
        Collection.mem_def]
      exact exists_congr fun e => by tauto
  have hown : price ∈ ownPrices store publication.draft ↔
      store.sells (store.publishedOffer lib publication
        (store.publishedProduct lib publication o.productID).id o.offerID) ∧
      (publication.draft.salePricePaise : ℤ) = price := by
    unfold ownPrices Store.sells
    split
    · rename_i hsold
      rw [List.mem_singleton, eq_comm]
      exact (and_iff_right (decide_eq_true ⟨rfl, hsold.1, hsold.2⟩)).symm
    · rename_i hsold
      refine iff_of_false List.not_mem_nil fun hsells => hsold ?_
      obtain ⟨-, hstocked, happroved⟩ := of_decide_eq_true hsells.1
      exact ⟨hstocked, happroved⟩
  rw [hother, hown]
  constructor
  · rintro ⟨e, he, hid, hsells, hprice⟩
    rw [h.sells] at hsells
    rcases (h.offers e).1 he with rfl | ⟨he, hne⟩
    · exact .inr ⟨hsells, hprice⟩
    · exact .inl ⟨e, he, mt (h.id_eq_iff he).2 hne, hid, hsells, hprice⟩
  · rintro (⟨e, he, hcode, hid, hsells, hprice⟩ | ⟨hsells, hprice⟩)
    · exact ⟨e, (h.offers e).2 (.inr ⟨he, mt (h.id_eq_iff he).1 hcode⟩), hid, by rwa [h.sells], hprice⟩
    · exact ⟨_, (h.offers _).2 (.inl rfl), rfl, by rwa [h.sells], hprice⟩

/-- No other product gains or loses an offer. -/
theorem leastPrice_of_ne (howns : OwnsOffer lib store publication.draft) {id : ObjectId}
    (hne : id ≠ (store.publishedProduct lib publication o.productID).id) :
    store'.leastPrice id = store.leastPrice id := by
  refine min?_congr fun price => ?_
  rw [Store.mem_prices, Store.mem_prices]
  constructor
  · rintro ⟨e, he, hid, hsells, hprice⟩
    rw [h.sells] at hsells
    rcases (h.offers e).1 he with rfl | ⟨he, -⟩
    · exact absurd hid.symm hne
    · exact ⟨e, he, hid, hsells, hprice⟩
  · rintro ⟨e, he, hid, hsells, hprice⟩
    refine ⟨e, (h.offers e).2 (.inr ⟨he, fun hsame => hne ?_⟩), hid, by rwa [h.sells], hprice⟩
    obtain ⟨-, p, hp, hproduct⟩ := howns e he ((h.id_eq_iff he).1 hsame)
    rw [← hid, hproduct, publishedProduct_id hp]

/-- Sellers keep the products that they have offers of. -/
theorem exists_offer (howns : OwnsOffer lib store publication.draft) {seller id : ObjectId}
    (hoffer : ∃ e ∈ store.offers, e.sellerID = seller ∧ e.productID = id) :
    ∃ e ∈ store'.offers, e.sellerID = seller ∧ e.productID = id := by
  obtain ⟨e, he, rfl, rfl⟩ := hoffer
  by_cases hsame : e.offerCode = publication.draft.offerCode lib.idText
  · obtain ⟨hseller, p, hp, hproduct⟩ := howns e he hsame
    refine ⟨_, (h.offers _).2 (.inl rfl), hseller.symm, ?_⟩
    rw [hproduct, ← publishedProduct_id (o := o) hp]
    rfl
  · exact ⟨e, (h.offers e).2 (.inr ⟨he, mt (h.id_eq_iff he).1 hsame⟩), rfl, rfl⟩

end PublishedInto

end Publish

namespace Approvals

/-! ## Decisions in progress -/

section Pending

variable (lib : Platform) (store : Store)

/-- The decision has still to write the projection of the product. -/
def Pending (op : Op) (l : Phase) (id : ObjectId) : Prop :=
  l.found ∧ l.failed = false ∧
    match l.affected with
    | none => ∃ seller, op.sellerID lib = some seller ∧
        ∃ o ∈ store.offers, o.sellerID = seller ∧ o.productID = id
    | some ids => id ∈ ids ∧ id ∉ l.written

abbrev Views := ℕ → Option (View Op Phase)

variable (views : Views)

def PendingIn (t : ℕ) (id : ObjectId) : Prop :=
  ∃ op l b, views t = some ⟨op, l, b⟩ ∧ Pending lib store op l id

/-- A decision about the draft's seller has still to read the products of the seller. -/
def ListingDue (views : Views) (draft : Draft) : Prop :=
  ∃ t op l b, views t = some ⟨op, l, b⟩ ∧ l.found ∧ l.failed = false ∧ l.affected = none ∧
    op.sellerID lib = some draft.sellerID

/-- The projection that the transaction writes is exact, or a decision in progress will write it. -/
structure PublishSafe (draft : Draft) : Prop where
  owns : OwnsOffer lib store draft
  price : (otherPrices lib store draft ++ ownPrices store draft).min? = draftPrice draft ∨
    ListingDue lib views draft ∨
    ∃ p, store.draftProduct? lib draft = some p ∧ ∃ t, PendingIn lib store views t p.id

/-- What the decision has read of the product still holds, or another decision in progress will
write the projection. -/
def RefreshSafe (t : ℕ) (id : ObjectId) : Prop :=
  (∀ op l b, views t = some ⟨op, l, b⟩ → l.prices.lookup id = store.leastPrice id) ∨
    ∃ u, u ≠ t ∧ PendingIn lib store views u id

def CmdSafe (t : ℕ) : Cmd → Prop
  | .publish publication => PublishSafe lib store views publication.draft
  | .setProjection id _ => (∃ p ∈ store.products, p.id = id) → RefreshSafe lib store views t id
  | _ => True

/-- Every projection is exact, or some decision has still to write it. -/
def Settled : Prop :=
  ∀ p ∈ store.products, store.Projected p ∨ ∃ t, PendingIn lib store views t p.id

end Pending

/-- The views of the threads of a pool. -/
abbrev views (lib : Platform) (σ : State) : Views := (σ.config (Op.protocol lib) fun _ => {}).view

/-- No command fails, and those that write projections find what makes them right. -/
def SafeStep (lib : Platform) (σ : State) : Step → Prop
  | .spawn _ _ => True
  | .exec t o => o.fault = none ∧
      ∀ op cmd, σ.next t = some (op, cmd) → CmdSafe lib σ.shared.store (views lib σ) t cmd
  | .crash _ | .env _ => False

section Steps

variable {lib : Platform} {store store' : Store} {views : Views} {t : ℕ} {op : Op} {l l' : Phase}
variable {id : ObjectId}

/-- Decisions go on with their lists while sellers keep their products. -/
theorem Pending.of_offers (h : Pending lib store op l id)
    (hoffers : ∀ seller, (∃ o ∈ store.offers, o.sellerID = seller ∧ o.productID = id) →
      ∃ o ∈ store'.offers, o.sellerID = seller ∧ o.productID = id) : Pending lib store' op l id := by
  obtain ⟨hfound, hfailed, hpending⟩ := h
  refine ⟨hfound, hfailed, ?_⟩
  split
  · rename_i hnone
    rw [hnone] at hpending
    obtain ⟨seller, hseller, hoffer⟩ := hpending
    exact ⟨seller, hseller, hoffers seller hoffer⟩
  · rename_i ids hids
    rwa [hids] at hpending

theorem PendingIn.update_of_ne {u : ℕ} {view : Option (View Op Phase)} (hne : u ≠ t)
    (h : PendingIn lib store views u id)
    (hoffers : ∀ seller, (∃ o ∈ store.offers, o.sellerID = seller ∧ o.productID = id) →
      ∃ o ∈ store'.offers, o.sellerID = seller ∧ o.productID = id) :
    PendingIn lib store' (Function.update views t view) u id := by
  obtain ⟨op, l, b, hu, hpending⟩ := h
  exact ⟨op, l, b, by rwa [Function.update_of_ne hne], hpending.of_offers hoffers⟩

/-- A thread that moves on keeps what it has still to write. -/
theorem PendingIn.update {u : ℕ} (ht : views t = some ⟨op, l, true⟩)
    (h : PendingIn lib store views u id)
    (hoffers : ∀ seller, (∃ o ∈ store.offers, o.sellerID = seller ∧ o.productID = id) →
      ∃ o ∈ store'.offers, o.sellerID = seller ∧ o.productID = id)
    (hpending : Pending lib store op l id → Pending lib store' op l' id) :
    PendingIn lib store' (Function.update views t (some ⟨op, l', true⟩)) u id := by
  by_cases hut : u = t
  · subst hut
    obtain ⟨op', l₀, b, hu, h⟩ := h
    obtain ⟨rfl, rfl, -⟩ := View.mk.inj (Option.some.inj (hu.symm.trans ht))
    exact ⟨_, _, _, Function.update_self .., hpending h⟩
  · exact h.update_of_ne hut hoffers

/-- A command that leaves the store and what the thread has to write. -/
theorem Settled.read (h : Settled lib store views) (ht : views t = some ⟨op, l, true⟩)
    (hpending : ∀ id, Pending lib store op l id → Pending lib store op l' id) :
    Settled lib store (Function.update views t (some ⟨op, l', true⟩)) := fun p hp =>
  (h p hp).imp_right fun ⟨u, hu⟩ => ⟨u, hu.update ht (fun _ h => h) (hpending p.id)⟩

theorem not_pending_of_found (h : l.found = false) : ¬ Pending lib store op l id := fun hpending => by
  rw [Pending, h] at hpending
  cases hpending.1

theorem Settled.setSellerStatus {seller : ObjectId} {status : String} (h : Settled lib store views)
    (ht : views t = some ⟨op, l, true⟩) (hop : op.sellerID lib = some seller) (hfound : l.found)
    (hfailed : l.failed = false) (haffected : l.affected = none) :
    Settled lib (store.setSellerStatus seller status) (Function.update views t (some ⟨op, l, true⟩)) := by
  have hviews : Function.update views t (some ⟨op, l, true⟩) = views := by
    rw [← ht, Function.update_eq_self]
  rw [hviews]
  intro p hp
  by_cases hoffer : ∃ o ∈ store.offers, o.sellerID = seller ∧ o.productID = p.id
  · refine .inr ⟨t, op, l, true, ht, hfound, hfailed, ?_⟩
    rw [haffected]
    exact ⟨seller, hop, hoffer⟩
  · have hprice : (store.setSellerStatus seller status).leastPrice p.id = store.leastPrice p.id :=
      Store.leastPrice_setSellerStatus fun o ho hseller hid => hoffer ⟨o, ho, hseller, hid⟩
    exact (h p hp).imp (Store.projected_congr hprice).2 fun hpending => hpending

/-- The decision reads its list of products. -/
theorem Pending.list {ids : List ObjectId} {seller : ObjectId} (h : Pending lib store op l id)
    (hop : op.sellerID lib = some seller) (haffected : l.affected = none) (hwritten : l.written = [])
    (hids : ids.Perm ((store.offers.docs.filter (·.sellerID = seller)).map (·.productID)).eraseDups) :
    Pending lib store op { l with affected := some ids } id := by
  obtain ⟨hfound, hfailed, hpending⟩ := h
  rw [haffected] at hpending
  obtain ⟨seller', hseller', o, ho, rfl, rfl⟩ := hpending
  obtain rfl := Option.some.inj (hop.symm.trans hseller')
  refine ⟨hfound, hfailed, hids.mem_iff.2 (List.mem_eraseDups.2 ?_), ?_⟩
  · exact List.mem_map_of_mem (List.mem_filter.2 ⟨ho, decide_eq_true rfl⟩)
  · rw [hwritten]
    exact List.not_mem_nil

theorem Settled.setProjection {id : ObjectId} {minimumPrice : Option ℤ} (h : Settled lib store views)
    (ht : views t = some ⟨op, l, true⟩) (hprice : minimumPrice = l.prices.lookup id)
    (hsafe : (∃ p ∈ store.products, p.id = id) → RefreshSafe lib store views t id) :
    Settled lib (store.setProjection id minimumPrice)
      (Function.update views t (some ⟨op, { l with written := id :: l.written }, true⟩)) := by
  intro p hp
  rcases Store.mem_setProjection hp with ⟨hne, hp⟩ | ⟨hid, hstored, hflag, hstoredPrice⟩
  · have hleast : (store.setProjection id minimumPrice).leastPrice p.id = store.leastPrice p.id :=
      Store.leastPrice_setProjection
    refine (h p hp).imp (Store.projected_congr hleast).2 fun ⟨u, hu⟩ =>
      ⟨u, hu.update ht (fun _ h => h) fun ⟨hfound, hfailed, hpending⟩ => ⟨hfound, hfailed, ?_⟩⟩
    dsimp only
    split
    · rename_i hnone
      rwa [hnone] at hpending
    · rename_i ids hids
      rw [hids] at hpending
      exact ⟨hpending.1, fun hmem => (List.mem_cons.1 hmem).elim hne hpending.2⟩
  · rcases hsafe hstored with hread | ⟨u, hne, hpending⟩
    · have hleast : minimumPrice = store.leastPrice p.id := by rw [hprice, hread op l true ht, hid]
      refine .inl (Store.projected_of_leastPrice ?_ fun _ => ?_)
      · rw [hflag, hleast]
        rfl
      · rw [hstoredPrice, hleast]
        rfl
    · rw [hid]
      exact .inr ⟨u, hpending.update_of_ne hne fun _ h => h⟩

theorem Settled.publish {publication : Publication} {o : Oracle} (h : Settled lib store views)
    (ht : views t = some ⟨op, l, true⟩) (hsafe : PublishSafe lib store views publication.draft)
    (hpublish : PublishedInto lib publication o store store') :
    Settled lib store' (Function.update views t (some ⟨op, l, true⟩)) := by
  have hviews : Function.update views t (some ⟨op, l, true⟩) = views := by
    rw [← ht, Function.update_eq_self]
  rw [hviews]
  have hkeep : ∀ {u : ℕ} {id : ObjectId}, PendingIn lib store views u id →
      PendingIn lib store' views u id := by
    rintro u id ⟨op, l, b, hu, hpending⟩
    exact ⟨op, l, b, hu, hpending.of_offers fun _ => hpublish.exists_offer hsafe.owns⟩
  intro p hp
  rcases (hpublish.products p).1 hp with rfl | ⟨hp, hne⟩
  · rcases hsafe.price with hprice | ⟨u, op, l, b, hu, hfound, hfailed, haffected, hop⟩ |
      ⟨p, hp, u, hpending⟩
    · have hleast := hpublish.leastPrice_product.trans hprice
      refine .inl (Store.projected_of_leastPrice ?_ fun heligible => ?_)
      · rw [hleast, PublishedInto.catalogueEligible_publishedProduct]
        unfold draftPrice
        split
        · assumption
        · rename_i hstock
          exact Bool.eq_false_iff.2 hstock
      · rw [hleast, PublishedInto.catalogueMinPricePaise_publishedProduct]
        rw [PublishedInto.catalogueEligible_publishedProduct] at heligible
        rw [draftPrice, if_pos heligible]
    · refine .inr ⟨u, op, l, b, hu, hfound, hfailed, ?_⟩
      rw [haffected]
      exact ⟨_, hop, _, (hpublish.offers _).2 (.inl rfl), rfl, rfl⟩
    · rw [PublishedInto.publishedProduct_id hp]
      exact .inr ⟨u, hkeep hpending⟩
  · exact (h p hp).imp (Store.projected_congr (hpublish.leastPrice_of_ne hsafe.owns hne)).2
      fun ⟨u, hu⟩ => ⟨u, hkeep hu⟩

/-! ## Runs -/

theorem not_pending_of_permits {cmd : Cmd} (h : Permits lib op l cmd)
    (hcmd : ∀ l', Permits lib op l' cmd → l'.found = false) : ¬ Pending lib store op l id :=
  not_pending_of_found (hcmd l h)

/-- A command that does not fail keeps the projections settled. -/
theorem Settled.exec {cmd : Cmd} {o : Oracle} {w w' : World} {r : Raising PyErr Answer cmd}
    (h : Settled lib w.store views) (ht : views t = some ⟨op, l, true⟩) (hpermits : Permits lib op l cmd)
    (hfault : o.fault = none) (hsafe : CmdSafe lib w.store views t cmd)
    (hexec : cmd.exec lib o w = some (r, w')) :
    Settled lib w'.store (Function.update views t (some ⟨op, next l cmd r, true⟩)) := by
  -- a check that raises is none of a decision
  have hchecked : l.found = false → w' = w →
      Settled lib w'.store (Function.update views t (some ⟨op, next l cmd r, true⟩)) := by
    rintro hfound rfl
    exact h.read ht fun id hpending => absurd hpending (not_pending_of_found hfound)
  cases cmd with
  | checkAccess _ _ | sellerForActor _ | validateDraft _ _ =>
    simp only [Cmd.exec, hfault, respond, Option.some.injEq, Prod.mk.injEq] at hexec
    exact hchecked hpermits hexec.2.symm
  | findSeller id =>
    simp only [Cmd.exec, hfault, respond, Option.some.injEq, Prod.mk.injEq] at hexec
    exact hchecked hpermits.2 hexec.2.symm
  | now | findDraft _ | findApprovedSeller _ | findColors _ | approvedSellers | minimumPrices _ _ =>
    simp only [Cmd.exec, hfault, respond, Option.some.injEq, Prod.mk.injEq] at hexec
    obtain ⟨rfl, rfl⟩ := hexec
    exact h.read ht fun id hpending => hpending
  | updateDraft _ _ | submitDraft _ | rejectDraft _ _ _ _ | insertAudit _ =>
    simp only [Cmd.exec, hfault, perform, Option.some.injEq, Prod.mk.injEq] at hexec
    obtain ⟨rfl, rfl⟩ := hexec
    exact h.read ht fun id hpending => hpending
  | publish publication =>
    obtain ⟨⟨published, w₁⟩, hpublish, hexec⟩ := Option.bind_eq_some_iff.1 hexec
    simp only [hfault, perform, Option.some.injEq, Prod.mk.injEq] at hexec
    obtain ⟨rfl, rfl⟩ := hexec
    exact h.publish ht hsafe (publish_publishedInto hpublish)
  | setSellerStatus id status =>
    simp only [Cmd.exec, hfault, perform, Option.some.injEq, Prod.mk.injEq] at hexec
    obtain ⟨rfl, rfl⟩ := hexec
    obtain ⟨hop, hfound, hfailed, haffected⟩ := hpermits
    exact h.setSellerStatus ht hop hfound hfailed haffected
  | productsOfSeller id =>
    simp only [Cmd.exec] at hexec
    split at hexec
    · rename_i horder
      simp only [hfault, respond, Option.some.injEq, Prod.mk.injEq] at hexec
      obtain ⟨rfl, rfl⟩ := hexec
      obtain ⟨hop, haffected, hwritten⟩ := hpermits
      exact h.read ht fun id' hpending => hpending.list hop haffected hwritten horder
    · cases hexec
  | setProjection id minimumPrice =>
    simp only [Cmd.exec, hfault, perform, Option.some.injEq, Prod.mk.injEq] at hexec
    obtain ⟨rfl, rfl⟩ := hexec
    exact h.setProjection ht hpermits.2 hsafe

theorem settled_of_reach {w₀ : World} (h₀ : w₀.store.ProjectionExact) {σ : State}
    (h : (backend lib).Reach (SafeStep lib) (Pool.init w₀) σ) :
    Settled lib σ.shared.store (Approvals.views lib σ) := by
  refine h.invariant (I := fun cfg => Settled lib cfg.shared.store cfg.view)
    (Q := fun _ l _ => Finished l) Op.conforms .init (fun p hp => .inl (h₀ p hp)) ?_
  intro σ l cfg _ hok hI hstep
  cases hstep with
  | @spawn t op ht =>
    refine fun p hp => (hI p hp).imp_right fun ⟨u, op', l, b, hu, hpending⟩ =>
      ⟨u, op', l, b, ?_, hpending⟩
    have hne : u ≠ t := by
      rintro rfl
      rw [ht] at hu
      cases hu
    dsimp only
    rwa [Function.update_of_ne hne]
  | @exec t o op l cmd r w' hnext ht hpermits hexec =>
    obtain ⟨hfault, hsafe⟩ := hok
    exact Settled.exec hI ht hpermits hfault (hsafe op cmd hnext) hexec
  | crash => cases hok
  | env => cases hok

end Steps

/-! ## Small runs -/

/-- Drafts that are new to the store and at the price of their offers, and no decisions. -/
def Fresh (lib : Platform) (σ : State) : Step → Prop
  | .spawn t _ => t < 1
  | .exec t o => o.fault.isNone ∧ match σ.next t with
    | some (_, .publish publication) =>
      (σ.shared.store.offers.docs.all fun o => o.offerCode ≠ publication.draft.offerCode lib.idText) ∧
        (otherPrices lib σ.shared.store publication.draft ++
          ownPrices σ.shared.store publication.draft).min? = draftPrice publication.draft
    | some (_, .setProjection _ _) => False
    | _ => True
  | .crash _ | .env _ => False

instance {lib : Platform} {σ : State} : ∀ step, Decidable (Fresh lib σ step)
  | .spawn _ _ => inferInstanceAs (Decidable (_ < _))
  | .exec t o => by
    unfold Fresh
    dsimp only
    rcases σ.next t with - | ⟨op, cmd⟩
    · infer_instance
    · cases cmd <;> infer_instance
  | .crash _ | .env _ => inferInstanceAs (Decidable False)

theorem safeStep_of_fresh {lib : Platform} {σ : State} {step : Step} (h : Fresh lib σ step) :
    SafeStep lib σ step := by
  cases step with
  | spawn t op => trivial
  | crash t => cases h
  | env e => cases h
  | exec t o =>
    obtain ⟨hfault, hcmd⟩ := h
    refine ⟨Option.isNone_iff_eq_none.1 hfault, fun op cmd hnext => ?_⟩
    rw [hnext] at hcmd
    cases cmd with
    | publish publication =>
      obtain ⟨hcode, hprice⟩ := hcmd
      refine ⟨fun o ho heq => ?_, .inl hprice⟩
      exact absurd heq (by simpa using List.all_eq_true.1 hcode o ho)
    | setProjection id minimumPrice => cases hcmd
    | _ => trivial

end Approvals

end Catalogue

end Stylme
