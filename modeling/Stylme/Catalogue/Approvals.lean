-- SUMMARY: The requests on product drafts and the seller decisions as programs over the catalogue's store, with the effect of each command.
import Stylme.Lib.Pool
import Stylme.Catalogue.Drafts

/-!
# Approvals

A draft is edited, submitted and reviewed. `publish_draft` checks an approved draft
and writes its product and its offer in one transaction. `decide_seller` changes the
status of a seller and then recomputes the catalogue projection of the products with
an offer of the seller. All of them await one database request after another.
-/

namespace Stylme

open Conc Backend

namespace Catalogue

/-! ## The store -/

/-- What the transaction of an approval writes. -/
structure Publication where
  draft : Draft
  colors : List Color
  now : Time
  reviewer : ObjectId

/-- The functions of Python that the operations call. -/
structure Platform where
  idText : ObjectId → String
  /-- `ObjectId(value)`, where it is valid -/
  parseID : String → Option ObjectId
  /-- `metadata_text` -/
  metadataText : Document → String

/-- `$group` by product with the least price of each -/
def leastByProduct (offers : List Offer) : List (ObjectId × ℤ) :=
  (offers.map (·.productID)).eraseDups.filterMap fun id =>
    ((offers.filter (·.productID = id)).map (·.salePricePaise)).min?.map (id, ·)

namespace Store

variable (lib : Platform) (store : Store)

/-- The answer to the aggregation of offers. -/
def minimumPrices (ids approved : List ObjectId) : List (ObjectId × ℤ) :=
  (leastByProduct (store.offers.docs.filter fun o =>
    o.productID ∈ ids ∧ o.sellerID ∈ approved ∧ o.status = "active" ∧ o.stocked)).take ids.length

/-- The updates of the projection of one product. -/
def setProjection (id : ObjectId) (minimumPrice : Option ℤ) : Store :=
  { store with
    products := store.products.updateAll
      (fun p => if p.id = id then
        { p with catalogueEligible := minimumPrice.isSome, catalogueMinPricePaise := minimumPrice }
        else p)
      (fun p => by split <;> rfl) (fun p => by split <;> rfl) }

def setSellerStatus (id : ObjectId) (status : String) : Store :=
  { store with
    sellers := store.sellers.updateAll (fun s => if s.id = id then { s with status } else s)
      (fun s => by split <;> rfl) (fun s => by split <;> rfl) }

/-- The product of the draft, if it has been published. -/
def draftProduct? (draft : Draft) : Option Product :=
  store.products.find? fun p =>
    p.source = draft.sourceName ∧ p.sourceProductID = draft.sourceProductID lib.idText

/-- The offer of the draft, if it has been published. -/
def draftOffer? (draft : Draft) : Option Offer :=
  store.offers.find? (·.offerCode = draft.offerCode lib.idText)

/-- No document has the identifier, and no offer refers to it. -/
def freshProductID (id : ObjectId) : Bool :=
  ¬ store.products.docs.any (·.id = id) ∧ ¬ store.offers.docs.any (·.productID = id)

/-- The product that an approval writes. -/
def publishedProduct (publication : Publication) (id : ObjectId) : Product :=
  let document := publication.draft.productDocument lib.idText publication.colors
    (lib.metadataText publication.draft.metadata)
  match store.draftProduct? lib publication.draft with
  | some p => document p.id p.createdAt
  | none => document id publication.now

/-- The offer that an approval writes, for the product with this identifier. -/
def publishedOffer (publication : Publication) (productID id : ObjectId) : Offer :=
  publication.draft.offerDocument lib.idText publication.colors productID
    ((store.draftOffer? lib publication.draft).elim id (·.id))

end Store

/-! ## Drafts -/

/-- A document of `product_drafts` -/
structure DraftDocument where
  content : Draft
  status : String
  rejectionReason : Option String
  publishedProductID : Option ObjectId
  publishedOfferID : Option ObjectId
  reviewer : Option ObjectId
  reviewedAt : Option Time

/-- The part of `ProductDraftUpdate` about the offer. -/
structure OfferUpdate where
  salePricePaise : ℕ
  variants : List VariantInput
  inventory : List InventoryInput

/-- `ProductDraftUpdate` -/
structure DraftUpdate where
  brandID : Option ObjectId := none
  title : Option String := none
  description : Option String := none
  categoryKey : Option String := none
  productTypeKey : Option String := none
  genderKeys : Option (List String) := none
  metadata : Option Document := none
  media : Option (List Media) := none
  offer : Option OfferUpdate := none

/-- `merged` -/
def Draft.merge (draft : Draft) (updates : DraftUpdate) : Draft :=
  { draft with
    brandID := updates.brandID.getD draft.brandID
    title := updates.title.getD draft.title
    description := updates.description.getD draft.description
    categoryKey := updates.categoryKey.getD draft.categoryKey
    productTypeKey := updates.productTypeKey.getD draft.productTypeKey
    genderKeys := updates.genderKeys.getD draft.genderKeys
    metadata := updates.metadata.getD draft.metadata
    media := updates.media.getD draft.media
    salePricePaise := updates.offer.elim draft.salePricePaise (·.salePricePaise)
    variants := updates.offer.elim draft.variants (·.variants)
    inventory := updates.offer.elim draft.inventory (·.inventory) }

/-- `clean`: what `validate_draft_payload` returns. -/
def Draft.clean (draft : Draft) (metadata : Document) : Draft :=
  { draft with metadata, media := draft.media.mergeSort fun a b => a.position ≤ b.position }

/-- The drafts that may be edited and submitted. -/
def DraftDocument.editable (document : DraftDocument) : Bool := document.status ∈ ["draft", "rejected"]

namespace DraftDocument

/-- The update of `update_product_draft` -/
def edited (document : DraftDocument) (content : Draft) : DraftDocument :=
  { document with
    content := { content with id := document.content.id, source := document.content.source }
    status := "draft"
    rejectionReason := none }

/-- The update of `submit_product_draft` -/
def submitted (document : DraftDocument) : DraftDocument :=
  { document with status := "pending_review", rejectionReason := none }

/-- The update of `review_product_draft` for a rejection -/
def rejected (document : DraftDocument) (reason : Option String) (reviewer : ObjectId) (now : Time) :
    DraftDocument :=
  { document with
    status := "rejected"
    rejectionReason := reason
    reviewer := some reviewer
    reviewedAt := some now }

end DraftDocument

namespace Approvals

/-! ## Requests -/

inductive Decision where
  | approved
  | rejected
  deriving DecidableEq

def Decision.status : Decision → String
  | approved => "approved"
  | rejected => "rejected"

/-- The identifiers in the answer to an approval. -/
structure Published where
  productID : ObjectId
  offerID : ObjectId

/-- An entry of `audit_logs`, without its actor and its time. -/
structure Audit where
  action : String
  entityType : String
  entityID : String
  deriving DecidableEq

inductive Cmd where
  | now
  | findDraft (id : ObjectId)
  /-- The reads and checks of `assert_draft_access` after the draft is found -/
  | checkAccess (sellerID : ObjectId) (adminOnly : Bool)
  /-- The reads and checks of `seller_for_actor` -/
  | sellerForActor (sellerID : ObjectId)
  | updateDraft (id : ObjectId) (content : Draft)
  | submitDraft (id : ObjectId)
  | rejectDraft (id : ObjectId) (reason : Option String) (reviewer : ObjectId) (now : Time)
  | findSeller (id : ObjectId)
  | findApprovedSeller (id : ObjectId)
  /-- The reads and checks of `validate_draft_payload`; the answer is the clean metadata. -/
  | validateDraft (seller : Seller) (draft : Draft)
  | findColors (ids : List ObjectId)
  | publish (publication : Publication)
  | setSellerStatus (id : ObjectId) (status : String)
  | productsOfSeller (id : ObjectId)
  | approvedSellers
  | minimumPrices (ids approved : List ObjectId)
  | setProjection (id : ObjectId) (minimumPrice : Option ℤ)
  | insertAudit (entry : Audit)

@[reducible] def Answer : Cmd → Type
  | .now => Time
  | .findDraft _ | .updateDraft _ _ | .submitDraft _ | .rejectDraft _ _ _ _ => Option DraftDocument
  | .checkAccess _ _ | .setProjection _ _ | .insertAudit _ => Unit
  | .sellerForActor _ => Seller
  | .findSeller _ | .findApprovedSeller _ | .setSellerStatus _ _ => Option Seller
  | .validateDraft _ _ => Document
  | .findColors _ => List Color
  | .publish _ => Published
  | .productsOfSeller _ | .approvedSellers => List ObjectId
  | .minimumPrices _ _ => List (ObjectId × ℤ)

abbrev Py := Raise Cmd Answer PyErr

/-! ## Programs -/

variable (lib : Platform)

/-- `revalidate_draft` -/
def revalidateDraft (draft : Draft) : Py Seller := do
  match ← Raise.ask (Cmd.findApprovedSeller draft.sellerID) with
  | none => throw (.httpException 422 "Draft seller is not approved")
  | some seller =>
    let _ ← Raise.ask (Cmd.validateDraft seller draft)
    return seller

def publishDraft (draft : Draft) (reviewer : ObjectId) : Py Published := do
  let _ ← revalidateDraft draft
  let now ← Raise.ask Cmd.now
  let colors ← Raise.ask (Cmd.findColors (draft.variants.map (·.colorID)).eraseDups)
  Raise.ask (Cmd.publish ⟨draft, colors, now, reviewer⟩)

def writeAudit (action entityType entityID : String) : Py Unit :=
  Raise.ask (Cmd.insertAudit ⟨action, entityType, entityID⟩)

/-- `assert_draft_access` -/
def assertDraftAccess (draftID : String) (adminOnly : Bool) : Py DraftDocument :=
  match lib.parseID draftID with
  | none => throw (.httpException 422 "Invalid draft id")
  | some id => do
    match ← Raise.ask (Cmd.findDraft id) with
    | none => throw (.httpException 404 "Product draft not found")
    | some draft =>
      Raise.ask (Cmd.checkAccess draft.content.sellerID adminOnly)
      return draft

/-- `draft_public(updated)`, which reads fields of the document. -/
def draftPublic (updated : Option DraftDocument) : Py DraftDocument :=
  match updated with
  | some draft => pure draft
  | none => throw (.exception "AttributeError" "'NoneType' object has no attribute 'get'")

def updateProductDraft (draftID : String) (updates : DraftUpdate) : Py DraftDocument := do
  let draft ← assertDraftAccess lib draftID false
  if ¬ draft.editable then
    throw (.httpException 409 "Only draft/rejected products can be edited")
  else
    let candidate := draft.content.merge updates
    let seller ← Raise.ask (Cmd.sellerForActor draft.content.sellerID)
    let metadata ← Raise.ask (Cmd.validateDraft seller candidate)
    let updated ← Raise.ask (Cmd.updateDraft draft.content.id (candidate.clean metadata))
    writeAudit "product_draft_updated" "product_draft" draftID
    draftPublic updated

def submitProductDraft (draftID : String) : Py DraftDocument := do
  let draft ← assertDraftAccess lib draftID false
  if ¬ draft.editable then throw (.httpException 409 "Draft has already been submitted")
  else
    let _ ← revalidateDraft draft.content
    let updated ← Raise.ask (Cmd.submitDraft draft.content.id)
    writeAudit "product_draft_submitted" "product_draft" draftID
    draftPublic updated

/-- The answer to a review: of the rejection, or of the publication. -/
abbrev Reviewed := DraftDocument ⊕ Published

def reviewProductDraft (draftID : String) (decision : Decision) (reason : Option String)
    (reviewer : ObjectId) : Py Reviewed := do
  let draft ← assertDraftAccess lib draftID true
  if draft.status ≠ "pending_review" then throw (.httpException 409 "Draft is not pending review")
  else
    match decision with
    | .approved =>
      let published ← publishDraft draft.content reviewer
      return .inr published
    | .rejected =>
      let now ← Raise.ask Cmd.now
      let updated ← Raise.ask (Cmd.rejectDraft draft.content.id reason reviewer now)
      writeAudit "product_draft_rejected" "product_draft" draftID
      return .inl (← draftPublic updated)

/-- `refresh_catalogue_projection_for_products` -/
def refreshCatalogueProjection (productIDs : List ObjectId) : Py Unit :=
  if productIDs.eraseDups = [] then pure ()
  else do
    let approved ← Raise.ask Cmd.approvedSellers
    let minimumPrices ← Raise.ask (Cmd.minimumPrices productIDs.eraseDups approved)
    Raise.forAll PyErr.isBulkWrite
      (fun id => Raise.ask (Cmd.setProjection id (minimumPrices.lookup id))) productIDs.eraseDups

def decideSeller (sellerID : String) (decision : Decision) : Py (Option Seller) :=
  match lib.parseID sellerID with
  | none => throw (.httpException 422 "Invalid seller id")
  | some id => do
    match ← Raise.ask (Cmd.findSeller id) with
    | none => throw (.httpException 404 "Seller not found")
    | some _ =>
      let updated ← Raise.ask (Cmd.setSellerStatus id decision.status)
      let affected ← Raise.ask (Cmd.productsOfSeller id)
      refreshCatalogueProjection affected
      writeAudit ("seller_" ++ decision.status) "seller" sellerID
      return updated

/-! ## Operations -/

inductive Op where
  | updateProductDraft (draftID : String) (updates : DraftUpdate)
  | submitProductDraft (draftID : String)
  | reviewProductDraft (draftID : String) (decision : Decision) (reason : Option String)
      (reviewer : ObjectId)
  | publishDraft (draft : Draft) (reviewer : ObjectId)
  | decideSeller (sellerID : String) (decision : Decision)

inductive Reply where
  | draft (r : Except PyErr DraftDocument)
  | reviewed (r : Except PyErr Reviewed)
  | published (r : Except PyErr Published)
  | decided (r : Except PyErr (Option Seller))

/-- Run a coroutine to its value or exception. -/
def outcome {α : Type} (f : Except PyErr α → Reply) (p : Py α) :
    Prog Cmd (Raising PyErr Answer) Reply :=
  Prog.bind p fun r => .ret (f r)

def Op.prog : Op → Prog Cmd (Raising PyErr Answer) Reply
  | .updateProductDraft draftID updates =>
    outcome .draft (Approvals.updateProductDraft lib draftID updates)
  | .submitProductDraft draftID => outcome .draft (Approvals.submitProductDraft lib draftID)
  | .reviewProductDraft draftID decision reason reviewer =>
    outcome .reviewed (Approvals.reviewProductDraft lib draftID decision reason reviewer)
  | .publishDraft draft reviewer => outcome .published (Approvals.publishDraft draft reviewer)
  | .decideSeller sellerID decision => outcome .decided (Approvals.decideSeller lib sellerID decision)

/-! ## Effects -/

structure World where
  store : Store
  drafts : Collection DraftDocument (·.content.id) (·.content.id)
  audits : List Audit

/-- How a request goes wrong, the answers of clocks and checks, the identifiers of new documents,
and the order of a result that has none. -/
structure Oracle where
  fault : Option Mishap := none
  time : Time := 0
  /-- The exception of a check -/
  invalid : Option (ℕ × String) := none
  seller : Seller := ⟨0, ""⟩
  metadata : Document := []
  productID : ObjectId := 0
  offerID : ObjectId := 0
  order : List ObjectId := []

/-- The identifiers of new documents are new. -/
def Oracle.fresh (o : Oracle) (store : Store) (draft : Draft) : Bool :=
  ((store.draftProduct? lib draft).isNone → store.freshProductID o.productID) ∧
    ((store.draftOffer? lib draft).isNone → ¬ store.offers.docs.any (·.id = o.offerID))

/-- The answer to a check. -/
def Oracle.checked {α : Type} (o : Oracle) (a : α) : Except PyErr α :=
  match o.invalid with
  | some (statusCode, detail) => .error (.httpException statusCode detail)
  | none => .ok a

/-- The update of the draft in the transaction of an approval. -/
def DraftDocument.approve (publication : Publication) (published : Published)
    (document : DraftDocument) : DraftDocument :=
  if document.content.id = publication.draft.id ∧ document.status = "pending_review" then
    { document with
      status := "approved"
      publishedProductID := some published.productID
      publishedOfferID := some published.offerID
      reviewer := some publication.reviewer
      reviewedAt := some publication.now }
  else document

/-- Update the draft if it meets the condition: the document after the update, and the drafts. -/
def World.updateDraft (w : World) (id : ObjectId) (condition : DraftDocument → Bool)
    (f : DraftDocument → DraftDocument) (hid : ∀ d, (f d).content.id = d.content.id) :
    Option DraftDocument × World :=
  let update (d : DraftDocument) := if d.content.id = id ∧ condition d then f d else d
  (((w.drafts.get id).filter condition).map f, { w with
    drafts := w.drafts.updateAll update
      (fun d => by
        change (if _ then f d else d).content.id = _
        split <;> simp [hid])
      (fun d => by
        change (if _ then f d else d).content.id = _
        split <;> simp [hid]) })

/-- The transaction of an approval. -/
def World.publish (publication : Publication) (o : Oracle) (w : World) : Option (Published × World) :=
  if ¬ o.fresh lib w.store publication.draft then none
  else
    let product := w.store.publishedProduct lib publication o.productID
    let offer := w.store.publishedOffer lib publication product.id o.offerID
    match w.store.products.replaceOne product, w.store.offers.replaceOne offer with
    | some products, some offers =>
      let published : Published := ⟨product.id, offer.id⟩
      some (published, {
        store := { w.store with products, offers }
        drafts := w.drafts.updateAll (DraftDocument.approve publication published)
          (fun d => by unfold DraftDocument.approve; split <;> rfl)
          (fun d => by unfold DraftDocument.approve; split <;> rfl)
        audits := ⟨"product_draft_approved", "product_draft", lib.idText publication.draft.id⟩ ::
          w.audits })
    | _, _ => none

def Cmd.exec : (cmd : Cmd) → Oracle → World → Option (Raising PyErr Answer cmd × World)
  | .now, o, w => some (.ok o.time, w)
  | .findDraft id, o, w => respond o.fault (.ok (w.drafts.get id)) w
  | .checkAccess _ _, o, w => respond o.fault (o.checked ()) w
  | .sellerForActor _, o, w => respond o.fault (o.checked o.seller) w
  | .updateDraft id content, o, w =>
    let (updated, w') := w.updateDraft id DraftDocument.editable (·.edited content) fun _ => rfl
    perform o.fault (.ok updated) w w'
  | .submitDraft id, o, w =>
    let (updated, w') := w.updateDraft id DraftDocument.editable DraftDocument.submitted fun _ => rfl
    perform o.fault (.ok updated) w w'
  | .rejectDraft id reason reviewer time, o, w =>
    let (updated, w') := w.updateDraft id (·.status = "pending_review")
      (·.rejected reason reviewer time) fun _ => rfl
    perform o.fault (.ok updated) w w'
  | .findSeller id, o, w => respond o.fault (.ok (w.store.sellers.get id)) w
  | .findApprovedSeller id, o, w =>
    respond o.fault (.ok (w.store.sellers.find? fun s => s.id = id ∧ s.status = "approved")) w
  | .validateDraft _ _, o, w => respond o.fault (o.checked o.metadata) w
  | .findColors ids, o, w =>
    respond o.fault (.ok ((w.store.colors.docs.filter (·.id ∈ ids)).take 250)) w
  | .publish publication, o, w =>
    (w.publish lib publication o).bind fun (published, w') => perform o.fault (.ok published) w w'
  | .setSellerStatus id status, o, w =>
    let store := w.store.setSellerStatus id status
    perform o.fault (.ok (store.sellers.get id)) w { w with store }
  | .productsOfSeller id, o, w =>
    if o.order.Perm ((w.store.offers.docs.filter (·.sellerID = id)).map (·.productID)).eraseDups then
      respond o.fault (.ok o.order) w
    else none
  | .approvedSellers, o, w => respond o.fault (.ok w.store.approvedSellerIDs) w
  | .minimumPrices ids approved, o, w =>
    respond o.fault (.ok (w.store.minimumPrices ids approved)) w
  | .setProjection id minimumPrice, o, w =>
    perform o.fault (.ok ()) w { w with store := w.store.setProjection id minimumPrice }
  | .insertAudit entry, o, w => perform o.fault (.ok ()) w { w with audits := entry :: w.audits }

/-- Any number of requests on one store; the environment makes no moves. -/
def backend : System Op Cmd (Raising PyErr Answer) Reply World Oracle Empty where
  prog := Op.prog lib
  exec := Cmd.exec lib
  env := nofun

abbrev State := Pool Op Cmd (Raising PyErr Answer) Reply World

abbrev Step := Label Op Oracle Empty

/-! ## Runs of a few threads -/

/-- No command fails, and the threads have numbers below the bound. -/
def Calm (bound : ℕ) (_ : State) : Step → Prop
  | .spawn t _ => t < bound
  | .exec _ o => o.fault.isNone
  | .crash _ | .env _ => False

instance {bound : ℕ} {σ : State} : ∀ step, Decidable (Calm bound σ step)
  | .spawn _ _ => inferInstanceAs (Decidable (_ < _))
  | .exec _ _ => inferInstanceAs (Decidable (_ = _))
  | .crash _ | .env _ => inferInstanceAs (Decidable False)

/-- No thread below the bound is in progress. -/
def allDone (bound : ℕ) (σ : State) : Bool := (List.range bound).all fun t => (σ.next t).isNone

theorem next_eq_none_of_allDone {lib : Platform} {ok : State → Step → Prop} {bound : ℕ} {w₀ : World}
    {σ : State} (hspawn : ∀ σ t op, ok σ (.spawn t op) → t < bound)
    (h : (backend lib).Reach ok (Pool.init w₀) σ) (hdone : allDone bound σ) (t : ℕ) :
    σ.next t = none := by
  by_cases hlt : t < bound
  · exact Option.isNone_iff_eq_none.1 (List.all_eq_true.1 hdone t (List.mem_range.2 hlt))
  · exact Pool.next_eq_none (h.threads_eq_none fun σ op hok => hlt (hspawn σ t op hok))

end Approvals

/-! ## The transaction of an approval -/

section Publish

variable (lib : Platform)

/-- What the transaction of an approval does to the store. -/
structure PublishedInto (publication : Publication) (o : Approvals.Oracle) (store store' : Store) :
    Prop where
  fresh : o.fresh lib store publication.draft
  sellers : store'.sellers = store.sellers
  products : ∀ p, p ∈ store'.products ↔ p = store.publishedProduct lib publication o.productID ∨
    p ∈ store.products ∧ p.id ≠ (store.publishedProduct lib publication o.productID).id
  offers : ∀ e, e ∈ store'.offers ↔ e = store.publishedOffer lib publication
      (store.publishedProduct lib publication o.productID).id o.offerID ∨
    e ∈ store.offers ∧ e.id ≠ (store.publishedOffer lib publication
      (store.publishedProduct lib publication o.productID).id o.offerID).id

variable {lib} {publication : Publication} {o : Approvals.Oracle}

theorem publish_publishedInto {w w' : Approvals.World} {published : Approvals.Published}
    (h : w.publish lib publication o = some (published, w')) :
    PublishedInto lib publication o w.store w'.store := by
  unfold Approvals.World.publish at h
  split at h
  · cases h
  · rename_i hfresh
    dsimp only at h
    split at h
    · rename_i products offers hproducts hoffers
      obtain ⟨-, rfl⟩ := Prod.mk.inj (Option.some.inj h)
      exact ⟨not_not.1 hfresh, rfl, fun p => Collection.mem_replaceOne hproducts,
        fun e => Collection.mem_replaceOne hoffers⟩
    · cases h

/-- The drafts after the transaction of an approval. -/
theorem publish_drafts {w w' : Approvals.World} {published : Approvals.Published} {document : DraftDocument}
    (h : w.publish lib publication o = some (published, w')) :
    document ∈ w'.drafts ↔ ∃ d ∈ w.drafts, Approvals.DraftDocument.approve publication published d = document := by
  unfold Approvals.World.publish at h
  split at h
  · cases h
  · dsimp only at h
    split at h
    · obtain ⟨rfl, rfl⟩ := Prod.mk.inj (Option.some.inj h)
      simp only [Collection.mem_updateAll]
    · cases h

end Publish

namespace Sample

def platform : Platform where
  idText := toString
  parseID := fun
    | "1" => some 1
    | "7" => some 7
    | _ => none
  metadataText := fun _ => ""

/-- A shop with one draft in this state. -/
def draftWorld (status : String) : Approvals.World where
  store := shop ∅ ∅
  drafts := ⟨[⟨shawlDraft, status, none, none, none, none, none⟩], List.nodup_singleton _,
    List.nodup_singleton _⟩
  audits := []

/-- `n` commands of thread `t` in a row, none of them going wrong. -/
def execs (t n : ℕ) : List Approvals.Step := List.replicate n (.exec t {})

end Sample

end Catalogue

end Stylme
