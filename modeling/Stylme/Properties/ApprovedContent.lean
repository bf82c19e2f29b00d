-- SUMMARY: Only approved content is public, in every run in which each approval publishes the draft as it is stored.
import Stylme.Catalogue.ApprovalProtocol

/-!
# Approved content

A review reads a draft, checks it, and publishes what it has read in one transaction. The
transaction updates the draft only if it is still pending, but writes the product and
the offer in any case. When each approval publishes the draft as it is stored by then, and
pending or approved, the public product is always the approved draft.
-/

namespace Stylme

open Conc Backend

namespace Catalogue

/-- What an approval takes from a draft is the same. -/
structure Draft.SameContent (a b : Draft) : Prop where
  title : a.title = b.title
  description : a.description = b.description
  categoryKey : a.categoryKey = b.categoryKey
  productTypeKey : a.productTypeKey = b.productTypeKey
  genderKeys : a.genderKeys = b.genderKeys
  metadata : a.metadata = b.metadata
  media : a.media = b.media
  salePricePaise : a.salePricePaise = b.salePricePaise

/-- The product and the offer of the draft say what the draft says. -/
structure Store.Shows (lib : Platform) (store : Store) (p : Product) (draft : Draft) : Prop where
  title : p.title = draft.title
  description : p.description = draft.description
  categoryKey : p.categoryKey = some draft.categoryKey
  productTypeKey : p.productTypeKey = some draft.productTypeKey
  genderKeys : p.genderKeys = some draft.genderKeys
  metadata : p.metadata = draft.metadata
  media : p.media = draft.media
  price : ∃ o ∈ store.offers, o.offerCode = draft.offerCode lib.idText ∧ o.salePricePaise = draft.salePricePaise

namespace Approvals

variable (lib : Platform)

/-- The product of the draft with this identifier. -/
def IsProductOf (id : ObjectId) (p : Product) : Prop := p.sourceProductID = "draft:" ++ lib.idText id

/-- A product of the draft is stored exactly when the draft is approved, and then says what it says. -/
structure OnlyApproved (id : ObjectId) (w : World) : Prop where
  approved : ∀ p ∈ w.store.products, IsProductOf lib id p →
    ∃ document ∈ w.drafts, document.content.id = id ∧ document.status = "approved" ∧
      w.store.Shows lib p document.content
  published : ∀ document ∈ w.drafts, document.content.id = id → document.status = "approved" →
    ∃ p ∈ w.store.products, IsProductOf lib id p

variable {lib} {id : ObjectId} {w w' : World}

/-! ## Writes -/

theorem mem_updateDraft {id : ObjectId} {condition : DraftDocument → Bool} {f : DraftDocument → DraftDocument}
    {hid : ∀ d, (f d).content.id = d.content.id} {document : DraftDocument} :
    document ∈ (w.updateDraft id condition f hid).2.drafts ↔
      ∃ d ∈ w.drafts, (if d.content.id = id ∧ condition d then f d else d) = document := by
  simp only [World.updateDraft, Collection.mem_updateAll]

/-- What a change of products that leaves their content and the offers keeps. -/
theorem onlyApproved_of_products (h : OnlyApproved lib id w) {products : Collection Product Product.id Product.id}
    (hkept : ∀ p ∈ w.store.products, ∃ p' ∈ products, p'.sourceProductID = p.sourceProductID)
    (hold : ∀ p' ∈ products, ∃ p ∈ w.store.products, p'.sourceProductID = p.sourceProductID ∧
      ∀ draft, w.store.Shows lib p draft → w.store.Shows lib p' draft) :
    OnlyApproved lib id { w with store := { w.store with products } } := by
  refine ⟨fun p' hp' hproduct => ?_, fun document hdocument hid happroved => ?_⟩
  · obtain ⟨p, hp, hsource, hshows⟩ := hold p' hp'
    obtain ⟨document, hdocument, hid, happroved, hshown⟩ := h.approved p hp (hsource.symm.trans hproduct)
    have hshown := hshows _ hshown
    exact ⟨document, hdocument, hid, happroved, ⟨hshown.title, hshown.description, hshown.categoryKey,
      hshown.productTypeKey, hshown.genderKeys, hshown.metadata, hshown.media, hshown.price⟩⟩
  · obtain ⟨p, hp, hproduct⟩ := h.published document hdocument hid happroved
    obtain ⟨p', hp', hsource⟩ := hkept p hp
    exact ⟨p', hp', hsource.trans hproduct⟩

/-- An update of drafts that are not approved, which approves none. -/
theorem onlyApproved_updateDraft (h : OnlyApproved lib id w) {id' : ObjectId} {condition : DraftDocument → Bool}
    {f : DraftDocument → DraftDocument} (hid : ∀ d, (f d).content.id = d.content.id)
    (hcondition : ∀ d, d.status = "approved" → condition d = false) (hf : ∀ d, (f d).status ≠ "approved") :
    OnlyApproved lib id (w.updateDraft id' condition f hid).2 := by
  refine ⟨fun p hp hproduct => ?_, fun document hdocument hid' happroved => ?_⟩
  · obtain ⟨document, hdocument, hid', happroved, hshows⟩ := h.approved p hp hproduct
    refine ⟨document, mem_updateDraft.2 ⟨document, hdocument, if_neg ?_⟩, hid', happroved, hshows⟩
    rw [hcondition document happroved]
    exact fun hnever => by cases hnever.2
  · obtain ⟨old, hold, hupdate⟩ := mem_updateDraft.1 hdocument
    split at hupdate
    · rw [← hupdate] at happroved
      exact absurd happroved (hf old)
    · obtain rfl := hupdate
      exact h.published old hold hid' happroved

theorem onlyApproved_setProjection (h : OnlyApproved lib id w) {id' : ObjectId} {minimumPrice : Option ℤ} :
    OnlyApproved lib id { w with store := w.store.setProjection id' minimumPrice } := by
  refine onlyApproved_of_products h (fun p hp => ?_) fun p' hp' => ?_
  · refine ⟨_, Collection.mem_updateAll.2 ⟨p, hp, rfl⟩, ?_⟩
    split <;> rfl
  · obtain ⟨p, hp, rfl⟩ := Collection.mem_updateAll.1 hp'
    refine ⟨p, hp, ?_, fun draft hshows => ?_⟩
    · split <;> rfl
    · split
      · exact ⟨hshows.title, hshows.description, hshows.categoryKey, hshows.productTypeKey, hshows.genderKeys,
          hshows.metadata, hshows.media, hshows.price⟩
      · exact hshows

/-- What an approval writes is the document of its draft. -/
theorem publishedProduct_eq {store : Store} {publication : Publication} {productID : ObjectId} :
    ∃ pid createdAt, store.publishedProduct lib publication productID =
      publication.draft.productDocument lib.idText publication.colors
        (lib.metadataText publication.draft.metadata) pid createdAt := by
  unfold Store.publishedProduct
  dsimp only
  split
  · exact ⟨_, _, rfl⟩
  · exact ⟨_, _, rfl⟩

/-- The transaction of an approval, when it publishes the draft as it is stored. -/
theorem onlyApproved_publish (h : OnlyApproved lib id w) {publication : Publication} {o : Oracle} {published : Published}
    (hpublish : w.publish lib publication o = some (published, w')) (hid : publication.draft.id = id)
    {document : DraftDocument} (hdocument : document ∈ w.drafts) (hcontent : document.content.id = id)
    (hstatus : document.status = "pending_review" ∨ document.status = "approved")
    (hsame : publication.draft.SameContent document.content) : OnlyApproved lib id w' := by
  have hinto := publish_publishedInto hpublish
  have hdrafts : ∀ {d : DraftDocument}, d ∈ w'.drafts ↔
      ∃ d' ∈ w.drafts, DraftDocument.approve publication published d' = d := publish_drafts hpublish
  -- the draft is approved afterwards, with the content that it had
  obtain ⟨approved, hmem, happroved, hkept⟩ : ∃ approved ∈ w'.drafts,
      approved.status = "approved" ∧ approved.content = document.content := by
    refine ⟨_, hdrafts.2 ⟨document, hdocument, rfl⟩, ?_⟩
    unfold DraftDocument.approve
    split
    · exact ⟨rfl, rfl⟩
    · rename_i hno
      exact ⟨hstatus.resolve_left fun hpending => hno ⟨hcontent.trans hid.symm, hpending⟩, rfl⟩
  obtain ⟨pid, createdAt, hproduct⟩ : ∃ pid createdAt,
      w.store.publishedProduct lib publication o.productID =
        publication.draft.productDocument lib.idText publication.colors
          (lib.metadataText publication.draft.metadata) pid createdAt := publishedProduct_eq
  have hprice : ∃ e ∈ w'.store.offers, e.offerCode = approved.content.offerCode lib.idText ∧
      e.salePricePaise = approved.content.salePricePaise := by
    refine ⟨_, (hinto.offers _).2 (.inl rfl), ?_, ?_⟩
    · rw [hkept, Draft.offerCode, hcontent, ← hid]
      rfl
    · rw [hkept, ← hsame.salePricePaise]
      rfl
  refine ⟨fun p hp hof => ⟨approved, hmem, ?_, happroved, ?_⟩, fun _ _ _ _ => ?_⟩
  · rw [hkept, hcontent]
  · rcases (hinto.products p).1 hp with rfl | ⟨hold, -⟩
    · rw [hproduct]
      exact ⟨hkept ▸ hsame.title, hkept ▸ hsame.description, congrArg some (hkept ▸ hsame.categoryKey),
        congrArg some (hkept ▸ hsame.productTypeKey), congrArg some (hkept ▸ hsame.genderKeys),
        hkept ▸ hsame.metadata, hkept ▸ hsame.media, hprice⟩
    · obtain ⟨document', hdocument', hid', -, hshows⟩ := h.approved p hold hof
      obtain rfl : document' = document := w.drafts.eq_of_id_eq hdocument' hdocument (hid'.trans hcontent.symm)
      rw [← hkept] at hshows
      exact ⟨hshows.title, hshows.description, hshows.categoryKey, hshows.productTypeKey, hshows.genderKeys,
        hshows.metadata, hshows.media, hprice⟩
  · refine ⟨_, (hinto.products _).2 (.inl rfl), ?_⟩
    rw [IsProductOf, hproduct, ← hid]
    rfl

/-! ## Steps -/

/-- The draft is stored with what an approval has read of it, pending or approved. -/
def StoredAs (id : ObjectId) (w : World) (draft : Draft) : Prop :=
  ∃ document ∈ w.drafts, document.content.id = id ∧
    (document.status = "pending_review" ∨ document.status = "approved") ∧ draft.SameContent document.content

theorem onlyApproved_exec {op : Op} {l : Phase} {cmd : Cmd} {o : Oracle} {r : Raising PyErr Answer cmd}
    (h : OnlyApproved lib id w) (hop : op.draftID lib = some id)
    (hread : ∀ document, l.document = some document → document.content.id = id)
    (hpermits : Permits lib op l cmd) (hstored : ∀ publication, cmd = .publish publication → StoredAs id w publication.draft)
    (hexec : cmd.exec lib o w = some (r, w')) : OnlyApproved lib id w' := by
  have hperform : ∀ {a : Raising PyErr Answer cmd} {w₁ : World}, perform o.fault a w w₁ = some (r, w') →
      OnlyApproved lib id w₁ → OnlyApproved lib id w' := by
    intro a w₁ hperform hwrite
    rcases perform_eq hperform with ⟨-, -, rfl⟩ | ⟨f, -, -, rfl⟩
    · exact hwrite
    · split
      · exact hwrite
      · exact h
  have hrespond : ∀ {a : Raising PyErr Answer cmd}, respond o.fault a w = some (r, w') →
      OnlyApproved lib id w' := fun hrespond => (respond_eq hrespond).1 ▸ h
  cases cmd with
  | now =>
    obtain ⟨-, rfl⟩ := Prod.mk.inj (Option.some.inj hexec)
    exact h
  | updateDraft id' content =>
    have hwrite : OnlyApproved lib id
        (w.updateDraft id' DraftDocument.editable (·.edited content) fun _ => rfl).2 := by
      refine onlyApproved_updateDraft h _ (fun d happroved => ?_) fun d heq => ?_
      · rw [DraftDocument.editable, happroved]
        rfl
      · exact absurd (show "draft" = "approved" from heq) (by decide)
    exact hperform hexec hwrite
  | submitDraft id' =>
    have hwrite : OnlyApproved lib id
        (w.updateDraft id' DraftDocument.editable DraftDocument.submitted fun _ => rfl).2 := by
      refine onlyApproved_updateDraft h _ (fun d happroved => ?_) fun d heq => ?_
      · rw [DraftDocument.editable, happroved]
        rfl
      · exact absurd (show "pending_review" = "approved" from heq) (by decide)
    exact hperform hexec hwrite
  | rejectDraft id' reason reviewer time =>
    have hwrite : OnlyApproved lib id (w.updateDraft id' (·.status = "pending_review")
        (·.rejected reason reviewer time) fun _ => rfl).2 := by
      refine onlyApproved_updateDraft h _ (fun d happroved => ?_) fun d heq => ?_
      · rw [happroved]
        rfl
      · exact absurd (show "rejected" = "approved" from heq) (by decide)
    exact hperform hexec hwrite
  | publish publication =>
    obtain ⟨⟨published, w₁⟩, hpublish, hexec⟩ := Option.bind_eq_some_iff.1 hexec
    obtain ⟨document, hdocument, hcontent, hstatus, hsame⟩ := hstored publication rfl
    have hid : publication.draft.id = id := by
      rcases hpermits with ⟨reviewer, rfl⟩ | ⟨document, hdocument, hdraft⟩
      · cases hop
      · rw [hdraft]
        exact hread document hdocument
    exact hperform hexec (onlyApproved_publish h hpublish hid hdocument hcontent hstatus hsame)
  | setSellerStatus id' status =>
    -- a decision is no request on a draft
    cases op with
    | decideSeller sellerID decision => cases hop
    | _ => cases hpermits.1
  | setProjection id' minimumPrice => exact hperform hexec (onlyApproved_setProjection h)
  | insertAudit entry => exact hperform hexec ⟨h.approved, h.published⟩
  | productsOfSeller id' =>
    simp only [Cmd.exec] at hexec
    split at hexec
    · exact hrespond hexec
    · cases hexec
  | _ => exact hrespond hexec

/-! ## Runs -/

variable (lib)

/-- The requests are on this draft, and each approval publishes the draft as it is stored. -/
def Published.Current (id : ObjectId) (σ : State) : Step → Prop
  | .spawn _ op => op.draftID lib = some id
  | .exec t _ => ∀ op publication, σ.next t = some (op, .publish publication) →
      StoredAs id σ.shared publication.draft
  | .crash _ | .env _ => True

variable {lib}

/-- The requests have read the draft only. -/
structure Kept (lib : Platform) (id : ObjectId) (c : Config Op Cmd (Raising PyErr Answer) World Phase) : Prop where
  onlyApproved : OnlyApproved lib id c.shared
  read : ∀ t op l b, c.view t = some ⟨op, l, b⟩ →
    op.draftID lib = some id ∧ ∀ document, l.document = some document → document.content.id = id

/-- A request reads the draft that it names. -/
theorem read_of_exec {op : Op} {l : Phase} {cmd : Cmd} {o : Oracle} {r : Raising PyErr Answer cmd}
    (hop : op.draftID lib = some id)
    (hread : ∀ document, l.document = some document → document.content.id = id)
    (hpermits : Permits lib op l cmd) (hexec : cmd.exec lib o w = some (r, w')) :
    ∀ document, (next l cmd r).document = some document → document.content.id = id := by
  cases cmd with
  | findDraft id' =>
    cases r with
    | error e => exact hread
    | ok found =>
      rintro document rfl
      obtain ⟨-, hok | ⟨f, -, herror⟩⟩ := respond_eq hexec
      · obtain ⟨-, hid⟩ := Collection.get_eq_some_iff.1 (Except.ok.inj hok).symm
        exact hid.trans (Option.some.inj (hpermits.symm.trans hop))
      · cases herror
  | findSeller _ | productsOfSeller _ | minimumPrices _ _ | setProjection _ _ =>
    cases r <;> exact hread
  | _ =>
    intro document hdocument
    rw [(same_next rfl r).document] at hdocument
    exact hread document hdocument

/-- In every run of requests on a draft in which each approval publishes the draft as it is stored, a
product of the draft is stored exactly when the draft is approved, and then says what it says. -/
theorem only_approved {w₀ : World} {σ : State} (h₀ : OnlyApproved lib id w₀)
    (h : (backend lib).Reach (Published.Current lib id) (Pool.init w₀) σ) : OnlyApproved lib id σ.shared := by
  suffices hkept : Kept lib id (σ.config (Op.protocol lib) fun _ => {}) from hkept.onlyApproved
  refine System.Reach.invariant Op.conforms .init ⟨h₀, fun t op l b hview => by cases hview⟩ ?_ h
  intro σ step c' _ hok hkept hstep
  cases hstep with
  | @spawn t op hview =>
    refine ⟨hkept.onlyApproved, fun u op' l b hu => ?_⟩
    rcases View.of_update hu with ⟨-, rfl, rfl, -⟩ | ⟨-, hu⟩
    · exact ⟨hok, fun document hdocument => by cases hdocument⟩
    · exact hkept.read u op' l b hu
  | @exec t o op l cmd r w' hnext hview hpermits hexec =>
    obtain ⟨hop, hread⟩ := hkept.read t op l true hview
    refine ⟨onlyApproved_exec hkept.onlyApproved hop hread hpermits (fun publication hcmd => ?_) hexec,
      fun u op' l' b hu => ?_⟩
    · subst hcmd
      exact hok op publication hnext
    · rcases View.of_update hu with ⟨-, rfl, rfl, -⟩ | ⟨-, hu⟩
      · exact ⟨hop, read_of_exec hop hread hpermits hexec⟩
      · exact hkept.read u op' l' b hu
  | @crash t op l b hview =>
    refine ⟨hkept.onlyApproved, fun u op' l' b' hu => ?_⟩
    rcases View.of_update hu with ⟨-, rfl, rfl, -⟩ | ⟨-, hu⟩
    · exact hkept.read t op l b hview
    · exact hkept.read u op' l' b' hu
  | @env e => cases e

/-- A decision on the draft of the small shop. -/
def review (decision : Decision) : Op := .reviewProductDraft "7" decision none 3

/-- A draft is reviewed by one thread only, and it has neither metadata nor media. -/
def Alone (σ : State) : Step → Prop
  | .spawn _ op => op.draftID Sample.platform = some 7
  | .exec t _ => match σ.next t with
    | some (_, .publish publication) => σ.shared.drafts.docs.any fun document =>
      document.content.id = 7 ∧ document.status = "pending_review" ∧
        publication.draft.title = document.content.title ∧
        publication.draft.description = document.content.description ∧
        publication.draft.categoryKey = document.content.categoryKey ∧
        publication.draft.productTypeKey = document.content.productTypeKey ∧
        publication.draft.genderKeys = document.content.genderKeys ∧
        publication.draft.metadata.isEmpty ∧ document.content.metadata.isEmpty ∧
        publication.draft.media.isEmpty ∧ document.content.media.isEmpty ∧
        publication.draft.salePricePaise = document.content.salePricePaise
    | _ => True
  | .crash _ | .env _ => False

instance {σ : State} : ∀ step, Decidable (Alone σ step)
  | .spawn _ _ => inferInstanceAs (Decidable (_ = _))
  | .exec t _ => by
    unfold Alone
    dsimp only
    split <;> infer_instance
  | .crash _ | .env _ => inferInstanceAs (Decidable False)

theorem current_of_alone {σ : State} {step : Step} (h : Alone σ step) :
    Published.Current Sample.platform 7 σ step := by
  cases step with
  | spawn t op => exact h
  | crash t => trivial
  | env e => trivial
  | exec t o =>
    intro op publication hnext
    simp only [Alone, hnext] at h
    obtain ⟨document, hdocument, h⟩ := List.any_eq_true.1 h
    obtain ⟨hid, hstatus, htitle, hdescription, hcategory, htype, hgender, hmetadata, hmetadata', hmedia, hmedia',
      hprice⟩ := of_decide_eq_true h
    refine ⟨document, hdocument, hid, .inl hstatus, ⟨htitle, hdescription, hcategory, htype, hgender, ?_, ?_, hprice⟩⟩
    · rw [List.isEmpty_iff.1 hmetadata, List.isEmpty_iff.1 hmetadata']
    · rw [List.isEmpty_iff.1 hmedia, List.isEmpty_iff.1 hmedia']

theorem onlyApproved_draftWorld : OnlyApproved Sample.platform 7 (Sample.draftWorld "pending_review") := by
  refine ⟨fun p hp => absurd hp List.not_mem_nil, fun document hdocument hid hstatus => ?_⟩
  obtain rfl := List.mem_singleton.1 hdocument
  exact absurd (show "pending_review" = "approved" from hstatus) (by decide)

/-- A draft is approved, and nothing else happens. -/
theorem only_approved_alone : ∃ σ,
    (backend Sample.platform).Reach (Published.Current Sample.platform 7)
      (Pool.init (Sample.draftWorld "pending_review")) σ ∧
    σ.shared.store.products.docs.length = 1 ∧ OnlyApproved Sample.platform 7 σ.shared := by
  have hrun : ((backend Sample.platform).runWhere Alone
      (.spawn 0 (review .approved) :: Sample.execs 0 6 ++ [.exec 0 { productID := 5, offerID := 6 }])
      (Pool.init (Sample.draftWorld "pending_review"))).any fun σ =>
        σ.shared.store.products.docs.length = 1 := by decide +kernel
  obtain ⟨σ, hreach, hcheck⟩ := System.Reach.exists_of_any hrun
  have hcurrent := hreach.mono fun _ _ halone => current_of_alone halone
  exact ⟨σ, hcurrent, of_decide_eq_true hcheck, only_approved onlyApproved_draftWorld hcurrent⟩

/-- Two reviews of the draft in which no command fails. -/
def TwoReviews (σ : State) (step : Step) : Prop :=
  Calm 2 σ step ∧ match step with
    | .spawn _ op => op.draftID Sample.platform = some 7
    | _ => True

instance {σ : State} {step : Step} : Decidable (TwoReviews σ step) := by
  unfold TwoReviews
  cases step <;> infer_instance

/-- One reviewer has read the draft when another rejects it: the product of a rejected draft is public. -/
theorem not_only_approved : ∃ σ,
    (backend Sample.platform).Reach TwoReviews (Pool.init (Sample.draftWorld "pending_review")) σ ∧
    OnlyApproved Sample.platform 7 (Sample.draftWorld "pending_review") ∧ (∀ t, σ.next t = none) ∧
    ¬ OnlyApproved Sample.platform 7 σ.shared := by
  have hrun : ((backend Sample.platform).runWhere TwoReviews
      (.spawn 0 (review .approved) :: Sample.execs 0 6 ++
        .spawn 1 (review .rejected) :: Sample.execs 1 5 ++ [.exec 0 { productID := 5, offerID := 6 }])
      (Pool.init (Sample.draftWorld "pending_review"))).any fun σ =>
        allDone 2 σ && ((σ.shared.drafts.docs.all fun document => document.status = "rejected") &&
          σ.shared.store.products.docs.any fun p => p.sourceProductID = "draft:" ++ toString 7) := by decide +kernel
  obtain ⟨σ, hreach, hcheck⟩ := System.Reach.exists_of_any hrun
  obtain ⟨hdone, hwrong⟩ := Bool.and_eq_true_iff.1 hcheck
  obtain ⟨hrejected, hpublic⟩ := Bool.and_eq_true_iff.1 hwrong
  obtain ⟨p, hp, hproduct⟩ := List.any_eq_true.1 hpublic
  have hproduct : p.sourceProductID = "draft:" ++ toString 7 := of_decide_eq_true hproduct
  refine ⟨σ, hreach, onlyApproved_draftWorld, next_eq_none_of_allDone (fun _ _ _ hok => hok.1) hreach hdone,
    fun honly => ?_⟩
  obtain ⟨document, hdocument, -, happroved, -⟩ := honly.approved p hp hproduct
  have hstatus := of_decide_eq_true (List.all_eq_true.1 hrejected document hdocument)
  exact absurd (happroved.symm.trans hstatus) (by decide)

end Approvals

end Catalogue

end Stylme
