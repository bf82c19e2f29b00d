-- SUMMARY: What a request on a draft or a seller remembers of its reads, the commands it issues given these, and how it ends.
import Stylme.Catalogue.Approvals

/-!
# The protocol of the approvals

A phase holds the draft that a request has read and how far a decision has come with
the projections that it refreshes. A decision that returns without an error has
written the projection of every product in its list.
-/

namespace Stylme

open Conc Backend

namespace Catalogue

namespace Approvals

/-- What a request has read, and which projections it has written. -/
structure Phase where
  document : Option DraftDocument := none
  /-- The seller of the decision exists. -/
  found : Bool := false
  /-- The products that the decision refreshes. -/
  affected : Option (List ObjectId) := none
  prices : List (ObjectId × ℤ) := []
  written : List ObjectId := []
  /-- A command has raised. -/
  failed : Bool := false

variable (lib : Platform)

/-- The draft that a request names. -/
def Op.draftID : Op → Option ObjectId
  | .updateProductDraft draftID _ | .submitProductDraft draftID | .reviewProductDraft draftID _ _ _ =>
    lib.parseID draftID
  | _ => none

/-- The seller that a decision names. -/
def Op.sellerID : Op → Option ObjectId
  | .decideSeller sellerID _ => lib.parseID sellerID
  | _ => none

/-- The phase has read a draft with this identifier. -/
def Phase.Read (l : Phase) (id : ObjectId) : Prop :=
  ∃ document, l.document = some document ∧ document.content.id = id

/-- The commands of a request in a phase. -/
def Permits (op : Op) (l : Phase) : Cmd → Prop
  | .findDraft id => op.draftID lib = some id
  | .updateDraft id content => l.Read id ∧ content.id = id
  | .submitDraft id | .rejectDraft id _ _ _ => l.Read id
  | .publish publication => (∃ reviewer, op = .publishDraft publication.draft reviewer) ∨
      ∃ document, l.document = some document ∧ publication.draft = document.content
  | .checkAccess _ _ | .sellerForActor _ | .validateDraft _ _ => l.found = false
  | .findSeller id => op.sellerID lib = some id ∧ l.found = false
  | .setSellerStatus id _ =>
    op.sellerID lib = some id ∧ l.found ∧ l.failed = false ∧ l.affected = none
  | .productsOfSeller id => op.sellerID lib = some id ∧ l.affected = none ∧ l.written = []
  | .setProjection id minimumPrice =>
    (∃ ids, l.affected = some ids ∧ id ∈ ids) ∧ minimumPrice = l.prices.lookup id
  | _ => True

def next (l : Phase) : (cmd : Cmd) → Raising PyErr Answer cmd → Phase
  | .findDraft _, .ok document => { l with document }
  | .findSeller _, .ok seller => { l with found := seller.isSome }
  | .productsOfSeller _, .ok ids => { l with affected := some ids }
  | .minimumPrices _ _, .ok prices => { l with prices }
  | .setProjection id _, .ok () => { l with written := id :: l.written }
  | _, .error _ => { l with failed := true }
  | _, _ => l

def Op.protocol (op : Op) : Protocol Cmd (Raising PyErr Answer) Phase := ⟨Permits lib op, next⟩

/-- The request has no projection left to write. -/
def Finished (l : Phase) : Prop :=
  l.found → l.failed ∨ ∃ ids, l.affected = some ids ∧ ∀ id ∈ ids, id ∈ l.written

/-! ## Requests on drafts -/

/-- The command reads no draft and has no part in a decision. -/
def Cmd.isPlain : Cmd → Bool
  | .findDraft _ | .findSeller _ | .productsOfSeller _ | .minimumPrices _ _ | .setProjection _ _ => false
  | _ => true

/-- The phase after a plain command. -/
structure Same (l l' : Phase) : Prop where
  document : l'.document = l.document
  found : l'.found = l.found
  affected : l'.affected = l.affected

theorem Same.refl {l : Phase} : Same l l := ⟨rfl, rfl, rfl⟩

theorem Same.trans {l l' l'' : Phase} (h : Same l l') (h' : Same l' l'') : Same l l'' :=
  ⟨h'.document.trans h.document, h'.found.trans h.found, h'.affected.trans h.affected⟩

theorem same_next {l : Phase} {cmd : Cmd} (hcmd : cmd.isPlain) (r : Raising PyErr Answer cmd) :
    Same l (next l cmd r) := by
  cases r with
  | error e => cases cmd <;> exact ⟨rfl, rfl, rfl⟩
  | ok a =>
    cases cmd with
    | findDraft _ | findSeller _ | productsOfSeller _ | minimumPrices _ _ | setProjection _ _ =>
      cases hcmd
    | _ => exact .refl

variable {lib} {op : Op} {l : Phase} {α β : Type}

/-- A plain command that is permitted in every such phase. -/
theorem conforms_plain_bind {cmd : Cmd} {f : Answer cmd → Py β} {Q : Phase → Except PyErr β → Prop}
    (hcmd : cmd.isPlain) (hpermits : Permits lib op l cmd)
    (hok : ∀ l' a, Same l l' → Prog.Conforms (op.protocol lib) Q l' (f a))
    (herror : ∀ l' e, Same l l' → Q l' (.error e)) :
    Prog.Conforms (op.protocol lib) Q l (Raise.ask cmd >>= f : Py β) :=
  Raise.conforms_ask_bind hpermits (fun a => hok _ a (same_next hcmd _))
    fun e => herror _ e (same_next hcmd _)

/-- A phase in which a request on the draft with this content ends. -/
structure Holding (document : DraftDocument) (l : Phase) : Prop where
  read : l.document = some document
  found : l.found = false

theorem Holding.same {document : DraftDocument} {l' : Phase} (h : Holding document l)
    (hsame : Same l l') : Holding document l' :=
  ⟨hsame.document.trans h.read, hsame.found.trans h.found⟩

theorem finished_of_found (h : l.found = false) : Finished l := fun hfound => by
  rw [h] at hfound
  cases hfound

/-- The coroutine keeps the phase away from decisions. -/
abbrev Idles (lib : Platform) (op : Op) (l : Phase) (p : Py α) : Prop :=
  Prog.Conforms (op.protocol lib) (fun l' _ => Same l l') l p

theorem idles_pure {a : α} : Idles lib op l (pure a) := Raise.conforms_pure .refl

theorem idles_throw {e : PyErr} : Idles lib op l (throw e : Py α) :=
  Raise.conforms_throw .refl

theorem idles_ask {cmd : Cmd} (hcmd : cmd.isPlain) (hpermits : Permits lib op l cmd) :
    Idles lib op l (Raise.ask cmd) :=
  Raise.conforms_ask hpermits fun _ => same_next hcmd _

theorem idles_bind {p : Py α} {f : α → Py β} (hp : Idles lib op l p)
    (hf : ∀ l' a, Same l l' → Idles lib op l' (f a)) : Idles lib op l (p >>= f) :=
  Raise.conforms_bind hp
    (fun l' a hsame => (hf l' a hsame).mono fun _ _ hsame' => hsame.trans hsame')
    fun _ _ hsame => hsame

theorem revalidateDraft_idles {draft : Draft} (hfound : l.found = false) :
    Idles lib op l (revalidateDraft draft) := by
  refine idles_bind (idles_ask rfl trivial) fun l' seller hsame => ?_
  cases seller with
  | none => exact idles_throw
  | some seller =>
    exact idles_bind (idles_ask rfl (hsame.found.trans hfound)) fun _ _ _ => idles_pure

theorem publishDraft_idles {draft : Draft} {reviewer : ObjectId} (hfound : l.found = false)
    (h : ∀ l' publication, Same l l' → publication.draft = draft →
      Permits lib op l' (.publish publication)) :
    Idles lib op l (publishDraft draft reviewer) := by
  refine idles_bind (revalidateDraft_idles hfound) fun l₁ _ h₁ => ?_
  refine idles_bind (idles_ask rfl trivial) fun l₂ now h₂ => ?_
  refine idles_bind (idles_ask rfl trivial) fun l₃ colors h₃ => ?_
  exact idles_ask rfl (h l₃ _ ((h₁.trans h₂).trans h₃) rfl)

theorem writeAudit_idles {action entityType entityID : String} :
    Idles lib op l (writeAudit action entityType entityID) := idles_ask rfl trivial

theorem draftPublic_idles {updated : Option DraftDocument} :
    Idles lib op l (draftPublic updated) := by
  cases updated with
  | none => exact idles_throw
  | some draft => exact idles_pure

/-- A request that has found its draft holds it. -/
theorem assertDraftAccess_conforms {draftID : String} {adminOnly : Bool}
    (hop : op.draftID lib = lib.parseID draftID) (hfound : l.found = false) :
    Prog.Conforms (op.protocol lib) (fun l' r => l'.found = false ∧
      ∀ document, r = .ok document → Holding document l') l
      (assertDraftAccess lib draftID adminOnly) := by
  unfold assertDraftAccess
  split
  · exact Raise.conforms_throw ⟨hfound, nofun⟩
  · rename_i id hid
    refine Raise.conforms_ask_bind (hop.trans hid) (fun document => ?_) fun e => ⟨hfound, nofun⟩
    cases document with
    | none => exact Raise.conforms_throw ⟨hfound, nofun⟩
    | some document =>
      have hholding : Holding document (next l (.findDraft id) (.ok (some document))) :=
        ⟨rfl, hfound⟩
      refine conforms_plain_bind rfl hfound (fun l' _ hsame => ?_) fun l' e hsame =>
        ⟨(hholding.same hsame).found, nofun⟩
      refine Raise.conforms_pure ⟨(hholding.same hsame).found, fun document' heq => ?_⟩
      obtain rfl := Except.ok.inj heq
      exact hholding.same hsame

/-- A request on a draft: what follows once it holds the draft. -/
theorem conforms_of_holding {draftID : String} {adminOnly : Bool} {f : DraftDocument → Py β}
    (hop : op.draftID lib = lib.parseID draftID)
    (hf : ∀ document l, Holding document l → Idles lib op l (f document)) :
    Prog.Conforms (op.protocol lib) (fun l _ => Finished l) {}
      (assertDraftAccess lib draftID adminOnly >>= f : Py β) := by
  refine Raise.conforms_bind (assertDraftAccess_conforms hop rfl) ?_ ?_
  · rintro l document ⟨-, hholding⟩
    exact (hf document l (hholding document rfl)).mono fun l' _ hsame =>
      finished_of_found ((hholding document rfl).same hsame).found
  · rintro l e ⟨hfound, -⟩
    exact finished_of_found hfound

theorem updateProductDraft_conforms {draftID : String} {updates : DraftUpdate}
    (hop : op.draftID lib = lib.parseID draftID) :
    Prog.Conforms (op.protocol lib) (fun l _ => Finished l) {}
      (updateProductDraft lib draftID updates) := by
  refine conforms_of_holding hop fun document l h => ?_
  split
  · exact idles_throw
  · refine idles_bind (idles_ask rfl h.found) fun l₁ seller h₁ => ?_
    refine idles_bind (idles_ask rfl (h.same h₁).found) fun l₂ metadata h₂ => ?_
    have hread : l₂.Read document.content.id := ⟨document, (h.same (h₁.trans h₂)).read, rfl⟩
    refine idles_bind (idles_ask rfl ⟨hread, rfl⟩) fun l₃ updated h₃ => ?_
    exact idles_bind writeAudit_idles fun _ _ _ => draftPublic_idles

theorem submitProductDraft_conforms {draftID : String} (hop : op.draftID lib = lib.parseID draftID) :
    Prog.Conforms (op.protocol lib) (fun l _ => Finished l) {} (submitProductDraft lib draftID) := by
  refine conforms_of_holding hop fun document l h => ?_
  split
  · exact idles_throw
  · refine idles_bind (revalidateDraft_idles h.found) fun l₁ _ h₁ => ?_
    have hread : l₁.Read document.content.id := ⟨document, (h.same h₁).read, rfl⟩
    refine idles_bind (idles_ask rfl hread) fun l₂ updated h₂ => ?_
    exact idles_bind writeAudit_idles fun _ _ _ => draftPublic_idles

theorem reviewProductDraft_conforms {draftID : String} {decision : Decision} {reason : Option String}
    {reviewer : ObjectId} (hop : op.draftID lib = lib.parseID draftID) :
    Prog.Conforms (op.protocol lib) (fun l _ => Finished l) {}
      (reviewProductDraft lib draftID decision reason reviewer) := by
  refine conforms_of_holding hop fun document l h => ?_
  split
  · exact idles_throw
  · cases decision with
    | approved =>
      refine idles_bind (publishDraft_idles h.found fun l' publication hsame hdraft => ?_)
        fun _ _ _ => idles_pure
      exact .inr ⟨document, (h.same hsame).read, hdraft⟩
    | rejected =>
      refine idles_bind (idles_ask rfl trivial) fun l₁ now h₁ => ?_
      have hread : l₁.Read document.content.id := ⟨document, (h.same h₁).read, rfl⟩
      refine idles_bind (idles_ask rfl hread) fun l₂ updated h₂ => ?_
      refine idles_bind writeAudit_idles fun _ _ _ => ?_
      exact idles_bind draftPublic_idles fun _ _ _ => idles_pure

/-! ## Decisions -/

/-- The decision has read these products, and has written the projections of some of them unless a
command has raised. -/
structure Refreshing (ids written : List ObjectId) (prices : List (ObjectId × ℤ)) (l : Phase) :
    Prop where
  affected : l.affected = some ids
  prices : l.prices = prices
  written : l.failed ∨ ∀ id ∈ written, id ∈ l.written

/-- How the writes of a refresh end, from the phase `l`. -/
structure Refreshed (ids written : List ObjectId) (prices : List (ObjectId × ℤ)) (l l' : Phase)
    (r : Except PyErr Unit) : Prop where
  refreshing : Refreshing ids written prices l'
  failed : l.failed → l'.failed
  error : ∀ e, r = .error e → l'.failed

theorem setProjections_conforms {ids todo done : List ObjectId} {prices : List (ObjectId × ℤ)}
    (htodo : ∀ id ∈ todo, id ∈ ids) (h : Refreshing ids done prices l) :
    Prog.Conforms (op.protocol lib) (Refreshed ids (done ++ todo) prices l) l
      (Raise.forAll PyErr.isBulkWrite
        (fun id => Raise.ask (Cmd.setProjection id (prices.lookup id))) todo : Py Unit) := by
  induction todo generalizing done l with
  | nil =>
    refine Prog.Conforms.pure ⟨?_, fun hfailed => hfailed, nofun⟩
    rwa [List.append_nil]
  | cons id todo ih =>
    have hids : ∀ id ∈ todo, id ∈ ids := fun id hid => htodo id (List.mem_cons_of_mem _ hid)
    have hstep : ∀ r, Refreshing ids (done ++ [id]) prices
        (next l (.setProjection id (prices.lookup id)) r) := by
      intro r
      cases r with
      | error e => exact ⟨h.affected, h.prices, .inl rfl⟩
      | ok u =>
        refine ⟨h.affected, h.prices, h.written.imp_right fun hwritten id' hid' => ?_⟩
        rcases List.mem_append.1 hid' with hid' | hid'
        · exact List.mem_cons_of_mem _ (hwritten id' hid')
        · obtain rfl := List.mem_singleton.1 hid'
          exact List.mem_cons_self
    refine Prog.Conforms.bind (Q := fun l' r =>
        l' = next l (.setProjection id (prices.lookup id)) r) (Raise.conforms_ask
      ⟨⟨ids, h.affected, htodo id List.mem_cons_self⟩, by rw [h.prices]⟩ fun r => rfl) ?_
    rintro _ r rfl
    have hrest := ih hids (hstep r)
    rw [List.append_assoc, List.singleton_append] at hrest
    cases r with
    | ok u => exact hrest.mono fun l' r h' => ⟨h'.refreshing, h'.failed, h'.error⟩
    | error e =>
      dsimp only
      split
      · refine Prog.Conforms.bind hrest fun l' r h' => ?_
        have hdone : ∀ e', Refreshed ids (done ++ id :: todo) prices l l' (.error e') := fun e' =>
          ⟨h'.refreshing, fun _ => h'.failed rfl, fun _ _ => h'.failed rfl⟩
        cases r with
        | ok u => exact Prog.Conforms.pure (hdone _)
        | error e' => exact Prog.Conforms.pure (hdone _)
      · exact Prog.Conforms.pure ⟨⟨h.affected, h.prices, .inl rfl⟩, fun _ => rfl, fun _ _ => rfl⟩

/-- A refresh that ends without an error has written every projection. -/
theorem refreshCatalogueProjection_conforms {ids : List ObjectId} (h : l.affected = some ids) :
    Prog.Conforms (op.protocol lib) (fun l' _ => Finished l') l
      (refreshCatalogueProjection ids : Py Unit) := by
  unfold refreshCatalogueProjection
  split
  · rename_i hnone
    have hnil : ids = [] := by
      refine List.eq_nil_iff_forall_not_mem.2 fun id hid => ?_
      have hmem := List.mem_eraseDups.2 hid
      rw [hnone] at hmem
      exact List.not_mem_nil hmem
    exact Raise.conforms_pure fun _ => .inr ⟨ids, h, by simp [hnil]⟩
  · refine Raise.conforms_ask_bind trivial (fun approved => ?_) fun e _ => .inl rfl
    refine Raise.conforms_ask_bind trivial (fun prices => ?_) fun e _ => .inl rfl
    have hstart : Refreshing ids [] prices (next l (.minimumPrices ids.eraseDups approved) (.ok prices)) :=
      ⟨h, rfl, .inr nofun⟩
    have hwrites : Prog.Conforms (op.protocol lib) _ _ _ := setProjections_conforms
      (fun id (hid : id ∈ ids.eraseDups) => List.mem_eraseDups.1 hid) hstart
    refine hwrites.mono fun l' r h' _ => ?_
    rw [List.nil_append] at h'
    exact h'.refreshing.written.imp_right fun hwritten =>
      ⟨ids, h'.refreshing.affected, fun id hid => hwritten id (List.mem_eraseDups.2 hid)⟩

theorem finished_next {cmd : Cmd} (hcmd : cmd.isPlain) (r : Raising PyErr Answer cmd) (h : Finished l) :
    Finished (next l cmd r) := by
  cases r with
  | error e => cases cmd <;> exact fun _ => .inl rfl
  | ok a =>
    cases cmd with
    | findDraft _ | findSeller _ | productsOfSeller _ | minimumPrices _ _ | setProjection _ _ =>
      cases hcmd
    | _ => exact h

theorem decideSeller_conforms {sellerID : String} {decision : Decision}
    (hop : op.sellerID lib = lib.parseID sellerID) :
    Prog.Conforms (op.protocol lib) (fun l _ => Finished l) {} (decideSeller lib sellerID decision) := by
  unfold decideSeller
  split
  · exact Raise.conforms_throw fun h => nomatch h
  · rename_i id hid
    refine Raise.conforms_ask_bind ⟨hop.trans hid, rfl⟩ (fun seller => ?_) fun e h => nomatch h
    cases seller with
    | none => exact Raise.conforms_throw fun h => nomatch h
    | some seller =>
      refine Raise.conforms_ask_bind ⟨hop.trans hid, rfl, rfl, rfl⟩ (fun updated => ?_)
        fun e _ => .inl rfl
      refine Raise.conforms_ask_bind ⟨hop.trans hid, rfl, rfl⟩ (fun affected => ?_) fun e _ => .inl rfl
      refine Raise.conforms_bind (refreshCatalogueProjection_conforms rfl) (fun l _ h => ?_)
        fun _ _ h => h
      exact Raise.conforms_ask_bind trivial (fun _ => Raise.conforms_pure (finished_next rfl _ h))
        fun e => finished_next rfl _ h

/-! ## Operations -/

theorem conforms_outcome {f : Except PyErr α → Reply} {p : Py α}
    (h : Prog.Conforms (op.protocol lib) (fun l _ => Finished l) {} p) :
    Prog.Conforms (op.protocol lib) (fun l _ => Finished l) {} (outcome f p) :=
  Prog.Conforms.bind h fun _ _ hfinished => Prog.Conforms.pure hfinished

theorem Op.conforms (op : Op) :
    Prog.Conforms (op.protocol lib) (fun l _ => Finished l) {} (op.prog lib) := by
  cases op with
  | updateProductDraft draftID updates => exact conforms_outcome (updateProductDraft_conforms rfl)
  | submitProductDraft draftID => exact conforms_outcome (submitProductDraft_conforms rfl)
  | reviewProductDraft draftID decision reason reviewer =>
    exact conforms_outcome (reviewProductDraft_conforms rfl)
  | publishDraft draft reviewer =>
    refine conforms_outcome (Prog.Conforms.mono (publishDraft_idles rfl fun l' publication _ hdraft =>
      .inl ⟨reviewer, by rw [hdraft]⟩) fun l' _ hsame => ?_)
    exact finished_of_found hsame.found
  | decideSeller sellerID decision => exact conforms_outcome (decideSeller_conforms rfl)

end Approvals

end Catalogue

end Stylme
