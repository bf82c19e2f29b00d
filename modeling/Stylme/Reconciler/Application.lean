-- SUMMARY: An application of retag proposals that runs alone: what it reads, and the products and proposals it leaves.
import Stylme.Reconciler.Effects
import Stylme.Reconciler.Metadata
import Stylme.Reconciler.Plans

/-!
# One application

An application that no other operation disturbs decides its proposals against the stored
products, adds the accepted values to them, and marks the proposals.
-/

namespace Stylme

open Conc Backend

namespace Reconciler

variable (lib : Library)

/-! ## What an application reads -/

/-- The proposals that an application selects. -/
def ApplyRequest.selection (request : ApplyRequest) (w : World) : List Proposal :=
  match request.query lib with
  | .ok query => sortLimit (fun a b => b.confidence ≤ a.confidence) request.limit
      (w.proposals.docs.filter query.selects)
  | .error _ => []

/-- The products that are read for some proposals. -/
def proposedIn (w : World) (proposals : List Proposal) : List Product :=
  let ids := (proposals.map (·.productID)).eraseDups
  (w.products.docs.filter (·.id ∈ ids)).take ids.length

/-- What the application decides. -/
def ApplyRequest.plan (request : ApplyRequest) (w : World) : RetagPlan :=
  let proposals := request.selection lib w
  planRetags w.taxonomy.docs (proposedIn w proposals) proposals

/-! ## What it leaves -/

/-- The product after the writes that are done. -/
def Product.written (p : Product) (done : List ProductWrite) : Option Product :=
  match done.find? (·.productID = p.id) with
  | none => some p
  | some write => p.added write

/-- The store after some writes to products. -/
structure AfterWrites (done : List ProductWrite) (w w' : World) : Prop where
  proposals : w'.proposals = w.proposals
  products : ∀ p', p' ∈ w'.products ↔ ∃ p ∈ w.products, p.written done = some p'

/-- The store after an application that returned `result`. -/
structure Landed (request : ApplyRequest) (w w' : World) (result : ApplyResult) : Prop where
  result : result = ⟨(request.selection lib w).length, (request.plan lib w).appliedIDs.length,
    (request.plan lib w).staleIDs.length⟩
  products : ∃ updatedAt, ∀ p', p' ∈ w'.products ↔
    ∃ p ∈ w.products, p.written ((request.plan lib w).writes request.runID updatedAt) = some p'
  proposals : ∃ now, ∀ q', q' ∈ w'.proposals ↔ ∃ q ∈ w.proposals,
    ((q.appliedFor (request.plan lib w).appliedIDs (request.actor.map (·.id)) now).droppedFor
      (request.plan lib w).staleIDs now) = q'

variable {lib} {forbiddenText : String → Bool} {w w' : World} {o : Oracle}

theorem added_id {p p' : Product} {write : ProductWrite} (h : p.added write = some p') :
    p'.id = p.id := by
  obtain ⟨metadata, -, rfl⟩ := Option.map_eq_some_iff.1 h
  rfl

theorem written_id {p p' : Product} {done : List ProductWrite} (h : p.written done = some p') :
    p'.id = p.id := by
  unfold Product.written at h
  split at h
  · exact congrArg Product.id (Option.some.inj h).symm
  · exact added_id h

/-- A product without a write is left alone. -/
theorem written_of_not_mem {p : Product} {done : List ProductWrite}
    (h : p.id ∉ done.map (·.productID)) : p.written done = some p := by
  have hnone : done.find? (·.productID = p.id) = none := by
    rw [List.find?_eq_none]
    intro x hx heq
    exact h (of_decide_eq_true heq ▸ List.mem_map_of_mem hx)
  rw [Product.written, hnone]

theorem written_concat {p : Product} {done : List ProductWrite} {write : ProductWrite}
    (hnew : write.productID ∉ done.map (·.productID)) : p.written (done ++ [write]) =
      if write.productID = p.id then p.added write else p.written done := by
  unfold Product.written
  rw [List.find?_append]
  by_cases hid : write.productID = p.id
  · have hnone : done.find? (·.productID = p.id) = none := by
      rw [List.find?_eq_none]
      intro x hx heq
      exact hnew (hid ▸ of_decide_eq_true heq ▸ List.mem_map_of_mem hx)
    rw [hnone, Option.none_or, List.find?_singleton, decide_eq_true hid, if_pos hid]
    rfl
  · rw [List.find?_singleton, decide_eq_false hid, if_neg hid]
    exact congrArg (fun found => match found with
      | none => some p
      | some write => p.added write) (Option.or_none ..)

theorem exec_addMetadata_ok {write : ProductWrite}
    (h : (Cmd.addMetadata write).exec forbiddenText o w = some (.ok (), w')) :
    (w.products.get write.productID = none ∧ w' = w) ∨
      ∃ p p', w.products.get write.productID = some p ∧ p.added write = some p' ∧
        w' = { w with products := put w.products p' } := by
  simp only [Cmd.exec] at h
  split at h
  · rename_i hget
    exact .inl ⟨hget, (respond_eq h).1⟩
  · rename_i p hget
    split at h
    · rename_i p' hadded
      exact .inr ⟨p, p', hget, hadded, (perform_ok h).2⟩
    · cases respond_ok h

theorem AfterWrites.step {w₁ : World} {done : List ProductWrite} {write : ProductWrite}
    (h : AfterWrites done w w₁) (hnew : write.productID ∉ done.map (·.productID))
    (hexec : (Cmd.addMetadata write).exec forbiddenText o w₁ = some (.ok (), w')) :
    AfterWrites (done ++ [write]) w w' := by
  rcases exec_addMetadata_ok hexec with ⟨hnone, rfl⟩ | ⟨p₁, p₂, hget, hadded, rfl⟩
  · refine ⟨h.proposals, fun p' => (h.products p').trans (exists_congr fun p =>
      and_congr_right fun hp => ?_)⟩
    have hne : write.productID ≠ p.id := by
      intro hid
      have hstored : p ∈ w'.products :=
        (h.products p).2 ⟨p, hp, written_of_not_mem (hid ▸ hnew)⟩
      exact Collection.get_eq_none_iff.1 hnone p hstored hid.symm
    rw [written_concat hnew, if_neg hne]
  · obtain ⟨hmem, hid⟩ := Collection.get_eq_some_iff.1 hget
    obtain ⟨p₀, hp₀, hwritten⟩ := (h.products p₁).1 hmem
    have hid₀ : write.productID = p₀.id := hid.symm.trans (written_id hwritten)
    obtain rfl : p₀ = p₁ := by
      rw [written_of_not_mem (hid₀ ▸ hnew)] at hwritten
      exact Option.some.inj hwritten
    refine ⟨h.proposals, fun p' => ?_⟩
    rw [mem_put hmem (added_id hadded) (added_id hadded)]
    constructor
    · rintro (rfl | ⟨hp', hne⟩)
      · exact ⟨p₀, hp₀, by rw [written_concat hnew, if_pos hid₀, hadded]⟩
      · obtain ⟨p, hp, hwrite⟩ := (h.products p').1 hp'
        refine ⟨p, hp, ?_⟩
        have hne' : write.productID ≠ p.id := fun heq =>
          hne ((written_id hwrite).trans (heq.symm.trans (hid₀.trans (added_id hadded).symm)))
        rw [written_concat hnew, if_neg hne', hwrite]
    · rintro ⟨p, hp, hwrite⟩
      rw [written_concat hnew] at hwrite
      split at hwrite
      · rename_i heq
        obtain rfl : p = p₀ := Collection.eq_of_id_eq hp hp₀ (heq.symm.trans hid₀)
        exact .inl (Option.some.inj (hwrite.symm.trans hadded))
      · rename_i hne
        refine .inr ⟨(h.products p').2 ⟨p, hp, hwrite⟩, fun heq => hne ?_⟩
        rw [hid₀, ← added_id hadded, ← heq, written_id hwrite]

theorem exec_applyProposals_ok {ids : List ObjectId} {actor : Option ObjectId} {time : Time}
    (h : (Cmd.applyProposals ids actor time).exec forbiddenText o w = some (.ok (), w')) :
    w'.products = w.products ∧
      ∀ q', q' ∈ w'.proposals ↔ ∃ q ∈ w.proposals, q.appliedFor ids actor time = q' := by
  obtain rfl := (perform_ok h).2
  exact ⟨rfl, fun q' => @Collection.mem_updateAll _ _ _ _ _ w.proposals q' _
    (fun _ => Proposal.appliedFor_id) (fun _ => Proposal.appliedFor_key)⟩

theorem exec_dropProposals_ok {ids : List ObjectId} {time : Time}
    (h : (Cmd.dropProposals ids time).exec forbiddenText o w = some (.ok (), w')) :
    w'.products = w.products ∧
      ∀ q', q' ∈ w'.proposals ↔ ∃ q ∈ w.proposals, q.droppedFor ids time = q' := by
  obtain rfl := (perform_ok h).2
  exact ⟨rfl, fun q' => @Collection.mem_updateAll _ _ _ _ _ w.proposals q' _
    (fun _ => Proposal.droppedFor_id) (fun _ => Proposal.droppedFor_key)⟩

/-! ## Running it -/

/-- All metadata are lists. -/
def World.Listed (w : World) : Prop := ∀ p ∈ w.products, ∀ x ∈ p.metadata, ∃ items, x.2 = .arr items

/-- The commands under oracles that are allowed. -/
abbrev allowedExec (forbiddenText : String → Bool) (allow : Oracle → Bool) (cmd : Cmd) (o : Oracle)
    (w : World) : Option (Resp cmd × World) :=
  if allow o then cmd.exec forbiddenText o w else none

section Run

variable {allow : Oracle → Bool} {E : Prop}

theorem allowedExec_iff {cmd : Cmd} {x : Resp cmd × World} :
    allowedExec forbiddenText allow cmd o w = some x ↔
      allow o = true ∧ cmd.exec forbiddenText o w = some x := by
  unfold allowedExec
  split
  · rename_i h
    simp [h]
  · rename_i h
    simp [h]

/-- The postcondition of a part that raises only if `E`. -/
abbrev Unless {α : Type} (E : Prop) (Q : α → World → Prop) : Except PyErr α → World → Prop :=
  Raise.Post Q fun _ _ => E

/-- An error of a request that changes nothing is a fault. -/
theorem fault_of_respond {α : Type} {fault : Option Mishap} {a : α} {e : PyErr}
    (h : respond fault (.ok a) w = some (.error e, w')) : fault.isSome := by
  rcases (respond_eq h).2 with h | ⟨f, rfl, -⟩
  · cases h
  · rfl

theorem fault_of_perform {α : Type} {fault : Option Mishap} {a : α} {e : PyErr} {w₁ : World}
    (h : perform fault (.ok a) w w₁ = some (.error e, w')) : fault.isSome := by
  rcases perform_eq h with ⟨-, h, -⟩ | ⟨f, rfl, -⟩
  · cases h
  · rfl

/-- A write to a stored product with lists is refused by nothing but a fault. -/
theorem AfterWrites.fault {w₁ : World} {done : List ProductWrite} {write : ProductWrite} {e : PyErr}
    (hlisted : w.Listed) (h : AfterWrites done w w₁)
    (hnew : write.productID ∉ done.map (·.productID))
    (hexec : (Cmd.addMetadata write).exec forbiddenText o w₁ = some (.error e, w')) :
    o.fault.isSome := by
  simp only [Cmd.exec] at hexec
  split at hexec
  · exact fault_of_respond hexec
  · rename_i p hget
    split at hexec
    · exact fault_of_perform hexec
    · rename_i hrefused
      obtain ⟨hmem, hid⟩ := Collection.get_eq_some_iff.1 hget
      obtain ⟨p₀, hp₀, hwritten⟩ := (h.products p).1 hmem
      have hid₀ : write.productID = p₀.id := hid.symm.trans (written_id hwritten)
      obtain rfl : p₀ = p := by
        rw [written_of_not_mem (hid₀ ▸ hnew)] at hwritten
        exact Option.some.inj hwritten
      have hadd := @addFields_isSome p₀.metadata write.additions
        fun field v hlookup => hlisted p₀ hp₀ (field, v) (mem_of_lookup hlookup)
      rw [Product.added, Option.map_eq_none_iff] at hrefused
      rw [hrefused] at hadd
      cases hadd

variable (hE : ∀ o : Oracle, allow o = true → o.fault.isSome → E)
include hE

theorem writes_wp (hlisted : w.Listed) {writes : List ProductWrite}
    (hnodup : (writes.map (·.productID)).Nodup) :
    Prog.wp (allowedExec forbiddenText allow) (Unless E fun _ w' => AfterWrites writes w w')
      (Raise.forAll PyErr.isBulkWrite (fun write => Raise.ask (Cmd.addMetadata write)) writes) w := by
  have hstart : AfterWrites [] w w := by
    refine ⟨rfl, fun p' => ?_⟩
    constructor
    · exact fun hp => ⟨p', hp, rfl⟩
    · rintro ⟨p, hp, h⟩
      exact Option.some.inj h ▸ hp
  refine Raise.wp_forAll (I := fun done w' => AfterWrites done w w') hstart ?_
  intro done write rest hsplit s h o r s' hexec
  obtain ⟨hallow, hexec⟩ := allowedExec_iff.1 hexec
  have hnew : write.productID ∉ done.map (·.productID) := by
    rw [hsplit, List.map_append, List.map_cons, List.nodup_append] at hnodup
    exact fun hmem => hnodup.2.2 _ hmem _ List.mem_cons_self rfl
  cases r with
  | error e => exact hE o hallow (h.fault hlisted hnew hexec)
  | ok u => exact h.step hnew hexec

theorem writeAudit_wp {action entityType entityID : String} {actor : Option Actor} :
    Prog.wp (allowedExec forbiddenText allow) (Unless E fun _ w' => w' = w)
      (writeAudit action entityType entityID actor) w := by
  refine Raise.wp_ask_bind.2 fun o r w₁ hexec => ?_
  obtain ⟨rfl, rfl⟩ := Prod.mk.inj (Option.some.inj (allowedExec_iff.1 hexec).2)
  intro o r w₂ hexec
  obtain ⟨hallow, hexec⟩ := allowedExec_iff.1 hexec
  cases r with
  | error e => exact hE o hallow (fault_of_respond hexec)
  | ok u => exact (respond_eq hexec).1

/-- The update of the applied proposals, which is not sent if there are none. -/
theorem applyUpdate_wp {ids : List ObjectId} {actor : Option ObjectId} {time : Time} :
    Prog.wp (allowedExec forbiddenText allow) (Unless E fun _ w' => w'.products = w.products ∧
        ∀ q', q' ∈ w'.proposals ↔ ∃ q ∈ w.proposals, q.appliedFor ids actor time = q')
      (Raise.when (ids ≠ []) do
        Raise.ask (Cmd.applyProposals ids actor time)
        Raise.ask Cmd.clearFilterCache) w := by
  refine Raise.wp_when (fun _ => Raise.wp_ask_bind.2 fun o r w₁ hexec => ?_) fun hnil => ?_
  · obtain ⟨hallow, hexec⟩ := allowedExec_iff.1 hexec
    cases r with
    | error e => exact hE o hallow (fault_of_perform hexec)
    | ok u =>
      have happlied := exec_applyProposals_ok hexec
      intro o r w₂ hexec
      obtain ⟨hallow, hexec⟩ := allowedExec_iff.1 hexec
      cases r with
      | error e => exact hE o hallow (fault_of_respond hexec)
      | ok u => exact (respond_eq hexec).1 ▸ happlied
  · have hids : ids = [] := by simpa using hnil
    refine ⟨rfl, fun q' => ?_⟩
    rw [hids]
    exact ⟨fun hq => ⟨q', hq, rfl⟩, fun ⟨q, hq, heq⟩ => heq ▸ hq⟩

theorem dropUpdate_wp {ids : List ObjectId} {time : Time} :
    Prog.wp (allowedExec forbiddenText allow) (Unless E fun _ w' => w'.products = w.products ∧
        ∀ q', q' ∈ w'.proposals ↔ ∃ q ∈ w.proposals, q.droppedFor ids time = q')
      (Raise.when (ids ≠ []) (Raise.ask (Cmd.dropProposals ids time))) w := by
  refine Raise.wp_when (fun _ o r w₁ hexec => ?_) fun hnil => ?_
  · obtain ⟨hallow, hexec⟩ := allowedExec_iff.1 hexec
    cases r with
    | error e => exact hE o hallow (fault_of_perform hexec)
    | ok u => exact exec_dropProposals_ok hexec
  · have hids : ids = [] := by simpa using hnil
    refine ⟨rfl, fun q' => ?_⟩
    rw [hids]
    exact ⟨fun hq => ⟨q', hq, rfl⟩, fun ⟨q, hq, heq⟩ => heq ▸ hq⟩

theorem commitRetags_wp (hlisted : w.Listed) {request : ApplyRequest} {plan : RetagPlan} {selected : ℕ}
    (hnodup : (plan.pending.map (·.1)).Nodup) :
    Prog.wp (allowedExec forbiddenText allow) (Unless E fun result w' =>
      result = ⟨selected, plan.appliedIDs.length, plan.staleIDs.length⟩ ∧
      (∃ updatedAt, ∀ p', p' ∈ w'.products ↔
        ∃ p ∈ w.products, p.written (plan.writes request.runID updatedAt) = some p') ∧
      ∃ now, ∀ q', q' ∈ w'.proposals ↔ ∃ q ∈ w.proposals,
        (q.appliedFor plan.appliedIDs (request.actor.map (·.id)) now).droppedFor plan.staleIDs now = q')
      (commitRetags request plan selected) w := by
  refine Raise.wp_ask_bind.2 fun o r w₁ hexec => ?_
  obtain ⟨rfl, rfl⟩ := Prod.mk.inj (Option.some.inj (allowedExec_iff.1 hexec).2)
  have hwrites : ((plan.writes request.runID w.clock).map (·.productID)).Nodup :=
    (RetagPlan.writes_productIDs_sublist.nodup hnodup)
  refine Raise.wp_bind.2 (Prog.wp_mono (fun r w₂ h => ?_) (writes_wp hE hlisted hwrites))
  cases r with
  | error e => exact h
  | ok u =>
  obtain ⟨hproposals, hproducts⟩ := h
  refine Raise.wp_ask_bind.2 fun o r w₃ hexec => ?_
  obtain ⟨rfl, rfl⟩ := Prod.mk.inj (Option.some.inj (allowedExec_iff.1 hexec).2)
  refine Raise.wp_bind.2 (Prog.wp_mono (fun r w₃ h => ?_) (applyUpdate_wp hE))
  cases r with
  | error e => exact h
  | ok u =>
  obtain ⟨hsame, happlied⟩ := h
  refine Raise.wp_bind.2 (Prog.wp_mono (fun r w₄ h => ?_) (dropUpdate_wp hE))
  cases r with
  | error e => exact h
  | ok u =>
  obtain ⟨hsame', hdropped⟩ := h
  refine Raise.wp_bind.2 (Prog.wp_mono (Q := Unless E fun _ w₅ => w₅ = w₄) (fun r w₅ h => ?_) ?_)
  rotate_left
  · exact Raise.wp_when (fun _ => writeAudit_wp hE) fun _ => rfl
  cases r with
  | error e => exact h
  | ok u =>
  obtain rfl := h
  refine ⟨rfl, ⟨w.clock, fun p' => ?_⟩, w₂.clock, fun q' => (hdropped q').trans ?_⟩
  · rw [hsame', hsame]
    exact hproducts p'
  · rw [← hproposals]
    constructor
    · rintro ⟨q₁, hq₁, rfl⟩
      obtain ⟨q, hq, rfl⟩ := (happlied q₁).1 hq₁
      exact ⟨q, hq, rfl⟩
    · rintro ⟨q, hq, rfl⟩
      exact ⟨_, (happlied _).2 ⟨q, hq, rfl⟩, rfl⟩

theorem proposedProducts_wp {proposals : List Proposal} :
    Prog.wp (allowedExec forbiddenText allow)
      (Unless E fun products w' => w' = w ∧ products = proposedIn w proposals)
      (proposedProducts (proposals.map (·.productID)).eraseDups) w := by
  unfold proposedProducts
  split
  · intro o r w₁ hexec
    obtain ⟨hallow, hexec⟩ := allowedExec_iff.1 hexec
    cases r with
    | error e => exact hE o hallow (fault_of_respond hexec)
    | ok products => exact ⟨(respond_eq hexec).1, (Except.ok.inj (respond_ok hexec)).symm⟩
  · rename_i hnil
    refine ⟨rfl, ?_⟩
    rw [proposedIn, not_not.1 hnil]
    rfl

theorem applyRetagProposals_wp (hlisted : w.Listed) {request : ApplyRequest}
    (hquery : (∀ query, request.query lib ≠ .ok query) → E) :
    Prog.wp (allowedExec lib.forbiddenText allow)
      (Unless E fun result w' => Landed lib request w w' result)
      (applyRetagProposals lib request) w := by
  refine Raise.wp_ask_bind.2 fun o r w₁ hexec => ?_
  obtain ⟨hallow, hexec⟩ := allowedExec_iff.1 hexec
  obtain rfl := (respond_eq hexec).1
  cases r with
  | error e => exact hE o hallow (fault_of_respond hexec)
  | ok fields =>
  obtain rfl := Except.ok.inj (respond_ok hexec)
  refine Raise.wp_bind.2 (Raise.wp_lift.2 ?_)
  cases hok : request.query lib with
  | error e => exact hquery fun query h => by rw [hok] at h; cases h
  | ok query =>
  refine Raise.wp_ask_bind.2 fun o r w₂ hexec => ?_
  obtain ⟨hallow, hexec⟩ := allowedExec_iff.1 hexec
  obtain rfl := (respond_eq hexec).1
  cases r with
  | error e => exact hE o hallow (fault_of_respond hexec)
  | ok proposals =>
  have hselection : request.selection lib w₂ = proposals := by
    rw [ApplyRequest.selection, hok]
    exact Except.ok.inj (respond_ok hexec)
  refine Raise.wp_bind.2 (Prog.wp_mono (fun r w₃ h => ?_) (proposedProducts_wp hE))
  cases r with
  | error e => exact h
  | ok products =>
  obtain ⟨rfl, rfl⟩ := h
  have hplan : planRetags w₃.taxonomy.docs (proposedIn w₃ proposals) proposals = request.plan lib w₃ := by
    rw [ApplyRequest.plan, hselection]
  dsimp only [Raise.Post]
  rw [hplan, ← hselection]
  refine Prog.wp_mono (fun r w₄ h => ?_)
    (commitRetags_wp hE hlisted RetagPlan.planRetags_sound.productKeys)
  cases r with
  | error e => exact h
  | ok result => exact ⟨h.1, h.2.1, h.2.2⟩

end Run

end Reconciler

end Stylme
