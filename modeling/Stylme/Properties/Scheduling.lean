-- SUMMARY: Scheduling reaches every target exactly once, as long as the targets' idempotency keys belong to no other calls.
import Stylme.Service.Copies
import Stylme.Service.Sequential

/-!
# Complete scheduling

The calls of a campaign are told apart by the key `campaign:externalID`, direct
calls by `direct:key` and inbound calls by `inbound:room`. A target whose key is
taken is passed over, whoever holds the key.
-/

namespace Stylme

open Conc

/-- The external identifier of a target's call. -/
def CampaignTarget.external (target : CampaignTarget) : String :=
  if target.externalID = "" then trimSpace target.phone else target.externalID

/-- The call was scheduled for the target. -/
def Call.IsFor (c : Call) (campaignID : String) (target : CampaignTarget) : Prop :=
  c.campaignID = campaignID ∧ c.externalID = target.external

/-- A call of a campaign carries the key of its campaign and external identifier. -/
def Call.Keyed (c : Call) : Prop :=
  c.campaignID ≠ "" → c.idempotencyKey = c.campaignID ++ ":" ++ c.externalID

theorem Call.Keyed.of_eq {c x : Call} (h : c.Keyed) (hcampaign : x.campaignID = c.campaignID)
    (hkey : x.idempotencyKey = c.idempotencyKey) (hexternal : x.externalID = c.externalID) :
    x.Keyed := by
  intro hne
  rw [hcampaign] at hne
  rw [hkey, hcampaign, hexternal]
  exact h hne

/-- Every call an operation writes is keyed when the copy it works on is. -/
theorem Op.permits_keyed {op : Op} {l : Phase} {x : Call} (hpermits : op.permits l (.saveCall x))
    (hkeyed : ∀ c, l.call = some c → c.Keyed) : x.Keyed := by
  cases l with
  | start ids =>
    -- direct and inbound calls have no campaign
    rcases hpermits with ⟨-, ⟨request, swarm, key, number, now, -, -, hx⟩ |
      ⟨request, swarm, agentID, now, -, -, -, hx⟩⟩
    · rw [hx]
      exact fun hne => absurd rfl hne
    · rw [hx]
      exact fun hne => absurd rfl hne
  | gating c campaign =>
    obtain ⟨scheduledAt, now, rfl⟩ := hpermits
    exact (hkeyed c rfl).of_eq rfl rfl rfl
  | cancelling c =>
    obtain ⟨reason, now, rfl⟩ := hpermits
    exact (hkeyed c rfl).of_eq rfl rfl rfl
  | failing c =>
    obtain ⟨cause, now, rfl⟩ := hpermits
    unfold Call.dispatchFailed
    split <;> exact (hkeyed c rfl).of_eq rfl rfl rfl
  | answered c room =>
    obtain ⟨now, rfl⟩ := hpermits
    exact (hkeyed c rfl).of_eq rfl rfl rfl
  | copied c =>
    rcases hpermits with ⟨request, -, -, -, -, fromAgentID, toAgentID, now, -, rfl⟩ |
      ⟨request, -, now, d, f, rfl⟩ <;> exact (hkeyed c rfl).of_eq rfl rfl rfl
  | _ => exact hpermits.elim

/-- The calls an operation inserts are keyed. -/
theorem Op.permits_insertCalls_keyed {op : Op} {l : Phase} {xs : List Call} {x : Call}
    (hpermits : op.permits l (.insertCalls xs)) (hx : x ∈ xs) : x.Keyed := by
  cases l with
  | start ids =>
    obtain ⟨-, target, campaign, swarm, now, hx⟩ := hpermits.2 x hx
    rw [hx]
    exact fun _ => rfl
  | _ => exact hpermits.elim

namespace ControlPlane

/-- Every stored call is keyed. -/
def Keyed (w : World) : Prop := ∀ c ∈ w.calls, c.Keyed

variable {platform : Platform DirectCallRequest} {w w' w₀ : World}

/-- Every operation, run alone, keeps the stored calls keyed. -/
theorem Keyed.op_wp (platform : Platform DirectCallRequest) (hw : Keyed w) (op : Op) :
    Prog.wp Cmd.exec (fun _ w' => Keyed w') (op.prog platform) w := by
  have hwp : Prog.wp Cmd.exec (fun a w' => ∃ l, Op.returns l a ∧
      Keyed w' ∧ ∀ c, l.call = some c → c.Keyed) (op.prog platform) w := by
    refine (Op.conforms platform op).wp (I := fun l w => Keyed w ∧ ∀ c, l.call = some c → c.Keyed)
      ⟨hw, fun c hc => by cases hc⟩ ?_
    intro l cmd o r w w' ⟨hw, hcopy⟩ hpermits hexec
    have hstored : Keyed w' := by
      intro d hd
      rcases exec_mem hexec hd with hold | rfl | ⟨xs, rfl, hxs, -⟩ | ⟨now, lease, e, rfl, he, -, rfl⟩
      · exact hw d hold
      · exact Op.permits_keyed hpermits hcopy
      · exact Op.permits_insertCalls_keyed hpermits hxs
      · exact (hw e he).of_eq rfl rfl rfl
    refine ⟨hstored, fun c hc => ?_⟩
    rcases Op.next_call hc with hold | hanswer
    · exact hcopy c hold
    · exact hstored c (exec_answered hexec hanswer)
  refine Prog.wp_mono (fun a w' h => ?_) hwp
  obtain ⟨l, -, hw', -⟩ := h
  exact hw'

theorem keyed {ok : World → Op → Prop} {h : List (Op × Reply)} (h₀ : Keyed w₀)
    (hs : (controlPlane platform).Sequence ok w₀ h w) : Keyed w :=
  hs.invariant (I := fun _ w => Keyed w) h₀ (fun _ _ _ hw => hw) fun _ _ op hw _ =>
    hw.op_wp platform op

/-! ## One request -/

/-- What a request that schedules a campaign without an error leaves behind. -/
structure Schedules (campaignID : String) (targets : List CampaignTarget) (w w' : World) : Prop where
  kept : ∀ c ∈ w.calls, c ∈ w'.calls
  origin : ∀ c ∈ w'.calls, c ∈ w.calls ∨ c.campaignID = campaignID
  covers : ∀ target ∈ targets, isE164 (trimSpace target.phone) →
    ∃ c ∈ w'.calls, c.idempotencyKey = campaignID ++ ":" ++ target.external

theorem scheduleCampaign_schedules {campaignID actor : String} {targets : List CampaignTarget} :
    Prog.wp Cmd.exec (fun r w' => ∀ result, r = .ok result → Schedules campaignID targets w w')
      (scheduleCampaign campaignID targets actor) w := by
  unfold scheduleCampaign
  split
  · exact fun result h => by cases h
  refine Prog.wp_call_bind.2 fun o r w₁ hexec => ?_
  obtain ⟨rfl, -⟩ := answer_some hexec
  cases r with
  | error e => exact fun result h => by cases h
  | ok campaign =>
    obtain ⟨-, rfl⟩ := exec_getCampaign hexec
    dsimp only
    split
    · exact fun result h => by cases h
    refine Prog.wp_call_bind.2 fun o r w₁ hexec => ?_
    obtain ⟨rfl, -⟩ := answer_some hexec
    cases r with
    | error e => exact fun result h => by cases h
    | ok swarm =>
      refine Prog.wp_call_bind.2 fun o now w₂ hexec => ?_
      obtain rfl : w₁ = w₂ := by
        simp only [Cmd.exec, Option.some.injEq, Prod.mk.injEq] at hexec
        exact hexec.2
      apply Prog.wp_bind.2
      refine Prog.wp_mono (fun a w₂ h => ?_) targetCalls_wp
      refine Prog.wp_call_bind.2 fun o r w₃ hexec => ?_
      cases r with
      | error e => exact fun result h => by cases h
      | ok inserted =>
        have hcalls := exec_insertCalls_ok hexec
        refine Prog.wp_call_bind.2 fun o r w₄ hexec => ?_
        have hframe := (exec_frame hexec).calls rfl
        have hdone : Schedules campaign.id targets w₁ w₄ := by
          constructor
          · intro c hc
            rw [hframe, hcalls, h.calls]
            exact Collection.mem_insertMany.1 hc
          · intro c hc
            rw [hframe, hcalls, h.calls] at hc
            rcases Collection.mem_insertMany.2 hc with hold | ⟨hnew, -⟩
            · exact .inl hold
            · obtain ⟨target, -, -, hx⟩ := h.made c hnew
              exact .inr (hx ▸ rfl)
          · intro target htarget hvalid
            obtain ⟨x, hx, heq⟩ := h.covers target htarget hvalid
            obtain ⟨e, he, hid | hkey⟩ := Collection.exists_mem_insertMany (s := w₁.calls) hx
            · -- the identifier was drawn for this call alone
              rcases Collection.mem_insertMany.2 he with hold | ⟨hnew, -⟩
              · exact absurd hid ((h.fresh x hx).2 e hold)
              · obtain rfl := List.inj_on_of_nodup_map h.distinct hnew hx hid
                refine ⟨e, ?_, heq ▸ rfl⟩
                rwa [hframe, hcalls, h.calls]
            · refine ⟨e, ?_, hkey.trans (heq ▸ rfl)⟩
              rwa [hframe, hcalls, h.calls]
        cases r with
        | error e => exact fun result h => by cases h
        | ok u => exact fun _ _ => hdone

/-- No call of another campaign, and none without a campaign, carries the key of a target. -/
def Unshared (w : World) (campaignID : String) (targets : List CampaignTarget) : Prop :=
  ∀ target ∈ targets, isE164 (trimSpace target.phone) → ∀ c ∈ w.calls,
    c.idempotencyKey = campaignID ++ ":" ++ target.external → c.campaignID = campaignID

/-- After every request that schedules a campaign without an error, in every sequence
of operations, each target with a valid phone number has exactly one call, if and only
if the keys of the targets were shared with no other calls. -/
theorem scheduled_iff {ok : World → Op → Prop} {h : List (Op × Reply)} (h₀ : Keyed w₀)
    (hs : (controlPlane platform).Sequence ok w₀ h w) {campaignID actor : String}
    {targets : List CampaignTarget} (hid : campaignID ≠ "") {os : List Oracle} {result : ScheduleResult}
    (hrun : (Op.prog platform (.scheduleCampaign campaignID targets actor)).run Cmd.exec os w =
      some (.scheduled (.ok result), w')) :
    (∀ target ∈ targets, isE164 (trimSpace target.phone) →
        ∃! c, c ∈ w'.calls ∧ c.IsFor campaignID target) ↔ Unshared w campaignID targets := by
  have hkeyed : Keyed w' :=
    Prog.wp_sound (Q := fun _ w' => Keyed w') ((keyed h₀ hs).op_wp platform _) hrun
  have hdone : Schedules campaignID targets w w' := by
    have hwp : Prog.wp Cmd.exec (fun a w' => ∀ result, a = .scheduled (.ok result) →
        Schedules campaignID targets w w')
        (Op.prog platform (.scheduleCampaign campaignID targets actor)) w := by
      apply Prog.wp_bind.2
      refine Prog.wp_mono (fun r w' hr => ?_) scheduleCampaign_schedules
      exact fun result heq => hr result (Reply.scheduled.inj heq)
    exact Prog.wp_sound (Q := fun a w' => ∀ result, a = .scheduled (.ok result) →
      Schedules campaignID targets w w') hwp hrun result rfl
  have hkey : ∀ c ∈ w'.calls, ∀ target, c.IsFor campaignID target →
      c.idempotencyKey = campaignID ++ ":" ++ target.external := by
    intro c hc target hfor
    rw [← hfor.1, ← hfor.2]
    exact hkeyed c hc (hfor.1 ▸ hid)
  constructor
  · intro hone target htarget hvalid c hc hshared
    obtain ⟨d, ⟨hd, hfor⟩, -⟩ := hone target htarget hvalid
    obtain rfl := Collection.eq_of_key_eq (hdone.kept c hc) hd
      (hshared.trans (hkey d hd target hfor).symm)
    exact hfor.1
  · intro hclear target htarget hvalid
    obtain ⟨c, hc, hckey⟩ := hdone.covers target htarget hvalid
    have hcampaign : c.campaignID = campaignID := by
      rcases hdone.origin c hc with hold | hnew
      · exact hclear target htarget hvalid c hold hckey
      · exact hnew
    have hexternal : c.externalID = target.external := by
      have hck := hkeyed c hc (hcampaign ▸ hid)
      rw [hckey, hcampaign] at hck
      exact ((String.append_right_inj _).1 hck).symm
    refine ⟨c, ⟨hc, hcampaign, hexternal⟩, fun d hd => ?_⟩
    exact Collection.eq_of_key_eq hd.1 hc ((hkey d hd.1 target hd.2).trans hckey.symm)

end ControlPlane

namespace Sample

/-- The small control plane with a campaign that is called like a kind of key. -/
def directWorld : World where
  clock := 0
  gateway := .sip
  agents := world.agents
  swarms := world.swarms
  campaigns := ⟨[{ campaign with id := "direct" }], by decide +kernel, by decide +kernel⟩
  calls := ∅
  issued := []

/-- A direct call under the key `customer-1`. -/
def triggerCustomer : ControlPlane.Request :=
  (.triggerCall { request with idempotencyKey := "customer-1" },
    [{}, {}, {}, {}, { random := "b" }, {}, {}, {}, {}, {}])

def scheduleDirect : ControlPlane.Request :=
  (.scheduleCampaign "direct" [target] "", [{}, {}, {}, { random := "a" }, {}, {}])

/-- The campaign was scheduled. -/
def schedules (reply : Reply) : Bool :=
  match reply with
  | .scheduled (.ok _) => true
  | _ => false

/-- The campaign was scheduled with a target that can be called, and has no call. -/
def uncalled (ops : List (Op × Reply)) (w : World) : Bool :=
  (match ops.head? with
    | some (.scheduleCampaign "direct" targets _, .scheduled (.ok _)) =>
      targets.any fun target => isE164 (trimSpace target.phone)
    | _ => false) && w.calls.docs.all (·.campaignID ≠ "direct")

end Sample

namespace ControlPlane

/-- A campaign is scheduled, and its one target has its one call. -/
theorem scheduled_iff_sample :
    ∃ result w', (Op.prog Sample.platform Sample.scheduleOne.1).run Cmd.exec Sample.scheduleOne.2
        Sample.world = some (.scheduled (.ok result), w') ∧
      ∃! c, c ∈ w'.calls ∧ c.IsFor "campaign_1" Sample.target := by
  have hrun : ((Op.prog Sample.platform Sample.scheduleOne.1).run Cmd.exec Sample.scheduleOne.2
      Sample.world).any (Sample.schedules ·.1) := by
    decide +kernel
  obtain ⟨⟨reply, w'⟩, hrun, hok⟩ := (Option.any_eq_true ..).1 hrun
  unfold Sample.schedules at hok
  split at hok
  · rename_i result hreply
    change reply = .scheduled (.ok result) at hreply
    subst hreply
    have hclear : Unshared Sample.world "campaign_1" [Sample.target] :=
      fun _ _ _ c hc => absurd hc Collection.not_mem_empty
    refine ⟨result, w', hrun, ?_⟩
    have hkeyed : Keyed Sample.world := fun c hc => absurd hc Collection.not_mem_empty
    have hnone : (controlPlane Sample.platform).Sequence (fun _ _ => True) Sample.world []
        Sample.world := .nil
    exact (scheduled_iff hkeyed hnone (by decide) hrun).2 hclear
      Sample.target List.mem_cons_self (by decide +kernel)
  · cases hok

/-- The three operations that create calls. -/
def creates : Op → Bool
  | .scheduleCampaign _ _ _ | .triggerCall _ | .createInboundCall _ => true
  | _ => false

/-- A direct call took the key of the campaign's target, and nobody is called for it. -/
theorem not_scheduled :
    ¬ ∀ (w₀ : World) (h : List (Op × Reply)) (w : World), Keyed w₀ →
      (controlPlane Sample.platform).Sequence (fun _ op => creates op) w₀ h w →
      ∀ campaignID targets actor result, h.head? =
        some (.scheduleCampaign campaignID targets actor, .scheduled (.ok result)) → campaignID ≠ "" →
      ∀ target ∈ targets, isE164 (trimSpace target.phone) →
        ∃! c, c ∈ w.calls ∧ c.IsFor campaignID target := by
  intro h
  have hrun : ((controlPlane Sample.platform).sequence (fun _ op => creates op)
      [Sample.triggerCustomer, Sample.scheduleDirect] [] Sample.directWorld).any
        fun x => Sample.uncalled x.1 x.2 := by
    decide +kernel
  obtain ⟨ops, w, hs, hw⟩ := System.Sequence.exists_of_any hrun
  obtain ⟨hhead, hnone⟩ := (Bool.and_eq_true _ _).mp hw
  split at hhead
  · rename_i targets actor result hops
    obtain ⟨target, htarget, hvalid⟩ := List.any_eq_true.1 hhead
    obtain ⟨c, ⟨hc, hfor⟩, -⟩ := h _ _ _ (fun c hc => absurd hc Collection.not_mem_empty) hs
      "direct" targets actor result hops (by decide) target htarget hvalid
    exact of_decide_eq_true (List.all_eq_true.1 hnone c hc) hfor.1
  · cases hhead

end ControlPlane

end Stylme
