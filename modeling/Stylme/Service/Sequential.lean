-- SUMMARY: What the parts of the operations do when they run alone.
import Stylme.Lib.Sequence
import Stylme.Service.System

/-!
# Operations run alone

Weakest preconditions of the loops that several proofs about sequences of
operations pass through, and the commands of a store that always answers.
-/

namespace Stylme

open Conc

variable {w : World}

/-- `xs` are the calls of the targets that have a valid phone number, under new
identifiers, and nothing is stored yet. -/
structure Drafted (campaign : Campaign) (swarm : AgentSwarm) (now : Time)
    (targets : List CampaignTarget) (w : World) (xs : List Call) (w' : World) : Prop where
  calls : w'.calls = w.calls
  swarms : w'.swarms = w.swarms
  campaigns : w'.campaigns = w.campaigns
  made : ∀ x ∈ xs, ∃ target ∈ targets,
    isE164 (trimSpace target.phone) ∧ x = target.call campaign swarm x.id now
  covers : ∀ target ∈ targets, isE164 (trimSpace target.phone) →
    ∃ x ∈ xs, x = target.call campaign swarm x.id now
  fresh : ∀ x ∈ xs, x.id ∉ w.issued ∧ ∀ c ∈ w.calls, c.id ≠ x.id
  distinct : (xs.map (·.id)).Nodup

theorem targetCalls_wp {campaign : Campaign} {swarm : AgentSwarm} {now : Time}
    {targets : List CampaignTarget} {index : ℕ} :
    Prog.wp Cmd.exec (fun a w' => Drafted campaign swarm now targets w a.1 w')
      (targetCalls campaign swarm now targets index) w := by
  induction targets generalizing index w with
  | nil =>
    exact ⟨rfl, rfl, rfl, fun _ hx => absurd hx List.not_mem_nil,
      fun _ ht => absurd ht List.not_mem_nil, fun _ hx => absurd hx List.not_mem_nil, .nil⟩
  | cons target targets ih =>
    unfold targetCalls
    split
    · rename_i hphone
      apply Prog.wp_bind.2
      refine Prog.wp_mono (fun a w' h => ?_) ih
      refine ⟨h.calls, h.swarms, h.campaigns, fun x hx => ?_, fun t ht hvalid => ?_, h.fresh, h.distinct⟩
      · obtain ⟨t, ht, hx⟩ := h.made x hx
        exact ⟨t, List.mem_cons_of_mem _ ht, hx⟩
      · rcases List.mem_cons.1 ht with rfl | ht
        · exact absurd hvalid hphone
        · exact h.covers t ht hvalid
    · rename_i hphone
      refine Prog.wp_call_bind.2 fun o id w₁ hexec => ?_
      obtain ⟨hissued, hstored, rfl⟩ := exec_randomID hexec
      apply Prog.wp_bind.2
      refine Prog.wp_mono (fun a w' h => ?_) ih
      refine ⟨h.calls, h.swarms, h.campaigns, fun x hx => ?_, fun t ht hvalid => ?_, fun x hx => ?_, ?_⟩
      · rcases List.mem_cons.1 hx with rfl | hx
        · exact ⟨target, List.mem_cons_self, not_not.1 hphone, rfl⟩
        · obtain ⟨t, ht, hx⟩ := h.made x hx
          exact ⟨t, List.mem_cons_of_mem _ ht, hx⟩
      · rcases List.mem_cons.1 ht with rfl | ht
        · exact ⟨_, List.mem_cons_self, rfl⟩
        · obtain ⟨x, hx, heq⟩ := h.covers t ht hvalid
          exact ⟨x, List.mem_cons_of_mem _ hx, heq⟩
      · rcases List.mem_cons.1 hx with rfl | hx
        · exact ⟨hissued, hstored⟩
        · obtain ⟨hnew, hcalls⟩ := h.fresh x hx
          exact ⟨fun hi => hnew (List.mem_cons_of_mem _ hi), hcalls⟩
      · -- the later identifiers are drawn after this one was issued
        refine List.nodup_cons.2 ⟨fun hid => ?_, h.distinct⟩
        obtain ⟨x, hx, hxid⟩ := List.mem_map.1 hid
        refine (h.fresh x hx).1 ?_
        rw [hxid]
        exact List.mem_cons_self

/-! ## Dispositions -/

theorem captureFields_wp {ids : List String} {fields : List CaptureField} :
    Prog.wp Cmd.exec (fun _ w' => w' = w) (captureFields ids fields) w := by
  induction ids generalizing fields with
  | nil => exact rfl
  | cons id ids ih =>
    refine Prog.wp_call_bind.2 fun o r w₁ hexec => ?_
    obtain ⟨rfl, -⟩ := answer_some hexec
    cases r with
    | error e => exact rfl
    | ok agent => exact ih

theorem dispositionAgent_wp {call : Call} :
    Prog.wp Cmd.exec (fun _ w' => w' = w) (dispositionAgent call) w := by
  unfold dispositionAgent
  split
  · exact rfl
  refine Prog.wp_call_bind.2 fun o r w₁ hexec => ?_
  obtain ⟨rfl, -⟩ := answer_some hexec
  cases r with
  | error e => exact rfl
  | ok base =>
    apply Prog.wp_bind.2
    refine Prog.wp_mono (fun r w₂ h => ?_) captureFields_wp
    subst h
    cases r with
    | error e => exact rfl
    | ok fields => exact rfl

/-- The disposition is made without touching the world, and changes nothing of
the call but the disposition and the failure. -/
theorem withDisposition_wp {call : Call} {transcript : List TranscriptTurn} :
    Prog.wp Cmd.exec (fun x w' => w' = w ∧ ∃ d f, x = { call with disposition := d, failure := f })
      (withDisposition call transcript) w := by
  have hsame : w = w ∧ ∃ d f, call = { call with disposition := d, failure := f } :=
    ⟨rfl, call.disposition, call.failure, rfl⟩
  unfold withDisposition
  split
  · exact hsame
  apply Prog.wp_bind.2
  refine Prog.wp_mono (fun r w₁ h => ?_) dispositionAgent_wp
  subst h
  cases r with
  | error e => exact hsame
  | ok agent =>
    refine Prog.wp_call_bind.2 fun o r w₂ hexec => ?_
    simp only [Cmd.exec, Option.some.injEq, Prod.mk.injEq] at hexec
    obtain ⟨-, rfl⟩ := hexec
    cases r with
    | error e => exact ⟨rfl, _, _, rfl⟩
    | ok d => exact ⟨rfl, _, _, rfl⟩

/-! ## A store that always answers -/

section Reliable

variable {o : Oracle} {w' : World}

theorem answer_isNone {α : Type} {r r' : Except Err α} (ho : o.fault.isNone)
    (h : answer o r w = some (r', w')) : r' = r ∧ w' = w := by
  cases hf : o.fault with
  | none => exact ⟨answer_reliable hf h, (answer_some h).1⟩
  | lost m | unacked m => simp [hf, Fault.isNone] at ho

theorem commit_isNone {α : Type} {r r' : Except Err α} {w₁ : World} (ho : o.fault.isNone)
    (h : commit o r w w₁ = some (r', w')) : r' = r ∧ w' = w₁ := by
  cases hf : o.fault with
  | none => exact commit_reliable hf h
  | lost m | unacked m => simp [hf, Fault.isNone] at ho

/-- A call that keeps its identifier and its key is stored. -/
theorem exec_saveCall_isNone {c x : Call} {r : Except Err Unit} (ho : o.fault.isNone)
    (hc : c ∈ w.calls) (hid : x.id = c.id) (hkey : x.idempotencyKey = c.idempotencyKey)
    (h : Cmd.exec (.saveCall x) o w = some (r, w')) :
    r = .ok () ∧ ∃ calls, w.calls.replaceOne x = some calls ∧ w' = { w with calls := calls } := by
  obtain ⟨calls, hcalls⟩ := Collection.replaceOne_of_mem hc hid hkey
  simp only [Cmd.exec, hcalls] at h
  obtain ⟨hr, hw⟩ := commit_isNone ho h
  exact ⟨hr, calls, hcalls, hw⟩

theorem exec_saveCampaign_isNone {campaign : Campaign} {r : Except Err Unit} (ho : o.fault.isNone)
    (h : Cmd.exec (.saveCampaign campaign) o w = some (r, w')) :
    r = .ok () ∧ ∃ campaigns, w.campaigns.replaceOne campaign = some campaigns ∧
      w' = { w with campaigns := campaigns } := by
  obtain ⟨campaigns, hcampaigns⟩ := Collection.replaceOne_of_id (d := campaign) (t := w.campaigns)
  simp only [Cmd.exec, hcampaigns] at h
  obtain ⟨hr, hw⟩ := commit_isNone ho h
  exact ⟨hr, campaigns, hcampaigns, hw⟩

theorem exec_incrementCampaignCount_isNone {campaign : Campaign} {counts : List (String × Int)}
    {campaignID key : String} {delta : Int} {r : Except Err Unit} (ho : o.fault.isNone)
    (hid : campaignID ≠ "") (hcampaign : w.campaigns.get campaignID = some campaign)
    (hcounts : campaign.counts = some counts)
    (h : Cmd.exec (.incrementCampaignCount campaignID key delta) o w = some (r, w')) :
    ∃ campaigns, w.campaigns.replaceOne (campaign.incremented counts key delta w.clock) =
      some campaigns ∧ w' = { w with campaigns := campaigns } := by
  obtain ⟨campaigns, hcampaigns⟩ := Collection.replaceOne_of_id (t := w.campaigns)
    (d := campaign.incremented counts key delta w.clock)
  simp only [Cmd.exec, hid, if_false, hcampaign, hcounts, hcampaigns] at h
  exact ⟨campaigns, hcampaigns, (commit_isNone ho h).2⟩

theorem exec_insertCalls_isNone {xs : List Call} {r : Except Err ℕ} (ho : o.fault.isNone)
    (h : Cmd.exec (.insertCalls xs) o w = some (r, w')) :
    r = .ok (Collection.insertMany xs w.calls).2 ∧
      w' = { w with calls := (Collection.insertMany xs w.calls).1 } := by
  simp only [Cmd.exec] at h
  split at h
  · rename_i hxs
    subst hxs
    simp only [Option.some.injEq, Prod.mk.injEq] at h
    exact ⟨h.1.symm, h.2.symm⟩
  · exact commit_isNone ho h

end Reliable

end Stylme
