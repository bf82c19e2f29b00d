-- SUMMARY: The calls of a campaign that are past the concurrency gate never outnumber the campaign's limit.
import Mathlib.Data.List.Perm.Subperm
import Stylme.Service.Copies

/-!
# Campaign concurrency

The gate of `DispatchOne` is a count of the other calls in flight, taken after
the call's own claim. A count is a snapshot, so when a call passes, all calls
that passed before and are still in flight are among those it counted.
-/

namespace Stylme

open Conc

/-- The call that passes the gate of campaign `id` with limit `m` by this answer. -/
def Cmd.gatePass (id : String) (m : Int) : (c : Cmd) → Resp c → Option String
  | .countActiveCampaignCalls campaignID callID, .ok active =>
    if campaignID = id ∧ active < m then some callID else none
  | _, _ => none

def World.inFlight (w : World) (callID : String) : Bool :=
  (w.calls.get callID).any (·.status.inFlight)

/-- The calls that have passed the gate of campaign `id` and have been in flight
after every command since. -/
def slots (id : String) (m : Int) : List (Entry Cmd Resp World) → List String
  | [] => []
  | e :: log =>
    let passed :=
      match e.cmd.gatePass id m e.resp with
      | some callID => (slots id m log).insert callID
      | none => slots id m log
    passed.filter e.after.inFlight

/-- The dispatcher has taken a call of a campaign past the gate. -/
def Phase.pastGate : Phase → Option Call
  | .cleared c | .dialing c | .answered c _ => some c
  | _ => none

namespace ControlPlane

/-- Campaign `id`, where it is stored, has the limit `m`. -/
def fixedConcurrency (id : String) (m : Int) (σ : State) : Bool :=
  σ.shared.campaigns.docs.all fun campaign => campaign.id ≠ id ∨ campaign.maxConcurrency = m

variable {platform : Platform DirectCallRequest} {s₀ : World} {σ : State} {id : String} {m : Int}

/-- The campaign whose gate is being checked is the call's, with the fixed limit;
a call of the campaign past the gate has passed it; the slots are taken by stored
calls of the campaign and are at most `m`. -/
structure Gated (id : String) (m : Int) (cfg : View) : Prop where
  gating : ∀ {t op c campaign b}, cfg.view t = some ⟨op, .gating c campaign, b⟩ →
    campaign.id = c.campaignID ∧ (campaign.id = id → campaign.maxConcurrency = m)
  passed : ∀ {t op l b c}, cfg.view t = some ⟨op, l, b⟩ → l.pastGate = some c →
    c.campaignID = id → c.campaignID ≠ "" →
    ∃ e ∈ cfg.log, e.tid = t ∧ e.cmd.gatePass id m e.resp = some c.id
  nodup : (slots id m cfg.log).Nodup
  stored : ∀ callID ∈ slots id m cfg.log, ∃ d, cfg.shared.calls.get callID = some d ∧
    d.campaignID = id ∧ d.status.inFlight
  bound : (slots id m cfg.log).length ≤ m

theorem slots_nodup {log : List (Entry Cmd Resp World)} : (slots id m log).Nodup := by
  induction log with
  | nil => exact .nil
  | cons e log ih =>
    simp only [slots]
    split
    · exact (List.Nodup.insert ih).filter _
    · exact ih.filter _

/-- Calls of a campaign in flight other than `exclude` are all counted. -/
theorem length_le_count {w : World} {l : List String} (exclude : String) (hl : l.Nodup)
    (h : ∀ callID ∈ l, callID ≠ exclude ∧ ∃ d, w.calls.get callID = some d ∧ d.campaignID = id ∧
      d.status.inFlight) : l.length ≤ w.calls.count (·.countsFor id exclude) := by
  have hsub : l ⊆ (w.calls.docs.filter (·.countsFor id exclude)).map (·.id) := by
    intro callID hmem
    obtain ⟨hne, d, hget, hid, hflight⟩ := h callID hmem
    obtain ⟨hd, rfl⟩ := Collection.get_eq_some_iff.1 hget
    refine List.mem_map_of_mem (List.mem_filter.2 ⟨hd, ?_⟩)
    simp [Call.countsFor, hid, hflight, hne]
  calc l.length ≤ ((w.calls.docs.filter (·.countsFor id exclude)).map (·.id)).length :=
        (List.subperm_of_subset hl hsub).length_le
    _ = w.calls.count (·.countsFor id exclude) := by
        rw [List.length_map, Collection.count, List.countP_eq_length_filter]

theorem gatePass_some {cmd : Cmd} {r : Resp cmd} {callID : String}
    (h : cmd.gatePass id m r = some callID) :
    ∃ active < m, (⟨cmd, r⟩ : Σ c, Resp c) = ⟨.countActiveCampaignCalls id callID, .ok active⟩ := by
  unfold Cmd.gatePass at h
  split at h
  · rename_i campaignID callID' active
    split at h
    · rename_i hpass
      obtain rfl := Option.some.inj h
      obtain ⟨rfl, hactive⟩ := hpass
      exact ⟨active, hactive, rfl⟩
    · cases h
  · cases h

section Exec

variable {cfg : View} {t : ℕ} {op : Op} {l : Phase} {cmd : Cmd} {r : Resp cmd} {o : Oracle} {w : World}

/-- Whoever holds a slot after a command is a stored call of the campaign. -/
theorem Gated.stored_exec (h : Gated id m cfg) (hsync : Synced cfg)
    (ht : cfg.view t = some ⟨op, l, true⟩) (hpermits : op.permits l cmd)
    (hexec : cmd.exec o cfg.shared = some (r, w)) :
    ∀ callID ∈ slots id m (⟨t, cmd, r, w⟩ :: cfg.log), ∃ d, w.calls.get callID = some d ∧
      d.campaignID = id ∧ d.status.inFlight := by
  intro callID hmem
  simp only [slots, List.mem_filter] at hmem
  obtain ⟨hpassed, hflight⟩ := hmem
  obtain ⟨d, hget, hstatus⟩ := Option.any_eq_true _ _ |>.1 hflight
  refine ⟨d, hget, ?_, hstatus⟩
  -- the call was a call of the campaign before the command, and it is still the same call
  have hbefore : ∃ d₀ ∈ cfg.shared.calls, d₀.id = callID ∧ d₀.campaignID = id := by
    have hold : callID ∈ slots id m cfg.log →
        ∃ d₀ ∈ cfg.shared.calls, d₀.id = callID ∧ d₀.campaignID = id := by
      intro hslot
      obtain ⟨d₀, hget₀, hid, -⟩ := h.stored callID hslot
      obtain ⟨hd₀, rfl⟩ := Collection.get_eq_some_iff.1 hget₀
      exact ⟨d₀, hd₀, rfl, hid⟩
    split at hpassed
    · rename_i passing hpass
      rcases List.mem_insert_iff.1 hpassed with rfl | hslot
      · obtain ⟨active, -, heq⟩ := gatePass_some hpass
        cases heq
        cases l with
        | gating c campaign =>
          obtain ⟨hid, rfl⟩ := hpermits
          obtain ⟨d₀, hd₀, hsame⟩ := hsync.copies ht rfl
          exact ⟨d₀, hd₀, hsame.id.symm, hsame.campaignID.symm.trans
            ((h.gating ht).1.symm.trans hid.symm)⟩
        | _ => exact hpermits.elim
      · exact hold hslot
    · exact hold hpassed
  obtain ⟨d₀, hd₀, rfl, hid⟩ := hbefore
  obtain ⟨d', hd', hsame⟩ := hsync.persist ht hpermits hexec hd₀
  have hget' := Collection.get_eq_some_iff.2 ⟨hd', hsame.id.symm⟩
  rw [hget, Option.some.injEq] at hget'
  rw [hget', ← hsame.campaignID, hid]

theorem Gated.bound_exec (h : Gated id m cfg) (hsync : Synced cfg)
    (ht : cfg.view t = some ⟨op, l, true⟩) (hpermits : op.permits l cmd)
    (hexec : cmd.exec o cfg.shared = some (r, w)) :
    (slots id m (⟨t, cmd, r, w⟩ :: cfg.log)).length ≤ m := by
  have hstored := h.stored_exec hsync ht hpermits hexec
  have hnodup : (slots id m (⟨t, cmd, r, w⟩ :: cfg.log)).Nodup := slots_nodup
  cases hpass : cmd.gatePass id m r with
  | none =>
    have hle : (slots id m (⟨t, cmd, r, w⟩ :: cfg.log)).length ≤ (slots id m cfg.log).length := by
      simp only [slots, hpass]
      exact List.length_filter_le _ _
    have := h.bound
    omega
  | some callID =>
    obtain ⟨active, hactive, heq⟩ := gatePass_some hpass
    cases heq
    have hcount := exec_countActiveCampaignCalls hexec
    have hw := (answer_some hexec).1
    subst hw
    -- all slots but the new one were counted
    have hothers := length_le_count callID (hnodup.erase callID) fun k hk =>
      ⟨((List.Nodup.mem_erase_iff hnodup).1 hk).1,
        hstored k ((List.Nodup.mem_erase_iff hnodup).1 hk).2⟩
    rw [List.length_erase] at hothers
    split at hothers <;> omega

theorem next_gating {c : Call} {campaign : Campaign} (h : op.next l cmd r = .gating c campaign) :
    l = .gating c campaign ∨ (l = .owned c ∧ ∃ campaignID,
      (⟨cmd, r⟩ : Σ c, Resp c) = ⟨.getCampaign campaignID, .ok campaign⟩) := by
  unfold Op.next Op.created at h
  split at h <;> try split at h
  all_goals first | exact .inl h | cases h
  exact .inr ⟨rfl, _, rfl⟩

/-- The ways past the gate: by the count, or without a campaign. -/
theorem next_pastGate {c : Call} (hpermits : op.permits l cmd)
    (h : (op.next l cmd r).pastGate = some c) :
    l.pastGate = some c ∨ c.campaignID = "" ∨ ∃ campaign, l = .gating c campaign ∧
      ∃ active < campaign.maxConcurrency,
        (⟨cmd, r⟩ : Σ c, Resp c) = ⟨.countActiveCampaignCalls campaign.id c.id, .ok active⟩ := by
  unfold Op.next Op.created at h
  split at h <;> try split at h
  all_goals first | exact .inl h | cases h
  · -- a direct call belongs to no campaign
    rcases hpermits.2 with ⟨request, swarm, key, number, now, -, -, hx⟩ | ⟨request, _, _, _, hop, -⟩
    · exact .inr (.inl (congrArg Call.campaignID hx))
    · cases hop
  · rename_i hroom
    obtain ⟨rfl, rfl⟩ := hpermits
    exact .inr (.inr ⟨_, rfl, _, Int.not_le.1 hroom, rfl⟩)
  · exact .inr (.inl hpermits.2)

theorem Gated.exec (h : Gated id m cfg) (hsync : Synced cfg)
    (hfixed : ∀ campaign ∈ cfg.shared.campaigns, campaign.id = id → campaign.maxConcurrency = m)
    (ht : cfg.view t = some ⟨op, l, true⟩) (hpermits : op.permits l cmd)
    (hexec : cmd.exec o cfg.shared = some (r, w)) :
    Gated id m ⟨w, Function.update cfg.view t (some ⟨op, op.next l cmd r, true⟩),
      ⟨t, cmd, r, w⟩ :: cfg.log⟩ where
  gating := by
    intro u op' c campaign b hu
    rcases View.of_update hu with ⟨rfl, rfl, hnext, -⟩ | ⟨hut, hv⟩
    · rcases next_gating hnext with rfl | ⟨rfl, campaignID, heq⟩
      · exact h.gating ht
      · cases heq
        obtain ⟨hmem, hid⟩ := exec_getCampaign hexec
        exact ⟨hid.trans hpermits, hfixed campaign hmem⟩
    · exact h.gating hv
  passed := by
    intro u op' l' b c hu hc hid hne
    rcases View.of_update hu with ⟨rfl, rfl, rfl, -⟩ | ⟨hut, hv⟩
    · rcases next_pastGate hpermits hc with hkept | hcampaign | ⟨campaign, rfl, active, hactive, heq⟩
      · obtain ⟨e, he, hpass⟩ := h.passed ht hkept hid hne
        exact ⟨e, List.mem_cons_of_mem _ he, hpass⟩
      · exact absurd hcampaign hne
      · cases heq
        obtain ⟨hgate, hm⟩ := h.gating ht
        have hcampaign := hgate.trans hid
        refine ⟨_, List.mem_cons_self, rfl, ?_⟩
        exact if_pos ⟨hcampaign, hm hcampaign ▸ hactive⟩
    · obtain ⟨e, he, hpass⟩ := h.passed hv hc hid hne
      exact ⟨e, List.mem_cons_of_mem _ he, hpass⟩
  nodup := slots_nodup
  stored := h.stored_exec hsync ht hpermits hexec
  bound := h.bound_exec hsync ht hpermits hexec

end Exec

theorem Gated.idle {cfg cfg' : View} (h : Gated id m cfg) (hidle : Idle cfg cfg') :
    Gated id m cfg' := by
  obtain ⟨clock, hshared⟩ := hidle.shared
  constructor
  · intro u op c campaign b hu
    rcases hidle.view hu with hl | ⟨b', hu⟩
    · cases hl
    · exact h.gating hu
  · intro u op l b c hu hc
    rw [hidle.log]
    rcases hidle.view hu with rfl | ⟨b', hu⟩
    · cases hc
    · exact h.passed hu hc
  · exact slots_nodup
  · rw [hidle.log, hshared]
    exact h.stored
  · rw [hidle.log]
    exact h.bound

/-- With a fixed limit, the calls of a campaign that are past the gate and still
in flight are at most as many as the limit allows, and no dispatcher gets a call
of the campaign past the gate in any other way. -/
theorem slots_le_maxConcurrency (hm : 1 ≤ m)
    (h : (controlPlane platform).Reach (fun σ _ => fixedConcurrency id m σ) (Pool.init s₀) σ) :
    (slots id m σ.log).length ≤ m ∧
      ∀ t op l b c, (view σ).view t = some ⟨op, l, b⟩ → l.pastGate = some c →
        c.campaignID = id → c.campaignID ≠ "" →
        ∃ e ∈ σ.log, e.tid = t ∧ e.cmd.gatePass id m e.resp = some c.id := by
  have hgated : Gated id m (view σ) := by
    refine invariant .init ?_ (fun _ _ hgated hidle => hgated.idle hidle) ?_ h
    · refine ⟨nofun, nofun, .nil, nofun, ?_⟩
      change ((0 : ℕ) : Int) ≤ m
      omega
    · intro ρ t o op l cmd r w hreach hfixed hgated _ ht hpermits hexec
      refine hgated.exec (synced hreach) (fun campaign hmem hid => ?_) ht hpermits hexec
      have := List.all_eq_true.1 hfixed campaign hmem
      simpa [hid] using this
  exact ⟨hgated.bound, fun t op l b c => hgated.passed⟩

theorem slots_le_maxConcurrency_sample :
    ∃ σ, (controlPlane Sample.platform).Reach
        (fun σ _ => fixedConcurrency "campaign_1" 1 σ) (Pool.init Sample.world) σ ∧
      slots "campaign_1" 1 σ.log = ["call_a"] ∧ ((slots "campaign_1" 1 σ.log).length : Int) ≤ 1 := by
  have hrun : ((controlPlane Sample.platform).runWhere
      (fun σ _ => fixedConcurrency "campaign_1" 1 σ) Sample.gateRun (Pool.init Sample.world)).any
        fun σ => slots "campaign_1" 1 σ.log = ["call_a"] := by
    decide +kernel
  obtain ⟨σ, hσ, hslots⟩ := System.Reach.exists_of_any hrun
  exact ⟨σ, hσ, of_decide_eq_true hslots, (slots_le_maxConcurrency (by decide) hσ).1⟩

end ControlPlane

end Stylme
