-- SUMMARY: No call is dialed more often than its attempt limit allows, and deferrals give the claim's attempt back.
import Stylme.Service.Claims

/-!
# The dial bound

A claim adds one to the attempt counter of a call, a deferral takes it back, and
a failed dispatch compares it with the limit. In between, the dispatcher that
holds the call dials it at most once, so the dials of a call never outnumber
its attempts.
-/

namespace Stylme

open Conc

/-- The call a command dials. -/
def Cmd.dialed : Cmd → Option String
  | .dispatchOutbound call _ => some call.id
  | _ => none

/-- How often a call has been dialed. -/
def dials (callID : String) (log : List (Entry Cmd Resp World)) : ℕ :=
  log.countP (·.cmd.dialed = some callID)

/-- The attempts of a call stay within its limit, and below it while the call waits. -/
structure Call.WithinLimit (c : Call) : Prop where
  nonneg : 0 ≤ c.attempt
  le : c.attempt ≤ max 1 c.maxAttempts
  pending : c.status = .pending → c.attempt < max 1 c.maxAttempts

/-- The call a dispatcher holds and has not dialed since it holds it. -/
def Phase.undialed : Phase → Option Call
  | owned c | gating c _ | cancelling c | cleared c | dialing c => some c
  | _ => none

/-- The call a dispatcher has claimed and whose campaign it is looking at. -/
def Phase.gated : Phase → Option Call
  | owned c | gating c _ => some c
  | _ => none

theorem Phase.held_of_undialed {l : Phase} {c : Call} (h : l.undialed = some c) :
    l.held = some c := by
  cases l <;> simp_all [undialed, held]

@[simp] theorem dials_nil {callID : String} : dials callID [] = 0 := rfl

theorem dials_cons {callID : String} {t : ℕ} {cmd : Cmd} {r : Resp cmd} {w : World}
    {log : List (Entry Cmd Resp World)} :
    dials callID (⟨t, cmd, r, w⟩ :: log) =
      dials callID log + if cmd.dialed = some callID then 1 else 0 := by
  simp [dials, List.countP_cons]

namespace Call.WithinLimit

variable {c : Call}

/-- A call that starts with its first attempt. -/
theorem first (hattempt : c.attempt = 1) (hstatus : c.status ≠ .pending) : c.WithinLimit :=
  ⟨by omega, by omega, fun h => absurd h hstatus⟩

theorem claimed {now : Time} {lease : Duration} (h : c.WithinLimit) (hclaim : c.claimable now) :
    (c.claimed now lease).WithinLimit := by
  simp only [claimable, decide_eq_true_eq] at hclaim
  have hlt := h.pending hclaim.1
  exact ⟨by have := h.nonneg; simp only [Call.claimed]; omega, by simp only [Call.claimed]; omega, fun h => by cases h⟩

theorem deferred {scheduledAt now : Time} (h : c.WithinLimit) (hpos : 0 < c.attempt) :
    (c.deferred scheduledAt now).WithinLimit := by
  have hle := h.le
  refine ⟨?_, ?_, fun _ => ?_⟩ <;> simp only [Call.deferred, if_pos hpos] <;> omega

theorem dispatchFailed {cause : Err} {now : Time} (h : c.WithinLimit) :
    (c.dispatchFailed cause now).WithinLimit := by
  unfold Call.dispatchFailed
  split
  · rename_i hlt
    have hbelow : c.attempt < max 1 c.maxAttempts := by omega
    exact ⟨h.nonneg, h.le, fun _ => hbelow⟩
  · exact ⟨h.nonneg, h.le, fun h => by cases h⟩

end Call.WithinLimit

theorem Call.dispatchFailed_attempt {c : Call} {cause : Err} {now : Time} :
    (c.dispatchFailed cause now).attempt = c.attempt := by
  unfold Call.dispatchFailed
  split <;> rfl

namespace Op

variable {op : Op} {l : Phase} {cmd : Cmd} {r : Resp cmd}

/-- Only the call a dispatcher is about to dial is dialed. -/
theorem permits_dialed {callID : String} (hpermits : op.permits l cmd)
    (h : cmd.dialed = some callID) : ∃ c, l = .dialing c ∧ c.id = callID := by
  unfold Cmd.dialed at h
  split at h
  · cases l with
    | dialing c =>
      obtain rfl := hpermits
      exact ⟨_, rfl, Option.some.inj h⟩
    | _ => exact hpermits.elim
  · cases h

/-- A call is undialed when its dispatcher gets hold of it, and until it dials. -/
theorem next_undialed {c : Call} (hpermits : op.permits l cmd)
    (h : (op.next l cmd r).undialed = some c) :
    (l.undialed = some c ∧ cmd.dialed = none) ∨
      (∃ now lease, (⟨cmd, r⟩ : Σ c, Resp c) = ⟨.claimPendingCall now lease, .ok c⟩) ∨
      (cmd = .saveCall c ∧ c.attempt = 1 ∧ ∃ ids, l = .start ids ∧ c.id ∈ ids) := by
  rcases next_held hpermits (Phase.held_of_undialed h) with ⟨hheld, hw⟩ |
    ⟨hanswer, ⟨now, lease, rfl⟩ | ⟨rfl, ids, request, swarm, key, number, now, hl, hid, -, -, hx⟩⟩
  · left
    cases l with
    | dialing c₀ =>
      cases cmd with
      | dispatchOutbound call swarm => cases r <;> cases h
      | _ => exact hpermits.elim
    | owned c₀ | gating c₀ campaign | cancelling c₀ | cleared c₀ =>
      refine ⟨hheld, ?_⟩
      cases cmd with
      | dispatchOutbound call swarm => exact hpermits.elim
      | _ => rfl
    | answered c₀ room | failing c₀ =>
      cases cmd with
      | now => cases h
      | saveCall x => cases hw
      | _ => exact hpermits.elim
    | _ => cases hheld
  · cases r with
    | ok d =>
      obtain rfl := Option.some.inj hanswer
      exact .inr (.inl ⟨now, lease, rfl⟩)
    | error e => cases hanswer
  · exact .inr (.inr ⟨rfl, congrArg Call.attempt hx, ids, hl, hid⟩)

/-- A call comes to the gates by its claim. -/
theorem next_gated {c : Call} (h : (op.next l cmd r).gated = some c) :
    l.gated = some c ∨ ∃ now lease, (⟨cmd, r⟩ : Σ c, Resp c) = ⟨.claimPendingCall now lease, .ok c⟩ := by
  unfold next created at h
  split at h <;> try split at h
  all_goals first | exact .inl h | cases h
  exact .inr ⟨_, _, rfl⟩

end Op

namespace ControlPlane

/-- The dials of a call are among its attempts; an undialed call has one left. -/
structure Metered (cfg : View) : Prop where
  absent : ∀ {callID}, (∀ d ∈ cfg.shared.calls, d.id ≠ callID) → dials callID cfg.log = 0
  stored : ∀ d ∈ cfg.shared.calls, d.WithinLimit ∧ dials d.id cfg.log ≤ d.attempt
  undialed : ∀ {t op l b c}, cfg.view t = some ⟨op, l, b⟩ → l.undialed = some c →
    dials c.id cfg.log < c.attempt
  claimed : ∀ {t op l b c}, cfg.view t = some ⟨op, l, b⟩ → l.gated = some c →
    ∃ e ∈ cfg.log, e.tid = t ∧ ∃ (d : Call) (now : Time) (lease : Duration), c = d.claimed now lease ∧
      (⟨e.cmd, e.resp⟩ : Σ c, Resp c) = ⟨.claimPendingCall now lease, .ok c⟩

variable {platform : Platform DirectCallRequest} {s₀ : World} {σ : State}

section Exec

variable {cfg : View} {t : ℕ} {op : Op} {l : Phase} {cmd : Cmd} {r : Resp cmd} {o : Oracle} {w : World}

/-- What an operation writes is within its limit and counts every dial. -/
theorem Metered.written (h : Metered cfg) (hsync : Synced cfg) (hex : Exclusive cfg)
    (hop : ¬ op.writesBack) (ht : cfg.view t = some ⟨op, l, true⟩) {x : Call}
    (hpermits : op.permits l (.saveCall x)) : x.WithinLimit ∧ dials x.id cfg.log ≤ x.attempt := by
  have hheld : ∀ {c}, l.held = some c → c.WithinLimit ∧ dials c.id cfg.log ≤ c.attempt :=
    fun hc => h.stored _ (Collection.get_eq_some_iff.1 (hex.stored ht hc).1).1
  cases l with
  | start ids =>
    obtain ⟨hid, hx⟩ := hpermits
    rw [h.absent (hsync.fresh ht _ hid).2]
    rcases hx with ⟨request, swarm, key, number, now, -, -, hx⟩ |
      ⟨request, swarm, agentID, now, -, -, -, hx⟩ <;> rw [hx]
    · exact ⟨.first rfl nofun, Int.zero_le_ofNat 1⟩
    · exact ⟨.first rfl nofun, Int.zero_le_ofNat 1⟩
  | gating c campaign =>
    obtain ⟨scheduledAt, now, rfl⟩ := hpermits
    have hlt := h.undialed ht rfl
    refine ⟨(hheld rfl).1.deferred (by omega), ?_⟩
    simp only [Call.deferred]
    split <;> omega
  | cancelling c =>
    obtain ⟨reason, now, rfl⟩ := hpermits
    exact ⟨⟨(hheld rfl).1.nonneg, (hheld rfl).1.le, nofun⟩, (hheld rfl).2⟩
  | failing c =>
    obtain ⟨cause, now, rfl⟩ := hpermits
    rw [Call.dispatchFailed_id, Call.dispatchFailed_attempt]
    exact ⟨(hheld rfl).1.dispatchFailed, (hheld rfl).2⟩
  | answered c room =>
    obtain ⟨now, rfl⟩ := hpermits
    exact ⟨⟨(hheld rfl).1.nonneg, (hheld rfl).1.le, nofun⟩, (hheld rfl).2⟩
  | copied c => rcases hpermits with ⟨request, rfl, -⟩ | ⟨request, rfl, -⟩ <;> exact absurd rfl hop
  | _ => exact hpermits.elim

theorem Metered.absent_exec (h : Metered cfg) (hsync : Synced cfg)
    (ht : cfg.view t = some ⟨op, l, true⟩) (hpermits : op.permits l cmd)
    (hexec : cmd.exec o cfg.shared = some (r, w)) {callID : String}
    (habsent : ∀ d ∈ w.calls, d.id ≠ callID) :
    dials callID (⟨t, cmd, r, w⟩ :: cfg.log) = 0 := by
  have hbefore : ∀ d ∈ cfg.shared.calls, d.id ≠ callID := fun d hd hid =>
    let ⟨d', hd', hsame⟩ := hsync.persist ht hpermits hexec hd
    habsent d' hd' (hsame.id.symm.trans hid)
  rw [dials_cons, h.absent hbefore, if_neg]
  intro hdialed
  obtain ⟨c, rfl, hid⟩ := Op.permits_dialed hpermits hdialed
  obtain ⟨d, hd, hsame⟩ := hsync.copies ht rfl
  exact hbefore d hd (hsame.id.symm.trans hid)

theorem Metered.stored_exec (h : Metered cfg) (hsync : Synced cfg) (hex : Exclusive cfg)
    (hop : ¬ op.writesBack) (ht : cfg.view t = some ⟨op, l, true⟩) (hpermits : op.permits l cmd)
    (hexec : cmd.exec o cfg.shared = some (r, w)) :
    ∀ d ∈ w.calls, d.WithinLimit ∧ dials d.id (⟨t, cmd, r, w⟩ :: cfg.log) ≤ d.attempt := by
  intro d hd
  rw [dials_cons]
  rcases exec_mem hexec hd with hold | rfl | ⟨xs, rfl, hxs, hnew⟩ | ⟨now, lease, e, rfl, he, hclaim, rfl⟩
  · obtain ⟨hlimit, hcount⟩ := h.stored d hold
    refine ⟨hlimit, ?_⟩
    split
    · -- the dispatcher that dials holds this very document
      rename_i hdialed
      obtain ⟨c, rfl, hid⟩ := Op.permits_dialed hpermits hdialed
      have hget := (hex.stored ht rfl).1
      obtain rfl := Collection.eq_of_id_eq hold (Collection.get_eq_some_iff.1 hget).1 hid.symm
      have := h.undialed ht rfl
      omega
    · exact hcount
  · exact h.written hsync hex hop ht hpermits
  · rw [h.absent hnew]
    cases l with
    | start ids =>
      obtain ⟨-, target, campaign, swarm, now, hx⟩ := hpermits.2 d hxs
      rw [hx]
      have hlt : (0 : Int) < max 1 campaign.maxAttempts := by omega
      exact ⟨⟨Int.le_refl 0, Int.le_of_lt hlt, fun _ => hlt⟩, Int.le_refl 0⟩
    | _ => exact hpermits.elim
  · obtain ⟨hlimit, hcount⟩ := h.stored e he
    refine ⟨hlimit.claimed hclaim, ?_⟩
    simp only [Call.claimed, Cmd.dialed, reduceCtorEq, if_false]
    omega

theorem Metered.undialed_next (h : Metered cfg) (hsync : Synced cfg)
    (ht : cfg.view t = some ⟨op, l, true⟩) (hpermits : op.permits l cmd)
    (hexec : cmd.exec o cfg.shared = some (r, w)) {c : Call}
    (hc : (op.next l cmd r).undialed = some c) :
    dials c.id (⟨t, cmd, r, w⟩ :: cfg.log) < c.attempt := by
  rw [dials_cons]
  rcases Op.next_undialed hpermits hc with ⟨hkept, hdial⟩ | ⟨now, lease, heq⟩ |
    ⟨rfl, hattempt, ids, rfl, hid⟩
  · have := h.undialed ht hkept
    simp only [hdial, reduceCtorEq, if_false]
    omega
  · cases heq
    rcases exec_claimPendingCall hexec with ⟨-, e, he⟩ | ⟨d, calls, hd, -, -, -, hr | ⟨e, he⟩⟩
    · cases he
    · obtain rfl := Except.ok.inj hr
      have := (h.stored d hd).2
      simp only [Call.claimed, Cmd.dialed, reduceCtorEq, if_false]
      omega
    · cases he
  · rw [h.absent (hsync.fresh ht _ hid).2, hattempt]
    simp [Cmd.dialed]

theorem Metered.exec (h : Metered cfg) (hsync : Synced cfg) (hex : Exclusive cfg)
    (hop : ¬ op.writesBack) (ht : cfg.view t = some ⟨op, l, true⟩) (hpermits : op.permits l cmd)
    (hexec : cmd.exec o cfg.shared = some (r, w)) :
    Metered ⟨w, Function.update cfg.view t (some ⟨op, op.next l cmd r, true⟩),
      ⟨t, cmd, r, w⟩ :: cfg.log⟩ where
  absent := h.absent_exec hsync ht hpermits hexec
  stored := h.stored_exec hsync hex hop ht hpermits hexec
  undialed := by
    intro u op' l' b c hu hc
    rcases View.of_update hu with ⟨rfl, rfl, rfl, -⟩ | ⟨hut, hv⟩
    · exact h.undialed_next hsync ht hpermits hexec hc
    · have := h.undialed hv hc
      rw [dials_cons, if_neg]
      · omega
      · -- nobody else dials the call
        intro hdialed
        obtain ⟨c', rfl, hid⟩ := Op.permits_dialed hpermits hdialed
        exact hut (hex.unique hv ht (Phase.held_of_undialed hc) rfl hid.symm)
  claimed := by
    intro u op' l' b c hu hc
    rcases View.of_update hu with ⟨rfl, rfl, rfl, -⟩ | ⟨hut, hv⟩
    · rcases Op.next_gated hc with hkept | ⟨now, lease, heq⟩
      · obtain ⟨e, he, hclaim⟩ := h.claimed ht hkept
        exact ⟨e, List.mem_cons_of_mem _ he, hclaim⟩
      · cases heq
        refine ⟨_, List.mem_cons_self, rfl, ?_⟩
        rcases exec_claimPendingCall hexec with ⟨-, e, he⟩ | ⟨d, calls, -, -, -, -, hr | ⟨e, he⟩⟩
        · cases he
        · exact ⟨d, now, lease, Except.ok.inj hr, rfl⟩
        · cases he
    · obtain ⟨e, he, hclaim⟩ := h.claimed hv hc
      exact ⟨e, List.mem_cons_of_mem _ he, hclaim⟩

end Exec

theorem Metered.idle {cfg cfg' : View} (h : Metered cfg) (hidle : Idle cfg cfg') : Metered cfg' := by
  obtain ⟨clock, hshared⟩ := hidle.shared
  constructor
  · rw [hshared, hidle.log]
    exact h.absent
  · rw [hshared, hidle.log]
    exact h.stored
  · intro u op l b c hu hc
    rw [hidle.log]
    rcases hidle.view hu with rfl | ⟨b', hu⟩
    · cases hc
    · exact h.undialed hu hc
  · intro u op l b c hu hc
    rw [hidle.log]
    rcases hidle.view hu with rfl | ⟨b', hu⟩
    · cases hc
    · exact h.claimed hu hc

/-- The step starts nothing that writes back a call it has merely read. -/
def dispatches : Step → Bool
  | .spawn _ op => ¬ op.writesBack
  | _ => true

theorem metered (h₀ : ∀ d ∈ s₀.calls, d.WithinLimit)
    (h : (controlPlane platform).Reach (fun _ l => dispatches l) (Pool.init s₀) σ) :
    Metered (view σ) := by
  have hspawn : ∀ (_ : State) t op, dispatches (.spawn t op) → ¬ op.writesBack :=
    fun _ _ _ hop => of_decide_eq_true hop
  refine invariant .init ⟨fun _ => rfl, fun d hd => ⟨h₀ d hd, (h₀ d hd).nonneg⟩, nofun, nofun⟩
    (fun _ _ hmetered hidle => hmetered.idle hidle) ?_ h
  intro ρ t o op l cmd r w hreach _ hmetered _ ht hpermits hexec
  exact hmetered.exec (synced hreach) (exclusive hspawn hreach) (op_of_view hspawn hreach ht) ht
    hpermits hexec

/-- From a store of calls within their limits, through any run of dispatchers
and of whatever creates calls: a call is dialed at most as often as its limit
allows; it is below the limit while it is pending; and what a deferral writes
has the attempts the call had before its claim. -/
theorem dials_le_maxAttempts (h₀ : ∀ d ∈ s₀.calls, d.WithinLimit)
    (h : (controlPlane platform).Reach (fun _ l => dispatches l) (Pool.init s₀) σ) :
    (∀ d ∈ σ.shared.calls, dials d.id σ.log ≤ max 1 d.maxAttempts ∧
      (d.status = .pending → d.attempt < max 1 d.maxAttempts)) ∧
    ∀ t op c campaign x, (view σ).view t = some ⟨op, .gating c campaign, true⟩ →
      σ.next t = some (op, .saveCall x) →
      ∃ e ∈ σ.log, e.tid = t ∧ ∃ (d : Call) (now : Time) (lease : Duration),
        (⟨e.cmd, e.resp⟩ : Σ c, Resp c) = ⟨.claimPendingCall now lease, .ok (d.claimed now lease)⟩ ∧
          x.id = d.id ∧ x.attempt = d.attempt := by
  have hmetered := metered h₀ h
  constructor
  · intro d hd
    obtain ⟨hlimit, hcount⟩ := hmetered.stored d hd
    exact ⟨Int.le_trans hcount hlimit.le, hlimit.pending⟩
  · intro t op c campaign x ht hnext
    obtain ⟨l, hl, hpermits⟩ := (conforming_of_init h).permits hnext
    obtain rfl := (View.mk.inj (Option.some.inj (hl.symm.trans ht))).2.1
    obtain ⟨scheduledAt, now, rfl⟩ := hpermits
    obtain ⟨e, he, htid, d, now', lease, rfl, heq⟩ := hmetered.claimed ht rfl
    refine ⟨e, he, htid, d, now', lease, heq, rfl, ?_⟩
    have hlt := hmetered.undialed ht rfl
    have hpos : 0 < (d.claimed now' lease).attempt := by omega
    simp only [Call.deferred, if_pos hpos]
    simp only [Call.claimed]
    omega

/-- The thread is about to save the call it deferred at the gate. -/
def defers (σ : State) (t : ℕ) : Bool :=
  match σ.next t, (view σ).view t with
  | some (.dispatchOne, .saveCall _), some ⟨.dispatchOne, .gating _ _, true⟩ => true
  | _, _ => false

theorem dials_le_maxAttempts_sample :
    ∃ (σ : State) (d x : Call),
      (controlPlane Sample.platform).Reach (fun _ l => dispatches l) (Pool.init Sample.world) σ ∧
      dials d.id σ.log = 1 ∧ (dials d.id σ.log : Int) ≤ max 1 d.maxAttempts ∧
      σ.next 2 = some (.dispatchOne, .saveCall x) ∧ ∃ e ∈ σ.log, e.tid = 2 ∧
        ∃ (d : Call) (now : Time) (lease : Duration), (⟨e.cmd, e.resp⟩ : Σ c, Resp c) =
          ⟨.claimPendingCall now lease, .ok (d.claimed now lease)⟩ ∧ x.id = d.id ∧
            x.attempt = d.attempt := by
  have hrun : ((controlPlane Sample.platform).runWhere (fun _ l => dispatches l) Sample.gateRun
      (Pool.init Sample.world)).any fun σ =>
        σ.shared.calls.docs.any (fun d => dials d.id σ.log = 1) && defers σ 2 := by
    decide +kernel
  obtain ⟨σ, hσ, hσc⟩ := System.Reach.exists_of_any hrun
  simp only [Bool.and_eq_true, List.any_eq_true, decide_eq_true_eq] at hσc
  obtain ⟨⟨d, hd, hdials⟩, hdefers⟩ := hσc
  unfold defers at hdefers
  split at hdefers
  · rename_i x c campaign hnext hview
    have h := dials_le_maxAttempts (fun d hd => absurd hd Collection.not_mem_empty) hσ
    exact ⟨σ, d, x, hσ, hdials, (h.1 d hd).1, hnext, h.2 2 _ c campaign x hview hnext⟩
  · cases hdefers

end ControlPlane

end Stylme
