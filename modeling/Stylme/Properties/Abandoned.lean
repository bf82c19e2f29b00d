-- SUMMARY: A dispatching call that no worker processes is never claimed again, and the steps that leave no such call behind.
import Stylme.Service.Claims

/-!
# Abandoned calls

A claim writes a lease, but `ClaimPendingCall` looks for pending calls only, so a
call whose worker is gone stays dispatching when its lease runs out. The calls
of a run are all attended when no worker stops while it holds a call, every held
call is written back, and no call is taken without an answer.
-/

namespace Stylme

open Conc

namespace Op

variable {op : Op} {l : Phase} {cmd : Cmd} {r : Resp cmd} {c : Call}

/-- A held call stays held until it is written. -/
theorem held_next (hc : l.held = some c) (hw : cmd.writesCalls = false) :
    (op.next l cmd r).held = some c := by
  unfold next
  split <;> try split
  all_goals first | exact hc | cases hw

/-- The write of a held call takes it out of dispatching. -/
theorem permits_saveCall_held {x : Call} (hc : l.held = some c) (h : op.permits l (.saveCall x)) :
    x.SameCall c ∧ x.status ≠ .dispatching := by
  refine ⟨?_, ?_⟩
  · rcases permits_saveCall h with ⟨c', hc', hx⟩ | ⟨ids, rfl, -⟩
    · rw [Phase.call_eq_of_held hc, Option.some.injEq] at hc'
      exact hc' ▸ hx
    · cases hc
  · cases l with
    | gating c₀ campaign =>
      obtain ⟨scheduledAt, now, rfl⟩ := h
      exact nofun
    | cancelling c₀ =>
      obtain ⟨reason, now, rfl⟩ := h
      exact nofun
    | failing c₀ =>
      obtain ⟨cause, now, rfl⟩ := h
      unfold Call.dispatchFailed
      split <;> exact nofun
    | answered c₀ room =>
      obtain ⟨now, rfl⟩ := h
      exact nofun
    | start ids => cases hc
    | copied c₀ => cases hc
    | _ => exact h.elim

end Op

namespace ControlPlane

/-- A live worker holds the call. -/
def processing (σ : State) (callID : String) : Prop :=
  ∃ t op l c, (view σ).view t = some ⟨op, l, true⟩ ∧ l.held = some c ∧ c.id = callID

/-- A dispatching call whose lease has run out and that no worker processes can
be claimed again. -/
def reclaims (σ : State) : Prop :=
  ∀ d ∈ σ.shared.calls, d.status = .dispatching → d.leaseUntil.all (· ≤ σ.shared.clock) →
    ¬ processing σ d.id → d.claimable σ.shared.clock

/-- A step of `ScheduleCampaign`, `DispatchOne` or `TriggerCall`, a crash, or time. -/
def queues : Step → Bool
  | .spawn _ (.scheduleCampaign _ _ _) | .spawn _ (.triggerCall _) | .spawn _ .dispatchOne => true
  | .spawn _ _ => false
  | _ => true

/-- The step leaves no call without a worker: nobody stops while holding a call,
the write of a held call reaches the store, and a call that is taken or created
is handed to its worker. -/
def attends (σ : State) : Step → Bool
  | .crash t => ((view σ).view t).all fun v => v.phase.held.isNone
  | .exec t o =>
    match σ.next t, (view σ).view t with
    | some (_, .saveCall x), some v =>
      if v.phase.held.isSome then ¬ o.fault.isLost
      else ¬ o.fault.isUnacked ∨ (σ.shared.calls.replaceOne x).isNone
    | some (_, .claimPendingCall now _), _ =>
      ¬ o.fault.isUnacked ∨ σ.shared.calls.docs.all (¬ ·.claimable now)
    | _, _ => true
  | _ => true

variable {platform : Platform DirectCallRequest} {s₀ : World} {σ : State}

theorem not_writesBack_of_queues {t : ℕ} {op : Op} (h : queues (.spawn t op)) : ¬ op.writesBack := by
  cases op <;> first | exact absurd h Bool.false_ne_true | exact Bool.false_ne_true

/-- Every dispatching call is held by a live worker. -/
def Attended (cfg : View) : Prop :=
  ∀ d ∈ cfg.shared.calls, d.status = .dispatching →
    ∃ t op l c, cfg.view t = some ⟨op, l, true⟩ ∧ l.held = some c ∧ c.id = d.id

section Exec

variable {t : ℕ} {op : Op} {l : Phase} {cmd : Cmd} {r : Resp cmd} {o : Oracle} {w : World}

/-- A stored call that was attended is attended after the command, or no longer dispatching. -/
theorem Attended.kept (h : Attended (view σ)) (hsync : Synced (view σ))
    (hattends : attends σ (.exec t o)) (hnext : σ.next t = some (op, cmd))
    (ht : (view σ).view t = some ⟨op, l, true⟩) (hpermits : op.permits l cmd)
    (hexec : cmd.exec o σ.shared = some (r, w)) {d : Call} (hold : d ∈ σ.shared.calls)
    (hd : d ∈ w.calls) (hstatus : d.status = .dispatching) :
    ∃ u op' l' c, Function.update (view σ).view t (some ⟨op, op.next l cmd r, true⟩) u =
      some ⟨op', l', true⟩ ∧ l'.held = some c ∧ c.id = d.id := by
  obtain ⟨u, op', l', c, hu, hc, hid⟩ := h d hold hstatus
  by_cases hut : u = t
  · subst hut
    obtain ⟨rfl, rfl, -⟩ := View.mk.inj (Option.some.inj (hu.symm.trans ht))
    cases hw : cmd.writesCalls with
    | false => exact ⟨u, _, _, c, Function.update_self .., Op.held_next hc hw, hid⟩
    | true =>
      exfalso
      cases cmd with
      | saveCall x =>
        -- the write of the held call reaches the store
        obtain ⟨hsame, hx⟩ := Op.permits_saveCall_held hc hpermits
        obtain ⟨d₀, hd₀, hcd⟩ := hsync.copies ht (Phase.call_eq_of_held hc)
        have hxd := hsame.trans hcd
        obtain ⟨calls, hcalls⟩ := Collection.replaceOne_of_mem hd₀ hxd.id hxd.idempotencyKey
        simp only [attends, hnext, ht, hc, Option.isSome_some, if_true, decide_eq_true_eq] at hattends
        obtain rfl := exec_saveCall_applied hattends hcalls hexec
        obtain rfl := Collection.eq_of_id_eq hd (Collection.self_mem_replaceOne hcalls)
          (hid.symm.trans hsame.id.symm)
        exact hx hstatus
      | insertCalls xs =>
        cases l' with
        | start ids => cases hc
        | _ => exact hpermits.elim
      | claimPendingCall now lease =>
        cases l' with
        | start ids => cases hc
        | _ => exact hpermits.elim
      | _ => cases hw
  · exact ⟨u, op', l', c, by rw [Function.update_of_ne hut]; exact hu, hc, hid⟩

theorem Attended.exec (h : Attended (view σ)) (hsync : Synced (view σ)) (hop : ¬ op.writesBack)
    (hattends : attends σ (.exec t o)) (hnext : σ.next t = some (op, cmd))
    (ht : (view σ).view t = some ⟨op, l, true⟩) (hpermits : op.permits l cmd)
    (hexec : cmd.exec o σ.shared = some (r, w)) :
    Attended ⟨w, Function.update (view σ).view t (some ⟨op, op.next l cmd r, true⟩),
      ⟨t, cmd, r, w⟩ :: σ.log⟩ := by
  intro d hd hstatus
  have hkept := fun hold => h.kept hsync hattends hnext ht hpermits hexec hold hd hstatus
  rcases exec_mem hexec hd with hold | rfl | ⟨xs, rfl, hxs, -⟩ | ⟨now, lease, e, rfl, -, -, rfl⟩
  · exact hkept hold
  · -- a new direct call is handed to the thread that created it
    cases hheld : l.held with
    | some c => exact absurd hstatus (Op.permits_saveCall_held hheld hpermits).2
    | none =>
      cases l with
      | start ids =>
        obtain ⟨hid, ⟨request, swarm, key, number, now, rfl, -, -⟩ |
          ⟨request, swarm, agentID, now, -, -, -, hx⟩⟩ := hpermits
        · cases r with
          | ok u => exact ⟨t, _, _, d, Function.update_self .., rfl, rfl⟩
          | error e =>
            simp only [attends, hnext, ht, Phase.held, Option.isSome_none, Bool.false_eq_true,
              if_false, Option.isNone_iff_eq_none, decide_eq_true_eq] at hattends
            obtain rfl := exec_saveCall_error hattends hexec
            exact hkept hd
        · rw [hx] at hstatus
          cases hstatus
      | copied c => rcases hpermits with ⟨request, rfl, -⟩ | ⟨request, rfl, -⟩ <;> exact absurd rfl hop
      | _ => first | exact hpermits.elim | cases hheld
  · cases l with
    | start ids =>
      obtain ⟨-, target, campaign, swarm, now, hx⟩ := hpermits.2 d hxs
      rw [hx] at hstatus
      cases hstatus
    | _ => exact hpermits.elim
  · cases l with
    | start ids =>
      rcases exec_claimPendingCall hexec with ⟨rfl, -⟩ | ⟨c, calls, -, -, hcalls, rfl, rfl | ⟨err, rfl⟩⟩
      · exact hkept hd
      · rcases (Collection.mem_replaceOne hcalls).1 hd with heq | ⟨hold, -⟩
        · exact ⟨t, _, _, c.claimed now lease, Function.update_self .., rfl, congrArg Call.id heq.symm⟩
        · exact hkept hold
      · have hnone : ¬ o.fault.isUnacked ∨ ∀ c ∈ σ.shared.calls, ¬ c.claimable now := by
          simp only [attends, hnext, ht, List.all_eq_true, decide_eq_true_eq] at hattends
          exact hattends
        rw [exec_claimPendingCall_error hnone hexec] at hd
        exact hkept hd
    | _ => exact hpermits.elim

end Exec

theorem attended (h₀ : ∀ d ∈ s₀.calls, d.status ≠ .dispatching)
    (h : (controlPlane platform).Reach (fun σ l => queues l && attends σ l) (Pool.init s₀) σ) :
    Attended (view σ) := by
  have hspawn : ∀ (σ : State) t op, (queues (.spawn t op) && attends σ (.spawn t op)) →
      ¬ op.writesBack :=
    fun _ _ _ hok => not_writesBack_of_queues ((Bool.and_eq_true _ _).mp hok).1
  refine h.invariant (Op.conforms platform) .init (fun d hd hs => absurd hs (h₀ d hd)) ?_
  intro ρ l cfg hreach hok hI hstep
  have hattends := ((Bool.and_eq_true _ _).mp hok).2
  cases hstep with
  | @spawn t op ht =>
    intro d hd hstatus
    obtain ⟨u, op', l', c, hu, hc, hid⟩ := hI d hd hstatus
    have hut : u ≠ t := fun hut => by rw [hut, ht] at hu; cases hu
    exact ⟨u, op', l', c, (Function.update_of_ne hut ..).trans hu, hc, hid⟩
  | @exec t o op ph cmd r w hnext ht hpermits hexec =>
    exact Attended.exec hI (synced hreach) (op_of_view hspawn hreach ht) hattends hnext ht
      hpermits hexec
  | @crash t op ph b ht =>
    intro d hd hstatus
    obtain ⟨u, op', l', c, hu, hc, hid⟩ := hI d hd hstatus
    have hut : u ≠ t := by
      rintro rfl
      obtain ⟨rfl, rfl, rfl⟩ := View.mk.inj (Option.some.inj (hu.symm.trans ht))
      simp only [attends, hu, Option.all_some, hc] at hattends
      cases hattends
    exact ⟨u, op', l', c, (Function.update_of_ne hut ..).trans hu, hc, hid⟩
  | env => exact hI

/-- In a run whose steps leave no call without a worker, every dispatching call is
being processed, so no call is stuck. -/
theorem reclaims_of_attends (h₀ : ∀ d ∈ s₀.calls, d.status ≠ .dispatching)
    (h : (controlPlane platform).Reach (fun σ l => queues l && attends σ l) (Pool.init s₀) σ) :
    reclaims σ ∧ ∀ d ∈ σ.shared.calls, d.status = .dispatching → processing σ d.id := by
  have hattended := attended h₀ h
  exact ⟨fun d hd hstatus _ hprocessing => absurd (hattended d hd hstatus) hprocessing,
    fun d hd hstatus => hattended d hd hstatus⟩

end ControlPlane

namespace Sample

/-- One scheduled call, and a dispatcher that stops right after its claim. -/
def claimRun : List ControlPlane.Step :=
  [.spawn 0 (.scheduleCampaign "campaign_1" [target] "")] ++ execs 0 3 ++
    [.exec 0 { random := "a" }] ++ execs 0 2 ++ [.spawn 1 .dispatchOne] ++ execs 1 2

end Sample

namespace ControlPlane

theorem reclaims_of_attends_sample :
    ∃ (σ : State) (d : Call),
      (controlPlane Sample.platform).Reach (fun σ l => queues l && attends σ l)
        (Pool.init Sample.world) σ ∧
      d ∈ σ.shared.calls ∧ d.status = .dispatching ∧ processing σ d.id ∧ reclaims σ := by
  have hrun : ((controlPlane Sample.platform).runWhere (fun σ l => queues l && attends σ l)
      Sample.claimRun (Pool.init Sample.world)).any fun σ =>
        σ.shared.calls.docs.any (·.status = .dispatching) := by
    decide +kernel
  obtain ⟨σ, hσ, hσd⟩ := System.Reach.exists_of_any hrun
  simp only [List.any_eq_true, decide_eq_true_eq] at hσd
  obtain ⟨d, hd, hstatus⟩ := hσd
  have h := reclaims_of_attends (fun d hd => absurd hd Collection.not_mem_empty) hσ
  exact ⟨σ, d, hσ, hd, hstatus, h.2 d hd hstatus, h.1⟩

/-- A call whose dispatcher stopped after the claim is stuck when its lease has run out. -/
theorem not_reclaims :
    ¬ ∀ (s₀ : World) (σ : State), (∀ d ∈ s₀.calls, d.status ≠ .dispatching) →
      (controlPlane Sample.platform).Reach (fun _ l => queues l) (Pool.init s₀) σ → reclaims σ := by
  intro h
  have hrun : ((controlPlane Sample.platform).runWhere (fun _ l => queues l)
      (Sample.claimRun ++ [.crash 1, .env (90 * second)]) (Pool.init Sample.world)).any fun σ =>
        σ.shared.calls.docs.any (fun d => d.status = .dispatching ∧
          d.leaseUntil.all (· ≤ σ.shared.clock) ∧ ((view σ).view 1).any fun v =>
            ¬ v.alive ∧ v.phase.held.any (·.id = d.id)) := by
    decide +kernel
  obtain ⟨σ, hσ, hσd⟩ := System.Reach.exists_of_any hrun
  simp only [List.any_eq_true, decide_eq_true_eq, Option.any_eq_true] at hσd
  obtain ⟨d, hd, hstatus, hlease, ⟨op, l, alive⟩, hview, halive, c, hc, hid⟩ := hσd
  -- the stopped dispatcher is the only one that holds the call
  have hidle : ¬ processing σ d.id := by
    rintro ⟨u, op', l', c', hu, hc', hid'⟩
    obtain rfl := (exclusive (fun _ _ _ => not_writesBack_of_queues) hσ).unique hu hview hc' hc (hid'.trans hid.symm)
    exact halive (View.mk.inj (Option.some.inj (hview.symm.trans hu))).2.2
  have hclaim := h _ σ (fun d hd => absurd hd Collection.not_mem_empty) hσ d hd hstatus hlease hidle
  simp only [Call.claimable, hstatus, decide_eq_true_eq, reduceCtorEq, false_and] at hclaim

end ControlPlane

end Stylme
