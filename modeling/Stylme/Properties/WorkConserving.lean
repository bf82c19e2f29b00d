-- SUMMARY: A batch that stops early leaves no due call behind, exactly when it never refuses a call while another one is due.
import Stylme.Service.Sequential

/-!
# Work conservation of a batch

`DispatchBatch` stops when `DispatchOne` answers `ErrNotFound`. That is the
answer when nothing is due, but also when the claimed call is put back or
cancelled by a gate of its campaign, and when its campaign or swarm is missing.
A refused call at the head of the due queue therefore hides whatever is due
behind it.
-/

namespace Stylme

open Conc

variable {Request : Type} (platform : Platform Request)

/-! ## Refused calls -/

namespace Call

/-- What is written instead of dialling when the swarm of the claimed copy is missing. -/
def unroutable (w : World) (c : Call) : Option Call :=
  match w.swarms.get c.swarmID with
  | some _ => none
  | none => some (c.dispatchFailed .notFound w.clock)

/-- What is written instead of dialling the claimed copy `c`; nothing when all gates are open. -/
def refusal (w : World) (c : Call) : Option Call :=
  if c.campaignID = "" then c.unroutable w
  else
    match w.campaigns.get c.campaignID with
    | none => some (c.dispatchFailed .notFound w.clock)
    | some campaign =>
      if campaign.status = "completed" ∨ campaign.status = "cancelled" then
        some (c.cancelled ("campaign is " ++ campaign.status) w.clock)
      else if campaign.status = "running" then
        if ¬ withinCallingWindow platform campaign.callingWindow w.clock then
          some (c.deferred (nextCallingWindow platform campaign.callingWindow w.clock) w.clock)
        else if campaign.maxConcurrency ≤ w.calls.count (·.countsFor campaign.id c.id) then
          some (c.deferred (w.clock + 30 * second) w.clock)
        else c.unroutable w
      else some (c.deferred (w.clock + minute) w.clock)

/-- The copy `DispatchOne` works on. -/
abbrev taken (c : Call) (w : World) : Call := c.claimed w.clock (90 * second)

end Call

namespace World

/-- The call is due and none that is due was scheduled before it. -/
structure Head (w : World) (c : Call) : Prop where
  mem : c ∈ w.calls
  due : c.claimable w.clock
  first : ∀ d ∈ w.calls, d.claimable w.clock → c.scheduledAt ≤ d.scheduledAt

/-- The world after `c` was claimed. -/
def claim (w : World) (c : Call) : World :=
  match w.calls.replaceOne (c.taken w) with
  | some calls => { w with calls }
  | none => w

/-- Nothing is due. -/
def Drained (w : World) : Prop := ∀ c ∈ w.calls, ¬ c.claimable w.clock

/-- A call at the head of the due queue is dialled, or it is the only one that is
due and is not due again after it was refused. -/
def Clear (w : World) : Prop :=
  ∀ c x, w.Head c → (c.taken w).refusal platform (w.claim c) = some x →
    (∀ d ∈ w.calls, d.claimable w.clock → d = c) ∧ ¬ x.claimable w.clock

/-- Starting from `w`, `DispatchOne` may handle `n` calls in a row and leave `v`. -/
inductive Dispatched (w : World) : ℕ → World → Prop where
  | none : Dispatched w 0 w
  | one {n v v'} : Dispatched w n v → (dispatchOne platform).Ends Cmd.exec v none v' →
      Dispatched w (n + 1) v'

/-- Whatever the answers, a batch that stops without an error before it has
handled as many calls as it may leaves nothing due. -/
def WorkConserving (w : World) (limit : Int) : Prop :=
  ∀ n w', (dispatchBatch platform limit).Ends Cmd.exec w (n, none) w' → n < batchLimit limit →
    w'.Drained

variable {platform} {w w' : World} {c x : Call}

/-! ## Claims -/

theorem Head.exists_claim (h : w.Head c) :
    ∃ calls, w.calls.replaceOne (c.taken w) = some calls ∧ w.claim c = { w with calls } := by
  obtain ⟨calls, hcalls⟩ := Collection.replaceOne_of_mem h.mem (d := c.taken w) rfl rfl
  exact ⟨calls, hcalls, by rw [claim, hcalls]⟩

@[simp] theorem claim_clock : (w.claim c).clock = w.clock := by
  unfold claim
  split <;> rfl

/-- After a claim there is the copy, and every other call. -/
theorem Head.mem_claim (h : w.Head c) {d : Call} :
    d ∈ (w.claim c).calls ↔ d = c.taken w ∨ (d ∈ w.calls ∧ d.id ≠ c.id) := by
  obtain ⟨calls, hcalls, heq⟩ := h.exists_claim
  rw [heq]
  exact Collection.mem_replaceOne hcalls

theorem taken_not_claimable : ¬ (c.taken w).claimable w.clock := by
  simp [Call.claimable, Call.claimed]

/-- A head is what the query for one returns when asked to pick it. -/
theorem Head.exists_pick (h : w.Head c) :
    ∃ pick, findOneSorted (fun a b => a.scheduledAt ≤ b.scheduledAt) pick
      (w.calls.docs.filter (·.claimable w.clock)) = some c := by
  have hmem : c ∈ (w.calls.docs.filter (·.claimable w.clock)).filter fun a =>
      (w.calls.docs.filter (·.claimable w.clock)).all (a.scheduledAt ≤ ·.scheduledAt) := by
    refine List.mem_filter.2 ⟨List.mem_filter.2 ⟨h.mem, h.due⟩, List.all_eq_true.2 fun d hd => ?_⟩
    obtain ⟨hd, hdue⟩ := List.mem_filter.1 hd
    exact decide_eq_true (h.first d hd hdue)
  obtain ⟨pick, hpick, hget⟩ := List.getElem_of_mem hmem
  refine ⟨pick, ?_⟩
  rw [findOneSorted, Nat.mod_eq_of_lt hpick, List.getElem?_eq_getElem hpick, hget]

theorem head_of_findOneSorted {pick : ℕ}
    (h : findOneSorted (fun a b => a.scheduledAt ≤ b.scheduledAt) pick
      (w.calls.docs.filter (·.claimable w.clock)) = some c) : w.Head c := by
  obtain ⟨hmem, hle⟩ := List.mem_filter.1 (List.mem_of_getElem? h)
  obtain ⟨hmem, hdue⟩ := List.mem_filter.1 hmem
  refine ⟨hmem, hdue, fun d hd hdue => ?_⟩
  exact of_decide_eq_true (List.all_eq_true.1 hle d (List.mem_filter.2 ⟨hd, hdue⟩))

/-! ## What is left behind -/

theorem Drained.saveCall {o : Oracle} {r : Except Err Unit} (h : w.Drained)
    (hx : ¬ x.claimable w.clock) (hexec : Cmd.exec (.saveCall x) o w = some (r, w')) : w'.Drained := by
  rcases exec_saveCall hexec with ⟨rfl, -⟩ | ⟨calls, hcalls, rfl⟩
  · exact h
  · intro d hd
    rcases (Collection.mem_replaceOne hcalls).1 hd with rfl | ⟨hd, -⟩
    · exact hx
    · exact h d hd

theorem Drained.incrementCampaignCount {o : Oracle} {id key : String} {delta : Int}
    {r : Except Err Unit} (h : w.Drained)
    (hexec : Cmd.exec (.incrementCampaignCount id key delta) o w = some (r, w')) : w'.Drained := by
  rcases exec_incrementCampaignCount hexec with rfl | ⟨-, -, -, -, -, -, rfl⟩
  · exact h
  · exact h

/-- A call that was put back as `x` is the only one due, unless nothing else is. -/
theorem Drained.of_clear (h : w.Clear platform) (hc : w.Head c)
    (hx : (c.taken w).refusal platform (w.claim c) = some x) :
    (w.claim c).Drained ∧ ¬ x.claimable (w.claim c).clock := by
  obtain ⟨honly, hagain⟩ := h c x hc hx
  rw [claim_clock]
  refine ⟨fun d hd => ?_, hagain⟩
  rw [claim_clock]
  rcases hc.mem_claim.1 hd with rfl | ⟨hd, hne⟩
  · exact taken_not_claimable
  · exact fun hdue => hne (congrArg Call.id (honly d hd hdue))

end World

/-! ## A refused call in a clear world leaves nothing due -/

section Sound

variable {platform} {w : World} {c x : Call}

/-- An answer that stops a batch is given only when nothing is due. -/
abbrev StopsDrained (r : Option Err) (w : World) : Prop := ∀ e, r = some e → e.isNotFound → w.Drained

theorem failDispatch_wp {cause : Err}
    (h : cause.isNotFound → w.Drained ∧ ¬ (c.dispatchFailed cause w.clock).claimable w.clock) :
    Prog.wp Cmd.exec StopsDrained (failDispatch c cause) w := by
  refine Prog.wp_call_bind.2 fun o now w₁ hexec => ?_
  obtain ⟨rfl, rfl⟩ := exec_now hexec
  refine Prog.wp_call_bind.2 fun o r w₂ hexec => ?_
  rintro e ⟨⟩ hnotFound
  exact (h hnotFound).1.saveCall (h hnotFound).2 hexec

theorem deferDispatch_wp {scheduledAt : Time} (hw : w.Drained)
    (hx : ¬ (c.deferred scheduledAt w.clock).claimable w.clock) :
    Prog.wp Cmd.exec StopsDrained (deferDispatch c scheduledAt) w := by
  refine Prog.wp_call_bind.2 fun o now w₁ hexec => ?_
  obtain ⟨rfl, rfl⟩ := exec_now hexec
  refine Prog.wp_call_bind.2 fun o r w₂ hexec => ?_
  cases r with
  | error e => exact fun _ _ _ => hw.saveCall hx hexec
  | ok u => exact fun _ _ _ => hw.saveCall hx hexec

theorem cancelUndispatchedCall_wp {reason : String} (hw : w.Drained)
    (hx : ¬ (c.cancelled reason w.clock).claimable w.clock) :
    Prog.wp Cmd.exec StopsDrained (cancelUndispatchedCall c reason) w := by
  refine Prog.wp_call_bind.2 fun o now w₁ hexec => ?_
  obtain ⟨rfl, rfl⟩ := exec_now hexec
  refine Prog.wp_call_bind.2 fun o r w₂ hexec => ?_
  have hw₂ := hw.saveCall hx hexec
  cases r with
  | error e => exact fun _ _ _ => hw₂
  | ok u =>
    refine Prog.wp_call_bind.2 fun o r w₃ hexec => ?_
    exact fun _ _ _ => hw₂.incrementCampaignCount hexec

/-- The gateway's errors are never `ErrNotFound`. -/
theorem dispatchOutbound_error {gateway : Gateway} {swarm : AgentSwarm} {o : Oracle} {e : Err}
    (h : gateway.dispatchOutbound c swarm o = .error e) : ¬ e.isNotFound := by
  unfold Gateway.dispatchOutbound at h
  split at h
  · obtain rfl := Except.error.inj h
    exact Bool.false_ne_true
  split at h
  · obtain rfl := Except.error.inj h
    exact Bool.false_ne_true
  split at h
  · obtain rfl := Except.error.inj h
    exact Bool.false_ne_true
  split at h
  · obtain rfl := Except.error.inj h
    exact Bool.false_ne_true
  · obtain rfl := Except.error.inj h
    exact Bool.false_ne_true
  · cases h

theorem exec_saveCall_notFound {o : Oracle} {e : Err} {w' : World}
    (h : Cmd.exec (.saveCall x) o w = some (.error e, w')) : ¬ e.isNotFound := by
  simp only [Cmd.exec] at h
  split at h
  · rcases commit_some h with ⟨-, m, hr⟩ | ⟨-, hr | ⟨m, hr⟩⟩
    · exact Except.error.inj hr ▸ Bool.false_ne_true
    · cases hr
    · exact Except.error.inj hr ▸ Bool.false_ne_true
  · obtain ⟨-, hr | ⟨m, hr⟩⟩ := answer_some h <;> exact Except.error.inj hr ▸ Bool.false_ne_true

theorem dispatchCall_wp {swarm : AgentSwarm} :
    Prog.wp Cmd.exec StopsDrained (dispatchCall c swarm) w := by
  refine Prog.wp_call_bind.2 fun o r w₁ hexec => ?_
  obtain ⟨rfl, rfl⟩ := Prod.mk.inj (Option.some.inj hexec)
  cases hr : w.gateway.dispatchOutbound c swarm o with
  | error e => exact failDispatch_wp fun h => absurd h (dispatchOutbound_error hr)
  | ok room =>
    refine Prog.wp_call_bind.2 fun o now w₂ hexec => ?_
    obtain ⟨rfl, rfl⟩ := exec_now hexec
    refine Prog.wp_call_bind.2 fun o r w₃ hexec => ?_
    cases r with
    | error e =>
      rintro e' ⟨⟩ h
      exact absurd h (exec_saveCall_notFound hexec)
    | ok u => exact Prog.wp_call_bind.2 fun o r w₄ hexec => nofun

theorem dispatchCleared_wp
    (h : ∀ x, c.unroutable w = some x → w.Drained ∧ ¬ x.claimable w.clock) :
    Prog.wp Cmd.exec StopsDrained (dispatchCleared c) w := by
  refine Prog.wp_call_bind.2 fun o r w₁ hexec => ?_
  obtain ⟨rfl, ⟨swarm, -, rfl⟩ | ⟨hnone, rfl⟩ | ⟨m, rfl⟩⟩ := answer_found hexec
  · exact dispatchCall_wp
  · exact failDispatch_wp fun _ => h _ (by rw [Call.unroutable, hnone])
  · exact failDispatch_wp fun h => absurd h Bool.false_ne_true

theorem dispatchRunning_wp {campaign : Campaign} (hcampaign : c.campaignID ≠ "")
    (hget : w.campaigns.get c.campaignID = some campaign) (hrunning : campaign.status = "running")
    (h : ∀ x, c.refusal platform w = some x → w.Drained ∧ ¬ x.claimable w.clock) :
    Prog.wp Cmd.exec StopsDrained (dispatchRunning platform c campaign w.clock) w := by
  simp only [Call.refusal, hcampaign, if_false, hget, hrunning, if_true,
    String.reduceEq, or_self] at h
  unfold dispatchRunning
  split
  · rename_i hwindow
    rw [if_pos hwindow] at h
    exact deferDispatch_wp (h _ rfl).1 (h _ rfl).2
  rename_i hwindow
  rw [if_neg hwindow] at h
  refine Prog.wp_call_bind.2 fun o r w₁ hexec => ?_
  obtain ⟨rfl, rfl | ⟨m, rfl⟩⟩ := answer_some hexec
  · dsimp only
    split
    · rename_i hfull
      rw [if_pos hfull] at h
      exact deferDispatch_wp (h _ rfl).1 (h _ rfl).2
    · rename_i hfull
      rw [if_neg hfull] at h
      exact dispatchCleared_wp h
  · exact failDispatch_wp fun h => absurd h Bool.false_ne_true

/-- A claim takes a head, finds nothing due, or fails. -/
theorem exec_claim {o : Oracle} {r : Except Err Call} {w' : World}
    (h : Cmd.exec (.claimPendingCall w.clock (90 * second)) o w = some (r, w')) :
    (∃ c, w.Head c ∧ r = .ok (c.taken w) ∧ w' = w.claim c) ∨ (r = .error .notFound ∧ w' = w ∧ w.Drained) ∨
      ∃ m, r = .error (.unavailable m) := by
  simp only [Cmd.exec] at h
  split at h
  · rename_i hnone
    obtain ⟨rfl, rfl | hr⟩ := answer_some h
    · refine .inr (.inl ⟨rfl, rfl, fun c hc hdue => ?_⟩)
      have hnil := eq_nil_of_findOneSorted (fun a b => by
          simpa using Int.le_total a.scheduledAt b.scheduledAt)
        (fun a b c => by simpa using fun hab hbc => Int.le_trans hab hbc) hnone
      exact List.filter_eq_nil_iff.1 hnil c hc hdue
    · exact .inr (.inr hr)
  · rename_i c hfind
    have hc := World.head_of_findOneSorted hfind
    obtain ⟨calls, hcalls, hclaim⟩ := hc.exists_claim
    rw [hcalls] at h
    rcases commit_some h with ⟨-, hr⟩ | ⟨rfl, rfl | hr⟩
    · exact .inr (.inr hr)
    · exact .inl ⟨c, hc, rfl, hclaim.symm⟩
    · exact .inr (.inr hr)

theorem dispatchOne_wp (hclear : w.Clear platform) :
    Prog.wp Cmd.exec StopsDrained (dispatchOne platform) w := by
  refine Prog.wp_call_bind.2 fun o now w₁ hexec => ?_
  obtain ⟨rfl, rfl⟩ := exec_now hexec
  refine Prog.wp_call_bind.2 fun o r w₂ hexec => ?_
  rcases exec_claim hexec with ⟨c, hc, rfl, rfl⟩ | ⟨rfl, rfl, hdrained⟩ | ⟨m, rfl⟩
  · have h := fun x => World.Drained.of_clear hclear hc (x := x)
    dsimp only
    split
    · rename_i hnone
      refine dispatchCleared_wp fun x hx => h x ?_
      rwa [Call.refusal, if_pos hnone]
    rename_i hcampaign
    refine Prog.wp_call_bind.2 fun o r w₃ hexec => ?_
    obtain ⟨rfl, ⟨campaign, hget, rfl⟩ | ⟨hget, rfl⟩ | ⟨m, rfl⟩⟩ := answer_found hexec
    · dsimp only
      split
      · rename_i hended
        have hx := h _ (by rw [Call.refusal, if_neg hcampaign, hget]; exact if_pos hended)
        exact cancelUndispatchedCall_wp hx.1 hx.2
      rename_i hended
      split
      · rename_i hrunning
        have := dispatchRunning_wp hcampaign hget hrunning h
        rwa [World.claim_clock] at this
      · rename_i hrunning
        have hx := h _ (by
          rw [Call.refusal, if_neg hcampaign, hget]
          exact (if_neg hended).trans (if_neg hrunning))
        simp only [World.claim_clock] at hx
        exact deferDispatch_wp hx.1 (by simpa only [World.claim_clock] using hx.2)
    · refine failDispatch_wp fun _ => h _ ?_
      rw [Call.refusal, if_neg hcampaign, hget]
    · exact failDispatch_wp fun h => absurd h Bool.false_ne_true
  · exact fun _ _ _ => hdrained
  · rintro e ⟨⟩ h
    exact absurd h Bool.false_ne_true

end Sound

/-! ## A refused call is reached -/

section Complete

variable {platform} {w w' : World} {c x : Call}

/-- The call was replaced by `x` and every other call is where it was. -/
structure World.Replaced (w : World) (x : Call) (w' : World) : Prop where
  clock : w'.clock = w.clock
  stored : x ∈ w'.calls
  others : ∀ d ∈ w.calls, d.id ≠ x.id → d ∈ w'.calls

/-- Some run of the program from `w` answers `ErrNotFound` after writing `x`. -/
abbrev StopsWith (p : Service (Option Err)) (w : World) (x : Call) : Prop :=
  ∃ w', p.Ends Cmd.exec w (some .notFound) w' ∧ w.Replaced x w'

theorem exec_saveCall_found (hc : c ∈ w.calls) (hid : x.id = c.id)
    (hkey : x.idempotencyKey = c.idempotencyKey) :
    ∃ w', Cmd.exec (.saveCall x) {} w = some (.ok (), w') ∧ w.Replaced x w' ∧
      w'.campaigns = w.campaigns := by
  obtain ⟨calls, hcalls⟩ := Collection.replaceOne_of_mem hc hid hkey
  refine ⟨{ w with calls }, by simp only [Cmd.exec, hcalls, commit], ⟨rfl, ?_, fun d hd hne => ?_⟩, rfl⟩
  · exact Collection.self_mem_replaceOne hcalls
  · exact (Collection.mem_replaceOne hcalls).2 (.inr ⟨hd, hne⟩)

theorem failDispatch_stops (hc : c ∈ w.calls) :
    StopsWith (failDispatch c .notFound) w (c.dispatchFailed .notFound w.clock) := by
  have hid : (c.dispatchFailed .notFound w.clock).id = c.id := by
    unfold Call.dispatchFailed
    split <;> rfl
  have hkey : (c.dispatchFailed .notFound w.clock).idempotencyKey = c.idempotencyKey := by
    unfold Call.dispatchFailed
    split <;> rfl
  obtain ⟨w', hexec, hw', -⟩ := exec_saveCall_found hc hid hkey
  exact ⟨w', .call {} rfl (.call {} hexec (Prog.ends_pure.2 ⟨rfl, rfl⟩)), hw'⟩

theorem deferDispatch_stops {scheduledAt : Time} (hc : c ∈ w.calls) :
    StopsWith (deferDispatch c scheduledAt) w (c.deferred scheduledAt w.clock) := by
  obtain ⟨w', hexec, hw', -⟩ := exec_saveCall_found (x := c.deferred scheduledAt w.clock) hc rfl rfl
  exact ⟨w', .call {} rfl (.call {} hexec (Prog.ends_pure.2 ⟨rfl, rfl⟩)), hw'⟩

theorem cancelUndispatchedCall_stops {reason : String} (hc : c ∈ w.calls) :
    StopsWith (cancelUndispatchedCall c reason) w (c.cancelled reason w.clock) := by
  obtain ⟨w₁, hexec, hw₁, -⟩ := exec_saveCall_found (x := c.cancelled reason w.clock) hc rfl rfl
  -- the counter's write does not touch the calls, whatever becomes of it
  have hcount : ∃ r w₂, Cmd.exec (.incrementCampaignCount c.campaignID "cancelled" 1)
      { fault := .lost "" } w₁ = some (r, w₂) ∧ w₂ = w₁ := by
    simp only [Cmd.exec, answer, commit]
    split
    · exact ⟨_, _, rfl, rfl⟩
    split
    · exact ⟨_, _, rfl, rfl⟩
    split
    · exact ⟨_, _, rfl, rfl⟩
    split <;> exact ⟨_, _, rfl, rfl⟩
  obtain ⟨r, w₂, hcount, rfl⟩ := hcount
  exact ⟨w₂, .call {} rfl (.call {} hexec (.call _ hcount (Prog.ends_pure.2 ⟨rfl, rfl⟩))), hw₁⟩

theorem dispatchCleared_stops (hc : c ∈ w.calls) (hx : c.unroutable w = some x) :
    StopsWith (dispatchCleared c) w x := by
  unfold Call.unroutable at hx
  split at hx
  · cases hx
  rename_i hnone
  obtain rfl := Option.some.inj hx
  obtain ⟨w', hends, hw'⟩ := failDispatch_stops hc
  refine ⟨w', .call {} (show _ = some (.error .notFound, w) from ?_) hends, hw'⟩
  simp only [Cmd.exec, answer, hnone, found]

theorem dispatchRunning_stops {campaign : Campaign} (hc : c ∈ w.calls) (hcampaign : c.campaignID ≠ "")
    (hget : w.campaigns.get c.campaignID = some campaign) (hrunning : campaign.status = "running")
    (hx : c.refusal platform w = some x) :
    StopsWith (dispatchRunning platform c campaign w.clock) w x := by
  simp only [Call.refusal, hcampaign, if_false, hget, hrunning, if_true,
    String.reduceEq, or_self] at hx
  unfold dispatchRunning
  split at hx
  · rename_i hwindow
    rw [if_pos hwindow]
    exact Option.some.inj hx ▸ deferDispatch_stops hc
  rename_i hwindow
  rw [if_neg hwindow]
  have hcount : Cmd.exec (.countActiveCampaignCalls campaign.id c.id) {} w =
      some (.ok (w.calls.count (·.countsFor campaign.id c.id) : Int), w) := rfl
  split at hx
  · rename_i hfull
    obtain ⟨w', hends, hw'⟩ := @deferDispatch_stops w c (w.clock + 30 * second) hc
    refine ⟨w', .call {} hcount ?_, Option.some.inj hx ▸ hw'⟩
    dsimp only
    rwa [if_pos hfull]
  · rename_i hfull
    obtain ⟨w', hends, hw'⟩ := dispatchCleared_stops hc hx
    refine ⟨w', .call {} hcount ?_, hw'⟩
    dsimp only
    rwa [if_neg hfull]

/-- What is left of `dispatchOne` once it has claimed the call. -/
def dispatchTaken {Request : Type} (platform : Platform Request) (c : Call) (now : Time) :
    Service (Option Err) := do
  if c.campaignID = "" then dispatchCleared c
  else
    match ← Store.getCampaign c.campaignID with
    | .error e => failDispatch c e
    | .ok campaign =>
      if campaign.status = "completed" ∨ campaign.status = "cancelled" then
        cancelUndispatchedCall c ("campaign is " ++ campaign.status)
      else if campaign.status = "running" then dispatchRunning platform c campaign now
      else deferDispatch c (now + minute)

theorem dispatchOne_stops (hc : w.Head c) (hx : (c.taken w).refusal platform (w.claim c) = some x) :
    ∃ w', (dispatchOne platform).Ends Cmd.exec w (some .notFound) w' ∧ (w.claim c).Replaced x w' := by
  obtain ⟨pick, hpick⟩ := hc.exists_pick
  obtain ⟨calls, hcalls, hclaim⟩ := hc.exists_claim
  have hexec : Cmd.exec (.claimPendingCall w.clock (90 * second)) { pick } w =
      some (.ok (c.taken w), w.claim c) := by
    simp only [Cmd.exec, hpick]
    rw [hcalls, hclaim]
    rfl
  have hmem : c.taken w ∈ (w.claim c).calls := hc.mem_claim.2 (.inl rfl)
  suffices h : StopsWith (dispatchTaken platform (c.taken w) w.clock) (w.claim c) x by
    obtain ⟨w', hends, hw'⟩ := h
    exact ⟨w', .call {} rfl (.call _ hexec hends), hw'⟩
  have hclock : (w.claim c).clock = w.clock := World.claim_clock
  unfold dispatchTaken
  split
  · rename_i hnone
    rw [Call.refusal, if_pos hnone] at hx
    exact dispatchCleared_stops hmem hx
  rename_i hcampaign
  cases hget : (w.claim c).campaigns.get (c.taken w).campaignID with
  | none =>
    rw [Call.refusal, if_neg hcampaign, hget] at hx
    obtain ⟨w', hends, hw'⟩ := failDispatch_stops hmem
    refine ⟨w', .call {} (show _ = some (.error .notFound, w.claim c) from ?_) hends,
      Option.some.inj hx ▸ hw'⟩
    simp only [Cmd.exec, answer, hget, found]
  | some campaign =>
    have hfound : Cmd.exec (.getCampaign (c.taken w).campaignID) {} (w.claim c) =
        some (.ok campaign, w.claim c) := by
      simp only [Cmd.exec, answer, hget, found]
    by_cases hended : campaign.status = "completed" ∨ campaign.status = "cancelled"
    · obtain ⟨w', hends, hw'⟩ := @cancelUndispatchedCall_stops (w.claim c) (c.taken w)
        ("campaign is " ++ campaign.status) hmem
      rw [Call.refusal, if_neg hcampaign, hget] at hx
      refine ⟨w', .call {} hfound ?_, Option.some.inj ((if_pos hended).symm.trans hx) ▸ hw'⟩
      dsimp only
      rwa [if_pos hended]
    by_cases hrunning : campaign.status = "running"
    · obtain ⟨w', hends, hw'⟩ := dispatchRunning_stops hmem hcampaign hget hrunning hx
      refine ⟨w', .call {} hfound ?_, hw'⟩
      dsimp only
      rwa [if_neg hended, if_pos hrunning, ← hclock]
    · obtain ⟨w', hends, hw'⟩ := @deferDispatch_stops (w.claim c) (c.taken w) (w.clock + minute) hmem
      rw [Call.refusal, if_neg hcampaign, hget] at hx
      have hx := ((if_neg hended).trans (if_neg hrunning)).symm.trans hx
      rw [hclock] at hx
      refine ⟨w', .call {} hfound ?_, Option.some.inj hx ▸ hclock ▸ hw'⟩
      dsimp only
      rwa [if_neg hended, if_neg hrunning]

end Complete

/-! ## The loop -/

section Loop

variable {platform} {w v w' : World} {c x : Call} {room n m : ℕ}

/-- A loop that stops early has handled some calls and then been refused one. -/
theorem dispatchMore_stops (hv : w.Dispatched platform n v)
    (h : (dispatchMore platform room n).Ends Cmd.exec v (m, none) w') (hm : m < n + room) :
    ∃ v' e, w.Dispatched platform m v' ∧ (dispatchOne platform).Ends Cmd.exec v' (some e) w' ∧
      e.isNotFound := by
  induction room generalizing n v with
  | zero =>
    obtain ⟨heq, -⟩ := Prog.ends_pure.1 h
    obtain ⟨rfl, -⟩ := Prod.mk.inj heq
    exact absurd hm (Nat.lt_irrefl _)
  | succ room ih =>
    obtain ⟨r, v₁, hone, hrest⟩ := Prog.ends_bind.1 h
    cases r with
    | none => exact ih (.one hv hone) hrest (by omega)
    | some e =>
      dsimp only at hrest
      split at hrest
      · rename_i hnotFound
        obtain ⟨heq, rfl⟩ := Prog.ends_pure.1 hrest
        obtain ⟨rfl, -⟩ := Prod.mk.inj heq
        exact ⟨v, e, hv, hone, hnotFound⟩
      · obtain ⟨heq, -⟩ := Prog.ends_pure.1 hrest
        cases heq

/-- What the loop does after handling some calls, it does from the start. -/
theorem dispatchMore_ends {r : ℕ × Option Err} (hv : w.Dispatched platform n v)
    (h : (dispatchMore platform room n).Ends Cmd.exec v r w') :
    (dispatchMore platform (room + n) 0).Ends Cmd.exec w r w' := by
  induction hv generalizing room with
  | none => exact h
  | @one n v v' hv hone ih =>
    have hstep : (dispatchMore platform (room + 1) n).Ends Cmd.exec v r w' :=
      Prog.ends_bind.2 ⟨none, v', hone, h⟩
    rw [show room + (n + 1) = room + 1 + n by omega]
    exact ih hstep

theorem Call.refusal_id (h : c.refusal platform w = some x) : x.id = c.id := by
  have hfailed : ∀ e now, (c.dispatchFailed e now).id = c.id := by
    intro e now
    unfold Call.dispatchFailed
    split <;> rfl
  have hcleared : c.unroutable w = some x → x.id = c.id := by
    intro hx
    unfold Call.unroutable at hx
    split at hx
    · cases hx
    · exact Option.some.inj hx ▸ hfailed _ _
  unfold Call.refusal at h
  split at h
  · exact hcleared h
  split at h
  · exact Option.some.inj h ▸ hfailed _ _
  split at h
  · exact Option.some.inj h ▸ rfl
  split at h
  · split at h
    · exact Option.some.inj h ▸ rfl
    split at h
    · exact Option.some.inj h ▸ rfl
    · exact hcleared h
  · exact Option.some.inj h ▸ rfl

/-- A refused call that leaves nothing due was the only one, and is not due again. -/
theorem World.Replaced.clear (hc : w.Head c) (hx : x.id = c.id) (hw' : (w.claim c).Replaced x w')
    (hdrained : w'.Drained) :
    (∀ d ∈ w.calls, d.claimable w.clock → d = c) ∧ ¬ x.claimable w.clock := by
  have hclock : w'.clock = w.clock := hw'.clock.trans World.claim_clock
  constructor
  · intro d hd hdue
    by_contra hne
    have hid : d.id ≠ c.id := fun heq => hne (Collection.eq_of_id_eq hd hc.mem heq)
    have hmem := hw'.others d (hc.mem_claim.2 (.inr ⟨hd, hid⟩)) (hx ▸ hid)
    exact hdrained d hmem (hclock ▸ hdue)
  · exact hclock ▸ hdrained x hw'.stored

/-- A batch drains the due queue whenever it stops early, exactly when in every
state it may start a round from the call at the head of the queue is dialled, or
is alone and not due again. -/
theorem workConserving_iff {limit : Int} :
    w.WorkConserving platform limit ↔
      ∀ n v, n < batchLimit limit → w.Dispatched platform n v → v.Clear platform := by
  constructor
  · intro h n v hn hv c x hc hx
    obtain ⟨w', hends, hw'⟩ := dispatchOne_stops hc hx
    obtain ⟨room, hroom⟩ := Nat.exists_eq_add_of_lt hn
    have hstop : (dispatchMore platform (room + 1) n).Ends Cmd.exec v (n, none) w' :=
      Prog.ends_bind.2 ⟨_, w', hends, Prog.ends_pure.2 ⟨rfl, rfl⟩⟩
    have hbatch := dispatchMore_ends hv hstop
    rw [show room + 1 + n = batchLimit limit by omega] at hbatch
    exact hw'.clear hc (Call.refusal_id (c := c.taken v) hx) (h n w' hbatch hn)
  · intro h n w' hends hn
    obtain ⟨v, e, hv, hone, hnotFound⟩ :=
      dispatchMore_stops (.none (w := w)) hends (by rwa [Nat.zero_add])
    exact hone.wp (dispatchOne_wp (h n v hn hv)) e rfl hnotFound

end Loop

/-! ## A batch that leaves a due call behind -/

namespace Sample

/-- A call that is due, of the given campaign. -/
def dueCall (id campaignID : String) (scheduledAt : Time) : Call :=
  { target.call campaign swarm id scheduledAt with
    campaignID := campaignID, idempotencyKey := campaignID ++ ":" ++ id }

/-- The oldest due call belongs to a paused campaign, the next one to a running one. -/
def pausedHead : World :=
  { world with
    clock := minute
    campaigns := ⟨[campaign, { campaign with id := "campaign_2", status := "paused" }],
      by decide, by decide⟩
    calls := ⟨[dueCall "call_1" "campaign_2" 0, dueCall "call_2" "campaign_1" second],
      by decide, by decide⟩ }

end Sample

/-- The batch puts the first call back and stops; the second is still due. -/
theorem not_workConserving_pausedHead : ¬ Sample.pausedHead.WorkConserving Sample.platform 5 := by
  have hrun : ((dispatchBatch Sample.platform 5).run Cmd.exec (List.replicate 5 {})
      Sample.pausedHead).any fun r => r.1.1 = 0 ∧ r.1.2.isNone ∧
        r.2.calls.docs.any (·.claimable r.2.clock) := by
    decide +kernel
  obtain ⟨⟨⟨n, e⟩, w'⟩, hrun, hcheck⟩ := (Option.any_eq_true ..).1 hrun
  obtain ⟨rfl, hnone, hdue⟩ := of_decide_eq_true hcheck
  obtain rfl := Option.isNone_iff_eq_none.1 hnone
  obtain ⟨c, hc, hdue⟩ := List.any_eq_true.1 hdue
  exact fun h => h 0 w' ⟨_, hrun⟩ (by decide) c hc hdue

end Stylme
