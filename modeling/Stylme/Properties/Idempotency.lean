-- SUMMARY: Direct call requests that carry one idempotency key create one call, dial it once, and all answer with it.
import Stylme.Properties.DialBound

/-!
# Idempotent direct calls

`TriggerCall` looks its key up, creates the call, and falls back on a second
look-up when another request was faster. The unique index decides the race, and
only the winner goes on to dial.
-/

namespace Stylme

open Conc

/-- The command dials a call with the given idempotency key. -/
def Cmd.dialsKey (key : String) : Cmd → Bool
  | .dispatchOutbound call _ => call.idempotencyKey = key
  | _ => false

/-- How often a call with the given idempotency key has been dialed. -/
def keyDials (key : String) (log : List (Entry Cmd Resp World)) : ℕ :=
  log.countP (·.cmd.dialsKey key)

theorem keyDials_cons {key : String} {t : ℕ} {cmd : Cmd} {r : Resp cmd} {w : World}
    {log : List (Entry Cmd Resp World)} :
    keyDials key (⟨t, cmd, r, w⟩ :: log) =
      keyDials key log + if cmd.dialsKey key then 1 else 0 := by
  simp [keyDials, List.countP_cons]

namespace Op

variable {op : Op} {l : Phase} {cmd : Cmd} {r : Resp cmd} {request : DirectCallRequest}

/-- Only the call a dispatcher is about to dial is dialed. -/
theorem permits_dialsKey {key : String} (hpermits : op.permits l cmd) (h : cmd.dialsKey key) :
    ∃ c, l = .dialing c ∧ c.idempotencyKey = key := by
  unfold Cmd.dialsKey at h
  split at h
  · cases l with
    | dialing c =>
      obtain rfl := hpermits
      exact ⟨_, rfl, of_decide_eq_true h⟩
    | _ => exact hpermits.elim
  · cases h

theorem dialsKey_of_dialed {key : String} (h : cmd.dialed = none) : ¬ cmd.dialsKey key := by
  cases cmd <;> first | exact Bool.false_ne_true | cases h

/-- A request comes by a call only under a key it may use. -/
theorem answered_mayUse {o : Oracle} {w w' : World} {c : Call}
    (hkept : ∀ c, l.call = some c → request.MayUse c.idempotencyKey)
    (hpermits : (triggerCall request).permits l cmd) (hexec : cmd.exec o w = some (r, w'))
    (h : cmd.answered r = some c) : request.MayUse c.idempotencyKey := by
  cases cmd with
  | getCallByIdempotencyKey key =>
    have huse : request.MayUse key := by
      cases l with
      | start ids | lost =>
        obtain ⟨request', hop, huse⟩ := hpermits
        cases hop
        exact huse
      | _ => exact hpermits.elim
    cases r with
    | ok d =>
      obtain rfl := Option.some.inj h
      exact (exec_getCallByIdempotencyKey hexec).2 ▸ huse
    | error e => cases h
  | saveCall x =>
    cases r with
    | error e => cases h
    | ok u =>
      obtain rfl := Option.some.inj h
      rcases permits_saveCall hpermits with ⟨c₀, hc₀, hx⟩ | ⟨ids, rfl, -⟩
      · exact hx.idempotencyKey ▸ hkept c₀ hc₀
      · rcases hpermits with ⟨-, ⟨request', swarm, key, number, now, hop, huse, hx⟩ |
          ⟨request', swarm, agentID, now, hop, -⟩⟩
        · cases hop
          rw [hx]
          exact huse
        · cases hop
  | getCall id =>
    cases l with
    | start ids => rcases hpermits with ⟨request', hop, -⟩ | ⟨request', hop, -⟩ <;> cases hop
    | _ => exact hpermits.elim
  | getCallByRoom room =>
    cases l with
    | start ids => obtain ⟨request', hop, -⟩ := hpermits; cases hop
    | _ => exact hpermits.elim
  | claimPendingCall now lease =>
    cases l with
    | start ids => cases hpermits.1
    | _ => exact hpermits.elim
  | _ => cases h

end Op

namespace ControlPlane

/-- A step of `TriggerCall`, a crash, or time. -/
def triggers : Step → Bool
  | .spawn _ (.triggerCall _) => true
  | .spawn _ _ => false
  | _ => true

/-- Calls that were stored are stored; a call with the key is dialed at most once,
and by a thread that has not done so. -/
structure Once (key : String) (cfg : View) : Prop where
  history : ∀ e ∈ cfg.log, ∀ d ∈ e.after.calls, ∃ d' ∈ cfg.shared.calls, d.SameCall d'
  unstored : (∀ d ∈ cfg.shared.calls, d.idempotencyKey ≠ key) → keyDials key cfg.log = 0
  bound : keyDials key cfg.log ≤ 1
  undialed : ∀ {t op l b c}, cfg.view t = some ⟨op, l, b⟩ → l.undialed = some c →
    c.idempotencyKey = key → keyDials key cfg.log = 0
  keyed : ∀ {t request l b c}, cfg.view t = some ⟨.triggerCall request, l, b⟩ → l.call = some c →
    request.MayUse c.idempotencyKey

variable {platform : Platform DirectCallRequest} {s₀ : World} {σ : State} {key : String}

section Exec

variable {cfg : View} {t : ℕ} {op : Op} {l : Phase} {cmd : Cmd} {r : Resp cmd} {o : Oracle} {w : World}
variable {request : DirectCallRequest}

/-- A dial comes from a thread whose call is stored and has not been dialed. -/
theorem Once.dials_exec (h : Once key cfg) (ht : cfg.view t = some ⟨op, l, true⟩)
    (hpermits : op.permits l cmd) (hdials : cmd.dialsKey key) : keyDials key cfg.log = 0 := by
  obtain ⟨c, rfl, hkey⟩ := Op.permits_dialsKey hpermits hdials
  exact h.undialed ht rfl hkey

theorem Once.undialed_next (h : Once key cfg) (hsync : Synced cfg)
    (ht : cfg.view t = some ⟨.triggerCall request, l, true⟩)
    (hpermits : (Op.triggerCall request).permits l cmd)
    (hexec : cmd.exec o cfg.shared = some (r, w)) {c : Call}
    (hc : ((Op.triggerCall request).next l cmd r).undialed = some c) (hkey : c.idempotencyKey = key) :
    keyDials key (⟨t, cmd, r, w⟩ :: cfg.log) = 0 := by
  rw [keyDials_cons]
  rcases Op.next_undialed hpermits hc with ⟨hkept, hdial⟩ | ⟨now, lease, heq⟩ | ⟨rfl, -, ids, rfl, hid⟩
  · rw [h.undialed ht hkept hkey, if_neg (Op.dialsKey_of_dialed hdial)]
  · cases heq
    cases l with
    | start ids => cases hpermits.1
    | _ => exact hpermits.elim
  · -- the store has accepted a new call, so no other call has its key
    rw [h.unstored, if_neg (Op.dialsKey_of_dialed rfl)]
    rcases exec_saveCall hexec with ⟨rfl, e, rfl⟩ | ⟨calls, hcalls, -⟩
    · cases hc
    · intro d hd
      exact hkey ▸ Collection.key_ne_of_replaceOne hcalls hd ((hsync.fresh ht _ hid).2 d hd)

theorem Once.exec (h : Once key cfg) (hsync : Synced cfg) (hex : Exclusive cfg)
    (ht : cfg.view t = some ⟨.triggerCall request, l, true⟩)
    (hpermits : (Op.triggerCall request).permits l cmd)
    (hexec : cmd.exec o cfg.shared = some (r, w)) :
    Once key ⟨w, Function.update cfg.view t
      (some ⟨.triggerCall request, (Op.triggerCall request).next l cmd r, true⟩),
      ⟨t, cmd, r, w⟩ :: cfg.log⟩ where
  history := by
    intro e he d hd
    rcases List.mem_cons.1 he with rfl | he
    · exact ⟨d, hd, .refl⟩
    · obtain ⟨d', hd', hsame⟩ := h.history e he d hd
      obtain ⟨d'', hd'', hsame'⟩ := hsync.persist ht hpermits hexec hd'
      exact ⟨d'', hd'', hsame.trans hsame'⟩
  unstored := by
    intro hnone
    have hbefore : ∀ d ∈ cfg.shared.calls, d.idempotencyKey ≠ key := fun d hd hkey =>
      let ⟨d', hd', hsame⟩ := hsync.persist ht hpermits hexec hd
      hnone d' hd' (hsame.idempotencyKey.symm.trans hkey)
    rw [keyDials_cons, h.unstored hbefore, if_neg]
    intro hdials
    obtain ⟨c, rfl, hkey⟩ := Op.permits_dialsKey hpermits hdials
    obtain ⟨d, hd, hsame⟩ := hsync.copies ht rfl
    exact hbefore d hd (hsame.idempotencyKey.symm.trans hkey)
  bound := by
    rw [keyDials_cons]
    split
    · rename_i hdials
      rw [h.dials_exec ht hpermits hdials]
    · exact h.bound
  undialed := by
    intro u op' l' b c hu hc hkey
    rcases View.of_update hu with ⟨rfl, rfl, rfl, -⟩ | ⟨hut, hv⟩
    · exact h.undialed_next hsync ht hpermits hexec hc hkey
    · rw [keyDials_cons, h.undialed hv hc hkey, if_neg]
      -- two threads about to dial a call with the key would hold the same call
      intro hdials
      obtain ⟨c', rfl, hkey'⟩ := Op.permits_dialsKey hpermits hdials
      have hget := (hex.stored hv (Phase.held_of_undialed hc)).1
      have hget' := (hex.stored ht rfl).1
      have heq := Collection.eq_of_key_eq (Collection.get_eq_some_iff.1 hget).1
        (Collection.get_eq_some_iff.1 hget').1 (hkey.trans hkey'.symm)
      exact hut (hex.unique hv ht (Phase.held_of_undialed hc) rfl (congrArg Call.id heq))
  keyed := by
    intro u request' l' b c hu hc
    rcases View.of_update hu with ⟨rfl, hop, rfl, -⟩ | ⟨hut, hv⟩
    · obtain rfl := Op.triggerCall.inj hop
      rcases Op.next_call hc with hkept | hanswer
      · exact h.keyed ht hkept
      · exact Op.answered_mayUse (fun c hc => h.keyed ht hc) hpermits hexec hanswer
    · exact h.keyed hv hc

end Exec

theorem Once.idle {cfg cfg' : View} (h : Once key cfg) (hidle : Idle cfg cfg') : Once key cfg' := by
  obtain ⟨clock, hshared⟩ := hidle.shared
  constructor
  · rw [hshared, hidle.log]
    exact h.history
  · rw [hshared, hidle.log]
    exact h.unstored
  · rw [hidle.log]
    exact h.bound
  · intro u op l b c hu hc
    rw [hidle.log]
    rcases hidle.view hu with rfl | ⟨b', hu⟩
    · cases hc
    · exact h.undialed hu hc
  · intro u request l b c hu hc
    rcases hidle.view hu with rfl | ⟨b', hu⟩
    · cases hc
    · exact h.keyed hu hc

theorem trigger_of_view (h : (controlPlane platform).Reach (fun _ l => triggers l) (Pool.init s₀) σ)
    {t : ℕ} {op : Op} {l : Phase} {b : Bool} (ht : (view σ).view t = some ⟨op, l, b⟩) :
    ∃ request, op = .triggerCall request := by
  refine op_of_view (p := fun op => ∃ request, op = .triggerCall request) ?_ h ht
  intro _ _ op hop
  cases op with
  | triggerCall request => exact ⟨request, rfl⟩
  | _ => exact absurd hop Bool.false_ne_true

theorem once (h : (controlPlane platform).Reach (fun _ l => triggers l) (Pool.init s₀) σ) :
    Once key (view σ) := by
  refine invariant .init ⟨fun _ he => absurd he List.not_mem_nil, fun _ => rfl, Nat.zero_le _, nofun, nofun⟩
    (fun _ _ honce hidle => honce.idle hidle) ?_ h
  intro ρ t o op l cmd r w hreach _ honce _ ht hpermits hexec
  obtain ⟨request, rfl⟩ := trigger_of_view hreach ht
  have hex : Exclusive (view ρ) := by
    refine exclusive (fun _ _ op hop => ?_) hreach
    cases op <;> first | exact absurd hop Bool.false_ne_true | exact Bool.false_ne_true
  exact honce.exec (synced hreach) hex ht hpermits hexec

/-- Over any run of direct call requests, all calls ever stored under one key are
one call; it is dialed at most once; and every request with that key that answers
without an error answers with that call. -/
theorem triggerCall_idempotent {k : String} (hk : k ≠ "")
    (h : (controlPlane platform).Reach (fun _ l => triggers l) (Pool.init s₀) σ) :
    ∃ id, (∀ e ∈ σ.log, ∀ d ∈ e.after.calls, d.idempotencyKey = "direct:" ++ k → d.id = id) ∧
      keyDials ("direct:" ++ k) σ.log ≤ 1 ∧
      ∀ t request result, σ.result t = some (.triggerCall request, .direct result none) →
        request.trimmed.key = k → result.callID = id ∧
          ∃ d ∈ σ.shared.calls, d.id = id ∧ d.idempotencyKey = "direct:" ++ k := by
  have honce : Once ("direct:" ++ k) (view σ) := once h
  -- a returned request names a stored call with the key
  have hanswer : ∀ t request result, σ.result t = some (.triggerCall request, .direct result none) →
      request.trimmed.key = k →
      ∃ d ∈ σ.shared.calls, d.idempotencyKey = "direct:" ++ k ∧ result.callID = d.id := by
    intro t request result hres hrequest
    obtain ⟨l, b, ht, -, c, hl, hid⟩ := (conforming_of_init h).result hres
    have hc : l.call = some c := by rcases hl with rfl | rfl <;> rfl
    obtain ⟨k', hkey, hk'⟩ := honce.keyed ht hc
    rw [hk' (hrequest.symm ▸ hk), hrequest] at hkey
    obtain ⟨d, hd, hsame⟩ := (synced h).copies ht hc
    exact ⟨d, hd, hsame.idempotencyKey.symm.trans hkey, hid.trans hsame.id⟩
  by_cases hex : ∃ d ∈ σ.shared.calls, d.idempotencyKey = "direct:" ++ k
  · obtain ⟨d, hd, hkey⟩ := hex
    refine ⟨d.id, fun e he d₀ hd₀ hkey₀ => ?_, honce.bound, fun t request result hres hrequest => ?_⟩
    · obtain ⟨d', hd', hsame⟩ := honce.history e he d₀ hd₀
      have heq := Collection.eq_of_key_eq hd' hd
        ((hsame.idempotencyKey.symm.trans hkey₀).trans hkey.symm)
      exact hsame.id.trans (congrArg Call.id heq)
    · obtain ⟨d', hd', hkey', hid⟩ := hanswer t request result hres hrequest
      obtain rfl := Collection.eq_of_key_eq hd' hd (hkey'.trans hkey.symm)
      exact ⟨hid, d', hd', rfl, hkey'⟩
  · refine ⟨"", fun e he d₀ hd₀ hkey₀ => ?_, honce.bound, fun t request result hres hrequest => ?_⟩
    · obtain ⟨d', hd', hsame⟩ := honce.history e he d₀ hd₀
      exact absurd ⟨d', hd', hsame.idempotencyKey.symm.trans hkey₀⟩ hex
    · obtain ⟨d', hd', hkey', -⟩ := hanswer t request result hres hrequest
      exact absurd ⟨d', hd', hkey'⟩ hex

end ControlPlane

namespace Sample

/-- Two requests with one key look up before either creates the call. -/
def raceRun : List ControlPlane.Step :=
  [.spawn 0 (.triggerCall request), .spawn 1 (.triggerCall request)] ++ execs 0 4 ++ execs 1 4 ++
    [.exec 0 { random := "a" }, .exec 1 { random := "b" }] ++ execs 0 1 ++ execs 1 2 ++ execs 0 4

/-- Both requests have been answered. -/
def bothAnswered (σ : ControlPlane.State) : Bool :=
  match σ.result 0, σ.result 1 with
  | some (.triggerCall q₀, .direct _ none), some (.triggerCall q₁, .direct _ none) =>
    q₀.trimmed.key = "order-7" ∧ q₁.trimmed.key = "order-7"
  | _, _ => false

end Sample

namespace ControlPlane

theorem triggerCall_idempotent_race :
    ∃ (σ : State) (q₀ q₁ : DirectCallRequest) (r₀ r₁ : DirectCallResult),
      (controlPlane Sample.platform).Reach (fun _ l => triggers l) (Pool.init Sample.world) σ ∧
      σ.result 0 = some (.triggerCall q₀, .direct r₀ none) ∧ q₀.trimmed.key = "order-7" ∧
      σ.result 1 = some (.triggerCall q₁, .direct r₁ none) ∧ q₁.trimmed.key = "order-7" ∧
      r₀.callID = r₁.callID ∧ keyDials ("direct:" ++ "order-7") σ.log ≤ 1 := by
  have hrun : ((controlPlane Sample.platform).runWhere (fun _ l => triggers l) Sample.raceRun
      (Pool.init Sample.world)).any Sample.bothAnswered := by
    decide +kernel
  obtain ⟨σ, hσ, hσr⟩ := System.Reach.exists_of_any hrun
  unfold Sample.bothAnswered at hσr
  split at hσr
  · rename_i q₀ r₀ q₁ r₁ h₀ h₁
    obtain ⟨hkey₀, hkey₁⟩ := of_decide_eq_true hσr
    obtain ⟨id, -, hdials, hanswer⟩ :=
      triggerCall_idempotent (k := "order-7") (by decide) hσ
    exact ⟨σ, q₀, q₁, r₀, r₁, hσ, h₀, hkey₀, h₁, hkey₁,
      (hanswer 0 q₀ r₀ h₀ hkey₀).1.trans (hanswer 1 q₁ r₁ h₁ hkey₁).1.symm, hdials⟩
  · cases hσr

end ControlPlane

end Stylme
