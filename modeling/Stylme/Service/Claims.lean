-- SUMMARY: Without handoffs and completions, a dispatcher owns the call it holds: its copy is the stored document, and nobody else holds it.
import Stylme.Service.Copies

/-!
# Claims

A claim takes a pending call out of the queue. As long as no operation writes
back calls it has merely read, the claimed document stays as it is until the
dispatcher that holds it writes it. `Exclusive` is that invariant; it is what
makes counting attempts and dials per call possible.
-/

namespace Stylme

open Conc

/-- The operations that write back a call they have merely read. -/
def Op.writesBack : Op → Bool
  | recordHandoff _ | completeCall _ => true
  | _ => false

namespace Op

variable {op : Op} {l : Phase} {cmd : Cmd} {r : Resp cmd}

/-- A dispatcher holds on to its call until it writes it; it gets hold of one by
a claim, or by creating a direct call. -/
theorem next_held {c : Call} (hpermits : op.permits l cmd) (h : (op.next l cmd r).held = some c) :
    (l.held = some c ∧ cmd.writesCalls = false) ∨
      (cmd.answered r = some c ∧ ((∃ now lease, cmd = .claimPendingCall now lease) ∨
        (cmd = .saveCall c ∧ ∃ ids request swarm key number now, l = .start ids ∧ c.id ∈ ids ∧
          op = triggerCall request ∧ request.MayUse key ∧
          c = request.trimmed.call swarm key number c.id now))) := by
  cases hw : cmd.writesCalls with
  | false =>
    left
    refine ⟨?_, rfl⟩
    unfold next created at h
    split at h <;> try split at h
    all_goals first | exact h | cases hw
  | true =>
    cases cmd with
    | claimPendingCall now lease =>
      cases l with
      | start ids =>
        cases r with
        | ok c' => exact .inr ⟨h, .inl ⟨now, lease, rfl⟩⟩
        | error e => cases h
      | _ => exact hpermits.elim
    | insertCalls xs =>
      cases l with
      | start ids => cases h
      | _ => exact hpermits.elim
    | saveCall x =>
      cases l with
      | start ids =>
        cases r with
        | error e => cases h
        | ok u =>
          obtain ⟨hids, ⟨request, swarm, key, number, now, rfl, hkey, hx⟩ |
            ⟨request, swarm, agentID, now, rfl, -⟩⟩ := hpermits
          · obtain rfl := Option.some.inj h
            exact .inr ⟨rfl, .inr ⟨rfl, ids, request, swarm, key, number, now, rfl, hids, rfl, hkey, hx⟩⟩
          · cases h
      | gating | cancelling | failing | answered | copied => cases r <;> cases h
      | _ => exact hpermits.elim
    | _ => cases hw

end Op

namespace ControlPlane

/-- A held call is stored as it was claimed, and only one thread holds it. -/
structure Exclusive (cfg : View) : Prop where
  stored : ∀ {t op l b c}, cfg.view t = some ⟨op, l, b⟩ → l.held = some c →
    cfg.shared.calls.get c.id = some c ∧ c.status = .dispatching
  unique : ∀ {t t' op op' l l' b b' c c'}, cfg.view t = some ⟨op, l, b⟩ →
    cfg.view t' = some ⟨op', l', b'⟩ → l.held = some c → l'.held = some c' → c.id = c'.id → t = t'

variable {platform : Platform DirectCallRequest} {ok : State → Step → Prop} {s₀ : World} {σ : State}

theorem Exclusive.idle {cfg cfg' : View} (h : Exclusive cfg) (hidle : Idle cfg cfg') :
    Exclusive cfg' := by
  obtain ⟨clock, hshared⟩ := hidle.shared
  constructor
  · intro u op l b c hu hc
    rw [hshared]
    rcases hidle.view hu with rfl | ⟨b', hu⟩
    · cases hc
    · exact h.stored hu hc
  · intro u u' op op' l l' b b' c c' hu hu' hc hc' hid
    rcases hidle.view hu with rfl | ⟨b₁, hu⟩
    · cases hc
    rcases hidle.view hu' with rfl | ⟨b₂, hu'⟩
    · cases hc'
    · exact h.unique hu hu' hc hc' hid

section Exec

variable {cfg : View} {t : ℕ} {op : Op} {l : Phase} {cmd : Cmd} {r : Resp cmd} {o : Oracle} {w : World}

/-- A command leaves the calls alone that other threads hold. -/
theorem Exclusive.others (h : Exclusive cfg) (hsync : Synced cfg) (hop : ¬ op.writesBack)
    (ht : cfg.view t = some ⟨op, l, true⟩) (hpermits : op.permits l cmd)
    (hexec : cmd.exec o cfg.shared = some (r, w)) {u : ℕ} {op' : Op} {l' : Phase} {b : Bool} {c : Call}
    (hut : u ≠ t) (hu : cfg.view u = some ⟨op', l', b⟩) (hc : l'.held = some c) :
    w.calls.get c.id = some c := by
  obtain ⟨hget, hstatus⟩ := h.stored hu hc
  rcases exec_get hexec hget with hsame | ⟨x, rfl, hid, -⟩ | ⟨now, lease, rfl, hclaim, -⟩
  · exact hsame
  · exfalso
    cases l with
    | start ids =>
      exact (hsync.fresh ht _ hpermits.1).2 c (Collection.get_eq_some_iff.1 hget).1 hid.symm
    | copied c₀ =>
      rcases hpermits with ⟨request, rfl, -⟩ | ⟨request, rfl, -⟩ <;> exact hop rfl
    | _ =>
      rcases Op.permits_saveCall hpermits with ⟨c₀, hc₀, hx⟩ | ⟨ids, hl, -⟩
      · first
          | exact hut (h.unique hu ht hc hc₀ (hid.symm.trans hx.id))
          | exact hpermits.elim
      · cases hl
  · simp [Call.claimable, hstatus] at hclaim

/-- A call that a thread holds after a command is stored as it holds it. -/
theorem Exclusive.stored_next (h : Exclusive cfg) (ht : cfg.view t = some ⟨op, l, true⟩)
    (hpermits : op.permits l cmd) (hexec : cmd.exec o cfg.shared = some (r, w)) {c : Call}
    (hc : (op.next l cmd r).held = some c) :
    w.calls.get c.id = some c ∧ c.status = .dispatching := by
  rcases Op.next_held hpermits hc with ⟨hkept, hw⟩ | ⟨hanswer, ⟨now, lease, rfl⟩ | ⟨rfl, hnew⟩⟩
  · rw [exec_calls hw hexec]
    exact h.stored ht hkept
  · refine ⟨Collection.get_eq_some_iff.2 ⟨exec_answered hexec hanswer, rfl⟩, ?_⟩
    rcases exec_claimPendingCall hexec with ⟨-, e, rfl⟩ | ⟨d, calls, -, -, -, -, rfl | ⟨e, rfl⟩⟩
    · cases hanswer
    · cases hanswer
      rfl
    · cases hanswer
  · refine ⟨Collection.get_eq_some_iff.2 ⟨exec_answered hexec hanswer, rfl⟩, ?_⟩
    obtain ⟨ids, request, swarm, key, number, now, -, -, -, -, hx⟩ := hnew
    rw [hx]
    rfl

/-- No other thread holds the call that a thread holds after a command. -/
theorem Exclusive.unique_next (h : Exclusive cfg) (hsync : Synced cfg)
    (ht : cfg.view t = some ⟨op, l, true⟩) (hpermits : op.permits l cmd)
    (hexec : cmd.exec o cfg.shared = some (r, w)) {c : Call}
    (hc : (op.next l cmd r).held = some c) {u : ℕ} {op' : Op} {l' : Phase} {b : Bool} {c' : Call}
    (hut : u ≠ t) (hu : cfg.view u = some ⟨op', l', b⟩) (hc' : l'.held = some c') : c.id ≠ c'.id := by
  intro hid
  obtain ⟨hget, hstatus⟩ := h.stored hu hc'
  obtain ⟨hmem, -⟩ := Collection.get_eq_some_iff.1 hget
  rcases Op.next_held hpermits hc with ⟨hkept, -⟩ | ⟨hanswer, ⟨now, lease, rfl⟩ | ⟨rfl, hnew⟩⟩
  · exact hut (h.unique hu ht hc' hkept hid.symm)
  · -- a claim takes a pending call, and a held call is not pending
    rcases exec_claimPendingCall hexec with ⟨-, e, rfl⟩ | ⟨d, calls, hd, hclaim, -, -, rfl | ⟨e, rfl⟩⟩
    · cases hanswer
    · cases hanswer
      obtain rfl := Collection.eq_of_id_eq hd hmem hid
      simp [Call.claimable, hstatus] at hclaim
    · cases hanswer
  · obtain ⟨ids, request, swarm, key, number, now, rfl, hids, -⟩ := hnew
    exact (hsync.fresh ht _ hids).2 c' hmem hid.symm

theorem Exclusive.exec (h : Exclusive cfg) (hsync : Synced cfg) (hop : ¬ op.writesBack)
    (ht : cfg.view t = some ⟨op, l, true⟩) (hpermits : op.permits l cmd)
    (hexec : cmd.exec o cfg.shared = some (r, w)) {log : List (Entry Cmd Resp World)} :
    Exclusive ⟨w, Function.update cfg.view t (some ⟨op, op.next l cmd r, true⟩), log⟩ := by
  constructor
  · intro u op' l' b c hu hc
    rcases View.of_update hu with ⟨rfl, rfl, rfl, -⟩ | ⟨hut, hv⟩
    · exact h.stored_next ht hpermits hexec hc
    · exact ⟨h.others hsync hop ht hpermits hexec hut hv hc, (h.stored hv hc).2⟩
  · intro u u' op₁ op₂ l₁ l₂ b₁ b₂ c₁ c₂ hu hu' hc₁ hc₂ hid
    rcases View.of_update hu with ⟨rfl, rfl, rfl, -⟩ | ⟨hut, hv⟩
    · rcases View.of_update hu' with ⟨rfl, -⟩ | ⟨hut', hv'⟩
      · rfl
      · exact absurd hid (h.unique_next hsync ht hpermits hexec hc₁ hut' hv' hc₂)
    · rcases View.of_update hu' with ⟨rfl, rfl, rfl, -⟩ | ⟨hut', hv'⟩
      · exact absurd hid.symm (h.unique_next hsync ht hpermits hexec hc₂ hut hv hc₁)
      · exact h.unique hv hv' hc₁ hc₂ hid

end Exec

theorem Exclusive.init : Exclusive (view (Pool.init s₀)) where
  stored h := by cases h
  unique h := by cases h

/-- The operation of a thread is one that may be started. -/
theorem op_of_view {p : Op → Prop} (hspawn : ∀ σ t op, ok σ (.spawn t op) → p op)
    (h : (controlPlane platform).Reach ok (Pool.init s₀) σ) {t : ℕ} {op : Op} {l : Phase} {b : Bool}
    (ht : (view σ).view t = some ⟨op, l, b⟩) : p op := by
  simp only [view, Pool.config, Option.map_eq_some_iff] at ht
  obtain ⟨th, hth, heq⟩ := ht
  obtain ⟨rfl, -, -⟩ := View.mk.inj heq
  exact h.ops hspawn hth

/-- Claims are exclusive as long as no operation writes back what it merely read. -/
theorem exclusive (hspawn : ∀ σ t op, ok σ (.spawn t op) → ¬ op.writesBack)
    (h : (controlPlane platform).Reach ok (Pool.init s₀) σ) : Exclusive (view σ) :=
  invariant .init .init (fun _ _ hex hidle => hex.idle hidle)
    (fun _ _ _ _ _ _ _ _ hreach _ hex _ ht hpermits hexec =>
      hex.exec (synced hreach) (op_of_view hspawn hreach ht) ht hpermits hexec) h

end ControlPlane

end Stylme
