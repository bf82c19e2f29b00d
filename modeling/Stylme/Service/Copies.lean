-- SUMMARY: The copies of calls that executions carry belong to stored calls, and new identifiers belong to no stored call.
import Stylme.Service.System

/-!
# Copies

A call keeps its identity (identifier, campaign, idempotency key, graph) for
ever; every write replaces a call by one with the same identity or inserts it
under an identifier drawn for it. `Synced` is the invariant behind this, and
holds in every reachable pool of any operations.
-/

namespace Stylme

open Conc

/-- Two documents of one call: the fields that no operation changes agree. -/
structure Call.SameCall (a b : Call) : Prop where
  id : a.id = b.id
  campaignID : a.campaignID = b.campaignID
  idempotencyKey : a.idempotencyKey = b.idempotencyKey
  maxAttempts : a.maxAttempts = b.maxAttempts
  graphSnapshot : a.graphSnapshot = b.graphSnapshot

namespace Call.SameCall

variable {a b c : Call}

theorem refl : a.SameCall a := ⟨rfl, rfl, rfl, rfl, rfl⟩

theorem symm (h : a.SameCall b) : b.SameCall a :=
  ⟨h.id.symm, h.campaignID.symm, h.idempotencyKey.symm, h.maxAttempts.symm, h.graphSnapshot.symm⟩

theorem trans (h : a.SameCall b) (h' : b.SameCall c) : a.SameCall c :=
  ⟨h.id.trans h'.id, h.campaignID.trans h'.campaignID, h.idempotencyKey.trans h'.idempotencyKey,
    h.maxAttempts.trans h'.maxAttempts, h.graphSnapshot.trans h'.graphSnapshot⟩

theorem dispatchFailed {cause : Err} {now : Time} : (a.dispatchFailed cause now).SameCall a := by
  unfold Call.dispatchFailed
  split <;> exact ⟨rfl, rfl, rfl, rfl, rfl⟩

end Call.SameCall

/-! ## Phases and answers -/

/-- The call an answer hands over, or acknowledges as written. -/
def Cmd.answered : (c : Cmd) → Resp c → Option Call
  | .getCall _, .ok c => some c
  | .getCallByIdempotencyKey _, .ok c => some c
  | .getCallByRoom _, .ok c => some c
  | .claimPendingCall _ _, .ok c => some c
  | .saveCall x, .ok () => some x
  | _, _ => none

/-- A call in an answer is stored. -/
theorem exec_answered {o : Oracle} {w w' : World} {cmd : Cmd} {r : Resp cmd} {c : Call}
    (h : cmd.exec o w = some (r, w')) (hc : cmd.answered r = some c) : c ∈ w'.calls := by
  unfold Cmd.answered at hc
  split at hc
  · obtain rfl := Option.some.inj hc
    exact (answer_some h).1 ▸ (exec_getCall h).1
  · obtain rfl := Option.some.inj hc
    exact (answer_some h).1 ▸ (exec_getCallByIdempotencyKey h).1
  · obtain rfl := Option.some.inj hc
    exact (answer_some h).1 ▸ (exec_getCallByRoom h).1
  · obtain rfl := Option.some.inj hc
    rcases exec_claimPendingCall h with ⟨-, e, he⟩ | ⟨d, calls, -, -, hcalls, rfl, hr | ⟨e, he⟩⟩
    · cases he
    · obtain rfl := Except.ok.inj hr
      exact Collection.self_mem_replaceOne hcalls
    · cases he
  · obtain rfl := Option.some.inj hc
    rcases exec_saveCall h with ⟨-, e, he⟩ | ⟨calls, hcalls, rfl⟩
    · cases he
    · exact Collection.self_mem_replaceOne hcalls
  · cases hc

namespace Op

variable {op : Op} {l : Phase} {cmd : Cmd} {r : Resp cmd}

/-- The call of the next phase is the call of the phase or the call of the answer. -/
theorem next_call {c : Call} (h : (op.next l cmd r).call = some c) :
    l.call = some c ∨ cmd.answered r = some c := by
  unfold next created at h
  split at h <;> try split at h
  all_goals first | exact .inl h | exact .inr h

theorem next_ne_start {ids : List String} (hl : ∀ ids, l ≠ .start ids) :
    op.next l cmd r ≠ .start ids := by
  intro h
  unfold next at h
  split at h <;> try split at h
  all_goals first | exact hl _ rfl | exact hl _ h | cases h

/-- Identifiers are drawn by `randomID` and given up by the first write of calls. -/
theorem next_start {ids' : List String} (h : op.next l cmd r = .start ids') :
    ∃ ids, l = .start ids ∧ (cmd.writesCalls → ids' = []) ∧
      ∀ id ∈ ids', id ∈ ids ∨ ∃ kind, (⟨cmd, r⟩ : Σ c, Resp c) = ⟨.randomID kind, id⟩ := by
  cases l with
  | start ids =>
    refine ⟨ids, rfl, ?_⟩
    cases cmd with
    | randomID kind =>
      obtain rfl := Phase.start.inj h
      refine ⟨fun hw => by simp [Cmd.writesCalls] at hw, fun id hid => ?_⟩
      rcases List.mem_cons.1 hid with rfl | hid
      · exact .inr ⟨kind, rfl⟩
      · exact .inl hid
    | insertCalls xs =>
      obtain rfl := Phase.start.inj h
      exact ⟨fun _ => rfl, fun _ hid => absurd hid List.not_mem_nil⟩
    | saveCall x =>
      cases r with
      | ok u => cases op <;> cases h
      | error e => cases h
    | claimPendingCall now lease => cases r <;> cases h
    | getCall id | getCallByIdempotencyKey id | getCallByRoom id =>
      cases r with
      | ok c => cases h
      | error e =>
        obtain rfl := Phase.start.inj h
        exact ⟨fun hw => by simp [Cmd.writesCalls] at hw, fun _ hid => .inl hid⟩
    | _ =>
      obtain rfl := Phase.start.inj h
      exact ⟨fun hw => by simp [Cmd.writesCalls] at hw, fun _ hid => .inl hid⟩
  | _ => exact absurd h (next_ne_start fun ids hids => by cases hids)

/-- A write puts back a call the execution has a copy of, or a call under an
identifier drawn for it. -/
theorem permits_saveCall {x : Call} (h : op.permits l (.saveCall x)) :
    (∃ c, l.call = some c ∧ x.SameCall c) ∨ ∃ ids, l = .start ids ∧ x.id ∈ ids := by
  cases l with
  | start ids => exact .inr ⟨ids, rfl, h.1⟩
  | gating c campaign =>
    obtain ⟨scheduledAt, now, rfl⟩ := h
    exact .inl ⟨c, rfl, rfl, rfl, rfl, rfl, rfl⟩
  | cancelling c =>
    obtain ⟨reason, now, rfl⟩ := h
    exact .inl ⟨c, rfl, rfl, rfl, rfl, rfl, rfl⟩
  | failing c =>
    obtain ⟨cause, now, rfl⟩ := h
    exact .inl ⟨c, rfl, .dispatchFailed⟩
  | answered c room =>
    obtain ⟨now, rfl⟩ := h
    exact .inl ⟨c, rfl, rfl, rfl, rfl, rfl, rfl⟩
  | copied c =>
    rcases h with ⟨request, -, -, -, -, fromAgentID, toAgentID, now, -, rfl⟩ |
      ⟨request, -, now, d, f, rfl⟩
    · exact .inl ⟨c, rfl, rfl, rfl, rfl, rfl, rfl⟩
    · exact .inl ⟨c, rfl, rfl, rfl, rfl, rfl, rfl⟩
  | _ => exact absurd h id

end Op

/-! ## The invariant -/

namespace ControlPlane

/-- Identifiers drawn for new calls are issued, unused and each drawn once; every
copy belongs to a stored call. -/
structure Synced (cfg : View) : Prop where
  fresh : ∀ {t op ids b}, cfg.view t = some ⟨op, .start ids, b⟩ → ∀ id ∈ ids,
    id ∈ cfg.shared.issued ∧ ∀ d ∈ cfg.shared.calls, d.id ≠ id
  disjoint : ∀ {t t' op op' ids ids' b b'}, cfg.view t = some ⟨op, .start ids, b⟩ →
    cfg.view t' = some ⟨op', .start ids', b'⟩ → t ≠ t' → ∀ id ∈ ids, id ∉ ids'
  copies : ∀ {t op l b c}, cfg.view t = some ⟨op, l, b⟩ → l.call = some c →
    ∃ d ∈ cfg.shared.calls, c.SameCall d

variable {platform : Platform DirectCallRequest} {ok : State → Step → Prop} {s₀ : World}
variable {cfg : View} {σ : State}

section Exec

variable {t : ℕ} {op : Op} {l : Phase} {cmd : Cmd} {r : Resp cmd} {o : Oracle} {w w' : World}

/-- A stored call stays stored as the same call. -/
theorem Synced.persist (h : Synced cfg) (ht : cfg.view t = some ⟨op, l, true⟩)
    (hpermits : op.permits l cmd) (hexec : cmd.exec o cfg.shared = some (r, w)) {d : Call}
    (hd : d ∈ cfg.shared.calls) : ∃ d' ∈ w.calls, d.SameCall d' := by
  have hget := Collection.get_eq_some_iff.2 ⟨hd, rfl⟩
  rcases exec_get hexec hget with hsame | ⟨x, rfl, hid, hx⟩ | ⟨now, lease, rfl, -, hx⟩
  · exact ⟨d, (Collection.get_eq_some_iff.1 hsame).1, .refl⟩
  · refine ⟨x, (Collection.get_eq_some_iff.1 hx).1, ?_⟩
    rcases Op.permits_saveCall hpermits with ⟨c, hc, hxc⟩ | ⟨ids, rfl, hids⟩
    · obtain ⟨d₀, hd₀, hcd⟩ := h.copies ht hc
      have hxd := hxc.trans hcd
      obtain rfl := Collection.eq_of_id_eq hd hd₀ (hid.symm.trans hxd.id)
      exact hxd.symm
    · exact absurd hid.symm ((h.fresh ht _ hids).2 d hd)
  · exact ⟨_, (Collection.get_eq_some_iff.1 hx).1, rfl, rfl, rfl, rfl, rfl⟩

/-- A call that is stored after a command was stored before or has a drawn identifier. -/
theorem Synced.mem_after (h : Synced cfg) (ht : cfg.view t = some ⟨op, l, true⟩)
    (hpermits : op.permits l cmd) (hexec : cmd.exec o cfg.shared = some (r, w)) {d' : Call}
    (hd' : d' ∈ w.calls) :
    (∃ d ∈ cfg.shared.calls, d.SameCall d') ∨ ∃ ids, l = .start ids ∧ d'.id ∈ ids := by
  rcases exec_mem hexec hd' with hold | rfl | ⟨xs, rfl, hxs, -⟩ | ⟨now, lease, c, rfl, hc, -, rfl⟩
  · exact .inl ⟨d', hold, .refl⟩
  · rcases Op.permits_saveCall hpermits with ⟨c, hc, hxc⟩ | ⟨ids, rfl, hids⟩
    · obtain ⟨d₀, hd₀, hcd⟩ := h.copies ht hc
      exact .inl ⟨d₀, hd₀, (hxc.trans hcd).symm⟩
    · exact .inr ⟨ids, rfl, hids⟩
  · cases l with
    | start ids => exact .inr ⟨ids, rfl, (hpermits.2 d' hxs).1⟩
    | _ => exact absurd hpermits id
  · exact .inl ⟨c, hc, rfl, rfl, rfl, rfl, rfl⟩

/-- Identifiers stay issued. -/
theorem exec_issued_subset (hexec : cmd.exec o w = some (r, w')) : w.issued ⊆ w'.issued := by
  by_cases hrandom : ∃ kind, cmd = .randomID kind
  · obtain ⟨kind, rfl⟩ := hrandom
    rw [(exec_randomID hexec).2.2]
    exact List.subset_cons_self _ _
  · rw [exec_issued (not_exists.1 hrandom) hexec]
    exact List.Subset.refl _

/-- The identifiers of the phase after a command: kept ones, and one that nobody has. -/
theorem next_start_fresh {ids' : List String} (hexec : cmd.exec o w = some (r, w'))
    (hnext : op.next l cmd r = .start ids') :
    ∃ ids, l = .start ids ∧ (cmd.writesCalls → ids' = []) ∧
      ∀ id ∈ ids', id ∈ ids ∨ (id ∉ w.issued ∧ id ∈ w'.issued ∧ ∀ d ∈ w.calls, d.id ≠ id) := by
  obtain ⟨ids, hl, hw, hids⟩ := Op.next_start hnext
  refine ⟨ids, hl, hw, fun id hid => ?_⟩
  rcases hids id hid with hold | ⟨kind, heq⟩
  · exact .inl hold
  · cases heq
    obtain ⟨hnew, hcalls, rfl⟩ := exec_randomID hexec
    exact .inr ⟨hnew, List.mem_cons_self, hcalls⟩

theorem Synced.exec (h : Synced cfg) (ht : cfg.view t = some ⟨op, l, true⟩)
    (hpermits : op.permits l cmd) (hexec : cmd.exec o cfg.shared = some (r, w))
    {log : List (Entry Cmd Resp World)} :
    Synced ⟨w, Function.update cfg.view t (some ⟨op, op.next l cmd r, true⟩), log⟩ := by
  have hissued := exec_issued_subset hexec
  constructor
  · intro u op' ids b hu id hid
    rcases View.of_update hu with ⟨rfl, rfl, hnext, -⟩ | ⟨hut, hv⟩
    · obtain ⟨ids₀, rfl, hw, hids⟩ := next_start_fresh hexec hnext
      have hcalls : w.calls = cfg.shared.calls := by
        refine exec_calls ?_ hexec
        cases hwrites : cmd.writesCalls with
        | false => rfl
        | true => rw [hw hwrites] at hid; cases hid
      rw [hcalls]
      rcases hids id hid with hold | ⟨-, hnew, hstored⟩
      · exact ⟨hissued (h.fresh ht id hold).1, (h.fresh ht id hold).2⟩
      · exact ⟨hnew, hstored⟩
    · refine ⟨hissued (h.fresh hv id hid).1, fun d hd hdid => ?_⟩
      rcases h.mem_after ht hpermits hexec hd with ⟨d₀, hd₀, hsame⟩ | ⟨ids₀, rfl, hids₀⟩
      · exact (h.fresh hv id hid).2 d₀ hd₀ (hsame.id.trans hdid)
      · exact h.disjoint hv ht hut id hid (hdid ▸ hids₀)
  · -- only the thread that moved can have a new identifier, and it is in no other list
    have hmoved : ∀ {u op' ids b ids'}, cfg.view u = some ⟨op', .start ids, b⟩ → u ≠ t →
        op.next l cmd r = .start ids' → ∀ id ∈ ids', id ∉ ids := by
      intro u op' ids b ids' hu hut hnext id hid hmem
      obtain ⟨ids₀, rfl, -, hids⟩ := next_start_fresh hexec hnext
      rcases hids id hid with hold | ⟨hnew, -, -⟩
      · exact h.disjoint ht hu (Ne.symm hut) id hold hmem
      · exact hnew (h.fresh hu id hmem).1
    intro u u' op₁ op₂ ids₁ ids₂ b₁ b₂ hu hu' hne id hid hid'
    rcases View.of_update hu with ⟨rfl, rfl, hnext, -⟩ | ⟨hut, hv⟩
    · rcases View.of_update hu' with ⟨rfl, -⟩ | ⟨hut', hv'⟩
      · exact absurd rfl hne
      · exact hmoved hv' hut' hnext id hid hid'
    · rcases View.of_update hu' with ⟨rfl, rfl, hnext, -⟩ | ⟨hut', hv'⟩
      · exact hmoved hv hut hnext id hid' hid
      · exact h.disjoint hv hv' hne id hid hid'
  · intro u op' l' b c hu hc
    have hpersist : ∀ {v op l b}, cfg.view v = some ⟨op, l, b⟩ → l.call = some c →
        ∃ d ∈ w.calls, c.SameCall d := by
      intro v op l b hv hl
      obtain ⟨d, hd, hcd⟩ := h.copies hv hl
      obtain ⟨d', hd', hdd'⟩ := h.persist ht hpermits hexec hd
      exact ⟨d', hd', hcd.trans hdd'⟩
    rcases View.of_update hu with ⟨rfl, rfl, rfl, -⟩ | ⟨hut, hv⟩
    · rcases Op.next_call hc with hkept | hanswer
      · exact hpersist ht hkept
      · exact ⟨c, exec_answered hexec hanswer, .refl⟩
    · exact hpersist hv hc

end Exec

theorem Synced.idle {cfg' : View} (h : Synced cfg) (hidle : Idle cfg cfg') : Synced cfg' := by
  obtain ⟨clock, hshared⟩ := hidle.shared
  constructor
  · intro u op ids b hu id hid
    rw [hshared]
    rcases hidle.view hu with hl | ⟨b', hu⟩
    · cases hl
      cases hid
    · exact h.fresh hu id hid
  · intro u u' op₁ op₂ ids₁ ids₂ b₁ b₂ hu hu' hne id hid hid'
    rcases hidle.view hu with hl | ⟨b', hu⟩
    · cases hl
      cases hid
    rcases hidle.view hu' with hl | ⟨b', hu'⟩
    · cases hl
      cases hid'
    · exact h.disjoint hu hu' hne id hid hid'
  · intro u op l b c hu hc
    rw [hshared]
    rcases hidle.view hu with rfl | ⟨b', hu⟩
    · cases hc
    · exact h.copies hu hc

theorem Synced.init : Synced (view (Pool.init s₀)) where
  fresh h := by cases h
  disjoint h := by cases h
  copies h := by cases h

/-- Every reachable pool is synced. -/
theorem synced (h : (controlPlane platform).Reach ok (Pool.init s₀) σ) : Synced (view σ) :=
  invariant .init .init (fun _ _ hsync hidle => hsync.idle hidle)
    (fun _ _ _ _ _ _ _ _ _ _ hsync _ ht hpermits hexec => hsync.exec ht hpermits hexec) h

end ControlPlane

end Stylme
