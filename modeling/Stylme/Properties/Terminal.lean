-- SUMMARY: When a call that has ended keeps its final status, and a run in which it does not.
import Stylme.Service.System

/-!
# Final statuses

`RecordHandoff` refuses a call that has ended. The dispatcher and `CompleteCall`
write back whatever copy they read earlier, so a call that ended in between is
revived, or ends a second time with another status.
-/

namespace Stylme

open Conc

/-- The final status an execution is about to give its call, when the branch it
has taken gives one. -/
def Phase.outcome (op : Op) : Phase → Option CallStatus
  | .failing c => if c.attempt < c.maxAttempts then none else some .failed
  | .cancelling _ => some .cancelled
  | .copied _ =>
    match op with
    | .completeCall request => some (completionStatus request.failure)
    | _ => none
  | _ => none

theorem Call.dispatchFailed_status {c : Call} {cause : Err} {now : Time}
    (h : ¬ c.attempt < c.maxAttempts) : (c.dispatchFailed cause now).status = .failed := by
  simp only [Call.dispatchFailed, if_neg h]

namespace Sample

/-- A direct call is dialled, and completed before the dial is recorded. -/
def completedRun : List ControlPlane.Step :=
  [.spawn 0 (.triggerCall request)] ++ execs 0 4 ++ [.exec 0 { random := "a" }] ++ execs 0 3 ++
    [.spawn 1 (.completeCall ⟨"call_a", [], none⟩)] ++ execs 1 3

end Sample

namespace ControlPlane

/-- The step does not write over a call that has ended, unless the execution is
bringing the call to the very status it has. -/
def keepsEnded (σ : State) : Step → Bool
  | .exec t _ =>
    match σ.next t, (view σ).view t with
    | some (op, .saveCall x), some v =>
      match σ.shared.calls.get x.id with
      | some c => ¬ c.status.terminal ∨ v.phase.outcome op = some c.status
      | none => true
    | _, _ => true
  | _ => true

variable {platform : Platform DirectCallRequest} {s₀ : World} {σ σ' : State}

/-- The document an execution writes has the final status of its branch. -/
theorem status_of_outcome {op : Op} {l : Phase} {x : Call} {s : CallStatus}
    (hpermits : op.permits l (.saveCall x)) (h : l.outcome op = some s) : x.status = s := by
  cases l with
  | failing c =>
    obtain ⟨cause, now, rfl⟩ := hpermits
    simp only [Phase.outcome] at h
    split at h
    · cases h
    · rename_i hlast
      rw [Call.dispatchFailed_status hlast, Option.some.inj h]
  | cancelling c =>
    obtain ⟨reason, now, rfl⟩ := hpermits
    exact Option.some.inj h
  | copied c =>
    simp only [Phase.outcome] at h
    split at h
    · rename_i request
      obtain ⟨request', hop, -⟩ | ⟨request', hop, now, d, f, rfl⟩ := hpermits
      · cases hop
      · cases hop
        exact Option.some.inj h
    · cases h
  | _ => simp [Phase.outcome] at h

/-- A step of `DispatchOne`, `TriggerCall`, `RecordHandoff` or `CompleteCall`. -/
def worksOnCalls : Step → Bool
  | .spawn _ (.triggerCall _) | .spawn _ (.recordHandoff _) | .spawn _ (.completeCall _)
  | .spawn _ .dispatchOne => true
  | .spawn _ _ => false
  | _ => true

end ControlPlane

end Stylme
