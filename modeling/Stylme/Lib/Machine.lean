-- SUMMARY: State machines whose labelled steps are a partial function: runs, reachable states and invariants.
import Mathlib.Logic.Basic

/-!
# State machines

A machine says for each state and label which state the step leads to, if the
label is possible there at all. Runs are therefore computable, and what is
reachable by steps that meet a condition is an inductive predicate.
-/

namespace Conc

structure Machine (S L : Type) where
  step : S → L → Option S

namespace Machine

variable {S L : Type} (machine : Machine S L)

/-- Take the labelled steps in order, each of which has to meet `ok`. -/
def runWhere (ok : S → L → Prop) [∀ s l, Decidable (ok s l)] : List L → S → Option S
  | [], s => some s
  | l :: ls, s =>
    if ok s l then
      match machine.step s l with
      | some s' => runWhere ok ls s'
      | none => none
    else none

/-- The states reachable from `s₀` by steps that meet `ok`. -/
inductive Reach (ok : S → L → Prop) (s₀ : S) : S → Prop where
  | refl : Reach ok s₀ s₀
  | step {s s' l} : Reach ok s₀ s → ok s l → machine.step s l = some s' → Reach ok s₀ s'

variable {machine} {ok : S → L → Prop} {s₀ s s' : S}

theorem Reach.of_runWhere [∀ s l, Decidable (ok s l)] {ls : List L}
    (h : machine.Reach ok s₀ s) (hrun : machine.runWhere ok ls s = some s') :
    machine.Reach ok s₀ s' := by
  induction ls generalizing s with
  | nil =>
    simp only [runWhere, Option.some.injEq] at hrun
    exact hrun ▸ h
  | cons l ls ih =>
    simp only [runWhere] at hrun
    split at hrun
    · rename_i hok
      split at hrun
      · rename_i s₁ hstep
        exact ih (.step h hok hstep) hrun
      · cases hrun
    · cases hrun

/-- A run that can be computed and passes a check ends in a reachable state that passes it. -/
theorem Reach.exists_of_any [∀ s l, Decidable (ok s l)] {ls : List L} {check : S → Bool}
    (h : (machine.runWhere ok ls s₀).any check) : ∃ s, machine.Reach ok s₀ s ∧ check s := by
  obtain ⟨s, hrun, hcheck⟩ := (Option.any_eq_true ..).1 h
  exact ⟨s, .of_runWhere .refl hrun, hcheck⟩

theorem Reach.mono {ok' : S → L → Prop} (hok : ∀ s l, ok s l → ok' s l) (h : machine.Reach ok s₀ s) :
    machine.Reach ok' s₀ s := by
  induction h with
  | refl => exact .refl
  | step _ hl hstep ih => exact .step ih (hok _ _ hl) hstep

theorem Reach.trans {s' : S} (h : machine.Reach ok s₀ s) (h' : machine.Reach ok s s') :
    machine.Reach ok s₀ s' := by
  induction h' with
  | refl => exact h
  | step _ hl hstep ih => exact .step ih hl hstep

/-- What holds at the start and is kept by every step holds of every reachable state. -/
theorem Reach.invariant {I : S → Prop} (hinit : I s₀)
    (hstep : ∀ s l s', I s → ok s l → machine.step s l = some s' → I s')
    (h : machine.Reach ok s₀ s) : I s := by
  induction h with
  | refl => exact hinit
  | step _ hok hs ih => exact hstep _ _ _ ih hok hs

end Machine

end Conc
