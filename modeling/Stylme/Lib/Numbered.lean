-- SUMMARY: Runs whose commands are numbered, so that a condition can say which command of a run may meet which oracle.
import Mathlib.Data.Nat.Notation
import Stylme.Lib.Prog

/-!
# Numbered commands

A run answers its commands with oracles in order. When a condition on a run is about the
position of an oracle in that order, the weakest precondition is taken with a handler that
counts the commands and refuses an oracle that does not stand where it may.
-/

namespace Conc

variable {C : Type} {R : C → Type} {O S α : Type}

/-- The handler that counts the commands, and answers only with oracles allowed for their number. -/
def numbered (allow : ℕ → O → Prop) [∀ k o, Decidable (allow k o)]
    (exec : (c : C) → O → S → Option (R c × S)) (c : C) (o : O) (s : ℕ × S) : Option (R c × (ℕ × S)) :=
  if allow s.1 o then (exec c o s.2).map fun x => (x.1, (s.1 + 1, x.2)) else none

variable {allow : ℕ → O → Prop} [∀ k o, Decidable (allow k o)]
variable {exec : (c : C) → O → S → Option (R c × S)}

theorem numbered_eq_some_iff {c : C} {o : O} {k : ℕ} {s : S} {r : R c} {t : ℕ × S} :
    numbered allow exec c o (k, s) = some (r, t) ↔
      allow k o ∧ ∃ s', exec c o s = some (r, s') ∧ t = (k + 1, s') := by
  unfold numbered
  split
  · rename_i hallow
    rw [Option.map_eq_some_iff]
    constructor
    · rintro ⟨⟨r', s'⟩, hexec, heq⟩
      obtain ⟨rfl, rfl⟩ := Prod.mk.inj heq
      exact ⟨hallow, s', hexec, rfl⟩
    · rintro ⟨-, s', hexec, rfl⟩
      exact ⟨(r, s'), hexec, rfl⟩
  · rename_i hallow
    exact ⟨nofun, fun h => absurd h.1 hallow⟩

/-- A run whose oracles all stand where they may is a run with the counting handler. -/
theorem Prog.run_numbered {p : Prog C R α} {os : List O} {k : ℕ} {s s' : S} {a : α}
    (hallow : ∀ j o, os[j]? = some o → allow (k + j) o) (hrun : p.run exec os s = some (a, s')) :
    ∃ k', p.run (numbered allow exec) os (k, s) = some (a, (k', s')) := by
  induction p generalizing os k s with
  | ret b =>
    obtain ⟨rfl, rfl⟩ := Prod.mk.inj (Option.some.inj hrun)
    exact ⟨k, rfl⟩
  | op c rest ih =>
    cases os with
    | nil => cases hrun
    | cons o os =>
      unfold run at hrun
      split at hrun
      · cases hrun
      · rename_i r s₁ hexec
        have hrest : ∀ j o', os[j]? = some o' → allow (k + 1 + j) o' := fun j o' hj => by
          have := hallow (j + 1) o' hj
          rwa [Nat.add_comm j 1, ← Nat.add_assoc] at this
        obtain ⟨k', hk'⟩ := ih r hrest hrun
        refine ⟨k', ?_⟩
        have hstep : numbered allow exec c o (k, s) = some (r, (k + 1, s₁)) :=
          numbered_eq_some_iff.2 ⟨hallow 0 o rfl, s₁, hexec, rfl⟩
        unfold run
        rw [hstep]
        exact hk'

end Conc
