-- SUMMARY: Monitors that observe the answered commands of a program while it runs.
import Stylme.Lib.Prog

/-!
# Monitors

A monitor is a state of its own beside that of the handler. It sees every
answered command and the state in which the command has left the store, and
changes neither. Statements about what happened during a run are statements
about the monitor at its end.
-/

namespace Conc

namespace Prog

variable {C : Type*} {R : C → Type*} {O S M α : Type*}

/-- The handler that lets a monitor observe each answered command. -/
def watch (exec : (c : C) → O → S → Option (R c × S)) (observe : (c : C) → R c → S → M → M)
    (c : C) (o : O) (x : S × M) : Option (R c × (S × M)) :=
  (exec c o x.1).map fun y => (y.1, (y.2, observe c y.1 y.2 x.2))

variable {exec : (c : C) → O → S → Option (R c × S)} {observe : (c : C) → R c → S → M → M}
variable {c : C} {o : O} {x : S × M} {r : R c} {s s' : S} {m m' : M}

theorem watch_eq_some_iff :
    watch exec observe c o (s, m) = some (r, (s', m')) ↔
      exec c o s = some (r, s') ∧ m' = observe c r s' m := by
  unfold watch
  constructor
  · intro h
    obtain ⟨⟨r₀, s₀⟩, hexec, heq⟩ := Option.map_eq_some_iff.1 h
    simp only [Prod.mk.injEq] at heq
    obtain ⟨rfl, rfl, rfl⟩ := heq
    exact ⟨hexec, rfl⟩
  · rintro ⟨hexec, rfl⟩
    rw [hexec]
    rfl

/-- Watching changes no run. -/
theorem run_watch {p : Prog C R α} {os : List O} {s : S} {m : M} :
    (p.run (watch exec observe) os (s, m)).map (fun y => (y.1, y.2.1)) = p.run exec os s := by
  induction p generalizing os s m with
  | ret a => rfl
  | op c k ih =>
    cases os with
    | nil => rfl
    | cons o os =>
      cases hexec : exec c o s with
      | none => simp only [run, watch, hexec, Option.map_none]
      | some y =>
        simp only [run, watch, hexec, Option.map_some]
        exact ih y.1

end Prog

end Conc
