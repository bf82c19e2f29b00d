-- SUMMARY: Operations that run one after another, each to its end, and invariants of such sequences.
import Stylme.Lib.Pool

/-!
# Sequences of operations

The sequential reading of a `System`: an operation starts when the one before it
has returned. A sequence keeps the operations with the values they returned. Its
invariants need one weakest precondition per operation.
-/

namespace Conc

variable {Op C : Type} {R : C → Type} {α S O E : Type}

namespace System

/-- The system in which only the commands that meet `allow` are answered. -/
def restrict (sys : System Op C R α S O E) (allow : C → O → S → Bool) : System Op C R α S O E where
  prog := sys.prog
  exec c o s := if allow c o s then sys.exec c o s else none
  env := sys.env

variable {sys : System Op C R α S O E}

theorem restrict_exec {allow : C → O → S → Bool} {c : C} {o : O} {s : S} {x : R c × S} :
    (sys.restrict allow).exec c o s = some x ↔ allow c o s ∧ sys.exec c o s = some x := by
  change (if allow c o s then sys.exec c o s else none) = some x ↔ _
  split <;> simp_all

/-- What every run of a program ends in, every restricted run ends in. -/
theorem wp_restrict {allow : C → O → S → Bool} {β : Type} {Q : β → S → Prop} {p : Prog C R β} {s : S}
    (h : Prog.wp sys.exec Q p s) : Prog.wp (sys.restrict allow).exec Q p s :=
  Prog.wp_of_le (fun _ _ _ _ hexec => (restrict_exec.1 hexec).2) h

variable (sys)

/-- The states after sequences of operations that meet `ok` when they start, with
the operations and their values, newest first. -/
inductive Sequence (ok : S → Op → Prop) (s₀ : S) : List (Op × α) → S → Prop where
  | nil : Sequence ok s₀ [] s₀
  | op {h s op os a s'} : Sequence ok s₀ h s → ok s op →
      (sys.prog op).run sys.exec os s = some (a, s') → Sequence ok s₀ ((op, a) :: h) s'
  | env {h s e} : Sequence ok s₀ h s → Sequence ok s₀ h (sys.env e s)

/-- Run operations one after another, each with its oracles. -/
def sequence (ok : S → Op → Prop) [∀ s op, Decidable (ok s op)] :
    List (Op × List O) → List (Op × α) → S → Option (List (Op × α) × S)
  | [], h, s => some (h, s)
  | (op, os) :: rest, h, s =>
    if ok s op then
      match (sys.prog op).run sys.exec os s with
      | some (a, s') => sequence ok rest ((op, a) :: h) s'
      | none => none
    else none

variable {sys} {ok : S → Op → Prop} {s₀ s s' : S} {h h' : List (Op × α)}

theorem Sequence.of_sequence [∀ s op, Decidable (ok s op)] {ops : List (Op × List O)}
    (hs : Sequence sys ok s₀ h s) (hrun : sys.sequence ok ops h s = some (h', s')) :
    Sequence sys ok s₀ h' s' := by
  induction ops generalizing h s with
  | nil =>
    simp only [sequence, Option.some.injEq, Prod.mk.injEq] at hrun
    obtain ⟨rfl, rfl⟩ := hrun
    exact hs
  | cons x rest ih =>
    simp only [sequence] at hrun
    split at hrun
    · rename_i hok
      split at hrun
      · rename_i a s₁ hop
        exact ih (.op hs hok hop) hrun
      · cases hrun
    · cases hrun

/-- A sequence that can be computed and passes a check ends in a state that passes it. -/
theorem Sequence.exists_of_any [∀ s op, Decidable (ok s op)] {ops : List (Op × List O)}
    {check : List (Op × α) × S → Bool} (hrun : (sys.sequence ok ops [] s₀).any check) :
    ∃ h s, Sequence sys ok s₀ h s ∧ check (h, s) := by
  obtain ⟨⟨h, s⟩, hrun, hcheck⟩ := (Option.any_eq_true ..).1 hrun
  exact ⟨h, s, .of_sequence .nil hrun, hcheck⟩

theorem Sequence.mono {ok' : S → Op → Prop} (hok : ∀ s op, ok s op → ok' s op)
    (hs : Sequence sys ok s₀ h s) : Sequence sys ok' s₀ h s := by
  induction hs with
  | nil => exact .nil
  | op _ h hrun ih => exact .op ih (hok _ _ h) hrun
  | env _ ih => exact .env ih

/-- What holds at the start and is kept by every operation holds after every sequence. -/
theorem Sequence.invariant {I : List (Op × α) → S → Prop} (hinit : I [] s₀)
    (henv : ∀ h s e, I h s → I h (sys.env e s))
    (hop : ∀ h s op, I h s → ok s op →
      Prog.wp sys.exec (fun a s' => I ((op, a) :: h) s') (sys.prog op) s)
    (hs : Sequence sys ok s₀ h s) : I h s := by
  induction hs with
  | nil => exact hinit
  | @op h s op os a s' _ hok hrun ih =>
    have hwp := hop h s op ih hok
    exact Prog.wp_sound (Q := fun a s' => I ((op, a) :: h) s') hwp hrun
  | env _ ih => exact henv _ _ _ ih

end System

/-! ## Histories -/

/-- An operation that ran alone: the oracles it met, the state it found, its value, and the state it
left. -/
structure Turn (Op O α S : Type) where
  op : Op
  oracles : List O
  before : S
  result : α
  after : S

namespace System

variable (sys : System Op C R α S O E)

/-- The states after operations that ran one after another, with the operations, newest first. -/
inductive History (s₀ : S) : List (Turn Op O α S) → S → Prop where
  | nil : History s₀ [] s₀
  | turn {h s op os a s'} : History s₀ h s → (sys.prog op).run sys.exec os s = some (a, s') →
    History s₀ (⟨op, os, s, a, s'⟩ :: h) s'
  | env {h s e} : History s₀ h s → History s₀ h (sys.env e s)

/-- Run operations, each with its oracles, and moves of the environment one after another. -/
def history : List (E ⊕ Op × List O) → List (Turn Op O α S) → S → Option (List (Turn Op O α S) × S)
  | [], h, s => some (h, s)
  | .inl e :: rest, h, s => history rest h (sys.env e s)
  | .inr (op, os) :: rest, h, s =>
    match (sys.prog op).run sys.exec os s with
    | some (a, s') => history rest (⟨op, os, s, a, s'⟩ :: h) s'
    | none => none

variable {sys} {s₀ s s' : S} {h h' : List (Turn Op O α S)}

theorem History.of_history {steps : List (E ⊕ Op × List O)} (hs : sys.History s₀ h s)
    (hrun : sys.history steps h s = some (h', s')) : sys.History s₀ h' s' := by
  induction steps generalizing h s with
  | nil =>
    obtain ⟨rfl, rfl⟩ := Prod.mk.inj (Option.some.inj hrun)
    exact hs
  | cons step rest ih =>
    cases step with
    | inl e => exact ih (.env hs) hrun
    | inr x =>
      simp only [history] at hrun
      split at hrun
      · rename_i a s₁ hop
        exact ih (.turn hs hop) hrun
      · cases hrun

/-- A history that can be computed and passes a check is one that passes it. -/
theorem History.exists_of_any {steps : List (E ⊕ Op × List O)}
    {check : List (Turn Op O α S) × S → Bool} (hrun : (sys.history steps [] s₀).any check) :
    ∃ h s, sys.History s₀ h s ∧ check (h, s) := by
  obtain ⟨⟨h, s⟩, hrun, hcheck⟩ := (Option.any_eq_true ..).1 hrun
  exact ⟨h, s, .of_history .nil hrun, hcheck⟩

/-- Every operation of a history is a run from the state that it found. -/
theorem History.run (hs : sys.History s₀ h s) {x : Turn Op O α S} (hx : x ∈ h) :
    (sys.prog x.op).run sys.exec x.oracles x.before = some (x.result, x.after) := by
  induction hs with
  | nil => exact absurd hx List.not_mem_nil
  | turn _ hrun ih =>
    rcases List.mem_cons.1 hx with rfl | hx
    · exact hrun
    · exact ih hx
  | env _ ih => exact ih hx

/-- What holds at the start and is kept by every operation holds after every history. -/
theorem History.invariant {I : List (Turn Op O α S) → S → Prop} (hinit : I [] s₀)
    (henv : ∀ h s e, I h s → I h (sys.env e s))
    (hturn : ∀ h s op os a s', I h s → (sys.prog op).run sys.exec os s = some (a, s') →
      I (⟨op, os, s, a, s'⟩ :: h) s')
    (hs : sys.History s₀ h s) : I h s := by
  induction hs with
  | nil => exact hinit
  | turn _ hrun ih => exact hturn _ _ _ _ _ _ ih hrun
  | env _ ih => exact henv _ _ _ ih

end System

end Conc
