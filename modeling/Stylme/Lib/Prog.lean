-- SUMMARY: Programs as trees of commands: sequencing, sequential runs with their weakest precondition, and conformance to a protocol.
import Mathlib.Logic.Function.Basic

/-!
# Programs over a command interface

A program either returns or issues one command and continues with the answer.
The interface `C` lists the commands and `R c` is the type of the answers to
`c`; what a command does to a state is supplied separately by a handler. The
same program can therefore be run alone (`Prog.run`) or one command at a time
between the commands of other programs (`Conc.System`).

The answer to a command may depend on things the state does not determine, such
as a fault or a random value. A handler receives them as an oracle.
-/

namespace Conc

universe u v w

/-- A program over the commands `C` with answers `R`, returning an `α`. -/
inductive Prog (C : Type u) (R : C → Type v) (α : Type w) : Type (max u v w) where
  | ret (a : α)
  | op (c : C) (k : R c → Prog C R α)

namespace Prog

variable {C : Type u} {R : C → Type v} {α β : Type w}

/-! ## Sequencing -/

/-- Run `p`, then continue with `f` on its value. -/
def bind {α β : Type w} : Prog C R α → (α → Prog C R β) → Prog C R β
  | .ret a, f => f a
  | .op c k, f => .op c (fun r => (k r).bind f)

instance : Monad (Prog C R) where
  pure := .ret
  bind := bind

/-- The program that issues one command and returns its answer. -/
def call {R : C → Type w} (c : C) : Prog C R (R c) := .op c .ret

theorem pure_eq (a : α) : (pure a : Prog C R α) = .ret a := rfl

theorem ret_bind (a : α) (f : α → Prog C R β) : (Prog.ret a >>= f) = f a := rfl

theorem op_bind (c : C) (k : R c → Prog C R α) (f : α → Prog C R β) :
    (Prog.op c k >>= f) = .op c (fun r => k r >>= f) := rfl

theorem bind_assoc {γ : Type w} (p : Prog C R α) (f : α → Prog C R β) (g : β → Prog C R γ) :
    (p.bind f).bind g = p.bind fun a => (f a).bind g := by
  induction p with
  | ret a => rfl
  | op c k ih => exact congrArg (Prog.op c) (funext ih)

theorem bind_ret (p : Prog C R α) : p.bind .ret = p := by
  induction p with
  | ret a => rfl
  | op c k ih => exact congrArg (Prog.op c) (funext ih)

instance : LawfulMonad (Prog C R) := LawfulMonad.mk' _ bind_ret ret_bind bind_assoc

theorem call_bind {R : C → Type w} {β : Type w} (c : C) (f : R c → Prog C R β) :
    (call c >>= f) = .op c f := rfl

/-! ## Sequential runs -/

section Run

variable {O S : Type*} (exec : (c : C) → O → S → Option (R c × S))

/-- Run a program alone, answering its commands with the oracles in order.
The run is undefined when the oracles are used up or when the handler refuses
one of them. -/
def run : Prog C R α → List O → S → Option (α × S)
  | .ret a, _, s => some (a, s)
  | .op _ _, [], _ => none
  | .op c k, o :: os, s =>
    match exec c o s with
    | none => none
    | some (r, s') => run (k r) os s'

variable {exec} in
/-- A run of a sequence runs its first part. -/
theorem run_bind {p : Prog C R α} {f : α → Prog C R β} {os : List O} {s : S} {x : β × S}
    (h : (p >>= f).run exec os s = some x) :
    ∃ a s₁ os', p.run exec os s = some (a, s₁) ∧ (f a).run exec os' s₁ = some x := by
  induction p generalizing os s with
  | ret a => exact ⟨a, s, os, rfl, h⟩
  | op c k ih =>
    cases os with
    | nil => cases h
    | cons o os =>
      rw [op_bind, run] at h
      split at h
      · cases h
      · rename_i r s₁ hexec
        obtain ⟨a, s₂, os', hp, hf⟩ := ih r h
        exact ⟨a, s₂, os', by rw [run, hexec]; exact hp, hf⟩

variable {exec} in
/-- A run whose first command has an oracle and an answer. -/
theorem run_call_bind {R : C → Type w} {β : Type w} {exec : (c : C) → O → S → Option (R c × S)} {c : C}
    {f : R c → Prog C R β} {os : List O} {s : S} {x : β × S}
    (h : (call c >>= f).run exec os s = some x) :
    ∃ o os' r s₁, os = o :: os' ∧ exec c o s = some (r, s₁) ∧ (f r).run exec os' s₁ = some x := by
  cases os with
  | nil => cases h
  | cons o os =>
    rw [call_bind, run] at h
    split at h
    · cases h
    · rename_i r s₁ hexec
      exact ⟨o, os, r, s₁, rfl, hexec, h⟩

/-- Weakest precondition: every run of the program alone ends in `Q`. -/
def wp (Q : α → S → Prop) : Prog C R α → S → Prop
  | .ret a, s => Q a s
  | .op c k, s => ∀ o r s', exec c o s = some (r, s') → wp Q (k r) s'

variable {exec}

@[simp] theorem wp_ret {Q : α → S → Prop} {a : α} {s : S} : wp exec Q (.ret a) s ↔ Q a s := Iff.rfl

@[simp] theorem wp_pure {Q : α → S → Prop} {a : α} {s : S} :
    wp exec Q (pure a) s ↔ Q a s := Iff.rfl

@[simp] theorem wp_op {Q : α → S → Prop} {c : C} {k : R c → Prog C R α} {s : S} :
    wp exec Q (.op c k) s ↔ ∀ o r s', exec c o s = some (r, s') → wp exec Q (k r) s' := Iff.rfl

theorem wp_sound {Q : α → S → Prop} {p : Prog C R α} {os : List O} {s s' : S} {a : α}
    (h : wp exec Q p s) (hrun : p.run exec os s = some (a, s')) : Q a s' := by
  induction p generalizing os s with
  | ret b =>
    simp only [run, Option.some.injEq, Prod.mk.injEq] at hrun
    obtain ⟨rfl, rfl⟩ := hrun
    exact h
  | op c k ih =>
    cases os with
    | nil => simp [run] at hrun
    | cons o os =>
      simp only [run] at hrun
      split at hrun
      · cases hrun
      · rename_i r s₁ hexec
        exact ih r (h o r s₁ hexec) hrun

theorem wp_mono {Q Q' : α → S → Prop} {p : Prog C R α} {s : S}
    (hQ : ∀ a s, Q a s → Q' a s) (h : wp exec Q p s) : wp exec Q' p s := by
  induction p generalizing s with
  | ret a => exact hQ a s h
  | op c k ih => exact fun o r s' hexec => ih r (h o r s' hexec)

theorem wp_true {p : Prog C R α} {s : S} : wp exec (fun _ _ => True) p s := by
  induction p generalizing s with
  | ret a => trivial
  | op c k ih => exact fun o r s' _ => ih r

/-- A handler that refuses more leaves fewer runs to look at. -/
theorem wp_of_le {exec' : (c : C) → O → S → Option (R c × S)} {Q : α → S → Prop} {p : Prog C R α}
    {s : S} (hle : ∀ c o s x, exec' c o s = some x → exec c o s = some x) (h : wp exec Q p s) :
    wp exec' Q p s := by
  induction p generalizing s with
  | ret a => exact h
  | op c k ih => exact fun o r s' hexec => ih r (h o r s' (hle _ _ _ _ hexec))

theorem wp_bind {Q : β → S → Prop} {p : Prog C R α} {f : α → Prog C R β} {s : S} :
    wp exec Q (p >>= f) s ↔ wp exec (fun a s => wp exec Q (f a) s) p s := by
  induction p generalizing s with
  | ret a => exact Iff.rfl
  | op c k ih =>
    simp only [op_bind, wp_op]
    exact forall₄_congr fun o r s' _ => ih r

theorem wp_call_bind {R : C → Type w} {β : Type w}
    {exec : (c : C) → O → S → Option (R c × S)} {Q : β → S → Prop} {c : C}
    {f : R c → Prog C R β} {s : S} :
    wp exec Q (call c >>= f) s ↔
      ∀ o r s', exec c o s = some (r, s') → wp exec Q (f r) s' := Iff.rfl

/-! ## Ends of runs -/

variable (exec) in
/-- Some run of `p` alone from `s` returns `a` in `s'`. -/
def Ends (p : Prog C R α) (s : S) (a : α) (s' : S) : Prop := ∃ os, p.run exec os s = some (a, s')

@[simp] theorem ends_ret {a b : α} {s s' : S} : Ends exec (.ret a) s b s' ↔ a = b ∧ s = s' := by
  simp [Ends, run]

@[simp] theorem ends_pure {a b : α} {s s' : S} :
    Ends exec (pure a) s b s' ↔ a = b ∧ s = s' := ends_ret

theorem ends_op {c : C} {k : R c → Prog C R α} {s s' : S} {a : α} :
    Ends exec (.op c k) s a s' ↔ ∃ o r s₁, exec c o s = some (r, s₁) ∧ Ends exec (k r) s₁ a s' := by
  constructor
  · rintro ⟨os, hrun⟩
    cases os with
    | nil => simp [run] at hrun
    | cons o os =>
      simp only [run] at hrun
      split at hrun
      · cases hrun
      · rename_i r s₁ hexec
        exact ⟨o, r, s₁, hexec, os, hrun⟩
  · rintro ⟨o, r, s₁, hexec, os, hrun⟩
    exact ⟨o :: os, by simp only [run, hexec, hrun]⟩

theorem ends_call_bind {R : C → Type w} {β : Type w} {exec : (c : C) → O → S → Option (R c × S)} {c : C}
    {f : R c → Prog C R β} {s s' : S} {b : β} :
    Ends exec (call c >>= f) s b s' ↔ ∃ o r s₁, exec c o s = some (r, s₁) ∧ Ends exec (f r) s₁ b s' := ends_op

theorem ends_bind {p : Prog C R α} {f : α → Prog C R β} {s s' : S} {b : β} :
    Ends exec (p >>= f) s b s' ↔ ∃ a s₁, Ends exec p s a s₁ ∧ Ends exec (f a) s₁ b s' := by
  induction p generalizing s with
  | ret a =>
    rw [ret_bind]
    refine ⟨fun h => ⟨a, s, ends_ret.2 ⟨rfl, rfl⟩, h⟩, ?_⟩
    rintro ⟨a', s₁, hp, hf⟩
    obtain ⟨rfl, rfl⟩ := ends_ret.1 hp
    exact hf
  | op c k ih =>
    rw [op_bind]
    simp only [ends_op, ih]
    constructor
    · rintro ⟨o, r, s₁, hexec, a, s₂, hp, hf⟩
      exact ⟨a, s₂, ⟨o, r, s₁, hexec, hp⟩, hf⟩
    · rintro ⟨a, s₂, ⟨o, r, s₁, hexec, hp⟩, hf⟩
      exact ⟨o, r, s₁, hexec, a, s₂, hp, hf⟩

/-- A program that issues a command ends where some answer to it leads. -/
theorem Ends.call {R : C → Type w} {β : Type w} {exec : (c : C) → O → S → Option (R c × S)} {c : C}
    {f : R c → Prog C R β} {s s₁ s' : S} {b : β} {r : R c} (o : O) (hexec : exec c o s = some (r, s₁))
    (hf : Ends exec (f r) s₁ b s') : Ends exec (Prog.call c >>= f) s b s' :=
  ends_op.2 ⟨o, r, s₁, hexec, hf⟩

theorem Ends.wp {Q : α → S → Prop} {p : Prog C R α} {s s' : S} {a : α} (h : Ends exec p s a s')
    (hp : wp exec Q p s) : Q a s' :=
  let ⟨_, hrun⟩ := h
  wp_sound hp hrun

/-- A weakest precondition speaks about all ends. -/
theorem wp_iff_ends {Q : α → S → Prop} {p : Prog C R α} {s : S} :
    Prog.wp exec Q p s ↔ ∀ a s', Ends exec p s a s' → Q a s' := by
  refine ⟨fun hp a s' h => h.wp hp, fun h => ?_⟩
  induction p generalizing s with
  | ret a => exact h a s (ends_ret.2 ⟨rfl, rfl⟩)
  | op c k ih =>
    exact fun o r s₁ hexec => ih r fun a s' hk => h a s' (ends_op.2 ⟨o, r, s₁, hexec, hk⟩)

/-- A handler that refuses more has fewer runs. -/
theorem Ends.of_le {exec' : (c : C) → O → S → Option (R c × S)} {p : Prog C R α} {s s' : S} {a : α}
    (hle : ∀ c o s x, exec' c o s = some x → exec c o s = some x) (h : Ends exec' p s a s') :
    Ends exec p s a s' := by
  induction p generalizing s with
  | ret b => exact ends_ret.2 (ends_ret.1 h)
  | op c k ih =>
    obtain ⟨o, r, s₁, hexec, hk⟩ := ends_op.1 h
    exact ends_op.2 ⟨o, r, s₁, hle _ _ _ _ hexec, ih r hk⟩

end Run

end Prog

/-! ## Conformance to a protocol -/

/-- A protocol watches the commands of one program: it moves between phases on
each answered command and says which commands a phase permits. -/
structure Protocol (C : Type u) (R : C → Type v) (L : Type w) where
  permits : L → C → Prop
  next : L → (c : C) → R c → L

/-- The protocol that permits everything and learns nothing. -/
def Protocol.free {C : Type u} {R : C → Type v} {L : Type w} : Protocol C R L :=
  ⟨fun _ _ => True, fun l _ _ => l⟩

namespace Prog

variable {C : Type u} {R : C → Type v} {α β : Type w} {L : Type*}

/-- Whatever the answers, `p` issues only commands that `P` permits from phase
`l` on, and returns in a phase and with a value related by `Q`. -/
def Conforms (P : Protocol C R L) (Q : L → α → Prop) : L → Prog C R α → Prop
  | l, .ret a => Q l a
  | l, .op c k => P.permits l c ∧ ∀ r, Conforms P Q (P.next l c r) (k r)

variable {P : Protocol C R L}

@[simp] theorem conforms_ret {Q : L → α → Prop} {l : L} {a : α} :
    Conforms P Q l (.ret a) ↔ Q l a := Iff.rfl

@[simp] theorem conforms_pure {Q : L → α → Prop} {l : L} {a : α} :
    Conforms P Q l (pure a) ↔ Q l a := Iff.rfl

@[simp] theorem conforms_op {Q : L → α → Prop} {l : L} {c : C} {k : R c → Prog C R α} :
    Conforms P Q l (.op c k) ↔
      P.permits l c ∧ ∀ r, Conforms P Q (P.next l c r) (k r) := Iff.rfl

theorem Conforms.pure {Q : L → α → Prop} {l : L} {a : α} (h : Q l a) :
    Conforms P Q l (Pure.pure a) := h

theorem Conforms.call {R : C → Type w} {β : Type w} {P : Protocol C R L}
    {Q : L → β → Prop} {l : L} {c : C} {f : R c → Prog C R β} (hpermits : P.permits l c)
    (hf : ∀ r, Conforms P Q (P.next l c r) (f r)) : Conforms P Q l (call c >>= f) :=
  ⟨hpermits, hf⟩

theorem Conforms.mono {Q Q' : L → α → Prop} {p : Prog C R α} {l : L}
    (h : Conforms P Q l p) (hQ : ∀ l a, Q l a → Q' l a) : Conforms P Q' l p := by
  induction p generalizing l with
  | ret a => exact hQ l a h
  | op c k ih => exact ⟨h.1, fun r => ih r (h.2 r)⟩

theorem Conforms.bind {Q : L → α → Prop} {Q' : L → β → Prop} {p : Prog C R α}
    {f : α → Prog C R β} {l : L} (h : Conforms P Q l p)
    (hf : ∀ l a, Q l a → Conforms P Q' l (f a)) : Conforms P Q' l (p >>= f) := by
  induction p generalizing l with
  | ret a => exact hf l a h
  | op c k ih => exact ⟨h.1, fun r => ih r (h.2 r)⟩

/-- A program conforms to a protocol with the same phases that permits more. -/
theorem Conforms.widen {P' : Protocol C R L} {Q : L → α → Prop} {p : Prog C R α} {l : L}
    (h : Conforms P Q l p) (hpermits : ∀ l c, P.permits l c → P'.permits l c)
    (hnext : P'.next = P.next) : Conforms P' Q l p := by
  induction p generalizing l with
  | ret a => exact h
  | op c k ih =>
    refine ⟨hpermits l c h.1, fun r => ?_⟩
    rw [hnext]
    exact ih r (h.2 r)

theorem Conforms.free {L : Type} {l : L} {p : Prog C R α} :
    Conforms Protocol.free (fun _ _ => True) l p := by
  induction p generalizing l with
  | ret a => trivial
  | op c k ih => exact ⟨trivial, fun _ => ih _⟩

/-- A property of phase and state that every permitted command keeps holds when a
conforming program, run alone, returns. -/
theorem Conforms.wp {O S : Type*} {exec : (c : C) → O → S → Option (R c × S)} {I : L → S → Prop}
    {Q : L → α → Prop} {p : Prog C R α} {l : L} {s : S} (h : Conforms P Q l p) (hI : I l s)
    (hstep : ∀ l c o r s s', I l s → P.permits l c → exec c o s = some (r, s') → I (P.next l c r) s') :
    wp exec (fun a s' => ∃ l', Q l' a ∧ I l' s') p s := by
  induction p generalizing l s with
  | ret a => exact ⟨l, h, hI⟩
  | op c k ih => exact fun o r s' hexec => ih r (h.2 r) (hstep _ _ _ _ _ _ hI h.1 hexec)

/-- A program whose commands can all be answered has a run to its end. -/
theorem Conforms.exists_end {O S : Type*} {exec : (c : C) → O → S → Option (R c × S)}
    {Q : L → α → Prop} {p : Prog C R α} {l : L} {s : S} (h : Conforms P Q l p)
    (hstep : ∀ l c s, P.permits l c → ∃ o x, exec c o s = some x) : ∃ a s', Ends exec p s a s' := by
  induction p generalizing l s with
  | ret a => exact ⟨a, s, ends_ret.2 ⟨rfl, rfl⟩⟩
  | op c k ih =>
    obtain ⟨o, ⟨r, s₁⟩, hexec⟩ := hstep l c s h.1
    obtain ⟨a, s', hend⟩ := ih r (h.2 r)
    exact ⟨a, s', ends_op.2 ⟨o, r, s₁, hexec, hend⟩⟩

-- from here on a conformance is taken apart by the lemmas above, never by unfolding the program
attribute [irreducible] Conforms

end Prog

end Conc
