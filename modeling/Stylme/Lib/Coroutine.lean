-- SUMMARY: Programs that may raise and keep local variables, with their weakest preconditions.
import Stylme.Lib.Raise

/-!
# Coroutines with local variables

The local variables of a coroutine survive an exception: a handler sees the
assignments made before it was raised. They are a state beside the program's
answers, below its exceptions.
-/

namespace Conc

/-- A program that may raise and assigns to local variables `L`. -/
abbrev Coroutine (C : Type) (A : C → Type) (ε L α : Type) : Type :=
  ExceptT ε (StateT L (Prog C (Raising ε A))) α

namespace Coroutine

variable {C : Type} {A : C → Type} {ε L α β : Type}

/-- Run a program that has no part in the local variables. -/
def await (p : Raise C A ε α) : Coroutine C A ε L α :=
  ExceptT.mk fun l => Prog.bind p fun r => .ret (r, l)

/-- Issue one command. -/
def ask (c : C) : Coroutine C A ε L (A c) := await (Raise.ask c)

/-- Assign to the local variables. -/
def assign (f : L → L) : Coroutine C A ε L Unit := ExceptT.mk fun l => .ret (.ok (), f l)

/-- Read the local variables. -/
def locals : Coroutine C A ε L L := ExceptT.mk fun l => .ret (.ok l, l)

/-- Run `p`, and `handler` on its error. -/
def tryExcept (p : Coroutine C A ε L α) (handler : ε → Coroutine C A ε L α) : Coroutine C A ε L α :=
  ExceptT.mk fun l => Prog.bind (p.run l) fun
    | (.ok a, l) => .ret (.ok a, l)
    | (.error e, l) => (handler e).run l

/-- Run `p` and then `q`, unless the program is dead by then. -/
def tryFinally (unwinds : ε → Bool) (p : Coroutine C A ε L α) (q : Coroutine C A ε L Unit) :
    Coroutine C A ε L α :=
  ExceptT.mk fun l => Prog.bind (p.run l) fun
    | (.ok a, l) => Prog.bind (q.run l) fun
      | (.ok (), l) => .ret (.ok a, l)
      | (.error e, l) => .ret (.error e, l)
    | (.error e, l) =>
      if unwinds e then Prog.bind (q.run l) fun
        | (.ok (), l) => .ret (.error e, l)
        | (.error e', l) => .ret (.error e', l)
      else .ret (.error e, l)

/-- Run with the given local variables, and forget them. -/
def start (l : L) (p : Coroutine C A ε L α) : Raise C A ε α :=
  ExceptT.mk (Prog.bind (p.run l) fun y => .ret y.1)

theorem await_pure {a : α} : (await (pure a) : Coroutine C A ε L α) = pure a := rfl

theorem await_throw {e : ε} : (await (throw e) : Coroutine C A ε L α) = throw e := rfl

theorem await_bind {p : Raise C A ε α} {f : α → Raise C A ε β} :
    (await (p >>= f) : Coroutine C A ε L β) = await p >>= fun a => await (f a) := by
  refine funext fun l => ?_
  refine (Prog.bind_assoc ..).trans (Eq.trans ?_ (Prog.bind_assoc ..).symm)
  refine congrArg _ (funext fun r => ?_)
  cases r <;> rfl

/-! ## Weakest preconditions -/

section Wp

variable {O S : Type} {exec : (c : C) → O → S → Option (Raising ε A c × S)}

/-- Every run of the coroutine ends with a result, local variables and a state in `Q`. -/
def wp (exec : (c : C) → O → S → Option (Raising ε A c × S)) (Q : Except ε α → L → S → Prop)
    (p : Coroutine C A ε L α) (l : L) (s : S) : Prop :=
  Prog.wp exec (fun y s => Q y.1 y.2 s) (p.run l) s

variable {Q Q' : Except ε α → L → S → Prop} {R : Except ε β → L → S → Prop} {l : L} {s : S}

theorem wp_mono {p : Coroutine C A ε L α} (hQ : ∀ r l s, Q r l s → Q' r l s) (h : wp exec Q p l s) :
    wp exec Q' p l s :=
  Prog.wp_mono (fun y s => hQ y.1 y.2 s) h

theorem wp_pure {a : α} : wp exec Q (pure a : Coroutine C A ε L α) l s ↔ Q (.ok a) l s := Iff.rfl

theorem wp_throw {e : ε} : wp exec Q (throw e : Coroutine C A ε L α) l s ↔ Q (.error e) l s := Iff.rfl

theorem wp_assign {f : L → L} {Q : Except ε Unit → L → S → Prop} :
    wp exec Q (assign f : Coroutine C A ε L Unit) l s ↔ Q (.ok ()) (f l) s := Iff.rfl

theorem wp_locals {Q : Except ε L → L → S → Prop} :
    wp exec Q (locals : Coroutine C A ε L L) l s ↔ Q (.ok l) l s := Iff.rfl

theorem wp_await {p : Raise C A ε α} (h : Prog.wp exec (fun r s => Q r l s) p s) :
    wp exec Q (await p : Coroutine C A ε L α) l s :=
  Prog.wp_bind.2 h

theorem wp_ask {c : C} {Q : Except ε (A c) → L → S → Prop} :
    wp exec Q (ask c : Coroutine C A ε L (A c)) l s ↔
      ∀ o r s', exec c o s = some (r, s') → Q r l s' := Iff.rfl

theorem wp_bind {p : Coroutine C A ε L α} {f : α → Coroutine C A ε L β}
    (h : wp exec (fun r l s => Raise.Post (fun a s => wp exec R (f a) l s)
      (fun e s => R (.error e) l s) r s) p l s) : wp exec R (p >>= f : Coroutine C A ε L β) l s := by
  refine Prog.wp_bind.2 (Prog.wp_mono (fun y s hy => ?_) h)
  obtain ⟨r, l⟩ := y
  cases r <;> exact hy

theorem wp_ask_bind {c : C} {f : A c → Coroutine C A ε L β}
    (h : ∀ o r s', exec c o s = some (r, s') → Raise.Post (fun a s => wp exec R (f a) l s)
      (fun e s => R (.error e) l s) r s') : wp exec R (ask c >>= f : Coroutine C A ε L β) l s :=
  wp_bind (wp_ask.2 h)

theorem wp_tryExcept {p : Coroutine C A ε L α} {handler : ε → Coroutine C A ε L α}
    (h : wp exec (fun r l s => Raise.Post (fun a s => Q (.ok a) l s)
      (fun e s => wp exec Q (handler e) l s) r s) p l s) : wp exec Q (tryExcept p handler) l s := by
  refine Prog.wp_bind.2 (Prog.wp_mono (fun y s hy => ?_) h)
  obtain ⟨r, l⟩ := y
  cases r <;> exact hy

theorem wp_tryFinally {unwinds : ε → Bool} {p : Coroutine C A ε L α} {q : Coroutine C A ε L Unit}
    (h : wp exec (fun r l s => Raise.Post
      (fun a s => wp exec (fun r' l' s' => Raise.Post (fun _ s' => Q (.ok a) l' s')
        (fun e s' => Q (.error e) l' s') r' s') q l s)
      (fun e s => if unwinds e then wp exec (fun r' l' s' => Raise.Post (fun _ s' => Q (.error e) l' s')
          (fun e' s' => Q (.error e') l' s') r' s') q l s
        else Q (.error e) l s) r s) p l s) : wp exec Q (tryFinally unwinds p q) l s := by
  refine Prog.wp_bind.2 (Prog.wp_mono (fun y s hy => ?_) h)
  obtain ⟨r, l⟩ := y
  cases r with
  | ok a =>
    refine Prog.wp_bind.2 (Prog.wp_mono (fun y s hy => ?_) hy)
    obtain ⟨r', l'⟩ := y
    cases r' <;> exact hy
  | error e =>
    simp only [Raise.Post] at hy
    dsimp only
    split at hy
    · rename_i hunwind
      rw [if_pos hunwind]
      refine Prog.wp_bind.2 (Prog.wp_mono (fun y s hy => ?_) hy)
      obtain ⟨r', l'⟩ := y
      cases r' <;> exact hy
    · rename_i hunwind
      rw [if_neg hunwind]
      exact hy

theorem wp_start {p : Coroutine C A ε L α} {Q : Except ε α → S → Prop}
    (h : wp exec (fun r _ s => Q r s) p l s) : Prog.wp exec Q (start l p) s :=
  Prog.wp_bind.2 h

end Wp

end Coroutine

end Conc
