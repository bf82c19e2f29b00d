-- SUMMARY: Programs whose commands may raise: sequencing, handlers and finalizers, with their weakest preconditions and conformance.
import Stylme.Lib.Prog

/-!
# Programs that may raise

A command answers with a value or raises an error, and a program ends with a
value or with an error nobody has handled. Which errors a handler catches, and
which ones unwind through a finalizer, is a property of the error: one that
stands for the death of the process does neither.
-/

namespace Conc

/-- The answers to commands that may raise an `ε`. -/
abbrev Raising {C : Type} (ε : Type) (A : C → Type) (c : C) : Type := Except ε (A c)

/-- A program over commands that may raise, itself raising or returning an `α`. -/
abbrev Raise (C : Type) (A : C → Type) (ε α : Type) : Type := ExceptT ε (Prog C (Raising ε A)) α

namespace Raise

variable {C : Type} {A : C → Type} {ε α β : Type}

/-- Issue one command. -/
def ask (c : C) : Raise C A ε (A c) := ExceptT.mk (Prog.call c)

/-- A computation that issues no command. -/
def lift (r : Except ε α) : Raise C A ε α := ExceptT.mk (.ret r)

/-- Run `p` if the condition holds. -/
def when (b : Bool) (p : Raise C A ε Unit) : Raise C A ε Unit := if b then p else pure ()

/-- Run `p`, and `handler` on an error that is caught. -/
def tryExcept (catches : ε → Bool) (p : Raise C A ε α) (handler : ε → Raise C A ε α) :
    Raise C A ε α :=
  ExceptT.mk (Prog.bind p fun r =>
    match r with
    | .ok a => .ret (.ok a)
    | .error e => if catches e then handler e else .ret (.error e))

/-- Run `p` and then `q`, unless the program is dead by then. -/
def tryFinally (unwinds : ε → Bool) (p : Raise C A ε α) (q : Raise C A ε Unit) : Raise C A ε α :=
  ExceptT.mk (Prog.bind p fun r =>
    match r with
    | .ok a => Prog.bind q fun
      | .ok () => .ret (.ok a)
      | .error e => .ret (.error e)
    | .error e =>
      if unwinds e then Prog.bind q fun
        | .ok () => .ret (.error e)
        | .error e' => .ret (.error e')
      else .ret (.error e))

/-- Run a program for each element in turn, and go on after an error of a kind
that is collected; the first of these is raised at the end. -/
def forAll (collects : ε → Bool) (f : α → Raise C A ε Unit) : List α → Raise C A ε Unit
  | [] => pure ()
  | a :: as => ExceptT.mk (Prog.bind (f a) fun
    | .ok () => forAll collects f as
    | .error e =>
      if collects e then Prog.bind (forAll collects f as) fun
        | .ok () => .ret (.error e)
        | .error e' => .ret (.error (if collects e' then e else e'))
      else .ret (.error e))

/-! ## Weakest preconditions -/

section Wp

variable {O S : Type} {exec : (c : C) → O → S → Option (Raising ε A c × S)}
variable {Q : Except ε α → S → Prop} {Q' : Except ε β → S → Prop} {s : S}

/-- A postcondition that speaks of the value, and of the error in its place. -/
def Post (ok : α → S → Prop) (error : ε → S → Prop) : Except ε α → S → Prop
  | .ok a, s => ok a s
  | .error e, s => error e s

theorem wp_pure {a : α} : Prog.wp exec Q (pure a : Raise C A ε α) s ↔ Q (.ok a) s := Iff.rfl

theorem wp_throw {e : ε} : Prog.wp exec Q (throw e : Raise C A ε α) s ↔ Q (.error e) s := Iff.rfl

theorem wp_lift {r : Except ε α} : Prog.wp exec Q (lift r : Raise C A ε α) s ↔ Q r s := Iff.rfl

theorem wp_bind {p : Raise C A ε α} {f : α → Raise C A ε β} :
    Prog.wp exec Q' (p >>= f : Raise C A ε β) s ↔
      Prog.wp exec (Post (fun a s => Prog.wp exec Q' (f a) s) fun e s => Q' (.error e) s) p s := by
  refine (Prog.wp_bind (f := ExceptT.bindCont f)).trans ?_
  constructor
  · refine Prog.wp_mono fun r s h => ?_
    cases r <;> exact h
  · refine Prog.wp_mono fun r s h => ?_
    cases r <;> exact h

theorem wp_ask {c : C} {Q : Except ε (A c) → S → Prop} :
    Prog.wp exec Q (ask c) s ↔ ∀ o r s', exec c o s = some (r, s') → Q r s' := Iff.rfl

theorem wp_ask_bind {c : C} {f : A c → Raise C A ε β} :
    Prog.wp exec Q' (ask c >>= f : Raise C A ε β) s ↔ ∀ o r s', exec c o s = some (r, s') →
      Post (fun a s => Prog.wp exec Q' (f a) s) (fun e s => Q' (.error e) s) r s' :=
  wp_bind.trans wp_ask

theorem wp_tryExcept {catches : ε → Bool} {p : Raise C A ε α} {handler : ε → Raise C A ε α}
    (h : Prog.wp exec (Post (fun a s => Q (.ok a) s) fun e s =>
      if catches e then Prog.wp exec Q (handler e) s else Q (.error e) s) p s) :
    Prog.wp exec Q (tryExcept catches p handler) s := by
  refine Prog.wp_bind.2 (Prog.wp_mono (fun r s hr => ?_) h)
  cases r with
  | ok a => exact hr
  | error e =>
    simp only [Post] at hr
    dsimp only
    split at hr
    · rename_i hcatch
      rw [if_pos hcatch]
      exact hr
    · rename_i hcatch
      rw [if_neg hcatch]
      exact hr

theorem wp_tryFinally {unwinds : ε → Bool} {p : Raise C A ε α} {q : Raise C A ε Unit}
    (h : Prog.wp exec (Post
      (fun a s => Prog.wp exec (Post (fun _ s => Q (.ok a) s) fun e s => Q (.error e) s) q s)
      fun e s => if unwinds e then
          Prog.wp exec (Post (fun _ s => Q (.error e) s) fun e' s => Q (.error e') s) q s
        else Q (.error e) s) p s) :
    Prog.wp exec Q (tryFinally unwinds p q) s := by
  refine Prog.wp_bind.2 (Prog.wp_mono (fun r s hr => ?_) h)
  cases r with
  | ok a =>
    refine Prog.wp_bind.2 (Prog.wp_mono (fun r s hr => ?_) hr)
    cases r <;> exact hr
  | error e =>
    simp only [Post] at hr
    dsimp only
    split at hr
    · rename_i hunwind
      rw [if_pos hunwind]
      refine Prog.wp_bind.2 (Prog.wp_mono (fun r s hr => ?_) hr)
      cases r <;> exact hr
    · rename_i hunwind
      rw [if_neg hunwind]
      exact hr

theorem wp_when {b : Bool} {p : Raise C A ε Unit} {Q : Except ε Unit → S → Prop}
    (h : b → Prog.wp exec Q p s) (hskip : ¬ b → Q (.ok ()) s) : Prog.wp exec Q (when b p) s := by
  unfold when
  split
  · exact h ‹_›
  · exact hskip ‹_›

/-- A loop that ends without an error has gone through all elements without one; errors are
raised only if `E`. -/
theorem wp_forAll {collects : ε → Bool} {f : α → Raise C A ε Unit} {as : List α} {E : Prop}
    {I : List α → S → Prop} (hs : I [] s)
    (hstep : ∀ done a rest, as = done ++ a :: rest → ∀ s, I done s →
      Prog.wp exec (Post (fun _ s' => I (done ++ [a]) s') fun _ _ => E) (f a) s) :
    Prog.wp exec (Post (fun _ s' => I as s') fun _ _ => E) (forAll collects f as) s := by
  have hrest : ∀ rest done s, as = done ++ rest → I done s →
      Prog.wp exec (Post (fun _ s' => I as s') fun _ _ => E) (forAll collects f rest) s := by
    intro rest
    induction rest with
    | nil =>
      intro done s has h
      rw [List.append_nil] at has
      exact has ▸ h
    | cons a rest ih =>
      intro done s has h
      refine Prog.wp_bind.2 (Prog.wp_mono (fun r s' hr => ?_) (hstep done a rest has s h))
      cases r with
      | ok u => exact ih (done ++ [a]) s' (by rw [has, List.append_assoc]; rfl) hr
      | error e =>
        dsimp only
        split
        · refine Prog.wp_bind.2 (Prog.wp_mono (fun r s' _ => ?_) Prog.wp_true)
          cases r <;> exact hr
        · exact hr
  exact hrest as [] s rfl hs

/-! ## Invariants of a program -/

/-- The program ends with `I` whenever it starts with it. -/
def Preserves (exec : (c : C) → O → S → Option (Raising ε A c × S)) (I : S → Prop)
    (p : Raise C A ε α) : Prop :=
  ∀ s, I s → Prog.wp exec (fun _ s' => I s') p s

variable {I : S → Prop}

theorem preserves_pure {a : α} : Preserves exec I (pure a : Raise C A ε α) := fun _ h => h

theorem preserves_throw {e : ε} : Preserves exec I (throw e : Raise C A ε α) := fun _ h => h

theorem preserves_lift {r : Except ε α} : Preserves exec I (lift r : Raise C A ε α) := fun _ h => h

theorem preserves_ask {c : C} (h : ∀ o r s s', I s → exec c o s = some (r, s') → I s') :
    Preserves exec I (ask c : Raise C A ε (A c)) :=
  fun s hs o r s' hexec => h o r s s' hs hexec

theorem preserves_bind {p : Raise C A ε α} {f : α → Raise C A ε β} (h : Preserves exec I p)
    (hf : ∀ a, Preserves exec I (f a)) : Preserves exec I (p >>= f) := by
  refine fun s hs => wp_bind.2 (Prog.wp_mono (fun r s' hs' => ?_) (h s hs))
  cases r with
  | ok a => exact hf a s' hs'
  | error e => exact hs'

theorem preserves_tryExcept {catches : ε → Bool} {p : Raise C A ε α} {handler : ε → Raise C A ε α}
    (h : Preserves exec I p) (hhandler : ∀ e, Preserves exec I (handler e)) :
    Preserves exec I (tryExcept catches p handler) := by
  refine fun s hs => wp_tryExcept (Prog.wp_mono (fun r s' hs' => ?_) (h s hs))
  cases r with
  | ok a => exact hs'
  | error e =>
    simp only [Post]
    split
    · exact hhandler e s' hs'
    · exact hs'

theorem preserves_tryFinally {unwinds : ε → Bool} {p : Raise C A ε α} {q : Raise C A ε Unit}
    (h : Preserves exec I p) (hq : Preserves exec I q) :
    Preserves exec I (tryFinally unwinds p q) := by
  have hafter : ∀ {Q : Unit → S → Prop} {Q' : ε → S → Prop}, (∀ u s, I s → Q u s) →
      (∀ e s, I s → Q' e s) → ∀ s, I s → Prog.wp exec (Post Q Q') q s := by
    intro Q Q' hQ hQ' s hs
    refine Prog.wp_mono (fun r s' hs' => ?_) (hq s hs)
    cases r with
    | ok u => exact hQ u s' hs'
    | error e => exact hQ' e s' hs'
  refine fun s hs => wp_tryFinally (Prog.wp_mono (fun r s' hs' => ?_) (h s hs))
  cases r with
  | ok a => exact hafter (fun _ _ h => h) (fun _ _ h => h) s' hs'
  | error e =>
    simp only [Post]
    split
    · exact hafter (fun _ _ h => h) (fun _ _ h => h) s' hs'
    · exact hs'

end Wp

/-! ## Conformance -/

section Conforms

variable {L : Type} {P : Protocol C (Raising ε A) L} {l : L}
variable {Q : L → Except ε α → Prop} {Q' : L → Except ε β → Prop}

theorem conforms_pure {a : α} (h : Q l (.ok a)) : Prog.Conforms P Q l (pure a : Raise C A ε α) :=
  Prog.Conforms.pure h

theorem conforms_throw {e : ε} (h : Q l (.error e)) :
    Prog.Conforms P Q l (throw e : Raise C A ε α) :=
  Prog.Conforms.pure h

theorem conforms_lift {r : Except ε α} (h : Q l r) : Prog.Conforms P Q l (lift r : Raise C A ε α) :=
  Prog.Conforms.pure h

theorem conforms_bind {p : Raise C A ε α} {f : α → Raise C A ε β} (h : Prog.Conforms P Q l p)
    (hok : ∀ l a, Q l (.ok a) → Prog.Conforms P Q' l (f a))
    (herror : ∀ l e, Q l (.error e) → Q' l (.error e)) : Prog.Conforms P Q' l (p >>= f : Raise C A ε β) := by
  refine Prog.Conforms.bind (f := ExceptT.bindCont f) h fun l r hr => ?_
  cases r with
  | ok a => exact hok l a hr
  | error e => exact Prog.Conforms.pure (herror l e hr)

theorem conforms_ask {c : C} {Q : L → Except ε (A c) → Prop} (hpermits : P.permits l c)
    (h : ∀ r, Q (P.next l c r) r) : Prog.Conforms P Q l (ask c) :=
  Prog.conforms_op.2 ⟨hpermits, fun r => Prog.conforms_ret.2 (h r)⟩

theorem conforms_ask_bind {c : C} {f : A c → Raise C A ε β} (hpermits : P.permits l c)
    (hok : ∀ a, Prog.Conforms P Q' (P.next l c (.ok a)) (f a))
    (herror : ∀ e, Q' (P.next l c (.error e)) (.error e)) :
    Prog.Conforms P Q' l (ask c >>= f : Raise C A ε β) := by
  refine conforms_bind (Q := fun l' r => l' = P.next l c r) (conforms_ask hpermits fun r => rfl) ?_ ?_
  · rintro _ a rfl
    exact hok a
  · rintro _ e rfl
    exact herror e

theorem conforms_tryExcept {catches : ε → Bool} {p : Raise C A ε α}
    {handler : ε → Raise C A ε α} {Q₀ : L → Except ε α → Prop} (h : Prog.Conforms P Q₀ l p)
    (hok : ∀ l a, Q₀ l (.ok a) → Q l (.ok a))
    (hhandler : ∀ l e, catches e → Q₀ l (.error e) → Prog.Conforms P Q l (handler e))
    (herror : ∀ l e, Q₀ l (.error e) → Q l (.error e)) :
    Prog.Conforms P Q l (tryExcept catches p handler) := by
  refine Prog.Conforms.bind h fun l r hr => ?_
  cases r with
  | ok a => exact Prog.Conforms.pure (hok l a hr)
  | error e =>
    dsimp only
    split
    · rename_i hcatch
      exact hhandler l e hcatch hr
    · exact Prog.Conforms.pure (herror l e hr)

theorem conforms_tryFinally {unwinds : ε → Bool} {p : Raise C A ε α} {q : Raise C A ε Unit}
    {Q₀ : L → Except ε α → Prop} (h : Prog.Conforms P Q₀ l p)
    (hq : ∀ l r, Q₀ l r →
      Prog.Conforms P (fun l' r' => Q l' r ∧ ∀ e, r' = .error e → Q l' (.error e)) l q)
    (herror : ∀ l e, Q₀ l (.error e) → Q l (.error e)) :
    Prog.Conforms P Q l (tryFinally unwinds p q) := by
  refine Prog.Conforms.bind h fun l r hr => ?_
  cases r with
  | ok a =>
    refine Prog.Conforms.bind (hq l _ hr) fun l' r' hr' => ?_
    cases r' with
    | ok u => exact Prog.Conforms.pure hr'.1
    | error e => exact Prog.Conforms.pure (hr'.2 e rfl)
  | error e =>
    dsimp only
    split
    · refine Prog.Conforms.bind (hq l _ hr) fun l' r' hr' => ?_
      cases r' with
      | ok u => exact Prog.Conforms.pure hr'.1
      | error e' => exact Prog.Conforms.pure (hr'.2 e' rfl)
    · exact Prog.Conforms.pure (herror l e hr)

/-- Programs that can follow one another in any phase with `I` make a loop that
starts in such a phase. -/
theorem conforms_forAll {I : L → Prop} {collects : ε → Bool} {Q : L → Except ε Unit → Prop}
    {f : α → Raise C A ε Unit} {as : List α}
    (hf : ∀ a ∈ as, ∀ l, I l → Prog.Conforms P Q l (f a)) (hl : I l)
    (hdone : ∀ l, I l → Q l (.ok ())) (hok : ∀ l, Q l (.ok ()) → I l)
    (hcollect : ∀ l e, collects e → Q l (.error e) → I l)
    (herror : ∀ l e, collects e → I l → Q l (.error e)) :
    Prog.Conforms P Q l (forAll collects f as) := by
  induction as generalizing l with
  | nil => exact Prog.Conforms.pure (hdone l hl)
  | cons a as ih =>
    refine Prog.Conforms.bind (hf a List.mem_cons_self l hl) fun l r hr => ?_
    have hrest := fun l hl => ih (fun b hb => hf b (List.mem_cons_of_mem _ hb)) (l := l) hl
    cases r with
    | ok u => exact hrest l (hok l hr)
    | error e =>
      dsimp only
      split
      · rename_i he
        refine Prog.Conforms.bind (hrest l (hcollect l e he hr)) fun l' r' hr' => ?_
        cases r' with
        | ok u => exact Prog.Conforms.pure (herror l' e he (hok l' hr'))
        | error e' =>
          dsimp only
          split
          · rename_i he'
            exact Prog.Conforms.pure (herror l' e he (hcollect l' e' he' hr'))
          · exact Prog.Conforms.pure hr'
      · exact Prog.Conforms.pure hr

end Conforms

end Raise

end Conc
