-- SUMMARY: Protocols that keep the whole trace: what a program has done before it issues a command.
import Mathlib.Data.List.Infix
import Stylme.Lib.Coroutine
import Stylme.Lib.Pool

/-!
# Traced programs

A traced protocol permits a command by what the program has issued so far, and with
which answers. The trace only grows, so what it shows stays shown: a fact that a part
of a program establishes can be used in every later part.
-/

namespace Conc

/-- The commands issued so far with their answers, newest first. -/
abbrev Trace (C : Type) (R : C → Type) : Type := List (Σ c, R c)

section Protocol

variable {C : Type} {R : C → Type}

/-- The protocol that keeps the trace. -/
def Protocol.traced (permits : Trace C R → C → Prop) : Protocol C R (Trace C R) :=
  ⟨permits, fun tr c r => ⟨c, r⟩ :: tr⟩

theorem Protocol.phase_traced {permits : Trace C R → C → Prop} {tr : Trace C R} :
    (Protocol.traced permits).phase [] tr = tr := by
  induction tr with
  | nil => rfl
  | cons e tr ih => exact congrArg (List.cons e) ih

/-- From the trace `tr` on the program issues only commands that are permitted, and it ends with a
trace and a value in `Q`. -/
def Prog.Follows {α : Type} (permits : Trace C R → C → Prop) (Q : Trace C R → α → Prop) (tr : Trace C R)
    (p : Prog C R α) : Prop :=
  Prog.Conforms (.traced permits) (fun tr' a => tr <:+ tr' ∧ Q tr' a) tr p

variable {α β : Type} {permits : Trace C R → C → Prop} {Q Q₀ : Trace C R → α → Prop} {Q' : Trace C R → β → Prop}
variable {tr : Trace C R}

theorem Prog.Follows.mono {p : Prog C R α} (h : Prog.Follows permits Q₀ tr p)
    (hQ : ∀ tr' a, tr <:+ tr' → Q₀ tr' a → Q tr' a) : Prog.Follows permits Q tr p :=
  Prog.Conforms.mono h fun tr' a ha => ⟨ha.1, hQ tr' a ha.1 ha.2⟩

theorem Prog.follows_ret {a : α} (h : Q tr a) : Prog.Follows permits Q tr (.ret a) :=
  Prog.Conforms.pure ⟨List.suffix_rfl, h⟩

theorem Prog.Follows.bind {p : Prog C R α} {f : α → Prog C R β} (h : Prog.Follows permits Q tr p)
    (hf : ∀ tr' a, tr <:+ tr' → Q tr' a → Prog.Follows permits Q' tr' (f a)) :
    Prog.Follows permits Q' tr (p >>= f) :=
  Prog.Conforms.bind h fun tr' a ha =>
    Prog.Conforms.mono (hf tr' a ha.1 ha.2) fun _ _ hb => ⟨ha.1.trans hb.1, hb.2⟩

end Protocol

/-! ## Programs that raise -/

section Raise

variable {C : Type} {A : C → Type} {ε α β : Type} {permits : Trace C (Raising ε A) → C → Prop}
variable {Q Q₀ : Trace C (Raising ε A) → α → Prop} {Q' : Trace C (Raising ε A) → β → Prop}
variable {tr : Trace C (Raising ε A)}

/-- Of a value that was returned. -/
def Returns (Q : Trace C (Raising ε A) → α → Prop) (tr : Trace C (Raising ε A)) (r : Except ε α) : Prop :=
  ∀ a, r = .ok a → Q tr a

/-- A program that raises follows its permissions, and a value that it returns is in `Q`. -/
abbrev Raise.Follows (permits : Trace C (Raising ε A) → C → Prop) (Q : Trace C (Raising ε A) → α → Prop)
    (tr : Trace C (Raising ε A)) (p : Raise C A ε α) : Prop :=
  Prog.Follows permits (Returns Q) tr p

theorem Raise.follows_pure {a : α} (h : Q tr a) : Raise.Follows permits Q tr (pure a : Raise C A ε α) :=
  Prog.follows_ret fun _ ha => Except.ok.inj ha ▸ h

theorem Raise.follows_throw {e : ε} : Raise.Follows permits Q tr (throw e : Raise C A ε α) :=
  Prog.follows_ret nofun

theorem Raise.Follows.bind {p : Raise C A ε α} {f : α → Raise C A ε β} (h : Raise.Follows permits Q tr p)
    (hf : ∀ tr' a, tr <:+ tr' → Q tr' a → Raise.Follows permits Q' tr' (f a)) :
    Raise.Follows permits Q' tr (p >>= f) := by
  refine Prog.Follows.bind (f := ExceptT.bindCont f) h fun tr' r hsuffix hr => ?_
  cases r with
  | ok a => exact hf tr' a hsuffix (hr a rfl)
  | error e => exact Raise.follows_throw

theorem Raise.follows_ask {c : C} {Q : Trace C (Raising ε A) → A c → Prop} (hpermits : permits tr c)
    (h : ∀ a, Q (⟨c, .ok a⟩ :: tr) a) : Raise.Follows permits Q tr (Raise.ask c : Raise C A ε (A c)) :=
  Prog.conforms_op.2 ⟨hpermits, fun r => Prog.conforms_ret.2
    ⟨List.suffix_cons .., fun a ha => by subst ha; exact h a⟩⟩

/-- What a command answers is not looked at. -/
theorem Raise.follows_ask_bind {c : C} {f : A c → Raise C A ε β} (hpermits : permits tr c)
    (hf : ∀ tr' a, tr <:+ tr' → Raise.Follows permits Q' tr' (f a)) :
    Raise.Follows permits Q' tr (Raise.ask c >>= f : Raise C A ε β) :=
  Raise.Follows.bind (Q := fun _ _ => True) (Raise.follows_ask hpermits fun _ => trivial)
    fun tr' a hsuffix _ => hf tr' a hsuffix

theorem Raise.follows_tryExcept {catches : ε → Bool} {p : Raise C A ε α} {handler : ε → Raise C A ε α}
    (h : Raise.Follows permits Q tr p)
    (hhandler : ∀ tr' e, tr <:+ tr' → Raise.Follows permits Q tr' (handler e)) :
    Raise.Follows permits Q tr (Raise.tryExcept catches p handler) := by
  refine Prog.Follows.bind h fun tr' r hsuffix hr => ?_
  cases r with
  | ok a => exact Raise.follows_pure (hr a rfl)
  | error e =>
    dsimp only
    split
    · exact hhandler tr' e hsuffix
    · exact Raise.follows_throw

end Raise

/-! ## Coroutines -/

section Coroutine

variable {C : Type} {A : C → Type} {ε L α β : Type} {permits : Trace C (Raising ε A) → C → Prop}
variable {Q Q₀ : Trace C (Raising ε A) → α → Prop} {Q' : Trace C (Raising ε A) → β → Prop}
variable {tr : Trace C (Raising ε A)}

/-- A coroutine follows its permissions whatever its local variables, and a value that it returns is in `Q`. -/
def Coroutine.Follows (permits : Trace C (Raising ε A) → C → Prop) (Q : Trace C (Raising ε A) → α → Prop)
    (tr : Trace C (Raising ε A)) (p : Coroutine C A ε L α) : Prop :=
  ∀ l, Prog.Follows permits (fun tr' y => Returns Q tr' y.1) tr (p.run l)

namespace Coroutine

theorem Follows.mono {p : Coroutine C A ε L α} (h : Follows permits Q₀ tr p)
    (hQ : ∀ tr' a, tr <:+ tr' → Q₀ tr' a → Q tr' a) : Follows permits Q tr p :=
  fun l => (h l).mono fun tr' _ hsuffix hy a ha => hQ tr' a hsuffix (hy a ha)

theorem follows_pure {a : α} (h : Q tr a) : Follows permits Q tr (pure a : Coroutine C A ε L α) :=
  fun _ => Prog.follows_ret fun _ ha => Except.ok.inj ha ▸ h

theorem follows_throw {e : ε} : Follows permits Q tr (throw e : Coroutine C A ε L α) :=
  fun _ => Prog.follows_ret fun _ ha => by cases ha

theorem follows_await {p : Raise C A ε α} (h : Raise.Follows permits Q tr p) :
    Follows permits Q tr (await p : Coroutine C A ε L α) :=
  fun l => Prog.Follows.bind (f := fun r => .ret (r, l)) h fun _ _ _ hr => Prog.follows_ret hr

theorem follows_ask {c : C} {Q : Trace C (Raising ε A) → A c → Prop} (hpermits : permits tr c)
    (h : ∀ a, Q (⟨c, .ok a⟩ :: tr) a) : Follows permits Q tr (ask c : Coroutine C A ε L (A c)) :=
  follows_await (Raise.follows_ask hpermits h)

theorem follows_assign {f : L → L} {Q : Trace C (Raising ε A) → Unit → Prop} (h : Q tr ()) :
    Follows permits Q tr (assign f : Coroutine C A ε L Unit) :=
  fun _ => Prog.follows_ret fun _ _ => h

theorem Follows.bind {p : Coroutine C A ε L α} {f : α → Coroutine C A ε L β} (h : Follows permits Q tr p)
    (hf : ∀ tr' a, tr <:+ tr' → Q tr' a → Follows permits Q' tr' (f a)) :
    Follows permits Q' tr (p >>= f) := by
  refine fun l => Prog.Follows.bind (h l) fun tr' y hsuffix hy => ?_
  obtain ⟨r, l'⟩ := y
  cases r with
  | ok a => exact hf tr' a hsuffix (hy a rfl) l'
  | error e => exact Prog.follows_ret fun _ ha => by cases ha

/-- What a command answers is not looked at. -/
theorem follows_ask_bind {c : C} {f : A c → Coroutine C A ε L β} (hpermits : permits tr c)
    (hf : ∀ tr' a, tr <:+ tr' → Follows permits Q' tr' (f a)) :
    Follows permits Q' tr (ask c >>= f : Coroutine C A ε L β) :=
  Follows.bind (Q := fun _ _ => True) (follows_ask hpermits fun _ => trivial)
    fun tr' a hsuffix _ => hf tr' a hsuffix

/-- What a first part returns is not looked at. -/
theorem Follows.andThen {p : Coroutine C A ε L α} {f : α → Coroutine C A ε L β} (h : Follows permits Q tr p)
    (hf : ∀ tr' a, tr <:+ tr' → Follows permits Q' tr' (f a)) : Follows permits Q' tr (p >>= f) :=
  h.bind fun tr' a hsuffix _ => hf tr' a hsuffix

theorem follows_assign_bind {f : L → L} {g : Unit → Coroutine C A ε L β} (h : Follows permits Q' tr (g ())) :
    Follows permits Q' tr (assign f >>= g) := fun l => h (f l)

theorem follows_locals_bind {f : L → Coroutine C A ε L β} (h : ∀ l, Follows permits Q' tr (f l)) :
    Follows permits Q' tr (locals >>= f) := fun l => h l l

theorem follows_tryExcept {p : Coroutine C A ε L α} {handler : ε → Coroutine C A ε L α}
    (h : Follows permits Q tr p) (hhandler : ∀ tr' e, tr <:+ tr' → Follows permits Q tr' (handler e)) :
    Follows permits Q tr (tryExcept p handler) := by
  refine fun l => Prog.Follows.bind (h l) fun tr' y hsuffix hy => ?_
  obtain ⟨r, l'⟩ := y
  cases r with
  | ok a => exact Prog.follows_ret fun _ ha => hy _ ha
  | error e => exact hhandler tr' e hsuffix l'

/-- A finalizer that does its part whatever the trace. -/
theorem follows_tryFinally {unwinds : ε → Bool} {p : Coroutine C A ε L α} {q : Coroutine C A ε L Unit}
    (h : Follows permits Q₀ tr p) (hq : ∀ tr', tr <:+ tr' → Follows permits (fun _ _ => True) tr' q) :
    Follows permits (fun _ _ => True) tr (tryFinally unwinds p q) := by
  refine fun l => Prog.Follows.bind (h l) fun tr' y hsuffix _ => ?_
  have hlast : ∀ {r : Except ε α} {tr'' : Trace C (Raising ε A)} {l' : L},
      Prog.Follows permits (fun tr' (y : Except ε α × L) => Returns (fun _ _ => True) tr' y.1) tr''
        (.ret (r, l')) := Prog.follows_ret fun _ _ => trivial
  obtain ⟨r, l'⟩ := y
  cases r with
  | ok a =>
    refine Prog.Follows.bind (hq tr' hsuffix l') fun tr'' z _ _ => ?_
    obtain ⟨r', l''⟩ := z
    cases r' <;> exact hlast
  | error e =>
    dsimp only
    split
    · refine Prog.Follows.bind (hq tr' hsuffix l') fun tr'' z _ _ => ?_
      obtain ⟨r', l''⟩ := z
      cases r' <;> exact hlast
    · exact hlast

theorem follows_start {l : L} {p : Coroutine C A ε L α} (h : Follows permits Q tr p) :
    Raise.Follows permits Q tr (start l p) :=
  Prog.Follows.bind (h l) fun _ _ _ hy => Prog.follows_ret hy

end Coroutine

end Coroutine

end Conc
