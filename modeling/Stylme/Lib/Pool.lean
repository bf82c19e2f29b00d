-- SUMMARY: Pools of programs over shared state: interleaved steps, reachable pools, and the view of a pool through its protocols.
import Mathlib.Data.Nat.Notation
import Mathlib.Logic.Function.Basic
import Stylme.Lib.Prog

/-!
# Pools of concurrent programs

A pool runs any number of programs over one shared state. Each step lets one
thread issue one command; between two commands of a thread any other thread may
run, a thread may stop for good, or the environment may change the shared state.
The pool keeps a log of the commands issued with their answers and the state
each of them left behind.

A protocol per operation gives every thread a phase. `System.Steps` says once
what a step does to the shared state and to the phases; invariants of reachable
pools are proved against it by `System.Reach.invariant`.
-/

namespace Conc

/-- A program in execution: the operation it runs, what is left of it, and
whether it can still take steps. -/
structure Thread (Op C : Type) (R : C → Type) (α : Type) where
  op : Op
  prog : Prog C R α
  alive : Bool

/-- One command as it was issued: by which thread, with which answer, and the
shared state after it. -/
structure Entry (C : Type) (R : C → Type) (S : Type) where
  tid : ℕ
  cmd : C
  resp : R cmd
  after : S

/-- Shared state, threads by number, and the log of commands, newest first. -/
structure Pool (Op C : Type) (R : C → Type) (α S : Type) where
  shared : S
  threads : ℕ → Option (Thread Op C R α)
  log : List (Entry C R S)

/-- What can happen next: a thread starts an operation, issues its next command
with an oracle, stops for good, or the environment moves. -/
inductive Label (Op O E : Type) where
  | spawn (t : ℕ) (op : Op)
  | exec (t : ℕ) (o : O)
  | crash (t : ℕ)
  | env (e : E)

/-- The program of each operation, the effect of each command, and the moves of
the environment. -/
structure System (Op C : Type) (R : C → Type) (α S O E : Type) where
  prog : Op → Prog C R α
  exec : (c : C) → O → S → Option (R c × S)
  env : E → S → S

variable {Op C : Type} {R : C → Type} {α S O E L : Type}

namespace Pool

def init (s : S) : Pool Op C R α S := ⟨s, fun _ => none, []⟩

/-- The command thread `t` issues next and the operation it belongs to. -/
def next (σ : Pool Op C R α S) (t : ℕ) : Option (Op × C) :=
  match σ.threads t with
  | some ⟨op, .op c _, true⟩ => some (op, c)
  | _ => none

/-- The value thread `t` has returned, with its operation. -/
def result (σ : Pool Op C R α S) (t : ℕ) : Option (Op × α) :=
  match σ.threads t with
  | some ⟨op, .ret a, _⟩ => some (op, a)
  | _ => none

/-- The commands thread `t` has issued, newest first. -/
def trace (σ : Pool Op C R α S) (t : ℕ) : List (Σ c, R c) :=
  (σ.log.filter (·.tid = t)).map fun e => ⟨e.cmd, e.resp⟩

end Pool

namespace System

variable (sys : System Op C R α S O E)

def step (σ : Pool Op C R α S) : Label Op O E → Option (Pool Op C R α S)
  | .spawn t op =>
    match σ.threads t with
    | none => some { σ with threads := Function.update σ.threads t (some ⟨op, sys.prog op, true⟩) }
    | some _ => none
  | .exec t o =>
    match σ.threads t with
    | some ⟨op, .op c k, true⟩ =>
      match sys.exec c o σ.shared with
      | some (r, s') =>
        some ⟨s', Function.update σ.threads t (some ⟨op, k r, true⟩), ⟨t, c, r, s'⟩ :: σ.log⟩
      | none => none
    | _ => none
  | .crash t =>
    match σ.threads t with
    | some th => some { σ with threads := Function.update σ.threads t (some { th with alive := false }) }
    | none => none
  | .env e => some { σ with shared := sys.env e σ.shared }

/-- Take the labelled steps in order, each of which has to meet `ok`. -/
def runWhere (ok : Pool Op C R α S → Label Op O E → Prop) [∀ σ l, Decidable (ok σ l)] :
    List (Label Op O E) → Pool Op C R α S → Option (Pool Op C R α S)
  | [], σ => some σ
  | l :: ls, σ =>
    if ok σ l then
      match sys.step σ l with
      | some σ' => runWhere ok ls σ'
      | none => none
    else none

/-- Pools reachable from `σ₀` by steps that meet `ok`. -/
inductive Reach (ok : Pool Op C R α S → Label Op O E → Prop) (σ₀ : Pool Op C R α S) :
    Pool Op C R α S → Prop where
  | refl : Reach ok σ₀ σ₀
  | step {σ σ' l} : Reach ok σ₀ σ → ok σ l → sys.step σ l = some σ' → Reach ok σ₀ σ'

variable {sys} {ok : Pool Op C R α S → Label Op O E → Prop} {σ₀ σ σ' : Pool Op C R α S}

theorem Reach.of_runWhere [∀ σ l, Decidable (ok σ l)] {ls : List (Label Op O E)}
    (h : Reach sys ok σ₀ σ) (hrun : sys.runWhere ok ls σ = some σ') : Reach sys ok σ₀ σ' := by
  induction ls generalizing σ with
  | nil =>
    simp only [runWhere, Option.some.injEq] at hrun
    exact hrun ▸ h
  | cons l ls ih =>
    simp only [runWhere] at hrun
    split at hrun
    · rename_i hok
      split at hrun
      · rename_i σ₁ hstep
        exact ih (.step h hok hstep) hrun
      · cases hrun
    · cases hrun

/-- A run takes only steps of its list. -/
theorem Reach.of_run [∀ σ l, Decidable (ok σ l)] {ls : List (Label Op O E)}
    (hrun : sys.runWhere ok ls σ = some σ') : Reach sys (fun _ l => l ∈ ls) σ σ' := by
  have hall : ∀ (rest : List (Label Op O E)) (ρ : Pool Op C R α S), (∀ l ∈ rest, l ∈ ls) →
      Reach sys (fun _ l => l ∈ ls) σ ρ → sys.runWhere ok rest ρ = some σ' →
      Reach sys (fun _ l => l ∈ ls) σ σ' := by
    intro rest
    induction rest with
    | nil =>
      intro ρ _ hreach hrun
      exact Option.some.inj hrun ▸ hreach
    | cons l rest ih =>
      intro ρ hmem hreach hrun
      simp only [runWhere] at hrun
      split at hrun
      · split at hrun
        · rename_i ρ' hstep
          exact ih ρ' (fun l hl => hmem l (.tail _ hl)) (.step hreach (hmem l (.head _)) hstep) hrun
        · cases hrun
      · cases hrun
  exact hall ls σ (fun _ hl => hl) .refl hrun

/-- A run that can be computed and passes a check ends in a reachable pool that passes it. -/
theorem Reach.exists_of_any [∀ σ l, Decidable (ok σ l)] {ls : List (Label Op O E)}
    {check : Pool Op C R α S → Bool} (h : (sys.runWhere ok ls σ₀).any check) :
    ∃ σ, Reach sys ok σ₀ σ ∧ check σ := by
  obtain ⟨σ, hrun, hcheck⟩ := (Option.any_eq_true ..).1 h
  exact ⟨σ, .of_runWhere .refl hrun, hcheck⟩

theorem Reach.trans {σ₁ : Pool Op C R α S} (h : Reach sys ok σ₀ σ)
    (h' : Reach sys ok σ σ₁) : Reach sys ok σ₀ σ₁ := by
  induction h' with
  | refl => exact h
  | step _ hok hstep ih => exact .step ih hok hstep

theorem Reach.mono {ok' : Pool Op C R α S → Label Op O E → Prop}
    (hok : ∀ σ l, ok σ l → ok' σ l) (h : Reach sys ok σ₀ σ) : Reach sys ok' σ₀ σ := by
  induction h with
  | refl => exact .refl
  | step _ hl hstep ih => exact .step ih (hok _ _ hl) hstep

/-- When only operations with `p` are started, every thread runs one of them. -/
theorem Reach.ops {p : Op → Prop} (hspawn : ∀ σ t op, ok σ (.spawn t op) → p op) {s₀ : S}
    (h : Reach sys ok (Pool.init s₀) σ) {t : ℕ} {th : Thread Op C R α}
    (ht : σ.threads t = some th) : p th.op := by
  induction h generalizing t th with
  | refl => cases ht
  | @step ρ ρ' l _ hok hstep ih =>
    have hupdate : ∀ {u : ℕ} {op : Op} {q : Prog C R α} {b : Bool}, p op →
        Function.update ρ.threads u (some ⟨op, q, b⟩) t = some th → p th.op := by
      intro u op q b hp hu
      by_cases hut : t = u
      · subst hut
        rw [Function.update_self, Option.some.injEq] at hu
        exact hu ▸ hp
      · exact ih (by rwa [Function.update_of_ne hut] at hu)
    cases l with
    | spawn u op =>
      simp only [System.step] at hstep
      split at hstep
      · obtain rfl := Option.some.inj hstep
        exact hupdate (hspawn _ _ _ hok) ht
      · cases hstep
    | exec u o =>
      simp only [System.step] at hstep
      split at hstep
      · rename_i op c k hu
        split at hstep
        · obtain rfl := Option.some.inj hstep
          exact hupdate (ih hu) ht
        · cases hstep
      · cases hstep
    | crash u =>
      simp only [System.step] at hstep
      split at hstep
      · rename_i th₀ hu
        obtain rfl := Option.some.inj hstep
        exact hupdate (ih hu) ht
      · cases hstep
    | env e =>
      obtain rfl := Option.some.inj hstep
      exact ih ht

/-- A thread that may not be started does not run. -/
theorem Reach.threads_eq_none {t : ℕ} (hspawn : ∀ σ op, ¬ ok σ (.spawn t op)) {s₀ : S}
    (h : Reach sys ok (Pool.init s₀) σ) : σ.threads t = none := by
  induction h with
  | refl => rfl
  | @step ρ ρ' l _ hok hstep ih =>
    have hupdate : ∀ {u : ℕ} {th : Option (Thread Op C R α)}, t ≠ u →
        Function.update ρ.threads u th t = none := fun hne => by rwa [Function.update_of_ne hne]
    cases l with
    | spawn u op =>
      simp only [System.step] at hstep
      split at hstep
      · obtain rfl := Option.some.inj hstep
        exact hupdate fun heq => hspawn ρ op (heq ▸ hok)
      · cases hstep
    | exec u o =>
      simp only [System.step] at hstep
      split at hstep
      · rename_i op c k hu
        split at hstep
        · obtain rfl := Option.some.inj hstep
          exact hupdate fun heq => by
            subst heq
            rw [ih] at hu
            cases hu
        · cases hstep
      · cases hstep
    | crash u =>
      simp only [System.step] at hstep
      split at hstep
      · rename_i th hu
        obtain rfl := Option.some.inj hstep
        exact hupdate fun heq => by
          subst heq
          rw [ih] at hu
          cases hu
      · cases hstep
    | env e =>
      obtain rfl := Option.some.inj hstep
      exact ih

/-- When no thread is stopped, every thread is alive. -/
theorem Reach.alive (hcrash : ∀ σ t, ¬ ok σ (.crash t)) {s₀ : S}
    (h : Reach sys ok (Pool.init s₀) σ) {t : ℕ} {th : Thread Op C R α}
    (ht : σ.threads t = some th) : th.alive := by
  induction h generalizing t th with
  | refl => cases ht
  | @step ρ ρ' l _ hok hstep ih =>
    have hupdate : ∀ {u : ℕ} {op : Op} {q : Prog C R α},
        Function.update ρ.threads u (some ⟨op, q, true⟩) t = some th → th.alive := by
      intro u op q hu
      by_cases hut : t = u
      · subst hut
        rw [Function.update_self, Option.some.injEq] at hu
        exact hu ▸ rfl
      · exact ih (by rwa [Function.update_of_ne hut] at hu)
    cases l with
    | spawn u op =>
      simp only [System.step] at hstep
      split at hstep
      · obtain rfl := Option.some.inj hstep
        exact hupdate ht
      · cases hstep
    | exec u o =>
      simp only [System.step] at hstep
      split at hstep
      · split at hstep
        · obtain rfl := Option.some.inj hstep
          exact hupdate ht
        · cases hstep
      · cases hstep
    | crash u => exact absurd hok (hcrash _ _)
    | env e =>
      obtain rfl := Option.some.inj hstep
      exact ih ht

/-- A thread that has no command left never issues one again. -/
theorem Reach.next_eq_none {t : ℕ} {th : Thread Op C R α} (ht : σ₀.threads t = some th)
    (hnext : σ₀.next t = none) (h : Reach sys ok σ₀ σ) : (∃ th, σ.threads t = some th) ∧ σ.next t = none := by
  induction h with
  | refl => exact ⟨⟨th, ht⟩, hnext⟩
  | @step ρ ρ' l _ _ hstep ih =>
    obtain ⟨⟨th', hthread⟩, hρ⟩ := ih
    have hupdate : ∀ {u : ℕ} {th : Thread Op C R α} {s : S} {log : List (Entry C R S)}, t ≠ u →
        (∃ th', (Pool.mk s (Function.update ρ.threads u (some th)) log).threads t = some th') ∧
          (Pool.mk s (Function.update ρ.threads u (some th)) log).next t = none := by
      intro u th s log hne
      unfold Pool.next at hρ ⊢
      dsimp only
      rw [Function.update_of_ne hne]
      exact ⟨⟨th', hthread⟩, hρ⟩
    cases l with
    | spawn u op =>
      simp only [System.step] at hstep
      split at hstep
      · rename_i hu
        obtain rfl := Option.some.inj hstep
        exact hupdate fun heq => by rw [heq, hu] at hthread; cases hthread
      · cases hstep
    | exec u o =>
      simp only [System.step] at hstep
      split at hstep
      · rename_i hu
        split at hstep
        · obtain rfl := Option.some.inj hstep
          exact hupdate fun heq => by
            rw [heq, Pool.next, hu] at hρ
            cases hρ
        · cases hstep
      · cases hstep
    | crash u =>
      simp only [System.step] at hstep
      split at hstep
      · obtain rfl := Option.some.inj hstep
        by_cases heq : t = u
        · subst heq
          refine ⟨⟨_, Function.update_self ..⟩, ?_⟩
          simp only [Pool.next, Function.update_self]
          split
          · rename_i hstopped
            exact absurd (congrArg Thread.alive (Option.some.inj hstopped)) Bool.false_ne_true
          · rfl
        · exact hupdate heq
      · cases hstep
    | env e =>
      obtain rfl := Option.some.inj hstep
      exact ⟨⟨th', hthread⟩, hρ⟩

end System

theorem Pool.exists_thread {σ : Pool Op C R α S} {t : ℕ} {op : Op} {a : α} (h : σ.result t = some (op, a)) :
    ∃ th, σ.threads t = some th ∧ th.op = op := by
  unfold Pool.result at h
  split at h
  · rename_i ht
    exact ⟨_, ht, (Prod.mk.inj (Option.some.inj h)).1⟩
  · cases h

theorem Pool.next_eq_none {σ : Pool Op C R α S} {t : ℕ} (h : σ.threads t = none) :
    σ.next t = none := by
  rw [Pool.next, h]

/-- A thread that is alive and issues nothing has returned. -/
theorem Pool.exists_result {σ : Pool Op C R α S} {t : ℕ} {th : Thread Op C R α}
    (ht : σ.threads t = some th) (halive : th.alive) (hnext : σ.next t = none) :
    ∃ a, σ.result t = some (th.op, a) := by
  obtain ⟨op, prog, alive⟩ := th
  obtain rfl : alive = true := halive
  cases prog with
  | ret a => exact ⟨a, by rw [Pool.result, ht]⟩
  | op c k =>
    rw [Pool.next, ht] at hnext
    cases hnext

/-! ## The view of a pool through its protocols -/

/-- A thread as its protocol sees it. -/
structure View (Op L : Type) where
  op : Op
  phase : L
  alive : Bool

/-- A thread's view after one thread has moved: that thread's, or one from before. -/
theorem View.of_update {view : ℕ → Option (View Op L)} {t u : ℕ} {op op' : Op} {l l' : L}
    {b b' : Bool} (h : Function.update view t (some ⟨op, l, b⟩) u = some ⟨op', l', b'⟩) :
    (u = t ∧ op = op' ∧ l = l' ∧ b = b') ∨ (u ≠ t ∧ view u = some ⟨op', l', b'⟩) := by
  rw [Function.update_apply] at h
  split at h
  · rename_i hut
    exact .inl ⟨hut, View.mk.inj (Option.some.inj h)⟩
  · rename_i hut
    exact .inr ⟨hut, h⟩

/-- A pool as its protocols see it. -/
structure Config (Op C : Type) (R : C → Type) (S L : Type) where
  shared : S
  view : ℕ → Option (View Op L)
  log : List (Entry C R S)

/-- The phase a protocol is in after a trace of answered commands. -/
def Protocol.phase (P : Protocol C R L) (l₀ : L) (tr : List (Σ c, R c)) : L :=
  tr.foldr (fun e l => P.next l e.1 e.2) l₀

section View

variable (P : Op → Protocol C R L) (start : Op → L)

/-- The protocols' view of a pool: each thread in the phase its trace leads to. -/
def Pool.config (σ : Pool Op C R α S) : Config Op C R S L where
  shared := σ.shared
  view t := (σ.threads t).map fun th => ⟨th.op, (P th.op).phase (start th.op) (σ.trace t), th.alive⟩
  log := σ.log

/-- The steps of a system seen through its protocols. -/
inductive System.Steps (sys : System Op C R α S O E) (σ : Pool Op C R α S) :
    Label Op O E → Config Op C R S L → Prop where
  | spawn {t op} (ht : (σ.config P start).view t = none) :
      Steps sys σ (.spawn t op) { σ.config P start with
        view := Function.update (σ.config P start).view t (some ⟨op, start op, true⟩) }
  | exec {t o op l c r s'} (hnext : σ.next t = some (op, c))
      (ht : (σ.config P start).view t = some ⟨op, l, true⟩) (hpermits : (P op).permits l c)
      (hexec : sys.exec c o σ.shared = some (r, s')) :
      Steps sys σ (.exec t o) ⟨s',
        Function.update (σ.config P start).view t (some ⟨op, (P op).next l c r, true⟩),
        ⟨t, c, r, s'⟩ :: σ.log⟩
  | crash {t op l b} (ht : (σ.config P start).view t = some ⟨op, l, b⟩) :
      Steps sys σ (.crash t) { σ.config P start with
        view := Function.update (σ.config P start).view t (some ⟨op, l, false⟩) }
  | env {e} : Steps sys σ (.env e) { σ.config P start with shared := sys.env e σ.shared }

variable {P start}
variable {sys : System Op C R α S O E} {ok : Pool Op C R α S → Label Op O E → Prop}
variable {Q : Op → L → α → Prop} {s₀ : S} {σ σ' : Pool Op C R α S}

@[simp] theorem Pool.config_shared : (σ.config P start).shared = σ.shared := rfl

@[simp] theorem Pool.config_log : (σ.config P start).log = σ.log := rfl

theorem Pool.phase_of_view {t : ℕ} {op : Op} {l : L} {b : Bool}
    (h : (σ.config P start).view t = some ⟨op, l, b⟩) : l = (P op).phase (start op) (σ.trace t) := by
  obtain ⟨th, -, hview⟩ := Option.map_eq_some_iff.1 h
  obtain ⟨rfl, rfl, -⟩ := View.mk.inj hview
  rfl

theorem Pool.trace_cons {s' : S} {ths : ℕ → Option (Thread Op C R α)} {e : Entry C R S} {t : ℕ} :
    (Pool.mk s' ths (e :: σ.log)).trace t =
      if e.tid = t then ⟨e.cmd, e.resp⟩ :: σ.trace t else σ.trace t := by
  by_cases h : e.tid = t <;> simp [trace, h]

@[simp] theorem Pool.trace_mk {s : S} {ths : ℕ → Option (Thread Op C R α)} {t : ℕ} :
    (Pool.mk s ths σ.log).trace t = σ.trace t := rfl

/-- Replacing one thread replaces its view and leaves the others. -/
theorem Pool.view_update {t : ℕ} {th : Thread Op C R α}
    (hthreads : σ'.threads = Function.update σ.threads t (some th))
    (htrace : ∀ u, u ≠ t → σ'.trace u = σ.trace u) :
    (σ'.config P start).view = Function.update (σ.config P start).view t
      (some ⟨th.op, (P th.op).phase (start th.op) (σ'.trace t), th.alive⟩) := by
  funext u
  by_cases hut : u = t
  · subst hut
    simp [config, hthreads]
  · simp [config, hthreads, hut, htrace u hut]

/-- A thread that has not started has issued nothing, and every thread's
remaining program conforms to its protocol from the phase its trace leads to. -/
structure Pool.Conforming (P : Op → Protocol C R L) (start : Op → L) (Q : Op → L → α → Prop)
    (σ : Pool Op C R α S) : Prop where
  fresh : ∀ t, σ.threads t = none → σ.trace t = []
  conforms : ∀ t th, σ.threads t = some th →
    Prog.Conforms (P th.op) (Q th.op) ((P th.op).phase (start th.op) (σ.trace t)) th.prog

theorem Pool.Conforming.init : Pool.Conforming P start Q (Pool.init s₀ : Pool Op C R α S) where
  fresh _ _ := rfl
  conforms _ _ h := by simp [Pool.init] at h

/-- Replacing one thread leaves every other thread's remaining program and trace. -/
theorem Pool.Conforming.update {σ' : Pool Op C R α S} {t : ℕ} {th : Thread Op C R α}
    (h : σ.Conforming P start Q)
    (hthreads : σ'.threads = Function.update σ.threads t (some th))
    (htrace : ∀ u, u ≠ t → σ'.trace u = σ.trace u)
    (hth : Prog.Conforms (P th.op) (Q th.op) ((P th.op).phase (start th.op) (σ'.trace t)) th.prog) :
    σ'.Conforming P start Q where
  fresh u hu := by
    by_cases hut : u = t
    · subst hut
      simp [hthreads] at hu
    · rw [htrace u hut]
      exact h.fresh u (by simpa [hthreads, hut] using hu)
  conforms u th' hu := by
    by_cases hut : u = t
    · subst hut
      rw [hthreads, Function.update_self, Option.some.injEq] at hu
      exact hu ▸ hth
    · rw [htrace u hut]
      exact h.conforms u th' (by simpa [hthreads, hut] using hu)

theorem Pool.Conforming.step (hprog : ∀ op, Prog.Conforms (P op) (Q op) (start op) (sys.prog op))
    {l : Label Op O E} (h : σ.Conforming P start Q) (hstep : sys.step σ l = some σ') :
    σ'.Conforming P start Q := by
  cases l with
  | spawn t op =>
    simp only [System.step] at hstep
    split at hstep
    · rename_i ht
      obtain rfl := Option.some.inj hstep
      refine h.update (t := t) rfl (fun _ _ => rfl) ?_
      simp only [Pool.trace_mk, h.fresh t ht]
      exact hprog op
    · cases hstep
  | exec t o =>
    simp only [System.step] at hstep
    split at hstep
    · rename_i op c k ht
      split at hstep
      · rename_i r s' hexec
        obtain rfl := Option.some.inj hstep
        refine h.update (t := t) rfl (fun u hu => ?_) ?_
        · simp [Pool.trace_cons, Ne.symm hu]
        · simp only [Pool.trace_cons, if_true]
          exact (Prog.conforms_op.1 (h.conforms t _ ht)).2 r
      · cases hstep
    · cases hstep
  | crash t =>
    simp only [System.step] at hstep
    split at hstep
    · rename_i th ht
      obtain rfl := Option.some.inj hstep
      exact h.update (t := t) rfl (fun _ _ => rfl) (h.conforms t th ht)
    · cases hstep
  | env e =>
    simp only [System.step, Option.some.injEq] at hstep
    subst hstep
    exact ⟨h.fresh, h.conforms⟩

theorem System.Reach.conforming {σ₀ : Pool Op C R α S}
    (hprog : ∀ op, Prog.Conforms (P op) (Q op) (start op) (sys.prog op))
    (h₀ : σ₀.Conforming P start Q) (h : System.Reach sys ok σ₀ σ) : σ.Conforming P start Q := by
  induction h with
  | refl => exact h₀
  | step _ _ hstep ih => exact ih.step hprog hstep

/-- What one step of a conforming pool does, seen through the protocols. -/
theorem System.steps_of_step {l : Label Op O E} (h : σ.Conforming P start Q)
    (hstep : sys.step σ l = some σ') : System.Steps P start sys σ l (σ'.config P start) := by
  have hconfig : σ'.config P start =
      ⟨σ'.shared, (σ'.config P start).view, σ'.log⟩ := rfl
  cases l with
  | spawn t op =>
    simp only [System.step] at hstep
    split at hstep
    · rename_i ht
      have hσ := Option.some.inj hstep
      rw [hconfig, Pool.view_update (t := t) (by rw [← hσ])
        (fun u _ => by rw [← hσ]; rfl), ← hσ]
      simp only [Pool.trace_mk, h.fresh t ht]
      exact .spawn (by simp [Pool.config, ht])
    · cases hstep
  | exec t o =>
    simp only [System.step] at hstep
    split at hstep
    · rename_i op c k ht
      split at hstep
      · rename_i r s' hexec
        have hσ := Option.some.inj hstep
        rw [hconfig, Pool.view_update (t := t) (by rw [← hσ])
          (fun u hu => by rw [← hσ]; simp [Pool.trace_cons, Ne.symm hu]), ← hσ]
        simp only [Pool.trace_cons, if_true]
        exact .exec (l := (P op).phase (start op) (σ.trace t)) (by simp [Pool.next, ht])
          (by simp [Pool.config, ht]) (Prog.conforms_op.1 (h.conforms t _ ht)).1 hexec
      · cases hstep
    · cases hstep
  | crash t =>
    simp only [System.step] at hstep
    split at hstep
    · rename_i th ht
      have hσ := Option.some.inj hstep
      rw [hconfig, Pool.view_update (t := t) (by rw [← hσ])
        (fun u _ => by rw [← hσ]; rfl), ← hσ]
      exact .crash (b := th.alive) (by simp [Pool.config, ht])
    · cases hstep
  | env e =>
    simp only [System.step, Option.some.injEq] at hstep
    subst hstep
    exact .env

/-- A property of the protocols' view that holds at the start and is kept by
every step holds of every reachable pool. -/
theorem System.Reach.invariant {σ₀ : Pool Op C R α S} {I : Config Op C R S L → Prop}
    (hprog : ∀ op, Prog.Conforms (P op) (Q op) (start op) (sys.prog op))
    (h₀ : σ₀.Conforming P start Q) (hinit : I (σ₀.config P start))
    (hstep : ∀ σ l c', System.Reach sys ok σ₀ σ → ok σ l → I (σ.config P start) →
      System.Steps P start sys σ l c' → I c')
    (h : System.Reach sys ok σ₀ σ) : I (σ.config P start) := by
  induction h with
  | refl => exact hinit
  | step hreach hok hs ih =>
    exact hstep _ _ _ hreach hok ih (System.steps_of_step (hreach.conforming hprog h₀) hs)

/-- Rely and guarantee. Every step guarantees `G`. Such steps take nothing away from what a thread
knows in its phase, `J`, and its own steps renew it. -/
theorem System.Reach.known {σ₀ : Pool Op C R α S} {G : S → S → Prop} {W : S → Prop}
    {J : S → ℕ → Op → L → Prop}
    (hprog : ∀ op, Prog.Conforms (P op) (Q op) (start op) (sys.prog op))
    (h₀ : σ₀.Conforming P start Q) (hW : W σ₀.shared)
    (hJ : ∀ t op l b, (σ₀.config P start).view t = some ⟨op, l, b⟩ → J σ₀.shared t op l)
    (hstart : ∀ s t op, J s t op (start op))
    (hrely : ∀ s s' t op l, G s s' → J s t op l → J s' t op l)
    (hexec : ∀ s t op l c o r s', W s → J s t op l → (P op).permits l c →
      sys.exec c o s = some (r, s') → G s s' ∧ W s' ∧ J s' t op ((P op).next l c r))
    (henv : ∀ s e, W s → G s (sys.env e s) ∧ W (sys.env e s))
    (h : System.Reach sys ok σ₀ σ) :
    W σ.shared ∧ ∀ t op l b, (σ.config P start).view t = some ⟨op, l, b⟩ → J σ.shared t op l := by
  refine h.invariant (I := fun cfg => W cfg.shared ∧
    ∀ t op l b, cfg.view t = some ⟨op, l, b⟩ → J cfg.shared t op l) hprog h₀ ⟨hW, hJ⟩ ?_
  rintro ρ l cfg - - ⟨hW, hJ⟩ hstep
  cases hstep with
  | @spawn t op ht =>
    refine ⟨hW, fun u op' l' b hu => ?_⟩
    rcases View.of_update hu with ⟨rfl, rfl, rfl, -⟩ | ⟨-, hu⟩
    · exact hstart _ _ _
    · exact hJ u op' l' b hu
  | @exec t o op ph c r s' hnext ht hpermits hexec' =>
    obtain ⟨hG, hW', hJ'⟩ := hexec _ t op ph c o r s' hW (hJ t op ph true ht) hpermits hexec'
    refine ⟨hW', fun u op' l' b hu => ?_⟩
    rcases View.of_update hu with ⟨rfl, rfl, rfl, -⟩ | ⟨-, hu⟩
    · exact hJ'
    · exact hrely _ _ _ _ _ hG (hJ u op' l' b hu)
  | @crash t op ph b ht =>
    refine ⟨hW, fun u op' l' b' hu => ?_⟩
    rcases View.of_update hu with ⟨rfl, rfl, rfl, -⟩ | ⟨-, hu⟩
    · exact hJ u _ _ b ht
    · exact hJ u op' l' b' hu
  | @env e =>
    obtain ⟨hG, hW'⟩ := henv ρ.shared e hW
    exact ⟨hW', fun u op l b hu => hrely _ _ _ _ _ hG (hJ u op l b hu)⟩

/-- The next command of a thread is one that its protocol permits in its phase. -/
theorem Pool.Conforming.permits {t : ℕ} {op : Op} {c : C} (h : σ.Conforming P start Q)
    (hnext : σ.next t = some (op, c)) :
    ∃ l, (σ.config P start).view t = some ⟨op, l, true⟩ ∧ (P op).permits l c := by
  simp only [Pool.next] at hnext
  split at hnext
  · rename_i op' c' k ht
    obtain ⟨rfl, rfl⟩ := Prod.mk.inj (Option.some.inj hnext)
    exact ⟨_, by simp [Pool.config, ht], (Prog.conforms_op.1 (h.conforms t _ ht)).1⟩
  · cases hnext

/-- A thread that has returned did so in a phase and with a value its protocol allows. -/
theorem Pool.Conforming.result {t : ℕ} {op : Op} {a : α} (h : σ.Conforming P start Q)
    (hres : σ.result t = some (op, a)) :
    ∃ l b, (σ.config P start).view t = some ⟨op, l, b⟩ ∧ Q op l a := by
  simp only [Pool.result] at hres
  split at hres
  · rename_i op' a' b ht
    obtain ⟨rfl, rfl⟩ := Prod.mk.inj (Option.some.inj hres)
    exact ⟨_, b, by simp [Pool.config, ht], Prog.conforms_ret.1 (h.conforms t _ ht)⟩
  · cases hres

end View

end Conc
