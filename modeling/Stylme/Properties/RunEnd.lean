-- SUMMARY: A run that took its lock ends cleanly, unless its document cannot be inserted or it is cancelled.
import Stylme.Lib.Monitor
import Stylme.Lib.Sequence
import Stylme.Reconciler.System

/-!
# The end of a run

A run gives its lock back in a finalizer, and an exception handler marks its
document as failed. The finalizer does not cover the insertion of the document,
and the handler catches no `CancelledError`. A monitor watches a run for the
exceptions that start there; the run ends cleanly if and only if it saw none.
-/

namespace Stylme

open Conc Backend

namespace Reconciler

variable (lib : Library)

/-- The document of the run is stored with the status `running`. -/
def running (w : World) (runID : String) : Bool := (w.runs.get runID).any (·.status.isRunning)

/-- No lock of the run is stored, and its document is completed or failed. -/
structure EndsCleanly (w : World) (runID : String) : Prop where
  released : ¬ Owned w.locks runID
  finished : ∀ run ∈ w.runs, run.runID = runID →
    (∃ summary, run.status = .completed summary) ∨ ∃ type message, run.status = .failed type message

/-- What a monitor knows about a run. -/
structure RunWatch where
  runID : String := ""
  acquired : Bool := false
  /-- The document could not be inserted, or an exception that the handler does not
  catch was raised while the document said `running`. -/
  escaped : Bool := false

def observe : (cmd : Cmd) → Resp cmd → World → RunWatch → RunWatch
  | .uuid, .ok hex, _, m => { m with runID := "trr_" ++ hex }
  | .acquireLock _ _ _, .ok lock, _, m => { m with acquired := lock.owner = m.runID }
  | .insertRun _, .error _, _, m => { m with escaped := true }
  | _, r, w, m => { m with escaped := m.escaped || uncaught r && running w m.runID }

/-- The writes of the handler and the finalizer succeed. -/
def writesBack : Cmd → Oracle → World → Bool
  | .releaseLock _, o, _ | .finishRun _ (.failed _ _) _ _, o, _ => o.fault.isNone
  | _, _, _ => true

/-- A watched run whose handler can write. -/
abbrev endExec : (cmd : Cmd) → Oracle → World × RunWatch → Option (Resp cmd × (World × RunWatch)) :=
  Prog.watch ((backend lib).restrict writesBack).exec observe

variable {lib} {w w' : World} {o : Oracle} {cmd : Cmd} {r : Resp cmd} {m m' : RunWatch} {α : Type}
variable {id : String}

theorem endExec_iff : endExec lib cmd o (w, m) = some (r, (w', m')) ↔
    (writesBack cmd o w ∧ cmd.exec lib.forbiddenText o w = some (r, w')) ∧ m' = observe cmd r w' m :=
  Prog.watch_eq_some_iff.trans (and_congr_left fun _ => System.restrict_exec)

/-! ## Commands that do not concern the run -/

/-- The command writes neither to locks nor to run documents. -/
def Cmd.isPlain (cmd : Cmd) : Prop := cmd.target ≠ .issued ∧ cmd.target ≠ .locks ∧ cmd.target ≠ .runs

theorem observe_plain (hcmd : cmd.isPlain) :
    observe cmd r w m = { m with escaped := m.escaped || uncaught r && running w m.runID } := by
  obtain ⟨hissued, hlocks, hruns⟩ := hcmd
  cases cmd <;> first | rfl | exact absurd rfl hissued | exact absurd rfl hlocks | exact absurd rfl hruns

theorem isPlain_of_inner {l : Phase} (h : Inner lib l cmd) : cmd.isPlain := by
  cases cmd <;> first | exact h.elim | exact ⟨nofun, nofun, nofun⟩

/-- Nothing about the run has changed, but that an exception is on its way out. -/
structure Aloof (id : String) (w : World) (dead : Bool) (x : World × RunWatch) : Prop where
  locks : x.1.locks = w.locks
  runs : x.1.runs = w.runs
  watch : x.2 = ⟨id, true, dead && running w id⟩

theorem Aloof.exec {dead : Bool} (h : Aloof id w dead (w', m)) (hcmd : cmd.isPlain)
    {x : World × RunWatch} (hexec : endExec lib cmd o (w', m) = some (r, x)) :
    Aloof id w (dead || uncaught r) x := by
  obtain ⟨w₁, m₁⟩ := x
  obtain ⟨⟨-, hstep⟩, rfl⟩ := endExec_iff.1 hexec
  obtain ⟨hlocks, hruns, hwatch⟩ := h
  have hframe := exec_frame hstep
  have hruns₁ : w₁.runs = w.runs := (hframe.runs hcmd.2.2).trans hruns
  have hrunning : running w₁ id = running w id := by rw [running, hruns₁, running]
  obtain rfl : m = _ := hwatch
  refine ⟨(hframe.locks hcmd.2.1).trans hlocks, hruns₁, ?_⟩
  change observe cmd r w₁ _ = _
  rw [observe_plain hcmd, hrunning, Bool.and_or_distrib_right]

/-- A coroutine that issues only plain commands. -/
theorem plain_wp {p : Py α} (h : Keeps (fun _ => Cmd.isPlain) Anything p) :
    Prog.wp (endExec lib) (fun r x => Aloof id w (uncaught r) x) p (w, ⟨id, true, false⟩) := by
  have hstart : Aloof id w false (w, ⟨id, true, false⟩) := ⟨rfl, rfl, rfl⟩
  have hwp : Prog.wp (endExec lib) (fun r x => ∃ l, Ends Anything l r ∧ Aloof id w l.dead x) p
      (w, ⟨id, true, false⟩) := by
    refine Prog.Conforms.wp (I := fun l x => Aloof id w l.dead x) (h {} ⟨rfl, trivial⟩) hstart ?_
    intro l cmd o r x x' hx hcmd hexec
    rw [next_dead]
    exact hx.exec hcmd hexec
  refine Prog.wp_mono (fun r x hx => ?_) hwp
  obtain ⟨l, hends, hx⟩ := hx
  rwa [← hends.dead]

theorem keeps_plain_command (hcmd : cmd.isPlain) :
    Keeps (fun _ => Cmd.isPlain) Anything (Raise.ask cmd) :=
  keeps_command fun _ => hcmd

theorem writeAudit_plain {action entityType entityID : String} {actor : Option Actor} :
    Keeps (fun _ => Cmd.isPlain) Anything (writeAudit action entityType entityID actor) :=
  keeps_bind (keeps_plain_command ⟨nofun, nofun, nofun⟩) fun _ =>
    keeps_plain_command ⟨nofun, nofun, nofun⟩

theorem stageReconciliation_plain {request : RunRequest} {runID : String} :
    Keeps (fun _ => Cmd.isPlain) Anything (stageReconciliation lib request runID) := by
  intro l hl
  have hplain : Prog.Conforms ⟨fun _ => Cmd.isPlain, next⟩ (fun l' r => l'.dead = uncaught r ∧
      ∀ failures graph staged, r = .ok (failures, graph, staged) → l'.failures = failures) l
      (stageReconciliation lib request runID) :=
    (stageReconciliation_conforms hl.dead).widen (fun _ _ => isPlain_of_inner) rfl
  exact hplain.mono fun _ _ h => ⟨h.1, trivial⟩

/-! ## The protected region -/

theorem running_false (h : w.runs.get id = none ∨ ∃ run ∈ w.runs, run.runID = id ∧
    run.status.isRunning = false) : running w id = false := by
  unfold running
  rcases h with hnone | ⟨run, hrun, rfl, hstatus⟩
  · rw [hnone]
    rfl
  · rw [Collection.get_eq_some_iff.2 ⟨hrun, rfl⟩, Option.any_some, hstatus]

/-- An update that ends the run ends it, unless it is not applied. -/
theorem exec_finishRun {status : RunStatus} {completedAt updatedAt : Time}
    {r : Resp (.finishRun id status completedAt updatedAt)} (hstatus : status.isRunning = false)
    (h : (Cmd.finishRun id status completedAt updatedAt).exec lib.forbiddenText o w = some (r, w')) :
    w'.locks = w.locks ∧ (running w' id = false ∨ (w' = w ∧ ∃ e, r = .error e)) := by
  refine ⟨(exec_frame h).locks nofun, ?_⟩
  simp only [Cmd.exec] at h
  split at h
  · rename_i run hget
    obtain ⟨hrun, hid⟩ := Collection.get_eq_some_iff.1 hget
    have hput : running { w with runs := put w.runs (run.finished status completedAt updatedAt) } id =
        false :=
      running_false (.inr ⟨_, (mem_put hrun (by rfl) (by rfl)).2 (.inl rfl), hid, hstatus⟩)
    rcases perform_eq h with ⟨-, -, rfl⟩ | ⟨f, -, hr, rfl⟩
    · exact .inl hput
    · split
      · exact .inl hput
      · exact .inr ⟨rfl, _, hr⟩
  · rename_i hget
    obtain rfl := (respond_eq h).1
    exact .inl (running_false (.inl hget))

theorem exec_failed {status : RunStatus} {completedAt updatedAt : Time}
    {r : Resp (.finishRun id status completedAt updatedAt)} (hfault : o.fault = none)
    (h : (Cmd.finishRun id status completedAt updatedAt).exec lib.forbiddenText o w = some (r, w')) :
    r = .ok () := by
  simp only [Cmd.exec, hfault, perform, respond] at h
  split at h <;> exact (Prod.mk.inj (Option.some.inj h)).1.symm

/-- The protected region leaves the locks alone, and the monitor has seen an exception
that the handler does not catch if it ends with one while the document says `running`. -/
structure Reconciled (id : String) (locks : Locks) (r : Except PyErr α) (x : World × RunWatch) :
    Prop where
  locks : x.1.locks = locks
  watch : x.2 = ⟨id, true, uncaught r && running x.1 id⟩
  finished : ∀ a, r = .ok a → running x.1 id = false

variable {β : Type} {locks : Locks}

theorem plain_bind_wp {p : Py α} {f : α → Py β} (h : Keeps (fun _ => Cmd.isPlain) Anything p)
    (hlocks : w.locks = locks) (hf : ∀ a w₁, w₁.locks = locks → w₁.runs = w.runs →
      Prog.wp (endExec lib) (Reconciled id locks) (f a) (w₁, ⟨id, true, false⟩)) :
    Prog.wp (endExec lib) (Reconciled id locks) (p >>= f : Py β) (w, ⟨id, true, false⟩) := by
  refine Raise.wp_bind.2 (Prog.wp_mono (fun r x hx => ?_) (plain_wp h))
  obtain ⟨w₁, m₁⟩ := x
  obtain ⟨hlocks₁, hruns₁, hwatch⟩ := hx
  have hrunning : running w₁ id = running w id := by rw [running, hruns₁, running]
  obtain rfl : m₁ = _ := hwatch
  cases r with
  | ok a => exact hf a w₁ (hlocks₁.trans hlocks) hruns₁
  | error e => exact ⟨hlocks₁.trans hlocks, by rw [hrunning]; rfl, fun _ h => by cases h⟩

section Region

variable {request : RunRequest} {actor : Option Actor}

theorem autoApply_plain : Keeps (fun _ => Cmd.isPlain) Anything (autoApply lib request actor id) :=
  (Keeps.anything fun _ => autoApply_keeps).mono fun _ _ h => isPlain_of_inner h.1

theorem finishReconciliation_wp {failures : List Failure} {graph : Graph} {staged : StageResult}
    (hlocks : w.locks = locks) :
    Prog.wp (endExec lib) (Reconciled id locks)
      (finishReconciliation lib request actor id failures graph staged) (w, ⟨id, true, false⟩) := by
  refine plain_bind_wp autoApply_plain hlocks fun applied w₁ hlocks₁ _ => ?_
  refine plain_bind_wp (keeps_plain_command ⟨nofun, nofun, nofun⟩) hlocks₁ fun now w₂ hlocks₂ _ => ?_
  refine plain_bind_wp (keeps_when fun _ => keeps_plain_command ⟨nofun, nofun, nofun⟩) hlocks₂
    fun _ w₃ hlocks₃ _ => ?_
  refine Raise.wp_ask_bind.2 fun o r x hexec => ?_
  obtain ⟨w₄, m₄⟩ := x
  obtain ⟨⟨-, hstep⟩, rfl⟩ := endExec_iff.1 hexec
  obtain ⟨hlocks₄, hfinished⟩ := exec_finishRun rfl hstep
  replace hlocks₄ := hlocks₄.trans hlocks₃
  cases r with
  | error e => exact ⟨hlocks₄, rfl, fun _ h => by cases h⟩
  | ok u =>
    have hrunning : running w₄ id = false := by
      rcases hfinished with hrunning | ⟨-, e, he⟩
      · exact hrunning
      · cases he
    refine plain_bind_wp writeAudit_plain hlocks₄ fun _ w₅ hlocks₅ hruns₅ => ?_
    exact ⟨hlocks₅, rfl, fun _ _ => by rw [running, hruns₅]; exact hrunning⟩

theorem reconcile_wp (hlocks : w.locks = locks) :
    Prog.wp (endExec lib) (Reconciled id locks) (reconcile lib request actor id)
      (w, ⟨id, true, false⟩) :=
  plain_bind_wp stageReconciliation_plain hlocks fun _ _ hlocks₁ _ => finishReconciliation_wp hlocks₁

/-- The handler ends the run and raises what it has caught. -/
theorem failRun_wp {e : PyErr} (he : e.isException) (hlocks : w.locks = locks) :
    Prog.wp (endExec lib) (fun r x => Reconciled id locks r x ∧ running x.1 id = false ∧
      r = .error e) (failRun id e) (w, ⟨id, true, false⟩) := by
  refine Raise.wp_ask_bind.2 fun o r x hexec => ?_
  obtain ⟨w₁, m₁⟩ := x
  obtain ⟨⟨-, hstep⟩, rfl⟩ := endExec_iff.1 hexec
  obtain ⟨rfl, rfl⟩ := Prod.mk.inj (Option.some.inj hstep)
  refine Raise.wp_ask_bind.2 fun o r x hexec => ?_
  obtain ⟨w₂, m₂⟩ := x
  obtain ⟨⟨-, hstep⟩, rfl⟩ := endExec_iff.1 hexec
  obtain ⟨rfl, rfl⟩ := Prod.mk.inj (Option.some.inj hstep)
  refine Raise.wp_ask_bind.2 fun o r x hexec => ?_
  obtain ⟨w₃, m₃⟩ := x
  obtain ⟨⟨hwrites, hstep⟩, rfl⟩ := endExec_iff.1 hexec
  obtain ⟨hlocks₃, hfinished⟩ := exec_finishRun rfl hstep
  obtain rfl := exec_failed (Option.isNone_iff_eq_none.1 hwrites) hstep
  have hrunning : running w₃ id = false := by
    rcases hfinished with hrunning | ⟨-, e, he⟩
    · exact hrunning
    · cases he
  have hwatch : uncaught (.error e : Except PyErr RunResult) = false := by rw [uncaught, he]; rfl
  exact ⟨⟨hlocks₃.trans hlocks, by rw [hwatch]; rfl, fun _ h => by cases h⟩, hrunning, rfl⟩

/-- Whatever the region ends with, the monitor has seen whether the document is left `running`. -/
theorem protected_wp (hlocks : w.locks = locks) :
    Prog.wp (endExec lib) (fun _ x => x.1.locks = locks ∧ x.2 = ⟨id, true, running x.1 id⟩)
      (Raise.tryExcept PyErr.isException (reconcile lib request actor id) (failRun id))
      (w, ⟨id, true, false⟩) := by
  refine Raise.wp_tryExcept (Prog.wp_mono (fun r x hx => ?_) (reconcile_wp hlocks))
  obtain ⟨w₁, m₁⟩ := x
  obtain ⟨hlocks₁, hwatch, hfinished⟩ := hx
  obtain rfl : m₁ = ⟨id, true, uncaught r && running w₁ id⟩ := hwatch
  cases r with
  | ok a => exact ⟨hlocks₁, by rw [hfinished a rfl]; rfl⟩
  | error e =>
    simp only [Raise.Post, uncaught]
    cases he : e.isException with
    | true =>
      refine Prog.wp_mono (fun r x hx => ?_) (failRun_wp he hlocks₁)
      obtain ⟨hx, hrunning, rfl⟩ := hx
      exact ⟨hx.locks, by rw [hx.watch, hrunning, Bool.and_false]⟩
    | false => exact ⟨hlocks₁, by rw [Bool.not_false, Bool.true_and]⟩

end Region

/-! ## Taking the lock and giving it back -/

/-- The run ends cleanly if and only if the monitor saw no exception escape. -/
def Judged (r : Except PyErr α) (x : World × RunWatch) : Prop :=
  x.2.acquired → r ≠ .error .killed → (EndsCleanly x.1 x.2.runID ↔ x.2.escaped = false)

theorem finished_iff : (∀ run ∈ w.runs, run.runID = id →
    (∃ summary, run.status = .completed summary) ∨ ∃ type message, run.status = .failed type message) ↔
      running w id = false := by
  have hrun : ∀ run : Run, run.status.isRunning = false ↔ (∃ summary, run.status = .completed summary) ∨
      ∃ type message, run.status = .failed type message := by
    intro run
    cases run.status <;> simp [RunStatus.isRunning]
  unfold running
  cases hget : w.runs.get id with
  | none =>
    refine ⟨fun _ => rfl, fun _ run hmem hid => ?_⟩
    exact absurd hid (Collection.get_eq_none_iff.1 hget run hmem)
  | some run =>
    obtain ⟨hmem, hid⟩ := Collection.get_eq_some_iff.1 hget
    rw [Option.any_some, hrun]
    refine ⟨fun h => h run hmem hid, fun h run' hmem' hid' => ?_⟩
    rwa [Collection.eq_of_id_eq hmem' hmem (hid'.trans hid.symm)]

theorem judged_of_released {r : Except PyErr α} (hreleased : ¬ Owned w.locks id) :
    Judged r (w, ⟨id, true, running w id⟩) := by
  intro _ _
  constructor
  · exact fun h => finished_iff.1 h.finished
  · exact fun h => ⟨hreleased, finished_iff.2 h⟩

theorem releaseLock_wp (h : OwnsOnly locks runLockKey id) (hlocks : w.locks = locks)
    (hwatch : m = ⟨id, true, running w id⟩) :
    Prog.wp (endExec lib) (fun r x => r = .ok () ∧ ∀ r : Except PyErr α, Judged r x) (releaseLock id)
      (w, m) := by
  intro o r x hexec
  obtain ⟨w₁, m₁⟩ := x
  obtain ⟨⟨hwrites, hstep⟩, rfl⟩ := endExec_iff.1 hexec
  have hfault : o.fault = none := Option.isNone_iff_eq_none.1 hwrites
  simp only [Cmd.exec, hfault, perform, Option.some.injEq, Prod.mk.injEq] at hstep
  obtain ⟨rfl, rfl⟩ := hstep
  subst hwatch hlocks
  refine ⟨rfl, fun r => ?_⟩
  have hreleased : ¬ Owned (release w.locks runLockKey id) id := not_owned_release h
  have hwatch : observe (.releaseLock id) (.ok ()) { w with locks := release w.locks runLockKey id }
      ⟨id, true, running w id⟩ = ⟨id, true, running w id⟩ := by
    simp [observe, uncaught]
  rw [hwatch]
  exact judged_of_released (w := { w with locks := release w.locks runLockKey id }) hreleased

section Run

variable {request : RunRequest} {requestedBy : String} {actor : Option Actor} {startedAt : Time}

theorem runLocked_wp (hlocks : OwnsOnly w.locks runLockKey id) (howned : Owned w.locks id) :
    Prog.wp (endExec lib) Judged (runLocked lib request requestedBy actor id startedAt)
      (w, ⟨id, true, false⟩) := by
  refine Raise.wp_ask_bind.2 fun o r x hexec => ?_
  obtain ⟨w₁, m₁⟩ := x
  obtain ⟨⟨-, hstep⟩, rfl⟩ := endExec_iff.1 hexec
  have hlocks₁ : w₁.locks = w.locks := (exec_frame hstep).locks nofun
  cases r with
  | error e =>
    -- the lock is not given back
    intro _ _
    refine iff_of_false (fun h => h.released ?_) nofun
    exact hlocks₁ ▸ howned
  | ok u =>
    refine Raise.wp_tryFinally (Prog.wp_mono (fun r x hx => ?_) (protected_wp hlocks₁))
    obtain ⟨w₂, m₂⟩ := x
    have hrelease : Prog.wp (endExec lib)
        (fun r x => r = .ok () ∧ ∀ r : Except PyErr RunResult, Judged r x) (releaseLock id) (w₂, m₂) :=
      releaseLock_wp hlocks hx.1 hx.2
    cases r with
    | ok a =>
      refine Prog.wp_mono (fun r x hx => ?_) hrelease
      obtain ⟨rfl, hjudged⟩ := hx
      exact hjudged _
    | error e =>
      simp only [Raise.Post]
      split
      · refine Prog.wp_mono (fun r x hx => ?_) hrelease
        obtain ⟨rfl, hjudged⟩ := hx
        exact hjudged _
      · rename_i hunwinds
        intro _ halive
        cases e <;> first | exact absurd rfl halive | exact absurd rfl hunwinds

/-- The attempt to take the lock, from a store with no lock of the run. -/
theorem acquireLock_wp {now : Time} (h : ¬ Owned w.locks id) :
    Prog.wp (endExec lib) (Raise.Post
      (fun acquired x => if acquired then OwnsOnly x.1.locks runLockKey id ∧ Owned x.1.locks id ∧
        x.2 = ⟨id, true, false⟩ else x.2.acquired = false)
      fun _ x => x.2.acquired = false) (acquireLock lib id now) (w, ⟨id, false, false⟩) := by
  apply Raise.wp_tryExcept
  refine Raise.wp_ask_bind.2 fun o r x hexec => ?_
  obtain ⟨w₁, m₁⟩ := x
  obtain ⟨⟨-, hstep⟩, rfl⟩ := endExec_iff.1 hexec
  simp only [Cmd.exec] at hstep
  cases r with
  | error e =>
    simp only [Raise.Post]
    split <;> rfl
  | ok lock =>
    split at hstep
    · rename_i locks hacquire
      obtain ⟨hlock, rfl⟩ := perform_ok hstep
      obtain rfl := Except.ok.inj hlock
      obtain ⟨honly, howned⟩ := acquire_owns h hacquire
      simp only [Raise.Post]
      exact ⟨honly, howned, by simp [observe]⟩
    · exact absurd (respond_ok hstep) fun h => by cases h

theorem runReconciler_wp :
    Prog.wp (endExec lib) Judged (runReconciler lib request requestedBy actor) (w, {}) := by
  refine Raise.wp_ask_bind.2 fun o r x hexec => ?_
  obtain ⟨w₁, m₁⟩ := x
  obtain ⟨⟨-, hstep⟩, rfl⟩ := endExec_iff.1 hexec
  simp only [Cmd.exec] at hstep
  split at hstep
  · cases hstep
  rename_i hfresh
  obtain ⟨rfl, rfl⟩ := Prod.mk.inj (Option.some.inj hstep)
  refine Raise.wp_ask_bind.2 fun o' r x hexec => ?_
  obtain ⟨w₂, m₂⟩ := x
  obtain ⟨⟨-, hstep⟩, rfl⟩ := endExec_iff.1 hexec
  obtain ⟨rfl, rfl⟩ := Prod.mk.inj (Option.some.inj hstep)
  have hnone : ¬ Owned w.locks ("trr_" ++ o.random) := by
    rintro ⟨lock, hlock, howner⟩
    exact hfresh (.inr (.inr ⟨lock, hlock, howner⟩))
  refine Raise.wp_bind.2 (Prog.wp_mono (fun r x hx => ?_) (acquireLock_wp hnone))
  obtain ⟨w₃, m₃⟩ := x
  cases r with
  | error e =>
    intro hacquired
    rw [show m₃.acquired = false from hx] at hacquired
    cases hacquired
  | ok acquired =>
    cases acquired with
    | true =>
      obtain ⟨honly, howned, rfl⟩ := hx
      exact runLocked_wp honly howned
    | false =>
      intro hacquired
      rw [show m₃.acquired = false from hx] at hacquired
      cases hacquired

/-- Once a run has taken its lock, whatever goes wrong while the process lives and the
writes of its handler succeed, it ends cleanly if and only if its document is inserted and
no exception that the handler does not catch is raised while the document says `running`. -/
theorem runEndsCleanly {os : List Oracle} {r : Except PyErr RunResult}
    (hrun : Prog.run (endExec lib) (runReconciler lib request requestedBy actor) os (w, {}) =
      some (r, (w', m))) (hacquired : m.acquired) (halive : r ≠ .error .killed) :
    EndsCleanly w' m.runID ↔ m.escaped = false :=
  Prog.wp_sound (Q := Judged) runReconciler_wp hrun hacquired halive

end Run

end Reconciler

/-! ## A run whose document cannot be inserted -/

namespace Sample

namespace Reconciler

/-- A run that applies nothing. -/
def plainRun : Stylme.Reconciler.Py Stylme.Reconciler.RunResult :=
  Stylme.Reconciler.runReconciler library ⟨10, 10, 2, false, false, false⟩ "owner" none

/-- The oracles of a run up to the `n`-th command after it drew its identifier, which fails. -/
def failingAt (n : ℕ) : List Stylme.Reconciler.Oracle :=
  [{ random := "1" }] ++ quiet n ++ [{ fault := some (failed false) }]

end Reconciler

end Sample

namespace Reconciler

/-- The first read of the protected region fails, and the run ends cleanly. -/
theorem runEndsCleanly_sample : ∃ os r w' m, Prog.run (endExec Sample.Reconciler.library)
    Sample.Reconciler.plainRun os (Sample.Reconciler.world, {}) = some (r, (w', m)) ∧
      m.acquired ∧ EndsCleanly w' m.runID := by
  have hrun : (Prog.run (endExec Sample.Reconciler.library) Sample.Reconciler.plainRun
      (Sample.Reconciler.failingAt 3 ++ Sample.Reconciler.quiet 4) (Sample.Reconciler.world, {})).any
        fun x => x.2.2.acquired ∧ x.2.2.escaped = false ∧ x.1.toOption.isNone ∧
          ¬ uncaught x.1 := by
    decide +kernel
  obtain ⟨⟨r, w', m⟩, hrun, hcheck⟩ := (Option.any_eq_true ..).1 hrun
  obtain ⟨hacquired, hescaped, -, hcaught⟩ := of_decide_eq_true hcheck
  have halive : r ≠ .error .killed := by
    rintro rfl
    exact hcaught rfl
  exact ⟨_, r, w', m, hrun, hacquired, (runEndsCleanly hrun hacquired halive).2 hescaped⟩

/-- The insertion of the run document fails, and the lock of the run stays. -/
theorem not_runEndsCleanly :
    ¬ ∀ (os : List Oracle) (r : Except PyErr RunResult) (w' : World) (m : RunWatch),
      Prog.run (endExec Sample.Reconciler.library) Sample.Reconciler.plainRun os
        (Sample.Reconciler.world, {}) = some (r, (w', m)) → m.acquired → r ≠ .error .killed →
      EndsCleanly w' m.runID := by
  intro h
  have hrun : (Prog.run (endExec Sample.Reconciler.library) Sample.Reconciler.plainRun
      (Sample.Reconciler.failingAt 2) (Sample.Reconciler.world, {})).any
        fun x => x.2.2.acquired ∧ ¬ uncaught x.1 ∧ x.2.1.locks.docs.any (·.owner = x.2.2.runID) := by
    decide +kernel
  obtain ⟨⟨r, w', m⟩, hrun, hcheck⟩ := (Option.any_eq_true ..).1 hrun
  obtain ⟨hacquired, hcaught, howned⟩ := of_decide_eq_true hcheck
  have halive : r ≠ .error .killed := by
    rintro rfl
    exact hcaught rfl
  obtain ⟨lock, hlock, howner⟩ := List.any_eq_true.1 howned
  exact (h _ r w' m hrun hacquired halive).released ⟨lock, hlock, of_decide_eq_true howner⟩

end Reconciler

end Stylme
