-- SUMMARY: A recovery run that took its lock ends cleanly, unless an exception escapes its handlers and finalizer.
import Stylme.Lib.Monitor
import Stylme.Recovery.System

/-!
# The end of a recovery run

The protected region of a recovery run handles two families of exceptions. Any
other one, also of a plain function that reads a checkout or a provider's answer,
leaves the run document `running`. The finalizer closes the client before it
gives the lock back, and does not cover the insertion of the document. A monitor
watches a run for these exceptions; the run ends cleanly if and only if it saw
none.
-/

namespace Stylme

open Conc Backend

namespace Recovery

/-- The document of the run is stored with the status `running`. -/
def running (w : World) (runID : String) : Bool :=
  (w.runs.get runID).any (·.summary.status = .running)

/-- Some lock of the run is stored. -/
def owned (w : World) (runID : String) : Bool := w.locks.docs.any (·.owner = runID)

/-- No lock of the run is stored, and its document has another status than `running`. -/
structure EndsCleanly (w : World) (runID : String) : Prop where
  released : ¬ Owned w.locks runID
  finished : ∀ run ∈ w.runs, run.runID = runID → run.summary.status ≠ .running

/-- What a monitor knows about a run. -/
structure RunWatch where
  runID : String := ""
  acquired : Bool := false
  /-- The document could not be inserted or the client could not be closed, the lock is
  still stored after its release has failed, or another exception was raised outside the
  two handled families while the document said `running`. -/
  escaped : Bool := false

def observe : (cmd : Cmd) → Resp cmd → World → RunWatch → RunWatch
  | .uuid, .ok hex, _, m => { m with runID := "run_" ++ hex }
  | .acquireLock _ _ _ _, .ok lock, _, m => { m with acquired := lock.owner = m.runID }
  | .insertRun _, .error _, _, m => { m with escaped := true }
  | .closeClient, .error _, _, m => { m with escaped := true }
  | .releaseLock _ _, .error _, w, m => { m with escaped := m.escaped || owned w m.runID }
  | _, .error _, w, m => { m with escaped := m.escaped || running w m.runID }
  | _, .ok _, _, m => m

/-- A watched run. -/
abbrev endExec : (cmd : Cmd) → Oracle → World × RunWatch → Option (Resp cmd × (World × RunWatch)) :=
  Prog.watch Cmd.exec observe

/-- One of the two families of exceptions that are handled. -/
def handled : PyErr → Bool
  | .samora _ _ _ | .httpException _ _ => true
  | _ => false

/-- The exception passes the handlers. -/
def escapes {α : Type} : Except PyErr α → Bool
  | .ok _ => false
  | .error e => !handled e

variable {lib : Library} {w w' : World} {o : Oracle} {cmd : Cmd} {r : Resp cmd} {m m' : RunWatch}
variable {α β : Type} {id : String} {l : Locals} {locks : Locks}

/-! ## Commands of the protected region -/

/-- The command writes neither to locks nor to run documents, and does not close the client. -/
def Cmd.isPlain : Cmd → Bool
  | .now | .findCheckouts _ _ | .post _ _ _ | .sleep | .markScheduled _ _ _ _ | .raised _ => true
  | _ => false

theorem exec_plain (hcmd : cmd.isPlain) (h : cmd.exec o w = some (r, w')) :
    w'.locks = w.locks ∧ w'.runs = w.runs ∧ ∀ e, r = .error e → handled e = false := by
  have hcause : ∀ f : Mishap, handled f.cause.error = false := by
    rintro ⟨cause, applied⟩
    cases cause <;> rfl
  have hrespond : ∀ {a : Answer cmd}, respond o.fault (.ok a) w = some (r, w') →
      w'.locks = w.locks ∧ w'.runs = w.runs ∧ ∀ e, r = .error e → handled e = false := by
    intro a h
    obtain ⟨rfl, hr⟩ := respond_eq h
    refine ⟨rfl, rfl, fun e he => ?_⟩
    rcases hr with rfl | ⟨f, -, rfl⟩
    · cases he
    · exact Except.error.inj he ▸ hcause f
  cases cmd with
  | now =>
    obtain ⟨rfl, rfl⟩ := Prod.mk.inj (Option.some.inj h)
    exact ⟨rfl, rfl, nofun⟩
  | findCheckouts startedAt limit => exact hrespond h
  | post url apiKey body => exact hrespond h
  | sleep => exact hrespond h
  | markScheduled id externalID mark updatedAt =>
    simp only [Cmd.exec] at h
    split at h
    · split at h
      · rcases perform_eq h with ⟨-, rfl, rfl⟩ | ⟨f, -, rfl, rfl⟩
        · exact ⟨rfl, rfl, nofun⟩
        · refine ⟨?_, ?_, fun e he => Except.error.inj he ▸ hcause f⟩ <;> split <;> rfl
      · exact hrespond h
    · exact hrespond h
  | raised e =>
    obtain ⟨rfl, rfl⟩ := Prod.mk.inj (Option.some.inj h)
    exact ⟨rfl, rfl, fun e' he => Except.error.inj he ▸ rfl⟩
  | _ => cases hcmd

theorem observe_plain (hcmd : cmd.isPlain) (hr : ∀ e, r = .error e → handled e = false) :
    observe cmd r w m = { m with escaped := m.escaped || escapes r && running w m.runID } := by
  cases r with
  | ok a =>
    have hok : observe cmd (.ok a) w m = m := by
      cases cmd <;> first | rfl | cases hcmd
    rw [hok]
    simp [escapes]
  | error e =>
    have herror : observe cmd (.error e) w m =
        { m with escaped := m.escaped || running w m.runID } := by
      cases cmd <;> first | rfl | cases hcmd
    rw [herror, escapes, hr e rfl]
    rfl

/-- Nothing about the run has changed, but that an exception passes the handlers. -/
structure Aloof (id : String) (w : World) (escaping : Bool) (l : Locals) (x : World × RunWatch) :
    Prop where
  runID : l.summary.runID = id
  locks : x.1.locks = w.locks
  runs : x.1.runs = w.runs
  watch : x.2 = ⟨id, true, escaping && running w id⟩

/-- A coroutine that leaves the run alone. -/
def Quiet (p : Body α) : Prop :=
  ∀ id l w, l.summary.runID = id →
    Coroutine.wp endExec (fun r l x => Aloof id w (escapes r) l x) p l (w, ⟨id, true, false⟩)

theorem quiet_pure {a : α} : Quiet (pure a : Body α) := fun _ _ _ h => ⟨h, rfl, rfl, rfl⟩

theorem quiet_throw {e : PyErr} (he : handled e) : Quiet (throw e : Body α) :=
  fun _ _ _ h => ⟨h, rfl, rfl, by rw [escapes, he]; rfl⟩

theorem quiet_locals : Quiet Coroutine.locals := fun _ _ _ h => ⟨h, rfl, rfl, rfl⟩

theorem quiet_assign {f : Locals → Locals} (hf : ∀ l, (f l).summary.runID = l.summary.runID) :
    Quiet (Coroutine.assign f) :=
  fun _ l _ h => ⟨(hf l).trans h, rfl, rfl, rfl⟩

theorem quiet_ask (hcmd : cmd.isPlain) : Quiet (Coroutine.ask cmd) := by
  intro id l w hid o r x hexec
  obtain ⟨w', m'⟩ := x
  obtain ⟨hstep, rfl⟩ := Prog.watch_eq_some_iff.1 hexec
  obtain ⟨hlocks, hruns, hr⟩ := exec_plain hcmd hstep
  refine ⟨hid, hlocks, hruns, ?_⟩
  have hrunning : running w' id = running w id := by rw [running, hruns, running]
  change observe cmd r w' ⟨id, true, false⟩ = _
  rw [observe_plain hcmd hr, hrunning]
  rfl

theorem quiet_bind {p : Body α} {f : α → Body β} (h : Quiet p) (hf : ∀ a, Quiet (f a)) :
    Quiet (p >>= f) := by
  intro id l w hid
  refine Coroutine.wp_bind (Coroutine.wp_mono (fun r l x hx => ?_) (h id l w hid))
  obtain ⟨w₁, m₁⟩ := x
  obtain ⟨hid₁, hlocks, hruns, hwatch⟩ := hx
  cases r with
  | ok a =>
    obtain rfl : m₁ = ⟨id, true, false⟩ := hwatch
    have hrunning : running w₁ id = running w id := by rw [running, hruns, running]
    dsimp only [Raise.Post]
    refine Coroutine.wp_mono (fun r l x hx => ?_) (hf a id l w₁ hid₁)
    exact ⟨hx.runID, hx.locks.trans hlocks, hx.runs.trans hruns, hrunning ▸ hx.watch⟩
  | error e => exact ⟨hid₁, hlocks, hruns, hwatch⟩

theorem quiet_call {r : Except Raised α} : Quiet (call r) := by
  cases r with
  | ok a => exact quiet_pure
  | error e =>
    rw [call, plain, Coroutine.await_bind]
    exact quiet_bind (quiet_ask rfl) nofun

theorem quiet_forEach {f : α → Body Unit} {as : List α} (h : ∀ a, Quiet (f a)) :
    Quiet (forEach f as) := by
  induction as with
  | nil => exact quiet_pure
  | cons a as ih => exact quiet_bind (h a) fun _ => ih

theorem quiet_extendEach {f : α → Body (List β)} {as : List α} (h : ∀ a, Quiet (f a)) :
    Quiet (extendEach f as) := by
  induction as with
  | nil => exact quiet_pure
  | cons a as ih => exact quiet_bind (h a) fun _ => quiet_bind ih fun _ => quiet_pure

theorem quiet_assignSummary {f : Summary → Summary} (hf : ∀ s, (f s).runID = s.runID) :
    Quiet (assign f) :=
  quiet_assign fun l => hf l.summary

/-! ## The client and the loops -/

theorem quiet_postAttempts {client : Client} {path : String} {payload : Value} {n : ℕ}
    {lastError : Option PyErr} (h : ∀ e, lastError = some e → handled e) :
    Quiet (Coroutine.await (postAttempts client path payload n lastError)) := by
  induction n generalizing lastError with
  | zero =>
    refine quiet_throw ?_
    cases lastError with
    | none => rfl
    | some e => exact h e rfl
  | succ n ih =>
    unfold postAttempts
    rw [Coroutine.await_bind]
    refine quiet_bind (quiet_ask rfl) fun response => ?_
    have hagain : ∀ e, handled e → Quiet (Coroutine.await (do
        Raise.ask Cmd.sleep
        postAttempts client path payload n (some e))) := by
      intro e he
      rw [Coroutine.await_bind]
      exact quiet_bind (quiet_ask rfl) fun _ => ih fun e' he' => Option.some.inj he' ▸ he
    cases response with
    | none =>
      dsimp only
      split
      · exact quiet_throw rfl
      · exact hagain _ rfl
    | some response =>
      dsimp only
      split
      · split
        · exact quiet_throw rfl
        · exact quiet_pure
        · exact quiet_throw rfl
      · split
        · exact quiet_throw rfl
        · exact hagain _ rfl

theorem quiet_post {client : Client} {path : String} {payload : Value} :
    Quiet (Coroutine.await (post lib client path payload)) := by
  unfold post
  split
  · exact quiet_throw rfl
  · exact quiet_postAttempts nofun

theorem quiet_lookupBatch {config : Config} {client : Client} {batch : List Row} :
    Quiet (lookupBatch lib config client batch) := by
  refine quiet_bind quiet_post fun response => quiet_bind quiet_call fun outcome => ?_
  exact quiet_bind (quiet_assignSummary fun _ => rfl) fun _ => quiet_pure

theorem quiet_scheduleBatch {config : Config} {client : Client} {batch : List Row} :
    Quiet (scheduleBatch lib config client batch) := by
  unfold scheduleBatch
  refine quiet_bind (quiet_assignSummary fun _ => rfl) fun _ => ?_
  split
  · exact quiet_pure
  refine quiet_bind (quiet_assignSummary fun _ => rfl) fun _ => ?_
  refine quiet_bind quiet_post fun response => quiet_bind quiet_call fun results => ?_
  refine quiet_bind quiet_locals fun l => quiet_bind quiet_call fun h => ?_
  exact quiet_bind (quiet_assignSummary fun _ => rfl) fun _ => quiet_pure

theorem quiet_recordActivity {results : Value} {indexed : List (ℤ × Value)} {entry : Scheduled}
    {index : ℕ} : Quiet (recordActivity lib results indexed entry index) := by
  refine quiet_bind quiet_call fun result => quiet_bind quiet_call fun ok => ?_
  split
  · refine quiet_bind (quiet_assignSummary fun _ => rfl) fun _ => ?_
    exact quiet_bind (quiet_ask rfl) fun now => quiet_ask rfl
  · exact quiet_bind quiet_call fun code => quiet_assignSummary fun _ => rfl

theorem quiet_activityBatch {config : Config} {secrets : Secrets} {client : Client}
    {batch : List Scheduled} : Quiet (activityBatch lib config secrets client batch) := by
  unfold activityBatch
  refine quiet_bind (quiet_assignSummary fun _ => rfl) fun _ => ?_
  split
  · exact quiet_pure
  refine quiet_bind (quiet_assignSummary fun _ => rfl) fun _ => ?_
  refine quiet_bind quiet_post fun response => quiet_bind quiet_call fun indexed => ?_
  exact quiet_forEach fun _ => quiet_recordActivity

/-! ## The protected region -/

/-- An update that ends the run ends it, unless it is not applied. -/
theorem exec_finishRun {summary : Summary} {updatedAt : Time} {r : Resp (.finishRun summary updatedAt)}
    (hstatus : summary.status ≠ .running)
    (h : (Cmd.finishRun summary updatedAt).exec o w = some (r, w')) :
    w'.locks = w.locks ∧ (∀ e, r = .error e → handled e = false) ∧
      (running w' summary.runID = false ∨ ∃ e, r = .error e) := by
  have hcause : ∀ f : Mishap, handled f.cause.error = false := by
    rintro ⟨cause, applied⟩
    cases cause <;> rfl
  simp only [Cmd.exec] at h
  split at h
  · rename_i run hget
    obtain ⟨runs, hruns⟩ := Collection.replaceOne_of_id (t := w.runs) (d := run.finished summary updatedAt)
    rw [hruns, Option.getD_some] at h
    have hself : runs.get summary.runID = some (run.finished summary updatedAt) :=
      Collection.get_replaceOne_self hruns
    have hfinished : running { w with runs } summary.runID = false := by
      rw [running, hself, Option.any_some]
      exact decide_eq_false hstatus
    rcases perform_eq h with ⟨-, rfl, rfl⟩ | ⟨f, -, rfl, rfl⟩
    · exact ⟨rfl, nofun, .inl hfinished⟩
    · exact ⟨by split <;> rfl, fun e he => Except.error.inj he ▸ hcause f, .inr ⟨_, rfl⟩⟩
  · rename_i hget
    obtain ⟨rfl, hr⟩ := respond_eq h
    refine ⟨rfl, fun e he => ?_, .inl (by rw [running, hget]; rfl)⟩
    rcases hr with rfl | ⟨f, -, rfl⟩
    · cases he
    · exact Except.error.inj he ▸ hcause f

/-- The region leaves the locks alone, and the monitor has seen an exception escape if the
region ends with one while the document says `running`. -/
structure Recovered (id : String) (locks : Locks) (r : Except PyErr α) (l : Locals)
    (x : World × RunWatch) : Prop where
  runID : l.summary.runID = id
  locks : x.1.locks = locks
  watch : x.2 = ⟨id, true, escapes r && running x.1 id⟩
  finished : ∀ a, r = .ok a → running x.1 id = false

theorem quiet_bind_wp {p : Body α} {f : α → Body β} (h : Quiet p) (hid : l.summary.runID = id)
    (hlocks : w.locks = locks) (hf : ∀ a l w₁, l.summary.runID = id → w₁.locks = locks →
      Coroutine.wp endExec (Recovered id locks) (f a) l (w₁, ⟨id, true, false⟩)) :
    Coroutine.wp endExec (Recovered id locks) (p >>= f : Body β) l (w, ⟨id, true, false⟩) := by
  refine Coroutine.wp_bind (Coroutine.wp_mono (fun r l x hx => ?_) (h id l w hid))
  obtain ⟨w₁, m₁⟩ := x
  obtain ⟨hid₁, hlocks₁, hruns, hwatch⟩ := hx
  cases r with
  | ok a =>
    obtain rfl : m₁ = ⟨id, true, false⟩ := hwatch
    exact hf a l w₁ hid₁ (hlocks₁.trans hlocks)
  | error e =>
    have hrunning : running w₁ id = running w id := by rw [running, hruns, running]
    exact ⟨hid₁, hlocks₁.trans hlocks, by rw [hrunning]; exact hwatch, fun _ h => by cases h⟩

theorem askFinish_wp {t : Time} (hid : l.summary.runID = id) (hlocks : w.locks = locks)
    (hstatus : l.summary.status ≠ .running) :
    Coroutine.wp endExec (fun r l x => Recovered id locks r l x ∧ x.2 = ⟨id, true, running x.1 id⟩)
      (Coroutine.ask (Cmd.finishRun l.summary t) >>= fun _ => (pure l.summary : Body Summary)) l
      (w, ⟨id, true, false⟩) := by
  refine Coroutine.wp_ask_bind fun o r x hexec => ?_
  obtain ⟨w₁, m₁⟩ := x
  obtain ⟨hstep, rfl⟩ := Prog.watch_eq_some_iff.1 hexec
  obtain ⟨hlocks₁, hhandled, hfinished⟩ := exec_finishRun hstatus hstep
  replace hlocks₁ := hlocks₁.trans hlocks
  cases r with
  | ok u =>
    have hrunning : running w₁ id = false := by
      rcases hfinished with hrunning | ⟨e, he⟩
      · exact hid ▸ hrunning
      · cases he
    exact ⟨⟨hid, hlocks₁, rfl, fun _ _ => hrunning⟩, by rw [hrunning]; rfl⟩
  | error e =>
    have hescapes : escapes (.error e : Except PyErr Summary) = true := by
      rw [escapes, hhandled e rfl]
      rfl
    exact ⟨⟨hid, hlocks₁, by rw [hescapes]; rfl, fun _ h => by cases h⟩, rfl⟩

theorem finishRun_wp (hid : l.summary.runID = id) (hlocks : w.locks = locks)
    (hstatus : l.summary.status ≠ .running) :
    Coroutine.wp endExec (fun r l x => Recovered id locks r l x ∧ x.2 = ⟨id, true, running x.1 id⟩)
      finishRun l (w, ⟨id, true, false⟩) := by
  refine Coroutine.wp_ask_bind fun o r x hexec => ?_
  obtain ⟨w₁, m₁⟩ := x
  obtain ⟨hstep, rfl⟩ := Prog.watch_eq_some_iff.1 hexec
  obtain ⟨rfl, rfl⟩ := Prod.mk.inj (Option.some.inj hstep)
  exact askFinish_wp (l := { l with summary := { l.summary with finishedAt := some w.clock } }) hid
    hlocks hstatus

theorem finishWith_wp {status : Summary → RunStatus} (hid : l.summary.runID = id)
    (hlocks : w.locks = locks) (hstatus : ∀ s, status s ≠ .running) :
    Coroutine.wp endExec (fun r l x => Recovered id locks r l x ∧ x.2 = ⟨id, true, running x.1 id⟩)
      (finishWith status) l (w, ⟨id, true, false⟩) :=
  finishRun_wp (l := { l with summary := { l.summary with status := status l.summary } }) hid hlocks
    (hstatus l.summary)

theorem completion_ne_running {errors : List RunError} : completion errors ≠ .running := by
  unfold completion
  split <;> exact nofun

section Region

variable {config : Config} {startedAt : Time}

theorem recoverRows_wp {rows : List Row} (hid : l.summary.runID = id) (hlocks : w.locks = locks) :
    Coroutine.wp endExec (Recovered id locks) (recoverRows lib config rows) l
      (w, ⟨id, true, false⟩) := by
  refine quiet_bind_wp quiet_call hid hlocks fun secrets l w₁ hid hlocks => ?_
  split
  · exact ⟨hid, hlocks, rfl, fun _ h => by cases h⟩
  refine quiet_bind_wp (quiet_assign fun _ => rfl) hid hlocks fun _ l w₂ hid hlocks => ?_
  refine quiet_bind_wp (quiet_extendEach fun _ => quiet_lookupBatch) hid hlocks
    fun eligible l w₃ hid hlocks => ?_
  refine quiet_bind_wp (quiet_extendEach fun _ => quiet_scheduleBatch) hid hlocks
    fun scheduled l w₄ hid hlocks => ?_
  refine quiet_bind_wp (quiet_forEach fun _ => quiet_activityBatch) hid hlocks
    fun _ l w₅ hid hlocks => ?_
  exact Coroutine.wp_mono (fun _ _ _ h => h.1)
    (finishWith_wp hid hlocks fun _ => completion_ne_running)

theorem recoverCheckouts_wp (hid : l.summary.runID = id) (hlocks : w.locks = locks) :
    Coroutine.wp endExec (Recovered id locks) (recoverCheckouts lib config startedAt) l
      (w, ⟨id, true, false⟩) := by
  refine quiet_bind_wp quiet_call hid hlocks fun within l w₁ hid hlocks => ?_
  split
  · refine quiet_bind_wp (quiet_ask rfl) hid hlocks fun documents l w₂ hid hlocks => ?_
    refine quiet_bind_wp quiet_call hid hlocks fun rawRows l w₃ hid hlocks => ?_
    refine quiet_bind_wp (quiet_assignSummary fun _ => rfl) hid hlocks fun _ l w₄ hid hlocks => ?_
    split
    · exact Coroutine.wp_mono (fun _ _ _ h => h.1)
        (finishWith_wp hid hlocks fun _ => completion_ne_running)
    · exact recoverRows_wp hid hlocks
  · exact Coroutine.wp_mono (fun _ _ _ h => h.1) (finishWith_wp hid hlocks fun _ => nofun)

/-- What the handlers make of the end of the region. -/
theorem failRun_wp {e : PyErr} (hid : l.summary.runID = id) (hlocks : w.locks = locks)
    (hwatch : m = ⟨id, true, !handled e && running w id⟩) :
    Coroutine.wp endExec (fun _ _ x => x.1.locks = locks ∧ x.2 = ⟨id, true, running x.1 id⟩)
      (failRun e) l (w, m) := by
  have hfail : ∀ l : Locals, l.summary.runID = id → ∀ e',
      Coroutine.wp endExec (fun _ _ x => x.1.locks = locks ∧ x.2 = ⟨id, true, running x.1 id⟩)
        (finishWith (fun _ => .failed) >>= fun _ => (throw e' : Body Summary)) l
        (w, ⟨id, true, false⟩) := by
    intro l hid e'
    have hfinish : Coroutine.wp endExec
        (fun r l x => Recovered id locks r l x ∧ x.2 = ⟨id, true, running x.1 id⟩)
        (finishWith fun _ => .failed) l (w, ⟨id, true, false⟩) := finishWith_wp hid hlocks fun _ => nofun
    refine Coroutine.wp_bind (Coroutine.wp_mono (fun r l x hx => ?_) hfinish)
    cases r with
    | ok s => exact ⟨hx.1.locks, hx.2⟩
    | error e => exact ⟨hx.1.locks, hx.2⟩
  cases e with
  | samora statusCode code retryable =>
    subst hwatch
    exact hfail { l with summary :=
      { l.summary with errors := l.summary.errors ++ [⟨none, "samora", code, retryable⟩] } } hid _
  | httpException statusCode detail =>
    subst hwatch
    exact hfail l hid _
  | _ => exact ⟨hlocks, hwatch⟩

end Region

/-! ## Taking the lock and giving it back -/

/-- The run ends cleanly if and only if the monitor saw no exception escape. -/
def Judged (r : Except PyErr α) (x : World × RunWatch) : Prop :=
  x.2.acquired → r ≠ .error .killed → (EndsCleanly x.1 x.2.runID ↔ x.2.escaped = false)

theorem owned_eq_true_iff : owned w id = true ↔ Owned w.locks id := by
  simp only [owned, List.any_eq_true, decide_eq_true_eq]
  rfl

theorem finished_iff : (∀ run ∈ w.runs, run.runID = id → run.summary.status ≠ .running) ↔
    running w id = false := by
  unfold running
  cases hget : w.runs.get id with
  | none =>
    refine ⟨fun _ => rfl, fun _ run hmem hid => ?_⟩
    exact absurd hid (Collection.get_eq_none_iff.1 hget run hmem)
  | some run =>
    obtain ⟨hmem, hid⟩ := Collection.get_eq_some_iff.1 hget
    rw [Option.any_some, decide_eq_false_iff_not]
    refine ⟨fun h => h run hmem hid, fun h run' hmem' hid' => ?_⟩
    rwa [Collection.eq_of_id_eq hmem' hmem (hid'.trans hid.symm)]

theorem endsCleanly_iff : EndsCleanly w id ↔ (running w id || owned w id) = false := by
  rw [Bool.or_eq_false_iff, ← finished_iff, ← Bool.not_eq_true, owned_eq_true_iff]
  exact ⟨fun h => ⟨h.finished, h.released⟩, fun h => ⟨h.2, h.1⟩⟩

section Run

variable {config : Config} {requestedBy lockKey : String} {startedAt : Time}

theorem releaseLock_wp (honly : OwnsOnly w.locks lockKey id) :
    Coroutine.wp endExec (fun _ _ x => ∀ r : Except PyErr α, Judged r x)
      (Coroutine.ask (Cmd.releaseLock lockKey id)) l (w, ⟨id, true, running w id⟩) := by
  intro o r x hexec
  obtain ⟨w₁, m₁⟩ := x
  obtain ⟨hstep, rfl⟩ := Prog.watch_eq_some_iff.1 hexec
  have hruns : w₁.runs = w.runs := by
    rcases perform_state hstep with rfl | rfl <;> rfl
  have hrunning : running w id = running w₁ id := by rw [running, ← hruns, running]
  intro r' _ _
  refine endsCleanly_iff.trans ?_
  cases r with
  | ok u =>
    obtain ⟨-, rfl⟩ := perform_ok hstep
    have howned : owned { w with locks := release w.locks lockKey id } id = false := by
      rw [← Bool.not_eq_true, owned_eq_true_iff]
      exact not_owned_release honly
    change (_ || owned { w with locks := release w.locks lockKey id } id) = false ↔ running w id = false
    rw [howned, Bool.or_false, hrunning]
    exact Iff.rfl
  | error e =>
    change _ ↔ (running w id || owned w₁ id) = false
    rw [hrunning]
    rfl

theorem cleanUp_wp (honly : OwnsOnly w.locks lockKey id) (howned : Owned w.locks id)
    (hwatch : m = ⟨id, true, running w id⟩) :
    Coroutine.wp endExec (fun _ _ x => ∀ r : Except PyErr α, Judged r x) (cleanUp lockKey id) l
      (w, m) := by
  subst hwatch
  refine Coroutine.wp_bind (Coroutine.wp_locals.2 ?_)
  dsimp only [Raise.Post]
  split
  · refine Coroutine.wp_ask_bind fun o r x hexec => ?_
    obtain ⟨w₁, m₁⟩ := x
    obtain ⟨hstep, rfl⟩ := Prog.watch_eq_some_iff.1 hexec
    obtain ⟨rfl, -⟩ := respond_eq hstep
    cases r with
    | ok u => exact releaseLock_wp honly
    | error e =>
      -- the lock is not given back
      exact fun r _ _ => iff_of_false (fun h => h.released howned) nofun
  · exact releaseLock_wp honly

theorem executeLocked_wp (honly : OwnsOnly w.locks lockKey id) (howned : Owned w.locks id) :
    Prog.wp endExec Judged (executeLocked lib config requestedBy lockKey id startedAt)
      (w, ⟨id, true, false⟩) := by
  refine Raise.wp_ask_bind.2 fun o r x hexec => ?_
  obtain ⟨w₁, m₁⟩ := x
  obtain ⟨hstep, rfl⟩ := Prog.watch_eq_some_iff.1 hexec
  have hlocks₁ : w₁.locks = w.locks := by
    simp only [Cmd.exec] at hstep
    split at hstep
    · rcases perform_state hstep with rfl | rfl <;> rfl
    · rw [(respond_eq hstep).1]
  cases r with
  | error e => exact fun _ _ => iff_of_false (fun h => h.released (hlocks₁ ▸ howned)) nofun
  | ok u =>
    refine Coroutine.wp_start (Coroutine.wp_tryFinally ?_)
    have hregion : Coroutine.wp endExec
        (fun _ _ x => x.1.locks = w.locks ∧ x.2 = ⟨id, true, running x.1 id⟩)
        (Coroutine.tryExcept (recoverCheckouts lib config startedAt) failRun)
        { summary := emptySummary id config.id startedAt } (w₁, ⟨id, true, false⟩) := by
      refine Coroutine.wp_tryExcept (Coroutine.wp_mono (fun r l x hx => ?_)
        (recoverCheckouts_wp rfl hlocks₁))
      obtain ⟨w₂, m₂⟩ := x
      cases r with
      | ok s => exact ⟨hx.locks, by rw [hx.watch, hx.finished s rfl]; rfl⟩
      | error e => exact failRun_wp hx.runID hx.locks hx.watch
    refine Coroutine.wp_mono (fun r l x hx => ?_) hregion
    obtain ⟨w₂, m₂⟩ := x
    obtain ⟨hlocks₂, hwatch⟩ := hx
    have hclean : Coroutine.wp endExec (fun _ _ x => ∀ r : Except PyErr Summary, Judged r x)
        (cleanUp lockKey id) l (w₂, m₂) :=
      cleanUp_wp (hlocks₂ ▸ honly) (hlocks₂ ▸ howned) hwatch
    cases r with
    | ok s =>
      dsimp only [Raise.Post]
      refine Coroutine.wp_mono (fun r' l x hx => ?_) hclean
      cases r' <;> exact hx _
    | error e =>
      simp only [Raise.Post]
      split
      · refine Coroutine.wp_mono (fun r' l x hx => ?_) hclean
        cases r' <;> exact hx _
      · rename_i hunwinds
        intro _ halive
        cases e <;> first | exact absurd rfl halive | exact absurd rfl hunwinds

/-- The attempt to take the lock, from a store with no lock of the run. -/
theorem acquireLock_wp {now : Time} (h : ¬ Owned w.locks id) :
    Prog.wp endExec (Raise.Post
      (fun acquired x => if acquired then OwnsOnly x.1.locks lockKey id ∧ Owned x.1.locks id ∧
        x.2 = ⟨id, true, false⟩ else x.2.acquired = false)
      fun _ x => x.2.acquired = false) (acquireLock lib lockKey id now) (w, ⟨id, false, false⟩) := by
  apply Raise.wp_tryExcept
  refine Raise.wp_ask_bind.2 fun o r x hexec => ?_
  obtain ⟨w₁, m₁⟩ := x
  obtain ⟨hstep, rfl⟩ := Prog.watch_eq_some_iff.1 hexec
  simp only [Cmd.exec] at hstep
  cases r with
  | error e =>
    simp only [Raise.Post]
    split <;> rfl
  | ok lock =>
    split at hstep
    · rename_i locks hacquire
      obtain ⟨hlock, rfl⟩ := perform_ok hstep
      obtain rfl := Except.ok.inj hlock
      obtain ⟨honly, howned⟩ := acquire_owns h hacquire
      simp only [Raise.Post]
      exact ⟨honly, howned, by simp [observe]⟩
    · exact absurd (respond_ok hstep) fun h => by cases h

/-- Until the run has drawn its identifier, the monitor has nothing to say. -/
theorem enter_wp (h : ¬ Owned w.locks id) :
    Prog.wp endExec Judged (do
      let startedAt ← Raise.ask Cmd.now
      if ← acquireLock lib lockKey id startedAt then
        executeLocked lib config requestedBy lockKey id startedAt
      else throw (.httpException 409 "A checkout-recovery run is already active") : Py Summary)
      (w, ⟨id, false, false⟩) := by
  refine Raise.wp_ask_bind.2 fun o r x hexec => ?_
  obtain ⟨w₁, m₁⟩ := x
  obtain ⟨hstep, rfl⟩ := Prog.watch_eq_some_iff.1 hexec
  obtain ⟨rfl, rfl⟩ := Prod.mk.inj (Option.some.inj hstep)
  refine Raise.wp_bind.2 (Prog.wp_mono (fun r x hx => ?_) (acquireLock_wp h))
  obtain ⟨w₂, m₂⟩ := x
  have hnone : m₂.acquired = false → ∀ r : Except PyErr Summary, Judged r (w₂, m₂) := by
    intro hacquired r h
    rw [hacquired] at h
    cases h
  cases r with
  | error e => exact hnone hx _
  | ok acquired =>
    cases acquired with
    | true =>
      obtain ⟨honly, howned, rfl⟩ := hx
      exact executeLocked_wp honly howned
    | false => exact hnone hx _

theorem getConfig_wp : Prog.wp endExec (Raise.Post (fun _ x => x.2 = {})
    fun _ x => x.2.acquired = false) getConfig (w, {}) := by
  refine Raise.wp_ask_bind.2 fun o r x hexec => ?_
  obtain ⟨w₁, m₁⟩ := x
  obtain ⟨-, rfl⟩ := Prog.watch_eq_some_iff.1 hexec
  cases r with
  | error e => exact rfl
  | ok config =>
    cases config with
    | some config => exact rfl
    | none =>
      intro o r x hexec
      obtain ⟨w₂, m₂⟩ := x
      obtain ⟨-, rfl⟩ := Prog.watch_eq_some_iff.1 hexec
      cases r <;> exact rfl

theorem executeRecovery_wp : Prog.wp endExec Judged (executeRecovery lib requestedBy) (w, {}) := by
  refine Raise.wp_bind.2 (Prog.wp_mono (fun r x hx => ?_) getConfig_wp)
  obtain ⟨w₁, m₁⟩ := x
  cases r with
  | error e => exact fun hacquired => absurd hacquired (by rw [show m₁.acquired = false from hx]; nofun)
  | ok config =>
    obtain rfl : m₁ = {} := hx
    dsimp only [Raise.Post]
    split
    · refine Raise.wp_ask_bind.2 fun o r x hexec => ?_
      obtain ⟨w₂, m₂⟩ := x
      obtain ⟨hstep, rfl⟩ := Prog.watch_eq_some_iff.1 hexec
      simp only [Cmd.exec] at hstep
      split at hstep
      · cases hstep
      rename_i hfresh
      obtain ⟨rfl, rfl⟩ := Prod.mk.inj (Option.some.inj hstep)
      exact enter_wp fun ⟨lock, hlock, howner⟩ => hfresh (.inr (.inr ⟨lock, hlock, howner⟩))
    · exact fun hacquired => absurd hacquired nofun

/-- Once a recovery run has taken its lock, whatever it reads and whatever goes wrong
while the process lives, it ends cleanly if and only if no exception escapes its handlers
and its finalizer. -/
theorem recoveryEndsCleanly {os : List Oracle} {r : Except PyErr Summary}
    (hrun : Prog.run endExec (executeRecovery lib requestedBy) os (w, {}) = some (r, (w', m)))
    (hacquired : m.acquired) (halive : r ≠ .error .killed) :
    EndsCleanly w' m.runID ↔ m.escaped = false :=
  Prog.wp_sound (Q := Judged) executeRecovery_wp hrun hacquired halive

end Run

end Recovery

/-! ## A checkout whose token cannot be decrypted -/

namespace Sample

namespace Recovery

/-- The oracles of a run in which every HTTP request times out. -/
def timeouts : List Stylme.Recovery.Oracle := {} :: { random := "1" } :: List.replicate 18 {}

/-- What the run ends with. -/
def raised {α : Type} : Except PyErr α → Option PyErr
  | .ok _ => none
  | .error e => some e

end Recovery

end Sample

namespace Recovery

/-- The provider cannot be reached, and the run ends cleanly. -/
theorem recoveryEndsCleanly_sample : ∃ os r w' m,
    Prog.run endExec (executeRecovery Sample.Recovery.library "cron") os
      (Sample.Recovery.world "sealed", {}) = some (r, (w', m)) ∧ m.acquired ∧ EndsCleanly w' m.runID := by
  have hrun : (Prog.run endExec (executeRecovery Sample.Recovery.library "cron")
      Sample.Recovery.timeouts (Sample.Recovery.world "sealed", {})).any fun x =>
        x.2.2.acquired ∧ x.2.2.escaped = false ∧ Sample.Recovery.raised x.1 =
          some (.httpException 502 "Samora workflow failed (timeout_or_network)") := by
    decide +kernel
  obtain ⟨⟨r, w', m⟩, hrun, hcheck⟩ := (Option.any_eq_true ..).1 hrun
  obtain ⟨hacquired, hescaped, hraised⟩ := of_decide_eq_true hcheck
  have halive : r ≠ .error .killed := by
    rintro rfl
    cases hraised
  exact ⟨_, r, w', m, hrun, hacquired, (recoveryEndsCleanly hrun hacquired halive).2 hescaped⟩

/-- One checkout has a token that cannot be decrypted, and the run document says `running`
for ever. -/
theorem not_recoveryEndsCleanly :
    ¬ ∀ (w w' : World) (os : List Oracle) (r : Except PyErr Summary) (m : RunWatch),
      Prog.run endExec (executeRecovery Sample.Recovery.library "cron") os (w, {}) =
        some (r, (w', m)) → m.acquired → r ≠ .error .killed → EndsCleanly w' m.runID := by
  intro h
  have hrun : (Prog.run endExec (executeRecovery Sample.Recovery.library "cron")
      Sample.Recovery.timeouts (Sample.Recovery.world "torn", {})).any fun x =>
        x.2.2.acquired ∧ running x.2.1 x.2.2.runID ∧ Sample.Recovery.raised x.1 =
          some (.exception "SecretDecryptionError" "Encrypted integration secret cannot be read") := by
    decide +kernel
  obtain ⟨⟨r, w', m⟩, hrun, hcheck⟩ := (Option.any_eq_true ..).1 hrun
  obtain ⟨hacquired, hrunning, hraised⟩ := of_decide_eq_true hcheck
  have halive : r ≠ .error .killed := by
    rintro rfl
    cases hraised
  have hclean := finished_iff.1 (h _ w' _ r m hrun hacquired halive).finished
  rw [hrunning] at hclean
  cases hclean

end Recovery

end Stylme
