-- SUMMARY: Reconciler runs, the operations on the reconciler's store, and the protocol they follow.
import Stylme.Lib.Pool
import Stylme.Reconciler.Retags

/-!
# Runs

`run_reconciler` takes a lock, inserts its run document, and works in a
protected region whose handler marks the run as failed and whose finalizer gives
the lock back. The other operations take no lock.
-/

namespace Stylme

open Conc Backend

namespace Reconciler

variable (lib : Library)

/-! ## The run -/

def acquireLock (owner : String) (now : Time) : Py Bool :=
  Raise.tryExcept (· = .duplicateKey)
    (do
      let lock ← Raise.ask (Cmd.acquireLock owner now (now + lib.lockSeconds * second))
      return lock.owner = owner)
    fun _ => return false

def releaseLock (owner : String) : Py Unit := Raise.ask (Cmd.releaseLock owner)

structure RunResult where
  runID : String
  summary : Summary

/-- The application of the run, if it was asked for. -/
def autoApply (request : RunRequest) (actor : Option Actor) (runID : String) : Py ApplyResult :=
  if request.apply then
    applyRetagProposals lib ⟨[], lib.autoApplyConfidence, request.maxProducts, true, actor, some runID⟩
  else pure ⟨0, 0, 0⟩

/-- The body of the protected region, once the proposals are staged. -/
def finishReconciliation (request : RunRequest) (actor : Option Actor) (runID : String)
    (failures : List Failure) (graph : Graph) (staged : StageResult) : Py RunResult := do
  let applied ← autoApply lib request actor runID
  let now ← Raise.ask Cmd.now
  Raise.when (failures ≠ [])
    (Raise.ask (Cmd.markProcessed (failures.map (·.id)) runID graph.version now))
  let summary : Summary :=
    ⟨failures.length, graph.version, graph.statistics, graph.ai, staged, applied, request.apply⟩
  Raise.ask (Cmd.finishRun runID (.completed summary) now now)
  writeAudit "taxonomy_reconciliation_completed" "taxonomy_reconciliation_run" runID actor
  return ⟨runID, summary⟩

/-- The body of the protected region up to the staging of the proposals. -/
def stageReconciliation (request : RunRequest) (runID : String) :
    Py (List Failure × Graph × StageResult) := do
  let failures ← Raise.ask (Cmd.findFailures request.maxQueries)
  let graph ← buildOrLoadGraph lib failures request.useAI request.rebuildGraph
  let staged ← stageRetagProposals lib graph failures request.maxProducts request.graphDepth runID
  return (failures, graph, staged)

/-- The handler of the protected region. -/
def failRun (runID : String) (e : PyErr) : Py RunResult := do
  let completedAt ← Raise.ask Cmd.now
  let updatedAt ← Raise.ask Cmd.now
  Raise.ask (Cmd.finishRun runID (.failed e.typeName (String.ofList (e.text.toList.take 500)))
    completedAt updatedAt)
  throw e

def reconcile (request : RunRequest) (actor : Option Actor) (runID : String) : Py RunResult := do
  let (failures, graph, staged) ← stageReconciliation lib request runID
  finishReconciliation lib request actor runID failures graph staged

/-- `run_reconciler` once it holds the lock. -/
def runLocked (request : RunRequest) (requestedBy : String) (actor : Option Actor) (runID : String)
    (startedAt : Time) : Py RunResult := do
  Raise.ask (Cmd.insertRun ⟨runID, .running, requestedBy, request, startedAt, none, none⟩)
  Raise.tryFinally PyErr.unwinds
    (Raise.tryExcept PyErr.isException (reconcile lib request actor runID) (failRun runID))
    (releaseLock runID)

def runReconciler (request : RunRequest) (requestedBy : String) (actor : Option Actor) :
    Py RunResult := do
  let hex ← Raise.ask Cmd.uuid
  let startedAt ← Raise.ask Cmd.now
  if ← acquireLock lib ("trr_" ++ hex) startedAt then
    runLocked lib request requestedBy actor ("trr_" ++ hex) startedAt
  else throw (.httpException 409 "A taxonomy reconciliation run is already active")

/-! ## Operations -/

inductive Op where
  | runReconciler (request : RunRequest) (requestedBy : String) (actor : Option Actor)
  | applyRetagProposals (request : ApplyRequest)
  | decideRetagProposal (request : DecisionRequest)
  | recordSearchOutcome (outcome : SearchOutcome)

inductive Reply where
  | run (r : Except PyErr RunResult)
  | applied (r : Except PyErr ApplyResult)
  | decided (r : Except PyErr Proposal)
  | recorded (r : Except PyErr (Option Failure))

/-- Run a coroutine to its value or exception. -/
def outcome {α : Type} (f : Except PyErr α → Reply) (p : Py α) :
    Prog Cmd (Raising PyErr Answer) Reply :=
  Prog.bind p fun r => .ret (f r)

def Op.prog : Op → Prog Cmd (Raising PyErr Answer) Reply
  | .runReconciler request requestedBy actor =>
    outcome .run (Reconciler.runReconciler lib request requestedBy actor)
  | .applyRetagProposals request => outcome .applied (Reconciler.applyRetagProposals lib request)
  | .decideRetagProposal request => outcome .decided (Reconciler.decideRetagProposal lib request)
  | .recordSearchOutcome o => outcome .recorded (Reconciler.recordSearchOutcome lib o)

/-- Any number of operations on one store. -/
def backend : System Op Cmd (Raising PyErr Answer) Reply World Oracle Env where
  prog := Op.prog lib
  exec := Cmd.exec lib.forbiddenText
  env := Env.apply

end Reconciler

end Stylme
