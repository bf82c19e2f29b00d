-- SUMMARY: Dispatching calls: the claim, the campaign gates, the dial, and what each outcome writes.
import Stylme.Service.Basic

/-!
# Dispatch

`DispatchOne`, `dispatchCall`, `failDispatch`, `deferDispatch` and
`cancelUndispatchedCall` of `internal/service/service.go`. The document each of
them writes is a function of the claimed copy, so that a proof can speak of the
write without the program around it.
-/

namespace Stylme

open Conc

/-- `mergeFailure` -/
def mergeFailure (existing : Option Document) (stage message : String) : Option Document :=
  some (setKey stage (.str message) (existing.getD []))

/-- An open trace entry. -/
def AgentTrace.enter (nodeKey agentID : String) (now : Time) : AgentTrace where
  nodeKey := nodeKey
  agentID := agentID
  enteredAt := now
  exitedAt := none
  reason := ""

namespace Call

/-! ## What the outcomes write -/

/-- The document `failDispatch` writes: another attempt, or a failed call. -/
def dispatchFailed (call : Call) (cause : Err) (now : Time) : Call :=
  if call.attempt < call.maxAttempts then
    { call with
      updatedAt := now
      leaseUntil := none
      failure := mergeFailure call.failure "dispatch" cause.text
      status := .pending
      scheduledAt := now + call.attempt * (5 * minute) }
  else
    { call with
      updatedAt := now
      leaseUntil := none
      failure := mergeFailure call.failure "dispatch" cause.text
      status := .failed
      endedAt := some now }

/-- The document `deferDispatch` writes: eligibility checks are not dial attempts. -/
def deferred (call : Call) (scheduledAt now : Time) : Call :=
  { call with
    status := .pending
    scheduledAt := scheduledAt
    leaseUntil := none
    updatedAt := now
    attempt := if 0 < call.attempt then call.attempt - 1 else call.attempt }

/-- The document `cancelUndispatchedCall` writes. -/
def cancelled (call : Call) (reason : String) (now : Time) : Call :=
  { call with
    status := .cancelled
    leaseUntil := none
    endedAt := some now
    updatedAt := now
    failure := mergeFailure call.failure "campaign_gate" reason }

/-- The trace `dispatchCall` writes: an empty one is opened at the current node. -/
def openedTrace (call : Call) (now : Time) : List AgentTrace :=
  if call.agentTrace = [] then
    match call.graphSnapshot.graphAgentID call.currentNodeKey with
    | .ok agentID => [.enter call.currentNodeKey agentID now]
    | .error _ => []
  else call.agentTrace

/-- The document `dispatchCall` writes once the telephony has accepted the call. -/
def ringing (call : Call) (room : String) (now : Time) : Call :=
  { call with
    status := .ringing
    startedAt := some now
    updatedAt := now
    leaseUntil := none
    liveKit := some (setKey "room_name" room (call.liveKit.getD []))
    agentTrace := call.openedTrace now }

end Call

/-! ## The programs -/

def failDispatch (call : Call) (cause : Err) : Service (Option Err) := do
  let now ← Store.now
  let _ ← Store.saveCall (call.dispatchFailed cause now)
  return some cause

/-- The Go function answers `ErrNotFound` so that a batch stops after it. -/
def deferDispatch (call : Call) (scheduledAt : Time) : Service (Option Err) := do
  let now ← Store.now
  match ← Store.saveCall (call.deferred scheduledAt now) with
  | .error e => return some e
  | .ok () => return some .notFound

def cancelUndispatchedCall (call : Call) (reason : String) : Service (Option Err) := do
  let now ← Store.now
  match ← Store.saveCall (call.cancelled reason now) with
  | .error e => return some e
  | .ok () =>
    let _ ← Store.incrementCampaignCount call.campaignID "cancelled" 1
    return some .notFound

def dispatchCall (call : Call) (swarm : AgentSwarm) : Service (Option Err) := do
  match ← dispatchOutbound call swarm with
  | .error e => failDispatch call e
  | .ok room =>
    let now ← Store.now
    match ← Store.saveCall (call.ringing room now) with
    | .error e => return some e
    | .ok () =>
      let _ ← Store.incrementCampaignCount call.campaignID "dispatched" 1
      return none

/-- `DispatchOne` past the campaign gates. -/
def dispatchCleared (call : Call) : Service (Option Err) := do
  match ← Store.getSwarm call.swarmID with
  | .error e => failDispatch call e
  | .ok swarm => dispatchCall call swarm

/-- The gates of `DispatchOne` for a call of a running campaign. -/
def dispatchRunning {Request : Type} (platform : Platform Request) (call : Call)
    (campaign : Campaign) (now : Time) : Service (Option Err) :=
  if ¬ withinCallingWindow platform campaign.callingWindow now then
    deferDispatch call (nextCallingWindow platform campaign.callingWindow now)
  else do
    match ← Store.countActiveCampaignCalls campaign.id call.id with
    | .error e => failDispatch call e
    | .ok active =>
      if campaign.maxConcurrency ≤ active then deferDispatch call (now + 30 * second)
      else dispatchCleared call

def dispatchOne {Request : Type} (platform : Platform Request) : Service (Option Err) := do
  let now ← Store.now
  match ← Store.claimPendingCall now (90 * second) with
  | .error e => return some e
  | .ok call =>
    if call.campaignID = "" then dispatchCleared call
    else
      match ← Store.getCampaign call.campaignID with
      | .error e => failDispatch call e
      | .ok campaign =>
        if campaign.status = "completed" ∨ campaign.status = "cancelled" then
          cancelUndispatchedCall call ("campaign is " ++ campaign.status)
        else if campaign.status = "running" then dispatchRunning platform call campaign now
        else deferDispatch call (now + minute)

/-! ## Batches -/

/-- The limit `DispatchBatch` works with. -/
def batchLimit (limit : Int) : ℕ := if limit < 1 then 1 else if 10 < limit then 10 else limit.toNat

/-- The loop of `DispatchBatch` with room for so many more calls. -/
def dispatchMore {Request : Type} (platform : Platform Request) :
    ℕ → ℕ → Service (ℕ × Option Err)
  | 0, dispatched => pure (dispatched, none)
  | room + 1, dispatched => do
    match ← dispatchOne platform with
    | some e => if e.isNotFound then return (dispatched, none) else return (dispatched, some e)
    | none => dispatchMore platform room (dispatched + 1)

/-- `DispatchBatch`: the calls it handled and its error. -/
def dispatchBatch {Request : Type} (platform : Platform Request) (limit : Int) :
    Service (ℕ × Option Err) :=
  dispatchMore platform (batchLimit limit) 0

end Stylme
