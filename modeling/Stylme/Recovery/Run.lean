-- SUMMARY: A recovery run: lookup, scheduling and activity of the abandoned checkouts, between taking its lock and giving it back.
import Stylme.Lib.Coroutine
import Stylme.Recovery.Provider

/-!
# Recovery runs

`execute_recovery` takes a lock, inserts its run document, and works in a
protected region. Its summary is a local variable: the handlers write what the
region had put into it before the exception. Only `SamoraError` and
`HTTPException` are handled; the finalizer closes the client and gives the lock
back.
-/

namespace Stylme

open Conc Backend

namespace Recovery

variable (lib : Library)

/-- The local variables that handlers and finalizer see. -/
structure Locals where
  summary : Summary
  client : Option Client := none

abbrev Body (α : Type) := Coroutine Cmd Answer PyErr Locals α

/-- Assign to the summary. -/
def assign (f : Summary → Summary) : Body Unit :=
  Coroutine.assign fun l => { l with summary := f l.summary }

/-- Call a plain function. -/
def call {α : Type} (r : Except Raised α) : Body α := Coroutine.await (plain r)

def batchSize : ℕ := 500

section Loops

variable {α β : Type}

/-- `for x in xs` -/
def forEach (f : α → Body Unit) : List α → Body Unit
  | [] => pure ()
  | x :: xs => do
    f x
    forEach f xs

/-- A loop that extends a list by what each round yields. -/
def extendEach (f : α → Body (List β)) : List α → Body (List β)
  | [] => pure []
  | x :: xs => do
    let ys ← f x
    let rest ← extendEach f xs
    return ys ++ rest

/-- Build an item for each element, and collect the texts of the `ValueError`s. -/
def attempt (f : α → Except String β) : List α → List (α × β) × List (α × String)
  | [] => ([], [])
  | x :: xs =>
    let (built, refused) := attempt f xs
    match f x with
    | .ok y => ((x, y) :: built, refused)
    | .error code => (built, (x, code) :: refused)

end Loops

/-! ## Lookup -/

def LookupCounts.add (a b : LookupCounts) : LookupCounts where
  submitted := a.submitted + b.submitted
  eligible := a.eligible + b.eligible
  skippedCompleted := a.skippedCompleted + b.skippedCompleted
  skippedStale := a.skippedStale + b.skippedStale
  skippedActiveCall := a.skippedActiveCall + b.skippedActiveCall
  errors := a.errors + b.errors

/-- `str` of an optional text -/
def optionText (s : Option String) : String := s.getD "None"

/-- A member of a decoded response, or a default for an absent or empty one. -/
def member (response : List (String × Value)) (key : String) (default : Value) : Value :=
  ((response.lookup key).getD .none).orElse default

/-- A round of the loop that looks the rows up. -/
def lookupBatch (config : Config) (client : Client) (batch : List Row) : Body (List Row) := do
  let response ← Coroutine.await (lookup lib client (.dict
    [("platform", .str config.samora.platform), ("agent_id", .str (optionText config.samora.agentID)),
      ("keys", .list (batch.map fun row => .dict [("external_id", .str row.source.externalID),
        ("contact_phone", .str row.contactPhone)]))]))
  let (eligible, counts, errors) ← call (lookupEligible lib batch (member response "results" (.list [])))
  assign fun s => { s with lookup := s.lookup.add counts, errors := s.errors ++ errors }
  return eligible

/-! ## Scheduling -/

/-- A row for which a call has been scheduled. -/
structure Scheduled where
  row : Row
  callID : String
  status : String

/-- What the loop over the results of a batch assigns to. -/
structure Handling where
  counts : ScheduleCounts
  errors : List RunError
  handledIndexes : List ℤ := []
  scheduled : List Scheduled := []

def Handling.fail (h : Handling) (error : RunError) : Handling :=
  { h with counts := { h.counts with failed := h.counts.failed + 1 }, errors := h.errors ++ [error] }

/-- A round of the loop over the results of a batch. -/
def handleResult (preparedRows : List Row) (h : Handling) (result : Value) :
    Except Raised Handling := do
  let index ← result.get "index"
  let target := index.toInt?.bind fun i =>
    if 0 ≤ i ∧ i ∉ h.handledIndexes then preparedRows[i.toNat]?.map (i, ·) else none
  match target with
  | none => return h.fail ⟨none, "schedule", "invalid_result_index", false⟩
  | some (i, row) =>
    let h := { h with handledIndexes := i :: h.handledIndexes }
    let status := ((← result.get "status").orElse (.str "")).toStr lib.repr
    let callID := ((← result.get "call_id").orElse (.str "")).toStr lib.repr
    if status = "scheduled" ∧ callID ≠ "" then
      return { h with
        counts := { h.counts with scheduled := h.counts.scheduled + 1 }
        scheduled := h.scheduled ++ [⟨row, callID, status⟩] }
    else if status = "already_scheduled" ∧ callID ≠ "" then
      return { h with
        counts := { h.counts with alreadyScheduled := h.counts.alreadyScheduled + 1 }
        scheduled := h.scheduled ++ [⟨row, callID, status⟩] }
    else if "skipped".toList <+: status.toList then
      return { h with
        counts := { h.counts with skipped := h.counts.skipped + 1 }
        errors := h.errors ++ [⟨some row.source.externalID, "schedule", clip 120 status, false⟩] }
    else
      let code := if status = "" then "schedule_failed" else clip 120 status
      return h.fail ⟨some row.source.externalID, "schedule", code, false⟩

/-- The errors of the prepared rows without a result. -/
def missingResults (preparedRows : List Row) (handledIndexes : List ℤ) : List RunError :=
  preparedRows.zipIdx.filterMap fun (row, index) =>
    if (index : ℤ) ∈ handledIndexes then none
    else some ⟨some row.source.externalID, "schedule", "missing_result", true⟩

/-- `(response.get("data") or {}).get("results") or []`, to iterate over. -/
def scheduleResults (response : List (String × Value)) : Except Raised (List Value) := do
  let results ← (member response "data" (.dict [])).get "results"
  (results.orElse (.list [])).iter

/-- A round of the loop that schedules calls. -/
def scheduleBatch (config : Config) (client : Client) (batch : List Row) : Body (List Scheduled) := do
  let (prepared, refused) := attempt (scheduleItem lib · config) batch
  assign fun s => { s with
    schedule := { s.schedule with skipped := s.schedule.skipped + refused.length }
    errors := s.errors ++ refused.map fun (row, code) =>
      ⟨some row.source.externalID, "schedule", code, false⟩ }
  if prepared.isEmpty then return []
  assign fun s => { s with
    schedule := { s.schedule with submitted := s.schedule.submitted + prepared.length } }
  let statuses := config.samora.allowedCampaignStatuses
  let response ← Coroutine.await (schedule lib client (.dict
    [("platform", .str config.samora.platform),
      ("external_workflow_id", .str config.samora.externalWorkflowID),
      ("campaign_id", .str (optionText config.samora.campaignID)),
      ("allowed_campaign_statuses",
        .ofStrings (if statuses ≠ [] then statuses else ["DRAFT", "IN_PROGRESS"])),
      ("items", .list (prepared.map (·.2)))]))
  let results ← call (scheduleResults response)
  let l ← Coroutine.locals
  let preparedRows := prepared.map (·.1)
  let h ← call (results.foldlM (handleResult lib preparedRows) ⟨l.summary.schedule, l.summary.errors, [], []⟩)
  let missing := missingResults preparedRows h.handledIndexes
  assign fun s => { s with
    schedule := { h.counts with failed := h.counts.failed + missing.length }
    errors := h.errors ++ missing }
  return h.scheduled

/-! ## Activity -/

/-- `indexed_results`, in the order of the results. -/
def indexResults : List Value → Except Raised (List (ℤ × Value))
  | [] => .ok []
  | result :: results => do
    let index ← result.get "index"
    let indexed ← indexResults results
    return match index.toInt? with
      | some i => (i, result) :: indexed
      | none => indexed

/-- The result for the entry at `index`; of several with this index the last. -/
def activityResult (results : Value) (indexed : List (ℤ × Value)) (index : ℕ) : Except Raised Value := do
  let missing : Value := .dict [("ok", .bool false), ("error", .dict [("code", .str "missing_result")])]
  match indexed.reverse.lookup (index : ℤ) with
  | some result => return result
  | none =>
    if index < (← results.len) then
      let result ← results.item index
      return if ← result.contains "index" then missing else result
    else return missing

/-- The code of a result that is not `ok`. -/
def activityError (result : Value) : Except Raised String := do
  let error := (← result.get "error").orElse (.dict [])
  return clip 120 (((← error.get "code").orElse (.str "bulk_upsert_failed")).toStr lib.repr)

/-- A round of the loop over the entries of a batch. -/
def recordActivity (results : Value) (indexed : List (ℤ × Value)) (entry : Scheduled) (index : ℕ) :
    Body Unit := do
  let result ← call (activityResult results indexed index)
  let ok ← call (result.get "ok")
  if ok.isTrue then
    assign fun s => { s with
      activityUpsert := { s.activityUpsert with succeeded := s.activityUpsert.succeeded + 1 } }
    let now ← Coroutine.ask Cmd.now
    let mark : CallMark := ⟨entry.callID, entry.status, entry.row.updatedAt, now⟩
    Coroutine.ask (Cmd.markScheduled entry.row.source.checkoutObjectID entry.row.source.externalID mark
      entry.row.updatedAt)
  else
    let code ← call (activityError lib result)
    assign fun s => { s with
      activityUpsert := { s.activityUpsert with failed := s.activityUpsert.failed + 1 }
      errors := s.errors ++ [⟨some entry.row.source.externalID, "activity_upsert", code, true⟩] }

/-- A round of the loop that reports the activity. -/
def activityBatch (config : Config) (secrets : Secrets) (client : Client) (batch : List Scheduled) :
    Body Unit := do
  let (built, refused) := attempt (fun entry => activityItem lib entry.row entry.callID config secrets) batch
  assign fun s => { s with
    activityUpsert := { s.activityUpsert with failed := s.activityUpsert.failed + refused.length }
    errors := s.errors ++ refused.map fun (entry, code) =>
      ⟨some entry.row.source.externalID, "activity_upsert", code, false⟩ }
  if built.isEmpty then return ()
  assign fun s => { s with
    activityUpsert := { s.activityUpsert with submitted := s.activityUpsert.submitted + built.length } }
  let response ← Coroutine.await (bulkActivity lib client (.dict [("items", .list (built.map (·.2)))]))
  let results := member response "results" (.list [])
  let indexed ← call (results.iter >>= indexResults)
  forEach (fun x => recordActivity lib results indexed x.1.1 x.2) built.zipIdx

/-! ## The run -/

/-- `_finish_run` -/
def finishRun : Body Summary := do
  let finishedAt ← Coroutine.ask Cmd.now
  assign fun s => { s with finishedAt := some finishedAt }
  let l ← Coroutine.locals
  Coroutine.ask (Cmd.finishRun l.summary finishedAt)
  return l.summary

/-- Finish the run with a status. -/
def finishWith (status : Summary → RunStatus) : Body Summary := do
  assign fun s => { s with status := status s }
  finishRun

/-- `completed`, unless there are errors. -/
def completion (errors : List RunError) : RunStatus :=
  if errors.isEmpty then .completed else .completedWithErrors

/-- The protected region once it has rows. -/
def recoverRows (config : Config) (rows : List Row) : Body Summary := do
  let secrets ← call (runtimeSecrets lib config)
  match secrets.orgAPIKey.filter (· ≠ "") with
  | none => throw (.httpException 503 "Samora API key is not configured")
  | some apiKey =>
    let client : Client := ⟨stripSlash config.samora.baseURL, apiKey⟩
    Coroutine.assign fun l => { l with client := some client }
    let eligible ← extendEach (lookupBatch lib config client) (rows.toChunks batchSize)
    let scheduled ← extendEach (scheduleBatch lib config client) (eligible.toChunks batchSize)
    forEach (activityBatch lib config secrets client) (scheduled.toChunks batchSize)
    finishWith fun s => completion s.errors

/-- The protected region. -/
def recoverCheckouts (config : Config) (startedAt : Time) : Body Summary := do
  if ← call (withinCallingWindow lib startedAt config.calling) then
    let rawDocuments ← Coroutine.ask (Cmd.findCheckouts startedAt config.pageSize)
    let rawRows ← call (sourceRows lib rawDocuments)
    let (rows, sourceErrors, validCount) := validateAndDedupeSource lib rawRows
    assign fun s => { s with
      source := ⟨rawRows.length, validCount, sourceErrors.length, rows.length⟩
      errors := s.errors ++ sourceErrors }
    if rows.isEmpty then finishWith fun _ => completion sourceErrors
    else recoverRows lib config rows
  else finishWith fun _ => .skippedOutsideCallingWindow

/-- The handlers of the protected region. -/
def failRun : PyErr → Body Summary
  | .samora _ code retryable => do
    assign fun s => { s with errors := s.errors ++ [⟨none, "samora", code, retryable⟩] }
    let _ ← finishWith fun _ => .failed
    throw (.httpException 502 ("Samora workflow failed (" ++ code ++ ")"))
  | .httpException statusCode detail => do
    let _ ← finishWith fun _ => .failed
    throw (.httpException statusCode detail)
  | e => throw e

/-- The finalizer of the protected region. -/
def cleanUp (lockKey runID : String) : Body Unit := do
  let l ← Coroutine.locals
  if l.client.isSome then Coroutine.ask Cmd.closeClient
  Coroutine.ask (Cmd.releaseLock lockKey runID)

def acquireLock (lockKey owner : String) (now : Time) : Py Bool :=
  Raise.tryExcept (· = .duplicateKey)
    (do
      let lock ← Raise.ask (Cmd.acquireLock lockKey owner now (now + lib.lockSeconds * second))
      return lock.owner = owner)
    fun _ => return false

/-- `get_config` -/
def getConfig : Py Config := do
  match ← Raise.ask Cmd.findConfig with
  | some config => return config
  | none => Raise.ask Cmd.createConfig

/-- `execute_recovery` once it holds the lock. -/
def executeLocked (config : Config) (requestedBy lockKey runID : String) (startedAt : Time) :
    Py Summary := do
  let summary := emptySummary runID config.id startedAt
  Raise.ask (Cmd.insertRun ⟨summary, requestedBy, optionText config.samora.campaignID,
    config.samora.platform, startedAt, startedAt⟩)
  Coroutine.start { summary }
    (Coroutine.tryFinally PyErr.unwinds
      (Coroutine.tryExcept (recoverCheckouts lib config startedAt) failRun) (cleanUp lockKey runID))

/-- `execute_recovery` -/
def executeRecovery (requestedBy : String) : Py Summary := do
  let config ← getConfig
  if config.enabled then
    let hex ← Raise.ask Cmd.uuid
    let lockKey := "checkout-recovery:" ++ optionText config.samora.campaignID
    let startedAt ← Raise.ask Cmd.now
    if ← acquireLock lib lockKey ("run_" ++ hex) startedAt then
      executeLocked lib config requestedBy lockKey ("run_" ++ hex) startedAt
    else throw (.httpException 409 "A checkout-recovery run is already active")
  else throw (.httpException 409 "Checkout recovery is disabled")

end Recovery

end Stylme
