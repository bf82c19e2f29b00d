-- SUMMARY: The reservations of AI runs on drafts and of appearance analyses as programs over their store, with the effect of each command.
import Stylme.Lib.Pool
import Stylme.Backend.Store

/-!
# Reservations

The browser calls the AI providers itself. Before a call it reserves a run under the hash of the
input, so that nobody pays twice for one answer; afterwards it completes or fails the run.
`ai_processing_service.py` does this for product drafts, `profile_service.py` for the appearance
of a shopper. A unique index keeps one run for each owner, input and contract version.
-/

namespace Stylme

open Conc Backend

namespace Reservations

/-! ## Runs -/

/-- Which of the collections `ai_processing_runs` and `user_appearance_runs` a run is in. -/
inductive Purpose where
  | listing
  | appearance
  deriving DecidableEq

/-- What only runs of one purpose hold. -/
inductive Source where
  | listing (actor : ObjectId) (kind : String)
  | appearance (imageHashes : List String)

/-- `document`, as a reservation inserts it. -/
structure Reservation where
  /-- `draft_id` or `user_id` -/
  owner : ObjectId
  source : Source
  inputHash : String
  contractVersion : ℕ
  metadataSchemaVersion : ℕ
  allowedFiltersHash : String
  /-- `reservation_expires_at`, for a draft -/
  expiresAt : Option Time
  createdAt : Time

/-- The key of the unique index. -/
structure Key where
  owner : ObjectId
  inputHash : String
  contractVersion : ℕ
  deriving DecidableEq

def Reservation.key (reservation : Reservation) : Key :=
  ⟨reservation.owner, reservation.inputHash, reservation.contractVersion⟩

structure RunError where
  code : String
  message : String
  deriving DecidableEq

/-- What a request completes a run with. -/
structure Completion where
  provider : String
  model : String
  proposal : Document
  confidence : ℚ
  warnings : List String

/-- What a request fails a run with. -/
structure Failure where
  provider : Option String
  model : Option String
  error : RunError

/-- `status`, with what is set together with it. -/
inductive RunState where
  | reserved
  | completed (completion : Completion) (completedAt : Time)
  | failed (failure : Failure) (completedAt : Time)

namespace RunState

def status : RunState → String
  | reserved => "reserved"
  | completed _ _ => "completed"
  | failed _ _ => "failed"

def final : RunState → Bool
  | reserved => false
  | _ => true

def completedAt : RunState → Option Time
  | reserved => none
  | completed _ time | failed _ time => some time

/-- What `complete_run` writes for a reservation that has expired. -/
def expired (now : Time) : RunState :=
  .failed ⟨none, none, ⟨"reservation_expired", "Reservation expired"⟩⟩ now

end RunState

/-- A document of `ai_processing_runs` or `user_appearance_runs`. -/
structure Run extends Reservation where
  id : ObjectId
  state : RunState
  updatedAt : Time

abbrev Runs := Collection Run Run.id (·.key)

/-- The document that an insertion stores. -/
def Reservation.run (reservation : Reservation) (id : ObjectId) : Run :=
  { reservation with id, state := .reserved, updatedAt := reservation.createdAt }

/-- `run_public`, `appearance_run_public` -/
structure RunPublic where
  runID : ObjectId
  reservation : Reservation
  status : String
  shouldProcess : Bool
  completedAt : Option Time
  result : Option Completion
  error : Option RunError

def runPublic (run : Run) (shouldProcess : Bool) (includeResult : Bool) : RunPublic where
  runID := run.id
  reservation := run.toReservation
  status := run.state.status
  shouldProcess := shouldProcess
  completedAt := run.state.completedAt
  result :=
    match run.state with
    | .completed completion _ => if includeResult then some completion else none
    | _ => none
  error :=
    match run.state with
    | .failed failure _ => some failure.error
    | _ => none

def appearanceRunPublic (run : Run) (shouldProcess : Bool) : RunPublic := runPublic run shouldProcess true

/-! ## Drafts and users -/

/-- `ai_proposal` -/
structure DraftProposal where
  runID : ObjectId
  inputHash : String
  proposal : Document
  confidence : ℚ
  generatedAt : Time

/-- A document of `product_drafts`. -/
structure Draft where
  id : ObjectId
  status : String
  aiProposal : Option DraftProposal

/-- The drafts that AI processing is open for. -/
def Draft.isOpen (draft : Draft) : Bool := draft.status ∈ ["draft", "rejected"]

/-- `appearance_profile` -/
structure AppearanceProfile where
  proposal : Document
  runID : ObjectId
  inputHash : String
  imageHashes : List String
  confidence : ℚ
  reviewRequired : Bool
  updatedAt : Time

/-- A document of `users`. -/
structure User where
  id : ObjectId
  appearanceProfile : Option AppearanceProfile

/-- `taxonomy_contract` -/
structure Contract where
  schemaVersion : ℕ
  allowedHash : String

/-- An entry of `audit_logs`, without its actor and its time. -/
structure Audit where
  action : String
  entityType : String
  entityID : ObjectId

structure World where
  clock : Time
  runs : Purpose → Runs
  drafts : Collection Draft Draft.id Draft.id
  users : Collection User User.id User.id
  contract : Contract
  audits : List Audit
  /-- The identifiers that the driver has made for documents. -/
  issued : List ObjectId

/-! ## Commands -/

/-- The settings and functions of Python that the operations use. -/
structure Library where
  idText : ObjectId → String
  /-- `ObjectId(value)`, where it is valid -/
  parseID : String → Option ObjectId
  contractVersion : ℕ := 1
  reservationLifetime : Duration := 300 * second

/-- What `insert_one` does to the document: it has an identifier afterwards, also if the index refuses it. -/
structure Insertion where
  id : ObjectId
  inserted : Bool

inductive Cmd where
  | now
  | findDraft (id : ObjectId)
  /-- The reads and checks of `assert_draft_access` after the draft is found -/
  | checkAccess
  | taxonomyContract
  | insertRun (purpose : Purpose) (reservation : Reservation)
  | findRunByKey (purpose : Purpose) (key : Key)
  /-- The run with this identifier, of this owner if there is one -/
  | findRun (purpose : Purpose) (id : ObjectId) (owner : Option ObjectId)
  /-- Set the state of a run that is reserved. -/
  | finishRun (purpose : Purpose) (id : ObjectId) (owner : Option ObjectId) (state : RunState) (now : Time)
  /-- The update of `reserve_appearance` for a run in this state: `$set` of the document, and `$unset`. -/
  | retryRun (id : ObjectId) (status : String) (document : Run)
  /-- The reads and checks of a proposal; the answer is the clean proposal. -/
  | validateProposal (purpose : Purpose) (proposal : Document)
  | setProposal (draftID : ObjectId) (proposal : DraftProposal)
  | setAppearanceProfile (userID : ObjectId) (profile : AppearanceProfile)
  | insertAudit (entry : Audit)

@[reducible] def Answer : Cmd → Type
  | .now => Time
  | .findDraft _ => Option Draft
  | .checkAccess | .setProposal _ _ | .setAppearanceProfile _ _ | .insertAudit _ => Unit
  | .taxonomyContract => Contract
  | .insertRun _ _ => Insertion
  | .findRunByKey _ _ | .findRun _ _ _ | .finishRun _ _ _ _ _ | .retryRun _ _ _ => Option Run
  | .validateProposal _ _ => Document

abbrev Resp := Raising PyErr Answer

abbrev Py := Raise Cmd Answer PyErr

/-! ## Runs on drafts -/

/-- `AIReserveRequest`, and the part of `AppearanceReserveRequest` that it shares -/
structure ReserveRequest where
  inputHash : String
  contractVersion : ℕ
  metadataSchemaVersion : ℕ
  allowedFiltersHash : String

/-- The checks of a request's contract, with the contract version that it has to have. -/
def checkContract (request : ReserveRequest) (version : ℕ) (contract : Contract) (label : String) : Py Unit :=
  if request.contractVersion ≠ version then throw (.httpException 409 (label ++ " contract version is stale"))
  else if request.metadataSchemaVersion ≠ contract.schemaVersion then
    throw (.httpException 409 "Metadata schema version is stale")
  else if request.allowedFiltersHash ≠ contract.allowedHash then
    throw (.httpException 409 "Allowed filters hash is stale")
  else pure ()

/-- The document of a request. -/
def ReserveRequest.reservation (request : ReserveRequest) (owner : ObjectId) (source : Source)
    (expiresAt : Option Time) (now : Time) : Reservation where
  owner := owner
  source := source
  inputHash := request.inputHash
  contractVersion := request.contractVersion
  metadataSchemaVersion := request.metadataSchemaVersion
  allowedFiltersHash := request.allowedFiltersHash
  expiresAt := expiresAt
  createdAt := now

variable (lib : Library)

def writeAudit (action entityType : String) (entityID : ObjectId) : Py Unit :=
  Raise.ask (Cmd.insertAudit ⟨action, entityType, entityID⟩)

/-- `assert_draft_access` -/
def assertDraftAccess (draftID : String) : Py Draft :=
  match lib.parseID draftID with
  | none => throw (.httpException 422 "Invalid draft id")
  | some id => do
    match ← Raise.ask (Cmd.findDraft id) with
    | none => throw (.httpException 404 "Product draft not found")
    | some draft =>
      Raise.ask Cmd.checkAccess
      return draft

/-- Assign a key of a document that a query has answered with `None`. -/
def assignToNone {α : Type} : Py α :=
  throw (.exception "TypeError" "'NoneType' object does not support item assignment")

def reserveRun (draftID : String) (request : ReserveRequest) (kind : String) (actor : ObjectId) :
    Py RunPublic := do
  let draft ← assertDraftAccess lib draftID
  if ¬ draft.isOpen then throw (.httpException 409 "AI processing is closed for this draft")
  else
    let contract ← Raise.ask Cmd.taxonomyContract
    checkContract request lib.contractVersion contract "AI"
    let now ← Raise.ask Cmd.now
    let document := request.reservation draft.id (.listing actor kind) (some (now + lib.reservationLifetime)) now
    let insertion ← Raise.ask (Cmd.insertRun .listing document)
    if insertion.inserted then
      writeAudit "ai_processing_reserved" "ai_processing_run" insertion.id
      return runPublic (document.run insertion.id) true false
    else
      match ← Raise.ask (Cmd.findRunByKey .listing document.key) with
      | none => assignToNone
      | some existing => return runPublic existing false true

def completeRun (runID : ObjectId) (completion : Completion) : Py RunPublic := do
  match ← Raise.ask (Cmd.findRun .listing runID none) with
  | none => throw (.httpException 404 "AI processing run not found")
  | some run =>
    let _ ← assertDraftAccess lib (lib.idText run.owner)
    if run.state.final then throw (.httpException 409 "AI processing run is already final")
    else
      let now ← Raise.ask Cmd.now
      if run.expiresAt.any (· < now) then
        let _ ← Raise.ask (Cmd.finishRun .listing runID none (.expired now) now)
        throw (.httpException 409 "AI processing reservation expired")
      else
        let proposal ← Raise.ask (Cmd.validateProposal .listing completion.proposal)
        match ← Raise.ask (Cmd.finishRun .listing runID none (.completed { completion with proposal } now) now) with
        | none => throw (.httpException 409 "AI processing run is already final")
        | some updated =>
          Raise.ask (Cmd.setProposal run.owner ⟨runID, run.inputHash, proposal, completion.confidence, now⟩)
          writeAudit "ai_processing_completed" "ai_processing_run" runID
          return runPublic updated false true

def failRun (runID : ObjectId) (failure : Failure) : Py RunPublic := do
  match ← Raise.ask (Cmd.findRun .listing runID none) with
  | none => throw (.httpException 404 "AI processing run not found")
  | some run =>
    let _ ← assertDraftAccess lib (lib.idText run.owner)
    if run.state.final then throw (.httpException 409 "AI processing run is already final")
    else
      let now ← Raise.ask Cmd.now
      match ← Raise.ask (Cmd.finishRun .listing runID none (.failed failure now) now) with
      | none => throw (.httpException 409 "AI processing run is already final")
      | some updated =>
        writeAudit "ai_processing_failed" "ai_processing_run" runID
        return runPublic updated false true

/-! ## Appearance analyses -/

/-- `retryable` -/
def Run.retryable (run : Run) (now : Time) : Bool :=
  match run.state with
  | .failed _ _ => true
  | .reserved => run.updatedAt < now - 5 * minute
  | .completed _ _ => false

def reserveAppearance (userID : ObjectId) (request : ReserveRequest) (imageHashes : List String) :
    Py RunPublic := do
  let contract ← Raise.ask Cmd.taxonomyContract
  checkContract request 2 contract "Appearance"
  let now ← Raise.ask Cmd.now
  let document := request.reservation userID (.appearance imageHashes) none now
  let insertion ← Raise.ask (Cmd.insertRun .appearance document)
  if insertion.inserted then return appearanceRunPublic (document.run insertion.id) true
  else
    match ← Raise.ask (Cmd.findRunByKey .appearance document.key) with
    | none => throw (.httpException 409 "Appearance run could not be reserved")
    | some existing =>
      if existing.retryable now then
        -- the document has the identifier that the refused insertion has given it
        match ← Raise.ask (Cmd.retryRun existing.id existing.state.status (document.run insertion.id)) with
        | none => assignToNone
        | some updated => return appearanceRunPublic updated true
      else return appearanceRunPublic existing false

/-- The image hashes of a run. -/
def Run.imageHashes (run : Run) : List String :=
  match run.source with
  | .appearance imageHashes => imageHashes
  | .listing _ _ => []

def completeAppearance (userID runID : ObjectId) (completion : Completion) : Py RunPublic := do
  match ← Raise.ask (Cmd.findRun .appearance runID (some userID)) with
  | none => throw (.httpException 404 "Appearance run not found")
  | some run =>
    if run.state.final then throw (.httpException 409 "Appearance run is already final")
    else
      let proposal ← Raise.ask (Cmd.validateProposal .appearance completion.proposal)
      let now ← Raise.ask Cmd.now
      match ← Raise.ask
        (Cmd.finishRun .appearance runID (some userID) (.completed { completion with proposal } now) now) with
      | none => throw (.httpException 409 "Appearance run is already final")
      | some updated =>
        Raise.ask (Cmd.setAppearanceProfile userID
          ⟨proposal, runID, run.inputHash, run.imageHashes, completion.confidence, true, now⟩)
        writeAudit "appearance_profile_proposed" "user" userID
        return appearanceRunPublic updated false

def failAppearance (userID runID : ObjectId) (failure : Failure) : Py RunPublic := do
  let now ← Raise.ask Cmd.now
  match ← Raise.ask (Cmd.finishRun .appearance runID (some userID) (.failed failure now) now) with
  | none => throw (.httpException 409 "Appearance run is missing or already final")
  | some updated => return appearanceRunPublic updated false

/-! ## Operations -/

inductive Op where
  | reserveRun (draftID : String) (request : ReserveRequest) (kind : String) (actor : ObjectId)
  | completeRun (runID : ObjectId) (completion : Completion)
  | failRun (runID : ObjectId) (failure : Failure)
  | reserveAppearance (userID : ObjectId) (request : ReserveRequest) (imageHashes : List String)
  | completeAppearance (userID runID : ObjectId) (completion : Completion)
  | failAppearance (userID runID : ObjectId) (failure : Failure)

/-- What a request answers. -/
abbrev Reply := Except PyErr RunPublic

def Op.prog : Op → Prog Cmd Resp Reply
  | .reserveRun draftID request kind actor => Reservations.reserveRun lib draftID request kind actor
  | .completeRun runID completion => Reservations.completeRun lib runID completion
  | .failRun runID failure => Reservations.failRun lib runID failure
  | .reserveAppearance userID request imageHashes => Reservations.reserveAppearance userID request imageHashes
  | .completeAppearance userID runID completion => Reservations.completeAppearance userID runID completion
  | .failAppearance userID runID failure => Reservations.failAppearance userID runID failure

/-- Where the runs of a request are stored. -/
def Op.purpose : Op → Purpose
  | .reserveRun _ _ _ _ | .completeRun _ _ | .failRun _ _ => .listing
  | .reserveAppearance _ _ _ | .completeAppearance _ _ _ | .failAppearance _ _ _ => .appearance

/-- The run that a request finishes. -/
def Op.runID : Op → Option ObjectId
  | .completeRun runID _ | .failRun runID _ | .completeAppearance _ runID _ | .failAppearance _ runID _ => some runID
  | .reserveRun _ _ _ _ | .reserveAppearance _ _ _ => none

/-! ## Effects -/

/-- How a request goes wrong, the identifier of a new document, and the answers of checks. -/
structure Oracle where
  fault : Option Mishap := none
  objectID : ObjectId := 0
  /-- The exception of a check -/
  invalid : Option (ℕ × String) := none
  /-- The clean proposal -/
  proposal : Document := []

/-- The answer to a check. -/
def Oracle.checked {α : Type} (o : Oracle) (a : α) : Except PyErr α :=
  match o.invalid with
  | some (statusCode, detail) => .error (.httpException statusCode detail)
  | none => .ok a

namespace World

variable (w : World)

def setRuns (purpose : Purpose) (runs : Runs) : World :=
  { w with runs := Function.update w.runs purpose runs }

/-- The identifier is on no document. -/
def fresh (id : ObjectId) : Bool :=
  id ∉ w.issued ∧ ¬ (w.runs .listing).docs.any (·.id = id) ∧ ¬ (w.runs .appearance).docs.any (·.id = id)

/-- The reserved run with this identifier, of this owner if there is one. -/
def reserved? (purpose : Purpose) (id : ObjectId) (owner : Option ObjectId) : Option Run :=
  ((w.runs purpose).get id).filter fun run => ¬ run.state.final ∧ owner.all (· = run.owner)

end World

/-- The update of `finishRun` -/
def Run.finish (state : RunState) (now : Time) (run : Run) : Run := { run with state, updatedAt := now }

def Run.finishWith (id : ObjectId) (state : RunState) (now : Time) (run : Run) : Run :=
  if run.id = id then run.finish state now else run

def Draft.propose (draftID : ObjectId) (proposal : DraftProposal) (draft : Draft) : Draft :=
  if draft.id = draftID ∧ draft.isOpen then { draft with aiProposal := some proposal } else draft

def User.present (userID : ObjectId) (profile : AppearanceProfile) (user : User) : User :=
  if user.id = userID then { user with appearanceProfile := some profile } else user

@[simp] theorem Run.finishWith_id {id : ObjectId} {state : RunState} {now : Time} {run : Run} :
    (run.finishWith id state now).id = run.id := by
  unfold finishWith
  split <;> rfl

@[simp] theorem Run.finishWith_toReservation {id : ObjectId} {state : RunState} {now : Time} {run : Run} :
    (run.finishWith id state now).toReservation = run.toReservation := by
  unfold finishWith
  split <;> rfl

@[simp] theorem Draft.propose_id {draftID : ObjectId} {proposal : DraftProposal} {draft : Draft} :
    (draft.propose draftID proposal).id = draft.id := by
  unfold propose
  split <;> rfl

@[simp] theorem User.present_id {userID : ObjectId} {profile : AppearanceProfile} {user : User} :
    (user.present userID profile).id = user.id := by
  unfold present
  split <;> rfl

/-- The server refuses an update that sets the identifier to another value. -/
def immutableID : PyErr :=
  .exception "WriteError" "Performing an update on the path '_id' would modify the immutable field '_id'"

def Cmd.exec : (cmd : Cmd) → Oracle → World → Option (Resp cmd × World)
  | .now, _, w => some (.ok w.clock, w)
  | .findDraft id, o, w => respond o.fault (.ok (w.drafts.get id)) w
  | .checkAccess, o, w => respond o.fault (o.checked ()) w
  | .taxonomyContract, o, w => respond o.fault (.ok w.contract) w
  | .insertRun purpose reservation, o, w =>
    if ¬ w.fresh o.objectID then none
    else
      let w := { w with issued := o.objectID :: w.issued }
      match (w.runs purpose).insertOne (reservation.run o.objectID) with
      | some runs => perform o.fault (.ok ⟨o.objectID, true⟩) w (w.setRuns purpose runs)
      | none => respond o.fault (.ok ⟨o.objectID, false⟩) w
  | .findRunByKey purpose key, o, w => respond o.fault (.ok ((w.runs purpose).find? (·.key = key))) w
  | .findRun purpose id owner, o, w =>
    respond o.fault (.ok (((w.runs purpose).get id).filter fun run => owner.all (· = run.owner))) w
  | .finishRun purpose id owner state time, o, w =>
    match w.reserved? purpose id owner with
    | none => respond o.fault (.ok none) w
    | some run =>
      perform o.fault (.ok (some (run.finish state time))) w
        (w.setRuns purpose ((w.runs purpose).updateAll (Run.finishWith id state time) (fun _ => Run.finishWith_id)
          fun _ => congrArg Reservation.key Run.finishWith_toReservation))
  | .retryRun id status document, o, w =>
    match ((w.runs .appearance).get id).filter (·.state.status = status) with
    | none => respond o.fault (.ok none) w
    | some run =>
      if document.id ≠ run.id then respond o.fault (.error immutableID) w
      else
        match (w.runs .appearance).replaceOne document with
        | some runs => perform o.fault (.ok (some document)) w (w.setRuns .appearance runs)
        | none => respond o.fault (.error .duplicateKey) w
  | .validateProposal _ _, o, w => respond o.fault (o.checked o.proposal) w
  | .setProposal draftID proposal, o, w =>
    perform o.fault (.ok ()) w { w with
      drafts := w.drafts.updateAll (Draft.propose draftID proposal) (fun _ => Draft.propose_id)
        (fun _ => Draft.propose_id) }
  | .setAppearanceProfile userID profile, o, w =>
    perform o.fault (.ok ()) w { w with
      users := w.users.updateAll (User.present userID profile) (fun _ => User.present_id)
        (fun _ => User.present_id) }
  | .insertAudit entry, o, w => perform o.fault (.ok ()) w { w with audits := entry :: w.audits }

/-- What happens outside these requests: time passes, drafts are created, edited, submitted and reviewed,
the taxonomy changes, and shoppers accept or delete their appearance profile. -/
inductive Move where
  | tick (passed : ℕ)
  | createDraft (id : ObjectId)
  | setDraftStatus (id : ObjectId) (status : String)
  | setContract (contract : Contract)
  | acceptProfile (userID : ObjectId)
  | deleteProfile (userID : ObjectId)

/-- Rewrite the appearance profile of one user. -/
def World.mapProfile (w : World) (userID : ObjectId) (f : AppearanceProfile → Option AppearanceProfile) : World :=
  { w with
    users := w.users.updateAll
      (fun user => if user.id = userID then { user with appearanceProfile := user.appearanceProfile.bind f } else user)
      (fun user => by split <;> rfl) (fun user => by split <;> rfl) }

def World.move (w : World) : Move → World
  | .tick passed => { w with clock := w.clock + passed }
  | .createDraft id => { w with drafts := (w.drafts.insertOne ⟨id, "draft", none⟩).getD w.drafts }
  | .setDraftStatus id status => { w with
      drafts := w.drafts.updateAll (fun draft => if draft.id = id then { draft with status } else draft)
        (fun draft => by split <;> rfl) (fun draft => by split <;> rfl) }
  | .setContract contract => { w with contract }
  | .acceptProfile userID => w.mapProfile userID fun profile => some { profile with reviewRequired := false }
  | .deleteProfile userID => w.mapProfile userID fun _ => none

/-- Any number of requests on one store. -/
def service : System Op Cmd Resp Reply World Oracle Move where
  prog := Op.prog lib
  exec := Cmd.exec
  env move w := w.move move

abbrev State := Pool Op Cmd Resp Reply World

abbrev Step := Label Op Oracle Move

end Reservations

end Stylme
