-- SUMMARY: Retag proposals: staging them for a batch of products, applying them, and deciding them.
import Stylme.Reconciler.Graphs

/-!
# Retag proposals

A run scans the catalogue batch by batch behind a stored cursor and stages
proposals for the products of its batch. Proposals are applied by the run itself
or by an admin, who may also approve or reject them one by one.
-/

namespace Stylme

open Conc Backend

namespace Reconciler

variable (lib : Library)

/-! ## Staging -/

/-- The next products behind the cursor; past the last one, the pass starts again. -/
def nextProducts (cursor : Option ObjectId) (limit : ℕ) : Py (List Product) := do
  let products ← Raise.ask (Cmd.findProducts cursor limit)
  if products = [] ∧ cursor.isSome then Raise.ask (Cmd.findProducts none limit)
  else return products

def advanceCursor (products : List Product) : Py Unit :=
  match products.getLast? with
  | some p => Raise.ask (Cmd.setCursor p.id)
  | none => pure ()

def scanProductBatch (limit : ℕ) : Py (List Product) := do
  let cursor ← Raise.ask Cmd.findCursor
  let products ← nextProducts cursor limit
  advanceCursor products
  return products

/-- `f"{product['_id']}:{field}:{value}"` -/
def proposalKey (productID : ObjectId) (field value : String) : String :=
  lib.idText productID ++ ":" ++ field ++ ":" ++ value

/-- The document staged for a suggested tag. -/
def ProposalDraft.document (draft : ProposalDraft) (productID : ObjectId) (graph : Graph)
    (runID : String) (now : Time) : ProposalDocument where
  proposalKey := proposalKey lib productID draft.field draft.value
  productID := productID
  field := draft.field
  value := draft.value
  confidence := draft.confidence
  autoEligible := draft.autoEligible
  evidence := draft.evidence
  queryHashes := draft.queryHashes
  queryScore := draft.queryScore
  graphVersion := graph.version
  runID := runID
  status := .proposed
  createdAt := now
  updatedAt := now

/-- The documents for a batch of products. -/
def stagedDocuments (graph : Graph) (targets : List (String × Document))
    (fields : List TaxonomyField) (runID : String) (now : Time) :
    List Product → Except Raised (List ProposalDocument)
  | [] => .ok []
  | product :: products =>
    match lib.proposalsForProduct product graph targets fields,
        stagedDocuments graph targets fields runID now products with
    | .ok drafts, .ok documents =>
      .ok (drafts.map (·.document lib product.id graph runID now) ++ documents)
    | .error e, _ => .error e
    | _, .error e => .error e

/-- Store the documents whose keys are not taken. -/
def insertNewProposals (documents : List ProposalDocument) : Py Unit := do
  if documents = [] then pure ()
  else
    let existing ← Raise.ask (Cmd.findProposalKeys (documents.map (·.proposalKey)))
    let new := documents.filter (·.proposalKey ∉ existing)
    if new = [] then pure ()
    else
      Raise.tryExcept PyErr.isBulkWrite (Raise.ask (Cmd.insertProposals new))
        fun
        | .bulkWrite codes => if codes.any (· ≠ 11000) then throw (.bulkWrite codes) else pure ()
        | e => throw e

def stageRetagProposals (graph : Graph) (failures : List Failure) (maxProducts depth : ℕ)
    (runID : String) : Py StageResult := do
  let fields ← Raise.ask Cmd.taxonomySnapshot
  let targets ← liftRaised (lib.targetSignals graph failures depth fields)
  let products ← scanProductBatch maxProducts
  let now ← Raise.ask Cmd.now
  let documents ← liftRaised (stagedDocuments lib graph targets fields runID now products)
  insertNewProposals documents
  return ⟨products.length, targets.length, documents.length⟩

/-! ## Applying -/

/-- `fields.get(field)` -/
def lookupField (fields : List TaxonomyField) (key : String) : Option TaxonomyField :=
  fields.find? (·.key = key)

/-- `int(validation.get("maxSelections") or 3)` -/
def TaxonomyField.limit (field : TaxonomyField) : Int :=
  match field.maxSelections with
  | some n => if n = 0 then 3 else n
  | none => 3

/-- The values of a metadata field: those of a list, or the one value, if it is truthy. -/
def currentValues : Option Json → List Json
  | none | some .null | some (.bool false) | some (.str "") | some (.obj []) => []
  | some (.num n) => if n = 0 then [] else [.num n]
  | some (.arr items) => items
  | some v => [v]

/-- What the loop over the selected proposals has gathered so far. -/
structure RetagPlan where
  /-- `pending_values` -/
  pending : List (ObjectId × List (String × List String))
  /-- `accepted_proposals` -/
  accepted : List (ObjectId × Proposal)
  appliedIDs : List ObjectId
  staleIDs : List ObjectId

namespace RetagPlan

/-- `pending_values[product][field]` -/
def values (plan : RetagPlan) (productID : ObjectId) (field : String) : List String :=
  ((plan.pending.lookup productID).bind (·.lookup field)).getD []

end RetagPlan

/-- `d[k] = v` of a dictionary in insertion order. -/
def setItem {κ α : Type} [DecidableEq κ] (k : κ) (v : α) : List (κ × α) → List (κ × α)
  | [] => [(k, v)]
  | (k', v') :: d => if k' = k then (k, v) :: d else (k', v') :: setItem k v d

namespace RetagPlan

/-- Add the value of a proposal to what is pending for its product. -/
def accept (plan : RetagPlan) (p : Proposal) : RetagPlan where
  pending := setItem p.productID
    (setItem p.field (plan.values p.productID p.field ++ [p.value])
      ((plan.pending.lookup p.productID).getD [])) plan.pending
  accepted := plan.accepted ++ [(p.productID, p)]
  appliedIDs := plan.appliedIDs ++ [p.id]
  staleIDs := plan.staleIDs

def drop (plan : RetagPlan) (p : Proposal) : RetagPlan :=
  { plan with staleIDs := plan.staleIDs ++ [p.id] }

/-- The proposal is applied: its value is allowed, its product is there, lacks the
value, and has room for it. -/
def admits (plan : RetagPlan) (fields : List TaxonomyField) (products : List Product)
    (p : Proposal) : Bool :=
  match lookupField fields p.field, products.find? (·.id = p.productID) with
  | some field, some product =>
    let current := currentValues (product.metadata.lookup p.field)
    let pending := plan.values p.productID p.field
    field.storage = some "product_metadata" ∧ p.value ∈ field.options.map (·.key) ∧
      ¬ current.any (isStr p.value) ∧ p.value ∉ pending ∧
      (current.length + pending.length : Int) < field.limit
  | _, _ => false

/-- One turn of the loop over the selected proposals. -/
def step (fields : List TaxonomyField) (products : List Product) (plan : RetagPlan)
    (p : Proposal) : RetagPlan :=
  if plan.admits fields products p then plan.accept p else plan.drop p

/-- The writes to the products with an accepted proposal. -/
def writes (plan : RetagPlan) (runID : Option String) (updatedAt : Time) : List ProductWrite :=
  plan.pending.filterMap fun (productID, additions) =>
    let versions := (plan.accepted.filter (·.1 = productID)).map (·.2.graphVersion)
    if versions = [] then none
    else some ⟨productID, additions, runID, versions.foldl max (versions.headD 0), updatedAt⟩

end RetagPlan

/-- The loop over the selected proposals. -/
def planRetags (fields : List TaxonomyField) (products : List Product)
    (proposals : List Proposal) : RetagPlan :=
  proposals.foldl (RetagPlan.step fields products) ⟨[], [], [], []⟩

/-- The arguments of `apply_retag_proposals`. -/
structure ApplyRequest where
  proposalIDs : List String
  minimumConfidence : Rat
  limit : ℕ
  includeAuto : Bool
  actor : Option Actor
  runID : Option String

/-- The query of an application, or the identifiers are no identifiers. -/
def ApplyRequest.query (request : ApplyRequest) : Except PyErr ProposalQuery :=
  if request.proposalIDs ≠ [] then
    let ids := request.proposalIDs.filterMap lib.parseID
    if ids.length = request.proposalIDs.length then .ok (.reviewable ids)
    else .error (.httpException 422 "Invalid proposal id")
  else if request.includeAuto then .ok (.autoEligible request.minimumConfidence)
  else .ok (.approved request.minimumConfidence)

def writeAudit (action entityType entityID : String) (actor : Option Actor) : Py Unit := do
  let roles := actor.elim [] (·.roles)
  let actorRole := if "owner" ∈ roles then "owner" else roles.headD "system"
  let createdAt ← Raise.ask Cmd.now
  Raise.ask (Cmd.insertAudit ⟨actor.map (·.id), actorRole, action, entityType, entityID, createdAt⟩)

/-- `apply_retag_proposals` from the product writes on. -/
def commitRetags (request : ApplyRequest) (plan : RetagPlan) (selected : ℕ) : Py ApplyResult := do
  let updatedAt ← Raise.ask Cmd.now
  Raise.forAll PyErr.isBulkWrite (fun write => Raise.ask (Cmd.addMetadata write))
    (plan.writes request.runID updatedAt)
  let now ← Raise.ask Cmd.now
  Raise.when (plan.appliedIDs ≠ []) do
    Raise.ask (Cmd.applyProposals plan.appliedIDs (request.actor.map (·.id)) now)
    Raise.ask Cmd.clearFilterCache
  Raise.when (plan.staleIDs ≠ []) (Raise.ask (Cmd.dropProposals plan.staleIDs now))
  Raise.when (plan.appliedIDs ≠ [] ∨ plan.staleIDs ≠ [])
    (writeAudit "taxonomy_retags_bulk_applied" "taxonomy_reconciliation_run"
      (request.runID.getD "manual") request.actor)
  return ⟨selected, plan.appliedIDs.length, plan.staleIDs.length⟩

def proposedProducts (ids : List ObjectId) : Py (List Product) :=
  if ids ≠ [] then Raise.ask (Cmd.findProductMetadata ids) else pure []

def applyRetagProposals (request : ApplyRequest) : Py ApplyResult := do
  let fields ← Raise.ask Cmd.taxonomySnapshot
  let query ← Raise.lift (request.query lib)
  let proposals ← Raise.ask (Cmd.findProposals query request.limit)
  let products ← proposedProducts (proposals.map (·.productID)).eraseDups
  commitRetags request (planRetags fields products proposals) proposals.length

/-! ## Deciding -/

/-- The arguments of `decide_retag_proposal`. -/
structure DecisionRequest where
  proposalID : String
  decision : Decision
  reason : Option String
  actor : Actor

def decideRetagProposal (request : DecisionRequest) : Py Proposal := do
  match lib.parseID request.proposalID with
  | none => throw (.httpException 422 "Invalid proposal id")
  | some id =>
    let now ← Raise.ask Cmd.now
    let review : Review := ⟨request.decision, request.reason, request.actor.id, now⟩
    match ← Raise.ask (Cmd.decideProposal id review) with
    | none => throw (.httpException 404 "Retag proposal is not reviewable")
    | some proposal =>
      let action := match request.decision with
        | .approved => "taxonomy_retag_approved"
        | .rejected => "taxonomy_retag_rejected"
      writeAudit action "taxonomy_retag_proposal" request.proposalID request.actor
      return proposal

/-! ## Search outcomes -/

/-- The arguments of `record_search_outcome`. -/
structure SearchOutcome where
  rawQuery : String
  resultCount : ℕ
  source : String
  intent : Document
  resolvedQuery : Document
  fallbackCount : ℕ
  fallbackLevel : Option ℕ

def recordSearchOutcome (outcome : SearchOutcome) : Py (Option Failure) := do
  let sanitized := lib.redactQuery outcome.rawQuery
  let normalized := lib.normalizeQuery sanitized
  if normalized = "" then return none
  else
    let digest := lib.queryHash sanitized
    let now ← Raise.ask Cmd.now
    if 0 < outcome.resultCount then
      Raise.ask (Cmd.recoverFailure digest outcome.resultCount now)
    else
      let failure ← Raise.ask (Cmd.reopenFailure {
        queryHash := digest
        query := sanitized
        normalizedQuery := normalized
        source := outcome.source
        fallbackCount := outcome.fallbackCount
        fallbackLevel := outcome.fallbackLevel
        context := lib.safeContext outcome.intent outcome.resolvedQuery
        now
        expiresAt := now + lib.queryRetention })
      return some failure

end Reconciler

end Stylme
