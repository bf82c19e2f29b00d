-- SUMMARY: The documents of the taxonomy reconciler, the commands its functions issue, and what each command does.
import Stylme.Backend.Store
import Stylme.Store.World

/-!
# The reconciler's store

The collections that `taxonomy_reconciler_service.py` reads and writes. An
update by a filter on several documents is one command; a bulk write is one
command for each of its updates.
-/

namespace Stylme

open Conc Backend

namespace Reconciler

/-! ## Constants -/

def graphKey : String := "search-taxonomy-reconciler"

def graphSchemaVersion : Int := 2

def maxGraphDepth : ℕ := 4

def runLockKey : String := "taxonomy-reconciler"

def forbiddenProductTypes : List String :=
  ["baby-sleeping-bag", "bath-robe", "boxers", "bra", "briefs", "camisoles",
    "corset", "innerwear-vests", "lingerie-accessories", "lingerie-set",
    "lounge-pants", "lounge-shorts", "lounge-tshirts", "night-suits",
    "nightdress", "pyjamas", "robe", "shapewear", "sleepsuit", "slips",
    "socks", "stockings", "swim-bottoms", "swim-tops", "swimwear",
    "swimwear-accessories", "swimwear-cover-up-bottom", "swimwear-cover-up-top",
    "thermal-bottoms", "thermal-set", "thermal-tops", "trunk"]

def nonFashionProductTypes : List String :=
  ["appliance-covers", "art-and-craft", "bath-accessories", "beauty-gift-set",
    "dining-essentials", "electric-toothbrush", "eye-cream", "facial-kit",
    "hand-and-feet-cream", "hand-wash-and-sanitizer", "https", "key-chain",
    "mask-and-peel", "massager", "outdoor-masks", "stationery", "tablet-sleeve",
    "teether"]

/-- `FASHION_SEARCH_EXCLUDED_PRODUCT_TYPES` -/
def excludedProductTypes : List String := forbiddenProductTypes ++ nonFashionProductTypes

/-! ## Documents -/

structure TaxonomyOption where
  key : String
  label : String
  aliases : List String

/-- A field of `taxonomy_snapshot`. -/
structure TaxonomyField where
  key : String
  label : String
  storage : Option String
  dataType : Option String
  /-- `validation["maxSelections"]` -/
  maxSelections : Option Int
  aiAllowed : Bool
  options : List TaxonomyOption

structure Statistics where
  nodes : ℕ
  edges : ℕ
  taxonomyNodes : ℕ
  failedQueries : ℕ

/-- What is known about the use of a model for a graph. -/
structure AiMeta where
  used : Bool
  reason : String

structure GraphContent where
  nodes : List Document
  edges : List Document

structure GraphDocument where
  key : String
  schemaVersion : Int
  version : Int
  active : Bool
  market : String
  maxDepth : ℕ
  taxonomyHash : String
  failureHash : String
  taxonomy : List TaxonomyField
  content : GraphContent
  ai : AiMeta
  statistics : Statistics
  createdAt : Time

structure Graph extends GraphDocument where
  id : ObjectId

inductive FailureStatus where
  | opened
  | processed
  | recovered
  deriving DecidableEq

/-- A document of `search_query_failures`. -/
structure Failure where
  id : ObjectId
  queryHash : String
  query : String
  normalizedQuery : String
  source : String
  status : FailureStatus
  occurrences : Int
  zeroResultCount : Int
  successfulRetries : Int
  firstSeenAt : Time
  lastSeenAt : Time
  lastResultCount : ℕ
  lastFallbackCount : ℕ
  lastFallbackLevel : Option ℕ
  context : Document
  expiresAt : Time
  recoveredAt : Option Time
  processedAt : Option Time
  lastRunID : Option String
  lastGraphVersion : Option Int
  updatedAt : Time

/-- `system_metadata.reconciliation` -/
structure Reconciliation where
  lastRunID : Option String
  lastGraphVersion : Int
  updatedAt : Time

structure Product where
  id : ObjectId
  status : String
  visibility : String
  title : String
  description : String
  searchText : String
  categoryKey : String
  productTypeKey : String
  genderKeys : List String
  metadata : Document
  reconciliation : Option Reconciliation

inductive ProposalStatus where
  | proposed
  | approved
  | rejected
  | applied
  | stale
  deriving DecidableEq

structure ProposalDocument where
  proposalKey : String
  productID : ObjectId
  field : String
  value : String
  confidence : Rat
  autoEligible : Bool
  evidence : Document
  queryHashes : List String
  queryScore : Rat
  graphVersion : Int
  runID : String
  status : ProposalStatus
  createdAt : Time
  updatedAt : Time
  decisionReason : Option String := none
  reviewedBy : Option ObjectId := none
  reviewedAt : Option Time := none
  appliedBy : Option ObjectId := none
  appliedAt : Option Time := none

structure Proposal extends ProposalDocument where
  id : ObjectId

structure RunRequest where
  maxQueries : ℕ
  maxProducts : ℕ
  graphDepth : ℕ
  useAI : Bool
  rebuildGraph : Bool
  apply : Bool

structure StageResult where
  productsScanned : ℕ
  targetTags : ℕ
  proposalsStaged : ℕ

structure ApplyResult where
  selected : ℕ
  applied : ℕ
  stale : ℕ

structure Summary where
  queriesProcessed : ℕ
  graphVersion : Int
  graph : Statistics
  ai : AiMeta
  staged : StageResult
  retags : ApplyResult
  applyRequested : Bool

inductive RunStatus where
  | running
  | completed (summary : Summary)
  | failed (type message : String)

def RunStatus.isRunning : RunStatus → Bool
  | running => true
  | _ => false

/-- A document of `taxonomy_reconciliation_runs`. -/
structure Run where
  runID : String
  status : RunStatus
  requestedBy : String
  configuration : RunRequest
  startedAt : Time
  completedAt : Option Time
  updatedAt : Option Time

structure Actor where
  id : ObjectId
  roles : List String

/-- A document of `audit_logs`. -/
structure Audit where
  actorUserID : Option ObjectId
  actorRole : String
  action : String
  entityType : String
  entityID : String
  createdAt : Time

/-! ## Commands -/

/-- The filter of a query for proposals. -/
inductive ProposalQuery where
  | reviewable (ids : List ObjectId)
  | autoEligible (minimumConfidence : Rat)
  | approved (minimumConfidence : Rat)

def ProposalQuery.selects : ProposalQuery → Proposal → Bool
  | reviewable ids, p => p.id ∈ ids ∧ (p.status = .proposed ∨ p.status = .approved)
  | autoEligible minimum, p => p.status = .proposed ∧ p.autoEligible ∧ minimum ≤ p.confidence
  | approved minimum, p => p.status = .approved ∧ minimum ≤ p.confidence

/-- One update of a bulk write to the products. -/
structure ProductWrite where
  productID : ObjectId
  additions : List (String × List String)
  reconciliation : Reconciliation

/-- An edge that a model proposes for a graph. -/
structure AiEdge where
  concept : String
  target : String
  weight : Rat
  relation : String
  rationale : String

/-- A tag that `proposals_for_product` suggests. -/
structure ProposalDraft where
  field : String
  value : String
  confidence : Rat
  autoEligible : Bool
  evidence : Document
  queryHashes : List String
  queryScore : Rat

inductive Decision where
  | approved
  | rejected
  deriving DecidableEq

def Decision.status : Decision → ProposalStatus
  | approved => .approved
  | rejected => .rejected

structure Review where
  decision : Decision
  reason : Option String
  reviewer : ObjectId
  reviewedAt : Time

/-- What a search without results writes to its failure document. -/
structure MissedSearch where
  queryHash : String
  query : String
  normalizedQuery : String
  source : String
  fallbackCount : ℕ
  fallbackLevel : Option ℕ
  context : Document
  now : Time
  expiresAt : Time

inductive Cmd where
  | now
  /-- `uuid.uuid4().hex` -/
  | uuid
  | taxonomySnapshot
  | acquireLock (owner : String) (now expiresAt : Time)
  | releaseLock (owner : String)
  | insertRun (run : Run)
  | finishRun (runID : String) (status : RunStatus) (completedAt updatedAt : Time)
  | findFailures (limit : ℕ)
  | markProcessed (ids : List ObjectId) (runID : String) (graphVersion : Int) (now : Time)
  | recoverFailure (queryHash : String) (resultCount : ℕ) (now : Time)
  | reopenFailure (missed : MissedSearch)
  | findActiveGraph
  | findLatestGraph
  | findSearchModel
  | aiGraphEdges (fields : List TaxonomyField) (failures : List Failure) (targets : List String)
  | insertGraph (document : GraphDocument)
  | deactivateOthers (id : ObjectId)
  | activateGraph (id : ObjectId)
  | deleteGraph (id : ObjectId)
  | findCursor
  | findProducts (after : Option ObjectId) (limit : ℕ)
  | setCursor (id : ObjectId)
  | findProposalKeys (keys : List String)
  | insertProposals (documents : List ProposalDocument)
  | findProposals (query : ProposalQuery) (limit : ℕ)
  | findProductMetadata (ids : List ObjectId)
  | addMetadata (write : ProductWrite)
  | applyProposals (ids : List ObjectId) (actor : Option ObjectId) (now : Time)
  | dropProposals (ids : List ObjectId) (now : Time)
  | decideProposal (id : ObjectId) (review : Review)
  | clearFilterCache
  | insertAudit (entry : Audit)

/-- What each command answers when it does not raise. -/
@[reducible] def Answer : Cmd → Type
  | .now => Time
  | .uuid => String
  | .taxonomySnapshot => List TaxonomyField
  | .acquireLock _ _ _ => Lock
  | .findFailures _ => List Failure
  | .recoverFailure _ _ _ => Option Failure
  | .reopenFailure _ => Failure
  | .findActiveGraph | .findLatestGraph => Option Graph
  | .findSearchModel => Option Document
  | .aiGraphEdges _ _ _ => List AiEdge × AiMeta
  | .insertGraph _ => ObjectId
  | .findCursor => Option ObjectId
  | .findProducts _ _ | .findProductMetadata _ => List Product
  | .findProposalKeys _ => List String
  | .findProposals _ _ => List Proposal
  | .decideProposal _ _ => Option Proposal
  | _ => Unit

abbrev Resp (cmd : Cmd) : Type := Except PyErr (Answer cmd)

/-! ## The world -/

structure World where
  clock : Time
  taxonomy : Collection TaxonomyField TaxonomyField.key TaxonomyField.key
  searchModel : Option Document
  graphs : Collection Graph (·.id) (fun g => (g.key, g.version))
  failures : Collection Failure Failure.id Failure.queryHash
  products : Collection Product Product.id Product.id
  proposals : Collection Proposal (·.id) (·.proposalKey)
  /-- `last_product_id` of the state document `product-cursor` -/
  cursor : Option ObjectId
  runs : Collection Run Run.runID Run.runID
  locks : Locks
  /-- Every run identifier the random generator has handed out. -/
  issued : List String

/-- What the world does not determine about the answer to one command. -/
structure Oracle where
  fault : Option Mishap := none
  /-- The digits of `uuid4`. -/
  random : String := ""
  /-- The identifiers the driver gives to new documents. -/
  objectIDs : List ObjectId := []
  /-- How many documents of an insertion are stored when it does not return. -/
  reached : ℕ := 0
  /-- Which of several equally ranked documents a query for one returns. -/
  pick : ℕ := 0
  /-- The answer of `ai_graph_edges`. -/
  ai : Except Raised (List AiEdge × AiMeta) := .ok ([], ⟨false, "provider-error"⟩)

/-! ## Updates -/

section Updates

/-- `{field: {"$regex": FORBIDDEN_PRODUCT_TEXT_PATTERN}}` of none of the texts, among the products
on sale whose type is not excluded. -/
def Product.eligible (forbiddenText : String → Bool) (p : Product) : Bool :=
  p.status = "active" ∧ p.visibility = "public" ∧ p.productTypeKey ∉ excludedProductTypes ∧
    ¬ forbiddenText p.title ∧ ¬ forbiddenText p.description ∧ ¬ forbiddenText p.searchText

/-- The value is this string. -/
def isStr (value : String) : Json → Bool
  | .str s => s = value
  | _ => false

/-- `$addToSet` with `$each` -/
def addToSet (items : List Json) (values : List String) : List Json :=
  values.foldl (fun items value => if items.any (isStr value) then items else items ++ [.str value])
    items

/-- Add values to one metadata field; the field must be an array or absent. -/
def addField (metadata : Document) (field : String) (values : List String) : Option Document :=
  match metadata.lookup field with
  | none => some (setKey field (.arr (addToSet [] values)) metadata)
  | some (.arr items) => some (setKey field (.arr (addToSet items values)) metadata)
  | some _ => none

def addFields (metadata : Document) : List (String × List String) → Option Document
  | [] => some metadata
  | (field, values) :: rest =>
    match addField metadata field values with
    | some metadata => addFields metadata rest
    | none => none

/-- The product after a write, unless the write is refused. -/
def Product.added (p : Product) (write : ProductWrite) : Option Product :=
  (addFields p.metadata write.additions).map fun metadata =>
    { p with metadata, reconciliation := some write.reconciliation }

def Graph.setActive (active : Bool) (g : Graph) : Graph := { g with active }

/-- The update of `deactivateOthers`. -/
def Graph.deactivatedFor (id : ObjectId) (g : Graph) : Graph :=
  if g.key = graphKey ∧ g.active ∧ g.id ≠ id then g.setActive false else g

/-- The update of `activateGraph`. -/
def Graph.activatedBy (id : ObjectId) (g : Graph) : Graph := if g.id = id then g.setActive true else g

/-- The update of `markProcessed`. -/
def Failure.marked (ids : List ObjectId) (runID : String) (graphVersion : Int) (now : Time)
    (f : Failure) : Failure :=
  if f.id ∈ ids then
    { f with status := .processed, lastRunID := some runID, lastGraphVersion := some graphVersion,
             processedAt := some now, updatedAt := now }
  else f

/-- The update of `recoverFailure`. -/
def Failure.recover (resultCount : ℕ) (now : Time) (f : Failure) : Failure :=
  { f with status := .recovered, recoveredAt := some now, lastResultCount := resultCount,
           updatedAt := now, successfulRetries := f.successfulRetries + 1 }

/-- The update of `reopenFailure` on a stored document. -/
def Failure.reopen (missed : MissedSearch) (f : Failure) : Failure :=
  { f with
    query := missed.query
    normalizedQuery := missed.normalizedQuery
    source := missed.source
    status := .opened
    lastSeenAt := missed.now
    lastResultCount := 0
    lastFallbackCount := missed.fallbackCount
    lastFallbackLevel := missed.fallbackLevel
    context := missed.context
    expiresAt := missed.expiresAt
    updatedAt := missed.now
    occurrences := f.occurrences + 1
    zeroResultCount := f.zeroResultCount + 1 }

/-- The document `reopenFailure` inserts when there is none. -/
def MissedSearch.failure (missed : MissedSearch) (id : ObjectId) : Failure where
  id := id
  queryHash := missed.queryHash
  query := missed.query
  normalizedQuery := missed.normalizedQuery
  source := missed.source
  status := .opened
  occurrences := 1
  zeroResultCount := 1
  successfulRetries := 0
  firstSeenAt := missed.now
  lastSeenAt := missed.now
  lastResultCount := 0
  lastFallbackCount := missed.fallbackCount
  lastFallbackLevel := missed.fallbackLevel
  context := missed.context
  expiresAt := missed.expiresAt
  recoveredAt := none
  processedAt := none
  lastRunID := none
  lastGraphVersion := none
  updatedAt := missed.now

/-- The update of `applyProposals`. -/
def Proposal.appliedFor (ids : List ObjectId) (actor : Option ObjectId) (now : Time)
    (p : Proposal) : Proposal :=
  if p.id ∈ ids then
    { p with status := .applied, appliedAt := some now, appliedBy := actor, updatedAt := now }
  else p

/-- The update of `dropProposals`. -/
def Proposal.droppedFor (ids : List ObjectId) (now : Time) (p : Proposal) : Proposal :=
  if p.id ∈ ids then { p with status := .stale, updatedAt := now } else p

/-- The update of `decideProposal`. -/
def Proposal.decided (review : Review) (p : Proposal) : Proposal :=
  { p with
    status := review.decision.status
    decisionReason := review.reason
    reviewedBy := some review.reviewer
    reviewedAt := some review.reviewedAt
    updatedAt := review.reviewedAt }

def Proposal.reviewable (p : Proposal) : Bool := p.status = .proposed ∨ p.status = .approved

/-- The update of `finishRun`. -/
def Run.finished (status : RunStatus) (completedAt updatedAt : Time) (run : Run) : Run :=
  { run with status, completedAt := some completedAt, updatedAt := some updatedAt }

@[simp] theorem Graph.deactivatedFor_id {id : ObjectId} {g : Graph} :
    (g.deactivatedFor id).id = g.id := by
  unfold deactivatedFor; split <;> rfl

@[simp] theorem Graph.deactivatedFor_key {id : ObjectId} {g : Graph} :
    (g.deactivatedFor id).key = g.key := by
  unfold deactivatedFor; split <;> rfl

@[simp] theorem Graph.deactivatedFor_version {id : ObjectId} {g : Graph} :
    (g.deactivatedFor id).version = g.version := by
  unfold deactivatedFor; split <;> rfl

@[simp] theorem Graph.activatedBy_id {id : ObjectId} {g : Graph} : (g.activatedBy id).id = g.id := by
  unfold activatedBy; split <;> rfl

@[simp] theorem Graph.activatedBy_key {id : ObjectId} {g : Graph} :
    (g.activatedBy id).key = g.key := by
  unfold activatedBy; split <;> rfl

@[simp] theorem Graph.activatedBy_version {id : ObjectId} {g : Graph} :
    (g.activatedBy id).version = g.version := by
  unfold activatedBy; split <;> rfl

@[simp] theorem Failure.marked_id {ids : List ObjectId} {runID : String} {graphVersion : Int}
    {now : Time} {f : Failure} : (f.marked ids runID graphVersion now).id = f.id := by
  unfold marked; split <;> rfl

@[simp] theorem Failure.marked_queryHash {ids : List ObjectId} {runID : String} {graphVersion : Int}
    {now : Time} {f : Failure} : (f.marked ids runID graphVersion now).queryHash = f.queryHash := by
  unfold marked; split <;> rfl

@[simp] theorem Proposal.appliedFor_id {ids : List ObjectId} {actor : Option ObjectId} {now : Time}
    {p : Proposal} : (p.appliedFor ids actor now).id = p.id := by
  unfold appliedFor; split <;> rfl

@[simp] theorem Proposal.appliedFor_key {ids : List ObjectId} {actor : Option ObjectId} {now : Time}
    {p : Proposal} : (p.appliedFor ids actor now).proposalKey = p.proposalKey := by
  unfold appliedFor; split <;> rfl

@[simp] theorem Proposal.droppedFor_id {ids : List ObjectId} {now : Time} {p : Proposal} :
    (p.droppedFor ids now).id = p.id := by
  unfold droppedFor; split <;> rfl

@[simp] theorem Proposal.droppedFor_key {ids : List ObjectId} {now : Time} {p : Proposal} :
    (p.droppedFor ids now).proposalKey = p.proposalKey := by
  unfold droppedFor; split <;> rfl

end Updates

/-! ## The effect of a command -/

/-- Replace one stored document. -/
def put {α κ ι : Type} [DecidableEq κ] [DecidableEq ι] {id : α → κ} {key : α → ι}
    (s : Collection α id key) (d : α) : Collection α id key := (s.replaceOne d).getD s

/-- New documents with the identifiers of the oracle, if these are fresh. -/
def withIDs (w : World) (ids : List ObjectId) (documents : List ProposalDocument) :
    Option (List Proposal) :=
  if ids.length = documents.length ∧ ids.Nodup ∧ ∀ p ∈ w.proposals.docs, p.id ∉ ids then
    some (List.zipWith (fun d id => ⟨d, id⟩) documents ids)
  else none

/-- The answer to a command and the world after it. A command is refused an
oracle that repeats a random value or an identifier. -/
def Cmd.exec (forbiddenText : String → Bool) :
    (c : Cmd) → Oracle → World → Option (Resp c × World)
  | .now, _, w => some (.ok w.clock, w)
  | .uuid, o, w =>
    if o.random ∈ w.issued ∨ (∃ run ∈ w.runs.docs, run.runID = "trr_" ++ o.random) ∨
      (∃ lock ∈ w.locks.docs, lock.owner = "trr_" ++ o.random) then none
    else some (.ok o.random, { w with issued := o.random :: w.issued })
  | .taxonomySnapshot, o, w => respond o.fault (.ok w.taxonomy.docs) w
  | .acquireLock owner time expiresAt, o, w =>
    let lock : Lock := ⟨runLockKey, owner, expiresAt, time⟩
    match acquire w.locks lock time with
    | some locks => perform o.fault (.ok lock) w { w with locks }
    | none => respond o.fault (.error .duplicateKey) w
  | .releaseLock owner, o, w =>
    perform o.fault (.ok ()) w { w with locks := release w.locks runLockKey owner }
  | .insertRun run, o, w =>
    match w.runs.insertOne run with
    | some runs => perform o.fault (.ok ()) w { w with runs }
    | none => respond o.fault (.error .duplicateKey) w
  | .finishRun runID status completedAt updatedAt, o, w =>
    match w.runs.get runID with
    | some run => perform o.fault (.ok ()) w
        { w with runs := put w.runs (run.finished status completedAt updatedAt) }
    | none => respond o.fault (.ok ()) w
  | .findFailures limit, o, w =>
    respond o.fault (.ok (sortLimit
      (fun a b => b.occurrences < a.occurrences ∨
        (b.occurrences = a.occurrences ∧ b.lastSeenAt ≤ a.lastSeenAt)) limit
      (w.failures.docs.filter fun f => f.status = .opened ∨ f.status = .processed))) w
  | .markProcessed ids runID graphVersion time, o, w =>
    perform o.fault (.ok ()) w { w with
      failures := w.failures.updateAll (·.marked ids runID graphVersion time)
        (fun _ => Failure.marked_id) (fun _ => Failure.marked_queryHash) }
  | .recoverFailure queryHash resultCount time, o, w =>
    match w.failures.find? (·.queryHash = queryHash) with
    | some f => perform o.fault (.ok (some (f.recover resultCount time))) w
        { w with failures := put w.failures (f.recover resultCount time) }
    | none => respond o.fault (.ok none) w
  | .reopenFailure missed, o, w =>
    match w.failures.find? (·.queryHash = missed.queryHash) with
    | some f => perform o.fault (.ok (f.reopen missed)) w
        { w with failures := put w.failures (f.reopen missed) }
    | none =>
      match o.objectIDs with
      | [id] =>
        match w.failures.insertOne (missed.failure id) with
        | some failures => perform o.fault (.ok (missed.failure id)) w { w with failures }
        | none => none
      | _ => none
  | .findActiveGraph, o, w =>
    respond o.fault (.ok (findOneSorted (fun _ _ => true) o.pick
      (w.graphs.docs.filter fun g => g.key = graphKey ∧ g.active))) w
  | .findLatestGraph, o, w =>
    respond o.fault (.ok (findOneSorted (fun a b => b.version ≤ a.version) o.pick
      (w.graphs.docs.filter (·.key = graphKey)))) w
  | .findSearchModel, o, w => respond o.fault (.ok w.searchModel) w
  | .aiGraphEdges _ _ _, o, w => respond o.fault (o.ai.mapError Raised.error) w
  | .insertGraph document, o, w =>
    match o.objectIDs with
    | [id] =>
      if ∃ g ∈ w.graphs.docs, g.id = id then none
      else
        match w.graphs.insertOne ⟨document, id⟩ with
        | some graphs => perform o.fault (.ok id) w { w with graphs }
        | none => respond o.fault (.error .duplicateKey) w
    | _ => none
  | .deactivateOthers id, o, w =>
    perform o.fault (.ok ()) w { w with
      graphs := w.graphs.updateAll (·.deactivatedFor id) (fun _ => Graph.deactivatedFor_id)
        (fun _ => by simp only [Graph.deactivatedFor_key, Graph.deactivatedFor_version]) }
  | .activateGraph id, o, w =>
    perform o.fault (.ok ()) w { w with
      graphs := w.graphs.updateAll (·.activatedBy id) (fun _ => Graph.activatedBy_id)
        (fun _ => by simp only [Graph.activatedBy_key, Graph.activatedBy_version]) }
  | .deleteGraph id, o, w =>
    perform o.fault (.ok ()) w { w with graphs := w.graphs.delete (·.id = id) }
  | .findCursor, o, w => respond o.fault (.ok w.cursor) w
  | .findProducts after limit, o, w =>
    respond o.fault (.ok (sortLimit (fun a b => a.id ≤ b.id) limit
      (w.products.docs.filter fun p => p.eligible forbiddenText ∧ after.all (· < p.id)))) w
  | .setCursor id, o, w => perform o.fault (.ok ()) w { w with cursor := some id }
  | .findProposalKeys keys, o, w =>
    respond o.fault (.ok ((w.proposals.docs.map (·.proposalKey)).filter (· ∈ keys))) w
  | .insertProposals documents, o, w =>
    match withIDs w o.objectIDs documents with
    | none => none
    | some proposals =>
      let r := Collection.insertMany proposals w.proposals
      -- the writes the unique index refused are reported when all others are done
      let result := if r.2 = proposals.length then .ok ()
        else .error (.bulkWrite (List.replicate (proposals.length - r.2) 11000))
      match o.fault with
      | none => some (result, { w with proposals := r.1 })
      | some f => some (.error f.cause.error,
          { w with proposals := (Collection.insertMany (proposals.take o.reached) w.proposals).1 })
  | .findProposals query limit, o, w =>
    respond o.fault (.ok (sortLimit (fun a b => b.confidence ≤ a.confidence) limit
      (w.proposals.docs.filter query.selects))) w
  | .findProductMetadata ids, o, w =>
    respond o.fault (.ok ((w.products.docs.filter (·.id ∈ ids)).take ids.length)) w
  | .addMetadata write, o, w =>
    match w.products.get write.productID with
    | none => respond o.fault (.ok ()) w
    | some p =>
      match p.added write with
      | some p => perform o.fault (.ok ()) w { w with products := put w.products p }
      | none => respond o.fault (.error (.bulkWrite [2])) w
  | .applyProposals ids actor time, o, w =>
    perform o.fault (.ok ()) w { w with
      proposals := w.proposals.updateAll (·.appliedFor ids actor time)
        (fun _ => Proposal.appliedFor_id) (fun _ => Proposal.appliedFor_key) }
  | .dropProposals ids time, o, w =>
    perform o.fault (.ok ()) w { w with
      proposals := w.proposals.updateAll (·.droppedFor ids time)
        (fun _ => Proposal.droppedFor_id) (fun _ => Proposal.droppedFor_key) }
  | .decideProposal id review, o, w =>
    match (w.proposals.get id).filter (·.reviewable) with
    | some p => perform o.fault (.ok (some (p.decided review))) w
        { w with proposals := put w.proposals (p.decided review) }
    | none => respond o.fault (.ok none) w
  | .clearFilterCache, o, w => respond o.fault (.ok ()) w
  | .insertAudit _, o, w => respond o.fault (.ok ()) w

/-- The clock moves, and the store drops failures and locks that have expired. -/
inductive Env where
  | elapse (d : Duration)
  | expireFailure (id : ObjectId)
  | expireLock (key : String)

def Env.apply : Env → World → World
  | .elapse d, w => { w with clock := w.clock + d }
  | .expireFailure id, w =>
    { w with failures := w.failures.delete fun f => f.id = id ∧ f.expiresAt ≤ w.clock }
  | .expireLock key, w =>
    { w with locks := w.locks.delete fun lock => lock.key = key ∧ lock.expiresAt ≤ w.clock }

end Reconciler

end Stylme
