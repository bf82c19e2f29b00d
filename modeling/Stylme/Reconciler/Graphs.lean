-- SUMMARY: Building the search graph of the reconciler and making it the active one.
import Stylme.Reconciler.Store

/-!
# Graphs

`build_or_load_graph` keeps the active graph while it is current, and otherwise
inserts a graph with the next version and moves the `active` flag to it.
-/

namespace Stylme

open Conc Backend

namespace Reconciler

/-- A coroutine of the service. -/
abbrev Py (α : Type) := Raise Cmd Answer PyErr α

/-- The settings, and the functions of the service on texts and graphs. -/
structure Library where
  lockSeconds : ℕ
  autoApplyConfidence : Rat
  queryRetention : Duration
  hasOpenAIKey : Bool
  /-- `FORBIDDEN_PRODUCT_TEXT_PATTERN` matches the text. -/
  forbiddenText : String → Bool
  normalizeQuery : String → String
  redactQuery : String → String
  queryHash : String → String
  /-- `_safe_context` -/
  safeContext : Document → Document → Document
  /-- The digest of `taxonomy_snapshot`. -/
  taxonomyHash : List TaxonomyField → String
  /-- The digest of the query hashes of the failures. -/
  failureHash : List String → String
  /-- `build_deterministic_graph` -/
  deterministicGraph : List TaxonomyField → Option Document → Except Raised GraphContent
  /-- The graph with a model's edges, cut down to the edges and nodes that are stored. -/
  enrich : GraphContent → List AiEdge → Except Raised GraphContent
  /-- `_target_signals` -/
  targetSignals : Graph → List Failure → ℕ → List TaxonomyField →
    Except Raised (List (String × Document))
  /-- `proposals_for_product` -/
  proposalsForProduct : Product → Graph → List (String × Document) → List TaxonomyField →
    Except Raised (List ProposalDraft)
  /-- `str` of an identifier, and `ObjectId` of a string that `ObjectId.is_valid` accepts -/
  idText : ObjectId → String
  parseID : String → Option ObjectId

namespace GraphContent

/-- The keys of the nodes of a kind. -/
def keysOf (content : GraphContent) (kind : String) : List String :=
  content.nodes.filterMap fun node =>
    if (node.lookup "kind").any (isStr kind) then
      match node.lookup "key" with
      | some (.str key) => some key
      | _ => none
    else none

def statistics (content : GraphContent) (failedQueries : ℕ) : Statistics where
  nodes := content.nodes.length
  edges := content.edges.length
  taxonomyNodes := (content.keysOf "taxonomy").length
  failedQueries := failedQueries

end GraphContent

variable (lib : Library)

/-- The active graph need not be rebuilt. -/
def Graph.current (g : Graph) (taxonomyHash failureHash : String) (rebuild aiExpected : Bool) : Bool :=
  ¬ rebuild ∧ g.taxonomyHash = taxonomyHash ∧ g.failureHash = failureHash ∧
    g.schemaVersion = graphSchemaVersion ∧ (¬ aiExpected ∨ g.ai.used)

/-- The edges a model adds, if one may be asked. -/
def modelEdges (fields : List TaxonomyField) (failures : List Failure) (useAI : Bool)
    (content : GraphContent) : Py (List AiEdge × AiMeta) :=
  if useAI then Raise.ask (Cmd.aiGraphEdges fields failures (content.keysOf "taxonomy"))
  else pure ([], ⟨false, "disabled"⟩)

/-- `active or await database.taxonomy_reconciler_graphs.find_one(…)` -/
def latestGraph : Option Graph → Py (Option Graph)
  | some g => pure (some g)
  | none => Raise.ask Cmd.findLatestGraph

/-- The document of the next graph. -/
def draftGraph (fields : List TaxonomyField) (failures : List Failure) (useAI : Bool)
    (active : Option Graph) : Py GraphDocument := do
  let searchModel ← Raise.ask Cmd.findSearchModel
  let content ← liftRaised (lib.deterministicGraph fields searchModel)
  let (aiEdges, aiMeta) ← modelEdges fields failures useAI content
  let content ← liftRaised (lib.enrich content aiEdges)
  let latest ← latestGraph active
  let createdAt ← Raise.ask Cmd.now
  return {
    key := graphKey
    schemaVersion := graphSchemaVersion
    version := (latest.elim 0 (·.version)) + 1
    active := false
    market := "IN"
    maxDepth := maxGraphDepth
    taxonomyHash := lib.taxonomyHash fields
    failureHash := lib.failureHash (failures.map (·.queryHash))
    taxonomy := fields
    content
    ai := aiMeta
    statistics := content.statistics failures.length
    createdAt }

/-- The handler of `installGraph`. -/
def restoreGraph (active : Option Graph) (id : ObjectId) (e : PyErr) : Py Graph := do
  match active with
  | some g =>
    Raise.ask (Cmd.activateGraph g.id)
    Raise.ask (Cmd.deleteGraph id)
    throw e
  | none =>
    Raise.ask (Cmd.deleteGraph id)
    throw e

/-- Insert a graph and make it the active one. -/
def installGraph (active : Option Graph) (document : GraphDocument) : Py Graph := do
  let id ← Raise.ask (Cmd.insertGraph document)
  Raise.tryExcept PyErr.isException
    (do
      Raise.ask (Cmd.deactivateOthers id)
      Raise.ask (Cmd.activateGraph id)
      return ⟨{ document with active := true }, id⟩)
    (restoreGraph active id)

def buildOrLoadGraph (failures : List Failure) (useAI rebuild : Bool) : Py Graph := do
  let fields ← Raise.ask Cmd.taxonomySnapshot
  let active ← Raise.ask Cmd.findActiveGraph
  let aiExpected := useAI ∧ lib.hasOpenAIKey ∧ failures ≠ []
  match active.filter (·.current (lib.taxonomyHash fields)
      (lib.failureHash (failures.map (·.queryHash))) rebuild aiExpected) with
  | some g => return g
  | none =>
    let document ← draftGraph lib fields failures useAI active
    installGraph active document

end Reconciler

end Stylme
