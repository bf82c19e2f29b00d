-- SUMMARY: The training of the search intent model: counts of terms and labels, and the edges between them.
import Stylme.Catalogue.Store
import Stylme.Data.Common
import Stylme.Domain.Dictionary
import Stylme.Lib.Rounding
import Mathlib.Data.List.Dedup
import Mathlib.Data.Prod.Lex
import Mathlib.Data.String.Basic

/-!
# Training the search intent model

A first pass over the rows counts the terms of titles and descriptions, and the labels. A second one
counts how often a term and a label come together. An edge from a term to a label has a confidence
made from these counts, and a term keeps its best edge of each field. Numbers are those of an
ordered field, where a quotient by zero and the logarithm of what is not positive raise.
-/

namespace Stylme

open Conc
open Recovery (strip)

namespace Data

/-- A row as `csv.DictReader` yields it; where the line is short, the cell is none. -/
abbrev Cells := List (String × Option String)

/-- A field of the search, and a value of it. -/
structure Label where
  field : String
  value : String
  deriving DecidableEq

/-- What the standard library provides to read JSON. -/
structure JsonLibrary extends Library where
  /-- `json.loads`, none if it raises; a number that is not finite is read as its text. -/
  loads : String → Option Json
  /-- `str(value)`, of a value that is not a text -/
  str : Json → String

/-- What raises in the arithmetic. -/
inductive Undefined where
  | zeroDivision
  | mathDomain
  deriving DecidableEq, Repr

/-- The functions of `math`. -/
structure Logarithms (K : Type) where
  log : K → K
  log2 : K → K

/-! ## Features and labels -/

def stopwords : List String :=
  ["a", "an", "and", "are", "as", "at", "be", "by", "buy", "for", "from",
    "in", "is", "it", "of", "on", "or", "the", "this", "to", "with", "wear",
    "collection", "design", "fashion", "look", "online", "product", "shop", "style",
    "pack", "set", "piece", "pieces", "men", "women", "boys", "girls", "kids"]

def labelColumns : List (String × String) :=
  [("category", "category_key"), ("product_type", "product_type_key"), ("gender", "gender_keys_json")]

/-- `column.endswith("_json")` -/
def isJsonColumn (column : String) : Bool := "_json".toList <:+ column.toList

/-- `text.split()`, of a text whose blanks are spaces -/
def splitWords (text : String) : List String :=
  ((text.toList.splitOn ' ').filter (· ≠ [])).map String.ofList

/-- `row.get(column, "")` -/
def Cells.get (row : Cells) (column : String) : Option String := (row.lookup column).getD (some "")

/-- A cell in an f-string. -/
def shown (cell : Option String) : String := cell.getD "None"

variable (lib : JsonLibrary)

/-- The tokens of a row. -/
def tokensOf (row : Cells) : List String :=
  let text := normalizeText lib.toLibrary (some (shown (row.get "title") ++ " " ++ shown (row.get "description")))
  ((splitWords text).filter fun token =>
    2 ≤ token.length ∧ ¬ token.toList.all lib.isDigit ∧ token ∉ stopwords).take 80

/-- The phrases of so many tokens. -/
def phrases (tokens : List String) (width : ℕ) : List String :=
  (List.range (tokens.length + 1 - width)).map fun index => " ".intercalate ((tokens.drop index).take width)

/-- `features`, each one once -/
def features (row : Cells) : List String :=
  let tokens := tokensOf lib row
  ((tokens ++ [2, 3].flatMap (phrases tokens)).filter (·.length ≤ 72)).dedup

/-- `safe_json`, of a cell -/
def safeJson (value : Option String) (default : Json) : Json :=
  match value with
  | none => default
  | some value =>
    if value = "" then default
    else match lib.loads value with
      | none | some .null => default
      | some parsed => parsed

/-- `str(value or "").strip()` -/
def labelText (value : Json) : String :=
  if Catalogue.truthy value then
    match value with
    | .str s => strip s
    | value => strip (lib.str value)
  else ""

/-- The labels of a column. -/
def columnLabels (row : Cells) (field column : String) : List Label :=
  let raw := row.get column
  let values := if isJsonColumn column then safeJson lib raw (.arr []) else .arr [raw.elim .null .str]
  match values with
  | .arr values => ((values.map (labelText lib)).filter fun normalized =>
      normalized ≠ "" ∧ normalized ≠ "unspecified").map (Label.mk field)
  | _ => []

/-- The labels of a field of the product's metadata. -/
def metadataLabels (field : String) (values : Json) : List Label :=
  let values := match values with
    | .arr values => values
    | value => [value]
  ((values.map (labelText lib)).filter (· ≠ "")).map (Label.mk field)

/-- `labels`, each one once -/
def labels (row : Cells) : List Label :=
  let metadata := match safeJson lib (row.lookup "product_metadata_json").join (.obj []) with
    | .obj fields => fields.flatMap fun (field, values) => metadataLabels lib field values
    | _ => []
  (labelColumns.flatMap (fun (field, column) => columnLabels lib row field column) ++ metadata).dedup

/-! ## The passes -/

/-- What the first pass counts. -/
structure Documents where
  terms : Counter String
  labels : Counter Label
  rows : ℕ

def countDocuments (s : Documents) (row : Cells) : Documents :=
  ⟨s.terms.update (features lib row), s.labels.update (labels lib row), s.rows + 1⟩

def documentsOf (rows : List Cells) : Documents := rows.foldl (countDocuments lib) ⟨[], [], 0⟩

/-- `candidates` -/
def candidateTerms (minimumSupport maximumTermDocuments : ℤ) (terms : Counter String) : List String :=
  (terms.filter fun (_, count) =>
    decide (minimumSupport ≤ count) && decide ((count : ℤ) ≤ maximumTermDocuments)).map (·.1)

abbrev Joint := List (String × Counter Label)

/-- `joint[term].update(row_labels)`, for the terms of the row that are candidates -/
def countJoint (candidates : List String) (joint : Joint) (row : Cells) : Joint :=
  let rowLabels := labels lib row
  if rowLabels = [] then joint
  else ((features lib row).filter (· ∈ candidates)).foldl
    (fun joint term => amend term (fun counter => (counter.getD []).update rowLabels) joint) joint

/-- `joint` -/
def jointOf (candidates : List String) (rows : List Cells) : Joint :=
  rows.foldl (countJoint lib candidates) []

/-! ## Edges -/

structure Edge (K : Type) where
  field : String
  value : String
  confidence : K
  support : ℕ
  precision : K
  lift : K

def Edge.label {K : Type} (edge : Edge K) : Label := ⟨edge.field, edge.value⟩

section Edges

variable {K : Type} [Field K] [LinearOrder K] [FloorRing K] (fn : Logarithms K)

/-- `x / y` -/
def divide (x y : K) : Except Undefined K := if y = 0 then .error .zeroDivision else .ok (x / y)

/-- A logarithm raises unless the number is positive. -/
def logarithm (log : K → K) (x : K) : Except Undefined K :=
  if x ≤ 0 then .error .mathDomain else .ok (log x)

/-- `precision / prior if prior else 0.0` -/
def liftOf (precision prior : K) : Except Undefined K :=
  if prior ≠ 0 then divide precision prior else .ok 0

/-- So many hundredths. -/
def percent (n : ℕ) : K := n / (100 : ℕ)

/-- The edge to a label that came together with the term so often, none if it is too weak. -/
def edgeOf (minimumSupport : ℤ) (trainingRows termCount labelCount : ℕ) (label : Label) (support : ℕ) :
    Except Undefined (Option (Edge K)) :=
  if (support : ℤ) < minimumSupport then .ok none
  else do
    let precision ← divide (support : K) termCount
    let prior ← divide (labelCount : K) trainingRows
    let lift ← liftOf precision prior
    if precision < percent 16 ∨ lift < percent 145 then .ok none
    else
      let pmi ← logarithm fn.log (max lift (1 / (10 ^ 9 : ℕ)))
      let surprise ← (divide (support : K) trainingRows).bind (logarithm fn.log)
      let npmi ← divide pmi (-surprise)
      let reliability ← divide (support : K) (support + 8)
      let doublings ← logarithm fn.log2 (max lift 1)
      let liftSignal := min 1 (doublings / 6)
      let confidence :=
        reliability * (percent 58 * precision + percent 27 * max 0 npmi + percent 15 * liftSignal)
      if confidence < percent 30 then .ok none
      else .ok (some
        { field := label.field
          value := label.value
          confidence := toPlaces 4 (min confidence (999 / 1000))
          support := support
          precision := toPlaces 4 precision
          lift := toPlaces 3 lift })

/-- The candidate edges of a term. -/
def edgesOf (minimumSupport : ℤ) (documents : Documents) (term : String) (correlations : Counter Label) :
    Except Undefined (List (Edge K)) :=
  (correlations.mapM fun (label, support) => edgeOf fn minimumSupport documents.rows
    (documents.terms.count term) (documents.labels.count label) label support).map List.reduceOption

/-- The key of the edges' sort. -/
def Edge.rank (edge : Edge K) : K ×ₗ ℤ ×ₗ String ×ₗ String :=
  toLex (-edge.confidence, toLex (-edge.support, toLex (edge.field, edge.value)))

/-- The loop over the sorted edges, with `unique_fields`. -/
def uniqueFields (maximumEdges : ℤ) : List (Edge K) → List (Edge K) → List (Edge K)
  | kept, [] => kept
  | kept, edge :: edges =>
    if edge.field ∈ kept.map (·.field) then uniqueFields maximumEdges kept edges
    else if maximumEdges ≤ kept.length + 1 then kept ++ [edge]
    else uniqueFields maximumEdges (kept ++ [edge]) edges

def keepEdges (maximumEdges : ℤ) (edges : List (Edge K)) : List (Edge K) :=
  uniqueFields maximumEdges [] (edges.insertionSort fun a b => a.rank ≤ b.rank)

/-! ## The model -/

/-- A term that kept an edge, with its edges and the confidence of the first. -/
structure Node (K : Type) where
  term : String
  edges : List (Edge K)
  confidence : K

/-- The node of a term, if it keeps an edge. -/
def nodeOf (minimumSupport maximumEdges : ℤ) (documents : Documents) (term : String)
    (correlations : Counter Label) : Except Undefined (Option (Node K)) :=
  (edgesOf fn minimumSupport documents term correlations).map fun edges =>
    match keepEdges maximumEdges edges with
    | [] => none
    | first :: rest => some ⟨term, first :: rest, first.confidence⟩

/-- The key of the nodes' sort. -/
def Node.rank (terms : Counter String) (node : Node K) : K ×ₗ ℤ ×ₗ ℤ ×ₗ String :=
  toLex (-node.confidence, toLex (-(splitWords node.term).length,
    toLex (-terms.count node.term, node.term)))

/-- `graph[:maximum_nodes]` -/
def firstNodes (maximumNodes : ℤ) (graph : List (Node K)) : List (Node K) :=
  graph.take (if 0 ≤ maximumNodes then maximumNodes.toNat else graph.length - maximumNodes.natAbs)

/-- The document that is written, without what is the same for all files. -/
structure IntentModel (K : Type) where
  trainingRows : ℕ
  minimumSupport : ℤ
  maximumTermDocuments : ℤ
  candidateTerms : ℕ
  nodeCount : ℕ
  edgeCount : ℕ
  labelCount : ℕ
  nodes : List (String × List (Edge K))
  targetAllowlist : List String

def train (rows : List Cells) (minimumSupport maximumTermDocuments maximumNodes maximumEdges : ℤ) :
    Except Undefined (IntentModel K) := do
  let documents := documentsOf lib rows
  let candidates := candidateTerms minimumSupport maximumTermDocuments documents.terms
  let joint := jointOf lib candidates rows
  let graph ← joint.mapM fun (term, correlations) =>
    nodeOf fn minimumSupport maximumEdges documents term correlations
  let ranked := graph.reduceOption.insertionSort fun a b => a.rank documents.terms ≤ b.rank documents.terms
  let kept := (firstNodes maximumNodes ranked).insertionSort fun a b => a.term ≤ b.term
  let nodes := kept.map fun node => (node.term, node.edges)
  return {
    trainingRows := documents.rows
    minimumSupport := minimumSupport
    maximumTermDocuments := maximumTermDocuments
    candidateTerms := candidates.length
    nodeCount := nodes.length
    edgeCount := (nodes.map (·.2.length)).sum
    labelCount := documents.labels.length
    nodes := nodes
    targetAllowlist := ((documents.labels.map (·.1.field)).dedup).insertionSort (· ≤ ·) }

end Edges

end Data

end Stylme
