-- SUMMARY: The traversal of the search graph from the words of a query, as a breadth-first relaxation.
import Stylme.Domain.Dictionary
import Stylme.Lib.Relaxation
import Stylme.Reconciler.SearchGraph
import Mathlib.Data.Prod.Lex
import Mathlib.Data.String.Basic

/-!
# Traversal

`traverse_graph` starts at the terms and concepts a query mentions and follows edges for a few
hops. Each taxonomy node it reaches becomes a signal with the score of the best way there.
-/

namespace Stylme

open Conc Backend

namespace Reconciler

/-! ## Constants -/

def explicitOnlyFields : List String :=
  ["gender", "generation", "festival", "mood", "cultural_theme", "personalization_segment",
    "body_fit_preference"]

def minSignal : ℚ := 28 / 100

def hopDamping : ℚ := 94 / 100

variable (texts : Texts)

/-- `normalize_query(redact_query(raw_query))` -/
def normalizedQuery (rawQuery : String) : String := texts.normalizeQuery (texts.redactQuery rawQuery)

/-- `" ".join(query_terms[start:end])` for all `start` and `end` -/
def phrases (terms : List String) : List String :=
  (List.range terms.length).flatMap fun start =>
    (List.range' (start + 1) (terms.length - start)).map fun stop =>
      " ".intercalate ((terms.take stop).drop start)

/-- `explicit_taxonomy` -/
def GraphNode.namedBy (n : GraphNode) (normalized : String) : Bool :=
  ([n.value.getD "", n.label.getD ""] ++ n.terms).any fun term =>
    term ≠ "" ∧ texts.hasWord (texts.normalizeQuery term) normalized

/-- A tag that the service proposes for a query. -/
structure Signal where
  node : String
  field : Option String
  value : Option String
  label : Option String
  score : ℚ
  depth : ℕ
  path : List String

namespace SearchGraph

variable (g : SearchGraph)

/-- `graph_nodes.get(key) or {}` -/
def nodeOf (key : String) : GraphNode := (g.node key).getD { key }

/-- The keys of `graph_nodes`, in the order of the dictionary. -/
def keys : List String := (g.nodes.map (·.key)).eraseDups

/-- `_graph_start_lookup(graph_nodes).get(phrase, [])` -/
def labelled (phrase : String) : List String :=
  g.keys.filter fun key =>
    ((g.nodeOf key).kind = some .term ∨ (g.nodeOf key).kind = some .concept) ∧
      (g.nodeOf key).label.any fun label =>
        label ≠ "" ∧ texts.normalizeQuery label ≠ "" ∧ texts.normalizeQuery label = phrase

def starts (normalized : String) : List String :=
  ((phrases (texts.split normalized)).flatMap (g.labelled texts)).eraseDups

/-- A tag that only counts when the query names it, which it does not. -/
def barred (normalized key : String) : Bool :=
  (g.nodeOf key).kind = some .taxonomy ∧ (g.nodeOf key).field.any (· ∈ explicitOnlyFields) ∧
    ¬ (g.nodeOf key).namedBy texts normalized

/-- `0.94 if current_depth else 1.0` -/
def damping (depth : ℕ) : ℚ := if depth = 0 then 1 else hopDamping

/-- The hops from a node that keep the score high enough. -/
def hopsFrom (key : String) (depth : ℕ) (score : ℚ) : List (String × ℚ) :=
  ((g.adjacent key).map fun x => (x.1, score * x.2.weight * damping depth)).filter (minSignal ≤ ·.2)

variable {g} in
theorem length_endsAt_le {key : String} {e : GraphEdge} : (endsAt key e).length ≤ 2 := by
  unfold endsAt
  rw [List.length_append]
  refine @Nat.add_le_add _ 1 _ 1 ?_ ?_
  all_goals
    split
    · exact Nat.le_refl 1
    · exact Nat.zero_le 1

theorem length_hopsFrom_le (key : String) (depth : ℕ) (score : ℚ) :
    (g.hopsFrom key depth score).length ≤ 2 * g.edges.length := by
  refine (List.length_filter_le ..).trans ?_
  rw [List.length_map, adjacent]
  generalize g.edges = edges
  induction edges with
  | nil => exact Nat.le_refl 0
  | cons e edges ih =>
    rw [List.flatMap_cons, List.length_append, List.length_cons]
    have hends := @length_endsAt_le key e
    omega

/-- How the loop continues a walk. -/
def growth (normalized : String) (maximum : ℕ) : Growth String ℚ where
  extend key depth score :=
    if g.barred texts normalized key ∨ maximum ≤ depth then [] else g.hopsFrom key depth score
  bound := maximum
  width := 2 * g.edges.length
  stops h := if_pos (.inr h)
  length_le key depth score := by
    split
    · exact Nat.zero_le _
    · exact g.length_hopsFrom_le key depth score

/-- `candidate` -/
def signal (i : Growth.Item String ℚ) : Signal where
  node := i.node
  field := (g.nodeOf i.node).field
  value := (g.nodeOf i.node).value
  label := (g.nodeOf i.node).label
  score := roundFour i.score
  depth := i.depth
  path := i.path

/-- What the loop does with a walk it takes off the queue. -/
def record (normalized : String) (results : List (String × Signal)) (i : Growth.Item String ℚ) :
    List (String × Signal) :=
  if g.barred texts normalized i.node then results
  else if (g.nodeOf i.node).kind = some .taxonomy ∧ 0 < i.depth then
    if (results.lookup i.node).elim 0 (·.score) < i.score then setKey i.node (g.signal i) results
    else results
  else results

/-- `results` after the loop -/
def results (normalized : String) (maximum : ℕ) : List (String × Signal) :=
  (g.growth texts normalized maximum).search (g.record texts normalized)
    (Growth.startQueue (g.starts texts normalized) 1)
    (Growth.startBest (g.starts texts normalized) 1 0) []

end SearchGraph

/-- The key of the sort. -/
def signalKey (s : Signal) : ℚ ×ₗ ℕ ×ₗ String ×ₗ String :=
  toLex (-s.score, toLex (s.depth, toLex (s.field.getD "", s.value.getD "")))

/-- `max(1, min(int(depth), MAX_GRAPH_DEPTH))` -/
def graphDepth (depth : ℤ) : ℕ := (max 1 (min depth maxGraphDepth)).toNat

def traverseGraph (graph : Option SearchGraph) (rawQuery : String) (depth : ℤ) (limit : ℕ) :
    List Signal :=
  match graph with
  | none => []
  | some g =>
    ((((g.results texts (normalizedQuery texts rawQuery) (graphDepth depth)).map (·.2)).insertionSort
      fun a b => signalKey a ≤ signalKey b).take limit)

end Reconciler

end Stylme
