-- SUMMARY: How the voice worker reads a swarm graph: conditions on captured data, and the choice of an outgoing edge.
import Mathlib.Data.List.Sort
import Stylme.Backend.Store
import Stylme.Domain.Graph
import Stylme.Recovery.Source

/-!
# Transitions

`choose_transition` and `condition_matches` of the voice worker's `app/graph.py`.
Captured data and the values of conditions are JSON, compared the way Python
compares what JSON decodes to.
-/

namespace Stylme

open Backend

namespace Worker

/-- What the standard library provides. -/
structure Library where
  casefold : String → String
  /-- `str` of a value that is no string -/
  str : Json → String
  /-- The characters that `\d` matches. -/
  isDigit : Char → Bool

/-! ## Python's view of JSON values -/

mutual

/-- `a == b`: truth values are numbers, and dictionaries have no order. -/
def eq : Json → Json → Bool
  | .null, .null => true
  | .bool a, .bool b => a = b
  | .bool a, .num n => (if a then 1 else 0) = n
  | .num m, .bool b => m = (if b then 1 else 0)
  | .num m, .num n => m = n
  | .str s, .str t => s = t
  | .arr xs, .arr ys => eqItems xs ys
  | .obj xs, .obj ys => xs.length = ys.length ∧ eqFields xs ys
  | _, _ => false

def eqItems : List Json → List Json → Bool
  | [], [] => true
  | x :: xs, y :: ys => eq x y && eqItems xs ys
  | _, _ => false

/-- Every field of the first dictionary has an equal one in the second. -/
def eqFields : List (String × Json) → List (String × Json) → Bool
  | [], _ => true
  | (k, x) :: xs, ys =>
    (match ys.lookup k with
      | some y => eq x y
      | none => false) && eqFields xs ys

end

/-- `bool(value)` -/
def truthy : Json → Bool
  | .null => false
  | .bool b => b
  | .num n => n ≠ 0
  | .str s => s ≠ ""
  | .arr items => !items.isEmpty
  | .obj fields => !fields.isEmpty

/-- `hash(value)` raises on what can change. -/
def hashable : Json → Except Raised Json
  | .arr _ => .error ⟨"TypeError", "unhashable type: 'list'"⟩
  | .obj _ => .error ⟨"TypeError", "unhashable type: 'dict'"⟩
  | value => .ok value

/-- `path.split(".")` -/
def splitPath : List Char → List (List Char)
  | [] => [[]]
  | c :: cs =>
    if c = '.' then [] :: splitPath cs
    else
      match splitPath cs with
      | part :: parts => (c :: part) :: parts
      | [] => [[c]]

/-- `_get_path` -/
def getPath (value : Document) (path : String) : Json :=
  (splitPath path.toList).foldl (fun current part =>
    match current with
    | .obj fields => (fields.lookup (String.ofList part)).getD .null
    | _ => .null) (.obj value)

/-! ## Conditions -/

section Conditions

variable (lib : Library)

/-- `_normalized` -/
def normalized : Json → Json
  | .str s => .str (lib.casefold (Recovery.strip s))
  | value => value

/-- `_normalized(value) in {_normalized(item) for item in items}` -/
def inSet (value : Json) (items : List Json) : Except Raised Bool := do
  let items ← items.mapM fun item => hashable (normalized lib item)
  let value ← hashable (normalized lib value)
  return items.any (eq value)

/-- `condition_matches` -/
def conditionMatches (condition : TransitionCondition) (captured : Document) : Except Raised Bool :=
  let actual := getPath captured condition.field
  match condition.operator with
  | "eq" => .ok (eq (normalized lib actual) (normalized lib condition.value))
  | "neq" => .ok (!eq (normalized lib actual) (normalized lib condition.value))
  | "in" =>
    match actual, condition.value with
    | .arr items, value => inSet lib value items
    | actual, .arr items => inSet lib actual items
    | _, _ => .ok false
  | "exists" =>
    match actual with
    | .null | .str "" | .arr [] | .obj [] => .ok false
    | _ => .ok true
  | "truthy" => .ok (truthy actual)
  | _ => .ok false

/-- The first of the edges whose condition matches. -/
def firstMatch (captured : Document) : List SwarmEdge → Except Raised (Option SwarmEdge)
  | [] => .ok none
  | edge :: edges => do
    if ← conditionMatches lib edge.condition captured then return some edge
    else firstMatch captured edges

/-- `choose_transition`: highest priority first, and edges of equal priority in
the order of the graph. -/
def chooseTransition (graph : SwarmGraph) (currentNode : String) (captured : Document) :
    Except Raised (Option SwarmEdge) :=
  firstMatch lib captured
    ((graph.edges.filter (·.fromNode = currentNode)).insertionSort (·.priority ≥ ·.priority))

variable {lib}

theorem firstMatch_mem {captured : Document} {edges : List SwarmEdge} {edge : SwarmEdge}
    (h : firstMatch lib captured edges = .ok (some edge)) : edge ∈ edges := by
  induction edges with
  | nil => simp [firstMatch] at h
  | cons e edges ih =>
    simp only [firstMatch] at h
    cases hcond : conditionMatches lib e.condition captured with
    | error x =>
      rw [hcond] at h
      cases h
    | ok b =>
      rw [hcond] at h
      cases b with
      | true =>
        obtain rfl := Option.some.inj (Except.ok.inj h)
        exact List.mem_cons_self
      | false => exact List.mem_cons_of_mem _ (ih h)

/-- Only an edge that leaves the current node is chosen. -/
theorem chooseTransition_ok {graph : SwarmGraph} {currentNode : String} {captured : Document}
    {edge : SwarmEdge} (h : chooseTransition lib graph currentNode captured = .ok (some edge)) :
    edge ∈ graph.edges ∧ edge.fromNode = currentNode := by
  have hmem := List.mem_filter.1 (List.mem_insertionSort _ |>.1 (firstMatch_mem h))
  exact ⟨hmem.1, of_decide_eq_true hmem.2⟩

end Conditions

end Worker

/-! ## The graph of a runtime configuration -/

/-- `TransitionCondition.from_dict` -/
def TransitionCondition.fromDict (condition : TransitionCondition) : TransitionCondition :=
  { condition with operator := if condition.operator = "" then "exists" else condition.operator }

namespace SwarmGraph

/-- `GraphConfig.from_dict` -/
def fromDict (graph : SwarmGraph) : SwarmGraph :=
  { graph with
    edges := graph.edges.map fun edge => { edge with condition := edge.condition.fromDict } }

variable {graph : SwarmGraph}

theorem mem_fromDict_edges {edge : SwarmEdge} :
    edge ∈ graph.fromDict.edges ↔
      ∃ e ∈ graph.edges, { e with condition := e.condition.fromDict } = edge :=
  List.mem_map

/-- Decoding a graph changes nothing but the defaults of its conditions. -/
theorem hasEdge_fromDict {a b : String} : graph.fromDict.HasEdge a b ↔ graph.HasEdge a b := by
  constructor
  · rintro ⟨edge, hedge, hfrom, hto⟩
    obtain ⟨e, he, rfl⟩ := mem_fromDict_edges.1 hedge
    exact ⟨e, he, hfrom, hto⟩
  · rintro ⟨e, he, hfrom, hto⟩
    exact ⟨_, mem_fromDict_edges.2 ⟨e, he, rfl⟩, hfrom, hto⟩

/-- What the worker checks of the decoded graph holds of the stored one. -/
theorem graphIsAcyclic_fromDict (h : graph.fromDict.graphIsAcyclic) :
    graph.HasNode graph.entryNodeKey ∧
      (∀ edge ∈ graph.edges, graph.HasNode edge.fromNode ∧ graph.HasNode edge.toNode) ∧
      Conc.Digraph.Acyclic graph.adjacency := by
  obtain ⟨hentry, hedges, hacyclic⟩ := graphIsAcyclic_iff.1 h
  refine ⟨hentry, fun edge he => hedges { edge with condition := edge.condition.fromDict }
    (mem_fromDict_edges.2 ⟨edge, he, rfl⟩), ?_⟩
  have hadj : graph.fromDict.adjacency = graph.adjacency := by
    funext key
    simp only [adjacency, fromDict, List.filter_map, List.map_map]
    rfl
  rwa [hadj] at hacyclic

end SwarmGraph

end Stylme
