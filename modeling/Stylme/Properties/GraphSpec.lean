-- SUMMARY: The control plane's graph validator decides its specification, except on valid graphs with two edges that read alike around a NUL.
import Stylme.Domain.Graph

/-!
# What the graph validator decides

`ValidateGraph` tells edges apart by the text `from + "\x00" + to`. Node keys are
arbitrary strings and may hold a NUL of their own, so two different edges can
read alike, and a valid graph with two such edges is refused as if it had a
duplicate edge. On every other graph the validator accepts what is valid, and
nothing else.
-/

namespace Stylme

open Conc

namespace SwarmGraph

/-- Two edges that join different nodes but have one key. -/
def Clash (graph : SwarmGraph) : Prop :=
  ∃ edge ∈ graph.edges, ∃ edge' ∈ graph.edges,
    (edge.fromNode, edge.toNode) ≠ (edge'.fromNode, edge'.toNode) ∧ edgeKey edge = edgeKey edge'

instance (graph : SwarmGraph) : Decidable graph.Clash :=
  inferInstanceAs (Decidable (∃ edge ∈ graph.edges, ∃ edge' ∈ graph.edges, _))

/-- Both searches come to an end: with enough fuel the search for a cycle answers
from whatever nodes it is started, in whatever order, and marking marks the same
nodes. -/
structure SearchEnds (graph : SwarmGraph) : Prop where
  visit : ∀ keys : List String, ∃ bound, ∀ fuel ≥ bound,
    (Digraph.visitAll (Digraph.visit graph.adjacency fuel) keys ⟨[], []⟩).isSome
  mark : ∀ entry : String, ∃ bound, ∀ fuel ≥ bound,
    Digraph.mark graph.adjacency fuel entry [] = Digraph.mark graph.adjacency bound entry []

/-- The validator accepts the valid graphs, its searches end, and the worker
finds no cycle in what it accepts. -/
structure Decides (graph : SwarmGraph) : Prop where
  exact : graph.validateGraph = .ok () ↔ graph.Valid
  ends : graph.SearchEnds
  worker : graph.validateGraph = .ok () → graph.graphIsAcyclic = true

variable {graph : SwarmGraph}

/-! ## Termination -/

/-- Wherever a search starts, it stays among the given keys and the targets of edges. -/
theorem closed_targets (keys : List String) :
    Digraph.Closed graph.adjacency (keys ++ graph.edges.map (·.toNode)) := by
  intro v _ w hw
  obtain ⟨edge, hedge, -, rfl⟩ := mem_adjacency.1 hw
  exact List.mem_append_right _ (List.mem_map_of_mem hedge)

theorem searchEnds (graph : SwarmGraph) : graph.SearchEnds where
  visit keys := by
    refine ⟨(keys ++ graph.edges.map (·.toNode)).length + 1, fun fuel hfuel => ?_⟩
    have hclosed : Digraph.Closed graph.adjacency (keys ++ graph.edges.map (·.toNode)) := closed_targets keys
    refine Digraph.visitAll_isSome (V := keys ++ graph.edges.map (·.toNode))
      (fun n m m' => Digraph.visit_finishes) (fun n m => Digraph.visit_isSome hclosed) .empty
      (fun n hn => List.mem_append_left _ hn) ?_
    exact Nat.lt_of_lt_of_le (Nat.lt_succ_of_le (List.length_filter_le _ _)) hfuel
  mark entry := by
    refine ⟨([entry] ++ graph.edges.map (·.toNode)).length + 1, fun fuel hfuel => ?_⟩
    exact Digraph.mark_congr (closed_targets [entry]) List.mem_cons_self
      (Nat.lt_succ_of_le (List.length_filter_le _ _)) hfuel

/-! ## Accepted and valid graphs -/

/-- In a valid graph without a clash all edge keys differ. -/
theorem nodup_edgeKey (hvalid : graph.Valid) (hclash : ¬ graph.Clash) :
    (graph.edges.map edgeKey).Nodup := by
  have hends := List.pairwise_map.1 hvalid.simple
  refine List.pairwise_map.2 (hends.imp_of_mem fun {edge edge'} hedge hedge' hne hkey => ?_)
  exact hclash ⟨edge, hedge, edge', hedge', hne, hkey⟩

theorem not_nodup_edgeKey (hclash : graph.Clash) : ¬ (graph.edges.map edgeKey).Nodup := by
  obtain ⟨edge, hedge, edge', hedge', hne, hkey⟩ := hclash
  intro hnodup
  exact hne (congrArg (fun e : SwarmEdge => (e.fromNode, e.toNode))
    (List.inj_on_of_nodup_map hnodup hedge hedge' hkey))

/-- The worker checks nothing that the control plane has not checked. -/
theorem graphIsAcyclic_of_valid (h : graph.Valid) : graph.graphIsAcyclic = true :=
  graphIsAcyclic_iff.2 ⟨h.entry, h.edges, h.acyclic⟩

/-- The validator decides its specification, except on a valid graph with a clash. -/
theorem decides_iff : graph.Decides ↔ ¬ (graph.Valid ∧ graph.Clash) := by
  constructor
  · rintro ⟨hexact, -, -⟩ ⟨hvalid, hclash⟩
    exact not_nodup_edgeKey hclash (validateGraph_ok_iff.1 (hexact.2 hvalid)).2
  · intro h
    refine ⟨⟨fun hok => (validateGraph_ok_iff.1 hok).1, fun hvalid => ?_⟩, searchEnds graph,
      fun hok => graphIsAcyclic_of_valid (validateGraph_ok_iff.1 hok).1⟩
    exact validateGraph_ok_iff.2 ⟨hvalid, nodup_edgeKey hvalid fun hclash => h ⟨hvalid, hclash⟩⟩

end SwarmGraph

/-! ## A valid graph that is refused -/

namespace Sample

/-- The edges `a → b⎵c` and `a⎵b → c`, with a NUL for `⎵`, have one key. -/
def clashing : SwarmGraph where
  entryNodeKey := "a"
  nodes := ["a", "a\x00b", "b\x00c", "c"].map fun key => ⟨key, "agent_1"⟩
  edges := [("a", "a\x00b"), ("a", "b\x00c"), ("a\x00b", "c")].map fun (a, b) =>
    ⟨a, b, 10, ⟨"intent", "truthy", .null⟩, ""⟩

theorem clashing_valid : clashing.Valid := by
  have hclosed : Digraph.Closed clashing.adjacency (clashing.nodes.map (·.key)) :=
    SwarmGraph.closed_adjacency (by decide)
  refine {
    nonempty := by decide
    nodes := by decide
    distinct := by decide
    entry := by decide
    edges := by decide
    irrefl := by decide
    conditions := by decide
    simple := by decide
    acyclic := SwarmGraph.acyclic_of_nodes (by decide)
      ((Digraph.acyclic_iff hclosed).1 (by decide))
    reachable := fun node hnode => ?_ }
  exact (SwarmGraph.length_reachable_iff (by decide) hclosed (by decide)).1 (by decide) _
    (List.mem_map_of_mem hnode)

end Sample

theorem not_decides_clashing : ¬ Sample.clashing.Decides := by
  rintro ⟨hexact, -, -⟩
  have hrefused : Sample.clashing.validateGraph ≠ .ok () := by decide
  exact hrefused (hexact.2 Sample.clashing_valid)

end Stylme
