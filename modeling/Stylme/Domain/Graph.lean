-- SUMMARY: Validation of swarm graphs, in the control plane and in the voice worker, and what an accepted graph looks like.
import Mathlib.Data.List.Perm.Subperm
import Stylme.Domain.Models
import Stylme.Lib.Digraph

/-!
# Swarm graphs

`ValidateGraph` of `internal/domain/graph.go`, `graphAgentID` of
`internal/service/service.go` and `graph_is_acyclic` of the worker's
`app/graph.py`. The two validators share the depth-first search of
`Conc.Digraph`; they differ in everything around it.
-/

namespace Stylme

open Conc

/-! ## Error texts -/

/-- One character inside a `%q` verb. -/
def quoteChar (c : Char) : List Char :=
  if c = '"' then ['\\', '"']
  else if c = '\\' then ['\\', '\\']
  else if c = '\n' then ['\\', 'n']
  else if c = '\r' then ['\\', 'r']
  else if c = '\t' then ['\\', 't']
  else if c.toNat < 0x20 ∨ c.toNat = 0x7f then
    ['\\', 'x', Nat.digitChar (c.toNat / 16), Nat.digitChar (c.toNat % 16)]
  else [c]

/-- The `%q` verb of `fmt.Errorf`. -/
def quote (s : String) : String := String.ofList ('"' :: s.toList.flatMap quoteChar ++ ['"'])

namespace SwarmGraph

/-! ## The control plane's validator -/

/-- The `nodes` map of `ValidateGraph`, or the first node error. -/
def checkNodes : List SwarmNode → List String → Except String (List String)
  | [], nodes => .ok nodes
  | node :: rest, nodes =>
    if node.key = "" ∨ node.agentID = "" then .error "each graph node needs key and agentId"
    else if node.key ∈ nodes then .error ("duplicate node key " ++ quote node.key)
    else checkNodes rest (nodes ++ [node.key])

/-- `edgeKey` of `ValidateGraph`. -/
def edgeKey (edge : SwarmEdge) : String := edge.fromNode ++ "\x00" ++ edge.toNode

/-- The first edge error; `edges` holds the keys of the edges already seen. -/
def checkEdges (nodes : List String) : List SwarmEdge → List String → Except String Unit
  | [], _ => .ok ()
  | edge :: rest, edges =>
    if edge.fromNode ∉ nodes then .error ("edge source " ++ quote edge.fromNode ++ " does not exist")
    else if edge.toNode ∉ nodes then .error ("edge target " ++ quote edge.toNode ++ " does not exist")
    else if edge.fromNode = edge.toNode then .error "self edges are not allowed"
    else if edge.condition.field = "" ∨ edge.condition.operator = "" then
      .error "each edge needs a condition field and operator"
    else if edgeKey edge ∈ edges then
      .error ("duplicate edge from " ++ quote edge.fromNode ++ " to " ++ quote edge.toNode)
    else checkEdges nodes rest (edgeKey edge :: edges)

/-- `adjacency[key]`: the targets of the edges leaving `key`, in edge order. -/
def adjacency (graph : SwarmGraph) (key : String) : List String :=
  (graph.edges.filter (·.fromNode = key)).map (·.toNode)

/-- `domain.ValidateGraph`. Go visits the nodes in random order; the verdict of
the search does not depend on it (`Conc.Digraph.acyclic_iff`). -/
def validateGraph (graph : SwarmGraph) : Except String Unit :=
  if graph.nodes = [] then .error "graph must contain at least one node"
  else
    match checkNodes graph.nodes [] with
    | .error e => .error e
    | .ok nodes =>
      if graph.entryNodeKey ∉ nodes then
        .error ("entry node " ++ quote graph.entryNodeKey ++ " does not exist")
      else
        match checkEdges nodes graph.edges [] with
        | .error e => .error e
        | .ok () =>
          if ¬ Digraph.acyclic graph.adjacency nodes then .error "graph must be acyclic"
          else if (Digraph.reachable graph.adjacency nodes graph.entryNodeKey).length ≠ nodes.length then
            .error "every graph node must be reachable from the entry node"
          else .ok ()

/-- `graphAgentID` -/
def graphAgentID (graph : SwarmGraph) (nodeKey : String) : Except String String :=
  match graph.nodes.find? (·.key = nodeKey) with
  | some node => .ok node.agentID
  | none => .error ("graph node " ++ quote nodeKey ++ " is unavailable")

/-! ## The worker's validator -/

/-- `graph_is_acyclic` of the voice worker, over the set of the node keys. -/
def graphIsAcyclic (graph : SwarmGraph) : Bool :=
  let nodes := (graph.nodes.map (·.key)).dedup
  if nodes = [] ∨ graph.entryNodeKey ∉ nodes then false
  else if graph.edges.any (fun edge => edge.fromNode ∉ nodes ∨ edge.toNode ∉ nodes) then false
  else Digraph.acyclic graph.adjacency nodes

/-! ## Accepted graphs -/

/-- `key` is the key of a node. -/
def HasNode (graph : SwarmGraph) (key : String) : Prop := ∃ node ∈ graph.nodes, node.key = key

instance (graph : SwarmGraph) (key : String) : Decidable (graph.HasNode key) :=
  inferInstanceAs (Decidable (∃ node ∈ graph.nodes, node.key = key))

/-- There is an edge from `a` to `b`. -/
def HasEdge (graph : SwarmGraph) (a b : String) : Prop :=
  ∃ edge ∈ graph.edges, edge.fromNode = a ∧ edge.toNode = b

instance (graph : SwarmGraph) (a b : String) : Decidable (graph.HasEdge a b) :=
  inferInstanceAs (Decidable (∃ edge ∈ graph.edges, edge.fromNode = a ∧ edge.toNode = b))

/-- What both sides need of a graph apart from its entry node. -/
structure Runnable (graph : SwarmGraph) : Prop where
  agents : ∀ node ∈ graph.nodes, node.agentID ≠ ""
  edges : ∀ edge ∈ graph.edges, graph.HasNode edge.fromNode ∧ graph.HasNode edge.toNode
  acyclic : Digraph.Acyclic graph.adjacency

/-- What `ValidateGraph` is there to check. -/
structure Valid (graph : SwarmGraph) : Prop where
  nonempty : graph.nodes ≠ []
  nodes : ∀ node ∈ graph.nodes, node.key ≠ "" ∧ node.agentID ≠ ""
  distinct : (graph.nodes.map (·.key)).Nodup
  entry : graph.HasNode graph.entryNodeKey
  edges : ∀ edge ∈ graph.edges, graph.HasNode edge.fromNode ∧ graph.HasNode edge.toNode
  irrefl : ∀ edge ∈ graph.edges, edge.fromNode ≠ edge.toNode
  conditions : ∀ edge ∈ graph.edges, edge.condition.field ≠ "" ∧ edge.condition.operator ≠ ""
  simple : (graph.edges.map fun edge => (edge.fromNode, edge.toNode)).Nodup
  acyclic : Digraph.Acyclic graph.adjacency
  reachable : ∀ node ∈ graph.nodes,
    Relation.ReflTransGen (Digraph.Edge graph.adjacency) graph.entryNodeKey node.key

variable {graph : SwarmGraph}

theorem mem_adjacency {a b : String} : b ∈ graph.adjacency a ↔ graph.HasEdge a b := by
  simp only [adjacency, HasEdge, List.mem_map, List.mem_filter, decide_eq_true_eq, and_assoc]

theorem hasNode_iff_mem_keys {key : String} :
    graph.HasNode key ↔ key ∈ graph.nodes.map (·.key) := by
  simp only [HasNode, List.mem_map]

theorem graphAgentID_ok_iff {key : String} :
    (∃ agentID, graph.graphAgentID key = .ok agentID) ↔ graph.HasNode key := by
  unfold graphAgentID
  cases h : graph.nodes.find? (·.key = key) with
  | some node =>
    have hkey := List.find?_some h
    exact ⟨fun _ => ⟨node, List.mem_of_find?_eq_some h, by simpa using hkey⟩, fun _ => ⟨_, rfl⟩⟩
  | none =>
    refine ⟨fun ⟨_, h⟩ => by simp at h, fun ⟨node, hnode, hkey⟩ => ?_⟩
    exact absurd hkey (by simpa using List.find?_eq_none.1 h node hnode)

/-- A node that is not there is reported under its key. -/
theorem graphAgentID_error {key e : String} (h : graph.graphAgentID key = .error e) :
    ¬ graph.HasNode key ∧ e = "graph node " ++ quote key ++ " is unavailable" := by
  refine ⟨fun hn => ?_, ?_⟩
  · obtain ⟨agentID, hok⟩ := graphAgentID_ok_iff.2 hn
    rw [h] at hok
    cases hok
  · unfold graphAgentID at h
    split at h
    · cases h
    · exact (Except.error.inj h).symm

/-! ## What `validateGraph` accepts -/

theorem checkNodes_ok_iff {l : List SwarmNode} {seen nodes : List String} :
    checkNodes l seen = .ok nodes ↔ nodes = seen ++ l.map (·.key) ∧
      (∀ node ∈ l, node.key ≠ "" ∧ node.agentID ≠ "") ∧
      (l.map (·.key)).Nodup ∧ ∀ node ∈ l, node.key ∉ seen := by
  induction l generalizing seen with
  | nil => simpa [checkNodes] using eq_comm
  | cons node rest ih =>
    simp only [checkNodes, List.map_cons, List.nodup_cons, List.mem_cons, forall_eq_or_imp]
    split
    · rename_i hempty
      exact ⟨nofun, fun h => absurd hempty (not_or.2 h.2.1.1)⟩
    split
    · rename_i hseen
      exact ⟨nofun, fun h => absurd hseen h.2.2.2.1⟩
    · rename_i hne hseen
      have hnot : (∀ n ∈ rest, n.key ∉ seen ++ [node.key]) ↔
          node.key ∉ rest.map (·.key) ∧ ∀ n ∈ rest, n.key ∉ seen := by
        simp only [List.mem_append, List.mem_singleton, not_or, forall_and, List.mem_map,
          not_exists, not_and]
        tauto
      have hnode := not_or.1 hne
      rw [ih, hnot, List.append_assoc, List.singleton_append]
      tauto

/-- An edge passes when it joins two nodes under a condition and its key is new. -/
theorem checkEdges_ok_iff {nodes : List String} {l : List SwarmEdge} {seen : List String} :
    checkEdges nodes l seen = .ok () ↔
      (∀ edge ∈ l, edge.fromNode ∈ nodes ∧ edge.toNode ∈ nodes ∧ edge.fromNode ≠ edge.toNode ∧
        edge.condition.field ≠ "" ∧ edge.condition.operator ≠ "") ∧
      (l.map edgeKey).Nodup ∧ ∀ edge ∈ l, edgeKey edge ∉ seen := by
  induction l generalizing seen with
  | nil => simp [checkEdges]
  | cons edge rest ih =>
    simp only [checkEdges, List.map_cons, List.nodup_cons, List.mem_cons, forall_eq_or_imp]
    split
    · rename_i hbad
      exact ⟨nofun, fun h => absurd h.1.1.1 hbad⟩
    split
    · rename_i hbad
      exact ⟨nofun, fun h => absurd h.1.1.2.1 hbad⟩
    split
    · rename_i hbad
      exact ⟨nofun, fun h => absurd hbad h.1.1.2.2.1⟩
    split
    · rename_i hbad
      exact ⟨nofun, fun h => absurd hbad (not_or.2 h.1.1.2.2.2)⟩
    split
    · rename_i hbad
      exact ⟨nofun, fun h => absurd hbad h.2.2.1⟩
    · rename_i hfrom hto hself hcond hnew
      have hnot : (∀ e ∈ rest, edgeKey e ∉ edgeKey edge :: seen) ↔
          edgeKey edge ∉ rest.map edgeKey ∧ ∀ e ∈ rest, edgeKey e ∉ seen := by
        simp only [List.mem_cons, not_or, forall_and, List.mem_map, not_exists, not_and]
      have hcond := not_or.1 hcond
      rw [ih, hnot]
      tauto

theorem closed_adjacency {keys : List String}
    (h : ∀ edge ∈ graph.edges, edge.fromNode ∈ keys ∧ edge.toNode ∈ keys) :
    Digraph.Closed graph.adjacency keys := by
  intro v _ w hw
  obtain ⟨edge, he, rfl, rfl⟩ := mem_adjacency.1 hw
  exact (h edge he).2

/-- A cycle runs through sources of edges, hence through nodes. -/
theorem acyclic_of_nodes {keys : List String}
    (hedges : ∀ edge ∈ graph.edges, edge.fromNode ∈ keys ∧ edge.toNode ∈ keys)
    (h : ∀ v ∈ keys, ¬ Relation.TransGen (Digraph.Edge graph.adjacency) v v) :
    Digraph.Acyclic graph.adjacency := by
  intro v hcycle
  obtain ⟨w, hvw, -⟩ := Relation.TransGen.head'_iff.1 hcycle
  obtain ⟨edge, he, rfl, -⟩ := mem_adjacency.1 hvw
  exact h _ (hedges edge he).1 hcycle

/-- The keys of two edges differ only if the edges do. -/
theorem simple_of_edgeKey (h : (graph.edges.map edgeKey).Nodup) :
    (graph.edges.map fun edge => (edge.fromNode, edge.toNode)).Nodup := by
  refine List.Nodup.of_map (fun p => p.1 ++ "\x00" ++ p.2) ?_
  rw [List.map_map]
  exact h

/-- The marked nodes are as many as the nodes when each node is marked. -/
theorem length_reachable_iff {keys : List String} (hkeys : keys.Nodup)
    (hclosed : Digraph.Closed graph.adjacency keys) {entry : String} (hentry : entry ∈ keys) :
    (Digraph.reachable graph.adjacency keys entry).length = keys.length ↔
      ∀ key ∈ keys, Relation.ReflTransGen (Digraph.Edge graph.adjacency) entry key := by
  have hmem := fun {v} => Digraph.mem_reachable hclosed hentry (v := v)
  have hnodup := Digraph.nodup_reachable hclosed hentry
  have hsub : Digraph.reachable graph.adjacency keys entry ⊆ keys := by
    intro v hv
    induction hmem.1 hv with
    | refl => exact hentry
    | tail hreach hedge ih => exact hclosed _ (ih (hmem.2 hreach)) _ hedge
  constructor
  · intro hlength key hkey
    have hperm := (List.subperm_of_subset hnodup hsub).perm_of_length_le hlength.ge
    exact hmem.1 (hperm.mem_iff.2 hkey)
  · intro h
    exact le_antisymm (List.subperm_of_subset hnodup hsub).length_le
      (List.subperm_of_subset hkeys fun key hkey => hmem.2 (h key hkey)).length_le

/-- The validator accepts the valid graphs whose edges have different keys. -/
theorem validateGraph_ok_iff :
    graph.validateGraph = .ok () ↔ graph.Valid ∧ (graph.edges.map edgeKey).Nodup := by
  have hmem : ∀ {key}, key ∈ graph.nodes.map (·.key) ↔ graph.HasNode key :=
    hasNode_iff_mem_keys.symm
  unfold validateGraph
  split
  · rename_i hnil
    exact ⟨nofun, fun h => absurd hnil h.1.nonempty⟩
  rename_i hnonempty
  split
  · rename_i e hnodes
    refine ⟨nofun, fun ⟨h, _⟩ => ?_⟩
    rw [checkNodes_ok_iff.2 ⟨rfl, h.nodes, h.distinct, fun _ _ => List.not_mem_nil⟩] at hnodes
    cases hnodes
  rename_i keys hnodes
  obtain ⟨rfl, hnodes, hdistinct, -⟩ := checkNodes_ok_iff.1 hnodes
  simp only [List.nil_append]
  split
  · rename_i hentry
    exact ⟨nofun, fun h => absurd (hmem.2 h.1.entry) hentry⟩
  rename_i hentry
  have hentry := not_not.1 hentry
  split
  · rename_i e hedges
    refine ⟨nofun, fun ⟨h, hkeys⟩ => ?_⟩
    rw [checkEdges_ok_iff.2 ⟨fun edge he => ⟨hmem.2 (h.edges edge he).1, hmem.2 (h.edges edge he).2,
      h.irrefl edge he, h.conditions edge he⟩, hkeys, fun _ _ => List.not_mem_nil⟩] at hedges
    cases hedges
  rename_i hedges
  obtain ⟨hedges, hkeys, -⟩ := checkEdges_ok_iff.1 hedges
  have hends : ∀ edge ∈ graph.edges, edge.fromNode ∈ graph.nodes.map (·.key) ∧
      edge.toNode ∈ graph.nodes.map (·.key) := fun edge he => ⟨(hedges edge he).1, (hedges edge he).2.1⟩
  have hclosed := closed_adjacency hends
  split
  · rename_i hcyclic
    refine ⟨nofun, fun ⟨h, _⟩ => absurd ?_ hcyclic⟩
    exact (Digraph.acyclic_iff hclosed).2 fun v _ => h.acyclic v
  rename_i hacyclic
  have hacyclic := acyclic_of_nodes hends ((Digraph.acyclic_iff hclosed).1 (not_not.1 hacyclic))
  split
  · rename_i hlength
    refine ⟨nofun, fun ⟨h, _⟩ => absurd ?_ hlength⟩
    refine (length_reachable_iff hdistinct hclosed hentry).2 fun key hkey => ?_
    obtain ⟨node, hnode, rfl⟩ := List.mem_map.1 hkey
    exact h.reachable node hnode
  rename_i hlength
  have hreach := (length_reachable_iff hdistinct hclosed hentry).1 (not_not.1 hlength)
  exact ⟨fun _ => ⟨{
      nonempty := hnonempty
      nodes := hnodes
      distinct := hdistinct
      entry := hmem.1 hentry
      edges := fun edge he => ⟨hmem.1 (hends edge he).1, hmem.1 (hends edge he).2⟩
      irrefl := fun edge he => (hedges edge he).2.2.1
      conditions := fun edge he => (hedges edge he).2.2.2
      simple := simple_of_edgeKey hkeys
      acyclic := hacyclic
      reachable := fun node hnode => hreach _ (List.mem_map_of_mem hnode) }, hkeys⟩, fun _ => rfl⟩

/-- A graph the control plane accepts is runnable from its entry node. -/
theorem validateGraph_ok (h : graph.validateGraph = .ok ()) :
    graph.Runnable ∧ graph.HasNode graph.entryNodeKey := by
  obtain ⟨hvalid, -⟩ := validateGraph_ok_iff.1 h
  exact ⟨⟨fun node hnode => (hvalid.nodes node hnode).2, hvalid.edges, hvalid.acyclic⟩, hvalid.entry⟩

/-! ## What `graphIsAcyclic` accepts -/

theorem graphIsAcyclic_iff :
    graph.graphIsAcyclic = true ↔ graph.HasNode graph.entryNodeKey ∧
      (∀ edge ∈ graph.edges, graph.HasNode edge.fromNode ∧ graph.HasNode edge.toNode) ∧
      Digraph.Acyclic graph.adjacency := by
  have hmem : ∀ {k}, k ∈ (graph.nodes.map (·.key)).dedup ↔ graph.HasNode k := by
    simp [HasNode]
  unfold graphIsAcyclic
  simp only
  split
  · rename_i hentry
    refine ⟨fun h => by simp at h, fun ⟨h, _⟩ => ?_⟩
    rcases hentry with hnil | hentry
    · rw [← hmem, hnil] at h
      exact absurd h List.not_mem_nil
    · exact absurd (hmem.2 h) hentry
  rename_i hentry
  have hentry := hmem.1 (not_not.1 (not_or.1 hentry).2)
  split
  · rename_i hany
    obtain ⟨edge, he, hbad⟩ := List.any_eq_true.1 hany
    refine ⟨fun h => by simp at h, fun ⟨_, h, _⟩ => ?_⟩
    rcases of_decide_eq_true hbad with hbad | hbad
    · exact absurd (hmem.2 (h edge he).1) hbad
    · exact absurd (hmem.2 (h edge he).2) hbad
  rename_i hany
  have hedges : ∀ edge ∈ graph.edges, edge.fromNode ∈ (graph.nodes.map (·.key)).dedup ∧
      edge.toNode ∈ (graph.nodes.map (·.key)).dedup := by
    intro edge he
    by_contra hbad
    exact hany (List.any_eq_true.2 ⟨edge, he, decide_eq_true (not_and_or.1 hbad)⟩)
  rw [Digraph.acyclic_iff (closed_adjacency hedges)]
  constructor
  · exact fun h => ⟨hentry, fun edge he => ⟨hmem.1 (hedges edge he).1, hmem.1 (hedges edge he).2⟩,
      acyclic_of_nodes hedges h⟩
  · exact fun ⟨_, _, h⟩ v _ => h v

end SwarmGraph

end Stylme
