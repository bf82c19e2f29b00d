-- SUMMARY: The agent trace of a call is a path through its graph from the entry node to the current node, and only its last entry is open.
import Mathlib.Data.List.Chain
import Mathlib.Data.List.Perm.Subperm
import Stylme.Service.Claims

/-!
# Traces are paths

A call starts at the entry node of its snapshot. The dispatcher, or the creation
of an inbound call, opens the trace there, and every accepted handoff leaves the
last entry and enters the target of an edge. Each document that is written
extends the trace of the copy it was made from, so all of this also holds when
handoffs run concurrently with each other and with everything else.
-/

namespace Stylme

open Conc

theorem AgentTrace.exit_nodeKey {t : AgentTrace} {now : Time} {reason : Option String} :
    (t.exit now reason).nodeKey = t.nodeKey := by
  unfold AgentTrace.exit; split <;> rfl

theorem AgentTrace.exit_exitedAt {t : AgentTrace} {now : Time} {reason : Option String} :
    (t.exit now reason).exitedAt ≠ none := by
  unfold AgentTrace.exit
  split
  · exact Option.some_ne_none _
  · assumption

/-! ## Trails -/

/-- Entries along edges from the entry node, of which all but the last were left. -/
structure SwarmGraph.Trail (graph : SwarmGraph) (left : List AgentTrace) (last : AgentTrace) :
    Prop where
  exited : ∀ t ∈ left, t.exitedAt ≠ none
  starts : ((left ++ [last]).map (·.nodeKey)).head? = some graph.entryNodeKey
  path : ((left ++ [last]).map (·.nodeKey)).IsChain graph.HasEdge
  nodes : ∀ t ∈ left ++ [last], graph.HasNode t.nodeKey

namespace SwarmGraph.Trail

variable {graph : SwarmGraph} {left : List AgentTrace} {last : AgentTrace}

theorem single (hlast : last.nodeKey = graph.entryNodeKey) (hnode : graph.HasNode last.nodeKey) :
    graph.Trail [] last where
  exited _ h := absurd h List.not_mem_nil
  starts := congrArg some hlast
  path := .singleton _
  nodes t ht := by rwa [List.mem_singleton.1 ht]

/-- Leaving the last entry keeps the path. -/
theorem exit {now : Time} {reason : Option String} (h : graph.Trail left last) :
    graph.Trail left (last.exit now reason) := by
  have hkeys : (left ++ [last.exit now reason]).map (·.nodeKey) =
      (left ++ [last]).map (·.nodeKey) := by
    simp only [List.map_append, List.map_cons, List.map_nil, AgentTrace.exit_nodeKey]
  refine ⟨h.exited, hkeys ▸ h.starts, hkeys ▸ h.path, fun t ht => ?_⟩
  rcases List.mem_append.1 ht with ht | ht
  · exact h.nodes t (List.mem_append_left _ ht)
  · rw [List.mem_singleton.1 ht, AgentTrace.exit_nodeKey]
    exact h.nodes last (List.mem_append_right _ (List.mem_singleton_self _))

/-- Entering the target of an edge from the last entry extends the path. -/
theorem enter {next : AgentTrace} (h : graph.Trail left last) (hlast : last.exitedAt ≠ none)
    (hedge : graph.HasEdge last.nodeKey next.nodeKey) (hnode : graph.HasNode next.nodeKey) :
    graph.Trail (left ++ [last]) next where
  exited t ht := by
    rcases List.mem_append.1 ht with ht | ht
    · exact h.exited t ht
    · rwa [List.mem_singleton.1 ht]
  starts := by
    rw [List.map_append, List.head?_append, h.starts]
    rfl
  path := by
    rw [List.map_append]
    refine h.path.append (.singleton _) fun a ha b hb => ?_
    simp only [List.map_append, List.map_cons, List.map_nil, List.getLast?_append,
      List.getLast?_singleton, Option.some_or, Option.mem_some_iff] at ha
    simp only [List.map_cons, List.map_nil, List.head?_cons, Option.mem_some_iff] at hb
    exact ha ▸ hb ▸ hedge
  nodes t ht := by
    rcases List.mem_append.1 ht with ht | ht
    · exact h.nodes t ht
    · rwa [List.mem_singleton.1 ht]

end SwarmGraph.Trail

/-! ## Traced calls -/

/-- The call is at its entry node and its trace is not opened yet, or its trace
is a trail to its current node, where it is open until the call ends. -/
inductive Call.Traced (c : Call) : Prop where
  | unopened (htrace : c.agentTrace = []) (hnode : c.currentNodeKey = c.graphSnapshot.entryNodeKey)
  | opened (left : List AgentTrace) (last : AgentTrace) (htrace : c.agentTrace = left ++ [last])
      (htrail : c.graphSnapshot.Trail left last) (hnode : last.nodeKey = c.currentNodeKey)
      (hopen : ¬ c.status.terminal → last.exitedAt = none)

namespace Call.Traced

variable {c x : Call}

/-- A write that leaves trace, node and graph alone and does not revive the call. -/
theorem of_eq (h : c.Traced) (htrace : x.agentTrace = c.agentTrace)
    (hnode : x.currentNodeKey = c.currentNodeKey) (hgraph : x.graphSnapshot = c.graphSnapshot)
    (hstatus : c.status.terminal → x.status.terminal) : x.Traced := by
  cases h with
  | unopened htrace' hnode' => exact .unopened (htrace.trans htrace') (by rw [hnode, hgraph, hnode'])
  | opened left last htrace' htrail hnode' hopen =>
    refine .opened left last (htrace.trans htrace') (hgraph ▸ htrail) (hnode'.trans hnode.symm) ?_
    exact fun hx => hopen fun hc => hx (hstatus hc)

theorem dispatchFailed {cause : Err} {now : Time} (h : c.Traced) (hstatus : ¬ c.status.terminal) :
    (c.dispatchFailed cause now).Traced := by
  unfold Call.dispatchFailed
  split <;> exact h.of_eq rfl rfl rfl fun hc => absurd hc hstatus

/-- The dispatcher opens an empty trace at the entry node. -/
theorem ringing {room : String} {now : Time} (h : c.Traced) (hstatus : ¬ c.status.terminal) :
    (c.ringing room now).Traced := by
  cases h with
  | unopened htrace hnode =>
    cases hagent : c.graphSnapshot.graphAgentID c.currentNodeKey with
    | error e =>
      exact .unopened (by simp only [Call.ringing, Call.openedTrace, htrace, if_true, hagent]) hnode
    | ok agentID =>
      refine .opened [] (.enter c.currentNodeKey agentID now) ?_ (.single hnode ?_) rfl fun _ => rfl
      · simp only [Call.ringing, Call.openedTrace, htrace, if_true, hagent, List.nil_append]
      · exact SwarmGraph.graphAgentID_ok_iff.1 ⟨agentID, hagent⟩
  | opened left last htrace htrail hnode hopen =>
    refine .opened left last ?_ htrail hnode fun _ => hopen hstatus
    rw [Call.ringing, Call.openedTrace, if_neg (by simp [htrace]), htrace]

theorem closed {transcript : List TranscriptTurn} {failure : Option Document} {now : Time}
    (h : c.Traced) : (c.closed transcript failure now).Traced := by
  have hended : (completionStatus failure).terminal := by
    unfold completionStatus
    split <;> rfl
  cases h with
  | unopened htrace hnode => exact .unopened (by rw [Call.closed, htrace]; rfl) hnode
  | opened left last htrace htrail hnode hopen =>
    refine .opened left (last.exit now none) ?_ htrail.exit (AgentTrace.exit_nodeKey.trans hnode) ?_
    · rw [Call.closed, htrace, List.modifyLast_concat]
    · exact fun hlive => absurd hended hlive

/-- An accepted handoff leaves the last entry and enters the target. -/
theorem handedOff {request : HandoffRequest} (h : c.Traced) (hx : request.Writes c x) : x.Traced := by
  obtain ⟨hstatus, hnode, hedge, fromAgentID, toAgentID, now, hagents, rfl⟩ := hx
  have hto : c.graphSnapshot.HasNode request.toNode := by
    unfold Call.handoffAgents at hagents
    split at hagents
    · cases hagents
    · rename_i agentID hagent
      exact SwarmGraph.graphAgentID_ok_iff.1 ⟨agentID, hagent⟩
  -- the trace before the handoff, opened at the source where it was empty
  obtain ⟨left, last, hopened, htrail, hlast⟩ : ∃ left last,
      (if c.agentTrace = [] then [.enter request.fromNode fromAgentID now] else c.agentTrace) =
        left ++ [last] ∧ c.graphSnapshot.Trail left last ∧ last.nodeKey = request.fromNode := by
    cases h with
    | unopened htrace hentry =>
      refine ⟨[], _, if_pos htrace, .single (hnode.symm.trans hentry) ?_, rfl⟩
      unfold Call.handoffAgents at hagents
      split at hagents
      · cases hagents
      rw [if_pos htrace] at hagents
      split at hagents
      · cases hagents
      · rename_i agentID hagent
        exact SwarmGraph.graphAgentID_ok_iff.1 ⟨agentID, hagent⟩
    | opened left last htrace htrail hcurrent =>
      exact ⟨left, last, by rw [if_neg (by simp [htrace]), htrace], htrail, hcurrent.trans hnode⟩
  refine .opened (left ++ [last.exit now (some (trimSpace request.reason))])
    (.enter request.toNode toAgentID now) ?_ ?_ rfl fun _ => rfl
  · simp only [Call.handedOff, Call.handoffTrace, hopened, List.modifyLast_concat]
  · refine htrail.exit.enter AgentTrace.exit_exitedAt ?_ hto
    rw [AgentTrace.exit_nodeKey, hlast]
    exact hedge

end Call.Traced

/-! ## Created calls -/

/-- Every operation that creates a call places it at the entry node of its snapshot. -/
theorem Op.starts_traced {op : Op} {ids : List String} {x : Call}
    (h : op.starts ids (.saveCall x) ∨ ∃ xs, op.starts ids (.insertCalls xs) ∧ x ∈ xs) :
    x.currentNodeKey = x.graphSnapshot.entryNodeKey ∧ x.Traced := by
  rcases h with ⟨-, ⟨request, swarm, key, number, now, -, -, hx⟩ |
    ⟨request, swarm, agentID, now, -, -, hagent, hx⟩⟩ | ⟨xs, hxs, hmem⟩
  · rw [hx]
    exact ⟨rfl, .unopened rfl rfl⟩
  · rw [hx]
    refine ⟨rfl, .opened [] _ rfl (.single rfl ?_) rfl fun _ => rfl⟩
    exact SwarmGraph.graphAgentID_ok_iff.1 ⟨agentID, hagent⟩
  · obtain ⟨-, target, campaign, swarm, now, hx⟩ := hxs.2 x hmem
    rw [hx]
    exact ⟨rfl, .unopened rfl rfl⟩

namespace ControlPlane

/-- All calls are traced, in the store and in every copy; held calls are live. -/
structure Tracing (cfg : View) : Prop where
  stored : ∀ d ∈ cfg.shared.calls, d.Traced
  copies : ∀ {t op l b c}, cfg.view t = some ⟨op, l, b⟩ → l.call = some c → c.Traced
  live : ∀ {t op l b c}, cfg.view t = some ⟨op, l, b⟩ → l.held = some c → ¬ c.status.terminal

variable {platform : Platform DirectCallRequest} {ok : State → Step → Prop} {s₀ : World} {σ : State}

section Exec

variable {cfg : View} {t : ℕ} {op : Op} {l : Phase} {cmd : Cmd} {r : Resp cmd} {o : Oracle} {w : World}

/-- What an operation writes is traced. -/
theorem Tracing.written (h : Tracing cfg) (ht : cfg.view t = some ⟨op, l, true⟩) {x : Call}
    (hpermits : op.permits l (.saveCall x)) : x.Traced := by
  cases l with
  | start ids => exact (Op.starts_traced (.inl hpermits)).2
  | gating c campaign =>
    obtain ⟨scheduledAt, now, rfl⟩ := hpermits
    exact (h.copies ht rfl).of_eq rfl rfl rfl fun hc => absurd hc (h.live ht rfl)
  | cancelling c =>
    obtain ⟨reason, now, rfl⟩ := hpermits
    exact (h.copies ht rfl).of_eq rfl rfl rfl fun _ => rfl
  | failing c =>
    obtain ⟨cause, now, rfl⟩ := hpermits
    exact (h.copies ht rfl).dispatchFailed (h.live ht rfl)
  | answered c room =>
    obtain ⟨now, rfl⟩ := hpermits
    exact (h.copies ht rfl).ringing (h.live ht rfl)
  | copied c =>
    rcases hpermits with ⟨request, -, hx⟩ | ⟨request, -, now, d, f, rfl⟩
    · exact (h.copies ht rfl).handedOff hx
    · have hclosed : (c.closed request.transcript request.failure now).Traced :=
        (h.copies ht rfl).closed
      exact hclosed.of_eq rfl rfl rfl id
  | _ => exact hpermits.elim

theorem Tracing.stored_exec (h : Tracing cfg) (ht : cfg.view t = some ⟨op, l, true⟩)
    (hpermits : op.permits l cmd) (hexec : cmd.exec o cfg.shared = some (r, w)) :
    ∀ d ∈ w.calls, d.Traced := by
  intro d hd
  rcases exec_mem hexec hd with hold | rfl | ⟨xs, rfl, hxs, -⟩ | ⟨now, lease, e, rfl, he, hclaim, rfl⟩
  · exact h.stored d hold
  · exact h.written ht hpermits
  · cases l with
    | start ids => exact (Op.starts_traced (.inr ⟨xs, hpermits, hxs⟩)).2
    | _ => exact hpermits.elim
  · refine (h.stored e he).of_eq rfl rfl rfl fun hended => ?_
    simp only [Call.claimable, decide_eq_true_eq] at hclaim
    rw [hclaim.1] at hended
    cases hended

theorem Tracing.exec (h : Tracing cfg) (ht : cfg.view t = some ⟨op, l, true⟩)
    (hpermits : op.permits l cmd) (hexec : cmd.exec o cfg.shared = some (r, w)) :
    Tracing ⟨w, Function.update cfg.view t (some ⟨op, op.next l cmd r, true⟩),
      ⟨t, cmd, r, w⟩ :: cfg.log⟩ where
  stored := h.stored_exec ht hpermits hexec
  copies := by
    intro u op' l' b c hu hc
    rcases View.of_update hu with ⟨rfl, rfl, rfl, -⟩ | ⟨hut, hv⟩
    · rcases Op.next_call hc with hkept | hanswer
      · exact h.copies ht hkept
      · exact h.stored_exec ht hpermits hexec c (exec_answered hexec hanswer)
    · exact h.copies hv hc
  live := by
    intro u op' l' b c hu hc
    rcases View.of_update hu with ⟨rfl, rfl, rfl, -⟩ | ⟨hut, hv⟩
    · rcases Op.next_held hpermits hc with ⟨hkept, -⟩ | ⟨hanswer, ⟨now, lease, rfl⟩ | ⟨rfl, hnew⟩⟩
      · exact h.live ht hkept
      · rcases exec_claimPendingCall hexec with ⟨-, e, rfl⟩ | ⟨d, calls, -, -, -, -, rfl | ⟨e, rfl⟩⟩
        · cases hanswer
        · cases hanswer
          exact Bool.false_ne_true
        · cases hanswer
      · obtain ⟨ids, request, swarm, key, number, now, -, -, -, -, hx⟩ := hnew
        rw [hx]
        exact Bool.false_ne_true
    · exact h.live hv hc

end Exec

theorem Tracing.idle {cfg cfg' : View} (h : Tracing cfg) (hidle : Idle cfg cfg') : Tracing cfg' := by
  obtain ⟨clock, hshared⟩ := hidle.shared
  constructor
  · rw [hshared]
    exact h.stored
  · intro u op l b c hu hc
    rcases hidle.view hu with rfl | ⟨b', hu⟩
    · cases hc
    · exact h.copies hu hc
  · intro u op l b c hu hc
    rcases hidle.view hu with rfl | ⟨b', hu⟩
    · cases hc
    · exact h.live hu hc

theorem tracing (h₀ : ∀ d ∈ s₀.calls, d.Traced)
    (h : (controlPlane platform).Reach ok (Pool.init s₀) σ) : Tracing (view σ) :=
  invariant .init ⟨h₀, nofun, nofun⟩ (fun _ _ htracing hidle => htracing.idle hidle)
    (fun _ _ _ _ _ _ _ _ _ _ htracing _ ht hpermits hexec => htracing.exec ht hpermits hexec) h

/-- From a store without calls, or with traced ones, through any interleaving of any
operations: the nodes of a trace are a path in the call's graph, an opened trace
leads from the entry node, where the call was created (`Op.starts_traced`), to the
current node, which is its only open entry as long as the call has not ended, and
in an acyclic graph no node occurs twice. -/
theorem trace_isPath (h₀ : ∀ d ∈ s₀.calls, d.Traced)
    (h : (controlPlane platform).Reach ok (Pool.init s₀) σ) {d : Call} (hd : d ∈ σ.shared.calls) :
    (d.agentTrace.map (·.nodeKey)).IsChain d.graphSnapshot.HasEdge ∧
    (d.agentTrace = [] → d.currentNodeKey = d.graphSnapshot.entryNodeKey) ∧
    (d.agentTrace ≠ [] → ∃ left last, d.agentTrace = left ++ [last] ∧
      (d.agentTrace.map (·.nodeKey)).head? = some d.graphSnapshot.entryNodeKey ∧
      last.nodeKey = d.currentNodeKey ∧ (¬ d.status.terminal → last.exitedAt = none) ∧
      ∀ t ∈ left, t.exitedAt ≠ none) ∧
    (Digraph.Acyclic d.graphSnapshot.adjacency →
      (d.agentTrace.map (·.nodeKey)).Nodup ∧
        d.agentTrace.length ≤ d.graphSnapshot.nodes.length) := by
  cases (tracing h₀ h).stored d hd with
  | unopened htrace hnode =>
    rw [htrace]
    exact ⟨.nil, fun _ => hnode, fun hne => absurd rfl hne, fun _ => ⟨.nil, Nat.zero_le _⟩⟩
  | opened left last htrace htrail hnode hopen =>
    rw [htrace]
    refine ⟨htrail.path, fun hnil => by simp at hnil, fun _ => ⟨left, last, rfl, htrail.starts,
      hnode, hopen, htrail.exited⟩, fun hacyclic => ?_⟩
    have hnodup : ((left ++ [last]).map (·.nodeKey)).Nodup :=
      hacyclic.nodup_of_isChain (htrail.path.imp fun _ _ hab => SwarmGraph.mem_adjacency.2 hab)
    have hsub : (left ++ [last]).map (·.nodeKey) ⊆ d.graphSnapshot.nodes.map (·.key) := by
      intro key hkey
      obtain ⟨t, ht, rfl⟩ := List.mem_map.1 hkey
      exact SwarmGraph.hasNode_iff_mem_keys.1 (htrail.nodes t ht)
    refine ⟨hnodup, ?_⟩
    calc (left ++ [last]).length = ((left ++ [last]).map (·.nodeKey)).length := by
          rw [List.length_map]
      _ ≤ (d.graphSnapshot.nodes.map (·.key)).length := (List.subperm_of_subset hnodup hsub).length_le
      _ = d.graphSnapshot.nodes.length := by rw [List.length_map]

end ControlPlane

namespace Sample

/-- An inbound call is handed off along the one edge of its graph; a second
request for the same handoff is refused. -/
def handoffRun : List ControlPlane.Step :=
  [.spawn 0 (.createInboundCall ⟨"swarm_1", "room-1", "", "", none, none⟩)] ++ execs 0 3 ++
    [.exec 0 { random := "a" }] ++ execs 0 1 ++
    [.spawn 1 (.recordHandoff ⟨"call_a", "triage", "orders", "order question", none⟩)] ++ execs 1 3 ++
    [.spawn 2 (.recordHandoff ⟨"call_a", "triage", "orders", "order question", none⟩)] ++ execs 2 1

end Sample

namespace ControlPlane

theorem trace_isPath_handoff :
    ∃ (σ : State) (d : Call),
      (controlPlane Sample.platform).Reach (fun _ _ => True) (Pool.init Sample.world) σ ∧
      d ∈ σ.shared.calls ∧ d.agentTrace.length = 2 ∧
      (d.agentTrace.map (·.nodeKey)).IsChain d.graphSnapshot.HasEdge ∧
      (d.agentTrace.map (·.nodeKey)).Nodup := by
  have hrun : ((controlPlane Sample.platform).runWhere (fun _ _ => True) Sample.handoffRun
      (Pool.init Sample.world)).any fun σ =>
        σ.shared.calls.docs.any fun d =>
          d.agentTrace.length = 2 ∧ d.graphSnapshot.graphIsAcyclic := by
    decide +kernel
  obtain ⟨σ, hσ, hσd⟩ := System.Reach.exists_of_any hrun
  simp only [List.any_eq_true, decide_eq_true_eq] at hσd
  obtain ⟨d, hd, hlength, hacyclic⟩ := hσd
  have hpath := trace_isPath (fun d hd => absurd hd Collection.not_mem_empty) hσ hd
  have hgraph := (SwarmGraph.graphIsAcyclic_iff.1 hacyclic).2.2
  exact ⟨σ, d, hσ, hd, hlength, hpath.1, (hpath.2.2.2 hgraph).1⟩

end ControlPlane

end Stylme
