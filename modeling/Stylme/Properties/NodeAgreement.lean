-- SUMMARY: The worker and the control plane are at the same node when no handoff is awaited, as long as none is recorded without the worker learning of it.
import Stylme.Worker.Effects

/-!
# The current node of both parties

A recorded handoff moves the call at once and the worker when the answer
arrives. In between, the worker's node is the source of that handoff. Since the
graph has no cycles, every request that is still under way then leaves a node
the call has passed, and is refused. What breaks this is a handoff that is
recorded while the worker believes it failed: the worker stays behind, and each
of its requests is refused from then on.
-/

namespace Stylme

open Conc

namespace Worker

/-! ## Agreement -/

/-- The control plane records the handoff, given a store that answers. -/
def Accepts (w : World) (request : HandoffRequest) : Prop :=
  ∃ call w', Prog.run Cmd.exec (recordHandoff request) [{}, {}, {}] w = some (.ok call, w')

/-- Both parties are at one node, and each edge that leaves it can be taken. -/
structure Agree (σ : State) : Prop where
  node : ∃ call, σ.stored = some call ∧ call.currentNodeKey = σ.voice.currentNodeKey
  edges : ∀ edge ∈ σ.voice.runtime.graph.edges, edge.fromNode = σ.voice.currentNodeKey →
    ∀ reason captured, Accepts σ.control.shared
      ⟨σ.voice.callID, edge.fromNode, edge.toNode, reason, captured⟩

/-- The worker learns of every handoff that is recorded: it waits for the request,
which leaves the call's node, the store acknowledges the write, and the worker
waits until the answer arrives. -/
def Learns (σ : State) : Label → Prop
  | .control (.exec t o) =>
    match σ.control.next t with
    | some (.recordHandoff request, .saveCall x) => σ.control.shared.applies o x →
      t ∈ σ.awaited.map (·.1) ∧ ¬ o.fault.isUnacked ∧
        σ.stored.map (·.currentNodeKey) = some request.fromNode
    | _ => True
  | .giveUp t => t ∉ σ.recorded.map (·.1)
  | _ => True

/-! ## The invariant -/

def Settled (σ : State) (t : ℕ) : Prop := ∃ op x, requests σ.control t = some (op, .settled x)

/-- Where the call is: with the worker, or ahead of it by the one handoff whose
answer is under way. -/
inductive Position (σ : State) (node : String) : Prop where
  | together (hnode : node = σ.voice.currentNodeKey)
      (hopen : ∀ {t edge}, (t, edge) ∈ σ.awaited → ¬ Settled σ t)
  | ahead {t edge request x} (hedge : (t, edge) ∈ σ.awaited)
      (hsettled : requests σ.control t = some (.recordHandoff request, .settled x))
      (hfrom : request.fromNode = σ.voice.currentNodeKey) (hnode : node = request.toNode)
      (honly : ∀ {t' edge'}, (t', edge') ∈ σ.awaited → Settled σ t' → t' = t)

/-- Every request leaves a node from which the worker's node is reached. -/
structure Aligned (graph : SwarmGraph) (σ : State) : Prop where
  config : σ.voice.runtime.graph = graph.fromDict
  behind : ∀ {t op l}, requests σ.control t = some (op, l) → ∃ request, op = .recordHandoff request ∧
    Relation.ReflTransGen (Digraph.Edge graph.adjacency) request.fromNode σ.voice.currentNodeKey ∧
      graph.HasEdge request.fromNode request.toNode
  awaited : ∀ {t edge}, (t, edge) ∈ σ.awaited → ∃ request l,
    requests σ.control t = some (.recordHandoff request, l) ∧ request.toNode = edge.toNode
  recorded : ∀ {t}, Settled σ t → t ∈ σ.recorded.map (·.1)
  position : ∃ call, σ.stored = some call ∧ ¬ call.status.terminal ∧ call.graphSnapshot = graph ∧
    Position σ call.currentNodeKey

namespace Aligned

variable {graph : SwarmGraph} {σ σ' : State} {l : Label} {t : ℕ}

/-- Talking moves nobody. -/
theorem talk {voice : VoiceState} {n : ℕ} (h : Aligned graph σ) (hvoice : σ.voice.Stays voice) :
    Aligned graph { σ with voice := voice, transfers := n } where
  config := by
    rw [hvoice.runtime]
    exact h.config
  behind ht := by
    rw [hvoice.currentNodeKey]
    exact h.behind ht
  awaited := h.awaited
  recorded := h.recorded
  position := by
    obtain ⟨call, hcall, hstatus, hgraph, hposition⟩ := h.position
    refine ⟨call, ?_, hstatus, hgraph, ?_⟩
    · rw [State.stored, hvoice.callID]
      exact hcall
    cases hposition with
    | together hnode hopen => exact .together (hnode.trans hvoice.currentNodeKey.symm) hopen
    | ahead hedge hsettled hfrom hnode honly =>
      exact .ahead hedge hsettled (hfrom.trans hvoice.currentNodeKey.symm) hnode honly

/-- A new request leaves the worker's node, and nothing is settled by sending it. -/
theorem send {edge : SwarmEdge} {reason : String} {control : ControlPlane.State}
    (h : Aligned graph σ) (hedge : edge ∈ σ.voice.runtime.graph.edges)
    (hfrom : edge.fromNode = σ.voice.currentNodeKey)
    (hsent : Sent σ.control t (.recordHandoff (σ.voice.handoffRequest edge reason)) control) :
    Aligned graph { σ with control := control, awaited := (t, edge) :: σ.awaited } := by
  have hrequests : ∀ {u op l}, requests control u = some (op, l) → (u = t ∧
      op = .recordHandoff (σ.voice.handoffRequest edge reason) ∧ l = .start []) ∨
        requests σ.control u = some (op, l) := by
    intro u op l hu
    rw [hsent.added, Function.update_apply] at hu
    split at hu
    · rename_i hut
      obtain ⟨rfl, rfl⟩ := Prod.mk.inj (Option.some.inj hu)
      exact .inl ⟨hut, rfl, rfl⟩
    · exact .inr hu
  have hkept : ∀ {u r}, requests σ.control u = some r → requests control u = some r := by
    intro u r hu
    rw [hsent.added, Function.update_of_ne, hu]
    rintro rfl
    rw [hsent.fresh] at hu
    cases hu
  have hself : requests control t =
      some (.recordHandoff (σ.voice.handoffRequest edge reason), .start []) := by
    rw [hsent.added, Function.update_self]
  have hsettled : ∀ {u}, (∃ op x, requests control u = some (op, .settled x)) → Settled σ u := by
    rintro u ⟨op, x, hu⟩
    rcases hrequests hu with ⟨-, -, hl⟩ | hold
    · cases hl
    · exact ⟨op, x, hold⟩
  refine ⟨h.config, fun hu => ?_, fun hu => ?_, fun hu => h.recorded (hsettled hu), ?_⟩
  · rcases hrequests hu with ⟨-, rfl, -⟩ | hold
    · refine ⟨_, rfl, .refl, ?_⟩
      rw [h.config] at hedge
      exact SwarmGraph.hasEdge_fromDict.1 ⟨edge, hedge, hfrom, rfl⟩
    · exact h.behind hold
  · rcases List.mem_cons.1 hu with heq | hu
    · obtain ⟨rfl, rfl⟩ := Prod.mk.inj heq
      exact ⟨_, _, hself, rfl⟩
    · obtain ⟨request, l, hrequest, hto⟩ := h.awaited hu
      exact ⟨request, l, hkept hrequest, hto⟩
  · obtain ⟨call, hcall, hstatus, hgraph, hposition⟩ := h.position
    refine ⟨call, ?_, hstatus, hgraph, ?_⟩
    · rw [State.stored, hsent.shared]
      exact hcall
    have hopen : ¬ ∃ op x, requests control t = some (op, .settled x) := by
      rintro ⟨op, x, ht⟩
      rw [hself] at ht
      cases ht
    cases hposition with
    | together hnode hnone =>
      refine .together hnode fun hu hs => ?_
      rcases List.mem_cons.1 hu with heq | hu
      · obtain ⟨rfl, rfl⟩ := Prod.mk.inj heq
        exact hopen hs
      · exact hnone hu (hsettled hs)
    | ahead hmem hs hsource hnode honly =>
      refine .ahead (List.mem_cons_of_mem _ hmem) (hkept hs) hsource hnode fun hu hs' => ?_
      rcases List.mem_cons.1 hu with heq | hu
      · obtain ⟨rfl, rfl⟩ := Prod.mk.inj heq
        exact absurd hs' hopen
      · exact honly hu (hsettled hs')

theorem mem_settle {u : ℕ} {edge : SwarmEdge} (h : (u, edge) ∈ σ.settle t) :
    (u, edge) ∈ σ.awaited ∧ u ≠ t := by
  obtain ⟨hmem, hne⟩ := List.mem_filter.1 h
  exact ⟨hmem, of_decide_eq_true hne⟩

/-- The worker follows the call when the answer arrives. -/
theorem moved {edge : SwarmEdge} {op : Op} {x : Call} (h : Aligned graph σ)
    (hedge : (t, edge) ∈ σ.awaited) (hsettled : requests σ.control t = some (op, .settled x)) :
    Aligned graph { σ with voice := σ.voice.handedOff edge, awaited := σ.settle t } := by
  obtain ⟨call, hcall, hstatus, hgraph, hposition⟩ := h.position
  cases hposition with
  | together hnode hnone => exact absurd ⟨op, x, hsettled⟩ (hnone hedge)
  | @ahead u edge' request y hmem hs hsource hnode honly =>
    obtain rfl : t = u := honly hedge ⟨op, x, hsettled⟩
    obtain ⟨request', l, hrequest, hto⟩ := h.awaited hedge
    obtain ⟨heq, -⟩ := Prod.mk.inj (Option.some.inj (hrequest.symm.trans hs))
    obtain rfl := Op.recordHandoff.inj heq
    obtain ⟨request'', heq, -, hstep⟩ := h.behind hs
    obtain rfl := Op.recordHandoff.inj heq
    have hmove : Digraph.Edge graph.adjacency σ.voice.currentNodeKey edge.toNode := by
      rw [← hsource, ← hto]
      exact SwarmGraph.mem_adjacency.2 hstep
    refine ⟨h.config, fun hu => ?_, fun hu => h.awaited (mem_settle hu).1, h.recorded,
      call, hcall, hstatus, hgraph, .together (hnode.trans hto) fun hu hs' => ?_⟩
    · obtain ⟨r, hop, hreach, hedge'⟩ := h.behind hu
      exact ⟨r, hop, hreach.tail hmove, hedge'⟩
    · exact (mem_settle hu).2 (honly (mem_settle hu).1 hs')

/-- The worker may forget a request that is not settled. -/
theorem forget (h : Aligned graph σ) (hopen : ¬ Settled σ t) :
    Aligned graph { σ with awaited := σ.settle t } := by
  obtain ⟨call, hcall, hstatus, hgraph, hposition⟩ := h.position
  refine ⟨h.config, h.behind, fun hu => h.awaited (mem_settle hu).1, h.recorded,
    call, hcall, hstatus, hgraph, ?_⟩
  cases hposition with
  | together hnode hnone => exact .together hnode fun hu => hnone (mem_settle hu).1
  | @ahead u edge request x hmem hs hsource hnode honly =>
    have hut : u ≠ t := by
      rintro rfl
      exact hopen ⟨_, _, hs⟩
    exact .ahead (List.mem_filter.2 ⟨hmem, decide_eq_true hut⟩) hs hsource hnode
      fun hu => honly (mem_settle hu).1

/-- The control plane works on, and neither writes the call nor settles a request. -/
theorem quiet {control : ControlPlane.State} (h : Aligned graph σ)
    (hcalls : control.shared.calls = σ.control.shared.calls)
    (hback : ∀ {u op l'}, requests control u = some (op, l') →
      ∃ l, requests σ.control u = some (op, l) ∧ ∀ x, l' = .settled x → l = .settled x)
    (hforth : ∀ {u op l}, requests σ.control u = some (op, l) →
      ∃ l', requests control u = some (op, l') ∧ ∀ x, l = .settled x → l' = .settled x) :
    Aligned graph { σ with control := control } := by
  have hsettled : ∀ {u}, (∃ op x, requests control u = some (op, .settled x)) → Settled σ u := by
    rintro u ⟨op, x, hu⟩
    obtain ⟨l, hl, hx⟩ := hback hu
    exact ⟨op, x, hx x rfl ▸ hl⟩
  refine ⟨h.config, fun hu => ?_, fun hu => ?_, fun hu => h.recorded (hsettled hu), ?_⟩
  · obtain ⟨l, hl, -⟩ := hback hu
    exact h.behind hl
  · obtain ⟨request, l, hrequest, hto⟩ := h.awaited hu
    obtain ⟨l', hl', -⟩ := hforth hrequest
    exact ⟨request, l', hl', hto⟩
  · obtain ⟨call, hcall, hstatus, hgraph, hposition⟩ := h.position
    refine ⟨call, ?_, hstatus, hgraph, ?_⟩
    · rw [State.stored, hcalls]
      exact hcall
    cases hposition with
    | together hnode hnone => exact .together hnode fun hu hs => hnone hu (hsettled hs)
    | ahead hmem hs hsource hnode honly =>
      obtain ⟨l', hl', hx⟩ := hforth hs
      exact .ahead hmem (hx _ rfl ▸ hl') hsource hnode fun hu hs' => honly hu (hsettled hs')

/-- A handoff is recorded that the worker waits for: the call was at the worker's
node, since every node it could have been at otherwise lies behind. -/
theorem record {control : ControlPlane.State} {request : HandoffRequest} {c x : Call}
    (h : Aligned graph σ) (hacyclic : Digraph.Acyclic graph.adjacency)
    (ht : requests σ.control t = some (.recordHandoff request, .copied c))
    (hc : c.graphSnapshot = graph) (hwrites : request.Writes c x)
    (hstored : control.shared.calls.get σ.voice.callID = some x)
    (hrequests : requests control =
      Function.update (requests σ.control) t (some (.recordHandoff request, .settled x)))
    (hawaited : t ∈ σ.awaited.map (·.1))
    (hsource : σ.stored.map (·.currentNodeKey) = some request.fromNode) :
    Aligned graph { σ with
      control := control
      recorded := (t, .recordHandoff request) :: σ.recorded } := by
  have hself : requests control t = some (.recordHandoff request, .settled x) := by
    rw [hrequests, Function.update_self]
  have hother : ∀ {u}, u ≠ t → requests control u = requests σ.control u := by
    intro u hu
    rw [hrequests, Function.update_of_ne hu]
  obtain ⟨⟨u, edge⟩, hedge, rfl⟩ := List.mem_map.1 hawaited
  obtain ⟨hstatus, -, hstep, fromAgentID, toAgentID, now, -, hx⟩ := hwrites
  obtain ⟨call, hcall, -, -, hposition⟩ := h.position
  have hnode : call.currentNodeKey = request.fromNode := by
    rw [hcall] at hsource
    exact Option.some.inj hsource
  refine ⟨h.config, fun {v op l} hv => ?_, fun {v edge'} hv => ?_, fun {v} hv => ?_,
    x, hstored, ?_, ?_, ?_⟩
  · by_cases hvt : v = u
    · subst hvt
      obtain ⟨rfl, -⟩ := Prod.mk.inj (Option.some.inj (hself.symm.trans hv))
      exact h.behind ht
    · exact h.behind (hother hvt ▸ hv)
  · by_cases hvt : v = u
    · subst hvt
      obtain ⟨r, l, hr, hto⟩ := h.awaited hv
      obtain ⟨heq, -⟩ := Prod.mk.inj (Option.some.inj (ht.symm.trans hr))
      exact ⟨r, _, heq ▸ hself, hto⟩
    · obtain ⟨r, l, hr, hto⟩ := h.awaited hv
      exact ⟨r, l, (hother hvt).trans hr, hto⟩
  · by_cases hvt : v = u
    · subst hvt
      exact List.mem_cons_self
    · obtain ⟨op, y, hy⟩ := hv
      exact List.mem_cons_of_mem _ (h.recorded ⟨op, y, (hother hvt).symm.trans hy⟩)
  · rw [hx]
    exact hstatus
  · rw [hx]
    exact hc
  cases hposition with
  | together htogether hnone =>
    refine .ahead hedge hself (hnode.symm.trans htogether) (by rw [hx]; rfl) fun {v edge'} hv hs => ?_
    by_contra hvt
    obtain ⟨op, y, hy⟩ := hs
    exact hnone hv ⟨op, y, (hother hvt).symm.trans hy⟩
  | ahead hmem hs hfrom htarget honly =>
    exfalso
    obtain ⟨r, hr, hreach, -⟩ := h.behind ht
    obtain rfl := Op.recordHandoff.inj hr
    obtain ⟨r', hr', -, hstep'⟩ := h.behind hs
    obtain rfl := Op.recordHandoff.inj hr'
    rw [← hfrom, ← hnode, htarget] at hreach
    exact hacyclic _ (Relation.TransGen.head' (SwarmGraph.mem_adjacency.2 hstep') hreach)

/-- A served command either leaves everything in place or records a handoff. -/
theorem served {lib : Library} {platform : Platform DirectCallRequest} {ok : State → Label → Prop}
    {voice : VoiceState} {w : World} {o : Oracle} {op : Op} {cmd : Cmd} {ph ph' : Phase}
    {control : ControlPlane.State} (hreach : (session lib platform).Reach ok (.init voice w) σ)
    (hacyclic : Digraph.Acyclic graph.adjacency) (hok : Learns σ (.control (.exec t o)))
    (h : Aligned graph σ) (hnext : σ.control.next t = some (op, cmd))
    (ht : requests σ.control t = some (op, ph))
    (hserved : Served σ.voice.callID op o σ.control.shared control.shared cmd ph ph')
    (hrequests : requests control = Function.update (requests σ.control) t (some (op, ph'))) :
    Aligned graph { σ with
      control := control
      recorded := if σ.control.shared.records o cmd then (t, op) :: σ.recorded else σ.recorded } := by
  have hquiet : σ.control.shared.records o cmd = false →
      control.shared.calls = σ.control.shared.calls →
      (∀ x, ph' = .settled x ↔ ph = .settled x) → Aligned graph { σ with
        control := control
        recorded :=
          if σ.control.shared.records o cmd then (t, op) :: σ.recorded else σ.recorded } := by
    intro hrecords hcalls hsettled
    rw [hrecords]
    refine h.quiet hcalls (fun {u op' l'} hu => ?_) fun {u op' l} hu => ?_
    · rw [hrequests, Function.update_apply] at hu
      split at hu
      · rename_i hut
        obtain ⟨rfl, rfl⟩ := Prod.mk.inj (Option.some.inj hu)
        exact ⟨ph, hut ▸ ht, fun x => (hsettled x).1⟩
      · exact ⟨l', hu, fun _ => id⟩
    · rw [hrequests, Function.update_apply]
      split
      · rename_i hut
        subst hut
        obtain ⟨rfl, rfl⟩ := Prod.mk.inj (Option.some.inj (ht.symm.trans hu))
        exact ⟨ph', rfl, fun x => (hsettled x).2⟩
      · exact ⟨l, hu, fun _ => id⟩
  cases hserved with
  | stays hrecords hcalls => exact hquiet hrecords hcalls fun _ => Iff.rfl
  | draws hrecords hcalls => exact hquiet hrecords hcalls fun _ => ⟨nofun, nofun⟩
  | fails hrecords hcalls => exact hquiet hrecords hcalls fun _ => ⟨nofun, nofun⟩
  | read hcalls hc => exact hquiet rfl hcalls fun _ => ⟨nofun, nofun⟩
  | wrote happlies hwrites hstored hl =>
    obtain ⟨request, rfl, -, -⟩ := h.behind ht
    obtain ⟨call, hcall, -, hgraph, -⟩ := h.position
    simp only [Learns, hnext] at hok
    obtain ⟨hawaited, hacked, hsource⟩ := hok happlies
    rcases hl with rfl | ⟨-, hunacked⟩
    · rcases hwrites with ⟨r, hr, hwrites⟩ | ⟨r, hr, -⟩
      · obtain rfl := Op.recordHandoff.inj hr
        simp only [World.records, happlies, if_true]
        exact h.record hacyclic ht ((sameCall_of_copied hreach ht hcall).graphSnapshot.trans hgraph)
          hwrites hstored hrequests hawaited hsource
      · cases hr
    · exact absurd hunacked hacked

theorem step {lib : Library} {platform : Platform DirectCallRequest} {ok : State → Label → Prop}
    {voice : VoiceState} {w : World} (hreach : (session lib platform).Reach ok (.init voice w) σ)
    (hacyclic : Digraph.Acyclic graph.adjacency) (hongoing : l.ongoing) (hok : Learns σ l)
    (h : Aligned graph σ) (hsteps : Steps σ l σ') : Aligned graph σ' := by
  cases hsteps with
  | tool hrun hvoice | hold hrun hvoice => exact h.talk hvoice
  | send hrun hvoice hcaptured hedge hfrom hsent =>
    refine (h.talk (n := σ.transfers) hvoice).send ?_ (hfrom.trans hvoice.currentNodeKey.symm) hsent
    rw [hvoice.runtime]
    exact hedge
  | moved hrun hedge hsettled => exact h.moved hedge hsettled
  | refused hrun hopen =>
    refine h.forget ?_
    rintro ⟨op, x, ht⟩
    obtain ⟨request, rfl, -, -⟩ := h.behind ht
    exact hopen request x ht
  | gaveUp => exact h.forget fun hs => hok (h.recorded hs)
  | finished => cases hongoing
  | served hnext ht hserved hrequests =>
    exact h.served hreach hacyclic hok hnext ht hserved hrequests
  | idle hcalls hrequests =>
    exact h.quiet hcalls (fun hu => ⟨_, hrequests ▸ hu, fun _ => id⟩)
      fun hu => ⟨_, hrequests.symm ▸ hu, fun _ => id⟩

end Aligned

/-! ## The result -/

theorem accepts {w : World} {request : HandoffRequest} {call : Call}
    (hcall : w.calls.get request.callID = some call) (hstatus : ¬ call.status.terminal)
    (hnode : call.currentNodeKey = request.fromNode)
    (hedge : call.graphSnapshot.HasEdge request.fromNode request.toNode)
    (hfrom : call.graphSnapshot.HasNode request.fromNode)
    (hto : call.graphSnapshot.HasNode request.toNode) : Accepts w request := by
  obtain ⟨toAgentID, htoAgent⟩ := SwarmGraph.graphAgentID_ok_iff.2 hto
  obtain ⟨fromAgentID, hfromAgent⟩ := SwarmGraph.graphAgentID_ok_iff.2 hfrom
  obtain ⟨agentID, hagents⟩ : ∃ agentID,
      call.handoffAgents request.fromNode request.toNode = .ok (agentID, toAgentID) := by
    by_cases htrace : call.agentTrace = []
    · exact ⟨fromAgentID, by simp only [Call.handoffAgents, htoAgent, htrace, if_true, hfromAgent]⟩
    · exact ⟨"", by simp only [Call.handoffAgents, htoAgent, htrace, if_false]⟩
  obtain ⟨calls, hcalls⟩ := Collection.replaceOne_of_mem (Collection.get_eq_some_iff.1 hcall).1
    (d := call.handedOff request.fromNode request.toNode agentID toAgentID request.reason
      request.captured w.clock) rfl rfl
  refine ⟨call.handedOff request.fromNode request.toNode agentID toAgentID request.reason
    request.captured w.clock, { w with calls }, ?_⟩
  simp [recordHandoff, Store.getCall, Store.now, Store.saveCall, Prog.call_bind, Prog.run, Cmd.exec,
    answer, commit, found, hcall, hstatus, hnode, hedge, hagents, hcalls, Prog.pure_eq]

/-- As long as the worker learns of every handoff that is recorded, both parties are
at one node whenever it waits for none, and every edge that leaves it can be taken. -/
theorem nodesAgree {lib : Library} {platform : Platform DirectCallRequest} {swarmID : String}
    {w : World} {call : Call} {voice : VoiceState} {σ : State} (hstart : Starts swarmID w call voice)
    (hstatus : ¬ call.status.terminal)
    (hentry : call.currentNodeKey = call.graphSnapshot.entryNodeKey)
    (h : (session lib platform).Reach (fun σ l => l.ongoing ∧ Learns σ l) (.init voice w) σ)
    (hidle : σ.awaited = []) : Agree σ := by
  obtain ⟨hconfig, hnode, -, hchecked⟩ := hstart.spec
  rw [hconfig] at hchecked
  obtain ⟨-, hnodes, hacyclic⟩ := SwarmGraph.graphIsAcyclic_fromDict hchecked
  have hinit : Aligned call.graphSnapshot (.init voice w) := by
    refine ⟨hconfig, fun ht => ?_, fun hu => absurd hu List.not_mem_nil, fun hs => ?_, ?_⟩
    · cases ht
    · obtain ⟨op, x, ht⟩ := hs
      cases ht
    · exact ⟨call, hstart.stored, hstatus, rfl,
        .together (hentry.trans hnode.symm) fun hu => absurd hu List.not_mem_nil⟩
  have haligned : Aligned call.graphSnapshot σ :=
    invariant hinit (fun ρ l ρ' hreach hok hρ hsteps => hρ.step hreach hacyclic hok.1 hok.2 hsteps) h
  obtain ⟨c, hc, hlive, hgraph, hposition⟩ := haligned.position
  cases hposition with
  | ahead hmem => exact absurd (hidle ▸ hmem) List.not_mem_nil
  | together htogether hopen =>
    refine ⟨⟨c, hc, htogether⟩, fun edge hedge hfrom reason captured => ?_⟩
    rw [haligned.config] at hedge
    obtain ⟨e, he, rfl⟩ := SwarmGraph.mem_fromDict_edges.1 hedge
    refine accepts hc hlive (htogether.trans hfrom.symm) ?_ ?_ ?_
    · rw [hgraph]
      exact ⟨e, he, rfl, rfl⟩
    · rw [hgraph]
      exact (hnodes e he).1
    · rw [hgraph]
      exact (hnodes e he).2


end Worker

namespace Sample

open Worker

/-- The worker sends a handoff and the control plane records it. -/
def recordedHandoff : List Worker.Label :=
  .handoff 0 "order help" "" :: List.replicate 3 (.control (.exec 0 {}))

/-- The handoff is recorded and its answer is lost. -/
def lostAnswer : Option Worker.State :=
  (session library platform).runWhere (fun _ l => l.ongoing) (recordedHandoff ++ [.giveUp 0])
    (.init voice callWorld)

theorem lostAnswer_isSome : lostAnswer.isSome := by decide +kernel

end Sample

namespace Worker

instance (σ : State) (l : Label) : Decidable (Learns σ l) := by
  unfold Learns
  split
  · split <;> infer_instance
  · infer_instance
  · infer_instance

/-- A handoff that the worker learns of takes both parties to its target. -/
theorem nodesAgree_sample : ∃ σ, Agree σ ∧ σ.voice.currentNodeKey = "orders" := by
  have hrun : ((session Sample.library Sample.platform).runWhere (fun σ l => l.ongoing ∧ Learns σ l)
      (Sample.recordedHandoff ++ [.deliver 0]) (.init Sample.voice Sample.callWorld)).any
        fun σ => σ.awaited.isEmpty && σ.voice.currentNodeKey = "orders" := by decide +kernel
  obtain ⟨σ, hreach, hcheck⟩ := Machine.Reach.exists_of_any hrun
  simp only [Bool.and_eq_true, List.isEmpty_iff, decide_eq_true_eq] at hcheck
  exact ⟨σ, nodesAgree Sample.starts (by decide) rfl hreach hcheck.1, hcheck.2⟩

/-- Once an answer is lost, nothing is under way and the worker is behind the call. -/
theorem not_nodesAgree :
    ¬ ∀ {lib : Library} {platform : Platform DirectCallRequest} {swarmID : String} {w : World}
      {call : Call} {voice : VoiceState} {σ : State}, Starts swarmID w call voice →
      ¬ call.status.terminal → call.currentNodeKey = call.graphSnapshot.entryNodeKey →
      (session lib platform).Reach (fun _ l => l.ongoing) (.init voice w) σ →
      σ.awaited = [] → (∀ t, σ.control.next t = none) → Agree σ := by
  intro hall
  have hrun : Sample.lostAnswer = some (Sample.lostAnswer.get Sample.lostAnswer_isSome) :=
    (Option.some_get _).symm
  have hagree := hall Sample.starts (by decide) rfl (.of_runWhere .refl hrun) rfl
    fun t => by cases t <;> rfl
  obtain ⟨call, hcall, hnode⟩ := hagree.node
  have horders : (Sample.lostAnswer.get Sample.lostAnswer_isSome).stored.map (·.currentNodeKey) =
      some "orders" := by decide +kernel
  have htriage : (Sample.lostAnswer.get Sample.lostAnswer_isSome).voice.currentNodeKey = "triage" := by
    decide +kernel
  rw [hcall] at horders
  exact absurd ((Option.some.inj horders).symm.trans (hnode.trans htriage)) (by decide)

end Worker

end Stylme
