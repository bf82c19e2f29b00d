-- SUMMARY: The calls a campaign schedules can be started as long as their swarm still has the campaign's entry node.
import Stylme.Service.Sequential

/-!
# Scheduled snapshots

`SaveSwarm` validates a graph, `SaveCampaign` validates the entry node against
the graph of that moment, and `ScheduleCampaign` combines the entry node with the
graph the swarm has by then, without validating the two together.
-/

namespace Stylme

open Conc

/-- What the voice worker needs of a call: a graph its validator accepts, with an
agent at every node, and a current node in it. -/
structure Call.Startable (c : Call) : Prop where
  accepted : c.graphSnapshot.graphIsAcyclic
  agents : ∀ node ∈ c.graphSnapshot.nodes, node.agentID ≠ ""
  edges : ∀ edge ∈ c.graphSnapshot.edges,
    c.graphSnapshot.HasNode edge.fromNode ∧ c.graphSnapshot.HasNode edge.toNode
  current : c.graphSnapshot.HasNode c.currentNodeKey

/-- The idempotency key of the call for a target. -/
def CampaignTarget.key (target : CampaignTarget) (campaign : Campaign) : String :=
  campaign.id ++ ":" ++ (if target.externalID = "" then trimSpace target.phone else target.externalID)

/-- Over a valid graph, a new call can be started exactly when the campaign's entry
node is a node of the graph. -/
theorem CampaignTarget.call_startable_iff {target : CampaignTarget} {campaign : Campaign}
    {swarm : AgentSwarm} {id : String} {now : Time}
    (hvalid : swarm.graph.validateGraph = .ok ()) :
    (target.call campaign swarm id now).Startable ↔ swarm.graph.HasNode campaign.entryNodeKey := by
  obtain ⟨hrunnable, -⟩ := SwarmGraph.validateGraph_ok hvalid
  constructor
  · exact fun h => h.current
  · intro hentry
    refine ⟨?_, hrunnable.agents, hrunnable.edges, hentry⟩
    exact SwarmGraph.graphIsAcyclic_iff.2 ⟨hentry, hrunnable.edges, hrunnable.acyclic⟩

/-! ## What `ScheduleCampaign` inserts -/

/-- `c` is a call that scheduling these targets may insert. -/
structure Inserts (w : World) (campaignID : String) (targets : List CampaignTarget) (c : Call)
    (campaign : Campaign) (swarm : AgentSwarm) : Prop where
  stored : w.campaigns.get campaignID = some campaign
  running : campaign.status ≠ "completed" ∧ campaign.status ≠ "cancelled"
  graph : w.swarms.get campaign.swarmID = some swarm
  size : targets.length ≤ 500
  target : ∃ target ∈ targets, isE164 (trimSpace target.phone) ∧
    (∀ d ∈ w.calls, d.idempotencyKey ≠ target.key campaign) ∧
    ∃ now, c = target.call campaign swarm c.id now

section Wp

variable {w : World}

theorem scheduleCampaign_wp {campaignID actor : String} {targets : List CampaignTarget} :
    Prog.wp Cmd.exec (fun _ w' => w'.swarms = w.swarms ∧ ∀ c ∈ w'.calls, c ∈ w.calls ∨
        ∃ campaign swarm, Inserts w campaignID targets c campaign swarm)
      (scheduleCampaign campaignID targets actor) w := by
  have hsame : w.swarms = w.swarms ∧ ∀ c ∈ w.calls, c ∈ w.calls ∨
      ∃ campaign swarm, Inserts w campaignID targets c campaign swarm := ⟨rfl, fun _ => .inl⟩
  unfold scheduleCampaign
  split
  · exact hsame
  rename_i hsize
  refine Prog.wp_call_bind.2 fun o r w₁ hexec => ?_
  obtain ⟨rfl, -⟩ := answer_some hexec
  cases r with
  | error e => exact hsame
  | ok campaign =>
    have hcampaign := Collection.get_eq_some_iff.2 (exec_getCampaign hexec)
    dsimp only
    split
    · exact hsame
    rename_i hrunning
    refine Prog.wp_call_bind.2 fun o r w₁ hexec => ?_
    obtain ⟨rfl, -⟩ := answer_some hexec
    cases r with
    | error e => exact hsame
    | ok swarm =>
      have hswarm := Collection.get_eq_some_iff.2 (exec_getSwarm hexec)
      refine Prog.wp_call_bind.2 fun o now w₂ hexec => ?_
      obtain rfl : w₁ = w₂ := by
        simp only [Cmd.exec, Option.some.injEq, Prod.mk.injEq] at hexec
        exact hexec.2
      apply Prog.wp_bind.2
      refine Prog.wp_mono (fun a w₂ h => ?_) targetCalls_wp
      have hcalls := h.calls
      refine Prog.wp_call_bind.2 fun o r w₃ hexec => ?_
      have hframe₃ := exec_frame hexec
      -- a call that is new after the insertion was made for a target
      have hinserted : ∀ c ∈ w₃.calls, c ∈ w₁.calls ∨
          ∃ campaign swarm, Inserts w₁ campaignID targets c campaign swarm := by
        intro c hc
        rw [← hcalls]
        rcases exec_insertCalls hexec with rfl | rfl
        · exact .inl hc
        rcases Collection.mem_insertMany.2 hc with hold | ⟨hxs, hnew⟩
        · exact .inl hold
        right
        obtain ⟨target, htarget, hphone, hx⟩ := h.made c hxs
        refine ⟨campaign, swarm, hcampaign, not_or.1 hrunning, hswarm,
          Nat.not_lt.1 (not_or.1 hsize).2, target, htarget, hphone, fun d hd => ?_, now, hx⟩
        have hkey := (hnew d (hcalls ▸ hd)).2
        rw [hx] at hkey
        exact hkey
      have hdone : w₃.swarms = w₁.swarms ∧ ∀ c ∈ w₃.calls, c ∈ w₁.calls ∨
          ∃ campaign swarm, Inserts w₁ campaignID targets c campaign swarm :=
        ⟨(hframe₃.swarms rfl).trans h.swarms, hinserted⟩
      cases r with
      | error e => exact hdone
      | ok inserted =>
        refine Prog.wp_call_bind.2 fun o r w₄ hexec => ?_
        have hframe₄ := exec_frame hexec
        have hstored : w₄.swarms = w₁.swarms ∧ ∀ c ∈ w₄.calls, c ∈ w₁.calls ∨
            ∃ campaign swarm, Inserts w₁ campaignID targets c campaign swarm := by
          rw [hframe₄.swarms rfl, hframe₄.calls rfl]
          exact hdone
        cases r with
        | error e => exact hstored
        | ok u => exact hstored

end Wp

/-! ## Sequences of edits -/

namespace ControlPlane

/-- `SaveSwarm` and `SaveCampaign`. -/
def saves : Op → Bool
  | .saveSwarm _ _ | .saveCampaign _ _ => true
  | _ => false

/-- `SaveSwarm`, `SaveCampaign` and `ScheduleCampaign`. -/
def edits : Op → Bool
  | .scheduleCampaign _ _ _ => true
  | op => saves op

/-- One of the targets will become a new call of the campaign. -/
def takes (w : World) (campaign : Campaign) (targets : List CampaignTarget) : Bool :=
  campaign.status ≠ "completed" ∧ campaign.status ≠ "cancelled" ∧ targets.length ≤ 500 ∧
    targets.any fun target => isE164 (trimSpace target.phone) ∧
      w.calls.docs.all (·.idempotencyKey ≠ target.key campaign)

/-- A campaign that takes new calls has its entry node in the graph its swarm has now. -/
def hasEntry (w : World) : Op → Bool
  | .scheduleCampaign campaignID targets _ =>
    (w.campaigns.get campaignID).all fun campaign => ¬ takes w campaign targets ∨
      (w.swarms.get campaign.swarmID).all fun swarm => swarm.graph.HasNode campaign.entryNodeKey
  | _ => true

/-- Every stored swarm was validated, and every stored call can be started. -/
structure Started (w : World) : Prop where
  swarms : ∀ swarm ∈ w.swarms, swarm.graph.validateGraph = .ok ()
  calls : ∀ c ∈ w.calls, c.Startable

variable {platform : Platform DirectCallRequest} {w w₀ : World} {h : List (Op × Reply)}

/-- `SaveSwarm` and `SaveCampaign` stay in the starting phase and never write a call. -/
theorem starts_of_saves {op : Op} (hop : saves op) {ids : List String} {cmd : Cmd}
    (hpermits : op.permits (.start ids) cmd) :
    cmd.writesCalls = false ∧ ∀ r, ∃ ids', op.next (.start ids) cmd r = .start ids' := by
  cases cmd with
  | insertCalls xs =>
    obtain ⟨⟨id, targets, actor, rfl⟩, -⟩ := hpermits
    cases hop
  | saveCall x =>
    rcases hpermits with ⟨-, ⟨request, swarm, key, number, now, rfl, -⟩ |
      ⟨request, swarm, agentID, now, rfl, -⟩⟩ <;> cases hop
  | claimPendingCall now lease =>
    obtain ⟨rfl, -⟩ := hpermits
    cases hop
  | getCallByIdempotencyKey key | getCallByRoom room =>
    obtain ⟨request, rfl, -⟩ := hpermits
    cases hop
  | getCall id =>
    rcases hpermits with ⟨request, rfl, -⟩ | ⟨request, rfl, -⟩ <;> cases hop
  | randomID kind => exact ⟨rfl, fun id => ⟨id :: ids, rfl⟩⟩
  | _ => exact ⟨rfl, fun _ => ⟨ids, rfl⟩⟩

/-- What `SaveSwarm` and `SaveCampaign` write keeps every stored graph validated. -/
theorem Started.exec (hw : Started w) {op : Op} {ids : List String} {cmd : Cmd} {r : Resp cmd}
    {o : Oracle} {w' : World} (hpermits : op.permits (.start ids) cmd)
    (hcalls : cmd.writesCalls = false) (hexec : cmd.exec o w = some (r, w')) : Started w' := by
  have hframe := exec_frame hexec
  refine ⟨?_, hframe.calls hcalls ▸ hw.calls⟩
  cases cmd with
  | saveSwarm swarm =>
    obtain ⟨value, actor, -, hvalid, hgraph⟩ := hpermits
    rcases exec_saveSwarm hexec with rfl | ⟨swarms, hswarms, rfl⟩
    · exact hw.swarms
    intro s hs
    rcases (Collection.mem_replaceOne hswarms).1 hs with rfl | ⟨hold, -⟩
    · rw [hgraph, hvalid]
    · exact hw.swarms s hold
  | clearSwarmDefaults id channels directions =>
    rcases commit_some hexec with ⟨rfl, -⟩ | ⟨rfl, -⟩
    · exact hw.swarms
    intro s hs
    obtain ⟨s₀, hs₀, rfl⟩ := List.mem_map.1 hs
    rw [AgentSwarm.clearDefault_graph]
    exact hw.swarms s₀ hs₀
  | seedSwarm swarm => exact hpermits.elim
  | _ =>
    rw [hframe.swarms rfl]
    exact hw.swarms

theorem Started.saves_wp (platform : Platform DirectCallRequest) (hw : Started w) (op : Op)
    (hop : saves op) :
    Prog.wp Cmd.exec (fun _ w' => Started w') (op.prog platform) w := by
  have hwp : Prog.wp Cmd.exec (fun a w' => ∃ l, Op.returns l a ∧ (∃ ids, l = .start ids) ∧ Started w')
      (op.prog platform) w := by
    refine (Op.conforms platform op).wp (I := fun l w => (∃ ids, l = .start ids) ∧ Started w)
      ⟨⟨[], rfl⟩, hw⟩ ?_
    rintro l cmd o r w w' ⟨⟨ids, rfl⟩, hw⟩ hpermits hexec
    obtain ⟨hcalls, hnext⟩ := starts_of_saves hop hpermits
    exact ⟨hnext r, hw.exec hpermits hcalls hexec⟩
  refine Prog.wp_mono (fun a w' h => ?_) hwp
  obtain ⟨l, -, -, hw'⟩ := h
  exact hw'

/-- A call that is inserted can be started, given the entry node. -/
theorem Started.startable_of_inserts (hw : Started w) {campaignID actor : String}
    {targets : List CampaignTarget} (hentry : hasEntry w (.scheduleCampaign campaignID targets actor))
    {c : Call} {campaign : Campaign} {swarm : AgentSwarm}
    (hc : Inserts w campaignID targets c campaign swarm) : c.Startable := by
  obtain ⟨target, htarget, hphone, hnew, now, hx⟩ := hc.target
  have htakes : takes w campaign targets := by
    simp only [takes, decide_eq_true_eq, List.any_eq_true, List.all_eq_true]
    exact ⟨hc.running.1, hc.running.2, hc.size, target, htarget, hphone, hnew⟩
  simp only [hasEntry, hc.stored, hc.graph, Option.all_some, htakes, not_true_eq_false, false_or,
    decide_eq_true_eq] at hentry
  rw [hx]
  have hmem := (Collection.get_eq_some_iff.1 hc.graph).1
  exact (CampaignTarget.call_startable_iff (hw.swarms swarm hmem)).2 hentry

/-- In every sequence of edits in which a campaign takes calls only while its swarm has
its entry node, every scheduled call can be started. -/
theorem startable_of_hasEntry (h₀ : Started w₀)
    (hs : (controlPlane platform).Sequence (fun w op => edits op && hasEntry w op) w₀ h w) :
    ∀ c ∈ w.calls, c.Startable := by
  suffices hstarted : Started w from hstarted.calls
  refine hs.invariant (I := fun _ w => Started w) h₀ (fun _ _ _ hw => ⟨hw.swarms, hw.calls⟩) ?_
  intro _ w op hw hok
  obtain ⟨hedit, hentry⟩ := (Bool.and_eq_true _ _).mp hok
  cases op with
  | scheduleCampaign campaignID targets actor =>
    apply Prog.wp_bind.2
    refine Prog.wp_mono (fun a w' h => ?_) Stylme.scheduleCampaign_wp
    refine ⟨h.1 ▸ hw.swarms, fun c hc => ?_⟩
    rcases h.2 c hc with hold | ⟨campaign, swarm, hinserts⟩
    · exact hw.calls c hold
    · exact hw.startable_of_inserts hentry hinserts
  | saveSwarm value actor => exact hw.saves_wp platform (.saveSwarm value actor) rfl
  | saveCampaign value actor => exact hw.saves_wp platform (.saveCampaign value actor) rfl
  | _ => cases hedit

end ControlPlane

namespace Sample

/-- The swarm without the node at which the campaign starts. -/
def editedSwarm : AgentSwarm :=
  { swarm with graph := { entryNodeKey := "orders", nodes := [⟨"orders", "agent_1"⟩], edges := [] } }

def editSwarm : ControlPlane.Request := (.saveSwarm editedSwarm "", [{}, {}, {}, {}, {}])

end Sample

namespace ControlPlane

theorem Started.sample : Started Sample.world := by
  constructor
  · intro swarm hswarm
    obtain rfl := List.mem_singleton.1 hswarm
    decide +kernel
  · exact fun c hc => absurd hc Collection.not_mem_empty

/-- A campaign is scheduled and its customer can be called. -/
theorem startable_of_hasEntry_sample :
    ∃ h w c, (controlPlane Sample.platform).Sequence (fun w op => edits op && hasEntry w op)
      Sample.world h w ∧ c ∈ w.calls ∧ c.Startable := by
  have hrun : ((controlPlane Sample.platform).sequence (fun w op => edits op && hasEntry w op)
      [Sample.scheduleOne] [] Sample.world).any
        fun x => x.2.calls.docs.any (·.campaignID = "campaign_1") := by
    decide +kernel
  obtain ⟨h, w, hs, hw⟩ := System.Sequence.exists_of_any hrun
  obtain ⟨c, hc, -⟩ := List.any_eq_true.1 hw
  exact ⟨h, w, c, hs, hc, startable_of_hasEntry .sample hs c hc⟩

/-- The node is removed after the campaign was saved and before it is scheduled. -/
theorem not_startable :
    ¬ ∀ (w₀ : World) (h : List (Op × Reply)) (w : World), Started w₀ →
      (controlPlane Sample.platform).Sequence (fun _ op => edits op) w₀ h w →
      ∀ c ∈ w.calls, c.Startable := by
  intro h
  have hrun : ((controlPlane Sample.platform).sequence (fun _ op => edits op)
      [Sample.editSwarm, Sample.scheduleOne] [] Sample.world).any
        fun x => x.2.calls.docs.any fun c => ¬ c.graphSnapshot.HasNode c.currentNodeKey := by
    decide +kernel
  obtain ⟨ops, w, hs, hw⟩ := System.Sequence.exists_of_any hrun
  obtain ⟨c, hc, hcurrent⟩ := List.any_eq_true.1 hw
  exact of_decide_eq_true hcurrent (h _ _ _ .sample hs c hc).current

end ControlPlane

end Stylme
