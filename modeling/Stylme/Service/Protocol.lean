-- SUMMARY: The operations of the control plane as one system, and the protocol each operation follows at the store and the telephony.
import Stylme.Lib.Pool
import Stylme.Service.Calls
import Stylme.Service.Campaigns

/-!
# Protocols of the operations

A `Phase` is what an execution has learnt from the answers it got so far, above
all which call it works on. `protocol op` says for each phase which commands the
operation may issue, with the full document of each write, and which phase an
answer leads to. Every program conforms to its protocol (`Op.conforms`), so a
proof about interleavings looks at the phases and never at the programs.
-/

namespace Stylme

open Conc

/-! ## Operations -/

inductive Op where
  | saveSwarm (value : AgentSwarm) (actor : String)
  | saveCampaign (value : Campaign) (actor : String)
  | scheduleCampaign (campaignID : String) (targets : List CampaignTarget) (actor : String)
  | triggerCall (request : DirectCallRequest)
  | createInboundCall (request : InboundRequest)
  | recordHandoff (request : HandoffRequest)
  | completeCall (request : CompleteRequest)
  | dispatchOne

inductive Reply where
  | swarm (r : Except Err AgentSwarm)
  | campaign (r : Except Err Campaign)
  | scheduled (r : Except Err ScheduleResult)
  | direct (result : DirectCallResult) (err : Option Err)
  | call (r : Except Err Call)
  | dispatched (err : Option Err)

def Op.prog (platform : Platform DirectCallRequest) : Op → Service Reply
  | .saveSwarm value actor => do return .swarm (← Stylme.saveSwarm value actor)
  | .saveCampaign value actor => do return .campaign (← Stylme.saveCampaign value actor)
  | .scheduleCampaign campaignID targets actor => do
    return .scheduled (← Stylme.scheduleCampaign campaignID targets actor)
  | .triggerCall request => do
    let (result, err) ← Stylme.triggerCall platform request
    return .direct result err
  | .createInboundCall request => do return .call (← Stylme.createInboundCall request)
  | .recordHandoff request => do return .call (← Stylme.recordHandoff request)
  | .completeCall request => do return .call (← Stylme.completeCall request)
  | .dispatchOne => do return .dispatched (← Stylme.dispatchOne platform)

/-! ## Phases -/

inductive Phase where
  /-- Nothing is read that matters; `ids` are the identifiers drawn for new calls. -/
  | start (ids : List String)
  /-- The call was claimed. -/
  | owned (call : Call)
  /-- The campaign is open; its gates are being checked. -/
  | gating (call : Call) (campaign : Campaign)
  /-- The campaign is over. -/
  | cancelling (call : Call)
  /-- The dispatch failed. -/
  | failing (call : Call)
  /-- The gates let the call through. -/
  | cleared (call : Call)
  /-- Nothing stands between the call and the telephony. -/
  | dialing (call : Call)
  /-- The telephony accepted the call. -/
  | answered (call : Call) (room : String)
  /-- The call was read in order to be written back. -/
  | copied (call : Call)
  /-- The call was found by its key or its room. -/
  | found (call : Call)
  /-- The write of the call was acknowledged. -/
  | settled (call : Call)
  /-- The write of a new call was not acknowledged. -/
  | lost
  | done

namespace Phase

/-- The call a dispatcher has taken out of the queue and not yet put back. -/
def held : Phase → Option Call
  | owned c | gating c _ | cancelling c | failing c | cleared c | dialing c | answered c _ => some c
  | _ => none

/-- The call an execution carries a copy of. -/
def call : Phase → Option Call
  | owned c | gating c _ | cancelling c | failing c | cleared c | dialing c | answered c _ => some c
  | copied c | found c | settled c => some c
  | _ => none

theorem call_eq_of_held {l : Phase} {c : Call} (h : l.held = some c) : l.call = some c := by
  cases l <;> simp_all [held, call]

end Phase

/-! ## Protocols -/

/-- The idempotency keys under which a direct call request may be stored. -/
def DirectCallRequest.MayUse (request : DirectCallRequest) (key : String) : Prop :=
  ∃ k, key = "direct:" ++ k ∧ (request.trimmed.key ≠ "" → k = request.trimmed.key)

/-- `x` is a document `CompleteCall` may write back for its copy `c`. -/
def CompleteRequest.Writes (request : CompleteRequest) (c x : Call) : Prop :=
  ∃ now disposition failure, x = { c.closed request.transcript request.failure now with
    disposition := disposition, failure := failure }

/-- `x` is the document `RecordHandoff` writes back for its copy `c`. -/
def HandoffRequest.Writes (request : HandoffRequest) (c x : Call) : Prop :=
  ¬ c.status.terminal ∧ c.currentNodeKey = request.fromNode ∧
    c.graphSnapshot.HasEdge request.fromNode request.toNode ∧
    ∃ fromAgentID toAgentID now, c.handoffAgents request.fromNode request.toNode =
      .ok (fromAgentID, toAgentID) ∧
      x = c.handedOff request.fromNode request.toNode fromAgentID toAgentID request.reason
        request.captured now

namespace Op

/-- The commands of an operation that has not yet taken hold of a call. -/
def starts (op : Op) (ids : List String) : Cmd → Prop
  | .now | .randomID _ | .getAgent _ | .getSwarm _ | .getDefaultSwarm _ _
  | .getOutboundSwarmForAgent _ | .getCampaign _ => True
  | .saveSwarm swarm => ∃ value actor, op = saveSwarm value actor ∧
    value.graph.validateGraph = .ok () ∧ swarm.graph = value.graph
  | .clearSwarmDefaults _ _ _ => ∃ value actor, op = saveSwarm value actor
  | .saveCampaign _ =>
    (∃ value actor, op = saveCampaign value actor) ∨
      ∃ id targets actor, op = scheduleCampaign id targets actor
  | .insertCalls xs =>
    (∃ id targets actor, op = scheduleCampaign id targets actor) ∧
      ∀ x ∈ xs, x.id ∈ ids ∧
        ∃ (target : CampaignTarget) (campaign : Campaign) (swarm : AgentSwarm) (now : Time),
          x = target.call campaign swarm x.id now
  | .getCallByIdempotencyKey key => ∃ request, op = triggerCall request ∧ request.MayUse key
  | .getCallByRoom room => ∃ request, op = createInboundCall request ∧ room = request.room
  | .saveCall x =>
    x.id ∈ ids ∧
      ((∃ request swarm key fromNumber now, op = triggerCall request ∧ request.MayUse key ∧
          x = request.trimmed.call swarm key fromNumber x.id now) ∨
        ∃ request swarm agentID now, op = createInboundCall request ∧ request.room ≠ "" ∧
          swarm.graph.graphAgentID swarm.graph.entryNodeKey = .ok agentID ∧
          x = inboundCall swarm request.room request.fromNumber request.toNumber
            request.contextData request.metadata agentID x.id now)
  | .getCall id =>
    (∃ request, op = recordHandoff request ∧ id = request.callID) ∨
      ∃ request, op = completeCall request ∧ id = request.callID
  | .claimPendingCall _ lease => op = dispatchOne ∧ lease = 90 * second
  | _ => False

/-- The commands of an operation that writes back a call it has read. -/
def updates (op : Op) (c : Call) : Cmd → Prop
  | .now => True
  | .getAgent _ | .disposition _ _ => ∃ request, op = completeCall request
  | .saveCall x =>
    (∃ request, op = recordHandoff request ∧ request.Writes c x) ∨
      ∃ request, op = completeCall request ∧ request.Writes c x
  | _ => False

def permits (op : Op) : Phase → Cmd → Prop
  | .start ids, cmd => op.starts ids cmd
  | .copied c, cmd => op.updates c cmd
  | .owned c, .getCampaign id => id = c.campaignID
  | .owned c, .getSwarm id => id = c.swarmID ∧ c.campaignID = ""
  | .gating c campaign, .countActiveCampaignCalls id exclude => id = campaign.id ∧ exclude = c.id
  | .gating c _, .saveCall x => ∃ scheduledAt now, x = c.deferred scheduledAt now
  | .cancelling c, .saveCall x => ∃ reason now, x = c.cancelled reason now
  | .failing c, .saveCall x => ∃ cause now, x = c.dispatchFailed cause now
  | .cleared c, .getSwarm id => id = c.swarmID
  | .dialing c, .dispatchOutbound c' _ => c' = c
  | .answered c room, .saveCall x => ∃ now, x = c.ringing room now
  | .settled _, .incrementCampaignCount _ _ _ => True
  | .lost, .getCallByIdempotencyKey key => ∃ request, op = triggerCall request ∧ request.MayUse key
  | .gating _ _, .now | .cancelling _, .now | .failing _, .now | .answered _ _, .now => True
  | _, _ => False

/-- The phase of an operation whose new call is stored. -/
def created : Op → Call → Phase
  | triggerCall _, c => .dialing c
  | _, c => .settled c

def next (op : Op) : Phase → (c : Cmd) → Resp c → Phase
  | .start ids, .randomID _, id => .start (id :: ids)
  | .start _, .insertCalls _, _ => .start []
  | .start _, .getCallByIdempotencyKey _, .ok c => .found c
  | .start _, .getCallByRoom _, .ok c => .found c
  | .start _, .saveCall x, .ok () => op.created x
  | .start _, .saveCall _, .error _ => .lost
  | .start _, .getCall _, .ok c => .copied c
  | .start _, .claimPendingCall _ _, .ok c => .owned c
  | .start _, .claimPendingCall _ _, .error _ => .done
  | .owned c, .getCampaign _, .ok campaign =>
    if campaign.status = "completed" ∨ campaign.status = "cancelled" then .cancelling c
    else .gating c campaign
  | .owned c, .getCampaign _, .error _ => .failing c
  | .gating c campaign, .countActiveCampaignCalls _ _, .ok active =>
    if campaign.maxConcurrency ≤ active then .gating c campaign else .cleared c
  | .gating c _, .countActiveCampaignCalls _ _, .error _ => .failing c
  | .owned c, .getSwarm _, .ok _ | .cleared c, .getSwarm _, .ok _ => .dialing c
  | .owned c, .getSwarm _, .error _ | .cleared c, .getSwarm _, .error _ => .failing c
  | .dialing c, .dispatchOutbound _ _, .ok room => .answered c room
  | .dialing c, .dispatchOutbound _ _, .error _ => .failing c
  | .gating _ _, .saveCall x, .ok () | .cancelling _, .saveCall x, .ok ()
  | .failing _, .saveCall x, .ok () | .answered _ _, .saveCall x, .ok ()
  | .copied _, .saveCall x, .ok () => .settled x
  | .gating _ _, .saveCall _, .error _ | .cancelling _, .saveCall _, .error _
  | .failing _, .saveCall _, .error _ | .answered _ _, .saveCall _, .error _
  | .copied _, .saveCall _, .error _ => .done
  | .lost, .getCallByIdempotencyKey _, .ok c => .found c
  | l, _, _ => l

def protocol (op : Op) : Protocol Cmd Resp Phase := ⟨op.permits, op.next⟩

/-- What an operation may answer in which phase: no dispatcher returns while it
holds a call, and an answer that names a call names the one of the phase. -/
def returns (l : Phase) (r : Reply) : Prop :=
  l.held = none ∧
    match r with
    | .direct result none => ∃ c, (l = .found c ∨ l = .settled c) ∧ result.callID = c.id
    | .call (.ok c) => l = .found c ∨ l = .settled c
    | _ => True

end Op

/-! ## The dispatcher conforms -/

section Dispatch

variable {op : Op} {c : Call}

/-- A dispatch puts its call back; without an error the call is settled. -/
def Dispatched (c : Call) (l : Phase) (err : Option Err) : Prop :=
  l.held = none ∧ (err = none → ∃ x, l = .settled x ∧ x.id = c.id)

theorem Call.dispatchFailed_id {cause : Err} {now : Time} :
    (c.dispatchFailed cause now).id = c.id := by
  unfold Call.dispatchFailed; split <;> rfl

theorem failDispatch_conforms {cause : Err} :
    Prog.Conforms op.protocol (Dispatched c) (.failing c) (failDispatch c cause) := by
  refine .call trivial fun now => .call ⟨cause, now, rfl⟩ fun r => ?_
  cases r with
  | error e => exact .pure ⟨rfl, fun h => by simp at h⟩
  | ok u => exact .pure ⟨rfl, fun h => by simp at h⟩

theorem deferDispatch_conforms {campaign : Campaign} {scheduledAt : Time} :
    Prog.Conforms op.protocol (Dispatched c) (.gating c campaign) (deferDispatch c scheduledAt) := by
  refine .call trivial fun now => .call ⟨scheduledAt, now, rfl⟩ fun r => ?_
  cases r with
  | error e => exact .pure ⟨rfl, fun h => by simp at h⟩
  | ok u => exact .pure ⟨rfl, fun h => by simp at h⟩

theorem cancelUndispatchedCall_conforms {reason : String} :
    Prog.Conforms op.protocol (Dispatched c) (.cancelling c) (cancelUndispatchedCall c reason) := by
  refine .call trivial fun now => .call ⟨reason, now, rfl⟩ fun r => ?_
  cases r with
  | error e => exact .pure ⟨rfl, fun h => by simp at h⟩
  | ok u => exact .call trivial fun _ => .pure ⟨rfl, fun h => by simp at h⟩

theorem dispatchCall_conforms {swarm : AgentSwarm} :
    Prog.Conforms op.protocol (Dispatched c) (.dialing c) (dispatchCall c swarm) := by
  refine .call rfl fun r => ?_
  cases r with
  | error e => exact failDispatch_conforms
  | ok room =>
    refine .call trivial fun now => .call ⟨now, rfl⟩ fun r => ?_
    cases r with
    | error e => exact .pure ⟨rfl, fun h => by simp at h⟩
    | ok u => exact .call trivial fun _ => .pure ⟨rfl, fun _ => ⟨_, rfl, rfl⟩⟩

theorem dispatchCleared_conforms {l : Phase}
    (hl : l = .cleared c ∨ (l = .owned c ∧ c.campaignID = "")) :
    Prog.Conforms op.protocol (Dispatched c) l (dispatchCleared c) := by
  rcases hl with rfl | ⟨rfl, hcampaign⟩
  · refine .call rfl fun r => ?_
    cases r with
    | error e => exact failDispatch_conforms
    | ok swarm => exact dispatchCall_conforms
  · refine .call ⟨rfl, hcampaign⟩ fun r => ?_
    cases r with
    | error e => exact failDispatch_conforms
    | ok swarm => exact dispatchCall_conforms

theorem dispatchRunning_conforms {platform : Platform DirectCallRequest} {campaign : Campaign}
    {now : Time} :
    Prog.Conforms op.protocol (Dispatched c) (.gating c campaign)
      (dispatchRunning platform c campaign now) := by
  unfold dispatchRunning
  split
  · exact deferDispatch_conforms
  · refine .call ⟨rfl, rfl⟩ fun r => ?_
    cases r with
    | error e => exact failDispatch_conforms
    | ok active =>
      change Prog.Conforms _ _
        (if campaign.maxConcurrency ≤ active then Phase.gating c campaign else Phase.cleared c)
        (if campaign.maxConcurrency ≤ active then deferDispatch c (now + 30 * second)
          else dispatchCleared c)
      split
      · exact deferDispatch_conforms
      · exact dispatchCleared_conforms (.inl rfl)

theorem dispatchOne_conforms {platform : Platform DirectCallRequest} :
    Prog.Conforms (Op.protocol .dispatchOne) (fun l _ => l.held = none) (.start [])
      (dispatchOne platform) := by
  refine .call trivial fun now => .call ⟨rfl, rfl⟩ fun r => ?_
  cases r with
  | error e => exact .pure rfl
  | ok c =>
    change Prog.Conforms _ _ (Phase.owned c) (if c.campaignID = "" then dispatchCleared c else _)
    split
    · rename_i hcampaign
      exact (dispatchCleared_conforms (.inr ⟨rfl, hcampaign⟩)).mono fun l err h => h.1
    refine .call rfl fun r => ?_
    cases r with
    | error e => exact failDispatch_conforms.mono fun l err h => h.1
    | ok campaign =>
      change Prog.Conforms _ _
        (if campaign.status = "completed" ∨ campaign.status = "cancelled" then Phase.cancelling c
          else Phase.gating c campaign)
        (if campaign.status = "completed" ∨ campaign.status = "cancelled" then
          cancelUndispatchedCall c ("campaign is " ++ campaign.status)
        else if campaign.status = "running" then dispatchRunning platform c campaign now
        else deferDispatch c (now + minute))
      split
      · exact cancelUndispatchedCall_conforms.mono fun l err h => h.1
      split
      · exact dispatchRunning_conforms.mono fun l err h => h.1
      · exact deferDispatch_conforms.mono fun l err h => h.1

end Dispatch

/-! ## The other operations conform -/

theorem createDirectCall_conforms {request : DirectCallRequest} {swarm : AgentSwarm}
    {agentID key fromNumber : String} {ids : List String} (hkey : request.MayUse key) :
    Prog.Conforms (Op.protocol (.triggerCall request))
      (fun l r => Op.returns l (.direct r.1 r.2)) (.start ids)
      (createDirectCall request.trimmed swarm agentID key fromNumber) := by
  refine .call trivial fun now => .call trivial fun id => .call ?_ fun r => ?_
  · exact ⟨List.mem_cons_self, .inl ⟨request, swarm, key, fromNumber, now, rfl, hkey, rfl⟩⟩
  cases r with
  | error e =>
    cases e with
    | duplicateKey =>
      refine .call ⟨request, rfl, hkey⟩ fun r => ?_
      cases r with
      | error e => exact .pure ⟨rfl, trivial⟩
      | ok existing => exact .pure ⟨rfl, existing, .inl rfl, rfl⟩
    | notFound => exact .pure ⟨rfl, trivial⟩
    | unavailable m => exact .pure ⟨rfl, trivial⟩
    | message m => exact .pure ⟨rfl, trivial⟩
    | wrapped m e => exact .pure ⟨rfl, trivial⟩
  | ok u =>
    refine Prog.Conforms.bind dispatchCall_conforms fun l err h => ?_
    cases err with
    | some e => exact .pure ⟨h.1, trivial⟩
    | none =>
      obtain ⟨x, hx, hid⟩ := h.2 rfl
      exact .pure ⟨h.1, x, .inr hx, hid.symm⟩

theorem resolveKey_conforms {request : DirectCallRequest} :
    Prog.Conforms (Op.protocol (.triggerCall request))
      (fun l key => (∃ ids, l = .start ids) ∧ request.MayUse ("direct:" ++ key)) (.start [])
      (resolveKey request.trimmed) := by
  unfold resolveKey
  split
  · exact .pure ⟨⟨[], rfl⟩, _, rfl, fun _ => rfl⟩
  · rename_i hkey
    exact .call trivial fun id => .pure ⟨⟨_, rfl⟩, _, rfl, fun h => absurd h hkey⟩

theorem findOrCreateDirectCall_conforms {request : DirectCallRequest} {swarm : AgentSwarm}
    {agentID fromNumber : String} :
    Prog.Conforms (Op.protocol (.triggerCall request))
      (fun l r => Op.returns l (.direct r.1 r.2)) (.start [])
      (findOrCreateDirectCall request.trimmed swarm agentID fromNumber) := by
  unfold findOrCreateDirectCall
  refine Prog.Conforms.bind resolveKey_conforms fun l key ⟨⟨ids, hl⟩, hkey⟩ => ?_
  subst hl
  refine .call ⟨request, rfl, hkey⟩ fun r => ?_
  cases r with
  | ok existing => exact .pure ⟨rfl, existing, .inl rfl, rfl⟩
  | error e =>
    cases e with
    | notFound => exact createDirectCall_conforms hkey
    | duplicateKey => exact .pure ⟨rfl, trivial⟩
    | unavailable m => exact .pure ⟨rfl, trivial⟩
    | message m => exact .pure ⟨rfl, trivial⟩
    | wrapped m e => exact .pure ⟨rfl, trivial⟩

theorem resolveOutboundSwarm_conforms {op : Op} {request : DirectCallRequest} :
    Prog.Conforms op.protocol (fun l _ => l = .start []) (.start [])
      (resolveOutboundSwarm request) := by
  unfold resolveOutboundSwarm
  split
  · exact .call trivial fun _ => .pure rfl
  split
  · exact .call trivial fun _ => .pure rfl
  · exact .call trivial fun _ => .pure rfl

theorem triggerCall_conforms {platform : Platform DirectCallRequest} {request : DirectCallRequest} :
    Prog.Conforms (Op.protocol (.triggerCall request))
      (fun l r => Op.returns l (.direct r.1 r.2)) (.start []) (triggerCall platform request) := by
  unfold triggerCall
  split
  · exact .pure ⟨rfl, trivial⟩
  split
  · exact .pure ⟨rfl, trivial⟩
  unfold triggerTrimmed
  split
  · exact .pure ⟨rfl, trivial⟩
  refine Prog.Conforms.bind resolveOutboundSwarm_conforms fun l r hl => ?_
  subst hl
  cases r with
  | error e => exact .pure ⟨rfl, trivial⟩
  | ok swarm =>
    dsimp only
    split
    · exact .pure ⟨rfl, trivial⟩
    split
    · exact .pure ⟨rfl, trivial⟩
    refine .call trivial fun r => ?_
    cases r with
    | error e => exact .pure ⟨rfl, trivial⟩
    | ok agent =>
      dsimp only
      split
      · exact .pure ⟨rfl, trivial⟩
      · exact findOrCreateDirectCall_conforms

theorem createInboundCall_conforms {request : InboundRequest} :
    Prog.Conforms (Op.protocol (.createInboundCall request)) (fun l r => Op.returns l (.call r))
      (.start []) (createInboundCall request) := by
  refine .call trivial fun r => ?_
  cases r with
  | error e => exact .pure ⟨rfl, trivial⟩
  | ok swarm =>
    dsimp only
    split
    · exact .pure ⟨rfl, trivial⟩
    rename_i hroom
    refine .call ⟨request, rfl, rfl⟩ fun r => ?_
    cases r with
    | ok existing => exact .pure ⟨rfl, .inl rfl⟩
    | error e =>
      cases e with
      | notFound =>
        refine .call trivial fun now => ?_
        split
        · exact .pure ⟨rfl, trivial⟩
        rename_i agentID hagent
        refine .call trivial fun id => .call ⟨List.mem_cons_self, .inr
          ⟨request, swarm, agentID, now, rfl, hroom, hagent, rfl⟩⟩ fun r => ?_
        cases r with
        | error e => exact .pure ⟨rfl, trivial⟩
        | ok u => exact .pure ⟨rfl, .inr rfl⟩
      | duplicateKey => exact .pure ⟨rfl, trivial⟩
      | unavailable m => exact .pure ⟨rfl, trivial⟩
      | message m => exact .pure ⟨rfl, trivial⟩
      | wrapped m e => exact .pure ⟨rfl, trivial⟩

/-- Only an acknowledged write settles the call, and it is answered with the call. -/
theorem recordHandoff_conforms {request : HandoffRequest} :
    Prog.Conforms (Op.protocol (.recordHandoff request))
      (fun l r => Op.returns l (.call r) ∧ ((∃ x, l = .settled x) → ∃ c, r = .ok c))
      (.start []) (recordHandoff request) := by
  have hrefused : ∀ {l : Phase} {e : Err}, l.held = none → (∀ x, l ≠ .settled x) →
      Op.returns l (.call (.error e)) ∧ ((∃ x, l = .settled x) → ∃ c : Call, Except.error e = .ok c) :=
    fun hheld hl => ⟨⟨hheld, trivial⟩, fun ⟨x, hx⟩ => absurd hx (hl x)⟩
  have hstart : ∀ x, Phase.start [] ≠ .settled x := fun _ => Phase.noConfusion
  have hcopied : ∀ {c : Call} x, Phase.copied c ≠ .settled x := fun _ => Phase.noConfusion
  have hdone : ∀ x, Phase.done ≠ .settled x := fun _ => Phase.noConfusion
  refine .call (.inl ⟨request, rfl, rfl⟩) fun r => ?_
  cases r with
  | error e => exact .pure (hrefused rfl hstart)
  | ok c =>
    dsimp only
    split
    · exact .pure (hrefused rfl hcopied)
    split
    · exact .pure (hrefused rfl hcopied)
    split
    · exact .pure (hrefused rfl hcopied)
    split
    · exact .pure (hrefused rfl hcopied)
    rename_i hterminal hsource hedge _ fromAgentID toAgentID hagents
    refine .call trivial fun now => .call (.inl ⟨request, rfl, hterminal, not_not.1 hsource,
      not_not.1 hedge, fromAgentID, toAgentID, now, hagents, rfl⟩) fun r => ?_
    cases r with
    | error e => exact .pure (hrefused rfl hdone)
    | ok u => exact .pure ⟨⟨rfl, .inr rfl⟩, fun _ => ⟨_, rfl⟩⟩

section Completion

variable {request : CompleteRequest} {c : Call}

theorem captureFields_conforms {ids : List String} {fields : List CaptureField} :
    Prog.Conforms (Op.protocol (.completeCall request)) (fun l _ => l = .copied c) (.copied c)
      (captureFields ids fields) := by
  induction ids generalizing fields with
  | nil => exact .pure rfl
  | cons id ids ih =>
    refine .call ⟨request, rfl⟩ fun r => ?_
    cases r with
    | error e => exact .pure rfl
    | ok agent => exact ih

theorem dispositionAgent_conforms {x : Call} :
    Prog.Conforms (Op.protocol (.completeCall request)) (fun l _ => l = .copied c) (.copied c)
      (dispositionAgent x) := by
  unfold dispositionAgent
  split
  · exact .pure rfl
  refine .call ⟨request, rfl⟩ fun r => ?_
  cases r with
  | error e => exact .pure rfl
  | ok base =>
    refine Prog.Conforms.bind captureFields_conforms fun l r hl => ?_
    cases r with
    | error e => exact .pure hl
    | ok fields => exact .pure hl

/-- The disposition changes nothing but the disposition and the failure. -/
theorem withDisposition_conforms {x : Call} {transcript : List TranscriptTurn} :
    Prog.Conforms (Op.protocol (.completeCall request))
      (fun l y => l = .copied c ∧ ∃ d f, y = { x with disposition := d, failure := f })
      (.copied c) (withDisposition x transcript) := by
  unfold withDisposition
  split
  · exact .pure ⟨rfl, x.disposition, x.failure, rfl⟩
  refine Prog.Conforms.bind dispositionAgent_conforms fun l r hl => ?_
  subst hl
  cases r with
  | error e => exact .pure ⟨rfl, x.disposition, x.failure, rfl⟩
  | ok agent =>
    refine .call ⟨request, rfl⟩ fun r => ?_
    cases r with
    | error e => exact .pure ⟨rfl, _, _, rfl⟩
    | ok d => exact .pure ⟨rfl, _, _, rfl⟩

theorem completeCall_conforms :
    Prog.Conforms (Op.protocol (.completeCall request)) (fun l r => Op.returns l (.call r))
      (.start []) (completeCall request) := by
  refine .call (.inr ⟨request, rfl, rfl⟩) fun r => ?_
  cases r with
  | error e => exact .pure ⟨rfl, trivial⟩
  | ok c =>
    refine .call trivial fun now => ?_
    refine Prog.Conforms.bind (withDisposition_conforms (c := c)) fun l y ⟨hl, d, f, hy⟩ => ?_
    subst hl hy
    refine .call (.inr ⟨request, rfl, now, d, f, rfl⟩) fun r => ?_
    cases r with
    | error e => exact .pure ⟨rfl, trivial⟩
    | ok u => exact .call trivial fun _ => .pure ⟨rfl, .inr rfl⟩

end Completion

section Campaigns

theorem nodeAgents_conforms {op : Op} {swarm : AgentSwarm} {nodes : List SwarmNode} :
    Prog.Conforms op.protocol (fun l _ => l = .start []) (.start []) (nodeAgents swarm nodes) := by
  induction nodes with
  | nil => exact .pure rfl
  | cons node nodes ih =>
    refine .call trivial fun r => ?_
    cases r with
    | error e => exact .pure rfl
    | ok agent =>
      dsimp only
      split
      · exact .pure rfl
      · refine Prog.Conforms.bind ih fun l r hl => ?_
        cases r with
        | error e => exact .pure hl
        | ok agents => exact .pure hl

/-- The checks leave the graph alone. -/
theorem AgentSwarm.prepared_graph {value swarm : AgentSwarm} {agents : List (String × Agent)}
    (h : value.prepared agents = .ok swarm) : swarm.graph = value.graph := by
  unfold AgentSwarm.prepared at h
  split at h
  · cases h
  split at h
  · cases h
  split at h
  · cases h
  split at h
  · cases h
  · exact Except.ok.inj h ▸ rfl

theorem storeSwarm_conforms {value swarm : AgentSwarm} {actor : String} {ids : List String}
    (hvalid : value.graph.validateGraph = .ok ()) (hgraph : swarm.graph = value.graph) :
    Prog.Conforms (Op.protocol (.saveSwarm value actor)) (fun l r => Op.returns l (.swarm r))
      (.start ids) (storeSwarm swarm) := by
  unfold storeSwarm
  split
  · refine .call ⟨value, actor, rfl⟩ fun r => ?_
    cases r with
    | error e => exact .pure ⟨rfl, trivial⟩
    | ok u =>
      refine .call ⟨value, actor, rfl, hvalid, hgraph⟩ fun r => ?_
      cases r with
      | error e => exact .pure ⟨rfl, trivial⟩
      | ok u => exact .pure ⟨rfl, trivial⟩
  · refine .call ⟨value, actor, rfl, hvalid, hgraph⟩ fun r => ?_
    cases r with
    | error e => exact .pure ⟨rfl, trivial⟩
    | ok u => exact .pure ⟨rfl, trivial⟩

theorem saveSwarm_conforms {value : AgentSwarm} {actor : String} :
    Prog.Conforms (Op.protocol (.saveSwarm value actor)) (fun l r => Op.returns l (.swarm r))
      (.start []) (saveSwarm value actor) := by
  unfold saveSwarm
  split
  · exact .pure ⟨rfl, trivial⟩
  split
  · exact .pure ⟨rfl, trivial⟩
  rename_i hvalid
  refine Prog.Conforms.bind nodeAgents_conforms fun l r hl => ?_
  subst hl
  cases r with
  | error e => exact .pure ⟨rfl, trivial⟩
  | ok agents =>
    dsimp only
    split
    · exact .pure ⟨rfl, trivial⟩
    rename_i prepared hprepared
    have hgraph := AgentSwarm.prepared_graph hprepared
    refine .call trivial fun now => ?_
    split
    · exact .call trivial fun id => storeSwarm_conforms hvalid hgraph
    refine .call trivial fun r => ?_
    cases r with
    | ok existing => exact storeSwarm_conforms hvalid hgraph
    | error e =>
      cases e with
      | notFound => exact storeSwarm_conforms hvalid hgraph
      | duplicateKey => exact .pure ⟨rfl, trivial⟩
      | unavailable m => exact .pure ⟨rfl, trivial⟩
      | message m => exact .pure ⟨rfl, trivial⟩
      | wrapped m e => exact .pure ⟨rfl, trivial⟩

theorem storeCampaign_conforms {value campaign : Campaign} {actor : String} {ids : List String} :
    Prog.Conforms (Op.protocol (.saveCampaign value actor)) (fun l r => Op.returns l (.campaign r))
      (.start ids) (storeCampaign campaign) := by
  refine .call (.inl ⟨value, actor, rfl⟩) fun r => ?_
  cases r with
  | error e => exact .pure ⟨rfl, trivial⟩
  | ok u => exact .pure ⟨rfl, trivial⟩

theorem saveCampaign_conforms {value : Campaign} {actor : String} :
    Prog.Conforms (Op.protocol (.saveCampaign value actor)) (fun l r => Op.returns l (.campaign r))
      (.start []) (saveCampaign value actor) := by
  unfold saveCampaign
  split
  · exact .pure ⟨rfl, trivial⟩
  refine .call trivial fun r => ?_
  cases r with
  | error e => exact .pure ⟨rfl, trivial⟩
  | ok swarm =>
    dsimp only
    split
    · exact .pure ⟨rfl, trivial⟩
    refine .call trivial fun now => ?_
    split
    · exact .call trivial fun id => storeCampaign_conforms
    refine .call trivial fun r => ?_
    cases r with
    | ok existing => exact storeCampaign_conforms
    | error e =>
      cases e with
      | notFound => exact storeCampaign_conforms
      | duplicateKey => exact .pure ⟨rfl, trivial⟩
      | unavailable m => exact .pure ⟨rfl, trivial⟩
      | message m => exact .pure ⟨rfl, trivial⟩
      | wrapped m e => exact .pure ⟨rfl, trivial⟩

/-- The calls of a campaign carry identifiers drawn for them. -/
theorem targetCalls_conforms {op : Op} {campaign : Campaign} {swarm : AgentSwarm} {now : Time}
    {targets : List CampaignTarget} {index : ℕ} {ids : List String} :
    Prog.Conforms op.protocol
      (fun l r => ∃ ids', l = .start ids' ∧ ids ⊆ ids' ∧ ∀ x ∈ r.1, x.id ∈ ids' ∧
        ∃ target : CampaignTarget, x = target.call campaign swarm x.id now)
      (.start ids) (targetCalls campaign swarm now targets index) := by
  induction targets generalizing index ids with
  | nil => exact .pure ⟨ids, rfl, List.Subset.refl _, fun _ hx => absurd hx List.not_mem_nil⟩
  | cons target targets ih =>
    unfold targetCalls
    split
    · exact Prog.Conforms.bind ih fun l r h => .pure h
    · refine .call trivial fun id => Prog.Conforms.bind ih fun l r h => ?_
      obtain ⟨ids', hl, hsub, hcalls⟩ := h
      refine .pure ⟨ids', hl, fun k hk => hsub (List.mem_cons_of_mem _ hk), fun x hx => ?_⟩
      rcases List.mem_cons.1 hx with rfl | hx
      · exact ⟨hsub List.mem_cons_self, target, rfl⟩
      · exact hcalls x hx

theorem scheduleCampaign_conforms {campaignID actor : String} {targets : List CampaignTarget} :
    Prog.Conforms (Op.protocol (.scheduleCampaign campaignID targets actor))
      (fun l r => Op.returns l (.scheduled r)) (.start [])
      (scheduleCampaign campaignID targets actor) := by
  unfold scheduleCampaign
  split
  · exact .pure ⟨rfl, trivial⟩
  refine .call trivial fun r => ?_
  cases r with
  | error e => exact .pure ⟨rfl, trivial⟩
  | ok campaign =>
    dsimp only
    split
    · exact .pure ⟨rfl, trivial⟩
    refine .call trivial fun r => ?_
    cases r with
    | error e => exact .pure ⟨rfl, trivial⟩
    | ok swarm =>
      refine .call trivial fun now => ?_
      refine Prog.Conforms.bind targetCalls_conforms fun l r ⟨ids, hl, _, hcalls⟩ => ?_
      subst hl
      refine .call ⟨⟨_, _, _, rfl⟩, fun x hx => ?_⟩ fun r => ?_
      · obtain ⟨hid, target, hx⟩ := hcalls x hx
        exact ⟨hid, target, campaign, swarm, now, hx⟩
      cases r with
      | error e => exact .pure ⟨rfl, trivial⟩
      | ok inserted =>
        refine .call (.inr ⟨_, _, _, rfl⟩) fun r => ?_
        cases r with
        | error e => exact .pure ⟨rfl, trivial⟩
        | ok u => exact .pure ⟨rfl, trivial⟩

end Campaigns

/-- Every operation conforms to its protocol. -/
theorem Op.conforms (platform : Platform DirectCallRequest) (op : Op) :
    Prog.Conforms op.protocol Op.returns (.start []) (op.prog platform) := by
  cases op with
  | saveSwarm value actor => exact saveSwarm_conforms.bind fun _ _ h => .pure h
  | saveCampaign value actor => exact saveCampaign_conforms.bind fun _ _ h => .pure h
  | scheduleCampaign campaignID targets actor => exact scheduleCampaign_conforms.bind fun _ _ h => .pure h
  | triggerCall request => exact triggerCall_conforms.bind fun _ _ h => .pure h
  | createInboundCall request => exact createInboundCall_conforms.bind fun _ _ h => .pure h
  | recordHandoff request => exact recordHandoff_conforms.bind fun _ _ h => .pure h.1
  | completeCall request => exact completeCall_conforms.bind fun _ _ h => .pure h
  | dispatchOne => exact dispatchOne_conforms.bind fun _ _ h => .pure ⟨h, trivial⟩

@[simp] theorem Op.protocol_permits {op : Op} : op.protocol.permits = op.permits := rfl

@[simp] theorem Op.protocol_next {op : Op} : op.protocol.next = op.next := rfl

end Stylme
