-- SUMMARY: The life of a call: direct and inbound creation, the configuration of its worker, handoffs between agents, and completion.
import Mathlib.Data.List.ModifyLast
import Stylme.Service.Dispatch

/-!
# Calls

`TriggerCall`, `CreateInboundCall`, `RuntimeConfig`, `RecordHandoff` and `CompleteCall`
of `internal/service/service.go`.
-/

namespace Stylme

open Conc

/-! ## Direct calls -/

structure DirectCallRequest where
  agentID : String := ""
  swarmID : String := ""
  toNumber : String := ""
  fromNumber : String := ""
  externalID : String := ""
  idempotencyKey : String := ""
  participant : Option Document := none
  context : Option Document := none
  metadata : Option Document := none

structure DirectCallResult where
  callID : String := ""
  status : String := ""
  idempotent : Bool := false
  swarmID : String := ""
  agentID : String := ""

namespace DirectCallRequest

def trimmed (request : DirectCallRequest) : DirectCallRequest :=
  { request with
    agentID := trimSpace request.agentID
    swarmID := trimSpace request.swarmID
    toNumber := trimSpace request.toNumber
    fromNumber := trimSpace request.fromNumber
    externalID := trimSpace request.externalID
    idempotencyKey := trimSpace request.idempotencyKey }

/-- The idempotency key a trimmed request carries, in its own field or in its
metadata; empty when it carries none. -/
def key (request : DirectCallRequest) : String :=
  if request.idempotencyKey ≠ "" then request.idempotencyKey
  else
    match (request.metadata.getD []).lookup "idempotency_key" with
    | some (.str value) => trimSpace value
    | _ => ""

/-- The number a trimmed request calls from: its own or the swarm's. -/
def callerNumber (request : DirectCallRequest) (swarm : AgentSwarm) : String :=
  if request.fromNumber = "" then trimSpace swarm.telephony.phoneNumber else request.fromNumber

/-- The call a trimmed request creates. -/
def call (request : DirectCallRequest) (swarm : AgentSwarm) (idempotencyKey fromNumber id : String)
    (now : Time) : Call where
  id := id
  tenantID := "stylme"
  campaignID := ""
  swarmID := swarm.id
  direction := "outbound"
  status := .dispatching
  externalID := request.externalID
  idempotencyKey := idempotencyKey
  fromNumber := fromNumber
  toNumber := request.toNumber
  attempt := 1
  maxAttempts := 1
  scheduledAt := now
  leaseUntil := none
  graphSnapshot := swarm.graph
  campaignSnapshot := none
  currentNodeKey := swarm.graph.entryNodeKey
  agentTrace := []
  participant := request.participant
  context := some (setKey "trigger_metadata" (.obj (request.metadata.getD []))
    (request.context.getD []))
  liveKit := some []
  transcript := []
  disposition := none
  failure := none
  metadata := some (request.metadata.getD [])
  startedAt := none
  answeredAt := none
  endedAt := none
  createdAt := now
  updatedAt := now

end DirectCallRequest

/-- The answer for a call that was created before. -/
def DirectCallResult.existing (call : Call) (agentID : String) : DirectCallResult where
  callID := call.id
  status := call.status.toString
  idempotent := true
  swarmID := call.swarmID
  agentID := agentID

def directCallAgentID (swarm : AgentSwarm) (requested : String) : Except String String :=
  if requested = "" then swarm.graph.graphAgentID swarm.graph.entryNodeKey
  else if swarm.graph.nodes.any (·.agentID = requested) then .ok requested
  else .error "agent_id is not a node in the selected outbound swarm"

def resolveOutboundSwarm (request : DirectCallRequest) : Service (Except Err AgentSwarm) :=
  if request.swarmID ≠ "" then Store.getSwarm request.swarmID
  else if request.agentID ≠ "" then Store.getOutboundSwarmForAgent request.agentID
  else Store.getDefaultSwarm "voice" "outbound"

/-- The key of the request, or a random one. -/
def resolveKey (request : DirectCallRequest) : Service String :=
  if request.key ≠ "" then pure request.key else Store.randomID "direct"

/-- `TriggerCall` once no call with the key was found. -/
def createDirectCall (request : DirectCallRequest) (swarm : AgentSwarm)
    (agentID idempotencyKey fromNumber : String) : Service (DirectCallResult × Option Err) := do
  let now ← Store.now
  let id ← Store.randomID "call"
  match ← Store.saveCall (request.call swarm idempotencyKey fromNumber id now) with
  | .error .duplicateKey =>
    match ← Store.getCallByIdempotencyKey idempotencyKey with
    | .ok existing => return (.existing existing agentID, none)
    | .error _ => return ({}, some .duplicateKey)
  | .error e => return ({}, some e)
  | .ok () =>
    match ← dispatchCall (request.call swarm idempotencyKey fromNumber id now) swarm with
    | some e =>
      return ({ callID := id, status := "failed", swarmID := swarm.id, agentID := agentID }, some e)
    | none =>
      return ({ callID := id, status := "accepted", swarmID := swarm.id, agentID := agentID }, none)

/-- `TriggerCall` once the request has passed its checks. -/
def findOrCreateDirectCall (request : DirectCallRequest) (swarm : AgentSwarm)
    (agentID fromNumber : String) : Service (DirectCallResult × Option Err) := do
  let key ← resolveKey request
  match ← Store.getCallByIdempotencyKey ("direct:" ++ key) with
  | .ok existing => return (.existing existing agentID, none)
  | .error .notFound => createDirectCall request swarm agentID ("direct:" ++ key) fromNumber
  | .error e => return ({}, some e)

/-- `TriggerCall` of a trimmed request. -/
def triggerTrimmed (request : DirectCallRequest) : Service (DirectCallResult × Option Err) :=
  if ¬ isE164 request.toNumber then
    pure ({}, some (.message "to_number must use E.164 format"))
  else do
    match ← resolveOutboundSwarm request with
    | .error e => return ({}, some (.wrapped "resolve outbound swarm" e))
    | .ok swarm =>
      if swarm.status ≠ "active" ∨ "voice" ∉ swarm.channels ∨ "outbound" ∉ swarm.directions then
        return ({}, some (.message "selected swarm is not an active outbound voice swarm"))
      else
        match directCallAgentID swarm request.agentID with
        | .error e => return ({}, some (.message e))
        | .ok agentID =>
          match ← Store.getAgent agentID with
          | .error e => return ({}, some (.wrapped "resolve agent" e))
          | .ok _ =>
            if ¬ isE164 (request.callerNumber swarm) then
              return ({}, some (.message
                "from_number must use E.164 format or be configured on the swarm"))
            else findOrCreateDirectCall request swarm agentID (request.callerNumber swarm)

def triggerCall (platform : Platform DirectCallRequest) (request : DirectCallRequest) :
    Service (DirectCallResult × Option Err) :=
  match platform.marshalSize request with
  | none => pure ({}, some (.message "request contains unsupported metadata"))
  | some size =>
    if 16 * 1024 < size then pure ({}, some (.message "call payload exceeds 16 KiB"))
    else triggerTrimmed request.trimmed

/-! ## Inbound calls -/

/-- The call `CreateInboundCall` creates. -/
def inboundCall (swarm : AgentSwarm) (room fromNumber toNumber : String)
    (contextData metadata : Option Document) (entryAgentID id : String) (now : Time) : Call where
  id := id
  tenantID := "stylme"
  campaignID := ""
  swarmID := swarm.id
  direction := "inbound"
  status := .active
  externalID := ""
  idempotencyKey := "inbound:" ++ room
  fromNumber := fromNumber
  toNumber := toNumber
  attempt := 1
  maxAttempts := 1
  scheduledAt := now
  leaseUntil := none
  graphSnapshot := swarm.graph
  campaignSnapshot := none
  currentNodeKey := swarm.graph.entryNodeKey
  agentTrace := [.enter swarm.graph.entryNodeKey entryAgentID now]
  participant := some []
  context := contextData
  liveKit := some [("room_name", room)]
  transcript := []
  disposition := none
  failure := none
  metadata := metadata
  startedAt := some now
  answeredAt := some now
  endedAt := none
  createdAt := now
  updatedAt := now

/-- The arguments of `CreateInboundCall`. -/
structure InboundRequest where
  swarmID : String
  room : String
  fromNumber : String
  toNumber : String
  contextData : Option Document
  metadata : Option Document

def createInboundCall (request : InboundRequest) : Service (Except Err Call) := do
  match ← Store.getSwarm request.swarmID with
  | .error e => return .error e
  | .ok swarm =>
    if request.room = "" then return .error (.message "room is required")
    else
      match ← Store.getCallByRoom request.room with
      | .ok existing => return .ok existing
      | .error .notFound =>
        let now ← Store.now
        match swarm.graph.graphAgentID swarm.graph.entryNodeKey with
        | .error e => return .error (.message e)
        | .ok entryAgentID =>
          let id ← Store.randomID "call"
          let call := inboundCall swarm request.room request.fromNumber request.toNumber
            request.contextData request.metadata entryAgentID id now
          match ← Store.saveCall call with
          | .error e => return .error e
          | .ok () => return .ok call
      | .error e => return .error e

/-! ## Runtime configuration -/

/-- What `RuntimeConfig` answers; the worker reads the campaign of the call. -/
structure RuntimePayload where
  swarm : AgentSwarm
  agents : List Agent
  call : Option Call

/-- The agents of the nodes, in order. -/
def runtimeAgents : List SwarmNode → Service (Except Err (List Agent))
  | [] => pure (.ok [])
  | node :: nodes => do
    match ← Store.getAgent node.agentID with
    | .error e => return .error e
    | .ok agent =>
      match ← runtimeAgents nodes with
      | .error e => return .error e
      | .ok agents => return .ok (agent :: agents)

def runtimePayload (swarm : AgentSwarm) (call : Option Call) : Service (Except Err RuntimePayload) := do
  match ← runtimeAgents swarm.graph.nodes with
  | .error e => return .error e
  | .ok agents => return .ok ⟨swarm, agents, call⟩

def runtimeConfig (swarmID callID : String) : Service (Except Err RuntimePayload) := do
  match ← Store.getSwarm swarmID with
  | .error e => return .error e
  | .ok swarm =>
    if callID = "" then runtimePayload swarm none
    else
      match ← Store.getCall callID with
      | .error e => return .error e
      | .ok stored =>
        if stored.swarmID ≠ swarm.id then
          return .error (.message "call does not belong to the requested swarm")
        else
          -- calls execute the immutable graph captured when they were scheduled
          runtimePayload { swarm with graph := stored.graphSnapshot } (some stored)

/-! ## Handoffs -/

/-- Leave an entry that is still open. -/
def AgentTrace.exit (now : Time) (reason : Option String) (t : AgentTrace) : AgentTrace :=
  if t.exitedAt = none then { t with exitedAt := some now, reason := reason.getD t.reason } else t

/-- The trace `RecordHandoff` writes: an empty one is opened at the source, the
last entry is left, and the target is entered. -/
def Call.handoffTrace (call : Call) (fromNode toNode fromAgentID toAgentID reason : String)
    (now : Time) : List AgentTrace :=
  let opened := if call.agentTrace = [] then [.enter fromNode fromAgentID now] else call.agentTrace
  opened.modifyLast (AgentTrace.exit now (some (trimSpace reason))) ++ [.enter toNode toAgentID now]

/-- The document `RecordHandoff` writes. -/
def Call.handedOff (call : Call) (fromNode toNode fromAgentID toAgentID reason : String)
    (captured : Option Document) (now : Time) : Call :=
  { call with
    agentTrace := call.handoffTrace fromNode toNode fromAgentID toAgentID reason now
    currentNodeKey := toNode
    context :=
      match captured with
      | some (f :: fs) => some (setKey "captured" (.obj (f :: fs)) (call.context.getD []))
      | _ => some (call.context.getD [])
    updatedAt := now }

/-- The arguments of `RecordHandoff`. -/
structure HandoffRequest where
  callID : String
  fromNode : String
  toNode : String
  reason : String
  captured : Option Document

/-- The agents of the source and the target of a handoff; the source is looked
up only for a call whose trace is empty. -/
def Call.handoffAgents (call : Call) (fromNode toNode : String) : Except String (String × String) :=
  match call.graphSnapshot.graphAgentID toNode with
  | .error e => .error e
  | .ok toAgentID =>
    if call.agentTrace = [] then
      match call.graphSnapshot.graphAgentID fromNode with
      | .error e => .error e
      | .ok fromAgentID => .ok (fromAgentID, toAgentID)
    else .ok ("", toAgentID)

def recordHandoff (request : HandoffRequest) : Service (Except Err Call) := do
  match ← Store.getCall request.callID with
  | .error e => return .error e
  | .ok call =>
    if call.status.terminal then return .error (.message "terminal calls cannot be handed off")
    else if call.currentNodeKey ≠ request.fromNode then
      return .error (.message "handoff source does not match the active graph node")
    else if ¬ call.graphSnapshot.HasEdge request.fromNode request.toNode then
      return .error (.message "handoff is not an edge in the call graph snapshot")
    else
      match call.handoffAgents request.fromNode request.toNode with
      | .error e => return .error (.message e)
      | .ok (fromAgentID, toAgentID) =>
        let now ← Store.now
        let call := call.handedOff request.fromNode request.toNode fromAgentID toAgentID
          request.reason request.captured now
        match ← Store.saveCall call with
        | .error e => return .error e
        | .ok () => return .ok call

/-! ## Completion -/

/-- The status `CompleteCall` gives a call. -/
def completionStatus (failure : Option Document) : CallStatus :=
  if failure.isSome then .failed else .completed

/-- The document of `CompleteCall` before the disposition is added. -/
def Call.closed (call : Call) (transcript : List TranscriptTurn) (failure : Option Document)
    (now : Time) : Call :=
  { call with
    transcript := transcript
    endedAt := some now
    updatedAt := now
    leaseUntil := none
    status := completionStatus failure
    failure := if failure.isSome then failure else call.failure
    agentTrace := call.agentTrace.modifyLast (AgentTrace.exit now none) }

/-- The agents of the trace, in the order in which they were first entered. -/
def Call.agentIDs (call : Call) : List String :=
  ((call.agentTrace.map (·.agentID)).filter (· ≠ "")).eraseDups

/-- Add the fields whose keys are not there yet. -/
def mergeFields (fields : List CaptureField) (new : List CaptureField) : List CaptureField :=
  new.foldl (fun acc field => if acc.any (·.key = field.key) then acc else acc ++ [field]) fields

/-- The capture fields of the given agents, in order. -/
def captureFields : List String → List CaptureField → Service (Except Err (List CaptureField))
  | [], fields => pure (.ok fields)
  | id :: ids, fields => do
    match ← Store.getAgent id with
    | .error e => return .error e
    | .ok agent => captureFields ids (mergeFields fields agent.capture.fields)

/-- The base agent of a disposition with the campaign's objective and fields. -/
def Agent.forDisposition (base : Agent) (fields : List CaptureField)
    (snapshot : Option CampaignSnapshot) : Agent :=
  match snapshot with
  | none => { base with capture := ⟨fields⟩ }
  | some campaign =>
    { base with
      capture := ⟨mergeFields fields campaign.capture.fields⟩
      system := if trimSpace campaign.instructions.objective ≠ "" then
          base.system ++ "\n\nCampaign objective: " ++ campaign.instructions.objective
        else base.system }

/-- The agents that took part in a call, or the agent of its current node. -/
def Call.dispositionAgentIDs (call : Call) : Except String (List String) :=
  if call.agentIDs = [] then
    match call.graphSnapshot.graphAgentID call.currentNodeKey with
    | .error e => .error e
    | .ok id => .ok [id]
  else .ok call.agentIDs

def dispositionAgent (call : Call) : Service (Except Err Agent) :=
  match call.dispositionAgentIDs with
  | .error e => pure (.error (.message e))
  | .ok ids => do
    match ← Store.getAgent (ids.getLastD "") with
    | .error e => return .error e
    | .ok base =>
      match ← captureFields ids [] with
      | .error e => return .error e
      | .ok fields => return .ok (base.forDisposition fields call.campaignSnapshot)

/-- Add the disposition of a transcript to a closed call, or the reason why there is none. -/
def withDisposition (call : Call) (transcript : List TranscriptTurn) : Service Call :=
  if transcript = [] then pure call
  else do
    match ← dispositionAgent call with
    | .error _ => return call
    | .ok agent =>
      match ← disposition agent transcript with
      | .ok d => return { call with disposition := some d }
      | .error e => return { call with failure := mergeFailure call.failure "disposition" e.text }

/-- The arguments of `CompleteCall`. -/
structure CompleteRequest where
  callID : String
  transcript : List TranscriptTurn
  failure : Option Document

def completeCall (request : CompleteRequest) : Service (Except Err Call) := do
  match ← Store.getCall request.callID with
  | .error e => return .error e
  | .ok call =>
    let now ← Store.now
    let call ← withDisposition (call.closed request.transcript request.failure now) request.transcript
    match ← Store.saveCall call with
    | .error e => return .error e
    | .ok () =>
      let _ ← Store.incrementCampaignCount call.campaignID call.status.toString 1
      return .ok call

end Stylme
