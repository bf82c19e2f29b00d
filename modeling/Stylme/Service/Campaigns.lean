-- SUMMARY: Saving swarms and campaigns, and scheduling the calls of a campaign.
import Stylme.Service.Dispatch

/-!
# Swarms and campaigns

`SaveSwarm`, `SaveCampaign` and `ScheduleCampaign` of
`internal/service/service.go`. The checks that look at the request alone are
pure functions; the programs add the store around them.
-/

namespace Stylme

open Conc

/-! ## Saving a swarm -/

def sharesValue (left right : List String) : Bool := left.any (· ∈ right)

def agentToolEnabled (agent : Agent) (key : String) : Bool :=
  agent.tools.any (fun tool => tool.key = key ∧ tool.enabled)

/-- The characters `normalizeHumanHandoffNumber` keeps, or an error; a plus sign
counts only at the very front. -/
def normalizeDigits : Bool → List Char → Except String (List Char)
  | _, [] => .ok []
  | front, c :: cs =>
    if c.isDigit ∨ (c = '+' ∧ front) then
      match normalizeDigits false cs with
      | .error e => .error e
      | .ok kept => .ok (c :: kept)
    else if c = ' ' ∨ c = '-' ∨ c = '(' ∨ c = ')' then normalizeDigits false cs
    else .error "human handoff number must be a valid phone number"

def normalizeHumanHandoffNumber (value : String) : Except String String :=
  let trimmed := trimSpace value
  if trimmed = "" then .ok ""
  else
    match normalizeDigits true trimmed.toList with
    | .error e => .error e
    | .ok kept =>
      let result := String.ofList kept
      let result :=
        if kept.head? = some '+' then result
        else if kept.length = 10 then "+91" ++ result
        else "+" ++ result
      if isE164 result then .ok result
      else .error "human handoff number must use E.164 format or a 10-digit Indian number"

/-- `preserveManagedTelephony` -/
def preserveManagedTelephony (proposed stored : TelephonyBinding) : TelephonyBinding :=
  match normalizeHumanHandoffNumber proposed.humanHandoffNumber with
  | .ok normalized =>
    if normalized ≠ "" then { stored with humanHandoffNumber := normalized } else stored
  | .error _ => stored

/-- The agents of the nodes of a swarm, each available and compatible with the swarm. -/
def nodeAgents (swarm : AgentSwarm) : List SwarmNode → Service (Except Err (List (String × Agent)))
  | [] => pure (.ok [])
  | node :: nodes => do
    match ← Store.getAgent node.agentID with
    | .error e => return .error (.wrapped ("node " ++ node.key ++ " references unavailable agent") e)
    | .ok agent =>
      if ¬ sharesValue swarm.channels agent.channels ∨ agent.direction ∉ swarm.directions then
        return .error (.message ("node " ++ node.key ++
          " agent is incompatible with the workflow channel or direction"))
      else
        match ← nodeAgents swarm nodes with
        | .error e => return .error e
        | .ok agents => return .ok ((node.key, agent) :: agents)

/-- The checks of `SaveSwarm` that come after the agents are known, and the
defaults they fill in. -/
def AgentSwarm.prepared (value : AgentSwarm) (agents : List (String × Agent)) :
    Except String AgentSwarm :=
  match value.graph.edges.find? (fun edge =>
      ¬ (agents.lookup edge.fromNode).any (agentToolEnabled · "handoff")) with
  | some edge => .error ("node " ++ edge.fromNode ++
      " needs the handoff tool enabled before it can route to another agent")
  | none =>
    if value.channels = [] then .error "at least one channel is required"
    else if value.directions = [] then .error "at least one direction is required"
    else
      match normalizeHumanHandoffNumber value.telephony.humanHandoffNumber with
      | .error e => .error e
      | .ok number =>
        .ok { value with
          status := if value.status = "" then "draft" else value.status
          telephony := { value.telephony with humanHandoffNumber := number } }

/-- The write of `SaveSwarm`, after the default flags of other swarms were cleared. -/
def storeSwarm (value : AgentSwarm) : Service (Except Err AgentSwarm) := do
  if value.isDefault then
    match ← Store.clearSwarmDefaults value.id value.channels value.directions with
    | .error e => return .error e
    | .ok () =>
      match ← Store.saveSwarm value with
      | .error e => return .error e
      | .ok () => return .ok value
  else
    match ← Store.saveSwarm value with
    | .error e => return .error e
    | .ok () => return .ok value

/-- What `SaveSwarm` fills in just before the write. -/
def AgentSwarm.stamped (value : AgentSwarm) (createdAt : Time) (createdBy : String) (revision : Int)
    (now : Time) (actor : String) : AgentSwarm :=
  { value with
    createdAt := createdAt
    createdBy := createdBy
    revision := revision
    metadata := some (value.metadata.getD [])
    updatedAt := now
    updatedBy := actor }

def saveSwarm (value : AgentSwarm) (actor : String) : Service (Except Err AgentSwarm) :=
  if trimSpace value.key = "" ∨ trimSpace value.name = "" then
    pure (.error (.message "key and name are required"))
  else
    match value.graph.validateGraph with
    | .error e => pure (.error (.message e))
    | .ok () => do
      match ← nodeAgents value value.graph.nodes with
      | .error e => return .error e
      | .ok agents =>
        match value.prepared agents with
        | .error e => return .error (.message e)
        | .ok value =>
          let now ← Store.now
          if value.id = "" then
            let id ← Store.randomID "swarm"
            -- the human destination is the only telephony value an admin sets
            let telephony := { humanHandoffNumber := value.telephony.humanHandoffNumber }
            storeSwarm ({ value with id := id, telephony := telephony }.stamped now actor 1 now actor)
          else
            match ← Store.getSwarm value.id with
            | .ok existing =>
              let telephony := preserveManagedTelephony value.telephony existing.telephony
              storeSwarm ({ value with telephony := telephony }.stamped existing.createdAt
                existing.createdBy (existing.revision + 1) now actor)
            | .error .notFound => storeSwarm (value.stamped now actor 1 now actor)
            | .error e => return .error e

/-! ## Saving a campaign -/

/-- The checks and defaults of `SaveCampaign` once the swarm is known. -/
def Campaign.prepared (value : Campaign) (swarm : AgentSwarm) : Except String Campaign :=
  let direction := if value.direction = "" then "outbound" else value.direction
  let fromNumber := swarm.telephony.phoneNumber
  let entryNodeKey :=
    if value.entryNodeKey = "" then swarm.graph.entryNodeKey else value.entryNodeKey
  let language := if value.language = "" then "en-IN" else value.language
  if direction ≠ "outbound" then .error "campaign direction must be outbound"
  else if fromNumber ≠ "" ∧ ¬ isE164 fromNumber then
    .error "managed swarm phone number must use E.164 format"
  else
    match swarm.graph.graphAgentID entryNodeKey with
    | .error _ => .error "entryNodeKey must identify a node in the selected swarm"
    | .ok _ =>
      if language ∉ supportedBulbulLanguages then
        .error "language must be one of Bulbul v3's 11 supported language codes"
      else if trimSpace value.instructions.objective = "" then
        .error "campaign instructions.objective is required"
      else
        .ok { value with
          direction := direction
          fromNumber := fromNumber
          entryNodeKey := entryNodeKey
          kind := if value.kind = "" then "custom" else value.kind
          language := language
          status := if value.status = "" then "draft" else value.status
          maxConcurrency := if value.maxConcurrency ≤ 0 then 2 else value.maxConcurrency
          callsPerSecond := if value.callsPerSecond ≤ 0 then 1 else value.callsPerSecond
          maxAttempts := if value.maxAttempts ≤ 0 then 1 else value.maxAttempts
          callingWindow :=
            if value.callingWindow.timezone = "" then ⟨"Asia/Kolkata", "10:00", "19:00"⟩
            else value.callingWindow }

/-- What `SaveCampaign` fills in just before the write. -/
def Campaign.stamped (value : Campaign) (createdAt : Time) (createdBy : String) (now : Time)
    (actor : String) : Campaign :=
  { value with
    createdAt := createdAt
    createdBy := createdBy
    metadata := some (value.metadata.getD [])
    counts := some (value.counts.getD [])
    updatedAt := now
    updatedBy := actor }

def storeCampaign (value : Campaign) : Service (Except Err Campaign) := do
  match ← Store.saveCampaign value with
  | .error e => return .error e
  | .ok () => return .ok value

def saveCampaign (value : Campaign) (actor : String) : Service (Except Err Campaign) :=
  if value.name = "" ∨ value.swarmID = "" then
    pure (.error (.message "name and swarmId are required"))
  else do
    match ← Store.getSwarm value.swarmID with
    | .error e => return .error (.wrapped "swarm is unavailable" e)
    | .ok swarm =>
      match value.prepared swarm with
      | .error e => return .error (.message e)
      | .ok value =>
        let now ← Store.now
        if value.id = "" then
          let id ← Store.randomID "campaign"
          storeCampaign ({ value with id := id }.stamped now actor now actor)
        else
          match ← Store.getCampaign value.id with
          | .ok existing =>
            storeCampaign (value.stamped existing.createdAt existing.createdBy now actor)
          | .error .notFound => storeCampaign (value.stamped now actor now actor)
          | .error e => return .error e

/-! ## Scheduling a campaign -/

structure CampaignTarget where
  externalID : String
  phone : String
  participant : Option Document
  context : Option Document
  metadata : Option Document

structure InvalidTarget where
  index : ℕ
  externalID : String
  error : String

structure ScheduleResult where
  campaignID : String
  received : ℕ
  scheduled : ℕ
  duplicates : ℕ
  invalid : List InvalidTarget

def Campaign.snapshot (campaign : Campaign) : CampaignSnapshot where
  id := campaign.id
  name := campaign.name
  kind := campaign.kind
  entryNodeKey := campaign.entryNodeKey
  language := campaign.language
  instructions := campaign.instructions
  capture := campaign.capture

/-- The call `ScheduleCampaign` inserts for a target. The graph is the swarm's
at this moment; its entry node is the campaign's. -/
def CampaignTarget.call (target : CampaignTarget) (campaign : Campaign) (swarm : AgentSwarm)
    (id : String) (now : Time) : Call where
  id := id
  tenantID := "stylme"
  campaignID := campaign.id
  swarmID := swarm.id
  direction := "outbound"
  status := .pending
  externalID := if target.externalID = "" then trimSpace target.phone else target.externalID
  idempotencyKey := campaign.id ++ ":" ++
    (if target.externalID = "" then trimSpace target.phone else target.externalID)
  fromNumber := campaign.fromNumber
  toNumber := trimSpace target.phone
  attempt := 0
  maxAttempts := campaign.maxAttempts
  scheduledAt := now
  leaseUntil := none
  graphSnapshot := { swarm.graph with entryNodeKey := campaign.entryNodeKey }
  campaignSnapshot := some campaign.snapshot
  currentNodeKey := campaign.entryNodeKey
  agentTrace := []
  participant := target.participant
  context := target.context
  liveKit := some []
  transcript := []
  disposition := none
  failure := none
  metadata := target.metadata
  startedAt := none
  answeredAt := none
  endedAt := none
  createdAt := now
  updatedAt := now

/-- The calls of the targets with a valid phone number, and the other targets. -/
def targetCalls (campaign : Campaign) (swarm : AgentSwarm) (now : Time) :
    List CampaignTarget → ℕ → Service (List Call × List InvalidTarget)
  | [], _ => pure ([], [])
  | target :: targets, index =>
    if ¬ isE164 (trimSpace target.phone) then do
      let (calls, invalid) ← targetCalls campaign swarm now targets (index + 1)
      return (calls, ⟨index, target.externalID, "phone must use E.164 format"⟩ :: invalid)
    else do
      let id ← Store.randomID "call"
      let (calls, invalid) ← targetCalls campaign swarm now targets (index + 1)
      return (target.call campaign swarm id now :: calls, invalid)

/-- The campaign `ScheduleCampaign` writes after inserting calls. -/
def Campaign.scheduled (campaign : Campaign) (inserted : ℕ) (now : Time) (actor : String) : Campaign :=
  { campaign with
    status := "running"
    updatedAt := now
    updatedBy := actor
    counts := some (setKey "scheduled" (campaign.count "scheduled" + inserted)
      (campaign.counts.getD [])) }

def scheduleCampaign (campaignID : String) (targets : List CampaignTarget) (actor : String) :
    Service (Except Err ScheduleResult) :=
  if targets = [] ∨ 500 < targets.length then
    pure (.error (.message "targets must contain 1 to 500 records"))
  else do
    match ← Store.getCampaign campaignID with
    | .error e => return .error e
    | .ok campaign =>
      if campaign.status = "completed" ∨ campaign.status = "cancelled" then
        return .error (.message "terminal campaigns cannot accept calls")
      else
        match ← Store.getSwarm campaign.swarmID with
        | .error e => return .error e
        | .ok swarm =>
          let now ← Store.now
          let (calls, invalid) ← targetCalls campaign swarm now targets 0
          match ← Store.insertCalls calls with
          | .error e => return .error e
          | .ok inserted =>
            match ← Store.saveCampaign (campaign.scheduled inserted now actor) with
            | .error e => return .error e
            | .ok () =>
              return .ok ⟨campaign.id, targets.length, inserted, calls.length - inserted, invalid⟩

end Stylme
