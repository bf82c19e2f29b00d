-- SUMMARY: The documents of the control plane: agents, swarms, campaigns and calls.
import Mathlib.Data.Rat.Defs

/-!
# Domain models

The documents of `internal/domain/models.go`, with the fields that the modelled
functions read or write. A Go `map[string]any` is an association list, `nil` maps
and pointers are `none`, and an instant is a number of nanoseconds.
-/

namespace Stylme

/-- A JSON value as the request decoder and the document store hand it over. -/
inductive Json where
  | null
  | bool (b : Bool)
  | num (n : Rat)
  | str (s : String)
  | arr (items : List Json)
  | obj (fields : List (String × Json))

abbrev Document := List (String × Json)

/-- `m[k] = v` on a map kept as an association list. -/
def setKey {α : Type} (k : String) (v : α) : List (String × α) → List (String × α)
  | [] => [(k, v)]
  | (k', v') :: m => if k' = k then (k, v) :: m else (k', v') :: setKey k v m

@[simp] theorem lookup_setKey {α : Type} {k k' : String} {v : α} {m : List (String × α)} :
    (setKey k v m).lookup k' = if k' = k then some v else m.lookup k' := by
  have hcons : ∀ (x : String × α) (m : List (String × α)),
      (x :: m).lookup k' = if k' = x.1 then some x.2 else m.lookup k' := by
    intro x m
    rw [List.lookup_cons]
    by_cases h : k' = x.1
    · simp [h]
    · simp [h, beq_false_of_ne h]
  induction m with
  | nil => rw [setKey, hcons]
  | cons x m ih =>
    obtain ⟨k₀, v₀⟩ := x
    unfold setKey
    by_cases h₀ : k₀ = k
    · by_cases h : k' = k <;> simp [hcons, h₀, h]
    · rw [if_neg h₀, hcons, hcons, ih]
      by_cases h : k' = k₀
      · simp [h, h₀]
      · simp [h]

theorem mem_of_lookup {κ α : Type} [BEq κ] [LawfulBEq κ] {k : κ} {v : α} {d : List (κ × α)}
    (h : d.lookup k = some v) : (k, v) ∈ d := by
  obtain ⟨l₁, l₂, rfl, -⟩ := List.lookup_eq_some_iff.1 h
  exact List.mem_append_right _ List.mem_cons_self

/-! ## Time -/

abbrev Time := Int

abbrev Duration := Int

def second : Duration := 1000000000

def minute : Duration := 60 * second

/-! ## Agents and swarms -/

structure CaptureField where
  key : String
  label : String
  type : String
  description : String := ""
  required : Bool := false
  enum : List String := []

structure CaptureConfig where
  fields : List CaptureField

structure ToolConfig where
  key : String
  enabled : Bool
  description : String := ""
  config : Option Document := none

structure ModelConfig where
  provider : String := ""
  name : String := ""
  temperature : Rat := 0
  maxOutputTokens : Int := 0
  reasoningEffort : String := ""

structure VoiceConfig where
  language : String
  sttProvider : String
  sttModel : String
  ttsProvider : String
  ttsModel : String
  speaker : String
  pace : Rat
  allowInterruption : Bool
  endCallAfterSec : Int

structure WebConfig where
  maxHistoryMessages : Int
  allowProfileProposal : Bool
  starterPrompts : List String := []
  resultLimit : Int := 0

/-- An agent; the fields of `Instructions` stand beside the others. -/
structure Agent where
  id : String
  key : String
  channels : List String
  direction : String
  system : String
  tools : List ToolConfig
  capture : CaptureConfig
  name : String := ""
  description : String := ""
  status : String := ""
  isDefault : Bool := false
  revision : Int := 0
  greeting : String := ""
  guardrails : List String := []
  fallback : String := ""
  model : ModelConfig := {}
  voice : Option VoiceConfig := none
  web : Option WebConfig := none
  metadata : Option Document := none
  createdBy : String := ""
  updatedBy : String := ""
  createdAt : Time := 0
  updatedAt : Time := 0

structure SwarmNode where
  key : String
  agentID : String

structure TransitionCondition where
  field : String
  operator : String
  value : Json

structure SwarmEdge where
  fromNode : String
  toNode : String
  priority : Int
  condition : TransitionCondition
  handoffMessage : String

structure SwarmGraph where
  entryNodeKey : String
  nodes : List SwarmNode
  edges : List SwarmEdge

structure TelephonyBinding where
  phoneNumber : String := ""
  humanHandoffNumber : String := ""
  inboundTrunkID : String := ""
  outboundTrunkID : String := ""
  dispatchRuleID : String := ""
  liveKitAgentName : String := ""

structure AgentSwarm where
  id : String
  key : String
  name : String
  channels : List String
  directions : List String
  status : String
  isDefault : Bool
  revision : Int
  graph : SwarmGraph
  telephony : TelephonyBinding
  metadata : Option Document
  createdBy : String
  updatedBy : String
  createdAt : Time
  updatedAt : Time

/-! ## Campaigns -/

structure CallingWindow where
  timezone : String
  start : String
  stop : String

structure CampaignInstructions where
  objective : String
  system : String
  greeting : String

structure Campaign where
  id : String
  name : String
  kind : String
  swarmID : String
  entryNodeKey : String
  status : String
  direction : String
  fromNumber : String
  callingWindow : CallingWindow
  /-- `RetryPolicy.MaxAttempts` -/
  maxAttempts : Int
  maxConcurrency : Int
  callsPerSecond : Rat
  language : String
  instructions : CampaignInstructions
  capture : CaptureConfig
  counts : Option (List (String × Int))
  metadata : Option Document
  createdBy : String
  updatedBy : String
  createdAt : Time
  updatedAt : Time

/-- `Counts[key]`, zero when the key or the whole map is missing. -/
def Campaign.count (c : Campaign) (key : String) : Int :=
  ((c.counts.getD []).lookup key).getD 0

/-- The counts after `counts[key]` of a campaign with these counts was set. -/
theorem Campaign.count_setKey {c c' : Campaign} {key : String} {n : Int}
    (h : c'.counts = some (setKey key n (c.counts.getD []))) (k : String) :
    c'.count k = if k = key then n else c.count k := by
  simp only [count, h, Option.getD_some, lookup_setKey]
  split <;> rfl

structure CampaignSnapshot where
  id : String
  name : String
  kind : String
  entryNodeKey : String
  language : String
  instructions : CampaignInstructions
  capture : CaptureConfig

/-! ## Calls -/

inductive CallStatus where
  | pending | dispatching | ringing | active | completed | failed | cancelled
  deriving DecidableEq, Repr

namespace CallStatus

def toString : CallStatus → String
  | pending => "pending"
  | dispatching => "dispatching"
  | ringing => "ringing"
  | active => "active"
  | completed => "completed"
  | failed => "failed"
  | cancelled => "cancelled"

/-- The statuses `RecordHandoff` refuses to work on. -/
def terminal : CallStatus → Bool
  | completed | failed | cancelled => true
  | _ => false

/-- The statuses `CountActiveCampaignCalls` counts. -/
def inFlight : CallStatus → Bool
  | dispatching | ringing | active => true
  | _ => false

end CallStatus

structure TranscriptTurn where
  role : String
  agentID : String
  text : String
  createdAt : Time

structure AgentTrace where
  nodeKey : String
  agentID : String
  enteredAt : Time
  exitedAt : Option Time
  reason : String

structure Disposition where
  code : String
  summary : String
  capturedData : Option Document
  missingFields : List String
  nextAction : String
  confidence : Rat

structure Call where
  id : String
  tenantID : String
  campaignID : String
  swarmID : String
  direction : String
  status : CallStatus
  externalID : String
  idempotencyKey : String
  fromNumber : String
  toNumber : String
  attempt : Int
  maxAttempts : Int
  scheduledAt : Time
  leaseUntil : Option Time
  graphSnapshot : SwarmGraph
  campaignSnapshot : Option CampaignSnapshot
  currentNodeKey : String
  agentTrace : List AgentTrace
  participant : Option Document
  context : Option Document
  liveKit : Option (List (String × String))
  transcript : List TranscriptTurn
  disposition : Option Disposition
  failure : Option Document
  metadata : Option Document
  startedAt : Option Time
  answeredAt : Option Time
  endedAt : Option Time
  createdAt : Time
  updatedAt : Time

end Stylme
