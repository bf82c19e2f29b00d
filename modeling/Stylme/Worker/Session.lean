-- SUMMARY: The state of a voice session, the tools that write what the caller said into it, and the two halves of a handoff.
import Stylme.Service.Calls
import Stylme.Worker.Graph

/-!
# Voice sessions

The `VoiceState` of `app/agent_session.py` and the tools the language model may
call on it. A tool that waits for another service is split where it waits, since
other tools may run in between.
-/

namespace Stylme

open Backend

namespace Worker

/-! ## Runtime configuration -/

structure RuntimeConfig where
  graph : SwarmGraph
  agents : List (String × Agent)
  telephony : TelephonyBinding
  /-- `call["campaign"]["capture"]["fields"]` -/
  campaignFields : List Stylme.CaptureField

namespace RuntimeConfig

/-- `RuntimeConfig.from_payload` -/
def fromPayload (payload : RuntimePayload) : RuntimeConfig where
  graph := payload.swarm.graph.fromDict
  agents := payload.agents.foldl (fun agents agent => setKey agent.id agent agents) []
  telephony := payload.swarm.telephony
  campaignFields := ((payload.call.bind (·.campaignSnapshot)).map (·.capture.fields)).getD []

def node (runtime : RuntimeConfig) (nodeKey : String) : Except Raised SwarmNode :=
  match runtime.graph.nodes.find? (·.key = nodeKey) with
  | some node => .ok node
  | none => .error ⟨"KeyError", "Unknown graph node: " ++ nodeKey⟩

def agentForNode (runtime : RuntimeConfig) (nodeKey : String) : Except Raised Agent := do
  let node ← runtime.node nodeKey
  match runtime.agents.lookup node.agentID with
  | some agent => return agent
  | none => .error ⟨"KeyError", node.agentID⟩

/-- The fields of the node's agent, and those of the campaign that it does not have. -/
def captureFieldsForNode (runtime : RuntimeConfig) (nodeKey : String) :
    Except Raised (List Stylme.CaptureField) := do
  let agent ← runtime.agentForNode nodeKey
  return runtime.campaignFields.foldl (fun fields item =>
    if item.key ≠ "" ∧ ¬ fields.any (·.key = item.key) then fields ++ [item] else fields)
    agent.capture.fields

end RuntimeConfig

/-! ## The state of a session -/

structure VoiceState where
  runtime : RuntimeConfig
  callID : String
  currentNodeKey : String
  captured : Document := []
  transcript : List TranscriptTurn := []

/-- `entrypoint`, once the control plane has answered for the call. -/
def startSession (callID : String) (payload : RuntimePayload) : Except Raised VoiceState :=
  let runtime := RuntimeConfig.fromPayload payload
  if runtime.graph.graphIsAcyclic then do
    let _ ← runtime.agentForNode runtime.graph.entryNodeKey
    return { runtime, callID, currentNodeKey := runtime.graph.entryNodeKey }
  else .error ⟨"RuntimeError", "The selected agent swarm is not a valid DAG"⟩

namespace VoiceState

/-- `state.captured[key] = value` -/
def capture (state : VoiceState) (key : String) (value : Json) : VoiceState :=
  { state with captured := setKey key value state.captured }

/-- `state.captured.setdefault(key, value)` -/
def captureDefault (state : VoiceState) (key : String) (value : Json) : VoiceState :=
  match state.captured.lookup key with
  | some _ => state
  | none => state.capture key value

/-- `state.captured.pop(key, None)` -/
def discard (state : VoiceState) (key : String) : VoiceState :=
  { state with captured := state.captured.filter (·.1 ≠ key) }

end VoiceState

/-! ## Tools -/

section Tools

variable (lib : Library) (state : VoiceState)

def captureCallField (key value : String) : VoiceState :=
  match state.runtime.captureFieldsForNode state.currentNodeKey with
  | .error _ => state
  | .ok fields =>
    if fields.any (·.key = key) then state.capture key (.str (Recovery.strip value)) else state

/-- `_PHONE_LAST4.fullmatch`, of what `re.sub` leaves of a text. -/
def isPhoneLast4 (digits : String) : Bool :=
  digits.length = 4 ∧ digits.toList.all fun c => '0' ≤ c ∧ c ≤ '9'

/-- `verified` says whether the order service answered. -/
def lookupOrder (orderNumber phoneLast4 : String) (verified : Bool) : VoiceState :=
  let normalizedOrder := Recovery.strip orderNumber
  let normalizedLast4 := String.ofList (phoneLast4.toList.filter lib.isDigit)
  if normalizedOrder = "" ∨ ¬ isPhoneLast4 normalizedLast4 then state
  else if verified then
    ((state.capture "order_number" (.str normalizedOrder)).capture "phone_last4"
      (.str normalizedLast4)).capture "order_verified" (.bool true)
  else state

/-- `text.strip() or default` -/
def stripOr (text default : String) : String :=
  if Recovery.strip text = "" then default else Recovery.strip text

def captureCallback (confirmed : Bool) (preferredTime summary : String) : VoiceState :=
  if confirmed then
    ((state.capture "callback_requested" (.bool true)).capture "preferred_callback_at"
      (.str (stripOr preferredTime "any time"))).capture "handoff_summary"
      (.str (Recovery.strip summary))
  else state

def applyOptOut (confirmed : Bool) (reason : String) : VoiceState :=
  if confirmed then
    ((state.capture "opt_out" (.bool true)).capture "opt_out_reason"
      (.str (stripOr reason "Explicit do-not-call request"))).capture "outcome" (.str "opt-out")
  else state

/-- `str(state.captured.get("intent") or "")` -/
def intent : String :=
  match state.captured.lookup "intent" with
  | some (.str s) => s
  | some value => if truthy value then lib.str value else ""
  | none => ""

/-- `warm_transfer_to_human` up to the transfer. -/
def warmTransfer (summary : String) : VoiceState :=
  state.capture "handoff_summary" (.str (stripOr summary (intent lib state)))

/-- `warm_transfer_to_human` after the transfer, which gave the identity of the
human agent or failed. -/
def warmTransferred (identity : Option String) : VoiceState :=
  match identity with
  | some identity =>
    if state.runtime.telephony.humanHandoffNumber = "" ∨ state.runtime.telephony.outboundTrunkID = ""
    then state.capture "human_handoff_status" (.str "unavailable")
    else (state.capture "human_handoff_status" (.str "connected")).capture "human_agent_identity"
      (.str identity)
  | none => state.capture "human_handoff_status" (.str "unavailable")

def endCall (reason : String) : VoiceState :=
  state.captureDefault "end_reason" (.str (Recovery.strip reason))

/-- `on_conversation_item_added` of a message at an instant. -/
def converse (role text : String) (now : Time) : VoiceState :=
  if role ≠ "user" ∧ role ≠ "assistant" then state
  else if Recovery.strip text = "" then state
  else
    let agentID : Except Raised String :=
      if role = "assistant" then (·.id) <$> state.runtime.agentForNode state.currentNodeKey
      else .ok ""
    match agentID with
    | .error _ => state
    | .ok agentID =>
      { state with transcript := state.transcript ++ [⟨role, agentID, Recovery.strip text, now⟩] }

end Tools

/-- A call of a tool that does not wait, with the arguments of the language model
and the answers of other services. -/
inductive Tool where
  | captureCallField (key value : String)
  | lookupOrder (orderNumber phoneLast4 : String) (verified : Bool)
  | captureCallback (confirmed : Bool) (preferredTime summary : String)
  | recordOptOut (confirmed : Bool) (reason : String)
  | warmTransfer (summary : String)
  | warmTransferred (identity : Option String)
  | endCall (reason : String)
  | converse (role text : String) (now : Time)

def Tool.apply (lib : Library) (state : VoiceState) : Tool → VoiceState
  | .captureCallField key value => Worker.captureCallField state key value
  | .lookupOrder orderNumber phoneLast4 verified =>
    Worker.lookupOrder lib state orderNumber phoneLast4 verified
  | .captureCallback confirmed preferredTime summary =>
    Worker.captureCallback state confirmed preferredTime summary
  | .recordOptOut confirmed reason => applyOptOut state confirmed reason
  | .warmTransfer summary => Worker.warmTransfer lib state summary
  | .warmTransferred identity => Worker.warmTransferred state identity
  | .endCall reason => Worker.endCall state reason
  | .converse role text now => Worker.converse state role text now

/-! ## Handoffs -/

section Handoff

variable (lib : Library)

/-- `re.sub(r"[^a-z0-9_]+", "_", text)`; `inRun` holds inside of a run that is replaced. -/
def replaceRuns : Bool → List Char → List Char
  | _, [] => []
  | inRun, c :: cs =>
    if ('a' ≤ c ∧ c ≤ 'z') ∨ ('0' ≤ c ∧ c ≤ '9') ∨ c = '_' then c :: replaceRuns false cs
    else if inRun then replaceRuns true cs
    else '_' :: replaceRuns true cs

/-- `normalized_route` -/
def normalizedRoute (route : String) : String :=
  let replaced := replaceRuns false (lib.casefold (Recovery.strip route)).toList
  String.ofList (Recovery.dropRight (· = '_') (replaced.dropWhile (· = '_')))

/-- `prepare_handoff`. A condition that raises leaves the new route in place. -/
def prepareHandoff (state : VoiceState) (reason route : String) :
    Except Raised (Option SwarmEdge) × VoiceState :=
  let state := state.captureDefault "intent" (.str (Recovery.strip reason))
  let route := normalizedRoute lib route
  if route = "" then
    (chooseTransition lib state.runtime.graph state.currentNodeKey state.captured, state)
  else
    let previous := state.captured.lookup "handoff_route"
    let routed := state.capture "handoff_route" (.str route)
    match chooseTransition lib state.runtime.graph state.currentNodeKey routed.captured with
    | .ok none =>
      (.ok none, match previous with
        | none | some .null => routed.discard "handoff_route"
        | some previous => routed.capture "handoff_route" previous)
    | result => (result, routed)

/-- The request of `handoff_to_next_agent` along an edge. -/
def VoiceState.handoffRequest (state : VoiceState) (edge : SwarmEdge) (reason : String) :
    HandoffRequest where
  callID := state.callID
  fromNode := state.currentNodeKey
  toNode := edge.toNode
  reason := reason
  captured := some state.captured

/-- `handoff_to_next_agent` once the handoff is recorded, and `on_enter` of the next agent. -/
def VoiceState.handedOff (state : VoiceState) (edge : SwarmEdge) : VoiceState :=
  { state with currentNodeKey := edge.toNode }

/-- Why a handoff raises: a condition of the graph did, or the request to the control plane. -/
inductive HandoffFailure where
  | condition (fault : Raised)
  | control (fault : Raised)

/-- `handoff_to_next_agent`, where nothing else of the session runs while it waits for the control
plane. -/
def handoffToNextAgent (recordHandoff : HandoffRequest → Except Raised Unit) (state : VoiceState)
    (reason route : String) : Except HandoffFailure (Option SwarmEdge) × VoiceState :=
  match prepareHandoff lib state reason route with
  | (.error fault, state) => (.error (.condition fault), state)
  | (.ok none, state) => (.ok none, state)
  | (.ok (some edge), state) =>
    match recordHandoff (state.handoffRequest edge reason) with
    | .error fault => (.error (.control fault), state)
    | .ok () => (.ok (some edge), state.handedOff edge)

/-- The request `finalize` sends when the session ends. -/
def VoiceState.completeRequest (state : VoiceState) : CompleteRequest where
  callID := state.callID
  transcript := state.transcript
  failure := none

end Handoff

/-! ## What tools leave alone -/

/-- The parts of a session that only handoffs change. -/
structure VoiceState.Stays (state state' : VoiceState) : Prop where
  runtime : state'.runtime = state.runtime
  callID : state'.callID = state.callID
  currentNodeKey : state'.currentNodeKey = state.currentNodeKey

namespace VoiceState

variable {lib : Library} {state state' state'' : VoiceState} {key : String} {value : Json}

theorem Stays.refl : state.Stays state := ⟨rfl, rfl, rfl⟩

theorem Stays.trans (h : state.Stays state') (h' : state'.Stays state'') : state.Stays state'' :=
  ⟨h'.runtime.trans h.runtime, h'.callID.trans h.callID, h'.currentNodeKey.trans h.currentNodeKey⟩

theorem stays_capture : state.Stays (state.capture key value) := ⟨rfl, rfl, rfl⟩

theorem stays_discard : state.Stays (state.discard key) := ⟨rfl, rfl, rfl⟩

theorem stays_captureDefault : state.Stays (state.captureDefault key value) := by
  unfold captureDefault
  split
  · exact .refl
  · exact stays_capture

theorem stays_captures {k k' k'' : String} {v v' v'' : Json} :
    state.Stays (((state.capture k v).capture k' v').capture k'' v'') :=
  (stays_capture.trans stays_capture).trans stays_capture

theorem stays_apply {tool : Tool} : state.Stays (tool.apply lib state) := by
  cases tool with
  | captureCallField key value =>
    simp only [Tool.apply, captureCallField]
    split
    · exact .refl
    split
    · exact stays_capture
    · exact .refl
  | lookupOrder orderNumber phoneLast4 verified =>
    simp only [Tool.apply, lookupOrder]
    split
    · exact .refl
    split
    · exact stays_captures
    · exact .refl
  | captureCallback confirmed preferredTime summary =>
    simp only [Tool.apply, captureCallback]
    split
    · exact stays_captures
    · exact .refl
  | recordOptOut confirmed reason =>
    simp only [Tool.apply, applyOptOut]
    split
    · exact stays_captures
    · exact .refl
  | warmTransfer summary => exact stays_capture
  | warmTransferred identity =>
    simp only [Tool.apply, warmTransferred]
    split
    · split
      · exact stays_capture
      · exact stays_capture.trans stays_capture
    · exact stays_capture
  | endCall reason => exact stays_captureDefault
  | converse role text now =>
    simp only [Tool.apply, converse]
    split
    · exact .refl
    split
    · exact .refl
    split
    · exact .refl
    · exact ⟨rfl, rfl, rfl⟩

theorem setKey_ne_nil {m : Document} : setKey key value m ≠ [] := by
  intro h
  have hlookup : (setKey key value m).lookup key = some value := by
    rw [lookup_setKey, if_pos rfl]
  rw [h] at hlookup
  cases hlookup

theorem captured_captureDefault_ne : (state.captureDefault key value).captured ≠ [] := by
  unfold captureDefault
  split
  · rename_i v hv
    intro h
    rw [h] at hv
    cases hv
  · exact setKey_ne_nil

/-- Preparing a handoff moves nobody. An edge it answers leaves the current node,
and something is captured by then. -/
theorem prepareHandoff_spec {reason route : String} {result : Except Raised (Option SwarmEdge)}
    (h : prepareHandoff lib state reason route = (result, state')) :
    state.Stays state' ∧ ∀ edge, result = .ok (some edge) →
      edge ∈ state.runtime.graph.edges ∧ edge.fromNode = state.currentNodeKey ∧
        state'.captured ≠ [] := by
  have hdefault : state.Stays (state.captureDefault "intent" (.str (Recovery.strip reason))) :=
    stays_captureDefault
  have hchosen : ∀ {captured edge}, chooseTransition lib
      (state.captureDefault "intent" (.str (Recovery.strip reason))).runtime.graph
      (state.captureDefault "intent" (.str (Recovery.strip reason))).currentNodeKey captured =
        .ok (some edge) →
      edge ∈ state.runtime.graph.edges ∧ edge.fromNode = state.currentNodeKey := by
    intro captured edge hedge
    rw [hdefault.runtime, hdefault.currentNodeKey] at hedge
    exact chooseTransition_ok hedge
  unfold prepareHandoff at h
  simp only at h
  split at h
  · obtain ⟨rfl, rfl⟩ := Prod.mk.inj h
    refine ⟨hdefault, fun edge hedge => ?_⟩
    exact ⟨(hchosen hedge).1, (hchosen hedge).2, captured_captureDefault_ne⟩
  split at h
  · obtain ⟨rfl, rfl⟩ := Prod.mk.inj h
    refine ⟨?_, fun edge hedge => by simp at hedge⟩
    split
    · exact hdefault.trans (stays_capture.trans stays_discard)
    · exact hdefault.trans (stays_capture.trans stays_discard)
    · exact hdefault.trans (stays_capture.trans stays_capture)
  · obtain ⟨rfl, rfl⟩ := Prod.mk.inj h
    refine ⟨hdefault.trans stays_capture, fun edge hedge => ?_⟩
    exact ⟨(hchosen hedge).1, (hchosen hedge).2, setKey_ne_nil⟩

end VoiceState

end Worker

end Stylme
