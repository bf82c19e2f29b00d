-- SUMMARY: Saving agents: the checks and defaults of a request, and the write after the default flags of other agents were cleared.
import Stylme.Lib.Fallible
import Stylme.Service.Campaigns

/-!
# Agents

`SaveAgent` of `internal/service/service.go` with the tool catalogue of
`internal/domain/tools.go` and the voices of `internal/service/sarvam.go`. All
checks look at the request alone; the store is asked for the document that is
about to be replaced.
-/

namespace Stylme

open Conc

/-! ## Checks -/

/-- One check of a request. -/
def refuseIf (p : Prop) [Decidable p] (message : String) : Except String Unit :=
  if p then .error message else .ok ()

theorem refuseIf_ok {p : Prop} [Decidable p] {message : String} {u : Unit} :
    refuseIf p message = .ok u ↔ ¬ p := by
  unfold refuseIf
  split <;> simp_all

/-! ## Tools -/

/-- The part of a `ToolDefinition` that is checked. -/
structure ToolDefinition where
  key : String
  channels : List String
  directions : List String
  availability : String
  assignable : Bool

def agentToolCatalog : List ToolDefinition :=
  [⟨"search_catalog", ["web", "voice"], ["interactive", "inbound", "outbound"], "ready", true⟩,
   ⟨"lookup_order", ["voice"], ["inbound", "outbound"], "ready", true⟩,
   ⟨"propose_profile_update", ["web"], ["interactive"], "ready", true⟩,
   ⟨"handoff", ["voice"], ["inbound", "outbound"], "ready", true⟩,
   ⟨"warm_transfer", ["voice"], ["inbound", "outbound"], "setup_required", true⟩,
   ⟨"capture_callback", ["voice"], ["inbound", "outbound"], "ready", true⟩,
   ⟨"record_opt_out", ["voice"], ["outbound"], "ready", true⟩,
   ⟨"end_call", ["voice"], ["inbound", "outbound"], "ready", true⟩,
   ⟨"capture_call_field", ["voice"], ["inbound", "outbound"], "always_on", false⟩,
   ⟨"send_recovery_link", ["voice"], ["outbound"], "unavailable", false⟩]

def agentToolDefinition (key : String) : Option ToolDefinition :=
  agentToolCatalog.find? (·.key = key)

/-- The loop of `validateAgentTools`; `seen` holds the keys before. -/
def validateTools (agent : Agent) : List ToolConfig → List String → Except String Unit
  | [], _ => .ok ()
  | tool :: tools, seen =>
    let key := trimSpace tool.key
    if key = "" then .error "tool key is required"
    else if key ∈ seen then .error ("tool " ++ key ++ " is configured more than once")
    else
      match agentToolDefinition key with
      | none => .error ("tool " ++ key ++ " is not registered in the runtime catalog")
      | some definition =>
        if ¬ tool.enabled then validateTools agent tools (key :: seen)
        else if ¬ definition.assignable ∨ definition.availability = "unavailable" then
          .error ("tool " ++ key ++ " is not available for assignment")
        else if ¬ sharesValue agent.channels definition.channels then
          .error ("tool " ++ key ++ " is not available on this agent's channel")
        else if definition.directions ≠ [] ∧ agent.direction ∉ definition.directions then
          .error ("tool " ++ key ++ " is not available for " ++ agent.direction ++ " agents")
        else validateTools agent tools (key :: seen)

def validateAgentTools (agent : Agent) : Except String Unit := do
  validateTools agent agent.tools []
  refuseIf ("web" ∈ agent.channels ∧ ¬ agentToolEnabled agent "search_catalog")
    "web agents require the search_catalog tool"

/-! ## Capture fields -/

def captureTypes : List String :=
  ["string", "boolean", "number", "number_range", "datetime", "select", "multi_select"]

/-- The loop of `validateCaptureContract`; `seen` holds the keys before. -/
def validateFields : List CaptureField → List String → Except String Unit
  | [], _ => .ok ()
  | field :: fields, seen =>
    let key := trimSpace field.key
    if key = "" ∨ trimSpace field.label = "" then .error "capture fields require a key and label"
    else if key ∈ seen then .error ("capture field " ++ key ++ " is configured more than once")
    else if field.type ∉ captureTypes then
      .error ("capture field " ++ key ++ " has an unsupported type")
    else validateFields fields (key :: seen)

def validateCaptureContract (capture : CaptureConfig) : Except String Unit :=
  validateFields capture.fields []

/-! ## Model, voice and web settings -/

def ModelConfig.defaulted (model : ModelConfig) : ModelConfig :=
  { model with
    provider := if model.provider = "" then "openai" else model.provider
    name := if model.name = "" then "gpt-5.6-luna" else model.name
    maxOutputTokens := if model.maxOutputTokens ≤ 0 then 900 else model.maxOutputTokens }

/-- The identifiers of `SarvamVoices`. -/
def sarvamVoices : List String :=
  ["ritu", "priya", "neha", "pooja", "simran", "kavya", "ishita", "shreya", "roopa", "tanya", "shruti",
   "suhani", "kavitha", "rupali", "shubh", "aditya", "rahul", "rohan", "amit", "dev", "ratan", "varun",
   "manan", "sumit", "kabir", "aayan", "ashutosh", "advait", "anand", "tarun", "sunny", "mani", "gokul",
   "vijay", "mohit", "rehan", "soham"]

section Save

-- `unicode.ToLower`
variable (lower : Char → Char)

/-- `strings.ToLower` -/
def toLower (s : String) : String := String.ofList (s.toList.map lower)

def isSupportedSarvamVoice (value : String) : Bool := toLower lower (trimSpace value) ∈ sarvamVoices

def VoiceConfig.prepared (voice : VoiceConfig) : Except String VoiceConfig := do
  let voice := { voice with speaker := toLower lower (trimSpace voice.speaker) }
  refuseIf (voice.ttsModel ≠ "bulbul:v3") "voice agents require Sarvam bulbul:v3"
  refuseIf (¬ isSupportedSarvamVoice lower voice.speaker)
    "speaker is not supported by Sarvam bulbul:v3"
  refuseIf (voice.language ≠ "multi" ∧ voice.language ∉ supportedBulbulLanguages)
    "voice language is not supported by Sarvam bulbul:v3"
  refuseIf (voice.pace < 1 / 2 ∨ 2 < voice.pace) "voice pace must be between 0.5 and 2.0"
  refuseIf (voice.endCallAfterSec < 30 ∨ 3600 < voice.endCallAfterSec)
    "maximum call duration must be between 30 and 3600 seconds"
  return voice

/-- The voice settings, prepared if there are any. -/
def preparedVoice : Option VoiceConfig → Except String (Option VoiceConfig)
  | none => .ok none
  | some voice => do return some (← voice.prepared lower)

def WebConfig.checked (web : WebConfig) : Except String Unit := do
  refuseIf (web.maxHistoryMessages < 1 ∨ 50 < web.maxHistoryMessages)
    "web history messages must be between 1 and 50"
  refuseIf (web.resultLimit < 1 ∨ 50 < web.resultLimit) "web result limit must be between 1 and 50"

/-- The web settings are in bounds if there are any. -/
def checkedWeb : Option WebConfig → Except String Unit
  | none => .ok ()
  | some web => web.checked

/-! ## Saving an agent -/

/-- The checks of `SaveAgent` and the defaults they fill in. -/
def Agent.prepared (value : Agent) : Except String Agent := do
  refuseIf (trimSpace value.key = "" ∨ trimSpace value.name = "") "key and name are required"
  refuseIf (value.channels = []) "at least one channel is required"
  refuseIf (value.system = "") "system instructions are required"
  let value := { value with
    model := value.model.defaulted
    status := if value.status = "" then "draft" else value.status }
  refuseIf (value.model.provider ≠ "openai") "only the openai model provider is supported"
  refuseIf (value.status ∉ ["draft", "active", "paused", "archived"]) "agent status is invalid"
  refuseIf (value.direction = "") "agent direction is required"
  refuseIf (value.direction = "interactive" ∧ "web" ∉ value.channels)
    "interactive agents require the web channel"
  refuseIf (value.direction ∈ ["inbound", "outbound"] ∧ "voice" ∉ value.channels)
    "inbound and outbound agents require the voice channel"
  refuseIf (value.direction ∉ ["interactive", "inbound", "outbound"]) "agent direction is invalid"
  refuseIf (value.model.temperature < 0 ∨ 2 < value.model.temperature)
    "model temperature must be between 0 and 2"
  refuseIf ("voice" ∈ value.channels ∧ value.voice.isNone) "voice agents require voice configuration"
  refuseIf ("web" ∈ value.channels ∧ value.web.isNone) "web agents require web configuration"
  validateAgentTools value
  validateCaptureContract value.capture
  refuseIf (value.voice.any fun voice => voice.sttProvider ≠ "deepgram" ∨ voice.ttsProvider ≠ "sarvam")
    "voice agents require deepgram STT and sarvam TTS"
  let voice ← preparedVoice lower value.voice
  checkedWeb value.web
  return { value with voice := voice }

/-- What `SaveAgent` fills in just before the write. -/
def Agent.stamped (value : Agent) (createdAt : Time) (createdBy : String) (revision : Int)
    (now : Time) (actor : String) : Agent :=
  { value with
    createdAt := createdAt
    createdBy := createdBy
    revision := revision
    metadata := some (value.metadata.getD [])
    updatedAt := now
    updatedBy := actor }

/-- The write of `SaveAgent`. -/
def writeAgent (value : Agent) : Service (Except Err Agent) := do
  match ← Store.saveAgent value with
  | .error e => return .error e
  | .ok () => return .ok value

/-- The write of `SaveAgent`, after the default flags of other agents were cleared. -/
def storeAgent (value : Agent) : Service (Except Err Agent) := do
  if value.isDefault then
    match ← Store.clearAgentDefaults value.id value.channels value.direction with
    | .error e => return .error e
    | .ok () => writeAgent value
  else writeAgent value

def saveAgent (value : Agent) (actor : String) : Service (Except Err Agent) :=
  match value.prepared lower with
  | .error e => pure (.error (.message e))
  | .ok value => do
    let now ← Store.now
    if value.id = "" then
      let id ← Store.randomID "agent"
      storeAgent ({ value with id := id }.stamped now actor 1 now actor)
    else
      match ← Store.getAgent value.id with
      | .ok existing =>
        storeAgent (value.stamped existing.createdAt existing.createdBy (existing.revision + 1) now actor)
      | .error .notFound => storeAgent (value.stamped now actor 1 now actor)
      | .error e => return .error e

variable {lower} {value value' : Agent}

/-- What the checks of `SaveAgent` promise of the prepared agent. -/
structure Agent.Prepared (lower : Char → Char) (value value' : Agent) : Prop where
  eq : value' = { value with
    model := value.model.defaulted
    status := if value.status = "" then "draft" else value.status
    voice := value'.voice }
  key : trimSpace value.key ≠ ""
  name : trimSpace value.name ≠ ""
  channels : value.channels ≠ []
  provider : value'.model.provider = "openai"
  direction : value.direction ≠ ""
  fields : validateCaptureContract value.capture = .ok ()
  voice : preparedVoice lower value.voice = .ok value'.voice

theorem Agent.prepared_ok (h : value.prepared lower = .ok value') :
    Agent.Prepared lower value value' := by
  simp only [Agent.prepared, bind_eq_ok, refuseIf_ok, exists_const] at h
  obtain ⟨hnames, hchannels, -, hprovider, -, hdirection, -, -, -, -, -, -, -, -, ⟨⟩, hfields, -,
    voice, hvoice, ⟨⟩, -, hvalue⟩ := h
  obtain rfl := Except.ok.inj hvalue
  exact ⟨rfl, (not_or.1 hnames).1, (not_or.1 hnames).2, hchannels, not_not.1 hprovider, hdirection,
    hfields, hvoice⟩

/-- What the checks promise of a voice. -/
structure VoiceConfig.Prepared (lower : Char → Char) (voice voice' : VoiceConfig) : Prop where
  eq : voice' = { voice with speaker := toLower lower (trimSpace voice.speaker) }
  model : voice.ttsModel = "bulbul:v3"
  speaker : voice'.speaker ≠ ""
  language : voice.language ≠ ""
  pace : voice.pace ≠ 0
  duration : voice.endCallAfterSec ≠ 0

theorem VoiceConfig.prepared_ok {voice voice' : VoiceConfig}
    (h : voice.prepared lower = .ok voice') : VoiceConfig.Prepared lower voice voice' := by
  simp only [VoiceConfig.prepared, bind_eq_ok, refuseIf_ok, exists_const] at h
  obtain ⟨hmodel, hspeaker, hlanguage, hpace, hduration, hvoice⟩ := h
  obtain rfl := Except.ok.inj hvoice
  refine ⟨rfl, not_not.1 hmodel, fun hempty => ?_, fun hempty => ?_, fun hzero => ?_, fun hzero => ?_⟩
  · rw [show toLower lower (trimSpace voice.speaker) = "" from hempty] at hspeaker
    exact hspeaker (by simp [isSupportedSarvamVoice, toLower, trimSpace, sarvamVoices])
  · rw [hempty] at hlanguage
    exact hlanguage (by decide)
  · rw [hzero] at hpace
    exact hpace (.inl (by decide +kernel))
  · rw [hzero] at hduration
    exact hduration (.inl (by decide))

/-- Every field of an accepted contract has a type. -/
theorem validateFields_type {fields : List CaptureField} {seen : List String}
    (h : validateFields fields seen = .ok ()) : ∀ field ∈ fields, field.type ∈ captureTypes := by
  induction fields generalizing seen with
  | nil => exact fun _ hf => absurd hf List.not_mem_nil
  | cons field fields ih =>
    simp only [validateFields] at h
    split at h
    · cases h
    split at h
    · cases h
    split at h
    · cases h
    · rename_i htype
      intro f hf
      rcases List.mem_cons.1 hf with rfl | hf
      · exact not_not.1 htype
      · exact ih h f hf

/-- The agent that `SaveAgent` writes is the prepared one, under its identifier and stamped. -/
def Agent.StoredAs (value : Agent) (actor : String) (saved : Agent) : Prop :=
  ∃ id createdAt createdBy revision now,
    saved = ({ value with id := id }.stamped createdAt createdBy revision now actor)

theorem writeAgent_wp {w : World} :
    Prog.wp Cmd.exec (fun r _ => ∀ saved, r = .ok saved → saved = value) (writeAgent value) w := by
  refine Prog.wp_call_bind.2 fun o r w' _ => ?_
  cases r with
  | error e => exact fun _ h => by cases h
  | ok u => exact fun saved h => (Except.ok.inj h).symm

theorem storeAgent_wp {w : World} :
    Prog.wp Cmd.exec (fun r _ => ∀ saved, r = .ok saved → saved = value) (storeAgent value) w := by
  unfold storeAgent
  split
  · refine Prog.wp_call_bind.2 fun o r w' _ => ?_
    cases r with
    | error e => exact fun _ h => by cases h
    | ok u => exact writeAgent_wp
  · exact writeAgent_wp

theorem saveAgent_wp {w : World} {actor : String} :
    Prog.wp Cmd.exec (fun r _ => ∀ saved, r = .ok saved → ∃ value', value.prepared lower = .ok value' ∧
      value'.StoredAs actor saved) (saveAgent lower value actor) w := by
  unfold saveAgent
  cases hprepared : value.prepared lower with
  | error e => exact fun _ h => by cases h
  | ok value' =>
    have hstore : ∀ id createdAt createdBy revision now w, Prog.wp Cmd.exec
        (fun r _ => ∀ saved, r = .ok saved → ∃ value'', (.ok value' : Except String Agent) = .ok value'' ∧
          value''.StoredAs actor saved)
        (storeAgent ({ value' with id := id }.stamped createdAt createdBy revision now actor)) w := by
      intro id createdAt createdBy revision now w
      refine Prog.wp_mono (fun r _ hsaved saved hr => ?_) storeAgent_wp
      exact ⟨value', rfl, id, createdAt, createdBy, revision, now, hsaved saved hr⟩
    refine Prog.wp_call_bind.2 fun o now w₁ _ => ?_
    split
    · exact Prog.wp_call_bind.2 fun o id w₂ _ => hstore id now actor 1 now w₂
    · refine Prog.wp_call_bind.2 fun o r w₂ _ => ?_
      match r with
      | .ok existing => exact hstore value'.id _ _ _ now w₂
      | .error .notFound => exact hstore value'.id _ _ _ now w₂
      | .error .duplicateKey | .error (.unavailable m) | .error (.message m) | .error (.wrapped m e) =>
        exact fun _ h => by cases h

end Save

end Stylme
