-- SUMMARY: The agent as it travels to the voice worker: the control plane's encoding, the worker's decoder, and what decoding the encoding gives.
import Stylme.Backend.Values
import Stylme.Service.Agents

/-!
# Agent configurations

The JSON form of `domain.Agent` and the decoder `AgentConfig.from_dict` of the
worker's `app/models.py`. The decoder replaces every falsy value by a default of
its own, so a stored zero or empty text does not arrive.
-/

namespace Stylme

open Backend

/-! ## Encoding -/

/-- A number as Python reads its JSON text: an integer when there is no fraction. -/
def encodeFloat (x : ℚ) : Value := if x.den = 1 then .int x.num else .float x

mutual

def encodeJson : Json → Value
  | .null => .none
  | .bool b => .bool b
  | .num x => encodeFloat x
  | .str s => .str s
  | .arr items => .list (encodeItems items)
  | .obj fields => .dict (encodeFields fields)

def encodeItems : List Json → List Value
  | [] => []
  | x :: xs => encodeJson x :: encodeItems xs

def encodeFields : List (String × Json) → List (String × Value)
  | [] => []
  | (k, x) :: xs => (k, encodeJson x) :: encodeFields xs

end

/-- The members of an object; `none` is one that `omitempty` drops. -/
abbrev Members := List (String × Option Value)

def encodeObject (members : Members) : Value :=
  .dict (members.filterMap fun (key, v) => v.map (key, ·))

/-- A text with `omitempty`. -/
def omitEmpty (s : String) : Option Value := if s = "" then none else some (.str s)

def ModelConfig.members (model : ModelConfig) : Members :=
  [("provider", some (.str model.provider)),
   ("name", some (.str model.name)),
   ("temperature", some (encodeFloat model.temperature)),
   ("maxOutputTokens", some (.int model.maxOutputTokens)),
   ("reasoningEffort", omitEmpty model.reasoningEffort)]

def VoiceConfig.members (voice : VoiceConfig) : Members :=
  [("language", some (.str voice.language)),
   ("sttProvider", some (.str voice.sttProvider)),
   ("sttModel", some (.str voice.sttModel)),
   ("ttsProvider", some (.str voice.ttsProvider)),
   ("ttsModel", some (.str voice.ttsModel)),
   ("speaker", some (.str voice.speaker)),
   ("pace", some (encodeFloat voice.pace)),
   ("allowInterruption", some (.bool voice.allowInterruption)),
   ("endCallAfterSec", some (.int voice.endCallAfterSec))]

def WebConfig.members (web : WebConfig) : Members :=
  [("starterPrompts", some (.ofStrings web.starterPrompts)),
   ("maxHistoryMessages", some (.int web.maxHistoryMessages)),
   ("resultLimit", some (.int web.resultLimit)),
   ("allowProfileProposal", some (.bool web.allowProfileProposal))]

def ToolConfig.members (tool : ToolConfig) : Members :=
  [("key", some (.str tool.key)),
   ("description", some (.str tool.description)),
   ("enabled", some (.bool tool.enabled)),
   ("config", if (tool.config.getD []).isEmpty then none else tool.config.map (.dict ∘ encodeFields))]

def CaptureField.members (field : CaptureField) : Members :=
  [("key", some (.str field.key)),
   ("label", some (.str field.label)),
   ("type", some (.str field.type)),
   ("description", some (.str field.description)),
   ("required", some (.bool field.required)),
   ("enum", if field.enum = [] then none else some (.ofStrings field.enum))]

/-- The members of `Instructions`. -/
def Agent.instructions (agent : Agent) : Members :=
  [("system", some (.str agent.system)),
   ("greeting", some (.str agent.greeting)),
   ("guardrails", some (.ofStrings agent.guardrails)),
   ("fallback", some (.str agent.fallback))]

def CaptureConfig.members (capture : CaptureConfig) : Members :=
  [("fields", some (.list (capture.fields.map fun field => encodeObject field.members)))]

def Agent.members (timestamp : Time → String) (agent : Agent) : Members :=
  [("id", some (.str agent.id)),
   ("key", some (.str agent.key)),
   ("name", some (.str agent.name)),
   ("description", some (.str agent.description)),
   ("channels", some (.ofStrings agent.channels)),
   ("direction", some (.str agent.direction)),
   ("status", some (.str agent.status)),
   ("isDefault", some (.bool agent.isDefault)),
   ("revision", some (.int agent.revision)),
   ("instructions", some (encodeObject agent.instructions)),
   ("model", some (encodeObject agent.model.members)),
   ("voice", agent.voice.map fun voice => encodeObject voice.members),
   ("web", agent.web.map fun web => encodeObject web.members),
   ("tools", some (.list (agent.tools.map fun tool => encodeObject tool.members))),
   ("capture", some (encodeObject agent.capture.members)),
   ("metadata", some ((agent.metadata.map (.dict ∘ encodeFields)).getD .none)),
   ("createdBy", omitEmpty agent.createdBy),
   ("updatedBy", omitEmpty agent.updatedBy),
   ("createdAt", some (.str (timestamp agent.createdAt))),
   ("updatedAt", some (.str (timestamp agent.updatedAt)))]

/-- The JSON of an agent; `timestamp` is the text of an instant. -/
def Agent.encode (timestamp : Time → String) (agent : Agent) : Value :=
  encodeObject (agent.members timestamp)

namespace Worker

/-! ## Decoding -/

/-- What the standard library does with values that are no numbers or texts. -/
structure Conversions where
  repr : Value → String
  /-- `float` of a text -/
  float : String → Except Raised ℚ
  /-- `int` of a text -/
  int : String → Except Raised ℤ

namespace Conversions

variable (lib : Conversions)

/-- `float(v)` -/
def toFloat : Value → Except Raised ℚ
  | .int i => .ok i
  | .float x => .ok x
  | .bool b => .ok (if b then 1 else 0)
  | .str s => lib.float s
  | v => .error ⟨"TypeError", "float() argument must be a string or a real number, not '" ++
      v.typeName ++ "'"⟩

/-- `int(v)` -/
def toInt : Value → Except Raised ℤ
  | .int i => .ok i
  | .float x => .ok (x.num.tdiv x.den)
  | .bool b => .ok (if b then 1 else 0)
  | .str s => lib.int s
  | v => .error ⟨"TypeError", "int() argument must be a string, a bytes-like object or a real number, not '" ++
      v.typeName ++ "'"⟩

end Conversions

/-- `value.get(key) or default` -/
def getOr (value : Value) (key : String) (default : Value) : Except Raised Value := do
  return (← value.get key).orElse default

/-- `bool(value.get(key, default))` -/
def getFlag (value : Value) (key : String) (default : Bool) : Except Raised Bool :=
  match value with
  | .dict fields => .ok ((fields.lookup key).getD (.bool default)).truthy
  | v => .error ⟨"AttributeError", "'" ++ v.typeName ++ "' object has no attribute 'get'"⟩

structure InstructionConfig where
  system : String
  greeting : String
  guardrails : List String
  fallback : String

structure ModelConfig where
  provider : String
  name : String
  temperature : ℚ
  maxOutputTokens : ℤ
  reasoningEffort : String

structure VoiceConfig where
  language : String
  sttModel : String
  ttsModel : String
  speaker : String
  pace : ℚ
  allowInterruption : Bool
  endCallAfterSec : ℤ

structure ToolConfig where
  key : String
  description : String
  enabled : Bool

structure CaptureField where
  key : String
  label : String
  fieldType : String
  description : String
  required : Bool

structure AgentConfig where
  id : String
  name : String
  instructions : InstructionConfig
  model : ModelConfig
  voice : VoiceConfig
  tools : List ToolConfig
  captureFields : List CaptureField

section Decode

variable (lib : Conversions)

/-- `str(value.get(key) or default)` -/
def getText (value : Value) (key default : String) : Except Raised String := do
  return (← getOr value key (.str default)).toStr lib.repr

def InstructionConfig.fromDict (value : Value) : Except Raised InstructionConfig := do
  let system ← getText lib value "system" ""
  let greeting ← getText lib value "greeting" ""
  let guardrails ← (← getOr value "guardrails" (.list [])).iter
  let fallback ← getText lib value "fallback" ""
  return ⟨system, greeting, guardrails.map (·.toStr lib.repr), fallback⟩

def ModelConfig.fromDict (value : Value) : Except Raised ModelConfig := do
  let provider ← getText lib value "provider" "openai"
  let name ← getText lib value "name" "gpt-5.6-luna"
  let temperature ← lib.toFloat (← getOr value "temperature" (.float (1 / 5)))
  let maxOutputTokens ← lib.toInt (← getOr value "maxOutputTokens" (.int 700))
  let reasoningEffort ← getText lib value "reasoningEffort" "none"
  return ⟨provider, name, temperature, maxOutputTokens, reasoningEffort⟩

def VoiceConfig.fromDict (value : Value) : Except Raised VoiceConfig := do
  let language ← getText lib value "language" "multi"
  let sttModel ← getText lib value "sttModel" "nova-3"
  let ttsModel ← getText lib value "ttsModel" "bulbul:v3"
  let speaker ← getText lib value "speaker" "shubh"
  let pace ← lib.toFloat (← getOr value "pace" (.int 1))
  let allowInterruption ← getFlag value "allowInterruption" true
  let endCallAfterSec ← lib.toInt (← getOr value "endCallAfterSec" (.int 900))
  return ⟨language, sttModel, ttsModel, speaker, pace, allowInterruption, endCallAfterSec⟩

def ToolConfig.fromDict (value : Value) : Except Raised ToolConfig := do
  let key ← getText lib value "key" ""
  let description ← getText lib value "description" ""
  let enabled ← getFlag value "enabled" false
  return ⟨key, description, enabled⟩

def CaptureField.fromDict (value : Value) : Except Raised CaptureField := do
  let key ← getText lib value "key" ""
  let label ← getText lib value "label" ""
  let fieldType ← getText lib value "type" "string"
  let description ← getText lib value "description" ""
  let required ← getFlag value "required" false
  return ⟨key, label, fieldType, description, required⟩

def AgentConfig.fromDict (value : Value) : Except Raised AgentConfig := do
  let capture ← getOr value "capture" (.dict [])
  let id ← getText lib value "id" ""
  let name ← getText lib value "name" "StylMe agent"
  let instructions ← InstructionConfig.fromDict lib (← getOr value "instructions" (.dict []))
  let model ← ModelConfig.fromDict lib (← getOr value "model" (.dict []))
  let voice ← VoiceConfig.fromDict lib (← getOr value "voice" (.dict []))
  let tools ← (← (← getOr value "tools" (.list [])).iter).mapM (ToolConfig.fromDict lib)
  let captureFields ← (← (← getOr capture "fields" (.list [])).iter).mapM (CaptureField.fromDict lib)
  return ⟨id, name, instructions, model, voice, tools, captureFields⟩

end Decode

/-! ## Decoding what was encoded -/

section RoundTrip

variable {lib : Conversions}

/-- Looking a member up among those that are there. -/
theorem lookup_filterMap {members : Members} {key : String} (h : (members.map Prod.fst).Nodup) :
    (members.filterMap fun (key, v) => v.map (key, ·)).lookup key = (members.lookup key).join := by
  induction members with
  | nil => rfl
  | cons member members ih =>
    obtain ⟨k, v⟩ := member
    obtain ⟨hk, hrest⟩ := List.nodup_cons.1 h
    have ih := ih hrest
    by_cases heq : key = k
    · subst heq
      cases v with
      | some v => simp
      | none =>
        have hnone : members.lookup key = none := by
          rw [List.lookup_eq_none_iff]
          intro p hp
          exact bne_iff_ne.2 fun hkey : key = p.1 => hk (List.mem_map.2 ⟨p, hp, hkey.symm⟩)
        simp [ih, hnone]
    · have hne : (key == k) = false := by simpa using heq
      cases v <;> simp [List.lookup_cons, hne, ih]

section Members

variable {members : Members} (h : (members.map Prod.fst).Nodup)
include h

theorem getOr_encodeObject {key : String} {d : Value} {v : Option Value}
    (hv : members.lookup key = some v) :
    getOr (encodeObject members) key d = .ok ((v.getD .none).orElse d) := by
  simp only [getOr, encodeObject, Value.get, lookup_filterMap h, hv, Option.join_some]
  rfl

theorem getFlag_encodeObject {key : String} {b d : Bool}
    (hb : members.lookup key = some (some (.bool b))) :
    getFlag (encodeObject members) key d = .ok b := by
  simp only [getFlag, encodeObject, lookup_filterMap h, hb, Option.join_some]
  rfl

/-- An empty text decodes to the default. -/
theorem getText_encodeObject {key d s : String} (hs : members.lookup key = some (some (.str s))) :
    getText lib (encodeObject members) key d = .ok (if s = "" then d else s) := by
  rw [getText, getOr_encodeObject h hs]
  by_cases hempty : s = ""
  · subst hempty
    rfl
  · simp only [Option.getD_some, Value.orElse, Value.truthy, hempty, if_false]
    simp [hempty, Value.toStr, bind, Except.bind, pure, Except.pure]

/-- A dropped text decodes to the default as well. -/
theorem getText_omitEmpty {key d s : String} (hs : members.lookup key = some (omitEmpty s)) :
    getText lib (encodeObject members) key d = .ok (if s = "" then d else s) := by
  by_cases hempty : s = ""
  · subst hempty
    rw [getText, getOr_encodeObject h hs]
    rfl
  · rw [omitEmpty, if_neg hempty] at hs
    exact getText_encodeObject h hs

end Members

theorem toFloat_encodeFloat (x : ℚ) {d : Value} {e : ℚ} (hd : lib.toFloat d = .ok e) :
    lib.toFloat ((encodeFloat x).orElse d) = .ok (if x = 0 then e else x) := by
  unfold encodeFloat
  split
  · rename_i hden
    have hx : (x.num : ℚ) = x := Rat.coe_int_num_of_den_eq_one hden
    by_cases hzero : x = 0
    · simp [hzero, hd, Value.orElse, Value.truthy]
    · simp [hzero, Value.orElse, Value.truthy, Conversions.toFloat, hx]
  · by_cases hzero : x = 0
    · simp [hzero, hd, Value.orElse, Value.truthy]
    · simp [hzero, Value.orElse, Value.truthy, Conversions.toFloat]

theorem toInt_orElse (n : ℤ) {d : Value} {e : ℤ} (hd : lib.toInt d = .ok e) :
    lib.toInt ((Value.int n).orElse d) = .ok (if n = 0 then e else n) := by
  by_cases hzero : n = 0
  · simp [hzero, hd, Value.orElse, Value.truthy]
  · simp [hzero, Value.orElse, Value.truthy, Conversions.toInt]

theorem iter_orElse {items : List Value} :
    ((Value.list items).orElse (.list [])).iter = .ok items := by
  cases items <;> simp [Value.orElse, Value.truthy, Value.iter]

theorem orElse_encodeObject {members : Members} :
    (encodeObject members).orElse (.dict []) = encodeObject members := by
  unfold encodeObject
  cases members.filterMap fun (key, v) => v.map (key, ·) <;> rfl

/-- Decoding a list of encoded values one by one. -/
theorem mapM_encoded {α β : Type} {f : Value → Except Raised β} {encode : α → Value} {g : α → β}
    (h : ∀ a, f (encode a) = .ok (g a)) (l : List α) :
    (l.map encode).mapM f = .ok (l.map g) := by
  induction l with
  | nil => rfl
  | cons a l ih =>
    rw [List.map_cons, List.mapM_cons, h, ih]
    rfl

/-! ## What arrives -/

/-- The settings of a model arrive, unless they are falsy. -/
def ModelConfig.received (model : Stylme.ModelConfig) : ModelConfig where
  provider := if model.provider = "" then "openai" else model.provider
  name := if model.name = "" then "gpt-5.6-luna" else model.name
  temperature := if model.temperature = 0 then 1 / 5 else model.temperature
  maxOutputTokens := if model.maxOutputTokens = 0 then 700 else model.maxOutputTokens
  reasoningEffort := if model.reasoningEffort = "" then "none" else model.reasoningEffort

/-- So do those of a voice; the flag always arrives. -/
def VoiceConfig.received (voice : Stylme.VoiceConfig) : VoiceConfig where
  language := if voice.language = "" then "multi" else voice.language
  sttModel := if voice.sttModel = "" then "nova-3" else voice.sttModel
  ttsModel := if voice.ttsModel = "" then "bulbul:v3" else voice.ttsModel
  speaker := if voice.speaker = "" then "shubh" else voice.speaker
  pace := if voice.pace = 0 then 1 else voice.pace
  allowInterruption := voice.allowInterruption
  endCallAfterSec := if voice.endCallAfterSec = 0 then 900 else voice.endCallAfterSec

/-- Without settings of a voice the worker uses its own. -/
def VoiceConfig.default : VoiceConfig := ⟨"multi", "nova-3", "bulbul:v3", "shubh", 1, true, 900⟩

def ToolConfig.received (tool : Stylme.ToolConfig) : ToolConfig :=
  ⟨tool.key, tool.description, tool.enabled⟩

def CaptureField.received (field : Stylme.CaptureField) : CaptureField where
  key := field.key
  label := field.label
  fieldType := if field.type = "" then "string" else field.type
  description := field.description
  required := field.required

def AgentConfig.received (agent : Agent) : AgentConfig where
  id := agent.id
  name := if agent.name = "" then "StylMe agent" else agent.name
  instructions := ⟨agent.system, agent.greeting, agent.guardrails, agent.fallback⟩
  model := .received agent.model
  voice := (agent.voice.map .received).getD .default
  tools := agent.tools.map .received
  captureFields := agent.capture.fields.map .received

theorem ModelConfig.fromDict_encode (model : Stylme.ModelConfig) :
    ModelConfig.fromDict lib (encodeObject model.members) = .ok (.received model) := by
  have h : (model.members.map Prod.fst).Nodup := by simp [Stylme.ModelConfig.members]
  unfold ModelConfig.fromDict
  rw [getText_encodeObject h rfl, getText_encodeObject h rfl, getOr_encodeObject h rfl,
    getOr_encodeObject h rfl, getText_omitEmpty h rfl]
  simp only [bind, Except.bind, Option.getD_some]
  rw [toFloat_encodeFloat _ rfl, toInt_orElse _ rfl]
  rfl

theorem VoiceConfig.fromDict_encode (voice : Stylme.VoiceConfig) :
    VoiceConfig.fromDict lib (encodeObject voice.members) = .ok (.received voice) := by
  have h : (voice.members.map Prod.fst).Nodup := by simp [Stylme.VoiceConfig.members]
  unfold VoiceConfig.fromDict
  rw [getText_encodeObject h rfl, getText_encodeObject h rfl, getText_encodeObject h rfl,
    getText_encodeObject h rfl, getOr_encodeObject h rfl, getFlag_encodeObject h rfl,
    getOr_encodeObject h rfl]
  simp only [bind, Except.bind, Option.getD_some]
  rw [toFloat_encodeFloat (e := 1) _ (by simp [Conversions.toFloat]), toInt_orElse _ rfl]
  rfl

theorem ToolConfig.fromDict_encode (tool : Stylme.ToolConfig) :
    ToolConfig.fromDict lib (encodeObject tool.members) = .ok (.received tool) := by
  have h : (tool.members.map Prod.fst).Nodup := by simp [Stylme.ToolConfig.members]
  unfold ToolConfig.fromDict
  rw [getText_encodeObject h rfl, getText_encodeObject h rfl, getFlag_encodeObject h rfl]
  simp [received, bind, Except.bind, pure, Except.pure]

theorem CaptureField.fromDict_encode (field : Stylme.CaptureField) :
    CaptureField.fromDict lib (encodeObject field.members) = .ok (.received field) := by
  have h : (field.members.map Prod.fst).Nodup := by simp [Stylme.CaptureField.members]
  unfold CaptureField.fromDict
  rw [getText_encodeObject h rfl, getText_encodeObject h rfl, getText_encodeObject h rfl,
    getText_encodeObject h rfl, getFlag_encodeObject h rfl]
  simp [received, bind, Except.bind, pure, Except.pure]

theorem InstructionConfig.fromDict_encode (agent : Agent) :
    InstructionConfig.fromDict lib (encodeObject agent.instructions) =
      .ok ⟨agent.system, agent.greeting, agent.guardrails, agent.fallback⟩ := by
  have h : (agent.instructions.map Prod.fst).Nodup := by simp [Agent.instructions]
  unfold InstructionConfig.fromDict
  rw [getText_encodeObject h rfl, getText_encodeObject h rfl, getOr_encodeObject h rfl,
    getText_encodeObject h rfl]
  simp [bind, Except.bind, pure, Except.pure, Value.ofStrings, iter_orElse, Value.toStr,
    Function.comp_def]

/-- The decoder takes every agent the control plane encodes. -/
theorem AgentConfig.fromDict_encode (timestamp : Time → String) (agent : Agent) :
    AgentConfig.fromDict lib (agent.encode timestamp) = .ok (.received agent) := by
  have h : ((agent.members timestamp).map Prod.fst).Nodup := by simp [Agent.members]
  have hcapture : (agent.capture.members.map Prod.fst).Nodup := by simp [CaptureConfig.members]
  have hvoice : VoiceConfig.fromDict lib
      (((agent.voice.map fun voice => encodeObject voice.members).getD .none).orElse (.dict [])) =
      .ok ((agent.voice.map .received).getD .default) := by
    cases agent.voice with
    | none => rfl
    | some voice =>
      rw [Option.map_some, Option.getD_some, orElse_encodeObject, VoiceConfig.fromDict_encode]
      rfl
  have htools := mapM_encoded (f := ToolConfig.fromDict lib) ToolConfig.fromDict_encode agent.tools
  have hfields := mapM_encoded (f := CaptureField.fromDict lib) CaptureField.fromDict_encode
    agent.capture.fields
  have hread : getOr (encodeObject agent.capture.members) "fields" (.list []) = .ok ((Value.list
      (agent.capture.fields.map fun field => encodeObject field.members)).orElse (.list [])) :=
    getOr_encodeObject hcapture (v := some (.list _)) rfl
  unfold AgentConfig.fromDict Agent.encode
  rw [getOr_encodeObject h rfl, getText_encodeObject h rfl, getText_encodeObject h rfl,
    getOr_encodeObject h rfl, getOr_encodeObject h rfl, getOr_encodeObject h rfl,
    getOr_encodeObject h rfl]
  simp only [bind, Except.bind, Option.getD_some, orElse_encodeObject,
    InstructionConfig.fromDict_encode, ModelConfig.fromDict_encode, iter_orElse]
  rw [hvoice]
  simp only [htools, hread, iter_orElse, hfields]
  simp [received, pure, Except.pure]

end RoundTrip

end Worker

end Stylme
