-- SUMMARY: The voice worker runs a stored agent with the settings that were saved, unless the temperature is zero or the speech model is empty.
import Stylme.Service.System
import Stylme.Worker.AgentConfig

/-!
# Settings of a saved agent

`SaveAgent` admits a temperature of zero and an empty `sttModel`. The decoder of
the worker reads `value.get(key) or default`, which takes a stored zero and an
empty text for a missing value, so these two settings come out as 0.2 and
`nova-3`. All other settings are nonzero and nonempty by the checks of
`SaveAgent`, or fall back to what was stored.
-/

namespace Stylme

open Conc Backend

/-! ## Agreement -/

namespace Worker

/-- The worker talks to the stored model. -/
structure ModelConfig.Runs (config : ModelConfig) (model : Stylme.ModelConfig) : Prop where
  provider : config.provider = model.provider
  name : config.name = model.name
  temperature : config.temperature = model.temperature
  maxOutputTokens : config.maxOutputTokens = model.maxOutputTokens

/-- The worker speaks and listens as stored. -/
structure VoiceConfig.Runs (config : VoiceConfig) (voice : Stylme.VoiceConfig) : Prop where
  language : config.language = voice.language
  sttModel : config.sttModel = voice.sttModel
  ttsModel : config.ttsModel = voice.ttsModel
  speaker : config.speaker = voice.speaker
  pace : config.pace = voice.pace
  allowInterruption : config.allowInterruption = voice.allowInterruption
  endCallAfterSec : config.endCallAfterSec = voice.endCallAfterSec

/-- The configuration has the stored value in every field it shares with the agent. -/
structure AgentConfig.Runs (config : AgentConfig) (agent : Agent) : Prop where
  id : config.id = agent.id
  name : config.name = agent.name
  system : config.instructions.system = agent.system
  greeting : config.instructions.greeting = agent.greeting
  guardrails : config.instructions.guardrails = agent.guardrails
  fallback : config.instructions.fallback = agent.fallback
  model : config.model.Runs agent.model
  voice : ∀ voice, agent.voice = some voice → config.voice.Runs voice
  tools : config.tools.map (fun tool => (tool.key, tool.description, tool.enabled)) =
    agent.tools.map fun tool => (tool.key, tool.description, tool.enabled)
  fields : config.captureFields.map
      (fun field => (field.key, field.label, field.fieldType, field.description, field.required)) =
    agent.capture.fields.map
      fun field => (field.key, field.label, field.type, field.description, field.required)

end Worker

/-- The settings that the worker takes for missing ones are not used. -/
def Agent.Legible (agent : Agent) : Prop :=
  agent.model.temperature ≠ 0 ∧ ∀ voice, agent.voice = some voice → voice.sttModel ≠ ""

/-! ## What SaveAgent admits -/

/-- Every setting but the two is nonzero and nonempty. -/
structure Agent.Admitted (agent : Agent) : Prop where
  name : agent.name ≠ ""
  provider : agent.model.provider ≠ ""
  model : agent.model.name ≠ ""
  tokens : agent.model.maxOutputTokens ≠ 0
  language : ∀ voice, agent.voice = some voice → voice.language ≠ ""
  ttsModel : ∀ voice, agent.voice = some voice → voice.ttsModel ≠ ""
  speaker : ∀ voice, agent.voice = some voice → voice.speaker ≠ ""
  pace : ∀ voice, agent.voice = some voice → voice.pace ≠ 0
  duration : ∀ voice, agent.voice = some voice → voice.endCallAfterSec ≠ 0
  types : ∀ field ∈ agent.capture.fields, field.type ≠ ""

section Save

variable {lower : Char → Char} {value saved : Agent} {actor : String}

/-- The voice that is stored is the one of the request with its speaker in lower case. -/
theorem preparedVoice_some {voice : Option VoiceConfig} {voice₁ : VoiceConfig}
    (h : preparedVoice lower voice = .ok (some voice₁)) :
    ∃ voice₀, voice = some voice₀ ∧ VoiceConfig.Prepared lower voice₀ voice₁ := by
  cases voice with
  | none => cases h
  | some voice₀ =>
    obtain ⟨voice₂, hvoice, heq⟩ := bind_eq_ok.1 h
    obtain rfl := Option.some.inj (Except.ok.inj heq)
    exact ⟨voice₀, rfl, VoiceConfig.prepared_ok hvoice⟩

theorem preparedVoice_none {voice : Option VoiceConfig}
    (h : preparedVoice lower voice = .ok none) : voice = none := by
  cases voice with
  | none => rfl
  | some voice₀ =>
    obtain ⟨voice₂, -, heq⟩ := bind_eq_ok.1 h
    cases heq

theorem ModelConfig.defaulted_ne (model : ModelConfig) :
    model.defaulted.name ≠ "" ∧ model.defaulted.maxOutputTokens ≠ 0 := by
  unfold ModelConfig.defaulted
  constructor
  · show (if model.name = "" then "gpt-5.6-luna" else model.name) ≠ ""
    split
    · decide
    · assumption
  · show (if model.maxOutputTokens ≤ 0 then 900 else model.maxOutputTokens) ≠ 0
    split
    · decide
    · omega

theorem Agent.Prepared.admitted {value' : Agent} (h : Agent.Prepared lower value value')
    (hsaved : value'.StoredAs actor saved) : saved.Admitted := by
  obtain ⟨id, createdAt, createdBy, revision, now, rfl⟩ := hsaved
  have hvoice : ∀ voice, value'.voice = some voice → ∃ voice₀, VoiceConfig.Prepared lower voice₀ voice := by
    intro voice hvoice
    obtain ⟨voice₀, -, hprepared⟩ := preparedVoice_some (hvoice ▸ h.voice)
    exact ⟨voice₀, hprepared⟩
  have hmodel : value'.model = value.model.defaulted := by rw [h.eq]
  constructor
  case name =>
    intro hempty
    refine h.name ?_
    have hname : value'.name = value.name := by rw [h.eq]
    rw [← hname, show value'.name = "" from hempty]
    simp [trimSpace]
  case provider => exact fun hempty => absurd (h.provider.symm.trans hempty) (by decide)
  case model => exact fun hempty => value.model.defaulted_ne.1 (hmodel ▸ hempty)
  case tokens => exact fun hzero => value.model.defaulted_ne.2 (hmodel ▸ hzero)
  case language =>
    intro voice hv
    obtain ⟨voice₀, hprepared⟩ := hvoice voice hv
    rw [hprepared.eq]
    exact hprepared.language
  case ttsModel =>
    intro voice hv
    obtain ⟨voice₀, hprepared⟩ := hvoice voice hv
    rw [hprepared.eq, hprepared.model]
    decide
  case speaker =>
    intro voice hv
    obtain ⟨voice₀, hprepared⟩ := hvoice voice hv
    exact hprepared.speaker
  case pace =>
    intro voice hv
    obtain ⟨voice₀, hprepared⟩ := hvoice voice hv
    rw [hprepared.eq]
    exact hprepared.pace
  case duration =>
    intro voice hv
    obtain ⟨voice₀, hprepared⟩ := hvoice voice hv
    rw [hprepared.eq]
    exact hprepared.duration
  case types =>
    intro field hfield hempty
    have hcapture : value'.capture = value.capture := by rw [h.eq]
    have htype := validateFields_type h.fields field (hcapture ▸ hfield)
    rw [hempty] at htype
    exact absurd htype (by decide)

/-- The two settings are stored as they were sent. -/
theorem Agent.Prepared.legible {value' : Agent} (h : Agent.Prepared lower value value')
    (hsaved : value'.StoredAs actor saved) : saved.Legible ↔ value.Legible := by
  obtain ⟨id, createdAt, createdBy, revision, now, rfl⟩ := hsaved
  have htemperature : value'.model.temperature = value.model.temperature := by rw [h.eq]; rfl
  refine and_congr (not_congr (by rw [← htemperature]; rfl)) ?_
  show (∀ voice, value'.voice = some voice → voice.sttModel ≠ "") ↔ _
  have hvoice := h.voice
  cases hvoice' : value'.voice with
  | none => simp [preparedVoice_none (hvoice' ▸ hvoice)]
  | some voice₁ =>
    obtain ⟨voice₀, hvoice₀, hprepared⟩ := preparedVoice_some (hvoice' ▸ hvoice)
    simp [hvoice₀, hprepared.eq]

end Save

/-! ## The round trip -/

namespace Worker

theorem ModelConfig.received_runs {model : Stylme.ModelConfig} (hprovider : model.provider ≠ "")
    (hname : model.name ≠ "") (htokens : model.maxOutputTokens ≠ 0) :
    (ModelConfig.received model).Runs model ↔ model.temperature ≠ 0 := by
  constructor
  · intro h hzero
    have htemperature := h.temperature
    simp only [received, hzero, if_true] at htemperature
    exact absurd htemperature (by decide +kernel)
  · intro htemperature
    exact ⟨if_neg hprovider, if_neg hname, if_neg htemperature, if_neg htokens⟩

theorem VoiceConfig.received_runs {agent : Agent} (h : agent.Admitted) {voice : Stylme.VoiceConfig}
    (hvoice : agent.voice = some voice) :
    (VoiceConfig.received voice).Runs voice ↔ voice.sttModel ≠ "" := by
  constructor
  · intro hruns hempty
    have hmodel := hruns.sttModel
    simp only [received, hempty, if_true] at hmodel
    exact absurd hmodel (by decide)
  · intro hmodel
    exact ⟨if_neg (h.language voice hvoice), if_neg hmodel, if_neg (h.ttsModel voice hvoice),
      if_neg (h.speaker voice hvoice), if_neg (h.pace voice hvoice), rfl,
      if_neg (h.duration voice hvoice)⟩

/-- An admitted agent arrives as it is stored, apart from the two settings. -/
theorem AgentConfig.received_runs {agent : Agent} (h : agent.Admitted) :
    (AgentConfig.received agent).Runs agent ↔ agent.Legible := by
  have hmodel := ModelConfig.received_runs h.provider h.model h.tokens
  have hread : ∀ voice, agent.voice = some voice →
      (AgentConfig.received agent).voice = .received voice := by
    intro voice hvoice
    simp [received, hvoice]
  constructor
  · intro hruns
    refine ⟨hmodel.1 hruns.model, fun voice hvoice => ?_⟩
    exact (VoiceConfig.received_runs h hvoice).1 (hread voice hvoice ▸ hruns.voice voice hvoice)
  · intro hlegible
    constructor
    case id | system | greeting | guardrails | fallback => rfl
    case name => exact if_neg h.name
    case model => exact hmodel.2 hlegible.1
    case voice =>
      intro voice hvoice
      rw [hread voice hvoice]
      exact (VoiceConfig.received_runs h hvoice).2 (hlegible.2 voice hvoice)
    case tools => simp [received, ToolConfig.received, Function.comp_def]
    case fields =>
      show (agent.capture.fields.map CaptureField.received).map _ = _
      rw [List.map_map]
      refine List.map_congr_left fun field hfield => ?_
      simp [CaptureField.received, h.types field hfield]

end Worker

/-- A saved agent runs with the settings it was saved with, exactly when its
temperature is not zero and no empty speech model was given. -/
theorem savedAgent_runs_iff {lower : Char → Char} {value saved : Agent} {actor : String} {w w' : World}
    (timestamp : Time → String) (lib : Worker.Conversions)
    (hsave : (saveAgent lower value actor).Ends Cmd.exec w (.ok saved) w') :
    (∃ config, Worker.AgentConfig.fromDict lib (saved.encode timestamp) = .ok config ∧
      config.Runs saved) ↔ value.Legible := by
  obtain ⟨value', hprepared, hstored⟩ := hsave.wp saveAgent_wp saved rfl
  have hprepared := Agent.prepared_ok hprepared
  rw [Worker.AgentConfig.fromDict_encode, ← hprepared.legible hstored,
    ← Worker.AgentConfig.received_runs (hprepared.admitted hstored)]
  constructor
  · rintro ⟨config, hconfig, hruns⟩
    exact Except.ok.inj hconfig ▸ hruns
  · exact fun hruns => ⟨_, rfl, hruns⟩

/-! ## An agent at temperature zero -/

namespace Sample

/-- A voice agent with the given temperature. -/
def receptionist (temperature : ℚ) : Agent where
  id := ""
  key := "receptionist"
  name := "Receptionist"
  channels := ["voice"]
  direction := "inbound"
  system := "Greet the caller."
  tools := []
  capture := ⟨[⟨"city", "City", "string", "", true, []⟩]⟩
  model := { temperature }
  voice := some ⟨"multi", "deepgram", "nova-3", "sarvam", "bulbul:v3", "Shubh", 1, true, 900⟩

def conversions : Worker.Conversions where
  repr _ := ""
  float _ := .error ⟨"ValueError", "could not convert string to float"⟩
  int _ := .error ⟨"ValueError", "invalid literal for int() with base 10"⟩

end Sample

theorem receptionist_saved (temperature : ℚ)
    (h : ((saveAgent Char.toLower (Sample.receptionist temperature) "admin").run Cmd.exec
      (List.replicate 3 { random := "a1" }) Sample.world).any fun r => r.1.isOk) :
    ∃ saved w', (saveAgent Char.toLower (Sample.receptionist temperature) "admin").Ends Cmd.exec
      Sample.world (.ok saved) w' := by
  obtain ⟨⟨r, w'⟩, hrun, hok⟩ := (Option.any_eq_true ..).1 h
  cases r with
  | error e => cases hok
  | ok saved => exact ⟨saved, w', _, hrun⟩

theorem savedAgent_runs_receptionist : ∃ saved w',
    (saveAgent Char.toLower (Sample.receptionist (1 / 2)) "admin").Ends Cmd.exec Sample.world
      (.ok saved) w' ∧
    ∃ config, Worker.AgentConfig.fromDict Sample.conversions (saved.encode fun _ => "") = .ok config ∧
      config.Runs saved := by
  obtain ⟨saved, w', hends⟩ := receptionist_saved (1 / 2) (by decide +kernel)
  refine ⟨saved, w', hends, (savedAgent_runs_iff _ _ hends).2 ⟨by decide +kernel, ?_⟩⟩
  intro voice hvoice
  obtain rfl := Option.some.inj hvoice
  decide

/-- An agent saved with temperature 0 is run with another temperature. -/
theorem not_savedAgent_runs_cold : ¬ ∀ (lower : Char → Char) (value saved : Agent) (actor : String)
    (w w' : World) (timestamp : Time → String) (lib : Worker.Conversions),
    (saveAgent lower value actor).Ends Cmd.exec w (.ok saved) w' →
      ∃ config, Worker.AgentConfig.fromDict lib (saved.encode timestamp) = .ok config ∧
        config.Runs saved := by
  intro h
  obtain ⟨saved, w', hends⟩ := receptionist_saved 0 (by decide +kernel)
  obtain ⟨config, hconfig, hruns⟩ := h _ _ saved _ _ w' (fun _ => "") Sample.conversions hends
  rw [Worker.AgentConfig.fromDict_encode] at hconfig
  obtain rfl := Except.ok.inj hconfig
  obtain ⟨value', hprepared, hstored⟩ := hends.wp saveAgent_wp saved rfl
  have hprepared := Agent.prepared_ok hprepared
  have hlegible := (Worker.AgentConfig.received_runs (hprepared.admitted hstored)).1 hruns
  exact ((hprepared.legible hstored).1 hlegible).1 rfl

end Stylme
