-- SUMMARY: The configuration of the checkout recovery: what an administrator submits, and how it is saved.
import Stylme.Lib.Sequence
import Stylme.Recovery.Source

/-!
# The recovery configuration

Saving the configuration replaces its sections by those of the request. Secrets are
stored encrypted and never sent back, so that a request without a secret is to keep
the stored one: each is carried over by hand into the section that replaces its own.
-/

namespace Stylme

open Conc Backend

namespace Recovery

/-- The document without its encrypted fields. -/
def Config.withoutSecrets (config : Config) : Config :=
  { config with
    samora := { config.samora with orgAPIKeyEncrypted := none }
    cronSecretEncrypted := none
    delivery := { config.delivery with
      provider := config.delivery.provider.map ({ · with apiTokenEncrypted := none }) } }

namespace Settings

/-! ## Requests -/

/-- `SamoraConfigInput` -/
structure SamoraInput where
  environment : String
  baseURL : String
  orgAPIKey : Option String
  agentID : Option String
  campaignID : Option String
  platform : String
  externalWorkflowID : String
  allowedCampaignStatuses : List String

/-- `ZepicProviderConfigInput` -/
structure ProviderInput where
  mode : String
  baseURL : String
  apiToken : Option String
  lookupField : String
  objectName : String
  objectType : String
  objectAPIName : String
  recordFields : Value

/-- `PostCallDeliveryInput` -/
structure DeliveryInput where
  enabled : Bool
  providerName : String
  questionID : Option String
  expectedAnswer : String
  sendOnStatus : List String
  providerConfig : Option ProviderInput

/-- `CheckoutRecoveryConfigUpdate` -/
structure ConfigUpdate where
  enabled : Bool
  cronSecret : Option String
  pageSize : ℕ
  samora : SamoraInput
  calling : CallingConfig
  multilingual : MultilingualConfig
  delivery : DeliveryInput
  metadata : Value

/-- `Field(min_length=low, max_length=high)` on an optional text -/
def inLength (low high : ℕ) (s : Option String) : Bool := s.all fun s => low ≤ s.length ∧ s.length ≤ high

/-- The text is given and not empty. -/
def given (s : Option String) : Bool := s.any (· ≠ "")

/-- The fields of the delivery section, and `delivery_requirements`. -/
def DeliveryInput.valid (d : DeliveryInput) : Bool :=
  inLength 0 120 d.questionID ∧ inLength 1 120 (some d.expectedAnswer) ∧ d.sendOnStatus = ["CALL_FINISHED"] ∧
    d.providerConfig.all (fun p => inLength 8 2000 p.apiToken) ∧
    (d.enabled → given d.questionID ∧ d.providerConfig.isSome)

/-- The schema accepts the secrets, the delivery section, the window and the languages. -/
def ConfigUpdate.valid (u : ConfigUpdate) : Bool :=
  inLength 32 512 u.cronSecret ∧ inLength 8 1000 u.samora.orgAPIKey ∧ u.delivery.valid ∧
    u.calling.windowStart ≠ u.calling.windowEnd ∧
    (u.multilingual.enabled → u.multilingual.primaryLanguage ∈ u.multilingual.supportedLanguages)

/-! ## Commands -/

/-- What a request sets in the document. -/
structure Updates where
  enabled : Bool
  pageSize : ℕ
  samora : SamoraConfig
  calling : CallingConfig
  multilingual : MultilingualConfig
  delivery : DeliveryConfig
  cronSecretEncrypted : Option String
  metadata : Value
  updatedByUserID : ObjectId
  updatedAt : Time

/-- An entry of `audit_logs` about the configuration. -/
structure Audit where
  configID : ObjectId
  actor : ObjectId
  enabled : Bool
  secretFieldsUpdated : List String

inductive Cmd where
  | now
  | findConfig
  /-- Insert the default configuration, unless there is one by now. -/
  | createConfig
  /-- `encrypt_secret`, under a random initialisation vector -/
  | encrypt (value : String)
  | save (updates : Updates)
  | insertAudit (entry : Audit)

@[reducible] def Answer : Cmd → Type
  | .now => Time
  | .findConfig => Option Config
  | .createConfig | .save _ => Config
  | .encrypt _ => String
  | .insertAudit _ => Unit

abbrev Py := Raise Cmd Answer PyErr

/-! ## The public configuration -/

/-- `mask_secret` -/
def maskSecret (value : Option String) : Option String :=
  (value.filter (· ≠ "")).map fun s =>
    "••••••••" ++ if 4 ≤ s.length then String.ofList (s.toList.drop (s.length - 4)) else "set"

/-- What is shown of a secret: whether there is one, and its end. -/
structure Mask where
  configured : Bool
  masked : Option String

def Mask.of (secret : Option String) : Mask := ⟨given secret, maskSecret secret⟩

/-- The visible document, and the masks of the secrets. -/
structure PublicConfig where
  document : Config
  orgAPIKey : Mask
  cronSecret : Mask
  apiToken : Mask

variable (lib : Library)

/-- `public_config` -/
def publicConfig (config : Config) : Except Raised PublicConfig := do
  let storedCron ← decryptSecret lib config.cronSecretEncrypted
  let cronSecret := if lib.cronSecret ≠ "" then some lib.cronSecret else storedCron
  let orgAPIKey ← decryptSecret lib config.samora.orgAPIKeyEncrypted
  let apiToken ← decryptSecret lib (config.delivery.provider.bind (·.apiTokenEncrypted))
  return ⟨config.withoutSecrets, .of orgAPIKey, .of cronSecret, .of apiToken⟩

/-! ## Saving -/

/-- `get_config` -/
def getConfig : Py Config := do
  match ← Raise.ask Cmd.findConfig with
  | some config => return config
  | none => Raise.ask Cmd.createConfig

/-- `encrypt_secret(incoming) if incoming else current` -/
def keepSecret (incoming current : Option String) : Py (Option String) :=
  match incoming.filter (· ≠ "") with
  | some value => do
    let sealed ← Raise.ask (Cmd.encrypt value)
    return some sealed
  | none => return current

/-- `samora`, with the encrypted key -/
def SamoraInput.stored (s : SamoraInput) (orgAPIKeyEncrypted : Option String) : SamoraConfig where
  environment := s.environment
  baseURL := s.baseURL
  orgAPIKeyEncrypted
  agentID := s.agentID
  campaignID := s.campaignID
  platform := s.platform
  externalWorkflowID := s.externalWorkflowID
  allowedCampaignStatuses := s.allowedCampaignStatuses

/-- `provider`, with the encrypted token -/
def ProviderInput.stored (p : ProviderInput) (apiTokenEncrypted : Option String) : ProviderConfig where
  mode := p.mode
  baseURL := p.baseURL
  apiTokenEncrypted
  lookupField := some p.lookupField
  objectName := some p.objectName
  objectType := some p.objectType
  objectAPIName := some p.objectAPIName
  recordFields := p.recordFields

/-- `delivery`, with the provider section -/
def DeliveryInput.stored (d : DeliveryInput) (provider : Option ProviderConfig) : DeliveryConfig where
  enabled := d.enabled
  providerName := d.providerName
  questionID := d.questionID
  expectedAnswer := d.expectedAnswer
  sendOnStatus := d.sendOnStatus
  provider

/-- `provider`, with the token of the request or the stored one -/
def keepProvider (existing : Config) (provider : Option ProviderInput) : Py (Option ProviderConfig) :=
  match provider with
  | none => return none
  | some p => do
    let token ← keepSecret p.apiToken (existing.delivery.provider.bind (·.apiTokenEncrypted))
    return some (p.stored token)

/-- `missing` -/
def missingFields (u : ConfigUpdate) (orgAPIKey cronSecret : Option String)
    (provider : Option ProviderConfig) : List String :=
  (if given u.samora.agentID then [] else ["samora.agentId"]) ++
  (if given u.samora.campaignID then [] else ["samora.campaignId"]) ++
  (if given orgAPIKey then [] else ["samora.orgApiKey"]) ++
  (if lib.cronSecret = "" ∧ ¬ given cronSecret then ["cronSecret"] else []) ++
  (if u.delivery.enabled ∧ ¬ given (provider.bind (·.apiTokenEncrypted)) then
    ["postCallDelivery.providerConfig.apiToken"] else [])

/-- `secretFieldsUpdated` -/
def secretFieldsUpdated (u : ConfigUpdate) : List String :=
  (if given u.cronSecret then ["cronSecret"] else []) ++
  (if given u.samora.orgAPIKey then ["samora.orgApiKey"] else []) ++
  (if given (u.delivery.providerConfig.bind (·.apiToken)) then
    ["postCallDelivery.providerConfig.apiToken"] else [])

/-- The detail of the refusal is a dictionary of this message and the fields. -/
def incomplete (missing : List String) : PyErr :=
  .httpException 422 ("Enabled recovery configuration is incomplete: " ++ ", ".intercalate missing)

def saveConfig (actor : ObjectId) (u : ConfigUpdate) : Py PublicConfig := do
  let existing ← getConfig
  let orgAPIKey ← keepSecret u.samora.orgAPIKey existing.samora.orgAPIKeyEncrypted
  let cronSecret ← keepSecret u.cronSecret existing.cronSecretEncrypted
  let provider ← keepProvider existing u.delivery.providerConfig
  let missing := missingFields lib u orgAPIKey cronSecret provider
  if u.enabled ∧ missing ≠ [] then throw (incomplete missing)
  else
    let now ← Raise.ask Cmd.now
    let updated ← Raise.ask (Cmd.save {
      enabled := u.enabled
      pageSize := u.pageSize
      samora := u.samora.stored orgAPIKey
      calling := u.calling
      multilingual := u.multilingual
      delivery := u.delivery.stored provider
      cronSecretEncrypted := cronSecret
      metadata := u.metadata
      updatedByUserID := actor
      updatedAt := now })
    Raise.ask (Cmd.insertAudit ⟨updated.id, actor, u.enabled, secretFieldsUpdated u⟩)
    liftRaised (publicConfig lib updated)

/-! ## Effects -/

structure World where
  clock : Time
  config : Option Config
  audits : List Audit

/-- How a request goes wrong, random texts, and the identifier of a new document. -/
structure Oracle where
  fault : Option Mishap := none
  random : String := ""
  objectID : ObjectId := 0

/-- `{"$set": updates}` -/
def Updates.apply (updates : Updates) (config : Config) : Config :=
  { config with
    enabled := updates.enabled
    pageSize := updates.pageSize
    samora := updates.samora
    calling := updates.calling
    multilingual := updates.multilingual
    delivery := updates.delivery
    cronSecretEncrypted := updates.cronSecretEncrypted
    metadata := updates.metadata
    updatedByUserID := some updates.updatedByUserID
    updatedAt := updates.updatedAt }

def Cmd.exec : (cmd : Cmd) → Oracle → World → Option (Raising PyErr Answer cmd × World)
  | .now, _, w => some (.ok w.clock, w)
  | .findConfig, o, w => respond o.fault (.ok w.config) w
  | .createConfig, o, w =>
    match w.config with
    | some config => respond o.fault (.ok config) w
    | none => perform o.fault (.ok (defaultConfig o.objectID w.clock)) w
        { w with config := some (defaultConfig o.objectID w.clock) }
  | .encrypt value, o, w =>
    if lib.keyMaterial.length < 32 then
      some (.error (.exception "RuntimeError" "Checkout-recovery secret encryption is not configured"), w)
    else some (.ok (lib.encrypt o.random value), w)
  | .save updates, o, w =>
    -- an upserted document has nothing but these fields, its key and its creation
    let config := updates.apply (w.config.getD (defaultConfig o.objectID updates.updatedAt))
    perform o.fault (.ok config) w { w with config := some config }
  | .insertAudit entry, o, w => perform o.fault (.ok ()) w { w with audits := entry :: w.audits }

/-- A request to save a configuration. -/
structure Op where
  actor : ObjectId
  update : ConfigUpdate

/-- Requests to save configurations; time passes between them. -/
def settings : System Op Cmd (Raising PyErr Answer) (Except PyErr PublicConfig) World Oracle ℕ where
  prog op := saveConfig lib op.actor op.update
  exec := Cmd.exec lib
  env passed w := { w with clock := w.clock + passed }

end Settings

end Recovery

end Stylme
