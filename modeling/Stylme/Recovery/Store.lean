-- SUMMARY: The store of the checkout recovery: configuration, checkouts, recovery runs and locks, and the commands on them.
import Stylme.Backend.Values

/-!
# The store of the checkout recovery

`execute_recovery` reads the configuration and the abandoned checkouts, talks to
the call provider over HTTP, and keeps a document about the run. The provider's
answers, like the faults, are oracles: nothing is assumed about their shape.
-/

namespace Stylme

open Conc Backend

namespace Recovery

/-! ## Settings and the standard library -/

/-- A local time of day, in microseconds since midnight. -/
abbrev TimeOfDay := ℕ

/-- The settings, and what the standard library and the packages provide. -/
structure Library where
  /-- `CHECKOUT_RECOVERY_LOCK_SECONDS` -/
  lockSeconds : ℤ
  /-- `CRON_SECRET`, empty when it is not set -/
  cronSecret : String
  /-- `STOREFRONT_URL` -/
  storefrontURL : String
  /-- `CHECKOUT_RECOVERY_ENCRYPTION_KEY`, or `JWT_SECRET` when it is not set -/
  keyMaterial : String
  /-- Encryption with the key that comes from `keyMaterial`, of a second text under a first, random one. -/
  encrypt : String → String → String
  /-- Decryption with the key that comes from `keyMaterial`, unless the token is invalid. -/
  decrypt : String → Option String
  /-- `now.astimezone(ZoneInfo(zone)).time()` -/
  localTime : Time → String → Except Raised TimeOfDay
  /-- `time.fromisoformat` -/
  parseTime : String → Option TimeOfDay
  /-- `datetime.fromisoformat`, of a text without an offset as UTC -/
  parseDatetime : String → Option Time
  isoformat : Time → String
  /-- `str` of a float, a list or a dictionary -/
  repr : Value → String
  upper : String → String
  /-- Length of `json.dumps(value, default=str)` in UTF-8 -/
  jsonSize : Value → ℕ
  /-- Length of `json.dumps(value, ensure_ascii=False)` in UTF-8 -/
  bodySize : Value → ℕ
  /-- `f"₹{paise / 100:,.0f}"` -/
  formatTotal : ℕ → String
  /-- The characters that `\d` matches. -/
  isDigit : Char → Bool

/-! ## Documents -/

structure SamoraConfig where
  environment : String
  baseURL : String
  orgAPIKeyEncrypted : Option String
  agentID : Option String
  campaignID : Option String
  platform : String
  externalWorkflowID : String
  allowedCampaignStatuses : List String

structure CallingConfig where
  timezone : String
  windowStart : String
  windowEnd : String
  inactivityMinutes : ℕ
  maxAttempts : ℕ
  cooldownMinutes : ℕ

structure MultilingualConfig where
  enabled : Bool
  primaryLanguage : String
  supportedLanguages : List String
  automaticDetection : Bool
  detectionThreshold : ℕ
  languageSwitchTool : String

structure ProviderConfig where
  mode : String
  baseURL : String
  apiTokenEncrypted : Option String
  lookupField : Option String
  objectName : Option String
  objectType : Option String
  objectAPIName : Option String
  recordFields : Value

structure DeliveryConfig where
  enabled : Bool
  providerName : String
  questionID : Option String
  expectedAnswer : String
  sendOnStatus : List String
  provider : Option ProviderConfig

/-- The document of `checkout_recovery_configs` with the key `default`. -/
structure Config where
  id : ObjectId
  enabled : Bool
  pageSize : ℕ
  samora : SamoraConfig
  calling : CallingConfig
  multilingual : MultilingualConfig
  delivery : DeliveryConfig
  cronSecretEncrypted : Option String
  metadata : Value
  updatedByUserID : Option ObjectId
  createdAt : Time
  updatedAt : Time

/-- `default_config` -/
def defaultConfig (id : ObjectId) (timestamp : Time) : Config where
  id := id
  enabled := false
  pageSize := 500
  samora := ⟨"stage", "https://api.stage.samora.ai", none, none, none, "stylme",
    "stylme-abandoned-checkout-v1", ["DRAFT", "IN_PROGRESS"]⟩
  calling := ⟨"Asia/Kolkata", "09:00:00", "20:00:00", 20, 2, 1440⟩
  multilingual := ⟨true, "en-IN", ["en-IN", "hi-IN"], true, 2, "switch_language_tool"⟩
  delivery := ⟨false, "zepic", some "send_checkout_link", "yes", ["CALL_FINISHED"], none⟩
  cronSecretEncrypted := none
  metadata := .dict [("system", .dict [("managed", .bool true)])]
  updatedByUserID := none
  createdAt := timestamp
  updatedAt := timestamp

structure CheckoutItem where
  title : String
  quantity : ℕ
  pricePaise : ℕ

/-- What a checkout knows about the call that was scheduled for it. -/
structure CallMark where
  callID : String
  scheduleStatus : String
  lastActivityAt : Time
  processedAt : Time

/-- A document of `checkouts`. -/
structure Checkout where
  id : ObjectId
  checkoutID : String
  externalID : String
  contactPhone : Option String
  customerEmail : Option String
  customerName : Option String
  status : String
  paymentStatus : String
  items : List CheckoutItem
  itemCount : ℕ
  cartValuePaise : ℕ
  currency : String
  topItem : Option String
  productTitles : List String
  eligibleAt : Time
  recoveryTokenEncrypted : Option String
  samora : Option CallMark
  updatedAt : Time

inductive RunStatus where
  | running
  | skippedOutsideCallingWindow
  | completed
  | completedWithErrors
  | failed
  deriving DecidableEq

structure SourceCounts where
  fetched : ℕ := 0
  valid : ℕ := 0
  invalid : ℕ := 0
  deduplicated : ℕ := 0

structure LookupCounts where
  submitted : ℕ := 0
  eligible : ℕ := 0
  skippedCompleted : ℕ := 0
  skippedStale : ℕ := 0
  skippedActiveCall : ℕ := 0
  errors : ℕ := 0

structure ScheduleCounts where
  submitted : ℕ := 0
  scheduled : ℕ := 0
  alreadyScheduled : ℕ := 0
  skipped : ℕ := 0
  failed : ℕ := 0

structure ActivityCounts where
  submitted : ℕ := 0
  succeeded : ℕ := 0
  failed : ℕ := 0

/-- An entry of the errors of a run. -/
structure RunError where
  externalID : Option String
  stage : String
  code : String
  retryable : Bool

structure Summary where
  runID : String
  configurationID : ObjectId
  status : RunStatus
  startedAt : Time
  finishedAt : Option Time
  source : SourceCounts
  lookup : LookupCounts
  schedule : ScheduleCounts
  activityUpsert : ActivityCounts
  errors : List RunError

/-- `_empty_summary` -/
def emptySummary (runID : String) (configID : ObjectId) (startedAt : Time) : Summary where
  runID := runID
  configurationID := configID
  status := .running
  startedAt := startedAt
  finishedAt := none
  source := {}
  lookup := {}
  schedule := {}
  activityUpsert := {}
  errors := []

/-- A document of `checkout_recovery_runs`. -/
structure Run where
  summary : Summary
  requestedBy : String
  campaignID : String
  platform : String
  createdAt : Time
  updatedAt : Time

def Run.runID (run : Run) : String := run.summary.runID

/-! ## Commands -/

structure HttpResponse where
  statusCode : ℕ
  /-- `response.json()`, unless the body is no JSON -/
  json : Option Value

/-- The commands of a recovery run. -/
inductive Cmd where
  | now
  /-- `uuid.uuid4().hex` -/
  | uuid
  | findConfig
  /-- Insert the default configuration, unless there is one by now. -/
  | createConfig
  | acquireLock (key owner : String) (now expiresAt : Time)
  | releaseLock (key owner : String)
  | insertRun (run : Run)
  | finishRun (summary : Summary) (updatedAt : Time)
  | findCheckouts (startedAt : Time) (limit : ℕ)
  /-- One HTTP request to the call provider. -/
  | post (url apiKey : String) (body : Value)
  | sleep
  | closeClient
  | markScheduled (id : ObjectId) (externalID : String) (mark : CallMark) (updatedAt : Time)
  /-- A plain function raises. -/
  | raised (e : Raised)

/-- The answers; a `post` that meets a `TimeoutException` or a `NetworkError` has none. -/
abbrev Answer : Cmd → Type
  | .now => Time
  | .uuid => String
  | .findConfig => Option Config
  | .createConfig => Config
  | .acquireLock _ _ _ _ => Lock
  | .findCheckouts _ _ => List Checkout
  | .post _ _ _ => Option HttpResponse
  | .raised _ => Empty
  | _ => Unit

abbrev Resp (cmd : Cmd) := Except PyErr (Answer cmd)

/-- A function of the service. -/
abbrev Py (α : Type) := Raise Cmd Answer PyErr α

/-- Call a plain function; that it raises is an event of the run. -/
def plain {α : Type} : Except Raised α → Py α
  | .ok a => pure a
  | .error e => do
    let never ← Raise.ask (Cmd.raised e)
    nomatch never

/-! ## The world -/

structure World where
  clock : Time
  config : Option Config
  checkouts : Collection Checkout Checkout.id Checkout.externalID
  runs : Collection Run Run.runID Run.runID
  locks : Locks
  /-- Every run identifier the random generator has handed out. -/
  issued : List String

/-- What the world does not determine about the answer to one command. -/
structure Oracle where
  fault : Option Mishap := none
  /-- The digits of `uuid4`. -/
  random : String := ""
  /-- The identifier the driver gives to a new document. -/
  objectID : ObjectId := 0
  /-- The outcome of an HTTP request. -/
  http : Option HttpResponse := none

/-- The query for the checkouts of a run. -/
def Checkout.isAbandoned (startedAt : Time) (c : Checkout) : Bool :=
  c.status = "active" ∧ c.paymentStatus = "unpaid" ∧ 0 < c.itemCount ∧ c.eligibleAt ≤ startedAt

/-- The update of `markScheduled`. -/
def Checkout.marked (mark : CallMark) (updatedAt : Time) (c : Checkout) : Checkout :=
  { c with status := "recovery_scheduled", samora := some mark, updatedAt }

/-- The update of `finishRun`. -/
def Run.finished (summary : Summary) (updatedAt : Time) (run : Run) : Run := { run with summary, updatedAt }

/-- `.limit(n).to_list(length=500)`; a limit of zero is none. -/
def pageLimit (n : ℕ) : ℕ := if n = 0 then 500 else min n 500

def Cmd.exec : (cmd : Cmd) → Oracle → World → Option (Resp cmd × World)
  | .now, _, w => some (.ok w.clock, w)
  | .uuid, o, w =>
    if o.random ∈ w.issued ∨ (∃ run ∈ w.runs.docs, run.runID = "run_" ++ o.random) ∨
      (∃ lock ∈ w.locks.docs, lock.owner = "run_" ++ o.random) then none
    else some (.ok o.random, { w with issued := o.random :: w.issued })
  | .findConfig, o, w => respond o.fault (.ok w.config) w
  | .createConfig, o, w =>
    match w.config with
    | some config => respond o.fault (.ok config) w
    | none => perform o.fault (.ok (defaultConfig o.objectID w.clock)) w
        { w with config := some (defaultConfig o.objectID w.clock) }
  | .acquireLock key owner time expiresAt, o, w =>
    let lock : Lock := ⟨key, owner, expiresAt, time⟩
    match acquire w.locks lock time with
    | some locks => perform o.fault (.ok lock) w { w with locks }
    | none => respond o.fault (.error .duplicateKey) w
  | .releaseLock key owner, o, w =>
    perform o.fault (.ok ()) w { w with locks := release w.locks key owner }
  | .insertRun run, o, w =>
    match w.runs.insertOne run with
    | some runs => perform o.fault (.ok ()) w { w with runs }
    | none => respond o.fault (.error .duplicateKey) w
  | .finishRun summary updatedAt, o, w =>
    match w.runs.get summary.runID with
    | some run => perform o.fault (.ok ()) w
        { w with runs := (w.runs.replaceOne (run.finished summary updatedAt)).getD w.runs }
    | none => respond o.fault (.ok ()) w
  | .findCheckouts startedAt limit, o, w =>
    respond o.fault (.ok (sortLimit (fun a b => b.updatedAt ≤ a.updatedAt) (pageLimit limit)
      (w.checkouts.docs.filter (·.isAbandoned startedAt)))) w
  | .post _ _ _, o, w => respond o.fault (.ok o.http) w
  | .sleep, o, w => respond o.fault (.ok ()) w
  | .closeClient, o, w => respond o.fault (.ok ()) w
  | .markScheduled id externalID mark updatedAt, o, w =>
    match w.checkouts.get id with
    | some c =>
      if c.externalID = externalID then
        perform o.fault (.ok ()) w
          { w with checkouts := (w.checkouts.replaceOne (c.marked mark updatedAt)).getD w.checkouts }
      else respond o.fault (.ok ()) w
    | none => respond o.fault (.ok ()) w
  | .raised e, _, w => some (.error e.error, w)

end Recovery

/-! ## A small platform -/

namespace Sample

/-- A library that encrypts by putting a letter in front. -/
def recoveryLibrary : Recovery.Library where
  lockSeconds := 240
  cronSecret := ""
  storefrontURL := "http://localhost:3000"
  keyMaterial := "0123456789abcdef0123456789abcdef"
  encrypt := fun _ value => String.ofList ('s' :: value.toList)
  decrypt := fun text => match text.toList with
    | [] => none
    | _ :: value => some (String.ofList value)
  localTime := fun _ _ => .ok 0
  parseTime := fun _ => none
  parseDatetime := fun _ => none
  isoformat := fun _ => ""
  repr := fun _ => ""
  upper := id
  jsonSize := fun _ => 0
  bodySize := fun _ => 0
  formatTotal := fun _ => ""
  isDigit := Char.isDigit

end Sample

end Stylme
