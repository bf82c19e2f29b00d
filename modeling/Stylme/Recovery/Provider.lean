-- SUMMARY: The client of the call provider: its requests, its retries, and what a run makes of the answers.
import Stylme.Recovery.Source

/-!
# The call provider

A request is tried three times. Whatever the provider answers with a success
status is decoded and handed on if it is a JSON object; reading the members of
that object raises when they do not have the expected shape.
-/

namespace Stylme

open Conc Backend

namespace Recovery

variable (lib : Library)

/-! ## The client -/

structure Client where
  baseURL : String
  apiKey : String

/-- The rounds of `SamoraClient.post` that are left, after the error of the round before. -/
def postAttempts (client : Client) (path : String) (payload : Value) :
    ℕ → Option PyErr → Py (List (String × Value))
  | 0, lastError => throw (lastError.getD (.samora none "unknown" false))
  | n + 1, _ => do
    match ← Raise.ask (Cmd.post (client.baseURL ++ path) client.apiKey payload) with
    | none =>
      let error := PyErr.samora none "timeout_or_network" true
      if n = 0 then throw error
      else
        Raise.ask Cmd.sleep
        postAttempts client path payload n (some error)
    | some response =>
      if response.statusCode = 200 ∨ response.statusCode = 201 then
        match response.json with
        | none => throw (.samora (some response.statusCode) "invalid_json" false)
        | some (.dict fields) => return fields
        | some _ => throw (.samora (some response.statusCode) "invalid_response_shape" false)
      else
        let retryable := decide (500 ≤ response.statusCode)
        let error :=
          PyErr.samora (some response.statusCode) ("http_" ++ toString response.statusCode) retryable
        if ¬ retryable ∨ n = 0 then throw error
        else
          Raise.ask Cmd.sleep
          postAttempts client path payload n (some error)

/-- `MAX_REQUEST_BYTES` -/
def maxRequestBytes : ℕ := 20 * 1024 * 1024

/-- `SamoraClient.post` -/
def post (client : Client) (path : String) (payload : Value) : Py (List (String × Value)) :=
  if maxRequestBytes < lib.bodySize payload then throw (.samora none "request_too_large" false)
  else postAttempts client path payload 3 none

/-- `SamoraClient.lookup` -/
def lookup (client : Client) (payload : Value) : Py (List (String × Value)) :=
  post lib client "/v1/workflow/activity/lookup" payload

/-- `SamoraClient.schedule` -/
def schedule (client : Client) (payload : Value) : Py (List (String × Value)) :=
  post lib client "/v1/workflow/campaign/schedule" payload

/-- `SamoraClient.bulk_activity` -/
def bulkActivity (client : Client) (payload : Value) : Py (List (String × Value)) :=
  post lib client "/v1/workflow/activity/bulk" payload

/-- The first `n` characters of a text. -/
def clip (n : ℕ) (s : String) : String := String.ofList (s.toList.take n)

/-! ## Eligible rows -/

/-- What the lookup of one row says. -/
inductive Eligibility where
  | eligible
  | skippedCompleted
  | skippedStale
  | skippedActiveCall
  | error (code : String)

/-- `ACTIVE_CALL_STATUSES` -/
def activeCallStatuses : List String := ["PENDING", "QUEUED", "TRIGGERED", "ONGOING"]

/-- `parse_datetime` of a decoded value. -/
def parseValue : Value → Option Time
  | .str s => lib.parseDatetime s
  | _ => none

/-- One round of the loop of `lookup_eligible`. -/
def rowEligibility (row : Row) (result : Value) : Except Raised Eligibility := do
  let error ← result.get "error"
  if error.truthy then
    let code ← error.get "code"
    return .error (clip 120 ((code.orElse (.str "lookup_error")).toStr lib.repr))
  let data := (← result.get "data").orElse (.dict [])
  let found := (← result.get "found").truthy
  if found then
    if (← data.get "completed").isTrue then return .skippedCompleted
  let lastActivity := parseValue lib (← data.get "last_activity_at")
  if found ∧ lastActivity.any (row.updatedAt ≤ ·) then return .skippedStale
  if found then
    let status ← data.get "call_status"
    if lib.upper ((status.orElse (.str "")).toStr lib.repr) ∈ activeCallStatuses then
      return .skippedActiveCall
  return .eligible

/-- The loop of `lookup_eligible` from the row at `index` on. -/
def rowEligibilities (results : Value) : ℕ → List Row → Except Raised (List (Row × Eligibility))
  | _, [] => .ok []
  | index, row :: rows => do
    let result ← if index < (← results.len) then results.item index
      else .ok (.dict [("error", .dict [("code", .str "missing_result")])])
    let outcome ← rowEligibility lib row result
    let outcomes ← rowEligibilities results (index + 1) rows
    return (row, outcome) :: outcomes

/-- The counts after a row. -/
def LookupCounts.count (counts : LookupCounts) : Eligibility → LookupCounts
  | .eligible => { counts with eligible := counts.eligible + 1 }
  | .skippedCompleted => { counts with skippedCompleted := counts.skippedCompleted + 1 }
  | .skippedStale => { counts with skippedStale := counts.skippedStale + 1 }
  | .skippedActiveCall => { counts with skippedActiveCall := counts.skippedActiveCall + 1 }
  | .error _ => { counts with errors := counts.errors + 1 }

/-- `lookup_eligible` -/
def lookupEligible (rows : List Row) (results : Value) :
    Except Raised (List Row × LookupCounts × List RunError) := do
  let outcomes ← rowEligibilities lib results 0 rows
  let eligible := outcomes.filterMap fun
    | (row, .eligible) => some row
    | _ => none
  let errors := outcomes.filterMap fun
    | (row, .error code) => some ⟨some row.source.externalID, "lookup", code, false⟩
    | _ => none
  return (eligible, outcomes.foldl (fun counts x => counts.count x.2) { submitted := rows.length },
    errors)

/-! ## Requests -/

/-- `supported_languages`, with its default -/
def MultilingualConfig.languages (multilingual : MultilingualConfig) : List String :=
  if multilingual.supportedLanguages ≠ [] then multilingual.supportedLanguages else ["en-IN", "hi-IN"]

/-- The fields of a row that both requests carry. -/
def rowFields (row : SourceRow) : List (String × Value) :=
  [("checkout_id", .str row.checkoutID), ("customer_name", .ofOption row.customerName),
    ("first_name", .str row.firstName), ("last_name", .str row.lastName),
    ("customer_email", .ofOption row.customerEmail), ("shop_name", .str row.shopName),
    ("cart_value", .str row.cartValue), ("cart_total", .str row.cartTotal),
    ("currency", .str row.currency), ("item_count", .int row.itemCount),
    ("top_item", .ofOption row.topItem), ("product_titles", .str row.productTitles),
    ("recovery_url", .ofOption row.recoveryURL)]

/-- `_schedule_item`; the error is the text of its `ValueError`. -/
def scheduleItem (row : Row) (config : Config) : Except String Value :=
  let multilingual := config.multilingual
  let callVariables : Value := .dict (rowFields row.source ++
    [("post_call_question_id", .ofOption config.delivery.questionID),
      ("multilingual_enabled", .bool multilingual.enabled),
      ("primary_language", .str multilingual.primaryLanguage),
      ("supported_languages", .ofStrings multilingual.languages),
      ("language_switch_tool", .str multilingual.languageSwitchTool)])
  let itemConfig : Value := .dict
    [("max_attempts", .int config.calling.maxAttempts),
      ("cooldown_minutes", .int config.calling.cooldownMinutes),
      ("multilingual", .dict
        [("enabled", .bool multilingual.enabled),
          ("primary_language", .str multilingual.primaryLanguage),
          ("supported_languages", .ofStrings multilingual.languages),
          ("automatic_detection", .bool multilingual.automaticDetection),
          ("detection_threshold", .int multilingual.detectionThreshold),
          ("language_switch_tool", .str multilingual.languageSwitchTool)])]
  if 16 * 1024 < lib.jsonSize callVariables then .error "variables_too_large"
  else if 16 * 1024 < lib.jsonSize itemConfig then .error "config_too_large"
  else .ok (.dict [("external_id", .str row.source.externalID),
    ("contact_phone", .str row.contactPhone), ("call_variables", callVariables),
    ("config", itemConfig)])

/-- The `zepic` entry of `_activity_item`. -/
def zepicConfig (delivery : DeliveryConfig) (secrets : Secrets) : Option Value :=
  if delivery.enabled then
    let provider := delivery.provider
    let field (f : ProviderConfig → Option String) : Value := .ofOption (provider.bind f)
    some (.dict [("enabled", .bool true), ("mode", field (some ·.mode)),
      ("base_url", field (some ·.baseURL)), ("api_token", .ofOption secrets.zepicAPIToken),
      ("require_condition", .bool true),
      ("condition", .dict [("question_id", .ofOption delivery.questionID),
        ("equals", .str delivery.expectedAnswer)]),
      ("send_on_status", .ofStrings
        (if delivery.sendOnStatus ≠ [] then delivery.sendOnStatus else ["CALL_FINISHED"])),
      ("lookup_field", field (·.lookupField)), ("object_name", field (·.objectName)),
      ("object_type", field (·.objectType)), ("object_api_name", field (·.objectAPIName)),
      ("record_fields", (provider.elim .none (·.recordFields)).orElse (.dict []))])
  else none

/-- `_activity_item`; the error is the text of its `ValueError`. -/
def activityItem (row : Row) (callID : String) (config : Config) (secrets : Secrets) :
    Except String Value :=
  let multilingual := config.multilingual
  let metadata : Value := .dict (rowFields row.source ++
    [("items", .list (row.source.items.map fun item => .dict [("title", .str item.title),
      ("quantity", .int item.quantity), ("price", .str item.price)]))])
  if 128 * 1024 < lib.jsonSize metadata then .error "metadata_too_large"
  else .ok (.dict [("agent_id", .ofOption config.samora.agentID), ("platform", .str config.samora.platform),
    ("external_id", .str row.source.externalID), ("contact_phone", .str row.contactPhone),
    ("source", .str "stylme_abandoned_checkout"), ("trigger_type", .str "abandoned_checkout"),
    ("last_event", .str "call_scheduled"), ("last_activity_at", .str (lib.isoformat row.updatedAt)),
    ("call_id", .str callID), ("completed", .bool false),
    ("config", .dict [("max_attempts", .int config.calling.maxAttempts),
      ("cooldown_minutes", .int config.calling.cooldownMinutes),
      ("multilingual", .dict [("enabled", .bool multilingual.enabled),
        ("primary_language", .str multilingual.primaryLanguage),
        ("supported_languages", .ofStrings multilingual.supportedLanguages),
        ("automatic_detection", .bool multilingual.automaticDetection),
        ("detection_threshold", .int multilingual.detectionThreshold),
        ("language_switch_tool", .str multilingual.languageSwitchTool)]),
      ("tool_integration", .dict ((zepicConfig config.delivery secrets).elim []
        fun zepic => [("zepic", zepic)]))]),
    ("metadata", metadata)])

end Recovery

end Stylme
