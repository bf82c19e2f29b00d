-- SUMMARY: Replies of the web chat: the plan sanitizer, the reply itself, and the protocol it follows.
import Stylme.Chat.Sessions
import Stylme.Lib.Pool
import Stylme.Service.Basic

/-!
# Replies

`Reply` reads a session, plans and runs a search for the shopper's message, and
replaces the session by its copy with the new turn. `protocol` records the order
of its store commands and what it writes.
-/

namespace Stylme

open Conc

namespace Chat

abbrev Program (α : Type) := Prog Cmd Resp α

/-- What replies take from the platform and the configuration. -/
structure Platform where
  tokenHash : String → String
  /-- `strings.ToLower` -/
  toLower : String → String
  sessionTTL : Duration

/-! ## The plan sanitizer -/

/-- The keys under which `optionSet` looks for the names of an option. -/
def optionNames : List String := ["key", "value", "slug", "name", "label"]

section Plan

variable (platform : Platform)

/-- What one item of a filter contract adds to `optionSet`. -/
def addOption (result : List (String × String)) : Json → List (String × String)
  | .str text => setKey (platform.toLower text) text result
  | .obj value =>
    let named := optionNames.foldl (fun result key =>
      match value.lookup key with
      | some (.str text) =>
        if text ≠ "" ∧ result.lookup (platform.toLower text) = none then
          setKey (platform.toLower text) text result
        else result
      | _ => result) result
    match value.lookup "familyKeys" with
    | some (.arr families) => families.foldl (fun result family =>
        match family with
        | .str text => setKey (platform.toLower text) text result
        | _ => result) named
    | _ => named
  | _ => result

def optionSet : Option Json → List (String × String)
  | some (.arr items) => items.foldl (addOption platform) []
  | _ => []

def allowedValues (values : List String) (allowed : List (String × String)) : List String :=
  values.foldl (fun result value =>
    match allowed.lookup (platform.toLower (trimSpace value)) with
    | some canonical => if canonical ∈ result then result else result ++ [canonical]
    | none => result) []

/-- The options of each field of the filter contract. -/
def fieldSets (filters : Document) : List (String × List (String × String)) :=
  match filters.lookup "fields" with
  | some (.arr fields) => fields.foldl (fun sets field =>
      match field with
      | .obj field =>
        match field.lookup "key" with
        | some (.str key) =>
          if key ≠ "" then setKey key (optionSet platform (field.lookup "options")) sets else sets
        | _ => sets
      | _ => sets) []
  | _ => []

/-- `^[1-9][0-9]{5}$` -/
def isPincode (s : String) : Bool :=
  match s.toList with
  | d :: rest => '1' ≤ d ∧ d ≤ '9' ∧ rest.all Char.isDigit ∧ rest.length = 5
  | [] => false

def sanitizePlan (plan : SearchPlan) (filters : Document) : SearchPlan :=
  let options := fun key => optionSet platform (filters.lookup key)
  let sets := fieldSets platform filters
  let swoopstyl := plan.swoopstyl ∧ isPincode plan.pincode
  { plan with
    brand := allowedValues platform plan.brand (options "brands")
    category := allowedValues platform plan.category (options "categories")
    productType := allowedValues platform plan.productType (options "productTypes")
    colour := allowedValues platform plan.colour (options "colors")
    size := allowedValues platform plan.size (options "sizes")
    gender := allowedValues platform plan.gender ((sets.lookup "gender").getD [])
    metadata := plan.metadata.filterMap fun (key, values) =>
      match sets.lookup key with
      | some allowed =>
        let clean := allowedValues platform values allowed
        if clean ≠ [] then some (key, clean) else none
      | none => none
    swoopstyl := swoopstyl
    pincode := if plan.swoopstyl ∧ ¬ isPincode plan.pincode then "" else plan.pincode }

end Plan

def jsonStrings (values : List String) : Json := .arr (values.map .str)

def planSummary (plan : SearchPlan) : Document :=
  let price := fun (p : Option Rat) => p.elim Json.null Json.num
  [("brand", jsonStrings plan.brand), ("category", jsonStrings plan.category),
    ("productType", jsonStrings plan.productType), ("colour", jsonStrings plan.colour),
    ("size", jsonStrings plan.size), ("gender", jsonStrings plan.gender),
    ("metadata", .obj (plan.metadata.map fun (key, values) => (key, jsonStrings values))),
    ("minPrice", price plan.minPrice), ("maxPrice", price plan.maxPrice),
    ("pincode", .str plan.pincode), ("swoopstyl", .bool plan.swoopstyl), ("sort", .str plan.sort)]

/-! ## The reply -/

/-- The arguments of `Reply`. -/
structure ReplyRequest where
  sessionID : String
  token : String
  text : String
  authorization : String

structure WebReply where
  sessionID : String
  message : ChatMessage
  plan : SearchPlan
  search : Option Document

/-- The last `n` elements. -/
def latest {α : Type} (n : ℕ) (l : List α) : List α :=
  if n < l.length then l.drop (l.length - n) else l

/-- How many messages a session of this agent keeps. -/
def WebAgent.maxStored (agent : WebAgent) : ℕ :=
  match agent.web with
  | some web => if 0 < web.maxHistoryMessages then web.maxHistoryMessages.toNat * 2 else 24
  | none => 24

/-- `agentToolEnabled` -/
def WebAgent.toolEnabled (agent : WebAgent) (key : String) : Bool :=
  agent.tools.any fun tool => tool.key = key ∧ tool.enabled

/-- The component that proposes a change of the profile, if the agent may. -/
def profileProposal (agent : WebAgent) (plan : SearchPlan) : List UIComponent :=
  if plan.profileProposal ≠ [] ∧ agent.web.any (·.allowProfileProposal) ∧
      agent.toolEnabled "propose_profile_update" then
    [⟨"profile_proposal", [("changes", .obj plan.profileProposal), ("requiresConfirmation", .bool true)]⟩]
  else []

/-- The session with one more turn, as `Reply` writes it. -/
def AISession.extended (session : AISession) (agent : WebAgent) (user assistant : ChatMessage)
    (profile : Document) (ttl : Duration) (now : Time) : AISession :=
  { session with
    messages := latest agent.maxStored (session.messages ++ [user, assistant])
    profileContext := profile
    updatedAt := now
    expiresAt := now + ttl }

def clarification (plan : SearchPlan) : String :=
  if plan.clarifyingQuestion ≠ "" then plan.clarifyingQuestion else plan.assistantMessage

/-- The text and the components of the answer to a plan, and the search result. -/
def answerPlan (text : String) (plan : SearchPlan) (profile : Document) :
    Program (Except Err (String × List UIComponent × Option Document)) := do
  if plan.needsClarification then
    return .ok (clarification plan,
      [⟨"clarification", [("question", .str (clarification plan))]⟩], none)
  else
    match ← Prog.call (Cmd.search text plan profile) with
    | .error e => return .error (.wrapped "search catalog" e)
    | .ok result =>
      let value := fun key => (result.lookup key).getD .null
      return .ok (plan.assistantMessage,
        [⟨"filter_summary", planSummary plan⟩,
          ⟨"product_grid", [("items", value "items"), ("total", value "total"),
            ("queryParams", value "queryParams")]⟩], some result)

/-- `Reply` from the plan on. -/
def finishReply (platform : Platform) (session : AISession) (agent : WebAgent) (text : String)
    (plan : SearchPlan) (profile : Document) : Program (Except Err WebReply) := do
  match ← answerPlan text plan profile with
  | .error e => return .error e
  | .ok (messageText, components, searchResult) =>
    let now ← Prog.call Cmd.now
    let user : ChatMessage := ⟨.user, text, [], now⟩
    let assistant : ChatMessage :=
      ⟨.assistant, messageText, components ++ profileProposal agent plan, now⟩
    match ← Prog.call (Cmd.saveSession
        (session.extended agent user assistant profile platform.sessionTTL now)) with
    | .error e => return .error e
    | .ok () => return .ok ⟨session.id, assistant, plan, searchResult⟩

/-- The profile the shop has of the shopper, or the one the session remembers. -/
def AISession.profile (session : AISession) : Except Err Document → Document
  | .ok (f :: fs) => f :: fs
  | _ => session.profileContext

def reply (platform : Platform) (request : ReplyRequest) : Program (Except Err WebReply) :=
  let text := trimSpace request.text
  if text = "" ∨ 600 < text.length then
    pure (.error (.message "message must contain 1 to 600 characters"))
  else do
    match ← Prog.call (Cmd.getSession request.sessionID) with
    | .error e => return .error e
    | .ok session =>
      if session.accessTokenHash ≠ platform.tokenHash request.token then
        return .error (.message "invalid session token")
      else
        match ← Prog.call (Cmd.getAgent session.agentID) with
        | .error e => return .error e
        | .ok agent =>
          match ← Prog.call Cmd.filters with
          | .error e => return .error (.wrapped "load filter contract" e)
          | .ok filters =>
            let profile := session.profile (← Prog.call (Cmd.profile request.authorization))
            match ← Prog.call (Cmd.plan agent session.messages text filters profile) with
            | .error e => return .error e
            | .ok plan =>
              finishReply platform session agent text (sanitizePlan platform plan filters) profile

/-! ## The protocol -/

/-- How far a reply has come, with the copies it works on. -/
inductive Phase where
  | start
  | loaded (session : AISession)
  | replying (session : AISession) (agent : WebAgent)
  | saved (session : AISession) (acknowledged : Bool)

/-- `x` is the session with one more turn of the given messages. -/
def AISession.Extends (x session : AISession) (agent : WebAgent) (user assistant : ChatMessage) :
    Prop :=
  user.role = .user ∧ assistant.role = .assistant ∧
    ∃ profile ttl now, x = session.extended agent user assistant profile ttl now

/-- The commands of a reply to `request`, phase by phase. -/
def permits (request : ReplyRequest) : Phase → Cmd → Prop
  | _, .now | _, .filters | _, .profile _ | _, .plan _ _ _ _ _ | _, .search _ _ _ => True
  | .start, .getSession id => id = request.sessionID
  | .loaded session, .getAgent id => id = session.agentID
  | .replying session agent, .saveSession x =>
    ∃ user assistant, x.Extends session agent user assistant
  | _, _ => False

def next : Phase → (cmd : Cmd) → Resp cmd → Phase
  | .start, .getSession _, .ok session => .loaded session
  | .loaded session, .getAgent _, .ok agent => .replying session agent
  | .replying _ _, .saveSession x, .ok _ => .saved x true
  | .replying _ _, .saveSession x, .error _ => .saved x false
  | l, _, _ => l

def protocol (request : ReplyRequest) : Protocol Cmd Resp Phase := ⟨permits request, next⟩

/-- A reply without an error has saved the turn it answers with. -/
def returns (request : ReplyRequest) : Phase → Except Err WebReply → Prop
  | .saved x true, .ok r => ∃ session agent user,
      AISession.Extends x session agent user r.message ∧ user.text = trimSpace request.text
  | _, .ok _ => False
  | _, .error _ => True

theorem returns_error {request : ReplyRequest} {l : Phase} {e : Err} :
    returns request l (.error e) := by
  unfold returns
  split <;> trivial

theorem answerPlan_conforms {request : ReplyRequest} {l : Phase} {text : String} {plan : SearchPlan}
    {profile : Document} :
    Prog.Conforms (protocol request) (fun l' _ => l' = l) l (answerPlan text plan profile) := by
  unfold answerPlan
  split
  · exact .pure rfl
  · refine .call (by cases l <;> trivial) fun r => ?_
    have hnext : (protocol request).next l (.search text plan profile) r = l := by
      cases l <;> rfl
    rw [hnext]
    cases r with
    | error e => exact .pure rfl
    | ok result => exact .pure rfl

theorem finishReply_conforms {platform : Platform} {request : ReplyRequest} {session : AISession}
    {agent : WebAgent} {plan : SearchPlan} {profile : Document} :
    Prog.Conforms (protocol request) (returns request) (.replying session agent)
      (finishReply platform session agent (trimSpace request.text) plan profile) := by
  refine Prog.Conforms.bind answerPlan_conforms fun l r hl => ?_
  subst hl
  cases r with
  | error e => exact .pure returns_error
  | ok answer =>
    refine .call trivial fun now => .call ⟨_, _, rfl, rfl, _, _, _, rfl⟩ fun r => ?_
    cases r with
    | error e => exact .pure returns_error
    | ok u => exact .pure ⟨session, agent, _, ⟨rfl, rfl, _, _, _, rfl⟩, rfl⟩

theorem reply_conforms (platform : Platform) (request : ReplyRequest) :
    Prog.Conforms (protocol request) (returns request) .start (reply platform request) := by
  unfold reply
  dsimp only
  split
  · exact .pure returns_error
  refine .call rfl fun r => ?_
  cases r with
  | error e => exact .pure returns_error
  | ok session =>
    dsimp only
    split
    · exact .pure returns_error
    refine .call rfl fun r => ?_
    cases r with
    | error e => exact .pure returns_error
    | ok agent =>
      refine .call trivial fun r => ?_
      cases r with
      | error e => exact .pure returns_error
      | ok filters =>
        refine .call trivial fun remote => .call trivial fun r => ?_
        cases r with
        | error e => exact .pure returns_error
        | ok plan => exact finishReply_conforms

/-! ## Replies side by side -/

/-- Any number of replies over one store, the clock moving on its own. -/
def replies (platform : Platform) :
    System ReplyRequest Cmd Resp (Except Err WebReply) World Oracle Env where
  prog := reply platform
  exec := Cmd.exec
  env := Env.apply

end Chat

end Stylme
