-- SUMMARY: The shared state of the control plane, the commands its functions issue, and what each command does.
import Stylme.Lib.Collection
import Stylme.Domain.Models

/-!
# Store, telephony and randomness

The collections of `internal/store/store.go` and everything else a service
function reaches outside its own memory: the clock, the random generator, the
telephony gateway of `internal/livekit/gateway.go` and the model that writes
dispositions. Each is a command, and `Cmd.exec` is the effect of one command on
the `World`. What the world does not determine comes from an `Oracle`.
-/

namespace Stylme

open Conc

/-! ## Errors -/

/-- A Go `error` as the service tells them apart. -/
inductive Err where
  | notFound
  | duplicateKey
  | unavailable (message : String)
  | message (text : String)
  | wrapped (text : String) (cause : Err)

namespace Err

/-- `err.Error()`; the texts of driver errors are the driver's own. -/
def text : Err → String
  | notFound => "not found"
  | duplicateKey => "E11000 duplicate key error"
  | unavailable m => m
  | message t => t
  | wrapped t e => t ++ ": " ++ e.text

/-- `errors.Is(err, store.ErrNotFound)` -/
def isNotFound : Err → Bool
  | notFound => true
  | wrapped _ e => e.isNotFound
  | _ => false

end Err

/-! ## Commands and their answers -/

inductive Cmd where
  | now
  | randomID (kind : String)
  | getAgent (id : String)
  | saveAgent (agent : Agent)
  | clearAgentDefaults (id : String) (channels : List String) (direction : String)
  | seedAgent (agent : Agent)
  | seedSwarm (swarm : AgentSwarm)
  | seedCampaign (campaign : Campaign)
  | getSwarm (id : String)
  | getDefaultSwarm (channel direction : String)
  | getOutboundSwarmForAgent (agentID : String)
  | saveSwarm (swarm : AgentSwarm)
  | clearSwarmDefaults (id : String) (channels directions : List String)
  | getCampaign (id : String)
  | saveCampaign (campaign : Campaign)
  | incrementCampaignCount (campaignID key : String) (delta : Int)
  | insertCalls (calls : List Call)
  | saveCall (call : Call)
  | getCall (id : String)
  | getCallByIdempotencyKey (key : String)
  | getCallByRoom (room : String)
  | claimPendingCall (now : Time) (lease : Duration)
  | countActiveCampaignCalls (campaignID excludeCallID : String)
  | dispatchOutbound (call : Call) (swarm : AgentSwarm)
  | disposition (agent : Agent) (transcript : List TranscriptTurn)

/-- The answer to each command. -/
@[reducible] def Resp : Cmd → Type
  | .now => Time
  | .randomID _ => String
  | .getAgent _ => Except Err Agent
  | .saveAgent _ | .clearAgentDefaults _ _ _ => Except Err Unit
  | .seedAgent _ | .seedSwarm _ | .seedCampaign _ => Except Err Unit
  | .getSwarm _ | .getDefaultSwarm _ _ | .getOutboundSwarmForAgent _ => Except Err AgentSwarm
  | .saveSwarm _ | .clearSwarmDefaults _ _ _ => Except Err Unit
  | .getCampaign _ => Except Err Campaign
  | .saveCampaign _ | .incrementCampaignCount _ _ _ => Except Err Unit
  | .insertCalls _ => Except Err ℕ
  | .saveCall _ => Except Err Unit
  | .getCall _ | .getCallByIdempotencyKey _ | .getCallByRoom _ | .claimPendingCall _ _ =>
    Except Err Call
  | .countActiveCampaignCalls _ _ => Except Err Int
  | .dispatchOutbound _ _ => Except Err String
  | .disposition _ _ => Except Err Disposition

/-! ## The world -/

/-- `livekit.New` picks one of two gateways when the service starts. -/
inductive Gateway where
  | disabled
  | sip

structure World where
  clock : Time
  gateway : Gateway
  agents : Collection Agent Agent.id Agent.key
  swarms : Collection AgentSwarm AgentSwarm.id AgentSwarm.key
  campaigns : Collection Campaign Campaign.id Campaign.id
  calls : Collection Call Call.id Call.idempotencyKey
  /-- Every identifier the random generator has handed out. -/
  issued : List String

/-- How a store request can go wrong: it never reaches the store, or it takes
effect and only the answer is lost. -/
inductive Fault where
  | none
  | lost (message : String)
  | unacked (message : String)

namespace Fault

def isNone : Fault → Bool
  | none => true
  | _ => false

/-- The request did not reach the store. -/
def isLost : Fault → Bool
  | lost _ => true
  | _ => false

/-- The request took effect without an answer. -/
def isUnacked : Fault → Bool
  | unacked _ => true
  | _ => false

end Fault

/-- What the world does not determine about the answer to one command. -/
structure Oracle where
  fault : Fault := .none
  /-- The hexadecimal digits `randomToken` returns. -/
  random : String := ""
  /-- Which of several equally ranked documents a query for one returns. -/
  pick : ℕ := 0
  /-- The error of `CreateDispatch`, if it fails. -/
  createDispatch : Option String := none
  /-- The error of `CreateSIPParticipant`, if it fails. -/
  createSIPParticipant : Option String := none
  /-- The reply of the model that writes dispositions. -/
  disposition : Except String Disposition := .error "no reply"

/-! ## Telephony -/

/-- `DispatchOutbound` of the configured gateway. -/
def Gateway.dispatchOutbound (g : Gateway) (call : Call) (swarm : AgentSwarm) (o : Oracle) :
    Except Err String :=
  match g with
  | .disabled => .error (.message "LiveKit is not configured")
  | .sip =>
    if swarm.telephony.outboundTrunkID = "" then .error (.message "swarm has no outbound trunk")
    else if call.fromNumber = "" ∨ call.toNumber = "" then
      .error (.message "call requires E.164 from and to numbers")
    else
      match o.createDispatch, o.createSIPParticipant with
      | some m, _ => .error (.wrapped "dispatch voice agent" (.message m))
      | none, some m => .error (.wrapped "create SIP participant" (.message m))
      | none, none => .ok ("stylme__" ++ swarm.id ++ "__" ++ call.id)

/-! ## Queries -/

/-- The first document of a sorted query; `le a b` holds when `a` may come
before `b`, and `pick` chooses among documents of equal rank. An unsorted query
ranks all documents equal. -/
def findOneSorted {α : Type} (le : α → α → Bool) (pick : ℕ) (l : List α) : Option α :=
  let best := l.filter fun a => l.all (le a)
  best[pick % best.length]?

theorem mem_of_findOneSorted {α : Type} {le : α → α → Bool} {pick : ℕ} {l : List α} {a : α}
    (h : findOneSorted le pick l = some a) : a ∈ l :=
  List.mem_of_mem_filter (List.mem_of_getElem? h)

theorem le_of_findOneSorted {α : Type} {le : α → α → Bool} {pick : ℕ} {l : List α} {a b : α}
    (h : findOneSorted le pick l = some a) (hb : b ∈ l) : le a b :=
  List.all_eq_true.1 (List.mem_filter.1 (List.mem_of_getElem? h)).2 b hb

/-- Some document of a list comes before all others. -/
theorem exists_first {α : Type} {le : α → α → Bool} (htotal : ∀ a b, le a b ∨ le b a)
    (htrans : ∀ a b c, le a b → le b c → le a c) {l : List α} (hl : l ≠ []) :
    ∃ a ∈ l, ∀ b ∈ l, le a b := by
  induction l with
  | nil => exact absurd rfl hl
  | cons a l ih =>
    by_cases hnil : l = []
    · subst hnil
      exact ⟨a, List.mem_cons_self, fun b hb => List.mem_singleton.1 hb ▸ or_self_iff.1 (htotal b b)⟩
    · obtain ⟨m, hm, hfirst⟩ := ih hnil
      rcases htotal a m with ham | hma
      · refine ⟨a, List.mem_cons_self, fun b hb => ?_⟩
        rcases List.mem_cons.1 hb with rfl | hb
        · exact or_self_iff.1 (htotal b b)
        · exact htrans a m b ham (hfirst b hb)
      · refine ⟨m, List.mem_cons_of_mem _ hm, fun b hb => ?_⟩
        rcases List.mem_cons.1 hb with rfl | hb
        · exact hma
        · exact hfirst b hb

/-- A sorted query for one finds a document unless there is none. -/
theorem eq_nil_of_findOneSorted {α : Type} {le : α → α → Bool} {pick : ℕ} {l : List α}
    (htotal : ∀ a b, le a b ∨ le b a) (htrans : ∀ a b c, le a b → le b c → le a c)
    (h : findOneSorted le pick l = none) : l = [] := by
  by_contra hl
  obtain ⟨a, ha, hfirst⟩ := exists_first htotal htrans hl
  have hbest : a ∈ l.filter fun a => l.all (le a) :=
    List.mem_filter.2 ⟨ha, List.all_eq_true.2 hfirst⟩
  simp only [findOneSorted, List.getElem?_eq_none_iff] at h
  exact absurd (Nat.mod_lt pick (List.length_pos_of_mem hbest)) (Nat.not_lt.2 h)

/-- The same for an unsorted query. -/
theorem eq_nil_of_findOne {α : Type} {pick : ℕ} {l : List α}
    (h : findOneSorted (fun _ _ => true) pick l = none) : l = [] :=
  eq_nil_of_findOneSorted (fun _ _ => .inl rfl) (fun _ _ _ _ _ => rfl) h

/-- The filter of `ClaimPendingCall`. -/
def Call.claimable (now : Time) (c : Call) : Bool :=
  c.status = .pending ∧ c.scheduledAt ≤ now ∧ c.leaseUntil.all (· ≤ now)

/-- The update of `ClaimPendingCall`. -/
def Call.claimed (now : Time) (lease : Duration) (c : Call) : Call :=
  { c with status := .dispatching, leaseUntil := some (now + lease), updatedAt := now,
           attempt := c.attempt + 1 }

/-- The filter of `CountActiveCampaignCalls`. -/
def Call.countsFor (campaignID excludeCallID : String) (c : Call) : Bool :=
  c.campaignID = campaignID ∧ c.status.inFlight ∧ (excludeCallID = "" ∨ c.id ≠ excludeCallID)

/-- The filter of `GetCallByRoom`. -/
def Call.inRoom (room : String) (c : Call) : Bool :=
  (c.liveKit.getD []).lookup "room_name" = some room

/-- The filter of `GetDefaultSwarm`. -/
def AgentSwarm.isDefaultFor (channel direction : String) (s : AgentSwarm) : Bool :=
  channel ∈ s.channels ∧ direction ∈ s.directions ∧ s.status = "active" ∧ s.isDefault

/-- The filter of `GetOutboundSwarmForAgent`. -/
def AgentSwarm.dialsFor (agentID : String) (s : AgentSwarm) : Bool :=
  "voice" ∈ s.channels ∧ "outbound" ∈ s.directions ∧ s.status = "active" ∧
    s.graph.nodes.any (·.agentID = agentID)

/-- The order of `GetOutboundSwarmForAgent`: defaults first, then by revision. -/
def AgentSwarm.outboundLe (a b : AgentSwarm) : Bool :=
  (a.isDefault ∧ ¬ b.isDefault) ∨ (a.isDefault = b.isDefault ∧ b.revision ≤ a.revision)

/-- The update of `ClearAgentDefaults`. -/
def Agent.clearDefault (id : String) (channels : List String) (direction : String) (now : Time)
    (a : Agent) : Agent :=
  if a.id ≠ id ∧ a.isDefault ∧ a.channels.any (· ∈ channels) ∧
    (direction ≠ "" → a.direction = direction)
  then { a with isDefault := false, updatedAt := now } else a

section ClearAgentDefault

variable {id direction : String} {channels : List String} {now : Time} {a : Agent}

@[simp] theorem Agent.clearDefault_id : (a.clearDefault id channels direction now).id = a.id := by
  unfold clearDefault; split <;> rfl

@[simp] theorem Agent.clearDefault_key : (a.clearDefault id channels direction now).key = a.key := by
  unfold clearDefault; split <;> rfl

end ClearAgentDefault

/-- The update of `ClearSwarmDefaults`. -/
def AgentSwarm.clearDefault (id : String) (channels directions : List String) (now : Time)
    (s : AgentSwarm) : AgentSwarm :=
  if s.id ≠ id ∧ s.isDefault ∧ s.channels.any (· ∈ channels) ∧ s.directions.any (· ∈ directions)
  then { s with isDefault := false, updatedAt := now } else s

@[simp] theorem AgentSwarm.clearDefault_id {id : String} {channels directions : List String}
    {now : Time} {s : AgentSwarm} : (s.clearDefault id channels directions now).id = s.id := by
  unfold clearDefault; split <;> rfl

@[simp] theorem AgentSwarm.clearDefault_key {id : String} {channels directions : List String}
    {now : Time} {s : AgentSwarm} : (s.clearDefault id channels directions now).key = s.key := by
  unfold clearDefault; split <;> rfl

@[simp] theorem AgentSwarm.clearDefault_graph {id : String} {channels directions : List String}
    {now : Time} {s : AgentSwarm} : (s.clearDefault id channels directions now).graph = s.graph := by
  unfold clearDefault; split <;> rfl

/-- The update of `IncrementCampaignCount` on a campaign with these counts. -/
def Campaign.incremented (campaign : Campaign) (counts : List (String × Int)) (key : String)
    (delta : Int) (now : Time) : Campaign :=
  { campaign with
    counts := some (setKey key ((counts.lookup key).getD 0 + delta) counts)
    updatedAt := now }

/-! ## The effect of a command -/

/-- Answer a store read. -/
def answer {α : Type} (o : Oracle) (r : Except Err α) (w : World) :
    Option (Except Err α × World) :=
  match o.fault with
  | .none => some (r, w)
  | .lost m | .unacked m => some (.error (.unavailable m), w)

/-- Answer a store write that turns `w` into `w'`. -/
def commit {α : Type} (o : Oracle) (r : Except Err α) (w w' : World) :
    Option (Except Err α × World) :=
  match o.fault with
  | .none => some (r, w')
  | .lost m => some (.error (.unavailable m), w)
  | .unacked m => some (.error (.unavailable m), w')

/-- A document, or `ErrNotFound`. -/
def found {α : Type} : Option α → Except Err α
  | some a => .ok a
  | none => .error .notFound

/-- The answer to a command and the world after it. Only `randomID` can refuse
an oracle: the generator repeats neither itself nor an identifier that is stored. -/
def Cmd.exec : (c : Cmd) → Oracle → World → Option (Resp c × World)
  | .now, _, w => some (w.clock, w)
  | .randomID kind, o, w =>
    let id := kind ++ "_" ++ o.random
    if id ∈ w.issued ∨ (∃ c ∈ w.calls.docs, c.id = id) ∨ (∃ s ∈ w.swarms.docs, s.id = id) ∨
      (∃ campaign ∈ w.campaigns.docs, campaign.id = id) ∨ (∃ a ∈ w.agents.docs, a.id = id) then none
    else some (id, { w with issued := id :: w.issued })
  | .getAgent id, o, w => answer o (found (w.agents.get id)) w
  | .saveAgent agent, o, w =>
    match w.agents.replaceOne agent with
    | some agents => commit o (.ok ()) w { w with agents }
    | none => answer o (.error .duplicateKey) w
  | .clearAgentDefaults id channels direction, o, w =>
    commit o (.ok ()) w { w with
      agents := w.agents.updateAll (·.clearDefault id channels direction w.clock)
        (fun _ => Agent.clearDefault_id) (fun _ => Agent.clearDefault_key) }
  -- the `$setOnInsert` upserts of `SeedDefaults` leave a stored document alone
  | .seedAgent agent, o, w =>
    if (w.agents.get agent.id).isSome then answer o (.ok ()) w
    else
      match w.agents.replaceOne agent with
      | some agents => commit o (.ok ()) w { w with agents }
      | none => answer o (.error .duplicateKey) w
  | .seedSwarm swarm, o, w =>
    if (w.swarms.get swarm.id).isSome then answer o (.ok ()) w
    else
      match w.swarms.replaceOne swarm with
      | some swarms => commit o (.ok ()) w { w with swarms }
      | none => answer o (.error .duplicateKey) w
  | .seedCampaign campaign, o, w =>
    if (w.campaigns.get campaign.id).isSome then answer o (.ok ()) w
    else
      match w.campaigns.replaceOne campaign with
      | some campaigns => commit o (.ok ()) w { w with campaigns }
      | none => answer o (.error .duplicateKey) w
  | .getSwarm id, o, w => answer o (found (w.swarms.get id)) w
  | .getDefaultSwarm channel direction, o, w =>
    answer o (found (findOneSorted (fun a b => b.revision ≤ a.revision) o.pick
      (w.swarms.docs.filter (·.isDefaultFor channel direction)))) w
  | .getOutboundSwarmForAgent agentID, o, w =>
    answer o (found (findOneSorted AgentSwarm.outboundLe o.pick
      (w.swarms.docs.filter (·.dialsFor agentID)))) w
  | .saveSwarm swarm, o, w =>
    match w.swarms.replaceOne swarm with
    | some swarms => commit o (.ok ()) w { w with swarms }
    | none => answer o (.error .duplicateKey) w
  | .clearSwarmDefaults id channels directions, o, w =>
    commit o (.ok ()) w { w with
      swarms := w.swarms.updateAll (·.clearDefault id channels directions w.clock)
        (fun _ => AgentSwarm.clearDefault_id) (fun _ => AgentSwarm.clearDefault_key) }
  | .getCampaign id, o, w => answer o (found (w.campaigns.get id)) w
  | .saveCampaign campaign, o, w =>
    match w.campaigns.replaceOne campaign with
    | some campaigns => commit o (.ok ()) w { w with campaigns }
    | none => answer o (.error .duplicateKey) w
  | .incrementCampaignCount campaignID key delta, o, w =>
    if campaignID = "" then some (.ok (), w)
    else
      match w.campaigns.get campaignID with
      | none => answer o (.ok ()) w
      | some campaign =>
        match campaign.counts with
        -- `$inc` cannot create a field below a null
        | none => answer o (.error (.unavailable "Cannot create field in element {counts: null}")) w
        | some counts =>
          match w.campaigns.replaceOne (campaign.incremented counts key delta w.clock) with
          | some campaigns => commit o (.ok ()) w { w with campaigns }
          | none => answer o (.error .duplicateKey) w
  | .insertCalls calls, o, w =>
    if calls = [] then some (.ok 0, w)
    else
      let r := Collection.insertMany calls w.calls
      commit o (.ok r.2) w { w with calls := r.1 }
  | .saveCall call, o, w =>
    match w.calls.replaceOne call with
    | some calls => commit o (.ok ()) w { w with calls }
    | none => answer o (.error .duplicateKey) w
  | .getCall id, o, w => answer o (found (w.calls.get id)) w
  | .getCallByIdempotencyKey key, o, w =>
    answer o (found (w.calls.find? (·.idempotencyKey = key))) w
  | .getCallByRoom room, o, w =>
    answer o (found (findOneSorted (fun _ _ => true) o.pick (w.calls.docs.filter (·.inRoom room)))) w
  | .claimPendingCall t lease, o, w =>
    match findOneSorted (fun a b => a.scheduledAt ≤ b.scheduledAt) o.pick
        (w.calls.docs.filter (·.claimable t)) with
    | none => answer o (.error .notFound) w
    | some c =>
      match w.calls.replaceOne (c.claimed t lease) with
      | some calls => commit o (.ok (c.claimed t lease)) w { w with calls }
      | none => answer o (.error .duplicateKey) w
  | .countActiveCampaignCalls campaignID excludeCallID, o, w =>
    answer o (.ok (w.calls.count (·.countsFor campaignID excludeCallID))) w
  | .dispatchOutbound call swarm, o, w => some (w.gateway.dispatchOutbound call swarm o, w)
  | .disposition _ _, o, w =>
    some (match o.disposition with
      | .ok d => .ok d
      | .error m => .error (.message m), w)

/-- The clock is read as it stands. -/
theorem exec_now {o : Oracle} {w w' : World} {t : Time} (h : Cmd.exec .now o w = some (t, w')) :
    w.clock = t ∧ w = w' := by
  simp only [Cmd.exec, Option.some.injEq, Prod.mk.injEq] at h
  exact h

end Stylme
