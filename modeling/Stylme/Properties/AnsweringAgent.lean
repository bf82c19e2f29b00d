-- SUMMARY: A direct call reports the agent that answers it only where the request names that agent.
import Stylme.Service.System

/-!
# The agent of a direct call

`TriggerCall` answers with the agent that the request names, or with the agent of the entry node of
the swarm of today. The call starts at the entry node whatever agent was named, and the call that
an idempotency key finds runs the graph of its own time from the node that it has come to.
-/

namespace Stylme

open Conc

section AnsweringAgent

variable (platform : Platform DirectCallRequest) (request : DirectCallRequest) (os : List Oracle)
  {w w' : World} {result : DirectCallResult}

/-- The agent of the node that a call stands at, in its own graph. -/
def Call.currentAgent (call : Call) : Except String String :=
  call.graphSnapshot.graphAgentID call.currentNodeKey

/-- The agent of the node that calls of a swarm start at. -/
def AgentSwarm.entryAgent (swarm : AgentSwarm) : Except String String :=
  swarm.graph.graphAgentID swarm.graph.entryNodeKey

/-- The answer names the swarm of the call and the agent that has it. -/
def ReportsAnswering (result : DirectCallResult) (w : World) : Prop :=
  ∃ call, w.calls.get result.callID = some call ∧ call.currentAgent = .ok result.agentID ∧
    call.swarmID = result.swarmID

/-- The swarm that the store answers with. -/
def resolvedSwarm (w : World) : Option AgentSwarm :=
  match (resolveOutboundSwarm request).run Cmd.exec os w with
  | some (.ok swarm, _) => some swarm
  | _ => none

/-- The key that the request has, or the one that is drawn for it. -/
def resolvedKey (w : World) : Option String :=
  ((resolveKey request).run Cmd.exec os w).map (·.1)

/-- The call that has a key. -/
def World.callWithKey (w : World) (key : String) : Option Call :=
  w.calls.find? (·.idempotencyKey = "direct:" ++ key)

/-- The agent of the call that has a key, or of the entry of the swarm if there is no such call. -/
def World.answeringAgent (w : World) (swarm : AgentSwarm) (key : String) : Except String String :=
  match w.callWithKey key with
  | some call => call.currentAgent
  | none => swarm.entryAgent

/-- The agent that a request names, or that of the entry of the swarm if it names none. -/
def AgentSwarm.namedAgent (swarm : AgentSwarm) (requested : String) : Except String String :=
  if requested = "" then swarm.entryAgent else .ok requested

/-- The agent that a trimmed request names is the one that the store has for it. -/
def NamesAnswering (w : World) : Prop :=
  ∀ swarm key, resolvedSwarm request os w = some swarm → resolvedKey request (os.drop 2) w = some key →
    w.answeringAgent swarm key = swarm.namedAgent request.agentID

variable {platform request os}

/-! ## The call of an answer -/

/-- A call that is saved is stored. -/
theorem get_of_saveCall {call : Call} {o : Oracle}
    (h : Cmd.exec (.saveCall call) o w = some (.ok (), w')) : w'.calls.get call.id = some call := by
  rcases exec_saveCall h with ⟨-, e, hr⟩ | ⟨calls, hcalls, rfl⟩
  · cases hr
  · exact Collection.get_replaceOne_self hcalls

/-- A call that is dispatched is stored with its graph and its node. -/
theorem dispatchCall_wp_stored {call : Call} {swarm : AgentSwarm} :
    Prog.wp Cmd.exec (fun r w' => r = none → ∃ room now,
      w'.calls.get call.id = some (call.ringing room now)) (dispatchCall call swarm) w := by
  refine Prog.wp_call_bind.2 fun o r w₁ _ => ?_
  cases r with
  | error cause =>
    refine Prog.wp_call_bind.2 fun o now w₂ _ => ?_
    refine Prog.wp_call_bind.2 fun o r w₃ _ => ?_
    exact fun h => by cases h
  | ok room =>
    refine Prog.wp_call_bind.2 fun o now w₂ _ => ?_
    refine Prog.wp_call_bind.2 fun o r w₃ hsave => ?_
    cases r with
    | error e => exact fun h => by cases h
    | ok u =>
      refine Prog.wp_call_bind.2 fun o r w₄ hcount => ?_
      refine fun _ => ⟨room, now, ?_⟩
      rw [exec_calls rfl hcount]
      exact get_of_saveCall hsave

/-- A call that was created stands at the entry of the graph of its swarm. -/
theorem createDirectCall_wp {swarm : AgentSwarm} {agentID key fromNumber : String}
    (hnew : w.callWithKey key = none) :
    Prog.wp Cmd.exec (fun r w' => r.2 = none → r.1.agentID = agentID ∧
        ∃ call, w'.calls.get r.1.callID = some call ∧ call.currentAgent = swarm.entryAgent ∧
          call.swarmID = r.1.swarmID)
      (createDirectCall request swarm agentID ("direct:" ++ key) fromNumber) w := by
  refine Prog.wp_call_bind.2 fun o now w₁ hnow => ?_
  obtain ⟨-, rfl⟩ := exec_now hnow
  refine Prog.wp_call_bind.2 fun o id w₂ hid => ?_
  have hcalls : w₂.calls = w.calls := exec_calls rfl hid
  refine Prog.wp_call_bind.2 fun o r w₃ hsave => ?_
  cases r with
  | error e =>
    cases e with
    | duplicateKey =>
      -- no other call has the key
      obtain ⟨c, hc, -, hkey⟩ := exec_saveCall_duplicateKey hsave
      exact (Collection.find?_none hnew (hcalls ▸ hc) (decide_eq_true hkey)).elim
    | _ => exact fun h => by cases h
  | ok u =>
    refine Prog.wp_bind.2 (Prog.wp_mono (fun r w₄ hstored => ?_) dispatchCall_wp_stored)
    cases r with
    | some e => exact fun h => by cases h
    | none =>
      obtain ⟨room, now', hget⟩ := hstored rfl
      exact fun _ => ⟨rfl, _, hget, rfl, rfl⟩

/-- The answer for a call that was created before. -/
theorem reportsAnswering_existing {call : Call} {agentID : String} (hcall : call ∈ w.calls) :
    ReportsAnswering (.existing call agentID) w ↔ call.currentAgent = .ok agentID := by
  have hget : w.calls.get call.id = some call := Collection.get_eq_some_iff.2 ⟨hcall, rfl⟩
  constructor
  · rintro ⟨c, hc, hagent, -⟩
    obtain rfl := Option.some.inj (hget.symm.trans hc)
    exact hagent
  · exact fun hagent => ⟨call, hget, hagent, rfl⟩

/-- The agent that is answered is the one that the request names. -/
theorem namedAgent_of_directCallAgentID {swarm : AgentSwarm} {requested agentID : String}
    (h : directCallAgentID swarm requested = .ok agentID) : swarm.namedAgent requested = .ok agentID := by
  unfold AgentSwarm.namedAgent
  unfold directCallAgentID at h
  split at h
  · rename_i hnone
    rwa [if_pos hnone]
  · rename_i hnamed
    rw [if_neg hnamed]
    split at h
    · exact h
    · cases h

/-- The swarm is resolved with one command, which writes nothing. -/
theorem resolveOutboundSwarm_run {α : Type} {f : Except Err AgentSwarm → Service α} {x : α × World}
    (h : (resolveOutboundSwarm request >>= f).run Cmd.exec os w = some x) :
    ∃ r, (resolveOutboundSwarm request).run Cmd.exec os w = some (r, w) ∧
      (f r).run Cmd.exec (os.drop 1) w = some x := by
  have hrun : ∀ {cmd : Cmd} {g : Resp cmd → Service α}, (∀ o r w', cmd.exec o w = some (r, w') → w' = w) →
      (Prog.call cmd >>= g).run Cmd.exec os w = some x →
        ∃ r, (Prog.call cmd).run Cmd.exec os w = some (r, w) ∧ (g r).run Cmd.exec (os.drop 1) w = some x := by
    intro cmd g hread h
    obtain ⟨o, os', r, w₁, rfl, hexec, hg⟩ := Prog.run_call_bind h
    obtain rfl := hread o r w₁ hexec
    exact ⟨r, by rw [Prog.call, Prog.run, hexec]; rfl, hg⟩
  unfold resolveOutboundSwarm at h ⊢
  split
  · rename_i hswarm
    rw [if_pos hswarm] at h
    exact hrun (fun o r w' hexec => by exact (answer_some hexec).1) h
  · rename_i hswarm
    rw [if_neg hswarm] at h
    split
    · rename_i hagent
      rw [if_pos hagent] at h
      exact hrun (fun o r w' hexec => by exact (answer_some hexec).1) h
    · rename_i hagent
      rw [if_neg hagent] at h
      exact hrun (fun o r w' hexec => by exact (answer_some hexec).1) h

/-- Drawing a key writes no call. -/
theorem resolveKey_wp_calls :
    Prog.wp Cmd.exec (fun _ w' => w'.calls = w.calls) (resolveKey request) w := by
  unfold resolveKey
  split
  · exact rfl
  · exact fun o r w' hexec => exec_calls rfl hexec

/-- The call that answers a request is the one with its key, or a new one. -/
theorem findOrCreateDirectCall_run {swarm : AgentSwarm} {agentID fromNumber : String}
    (hrun : (findOrCreateDirectCall request swarm agentID fromNumber).run Cmd.exec os w =
      some ((result, none), w')) :
    ∃ key, resolvedKey request os w = some key ∧
      (ReportsAnswering result w' ↔ w.answeringAgent swarm key = .ok agentID) := by
  obtain ⟨key, w₁, os', hkey, hrun⟩ := Prog.run_bind hrun
  have hwp : Prog.wp Cmd.exec (fun _ w' => w'.calls = w.calls) (resolveKey request) w := resolveKey_wp_calls
  have hcalls := Prog.wp_sound hwp hkey
  have hsame : w.callWithKey key = w₁.callWithKey key := by rw [World.callWithKey, World.callWithKey, hcalls]
  refine ⟨key, by rw [resolvedKey, hkey]; rfl, ?_⟩
  obtain ⟨o, os'', r, w₂, -, hexec, hrun⟩ := Prog.run_call_bind hrun
  obtain ⟨rfl, hr⟩ := answer_found hexec
  rw [World.answeringAgent, hsame]
  rcases hr with ⟨call, hcall, rfl⟩ | ⟨hnone, rfl⟩ | ⟨m, rfl⟩
  · obtain ⟨hresult, rfl⟩ := Prod.mk.inj (Option.some.inj hrun)
    obtain rfl := (Prod.mk.inj hresult).1
    rw [World.callWithKey, hcall]
    exact reportsAnswering_existing (Collection.find?_some hcall).1
  · obtain ⟨hagent, call, hget, hcurrent, hswarm⟩ := Prog.wp_sound (createDirectCall_wp hnone) hrun rfl
    rw [World.callWithKey, hnone]
    dsimp only
    rw [← hcurrent, ← hagent]
    constructor
    · rintro ⟨c, hc, hreported, -⟩
      obtain rfl := Option.some.inj (hget.symm.trans hc)
      exact hreported
    · exact fun hreported => ⟨call, hget, hreported, hswarm⟩
  · cases hrun

/-- A direct call that is answered reports the agent that answers it if and only if that is the agent
that the request names. -/
theorem reportsAnswering_iff (platform : Platform DirectCallRequest) (request : DirectCallRequest)
    (os : List Oracle) (w w' : World) (result : DirectCallResult)
    (hrun : (triggerCall platform request).run Cmd.exec os w = some ((result, none), w')) :
    ReportsAnswering result w' ↔ NamesAnswering request.trimmed os w := by
  unfold triggerCall at hrun
  split at hrun
  · cases hrun
  split at hrun
  · cases hrun
  unfold triggerTrimmed at hrun
  split at hrun
  · cases hrun
  obtain ⟨r, hresolved, hrun⟩ := resolveOutboundSwarm_run hrun
  cases r with
  | error e => cases hrun
  | ok swarm =>
    dsimp only at hrun
    split at hrun
    · cases hrun
    split at hrun
    · cases hrun
    rename_i agentID hagentID
    obtain ⟨o, os', r, w₁, hos, hexec, hrun⟩ := Prog.run_call_bind hrun
    obtain ⟨hread, -⟩ := answer_some hexec
    cases r with
    | error e => cases hrun
    | ok agent =>
      dsimp only at hrun
      split at hrun
      · cases hrun
      rw [hread] at hrun
      have hdrop : os' = os.drop 2 := by
        rw [show os.drop 2 = (os.drop 1).drop 1 by rw [List.drop_drop], hos]
        rfl
      obtain ⟨key, hkey, hreports⟩ := findOrCreateDirectCall_run hrun
      have hnamed := namedAgent_of_directCallAgentID hagentID
      have hswarm : resolvedSwarm request.trimmed os w = some swarm := by rw [resolvedSwarm, hresolved]
      rw [hdrop] at hkey
      rw [hreports, ← hnamed]
      constructor
      · intro hanswering swarm' key' hswarm' hkey'
        obtain rfl := Option.some.inj (hswarm.symm.trans hswarm')
        obtain rfl := Option.some.inj (hkey.symm.trans hkey')
        exact hanswering
      · exact fun hnames => hnames swarm key hswarm hkey

end AnsweringAgent

/-! ## A call of the sample -/

namespace Sample

/-- The direct call of the request, with nothing going wrong. -/
def answered : Option ((DirectCallResult × Option Err) × World) :=
  (triggerCall platform request).run Cmd.exec (List.replicate 10 { random := "a" }) world

end Sample

theorem reportsAnswering_sample :
    ∃ result w, Sample.answered = some ((result, none), w) ∧
      (ReportsAnswering result w ↔
        NamesAnswering Sample.request.trimmed (List.replicate 10 { random := "a" }) Sample.world) := by
  have hok : (Sample.answered.map (·.1.2.isNone)) = some true := by decide +kernel
  obtain ⟨⟨⟨result, e⟩, w⟩, hanswered, he⟩ := Option.map_eq_some_iff.1 hok
  obtain rfl : e = none := Option.isNone_iff_eq_none.1 he
  exact ⟨result, w, hanswered, reportsAnswering_iff Sample.platform Sample.request _ _ w result hanswered⟩

end Stylme
