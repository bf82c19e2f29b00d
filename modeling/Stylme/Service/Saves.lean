-- SUMMARY: The saves of an admin as operations: what they check, what they write for which store, and how their two writes can end.
import Mathlib.Algebra.Order.BigOperators.Group.List
import Mathlib.Algebra.Order.Group.Nat
import Stylme.Lib.Marking
import Stylme.Service.Agents
import Stylme.Store.Effects

/-!
# Saves

`SaveAgent` and `SaveSwarm` read the store while they check a request, and then
issue up to two writes: the default flags of other documents are cleared, and
the document is replaced. The rules of this module take the two programs apart
at that point, for a store that may lose requests or answers.
-/

namespace Stylme

open Conc

/-- A request of an admin to save an agent or a swarm. -/
inductive Save where
  | agent (value : Agent) (actor : String)
  | swarm (value : AgentSwarm) (actor : String)

def Save.prog (lower : Char → Char) : Save → Service (Except Err (Agent ⊕ AgentSwarm))
  | .agent value actor => do return (← saveAgent lower value actor).map .inl
  | .swarm value actor => do return (← saveSwarm value actor).map .inr

/-! ## Default flags -/

/-- The channels and the direction an agent is the default for. -/
def Agent.marking : Marking Agent (String × String) where
  marked agent := agent.isDefault
  scopes agent := agent.channels.map (·, agent.direction)

/-- The channels and the directions a swarm is the default for. -/
def AgentSwarm.marking : Marking AgentSwarm (String × String) where
  marked swarm := swarm.isDefault
  scopes swarm := swarm.channels.flatMap fun channel => swarm.directions.map (channel, ·)

theorem Agent.overlaps_iff {a b : Agent} :
    Agent.marking.overlaps a b ↔ (∃ c ∈ a.channels, c ∈ b.channels) ∧ a.direction = b.direction := by
  simp only [Marking.overlaps_iff, marking, List.mem_map]
  constructor
  · rintro ⟨p, ⟨c, hc, rfl⟩, c', hc', heq⟩
    obtain ⟨rfl, hdirection⟩ := Prod.mk.inj heq
    exact ⟨⟨c', hc, hc'⟩, hdirection.symm⟩
  · rintro ⟨⟨c, hc, hc'⟩, hdirection⟩
    exact ⟨_, ⟨c, hc, rfl⟩, c, hc', by rw [hdirection]⟩

theorem AgentSwarm.overlaps_iff {a b : AgentSwarm} : AgentSwarm.marking.overlaps a b ↔
    (∃ c ∈ a.channels, c ∈ b.channels) ∧ ∃ d ∈ a.directions, d ∈ b.directions := by
  simp only [Marking.overlaps_iff, marking, List.mem_flatMap, List.mem_map]
  constructor
  · rintro ⟨p, ⟨c, hc, d, hd, rfl⟩, c', hc', d', hd', heq⟩
    obtain ⟨rfl, rfl⟩ := Prod.mk.inj heq
    exact ⟨⟨c', hc, hc'⟩, d', hd, hd'⟩
  · rintro ⟨⟨c, hc, hc'⟩, d, hd, hd'⟩
    exact ⟨_, ⟨c, hc, d, hd, rfl⟩, c, hc', d, hd', rfl⟩

/-- The filter of `ClearAgentDefaults` finds all rivals of an agent with a direction. -/
theorem Agent.clearDefault_eq {x a : Agent} {now : Time} (hdirection : x.direction ≠ "") :
    a.clearDefault x.id x.channels x.direction now =
      Agent.marking.clear Agent.id (fun a => { a with isDefault := false, updatedAt := now }) x a := by
  unfold clearDefault Marking.clear
  refine if_congr ?_ rfl rfl
  rw [Marking.Rival, overlaps_iff]
  simp [hdirection, marking]

theorem AgentSwarm.clearDefault_eq {x a : AgentSwarm} {now : Time} :
    a.clearDefault x.id x.channels x.directions now = AgentSwarm.marking.clear AgentSwarm.id
      (fun a => { a with isDefault := false, updatedAt := now }) x a := by
  unfold clearDefault Marking.clear
  refine if_congr ?_ rfl rfl
  rw [Marking.Rival, overlaps_iff]
  simp [marking]

/-! ## A store that loses requests or answers -/

/-- What may go wrong between the service and the store. -/
structure Faults where
  lost : Bool
  unacked : Bool

def Faults.allows (F : Faults) : Fault → Bool
  | .none => true
  | .lost _ => F.lost
  | .unacked _ => F.unacked

/-- The handler with these faults only. -/
def Cmd.execUnder (F : Faults) (c : Cmd) (o : Oracle) (w : World) : Option (Resp c × World) :=
  if F.allows o.fault then c.exec o w else none

variable {F : Faults} {w w' w₁ : World}

theorem exec_of_execUnder {c : Cmd} {o : Oracle} {x : Resp c × World}
    (h : c.execUnder F o w = some x) : c.exec o w = some x := by
  unfold Cmd.execUnder at h
  split at h
  · exact h
  · cases h

/-- With all faults the handler is the one of the store. -/
theorem execUnder_all : Cmd.execUnder ⟨true, true⟩ = Cmd.exec := by
  funext c o w
  unfold Cmd.execUnder
  refine if_pos ?_
  cases o.fault <;> rfl

/-- How a write ends; `none` stands for one that a unique index refuses. -/
inductive Wrote (F : Faults) (w : World) : Option World → Except Err Unit → World → Prop where
  | done {v : World} : Wrote F w (some v) (.ok ()) v
  | refused : Wrote F w none (.error .duplicateKey) w
  | lost {eff : Option World} {m : String} (h : F.lost) : Wrote F w eff (.error (.unavailable m)) w
  | unacked {eff : Option World} {m : String} (h : F.unacked) : Wrote F w eff (.error (.unavailable m)) (eff.getD w)

theorem ends_call_iff {c : Cmd} {r : Resp c} :
    (Prog.call c : Service (Resp c)).Ends (Cmd.execUnder F) w r w' ↔
      ∃ o, F.allows o.fault ∧ c.exec o w = some (r, w') := by
  show Prog.Ends _ (.op c .ret) w r w' ↔ _
  rw [Prog.ends_op]
  constructor
  · rintro ⟨o, r₁, w₂, hexec, hret⟩
    obtain ⟨rfl, rfl⟩ := Prog.ends_ret.1 hret
    unfold Cmd.execUnder at hexec
    split at hexec
    · exact ⟨o, ‹_›, hexec⟩
    · cases hexec
  · rintro ⟨o, ho, hexec⟩
    exact ⟨o, r, w', by rw [Cmd.execUnder, if_pos ho, hexec], Prog.ends_ret.2 ⟨rfl, rfl⟩⟩

/-- A write that the store accepts ends like any other request. -/
theorem commit_iff {r : Except Err Unit} :
    (∃ o : Oracle, F.allows o.fault ∧ commit o (.ok ()) w w₁ = some (r, w')) ↔
      Wrote F w (some w₁) r w' := by
  constructor
  · rintro ⟨o, ho, h⟩
    unfold commit at h
    split at h <;> rename_i hfault <;> rw [hfault] at ho <;>
      obtain ⟨rfl, rfl⟩ := Prod.mk.inj (Option.some.inj h)
    · exact .done
    · exact .lost ho
    · exact .unacked ho
  · intro h
    cases h with
    | done => exact ⟨{}, rfl, rfl⟩
    | lost hlost => exact ⟨{ fault := .lost _ }, hlost, rfl⟩
    | unacked hunacked => exact ⟨{ fault := .unacked _ }, hunacked, rfl⟩

/-- So does one that it refuses. -/
theorem refuse_iff {r : Except Err Unit} :
    (∃ o : Oracle, F.allows o.fault ∧ answer o (.error .duplicateKey) w = some (r, w')) ↔
      Wrote F w none r w' := by
  constructor
  · rintro ⟨o, ho, h⟩
    unfold answer at h
    split at h <;> rename_i hfault <;> rw [hfault] at ho <;>
      obtain ⟨rfl, rfl⟩ := Prod.mk.inj (Option.some.inj h)
    · exact .refused
    · exact .lost ho
    · exact .unacked ho
  · intro h
    cases h with
    | refused => exact ⟨{}, rfl, rfl⟩
    | lost hlost => exact ⟨{ fault := .lost _ }, hlost, rfl⟩
    | unacked hunacked => exact ⟨{ fault := .unacked _ }, hunacked, rfl⟩

/-- The world with the agent stored, unless the index refuses it. -/
def World.putAgent (w : World) (x : Agent) : Option World :=
  (w.agents.replaceOne x).map fun agents => { w with agents }

def World.putSwarm (w : World) (x : AgentSwarm) : Option World :=
  (w.swarms.replaceOne x).map fun swarms => { w with swarms }

/-- The world without the default flags of other agents in the scope of `x`. -/
def World.clearAgents (w : World) (x : Agent) : World :=
  { w with
    agents := w.agents.updateAll (·.clearDefault x.id x.channels x.direction w.clock)
      (fun _ => Agent.clearDefault_id) (fun _ => Agent.clearDefault_key) }

def World.clearSwarms (w : World) (x : AgentSwarm) : World :=
  { w with
    swarms := w.swarms.updateAll (·.clearDefault x.id x.channels x.directions w.clock)
      (fun _ => AgentSwarm.clearDefault_id) (fun _ => AgentSwarm.clearDefault_key) }

namespace World

variable {w : World}

theorem putAgent_eq_none_iff {x : Agent} :
    w.putAgent x = none ↔ ∃ a ∈ w.agents, a.id ≠ x.id ∧ a.key = x.key :=
  Option.map_eq_none_iff.trans Collection.replaceOne_eq_none_iff

theorem putSwarm_eq_none_iff {x : AgentSwarm} :
    w.putSwarm x = none ↔ ∃ a ∈ w.swarms, a.id ≠ x.id ∧ a.key = x.key :=
  Option.map_eq_none_iff.trans Collection.replaceOne_eq_none_iff

theorem putAgent_clearAgents {x : Agent} : (w.clearAgents x).putAgent x = none ↔ w.putAgent x = none := by
  unfold putAgent clearAgents
  rw [Option.map_eq_none_iff, Option.map_eq_none_iff]
  exact Collection.replaceOne_updateAll_eq_none_iff (fun _ => Agent.clearDefault_id)
    fun _ => Agent.clearDefault_key

theorem putSwarm_clearSwarms {x : AgentSwarm} :
    (w.clearSwarms x).putSwarm x = none ↔ w.putSwarm x = none := by
  unfold putSwarm clearSwarms
  rw [Option.map_eq_none_iff, Option.map_eq_none_iff]
  exact Collection.replaceOne_updateAll_eq_none_iff (fun _ => AgentSwarm.clearDefault_id)
    fun _ => AgentSwarm.clearDefault_key

end World

theorem ends_saveAgent {x : Agent} {r : Except Err Unit} :
    (Store.saveAgent x).Ends (Cmd.execUnder F) w r w' ↔ Wrote F w (w.putAgent x) r w' := by
  unfold World.putAgent
  refine ends_call_iff.trans ?_
  cases hx : w.agents.replaceOne x with
  | none =>
    simp only [Cmd.exec, hx]
    exact refuse_iff
  | some agents =>
    simp only [Cmd.exec, hx]
    exact commit_iff

theorem ends_saveSwarm {x : AgentSwarm} {r : Except Err Unit} :
    (Store.saveSwarm x).Ends (Cmd.execUnder F) w r w' ↔ Wrote F w (w.putSwarm x) r w' := by
  unfold World.putSwarm
  refine ends_call_iff.trans ?_
  cases hx : w.swarms.replaceOne x with
  | none =>
    simp only [Cmd.exec, hx]
    exact refuse_iff
  | some swarms =>
    simp only [Cmd.exec, hx]
    exact commit_iff

theorem ends_clearAgentDefaults {x : Agent} {r : Except Err Unit} :
    (Store.clearAgentDefaults x.id x.channels x.direction).Ends (Cmd.execUnder F) w r w' ↔
      Wrote F w (some (w.clearAgents x)) r w' :=
  ends_call_iff.trans commit_iff

theorem ends_clearSwarmDefaults {x : AgentSwarm} {r : Except Err Unit} :
    (Store.clearSwarmDefaults x.id x.channels x.directions).Ends (Cmd.execUnder F) w r w' ↔
      Wrote F w (some (w.clearSwarms x)) r w' :=
  ends_call_iff.trans commit_iff

/-! ## Reads and checks -/

/-- The agents of the nodes of a swarm, if each is stored and compatible with the swarm. -/
def World.nodeAgents (w : World) (swarm : AgentSwarm) :
    List SwarmNode → Option (List (String × Agent))
  | [] => some []
  | node :: nodes =>
    match w.agents.get node.agentID with
    | none => none
    | some agent =>
      if ¬ sharesValue swarm.channels agent.channels ∨ agent.direction ∉ swarm.directions then none
      else (w.nodeAgents swarm nodes).map ((node.key, agent) :: ·)

theorem nodeAgents_wp {swarm : AgentSwarm} {nodes : List SwarmNode} :
    Prog.wp (Cmd.execUnder F)
      (fun r w' => w' = w ∧ ∀ agents, r = .ok agents → w.nodeAgents swarm nodes = some agents)
      (nodeAgents swarm nodes) w := by
  induction nodes with
  | nil => exact ⟨rfl, fun agents h => by obtain rfl := Except.ok.inj h; rfl⟩
  | cons node nodes ih =>
    refine Prog.wp_call_bind.2 fun o r w₁ hexec => ?_
    obtain ⟨rfl, hr⟩ := answer_found (exec_of_execUnder hexec)
    rcases hr with ⟨agent, hagent, rfl⟩ | ⟨-, rfl⟩ | ⟨m, rfl⟩
    · dsimp only
      split
      · exact ⟨rfl, fun _ h => by cases h⟩
      · rename_i hcompatible
        refine Prog.wp_bind.2 (Prog.wp_mono (fun r w' h => ?_) ih)
        obtain ⟨rfl, hagents⟩ := h
        cases r with
        | error e => exact ⟨rfl, fun _ h => by cases h⟩
        | ok agents =>
          refine ⟨rfl, fun agents' h => ?_⟩
          obtain rfl := Except.ok.inj h
          simp only [World.nodeAgents, hagent, if_neg hcompatible, hagents agents rfl, Option.map_some]
    · exact ⟨rfl, fun _ h => by cases h⟩
    · exact ⟨rfl, fun _ h => by cases h⟩

theorem nodeAgents_ends {swarm : AgentSwarm} {nodes : List SwarmNode} {agents : List (String × Agent)}
    (h : w.nodeAgents swarm nodes = some agents) :
    (nodeAgents swarm nodes).Ends (Cmd.execUnder F) w (.ok agents) w := by
  induction nodes generalizing agents with
  | nil =>
    obtain rfl := Option.some.inj h
    exact Prog.ends_pure.2 ⟨rfl, rfl⟩
  | cons node nodes ih =>
    simp only [World.nodeAgents] at h
    split at h
    · cases h
    rename_i agent hagent
    split at h
    · cases h
    rename_i hcompatible
    obtain ⟨rest, hrest, rfl⟩ := Option.map_eq_some_iff.1 h
    refine .call {} (show Cmd.execUnder F (.getAgent node.agentID) {} w = some (.ok agent, w) from ?_) ?_
    · show some (found (w.agents.get node.agentID), w) = _
      rw [hagent]
      rfl
    · dsimp only
      rw [if_neg hcompatible]
      exact Prog.ends_bind.2 ⟨_, w, ih hrest, Prog.ends_pure.2 ⟨rfl, rfl⟩⟩

/-- The checks of `SaveSwarm` pass in the store `w` and turn `value` into `value'`. -/
structure World.Accepts (w : World) (value value' : AgentSwarm) : Prop where
  named : ¬ (trimSpace value.key = "" ∨ trimSpace value.name = "")
  valid : value.graph.validateGraph = .ok ()
  prepared : ∃ agents, w.nodeAgents value value.graph.nodes = some agents ∧
    value.prepared agents = .ok value'

/-- The checks change no more than the status and the human destination. -/
theorem AgentSwarm.prepared_eq {value value' : AgentSwarm} {agents : List (String × Agent)}
    (h : value.prepared agents = .ok value') : ∃ status number, value' =
      { value with status, telephony := { value.telephony with humanHandoffNumber := number } } := by
  unfold AgentSwarm.prepared at h
  split at h
  · cases h
  split at h
  · cases h
  split at h
  · cases h
  split at h
  · cases h
  · rename_i number _
    exact ⟨_, number, (Except.ok.inj h).symm⟩

/-! ## What is written -/

/-- The agent that `SaveAgent` writes for the prepared `value` in the store `w`. -/
inductive Agent.Written (w : World) (value : Agent) (actor : String) : Agent → Prop where
  | created {id : String} {t : Time} (hid : value.id = "") (hnew : w.agents.get id = none) :
      Written w value actor ({ value with id := id }.stamped t actor 1 t actor)
  | updated {existing : Agent} {t : Time} (hid : value.id ≠ "")
      (hstored : w.agents.get value.id = some existing) :
      Written w value actor
        (value.stamped existing.createdAt existing.createdBy (existing.revision + 1) t actor)
  | unknown {t : Time} (hid : value.id ≠ "") (hnew : w.agents.get value.id = none) :
      Written w value actor (value.stamped t actor 1 t actor)

/-- The swarm that `SaveSwarm` writes for the prepared `value` in the store `w`. -/
inductive AgentSwarm.Written (w : World) (value : AgentSwarm) (actor : String) : AgentSwarm → Prop where
  | created {id : String} {t : Time} (hid : value.id = "") (hnew : w.swarms.get id = none) :
      Written w value actor ({ value with
        id := id
        telephony := { humanHandoffNumber := value.telephony.humanHandoffNumber }
        }.stamped t actor 1 t actor)
  | updated {existing : AgentSwarm} {t : Time} (hid : value.id ≠ "")
      (hstored : w.swarms.get value.id = some existing) :
      Written w value actor ({ value with
        telephony := preserveManagedTelephony value.telephony existing.telephony
        }.stamped existing.createdAt existing.createdBy (existing.revision + 1) t actor)
  | unknown {t : Time} (hid : value.id ≠ "") (hnew : w.swarms.get value.id = none) :
      Written w value actor (value.stamped t actor 1 t actor)

/-- The document that is written is another one than all that are stored. -/
theorem Agent.Written.not_mem {value x : Agent} {actor : String} (h : Written w value actor x) :
    x ∉ w.agents := by
  intro hx
  cases h with
  | created hid hnew => exact Collection.get_eq_none_iff.1 hnew _ hx rfl
  | unknown hid hnew => exact Collection.get_eq_none_iff.1 hnew _ hx rfl
  | @updated existing t hid hstored =>
    have hget := Collection.get_eq_some_iff.2 ⟨hx, rfl⟩
    have heq := Option.some.inj (hget.symm.trans hstored)
    have hrevision : existing.revision + 1 = existing.revision := congrArg Agent.revision heq
    omega

theorem AgentSwarm.Written.not_mem {value x : AgentSwarm} {actor : String}
    (h : Written w value actor x) : x ∉ w.swarms := by
  intro hx
  cases h with
  | created hid hnew => exact Collection.get_eq_none_iff.1 hnew _ hx rfl
  | unknown hid hnew => exact Collection.get_eq_none_iff.1 hnew _ hx rfl
  | @updated existing t hid hstored =>
    have hget := Collection.get_eq_some_iff.2 ⟨hx, rfl⟩
    have heq := Option.some.inj (hget.symm.trans hstored)
    have hrevision : existing.revision + 1 = existing.revision := congrArg AgentSwarm.revision heq
    omega

/-- Key, flag and scope are written as requested. -/
structure Agent.SameScope (x value : Agent) : Prop where
  key : x.key = value.key
  isDefault : x.isDefault = value.isDefault
  channels : x.channels = value.channels
  direction : x.direction = value.direction

structure AgentSwarm.SameScope (x value : AgentSwarm) : Prop where
  key : x.key = value.key
  isDefault : x.isDefault = value.isDefault
  channels : x.channels = value.channels
  directions : x.directions = value.directions

theorem Agent.Written.sameScope {value x : Agent} {actor : String} (h : Written w value actor x) :
    x.SameScope value := by
  cases h <;> exact ⟨rfl, rfl, rfl, rfl⟩

theorem AgentSwarm.Written.sameScope {value x : AgentSwarm} {actor : String}
    (h : Written w value actor x) : x.SameScope value := by
  cases h <;> exact ⟨rfl, rfl, rfl, rfl⟩

/-- Nothing that is stored is another document than the written one, unless it is one
than the requested. -/
theorem Agent.Written.id_ne_iff {value x a : Agent} {actor : String} (h : Written w value actor x)
    (ha : a ∈ w.agents) : a.id ≠ x.id ↔ value.id = "" ∨ a.id ≠ value.id := by
  cases h with
  | created hid hnew => exact iff_of_true (Collection.get_eq_none_iff.1 hnew a ha) (.inl hid)
  | updated hid | unknown hid => exact ⟨.inr, fun h => h.resolve_left hid⟩

theorem AgentSwarm.Written.id_ne_iff {value x a : AgentSwarm} {actor : String}
    (h : Written w value actor x) (ha : a ∈ w.swarms) :
    a.id ≠ x.id ↔ value.id = "" ∨ a.id ≠ value.id := by
  cases h with
  | created hid hnew => exact iff_of_true (Collection.get_eq_none_iff.1 hnew a ha) (.inl hid)
  | updated hid | unknown hid => exact ⟨.inr, fun h => h.resolve_left hid⟩

/-! ## The programs around their writes -/

/-- The two worlds hold the same agents and swarms. -/
structure World.Same (w w' : World) : Prop where
  agents : w'.agents = w.agents
  swarms : w'.swarms = w.swarms

namespace World.Same

variable {w w₁ w₂ : World}

theorem rfl : w.Same w := ⟨.refl _, .refl _⟩

theorem symm (h : w.Same w₁) : w₁.Same w := ⟨h.agents.symm, h.swarms.symm⟩

theorem trans (h : w.Same w₁) (h' : w₁.Same w₂) : w.Same w₂ :=
  ⟨h'.agents.trans h.agents, h'.swarms.trans h.swarms⟩

end World.Same

/-- The generator can always draw another identifier. -/
theorem exists_randomID (F : Faults) (kind : String) (w : World) :
    ∃ o id w₁, F.allows o.fault ∧ (Cmd.randomID kind).exec o w = some (id, w₁) := by
  let taken := w.issued ++ w.calls.docs.map Call.id ++ w.swarms.docs.map AgentSwarm.id ++
    w.campaigns.docs.map Campaign.id ++ w.agents.docs.map Agent.id
  -- longer than everything that is taken
  let random := String.ofList (List.replicate (taken.map String.length).sum 'a')
  have hfresh : kind ++ "_" ++ random ∉ taken := by
    intro hmem
    have hle := List.le_sum_of_mem (List.mem_map_of_mem (f := String.length) hmem)
    simp only [random, String.length_append, String.length_ofList, List.length_replicate] at hle
    have hone : "_".length = 1 := rfl
    omega
  refine ⟨{ random }, _, _, rfl, if_neg ?_⟩
  simpa [taken, or_assoc] using hfresh

section SaveRules

variable {lower : Char → Char} {actor : String}

/-- A save of an agent either refuses the request, or comes to its writes. -/
theorem saveAgent_rule {value : Agent} {Q : Except Err Agent → World → Prop}
    (hrefused : ∀ e w', w.Same w' → Q (.error e) w')
    (hstore : ∀ value' x w₁, value.prepared lower = .ok value' → Agent.Written w₁ value' actor x →
      w.Same w₁ → Prog.wp (Cmd.execUnder F) Q (storeAgent x) w₁) :
    Prog.wp (Cmd.execUnder F) Q (saveAgent lower value actor) w := by
  unfold saveAgent
  split
  · exact hrefused _ w .rfl
  rename_i value' hprepared
  refine Prog.wp_call_bind.2 fun o now w₁ hexec => ?_
  obtain ⟨-, rfl⟩ := exec_now (exec_of_execUnder hexec)
  split
  · rename_i hid
    refine Prog.wp_call_bind.2 fun o id w₂ hexec => ?_
    have hrandom := exec_of_execUnder hexec
    have hnew := exec_randomID_agent hrandom
    obtain ⟨-, -, rfl⟩ := exec_randomID hrandom
    exact hstore value' _ _ hprepared (.created hid hnew) ⟨rfl, rfl⟩
  · rename_i hid
    refine Prog.wp_call_bind.2 fun o r w₂ hexec => ?_
    obtain ⟨rfl, hr⟩ := answer_found (exec_of_execUnder hexec)
    rcases hr with ⟨existing, hstored, rfl⟩ | ⟨hnew, rfl⟩ | ⟨m, rfl⟩
    · exact hstore value' _ _ hprepared (.updated hid hstored) .rfl
    · exact hstore value' _ _ hprepared (.unknown hid hnew) .rfl
    · exact hrefused _ w₂ .rfl

/-- A save of an agent that passes the checks comes to its writes. -/
theorem saveAgent_ends (F : Faults) (w : World) (actor : String) {value value' : Agent}
    (hprepared : value.prepared lower = .ok value') :
    ∃ x w₁, Agent.Written w₁ value' actor x ∧ w.Same w₁ ∧ ∀ r w',
      (storeAgent x).Ends (Cmd.execUnder F) w₁ r w' →
        (saveAgent lower value actor).Ends (Cmd.execUnder F) w r w' := by
  unfold saveAgent
  simp only [hprepared]
  have hnow : Cmd.execUnder F .now {} w = some (w.clock, w) := rfl
  by_cases hid : value'.id = ""
  · obtain ⟨o, id, w₁, ho, hexec⟩ := exists_randomID F "agent" w
    have hnew := exec_randomID_agent hexec
    have hrandom : Cmd.execUnder F (.randomID "agent") o w = some (id, w₁) := by
      rw [Cmd.execUnder, if_pos ho, hexec]
    obtain ⟨-, -, rfl⟩ := exec_randomID hexec
    refine ⟨_, { w with issued := id :: w.issued }, .created (t := w.clock) hid hnew, ⟨rfl, rfl⟩,
      fun r w' h => .call {} hnow ?_⟩
    rw [if_pos hid]
    exact .call o hrandom h
  · cases hget : w.agents.get value'.id with
    | some existing =>
      refine ⟨_, w, .updated (t := w.clock) hid hget, .rfl, fun r w' h => .call {} hnow ?_⟩
      rw [if_neg hid]
      refine .call {} (show Cmd.execUnder F (.getAgent value'.id) {} w = some (.ok existing, w) from ?_) h
      show some (found (w.agents.get value'.id), w) = _
      rw [hget]
      rfl
    | none =>
      refine ⟨_, w, .unknown (t := w.clock) hid hget, .rfl, fun r w' h => .call {} hnow ?_⟩
      rw [if_neg hid]
      refine .call {} (show Cmd.execUnder F (.getAgent value'.id) {} w = some (.error .notFound, w) from ?_) h
      show some (found (w.agents.get value'.id), w) = _
      rw [hget]
      rfl

/-- A save of a swarm either refuses the request, or comes to its writes. -/
theorem saveSwarm_rule {value : AgentSwarm} {Q : Except Err AgentSwarm → World → Prop}
    (hrefused : ∀ e w', w.Same w' → Q (.error e) w')
    (hstore : ∀ value' x w₁, w.Accepts value value' → AgentSwarm.Written w₁ value' actor x →
      w.Same w₁ → Prog.wp (Cmd.execUnder F) Q (storeSwarm x) w₁) :
    Prog.wp (Cmd.execUnder F) Q (saveSwarm value actor) w := by
  unfold saveSwarm
  split
  · exact hrefused _ w .rfl
  rename_i hnamed
  split
  · exact hrefused _ w .rfl
  rename_i hvalid
  refine Prog.wp_bind.2 (Prog.wp_mono (fun r w₁ h => ?_) nodeAgents_wp)
  obtain ⟨rfl, hagents⟩ := h
  cases r with
  | error e => exact hrefused _ w₁ .rfl
  | ok agents =>
    dsimp only
    split
    · exact hrefused _ w₁ .rfl
    rename_i value' hprepared
    have haccepts : w₁.Accepts value value' := ⟨hnamed, hvalid, agents, hagents agents rfl, hprepared⟩
    refine Prog.wp_call_bind.2 fun o now w₂ hexec => ?_
    obtain ⟨-, rfl⟩ := exec_now (exec_of_execUnder hexec)
    split
    · rename_i hid
      refine Prog.wp_call_bind.2 fun o id w₃ hexec => ?_
      have hrandom := exec_of_execUnder hexec
      have hnew := exec_randomID_swarm hrandom
      obtain ⟨-, -, rfl⟩ := exec_randomID hrandom
      exact hstore value' _ _ haccepts (.created hid hnew) ⟨rfl, rfl⟩
    · rename_i hid
      refine Prog.wp_call_bind.2 fun o r w₃ hexec => ?_
      obtain ⟨rfl, hr⟩ := answer_found (exec_of_execUnder hexec)
      rcases hr with ⟨existing, hstored, rfl⟩ | ⟨hnew, rfl⟩ | ⟨m, rfl⟩
      · exact hstore value' _ _ haccepts (.updated hid hstored) .rfl
      · exact hstore value' _ _ haccepts (.unknown hid hnew) .rfl
      · exact hrefused _ w₃ .rfl

/-- The checks of the agents of a swarm, and what comes after them. -/
def checkedSwarm (value : AgentSwarm) (f : AgentSwarm → Service (Except Err AgentSwarm)) :
    Service (Except Err AgentSwarm) := do
  match ← nodeAgents value value.graph.nodes with
  | .error e => return .error e
  | .ok agents =>
    match value.prepared agents with
    | .error e => return .error (.message e)
    | .ok value => f value

/-- A save of a swarm that passes the checks comes to its writes. -/
theorem saveSwarm_ends (F : Faults) (actor : String) {value value' : AgentSwarm}
    (haccepts : w.Accepts value value') :
    ∃ x w₁, AgentSwarm.Written w₁ value' actor x ∧ w.Same w₁ ∧ ∀ r w',
      (storeSwarm x).Ends (Cmd.execUnder F) w₁ r w' →
        (saveSwarm value actor).Ends (Cmd.execUnder F) w r w' := by
  obtain ⟨hnamed, hvalid, agents, hagents, hprepared⟩ := haccepts
  unfold saveSwarm
  simp only [if_neg hnamed, hvalid]
  -- the checks pass, whatever comes after them
  have hchecked : ∀ {f : AgentSwarm → Service (Except Err AgentSwarm)} {r w'},
      (f value').Ends (Cmd.execUnder F) w r w' →
        (checkedSwarm value f).Ends (Cmd.execUnder F) w r w' := by
    intro f r w' h
    refine Prog.ends_bind.2 ⟨_, w, nodeAgents_ends hagents, ?_⟩
    dsimp only
    rw [hprepared]
    exact h
  have hnow : Cmd.execUnder F .now {} w = some (w.clock, w) := rfl
  by_cases hid : value'.id = ""
  · obtain ⟨o, id, w₁, ho, hexec⟩ := exists_randomID F "swarm" w
    have hnew := exec_randomID_swarm hexec
    have hrandom : Cmd.execUnder F (.randomID "swarm") o w = some (id, w₁) := by
      rw [Cmd.execUnder, if_pos ho, hexec]
    obtain ⟨-, -, rfl⟩ := exec_randomID hexec
    refine ⟨_, { w with issued := id :: w.issued }, .created (t := w.clock) hid hnew, ⟨rfl, rfl⟩,
      fun r w' h =>
      hchecked (.call {} hnow ?_)⟩
    rw [if_pos hid]
    exact .call o hrandom h
  · cases hget : w.swarms.get value'.id with
    | some existing =>
      refine ⟨_, w, .updated (t := w.clock) hid hget, .rfl, fun r w' h => hchecked (.call {} hnow ?_)⟩
      rw [if_neg hid]
      refine .call {} (show Cmd.execUnder F (.getSwarm value'.id) {} w = some (.ok existing, w) from ?_) h
      show some (found (w.swarms.get value'.id), w) = _
      rw [hget]
      rfl
    | none =>
      refine ⟨_, w, .unknown (t := w.clock) hid hget, .rfl, fun r w' h => hchecked (.call {} hnow ?_)⟩
      rw [if_neg hid]
      refine .call {} (show Cmd.execUnder F (.getSwarm value'.id) {} w = some (.error .notFound, w) from ?_) h
      show some (found (w.swarms.get value'.id), w) = _
      rw [hget]
      rfl

end SaveRules

/-! ## The two writes -/

/-- Clear the rivals of a marked document, then store it. -/
def storing {β : Type} (marked : Bool) (clear put : Service (Except Err Unit)) (value : β) :
    Service (Except Err β) := do
  if marked then
    match ← clear with
    | .error e => return .error e
    | .ok () =>
      match ← put with
      | .error e => return .error e
      | .ok () => return .ok value
  else
    match ← put with
    | .error e => return .error e
    | .ok () => return .ok value

theorem storeAgent_eq (x : Agent) : storeAgent x = storing x.isDefault
    (Store.clearAgentDefaults x.id x.channels x.direction) (Store.saveAgent x) x := rfl

theorem storeSwarm_eq (x : AgentSwarm) : storeSwarm x = storing x.isDefault
    (Store.clearSwarmDefaults x.id x.channels x.directions) (Store.saveSwarm x) x := rfl

/-- Each write takes effect or leaves the world alone. -/
theorem Wrote.world {eff : Option World} {r : Except Err Unit} (h : Wrote F w eff r w') :
    w' = w ∨ eff = some w' := by
  cases h with
  | done => exact .inr rfl
  | refused | lost => exact .inl rfl
  | unacked =>
    cases eff with
    | none => exact .inl rfl
    | some v => exact .inr rfl

/-- Storing leaves a world in which the rivals may be cleared, and the document stored. -/
theorem storing_world {β : Type} {marked : Bool} {clear put : Service (Except Err Unit)} {value : β}
    {r : Except Err β} {cleared : World} {eff : World → Option World}
    (hclear : ∀ {r w'}, clear.Ends (Cmd.execUnder F) w r w' → Wrote F w (some cleared) r w')
    (hput : ∀ {v r w'}, put.Ends (Cmd.execUnder F) v r w' → Wrote F v (eff v) r w')
    (h : (storing marked clear put value).Ends (Cmd.execUnder F) w r w') :
    w' = w ∨ w' = cleared ∨ eff w = some w' ∨ eff cleared = some w' := by
  have hputting : ∀ {v}, Prog.Ends (Cmd.execUnder F) (do
      match ← put with
      | .error e => return .error e
      | .ok () => return .ok value) v r w' → w' = v ∨ eff v = some w' := by
    intro v h
    obtain ⟨r₁, w₁, hends, hret⟩ := Prog.ends_bind.1 h
    have heq : w₁ = w' := by
      cases r₁ with
      | error e => exact (Prog.ends_pure.1 hret).2
      | ok u => exact (Prog.ends_pure.1 hret).2
    exact heq ▸ (hput hends).world
  unfold storing at h
  split at h
  · obtain ⟨r₁, w₁, hends, hrest⟩ := Prog.ends_bind.1 h
    rcases (hclear hends).world with rfl | hw₁
    · cases r₁ with
      | error e => exact .inl (Prog.ends_pure.1 hrest).2.symm
      | ok u => exact (hputting hrest).imp_right fun h => .inr (.inl h)
    · obtain rfl := Option.some.inj hw₁
      cases r₁ with
      | error e => exact .inr (.inl (Prog.ends_pure.1 hrest).2.symm)
      | ok u =>
        rcases hputting hrest with h | h
        · exact .inr (.inl h)
        · exact .inr (.inr (.inr h))
  · exact (hputting h).imp_right fun h => .inr (.inl h)

end Stylme
