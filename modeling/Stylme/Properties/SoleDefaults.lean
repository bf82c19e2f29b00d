-- SUMMARY: At most one agent and one swarm is the default of a channel and a direction, in every run of saves in which no rival default appears between the two writes of a save.
import Stylme.Service.Saves
import Stylme.Service.System

/-!
# One default in each scope

Any number of admins save agents and swarms over one store. A save that marks its
document clears its rivals first and writes the document in a second request; a
rival that another save writes in between stays marked. When this does not happen
there is at most one default for every channel and direction.
-/

namespace Stylme

open Conc

namespace Save

/-! ## What a save may do next -/

/-- How far a save has come: it has cleared the defaults of a scope, or not yet. -/
inductive Phase where
  | checking
  | agentsCleared (id : String) (channels : List String) (direction : String)
  | swarmsCleared (id : String) (channels directions : List String)

def permits : Phase → Cmd → Prop
  | .checking, .now | .checking, .randomID _ | .checking, .getAgent _ | .checking, .getSwarm _ => True
  | .checking, .clearAgentDefaults _ _ direction => direction ≠ ""
  | .checking, .clearSwarmDefaults _ _ _ => True
  | .checking, .saveAgent x => x.isDefault = false
  | .checking, .saveSwarm x => x.isDefault = false
  | .agentsCleared id channels direction, .saveAgent x =>
    x.id = id ∧ x.channels = channels ∧ x.direction = direction
  | .swarmsCleared id channels directions, .saveSwarm x =>
    x.id = id ∧ x.channels = channels ∧ x.directions = directions
  | _, _ => False

def next : Phase → (c : Cmd) → Resp c → Phase
  | .checking, .clearAgentDefaults id channels direction, .ok () => .agentsCleared id channels direction
  | .checking, .clearSwarmDefaults id channels directions, .ok () => .swarmsCleared id channels directions
  | _, _, _ => .checking

def protocol : Protocol Cmd Resp Phase := ⟨permits, next⟩

section Conforms

variable {lower : Char → Char} {actor : String}

theorem storeAgent_conforms {x : Agent} (hdirection : x.direction ≠ "") :
    Prog.Conforms protocol (fun _ _ => True) .checking (storeAgent x) := by
  unfold storeAgent
  split
  · refine .call hdirection fun r => ?_
    cases r with
    | error e => exact .pure trivial
    | ok u =>
      refine .call ⟨rfl, rfl, rfl⟩ fun r => ?_
      cases r with
      | error e => exact .pure trivial
      | ok u => exact .pure trivial
  · rename_i hdefault
    refine .call (Bool.eq_false_iff.2 hdefault) fun r => ?_
    cases r with
    | error e => exact .pure trivial
    | ok u => exact .pure trivial

theorem saveAgent_conforms {value : Agent} :
    Prog.Conforms protocol (fun _ _ => True) .checking (saveAgent lower value actor) := by
  unfold saveAgent
  split
  · exact .pure trivial
  rename_i value' hprepared
  have hdirection : value'.direction ≠ "" := by
    rw [(Agent.prepared_ok hprepared).eq]
    exact (Agent.prepared_ok hprepared).direction
  refine .call trivial fun now => ?_
  split
  · exact .call trivial fun id => storeAgent_conforms hdirection
  refine .call trivial fun r => ?_
  cases r with
  | ok existing => exact storeAgent_conforms hdirection
  | error e =>
    cases e with
    | notFound => exact storeAgent_conforms hdirection
    | duplicateKey | unavailable m | message m | wrapped m e => exact .pure trivial

theorem storeSwarm_conforms {x : AgentSwarm} :
    Prog.Conforms protocol (fun _ _ => True) .checking (storeSwarm x) := by
  unfold storeSwarm
  split
  · refine .call trivial fun r => ?_
    cases r with
    | error e => exact .pure trivial
    | ok u =>
      refine .call ⟨rfl, rfl, rfl⟩ fun r => ?_
      cases r with
      | error e => exact .pure trivial
      | ok u => exact .pure trivial
  · rename_i hdefault
    refine .call (Bool.eq_false_iff.2 hdefault) fun r => ?_
    cases r with
    | error e => exact .pure trivial
    | ok u => exact .pure trivial

theorem nodeAgents_conforms {swarm : AgentSwarm} {nodes : List SwarmNode} :
    Prog.Conforms protocol (fun l _ => l = .checking) .checking (nodeAgents swarm nodes) := by
  induction nodes with
  | nil => exact .pure rfl
  | cons node nodes ih =>
    refine .call trivial fun r => ?_
    cases r with
    | error e => exact .pure rfl
    | ok agent =>
      dsimp only
      split
      · exact .pure rfl
      · refine Prog.Conforms.bind ih fun l r hl => ?_
        cases r with
        | error e => exact .pure hl
        | ok agents => exact .pure hl

theorem saveSwarm_conforms {value : AgentSwarm} :
    Prog.Conforms protocol (fun _ _ => True) .checking (saveSwarm value actor) := by
  unfold saveSwarm
  split
  · exact .pure trivial
  split
  · exact .pure trivial
  refine Prog.Conforms.bind nodeAgents_conforms fun l r hl => ?_
  subst hl
  cases r with
  | error e => exact .pure trivial
  | ok agents =>
    dsimp only
    split
    · exact .pure trivial
    refine .call trivial fun now => ?_
    split
    · exact .call trivial fun id => storeSwarm_conforms
    refine .call trivial fun r => ?_
    cases r with
    | ok existing => exact storeSwarm_conforms
    | error e =>
      cases e with
      | notFound => exact storeSwarm_conforms
      | duplicateKey | unavailable m | message m | wrapped m e => exact .pure trivial

/-- Every save follows the protocol. -/
theorem prog_conforms (s : Save) :
    Prog.Conforms protocol (fun _ _ => True) .checking (s.prog lower) := by
  cases s with
  | agent value actor => exact saveAgent_conforms.bind fun _ _ _ => .pure trivial
  | swarm value actor => exact saveSwarm_conforms.bind fun _ _ _ => .pure trivial

end Conforms

end Save

/-! ## Saves by many admins -/

/-- Saves over one store, and the clock. -/
def adminSaves (lower : Char → Char) :
    System Save Cmd Resp (Except Err (Agent ⊕ AgentSwarm)) World Oracle Duration where
  prog := Save.prog lower
  exec := Cmd.exec
  env d w := { w with clock := w.clock + d }

namespace AdminSaves

abbrev State := Pool Save Cmd Resp (Except Err (Agent ⊕ AgentSwarm)) World

abbrev Step := Label Save Oracle Duration

abbrev View := Config Save Cmd Resp World Save.Phase

abbrev LogEntry := Entry Cmd Resp World

abbrev view (σ : State) : View := σ.config (fun _ => Save.protocol) fun _ => .checking

/-- The agents that were saved since thread `t` issued its last command. -/
def agentsSince (t : ℕ) (log : List LogEntry) : List Agent :=
  (log.takeWhile (·.tid ≠ t)).filterMap fun e =>
    match e.cmd with
    | .saveAgent a => some a
    | _ => none

/-- The swarms that were saved since thread `t` issued its last command. -/
def swarmsSince (t : ℕ) (log : List LogEntry) : List AgentSwarm :=
  (log.takeWhile (·.tid ≠ t)).filterMap fun e =>
    match e.cmd with
    | .saveSwarm s => some s
    | _ => none

/-- Before a default is written: none of the documents that were saved since its
rivals were cleared is a rival now. -/
def undisputed (σ : State) : Step → Bool
  | .exec t _ =>
    match σ.next t with
    | some (_, .saveAgent x) => x.isDefault → (agentsSince t σ.log).all fun a =>
        (σ.shared.agents.get a.id).all fun b => ¬ Agent.marking.Rival Agent.id x b
    | some (_, .saveSwarm x) => x.isDefault → (swarmsSince t σ.log).all fun s =>
        (σ.shared.swarms.get s.id).all fun b => ¬ AgentSwarm.marking.Rival AgentSwarm.id x b
    | _ => true
  | _ => true

end AdminSaves

/-- At most one agent and at most one swarm is the default for a channel and a direction. -/
structure World.SoleDefaults (w : World) : Prop where
  agents : Agent.marking.Sole w.agents
  swarms : AgentSwarm.marking.Sole w.swarms

/-! ## Rivals -/

/-- Another default for one of the channels and the direction. -/
structure Agent.RivalOf (id : String) (channels : List String) (direction : String) (a : Agent) :
    Prop where
  other : a.id ≠ id
  marked : a.isDefault
  channel : ∃ c ∈ a.channels, c ∈ channels
  direction : a.direction = direction

/-- Another default for one of the channels and one of the directions. -/
structure AgentSwarm.RivalOf (id : String) (channels directions : List String) (a : AgentSwarm) :
    Prop where
  other : a.id ≠ id
  marked : a.isDefault
  channel : ∃ c ∈ a.channels, c ∈ channels
  direction : ∃ d ∈ a.directions, d ∈ directions

theorem Agent.rivalOf_of_rival {x a : Agent} (h : Agent.marking.Rival Agent.id x a) :
    a.RivalOf x.id x.channels x.direction :=
  ⟨h.1, h.2.1, (Agent.overlaps_iff.1 h.2.2).1, (Agent.overlaps_iff.1 h.2.2).2⟩

theorem AgentSwarm.rivalOf_of_rival {x a : AgentSwarm}
    (h : AgentSwarm.marking.Rival AgentSwarm.id x a) : a.RivalOf x.id x.channels x.directions :=
  ⟨h.1, h.2.1, (AgentSwarm.overlaps_iff.1 h.2.2).1, (AgentSwarm.overlaps_iff.1 h.2.2).2⟩

/-- What is still a default after clearing was left alone, and is no rival. -/
theorem Agent.of_clearDefault {a : Agent} {id direction : String} {channels : List String} {now : Time}
    (h : (a.clearDefault id channels direction now).isDefault) :
    a.clearDefault id channels direction now = a ∧ ¬ a.RivalOf id channels direction := by
  unfold clearDefault at h ⊢
  split
  · rename_i hcleared
    rw [if_pos hcleared] at h
    cases h
  · rename_i hkept
    refine ⟨rfl, fun hrival => hkept ⟨hrival.other, hrival.marked, ?_, fun _ => hrival.direction⟩⟩
    simpa using hrival.channel

theorem AgentSwarm.of_clearDefault {a : AgentSwarm} {id : String} {channels directions : List String}
    {now : Time} (h : (a.clearDefault id channels directions now).isDefault) :
    a.clearDefault id channels directions now = a ∧ ¬ a.RivalOf id channels directions := by
  unfold clearDefault at h ⊢
  split
  · rename_i hcleared
    rw [if_pos hcleared] at h
    cases h
  · rename_i hkept
    refine ⟨rfl, fun hrival => hkept ⟨hrival.other, hrival.marked, ?_, ?_⟩⟩
    · simpa using hrival.channel
    · simpa using hrival.direction

/-! ## What one command does to the defaults -/

section Exec

variable {o : Oracle} {w w' : World} {c : Cmd} {r : Resp c}

/-- The ways a save can change the agents: not at all, by clearing, by one document. -/
theorem exec_agents (h : c.exec o w = some (r, w')) (hseed : ∀ a, c ≠ .seedAgent a) :
    w'.agents = w.agents ∨
      (∃ id channels direction, c = .clearAgentDefaults id channels direction ∧
        w'.agents.docs = w.agents.docs.map (·.clearDefault id channels direction w.clock)) ∨
      ∃ x, c = .saveAgent x ∧ w.agents.replaceOne x = some w'.agents := by
  cases hc : c.writesAgents with
  | false => exact .inl ((exec_frame h).agents hc)
  | true =>
    cases c with
    | saveAgent x =>
      rcases exec_saveAgent h with rfl | ⟨agents, hagents, rfl⟩
      · exact .inl rfl
      · exact .inr (.inr ⟨x, rfl, hagents⟩)
    | clearAgentDefaults id channels direction =>
      rcases commit_some h with ⟨rfl, -⟩ | ⟨rfl, -⟩
      · exact .inl rfl
      · exact .inr (.inl ⟨id, channels, direction, rfl, rfl⟩)
    | seedAgent a => exact absurd rfl (hseed a)
    | _ => cases hc

theorem exec_swarms (h : c.exec o w = some (r, w')) (hseed : ∀ s, c ≠ .seedSwarm s) :
    w'.swarms = w.swarms ∨
      (∃ id channels directions, c = .clearSwarmDefaults id channels directions ∧
        w'.swarms.docs = w.swarms.docs.map (·.clearDefault id channels directions w.clock)) ∨
      ∃ x, c = .saveSwarm x ∧ w.swarms.replaceOne x = some w'.swarms := by
  cases hc : c.writesSwarms with
  | false => exact .inl ((exec_frame h).swarms hc)
  | true =>
    cases c with
    | saveSwarm x =>
      rcases exec_saveSwarm h with rfl | ⟨swarms, hswarms, rfl⟩
      · exact .inl rfl
      · exact .inr (.inr ⟨x, rfl, hswarms⟩)
    | clearSwarmDefaults id channels directions =>
      rcases commit_some h with ⟨rfl, -⟩ | ⟨rfl, -⟩
      · exact .inl rfl
      · exact .inr (.inl ⟨id, channels, directions, rfl, rfl⟩)
    | seedSwarm s => exact absurd rfl (hseed s)
    | _ => cases hc

end Exec

/-! ## The invariant -/

namespace AdminSaves

/-- One default in each scope; and whoever has cleared the rivals of a scope, the
rivals that are stored now were saved since. -/
structure Guarded (cfg : View) : Prop where
  sole : cfg.shared.SoleDefaults
  directed : ∀ {t op id channels direction b},
    cfg.view t = some ⟨op, .agentsCleared id channels direction, b⟩ → direction ≠ ""
  agents : ∀ {t op id channels direction b},
    cfg.view t = some ⟨op, .agentsCleared id channels direction, b⟩ →
      ∀ a ∈ cfg.shared.agents, a.RivalOf id channels direction → a ∈ agentsSince t cfg.log
  swarms : ∀ {t op id channels directions b},
    cfg.view t = some ⟨op, .swarmsCleared id channels directions, b⟩ →
      ∀ a ∈ cfg.shared.swarms, a.RivalOf id channels directions → a ∈ swarmsSince t cfg.log

section Since

variable {t : ℕ} {e : LogEntry} {log : List LogEntry} {a : Agent} {s : AgentSwarm}

theorem mem_agentsSince_cons (ht : e.tid ≠ t) :
    a ∈ agentsSince t (e :: log) ↔ e.cmd = .saveAgent a ∨ a ∈ agentsSince t log := by
  unfold agentsSince
  rw [List.takeWhile_cons_of_pos (by simpa using ht), List.filterMap_cons]
  cases e.cmd <;> simp [eq_comm]

theorem mem_swarmsSince_cons (ht : e.tid ≠ t) :
    s ∈ swarmsSince t (e :: log) ↔ e.cmd = .saveSwarm s ∨ s ∈ swarmsSince t log := by
  unfold swarmsSince
  rw [List.takeWhile_cons_of_pos (by simpa using ht), List.filterMap_cons]
  cases e.cmd <;> simp [eq_comm]

end Since

section Step

variable {o : Oracle} {w w' : World} {c : Cmd} {r : Resp c} {l : Save.Phase} {id : String}

/-- No permitted command seeds. -/
theorem not_seeds (h : Save.permits l c) : (∀ a, c ≠ .seedAgent a) ∧ ∀ s, c ≠ .seedSwarm s := by
  constructor <;> rintro d rfl <;> cases l <;> exact h

/-- Every rival that is stored after a command was stored before or is saved by it. -/
theorem rival_agent {a : Agent} {channels : List String} {direction : String} (h : c.exec o w = some (r, w'))
    (hpermits : Save.permits l c) (ha : a ∈ w'.agents) (hrival : a.RivalOf id channels direction) :
    a ∈ w.agents ∨ c = .saveAgent a := by
  rcases exec_agents h (not_seeds hpermits).1 with hw | ⟨id', channels', direction', rfl, hdocs⟩ | ⟨x, rfl, hx⟩
  · exact .inl (hw ▸ ha)
  · rw [Collection.mem_def, hdocs] at ha
    obtain ⟨d, hd, rfl⟩ := List.mem_map.1 ha
    exact .inl ((Agent.of_clearDefault hrival.marked).1.symm ▸ hd)
  · rcases (Collection.mem_replaceOne hx).1 ha with rfl | ⟨ha, -⟩
    · exact .inr rfl
    · exact .inl ha

theorem rival_swarm {a : AgentSwarm} {channels directions : List String} (h : c.exec o w = some (r, w'))
    (hpermits : Save.permits l c) (ha : a ∈ w'.swarms) (hrival : a.RivalOf id channels directions) :
    a ∈ w.swarms ∨ c = .saveSwarm a := by
  rcases exec_swarms h (not_seeds hpermits).2 with hw | ⟨id', channels', directions', rfl, hdocs⟩ | ⟨x, rfl, hx⟩
  · exact .inl (hw ▸ ha)
  · rw [Collection.mem_def, hdocs] at ha
    obtain ⟨d, hd, rfl⟩ := List.mem_map.1 ha
    exact .inl ((AgentSwarm.of_clearDefault hrival.marked).1.symm ▸ hd)
  · rcases (Collection.mem_replaceOne hx).1 ha with rfl | ⟨ha, -⟩
    · exact .inr rfl
    · exact .inl ha

/-- When a clearing is acknowledged, no rival is left. -/
theorem cleared_agents {channels : List String} {direction : String}
    (h : Cmd.exec (.clearAgentDefaults id channels direction) o w = some (.ok (), w')) :
    ∀ a ∈ w'.agents, ¬ a.RivalOf id channels direction := by
  intro a ha hrival
  rcases commit_some h with ⟨-, m, hr⟩ | ⟨rfl, -⟩
  · cases hr
  · obtain ⟨d, hd, rfl⟩ := List.mem_map.1 ha
    obtain ⟨heq, hnot⟩ := Agent.of_clearDefault hrival.marked
    exact hnot (heq ▸ hrival)

theorem cleared_swarms {channels directions : List String}
    (h : Cmd.exec (.clearSwarmDefaults id channels directions) o w = some (.ok (), w')) :
    ∀ a ∈ w'.swarms, ¬ a.RivalOf id channels directions := by
  intro a ha hrival
  rcases commit_some h with ⟨-, m, hr⟩ | ⟨rfl, -⟩
  · cases hr
  · obtain ⟨d, hd, rfl⟩ := List.mem_map.1 ha
    obtain ⟨heq, hnot⟩ := AgentSwarm.of_clearDefault hrival.marked
    exact hnot (heq ▸ hrival)

/-- A command keeps one default in each scope, if what it saves as a default has no rivals. -/
theorem sole_exec (hw : w.SoleDefaults) (h : c.exec o w = some (r, w')) (hpermits : Save.permits l c)
    (hagent : ∀ x, c = .saveAgent x → x.isDefault → ∀ a ∈ w.agents, ¬ Agent.marking.Rival Agent.id x a)
    (hswarm : ∀ x, c = .saveSwarm x → x.isDefault →
      ∀ a ∈ w.swarms, ¬ AgentSwarm.marking.Rival AgentSwarm.id x a) : w'.SoleDefaults := by
  constructor
  case agents =>
    rcases exec_agents h (not_seeds hpermits).1 with hw' | ⟨id, channels, direction, rfl, hdocs⟩ | ⟨x, rfl, hx⟩
    · exact hw' ▸ hw.agents
    · exact hw.agents.of_map hdocs fun d hd => (Agent.of_clearDefault hd).1
    · exact hw.agents.replaceOne hx (hagent x rfl)
  case swarms =>
    rcases exec_swarms h (not_seeds hpermits).2 with hw' | ⟨id, channels, directions, rfl, hdocs⟩ | ⟨x, rfl, hx⟩
    · exact hw' ▸ hw.swarms
    · exact hw.swarms.of_map hdocs fun d hd => (AgentSwarm.of_clearDefault hd).1
    · exact hw.swarms.replaceOne hx (hswarm x rfl)

end Step

section Guarded

variable {cfg cfg' : View} {t : ℕ} {op : Save} {l : Save.Phase} {b : Bool}

/-- Threads that start or stop, and the clock, change nothing. -/
theorem Guarded.idle (h : Guarded cfg) (hview : ∀ {t op l b}, cfg'.view t = some ⟨op, l, b⟩ →
      l = .checking ∨ ∃ b', cfg.view t = some ⟨op, l, b'⟩) (hlog : cfg'.log = cfg.log)
    (hagents : cfg'.shared.agents = cfg.shared.agents)
    (hswarms : cfg'.shared.swarms = cfg.shared.swarms) : Guarded cfg' where
  sole := ⟨hagents ▸ h.sole.agents, hswarms ▸ h.sole.swarms⟩
  directed ht := by
    rcases hview ht with hl | ⟨b', ht⟩
    · cases hl
    · exact h.directed ht
  agents ht := by
    rcases hview ht with hl | ⟨b', ht⟩
    · cases hl
    · rw [hagents, hlog]
      exact h.agents ht
  swarms ht := by
    rcases hview ht with hl | ⟨b', ht⟩
    · cases hl
    · rw [hswarms, hlog]
      exact h.swarms ht

theorem Guarded.update (h : Guarded cfg) (ht : l = .checking ∨ ∃ b', cfg.view t = some ⟨op, l, b'⟩) :
    Guarded { cfg with view := Function.update cfg.view t (some ⟨op, l, b⟩) } := by
  refine h.idle (fun {u op' l' b'} hu => ?_) rfl rfl rfl
  rcases View.of_update hu with ⟨rfl, rfl, rfl, -⟩ | ⟨-, hv⟩
  · exact ht
  · exact .inr ⟨b', hv⟩

/-- A phase after clearing is entered by an acknowledged clearing only. -/
theorem of_next_agentsCleared {c : Cmd} {r : Resp c} {id direction : String} {channels : List String}
    (h : Save.next l c r = .agentsCleared id channels direction) :
    l = .checking ∧ ∃ hc : c = .clearAgentDefaults id channels direction, hc ▸ r = .ok () := by
  unfold Save.next at h
  split at h
  · cases h
    exact ⟨rfl, rfl, rfl⟩
  · cases h
  · cases h

theorem of_next_swarmsCleared {c : Cmd} {r : Resp c} {id : String} {channels directions : List String}
    (h : Save.next l c r = .swarmsCleared id channels directions) :
    l = .checking ∧ ∃ hc : c = .clearSwarmDefaults id channels directions, hc ▸ r = .ok () := by
  unfold Save.next at h
  split at h
  · cases h
  · cases h
    exact ⟨rfl, rfl, rfl⟩
  · cases h

variable {σ : State} {o : Oracle} {c : Cmd} {r : Resp c} {w' : World}

/-- An undisputed command of a save keeps the invariant. -/
theorem Guarded.exec (h : Guarded (view σ)) (hok : undisputed σ (.exec t o))
    (hnext : σ.next t = some (op, c)) (ht : (view σ).view t = some ⟨op, l, true⟩)
    (hpermits : Save.permits l c) (hexec : c.exec o σ.shared = some (r, w')) :
    Guarded ⟨w', Function.update (view σ).view t (some ⟨op, Save.next l c r, true⟩),
      ⟨t, c, r, w'⟩ :: σ.log⟩ := by
  have hagent : ∀ x, c = .saveAgent x → x.isDefault →
      ∀ a ∈ σ.shared.agents, ¬ Agent.marking.Rival Agent.id x a := by
    rintro x rfl hdefault a ha hrival
    cases l with
    | checking => exact Bool.false_ne_true (hpermits.symm.trans hdefault)
    | swarmsCleared => exact hpermits
    | agentsCleared id channels direction =>
      obtain ⟨rfl, rfl, rfl⟩ := hpermits
      have hsince := h.agents ht a ha (Agent.rivalOf_of_rival hrival)
      simp only [undisputed, hnext, hdefault, decide_eq_true_eq, true_imp_iff, List.all_eq_true] at hok
      have hnot := hok a hsince
      rw [Collection.get_eq_some_iff.2 ⟨ha, rfl⟩] at hnot
      exact of_decide_eq_true hnot hrival
  have hswarm : ∀ x, c = .saveSwarm x → x.isDefault →
      ∀ a ∈ σ.shared.swarms, ¬ AgentSwarm.marking.Rival AgentSwarm.id x a := by
    rintro x rfl hdefault a ha hrival
    cases l with
    | checking => exact Bool.false_ne_true (hpermits.symm.trans hdefault)
    | agentsCleared => exact hpermits
    | swarmsCleared id channels directions =>
      obtain ⟨rfl, rfl, rfl⟩ := hpermits
      have hsince := h.swarms ht a ha (AgentSwarm.rivalOf_of_rival hrival)
      simp only [undisputed, hnext, hdefault, decide_eq_true_eq, true_imp_iff, List.all_eq_true] at hok
      have hnot := hok a hsince
      rw [Collection.get_eq_some_iff.2 ⟨ha, rfl⟩] at hnot
      exact of_decide_eq_true hnot hrival
  constructor
  case sole => exact sole_exec h.sole hexec hpermits hagent hswarm
  case directed =>
    intro u op' id channels direction b hu
    rcases View.of_update hu with ⟨rfl, rfl, hl, -⟩ | ⟨-, hv⟩
    · obtain ⟨rfl, rfl, -⟩ := of_next_agentsCleared hl
      exact hpermits
    · exact h.directed hv
  case agents =>
    intro u op' id channels direction b hu a ha hrival
    rcases View.of_update hu with ⟨rfl, rfl, hl, -⟩ | ⟨hut, hv⟩
    · obtain ⟨rfl, rfl, hr⟩ := of_next_agentsCleared hl
      obtain rfl : r = .ok () := hr
      exact absurd hrival (cleared_agents hexec a ha)
    · refine (mem_agentsSince_cons (Ne.symm hut)).2 ?_
      rcases rival_agent hexec hpermits ha hrival with ha | hc
      · exact .inr (h.agents hv a ha hrival)
      · exact .inl hc
  case swarms =>
    intro u op' id channels directions b hu a ha hrival
    rcases View.of_update hu with ⟨rfl, rfl, hl, -⟩ | ⟨hut, hv⟩
    · obtain ⟨rfl, rfl, hr⟩ := of_next_swarmsCleared hl
      obtain rfl : r = .ok () := hr
      exact absurd hrival (cleared_swarms hexec a ha)
    · refine (mem_swarmsSince_cons (Ne.symm hut)).2 ?_
      rcases rival_swarm hexec hpermits ha hrival with ha | hc
      · exact .inr (h.swarms hv a ha hrival)
      · exact .inl hc

end Guarded

end AdminSaves

/-- In every run of saves in which no default is written next to a rival that
another save has written since the clearing, there is at most one default agent
and one default swarm for each channel and direction. -/
theorem soleDefaults_reach {lower : Char → Char} {w₀ : World} {σ : AdminSaves.State}
    (h₀ : w₀.SoleDefaults)
    (h : (adminSaves lower).Reach (fun σ l => AdminSaves.undisputed σ l) (Pool.init w₀) σ) :
    σ.shared.SoleDefaults := by
  have hinit : AdminSaves.Guarded (AdminSaves.view (Pool.init w₀)) :=
    ⟨h₀, (fun ht => by cases ht), (fun ht => by cases ht), (fun ht => by cases ht)⟩
  have hguarded : AdminSaves.Guarded (AdminSaves.view σ) := by
    refine h.invariant Save.prog_conforms .init hinit ?_
    intro ρ l cfg _ hok hρ hstep
    cases hstep with
    | spawn ht => exact hρ.update (.inl rfl)
    | exec hnext ht hpermits hexec => exact hρ.exec hok hnext ht hpermits hexec
    | crash ht => exact hρ.update (.inr ⟨_, ht⟩)
    | env => exact hρ.idle (fun ht => .inr ⟨_, ht⟩) rfl rfl rfl
  exact hguarded.sole

/-! ## Two saves at a time -/

namespace Sample

/-- A new default workflow for the scope of the stored one. -/
def defaultSwarm (key : String) : Save := .swarm { swarm with id := "", key := key } "admin"

/-- All commands of one save. -/
def oneSave : List AdminSaves.Step :=
  .spawn 0 (defaultSwarm "second") :: List.replicate 6 (.exec 0 { random := "b1" })

/-- Two saves that both clear the defaults before either writes its own. -/
def twoSaves : List AdminSaves.Step :=
  [.spawn 0 (defaultSwarm "second"), .spawn 1 (defaultSwarm "third")] ++
    List.replicate 5 (.exec 0 { random := "b1" }) ++ List.replicate 5 (.exec 1 { random := "b2" }) ++
    [.exec 0 {}, .exec 1 {}]

theorem world_soleDefaults : world.SoleDefaults where
  agents := fun _ _ ha _ hb _ _ _ _ => (List.mem_singleton.1 ha).trans (List.mem_singleton.1 hb).symm
  swarms := fun _ _ ha _ hb _ _ _ _ => (List.mem_singleton.1 ha).trans (List.mem_singleton.1 hb).symm

end Sample

theorem soleDefaults_oneSave : ∃ σ, (adminSaves Char.toLower).Reach
    (fun σ l => AdminSaves.undisputed σ l) (Pool.init Sample.world) σ ∧
      (σ.shared.swarms.docs.any fun s => s.id = "swarm_b1" ∧ s.isDefault) ∧ σ.shared.SoleDefaults := by
  have hrun : ((adminSaves Char.toLower).runWhere (fun σ l => AdminSaves.undisputed σ l) Sample.oneSave
      (Pool.init Sample.world)).any fun σ =>
        σ.shared.swarms.docs.any fun s => s.id = "swarm_b1" ∧ s.isDefault := by
    decide +kernel
  obtain ⟨σ, hreach, hcheck⟩ := System.Reach.exists_of_any hrun
  exact ⟨σ, hreach, hcheck, soleDefaults_reach Sample.world_soleDefaults hreach⟩

/-- After both saves there are two defaults for the same channel and direction. -/
theorem not_soleDefaults_twoSaves : ¬ ∀ (lower : Char → Char) (w₀ : World) (σ : AdminSaves.State),
    w₀.SoleDefaults → (adminSaves lower).Reach (fun _ _ => True) (Pool.init w₀) σ →
      σ.shared.SoleDefaults := by
  intro h
  have hrun : ((adminSaves Char.toLower).runWhere (fun _ _ => True) Sample.twoSaves
      (Pool.init Sample.world)).any fun σ => σ.shared.swarms.docs.any fun s =>
        s.isDefault ∧ ("voice", "inbound") ∈ AgentSwarm.marking.scopes s ∧
          σ.shared.swarms.docs.any fun s' => s'.isDefault ∧
            ("voice", "inbound") ∈ AgentSwarm.marking.scopes s' ∧ s'.id ≠ s.id := by
    decide +kernel
  obtain ⟨σ, hreach, hcheck⟩ := System.Reach.exists_of_any hrun
  obtain ⟨s, hs, hcheck⟩ := List.any_eq_true.1 hcheck
  obtain ⟨hmarked, hscope, hother⟩ := of_decide_eq_true hcheck
  obtain ⟨s', hs', hcheck'⟩ := List.any_eq_true.1 hother
  obtain ⟨hmarked', hscope', hne⟩ := of_decide_eq_true hcheck'
  have hsole := (h _ _ σ Sample.world_soleDefaults hreach).swarms
  exact hne (congrArg AgentSwarm.id (hsole _ s' hs' s hs hmarked' hscope' hmarked hscope))

end Stylme
