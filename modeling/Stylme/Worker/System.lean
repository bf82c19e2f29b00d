-- SUMMARY: The voice worker and the control plane as two parties: requests under way, answers that arrive or do not, and what one step does.
import Stylme.Lib.Machine
import Stylme.Service.Copies
import Stylme.Worker.Session

/-!
# A voice session and its control plane

The worker sends handoffs and, at its end, one completion. Each request is an
operation of the control plane, which works on it command by command while the
worker may already have given it up; the answer arrives or is lost.
-/

namespace Stylme

open Conc Backend

namespace Worker

/-! ## The two parties -/

structure State where
  voice : VoiceState
  control : ControlPlane.State
  /-- The handoffs the worker waits for, by the number of their request. -/
  awaited : List (ℕ × SwarmEdge)
  /-- How many warm transfers wait for a human. -/
  transfers : ℕ
  /-- The number of the completion request. -/
  completion : Option ℕ
  /-- The operations whose write of the call has taken effect, newest first; no step
  depends on it. -/
  recorded : List (ℕ × Op)

def State.init (voice : VoiceState) (w : World) : State :=
  ⟨voice, Pool.init w, [], 0, none, []⟩

inductive Label where
  | tool (tool : Tool)
  /-- The language model calls the handoff tool; `t` numbers the request it sends. -/
  | handoff (t : ℕ) (reason route : String)
  /-- The answer to a handoff arrives. -/
  | deliver (t : ℕ)
  /-- The worker runs into its time limit, or the answer to the handoff is lost. -/
  | giveUp (t : ℕ)
  /-- The session ends. -/
  | finish (t : ℕ)
  | control (step : ControlPlane.Step)

/-- The session goes on. -/
def Label.ongoing : Label → Bool
  | .finish _ => false
  | _ => true

/-- Only a transfer that was started ends. -/
def Tool.transfers : Tool → ℕ → Option ℕ
  | .warmTransfer _, n => some (n + 1)
  | .warmTransferred _, 0 => none
  | .warmTransferred _, n + 1 => some n
  | _, n => some n

/-- The control plane answers with the call, and no error status. -/
def accepted : Reply → Bool
  | .call (.ok _) => true
  | _ => false

namespace State

variable (σ : State)

def stored : Option Call := σ.control.shared.calls.get σ.voice.callID

/-- The worker no longer waits for a request. -/
def settle (t : ℕ) : List (ℕ × SwarmEdge) := σ.awaited.filter (·.1 ≠ t)

/-- The record after a step of the control plane. -/
def record : ControlPlane.Step → List (ℕ × Op)
  | .exec t o =>
    match σ.control.next t with
    | some (op, .saveCall x) =>
      if σ.control.shared.applies o x then (t, op) :: σ.recorded else σ.recorded
    | _ => σ.recorded
  | _ => σ.recorded

end State

section Step

variable (lib : Library) (platform : Platform DirectCallRequest)

/-- Send a request to the control plane. -/
def send (σ : State) (t : ℕ) (op : Op) : Option ControlPlane.State :=
  (controlPlane platform).step σ.control (.spawn t op)

def step (σ : State) : Label → Option State
  | .tool tool =>
    if σ.completion.isSome then none
    else (tool.transfers σ.transfers).map fun n =>
      { σ with voice := tool.apply lib σ.voice, transfers := n }
  | .handoff t reason route =>
    if σ.completion.isSome then none
    else
      match prepareHandoff lib σ.voice reason route with
      | (.ok (some edge), voice) =>
        (send platform σ t (.recordHandoff (voice.handoffRequest edge reason))).map fun control =>
          { σ with voice, control, awaited := (t, edge) :: σ.awaited }
      | (_, voice) => some { σ with voice }
  | .deliver t =>
    if σ.completion.isSome then none
    else
      match σ.awaited.lookup t, σ.control.result t with
      | some edge, some (_, reply) =>
        if accepted reply then
          some { σ with voice := σ.voice.handedOff edge, awaited := σ.settle t }
        else some { σ with awaited := σ.settle t } -- the tool raises
      | _, _ => none
  | .giveUp t => some { σ with awaited := σ.settle t }
  | .finish t =>
    if σ.completion.isSome then none
    else (send platform σ t (.completeCall σ.voice.completeRequest)).map fun control =>
      { σ with control, completion := some t }
  | .control (.spawn _ _) => none
  | .control l =>
    ((controlPlane platform).step σ.control l).map fun control =>
      { σ with control, recorded := σ.record l }

def session : Machine State Label := ⟨step lib platform⟩

end Step

/-- A session is started for a call that the control plane has stored. -/
structure Starts (swarmID : String) (w : World) (call : Call) (voice : VoiceState) : Prop where
  stored : w.calls.get voice.callID = some call
  callID_ne : voice.callID ≠ ""
  config : ∃ os payload w', Prog.run Cmd.exec (runtimeConfig swarmID voice.callID) os w =
    some (.ok payload, w') ∧ startSession voice.callID payload = .ok voice

/-! ## The start -/

theorem runtimeAgents_wp {nodes : List SwarmNode} {w : World} :
    Prog.wp Cmd.exec (fun _ w' => w' = w) (runtimeAgents nodes) w := by
  induction nodes with
  | nil => exact rfl
  | cons node nodes ih =>
    refine Prog.wp_call_bind.2 fun o r w₁ hexec => ?_
    obtain ⟨rfl, -⟩ := answer_some hexec
    cases r with
    | error e => exact rfl
    | ok agent =>
      apply Prog.wp_bind.2
      refine Prog.wp_mono (fun r w₂ h => ?_) ih
      cases r with
      | error e => exact h
      | ok agents => exact h

theorem runtimePayload_wp {swarm : AgentSwarm} {call : Option Call} {w : World} :
    Prog.wp Cmd.exec (fun r _ => ∀ payload, r = .ok payload → payload.swarm = swarm)
      (runtimePayload swarm call) w := by
  apply Prog.wp_bind.2
  refine Prog.wp_mono (fun r w₁ h => ?_) runtimeAgents_wp
  cases r with
  | error e => exact fun payload hp => by cases hp
  | ok agents => exact fun payload hp => by obtain rfl := Except.ok.inj hp; rfl

/-- A worker of a call gets the graph of the call. -/
theorem runtimeConfig_wp {swarmID callID : String} {w : World} (hid : callID ≠ "") :
    Prog.wp Cmd.exec (fun r _ => ∀ payload, r = .ok payload → ∃ call, w.calls.get callID = some call ∧
      payload.swarm.graph = call.graphSnapshot) (runtimeConfig swarmID callID) w := by
  refine Prog.wp_call_bind.2 fun o r w₁ hexec => ?_
  obtain ⟨rfl, -⟩ := answer_some hexec
  cases r with
  | error e => exact fun payload hp => by cases hp
  | ok swarm =>
    dsimp only
    rw [if_neg hid]
    refine Prog.wp_call_bind.2 fun o r w₁ hexec => ?_
    cases r with
    | error e => exact fun payload hp => by cases hp
    | ok call =>
      have hget := Collection.get_eq_some_iff.2 (exec_getCall hexec)
      dsimp only
      split
      · exact fun payload hp => by cases hp
      · refine Prog.wp_mono (fun r w₂ h payload hp => ⟨call, hget, ?_⟩) runtimePayload_wp
        rw [h payload hp]

namespace Starts

variable {swarmID : String} {w : World} {call : Call} {voice : VoiceState}

/-- The worker starts at the entry node of the call's graph, which it has checked. -/
theorem spec (h : Starts swarmID w call voice) :
    voice.runtime.graph = call.graphSnapshot.fromDict ∧
      voice.currentNodeKey = call.graphSnapshot.entryNodeKey ∧ voice.captured = [] ∧
      voice.runtime.graph.graphIsAcyclic := by
  obtain ⟨os, payload, w', hrun, hstart⟩ := h.config
  have hwp := Prog.wp_sound (runtimeConfig_wp h.callID_ne) hrun
  obtain ⟨c, hc, hgraph⟩ := hwp payload rfl
  obtain rfl := Option.some.inj (hc.symm.trans h.stored)
  unfold startSession at hstart
  simp only at hstart
  split at hstart
  · rename_i hacyclic
    cases hagent : (RuntimeConfig.fromPayload payload).agentForNode
        (RuntimeConfig.fromPayload payload).graph.entryNodeKey with
    | error e =>
      rw [hagent] at hstart
      cases hstart
    | ok agent =>
      rw [hagent] at hstart
      obtain hvoice := (Except.ok.inj hstart).symm
      have hconfig : (RuntimeConfig.fromPayload payload).graph = c.graphSnapshot.fromDict := by
        rw [RuntimeConfig.fromPayload, hgraph]
      refine ⟨?_, ?_, ?_, ?_⟩
      · rw [hvoice]; exact hconfig
      · rw [hvoice]; exact (congrArg SwarmGraph.entryNodeKey hconfig).trans rfl
      · rw [hvoice]
      · rw [hvoice]; exact hacyclic
  · cases hstart

end Starts

end Worker

/-! ## A small session -/

namespace Sample

open Worker

def library : Worker.Library := ⟨fun s => s, fun _ => "", Char.isDigit⟩

/-- A call that a caller has answered. -/
def call : Call :=
  { request.call swarm "direct:order-7" "+911234567890" "call_1" 0 with status := .active }

def callWorld : World := { world with calls := ⟨[call], by decide +kernel, by decide +kernel⟩ }

def voice : VoiceState where
  runtime := .fromPayload ⟨swarm, [agent, agent], some call⟩
  callID := "call_1"
  currentNodeKey := "triage"

theorem starts : Starts "swarm_1" callWorld call voice where
  stored := rfl
  callID_ne := by decide
  config := by
    refine ⟨[{}, {}, {}, {}], ⟨swarm, [agent, agent], some call⟩, callWorld, rfl, ?_⟩
    have hacyclic : (RuntimeConfig.fromPayload ⟨swarm, [agent, agent], some call⟩).graph.graphIsAcyclic =
      true := by decide +kernel
    rw [startSession]
    simp only [hacyclic, if_true]
    rfl

end Sample

end Stylme
