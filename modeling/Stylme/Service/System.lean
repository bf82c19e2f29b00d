-- SUMMARY: The control plane as a system of concurrent operations, and what one step of it does to the stored calls.
import Stylme.Service.Protocol
import Stylme.Store.Effects

/-!
# The control plane

Any number of operations run over one `World`, interleaved at their store and
telephony commands. Any of them may stop for good between two commands, and the
clock moves on its own.
-/

namespace Stylme

open Conc

/-- The operations, the commands and the clock. -/
def controlPlane (platform : Platform DirectCallRequest) :
    System Op Cmd Resp Reply World Oracle Duration where
  prog := Op.prog platform
  exec := Cmd.exec
  env d w := { w with clock := w.clock + d }

namespace ControlPlane

abbrev State := Pool Op Cmd Resp Reply World

abbrev Step := Label Op Oracle Duration

/-- An operation with the oracles of its commands. -/
abbrev Request := Op × List Oracle

abbrev View := Config Op Cmd Resp World Phase

/-- Every operation starts before its first command. -/
abbrev started : Op → Phase := fun _ => .start []

abbrev view (σ : State) : View := σ.config Op.protocol started

variable {platform : Platform DirectCallRequest} {ok : State → Step → Prop} {s₀ : World}
variable {σ₀ σ : State}

theorem conforming (h₀ : σ₀.Conforming Op.protocol started (fun _ => Op.returns))
    (h : (controlPlane platform).Reach ok σ₀ σ) :
    σ.Conforming Op.protocol started (fun _ => Op.returns) :=
  h.conforming (Op.conforms platform) h₀

theorem conforming_of_init (h : (controlPlane platform).Reach ok (Pool.init s₀) σ) :
    σ.Conforming Op.protocol started (fun _ => Op.returns) :=
  conforming .init h

/-- Nothing moved but the clock: threads are where they were, started or stopped. -/
structure Idle (cfg cfg' : View) : Prop where
  view : ∀ {t op l b}, cfg'.view t = some ⟨op, l, b⟩ →
    l = .start [] ∨ ∃ b', cfg.view t = some ⟨op, l, b'⟩
  log : cfg'.log = cfg.log
  shared : ∃ clock, cfg'.shared = { cfg.shared with clock := clock }

theorem Idle.update {cfg : View} {t : ℕ} {op : Op} {l : Phase} {b : Bool}
    (ht : l = .start [] ∨ ∃ b', cfg.view t = some ⟨op, l, b'⟩) :
    Idle cfg { cfg with view := Function.update cfg.view t (some ⟨op, l, b⟩) } := by
  refine ⟨fun {u op' l' b'} hu => ?_, rfl, _, rfl⟩
  rcases View.of_update hu with ⟨rfl, rfl, rfl, -⟩ | ⟨hut, hv⟩
  · exact ht
  · exact .inr ⟨b', by simpa only [Function.update_of_ne hut] using hv⟩

/-- A property of the view that holds at the start, that idling keeps and that
every command keeps, holds in every reachable pool. -/
theorem invariant {I : View → Prop}
    (h₀ : σ₀.Conforming Op.protocol started (fun _ => Op.returns)) (hinit : I (view σ₀))
    (hidle : ∀ cfg cfg', I cfg → Idle cfg cfg' → I cfg')
    (hexec : ∀ ρ t o op l cmd r w, (controlPlane platform).Reach ok σ₀ ρ → ok ρ (.exec t o) →
      I (view ρ) → ρ.next t = some (op, cmd) → (view ρ).view t = some ⟨op, l, true⟩ →
      op.permits l cmd → cmd.exec o ρ.shared = some (r, w) →
      I ⟨w, Function.update (view ρ).view t (some ⟨op, op.next l cmd r, true⟩), ⟨t, cmd, r, w⟩ :: ρ.log⟩)
    (h : (controlPlane platform).Reach ok σ₀ σ) : I (view σ) := by
  refine h.invariant (Op.conforms platform) h₀ hinit ?_
  intro ρ l cfg hreach hok hI hstep
  cases hstep with
  | spawn ht => exact hidle _ _ hI (.update (.inl rfl))
  | @exec t o op ph cmd r w hnext ht hpermits hexec' =>
    exact hexec ρ t o op ph cmd r w hreach hok hI hnext ht hpermits hexec'
  | @crash t op ph b ht => exact hidle _ _ hI (.update (.inr ⟨b, ht⟩))
  | env => exact hidle _ _ hI ⟨fun hu => .inr ⟨_, hu⟩, rfl, _, rfl⟩

end ControlPlane

/-! ## A small control plane -/

namespace Sample

def clockUTC : Location := ⟨fun _ => ⟨0, 0, 0⟩⟩

def platform : Platform DirectCallRequest where
  loadLocation _ := some clockUTC
  marshalSize _ := some 0

def agent : Agent where
  id := "agent_1"
  key := "stylist"
  channels := ["voice"]
  direction := "outbound"
  system := "Help the caller."
  tools := [{ key := "handoff", enabled := true }]
  capture := ⟨[]⟩

def condition : TransitionCondition := ⟨"intent", "truthy", .null⟩

/-- Two nodes and the edge from the first to the second. -/
def graph : SwarmGraph where
  entryNodeKey := "triage"
  nodes := [⟨"triage", "agent_1"⟩, ⟨"orders", "agent_1"⟩]
  edges := [⟨"triage", "orders", 10, condition, ""⟩]

def swarm : AgentSwarm where
  id := "swarm_1"
  key := "outbound"
  name := "Outbound"
  channels := ["voice"]
  directions := ["outbound", "inbound"]
  status := "active"
  isDefault := true
  revision := 1
  graph := graph
  telephony := { phoneNumber := "+911234567890", outboundTrunkID := "trunk_1" }
  metadata := some []
  createdBy := ""
  updatedBy := ""
  createdAt := 0
  updatedAt := 0

def campaign : Campaign where
  id := "campaign_1"
  name := "Launch"
  kind := "custom"
  swarmID := "swarm_1"
  entryNodeKey := "triage"
  status := "running"
  direction := "outbound"
  fromNumber := "+911234567890"
  callingWindow := ⟨"UTC", "00:00", "23:59"⟩
  maxAttempts := 1
  maxConcurrency := 1
  callsPerSecond := 1
  language := "en-IN"
  instructions := ⟨"Tell the customer about the launch.", "", ""⟩
  capture := ⟨[]⟩
  counts := some []
  metadata := some []
  createdBy := ""
  updatedBy := ""
  createdAt := 0
  updatedAt := 0

/-- One agent, one swarm and one campaign over a working gateway, and no calls. -/
def world : World where
  clock := 0
  gateway := .sip
  agents := ⟨[agent], by decide, by decide⟩
  swarms := ⟨[swarm], by decide, by decide⟩
  campaigns := ⟨[campaign], by decide +kernel, by decide +kernel⟩
  calls := ∅
  issued := []

def request : DirectCallRequest :=
  { swarmID := "swarm_1", toNumber := "+919876543210", idempotencyKey := "order-7" }

def target : CampaignTarget := ⟨"customer-1", "+919876543210", none, none, none⟩

/-- Schedule a call of the campaign, none of the commands going wrong. -/
def scheduleOne : ControlPlane.Request :=
  (.scheduleCampaign "campaign_1" [target] "", [{}, {}, {}, { random := "a" }, {}, {}])

/-- `n` commands of thread `t` in a row, none of them going wrong. -/
def execs (t n : ℕ) : List ControlPlane.Step := List.replicate n (.exec t {})

/-- Two calls of a campaign with room for one, and two dispatchers: the first
dials its call, the second finds that call in flight and is about to defer its own. -/
def gateRun : List ControlPlane.Step :=
  [.spawn 0 (.scheduleCampaign "campaign_1" [target, { target with externalID := "customer-2" }] "")] ++
    execs 0 3 ++ [.exec 0 { random := "a" }, .exec 0 { random := "b" }] ++ execs 0 2 ++
    [.spawn 1 .dispatchOne, .spawn 2 .dispatchOne] ++ execs 1 6 ++ execs 2 5

end Sample

end Stylme
