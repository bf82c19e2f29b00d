-- SUMMARY: Inbound requests for one room all answer with one call, unless one of them creates the call between another's look-up and its create.
import Stylme.Service.Copies

/-!
# Inbound calls of one room

`CreateInboundCall` looks the room up and creates a call when it finds none. The
unique index stops a second create, and the loser of the race answers with the
duplicate key instead of the call that won, unlike `TriggerCall`.

What a request has learnt is finer here than in the common protocol: an error is
only excluded when every answer it got is accounted for.
-/

namespace Stylme

open Conc

/-- The request is for a room, and its swarm exists and has an entry agent. -/
def InboundRequest.valid (request : InboundRequest) (w : World) : Bool :=
  request.room ≠ "" ∧ (w.swarms.get request.swarmID).any fun swarm =>
    (swarm.graph.graphAgentID swarm.graph.entryNodeKey).isOk

/-! ## The protocol of a request -/

/-- What a request has learnt so far. -/
inductive InboundPhase where
  | start
  | resolved (swarm : AgentSwarm)
  /-- The room had no call when it was looked up. -/
  | absent (swarm : AgentSwarm)
  | answered (call : Call)
  | refused

namespace InboundPhase

def permits (request : InboundRequest) : InboundPhase → Cmd → Prop
  | start, .getSwarm id => id = request.swarmID
  | resolved _, .getCallByRoom room => room = request.room
  | absent _, .now | absent _, .randomID _ => True
  | absent swarm, .saveCall x => ∃ agentID id now,
    x = inboundCall swarm request.room request.fromNumber request.toNumber request.contextData
      request.metadata agentID id now
  | _, _ => False

def next : InboundPhase → (c : Cmd) → Resp c → InboundPhase
  | start, .getSwarm _, .ok swarm => resolved swarm
  | start, .getSwarm _, .error _ => refused
  | resolved _, .getCallByRoom _, .ok call => answered call
  | resolved swarm, .getCallByRoom _, .error .notFound => absent swarm
  | resolved _, .getCallByRoom _, .error _ => refused
  | absent _, .saveCall x, .ok () => answered x
  | absent _, .saveCall _, .error _ => refused
  | l, _, _ => l

/-- A request answers with the call of its phase; it fails when it was refused
or is itself at fault. -/
def returns (request : InboundRequest) (l : InboundPhase) : Reply → Prop
  | .call (.ok c) => l = answered c
  | .call (.error _) => l = refused ∨ request.room = "" ∨
    ∃ swarm, l = absent swarm ∧ ¬ (swarm.graph.graphAgentID swarm.graph.entryNodeKey).isOk
  | _ => False

end InboundPhase

/-- Only inbound requests are watched. -/
def Op.inboundProtocol : Op → Protocol Cmd Resp InboundPhase
  | createInboundCall request => ⟨InboundPhase.permits request, InboundPhase.next⟩
  | _ => .free

def Op.inboundReturns : Op → InboundPhase → Reply → Prop
  | createInboundCall request => InboundPhase.returns request
  | _ => fun _ _ => True

theorem createInboundCall_inboundConforms {request : InboundRequest} :
    Prog.Conforms (Op.createInboundCall request).inboundProtocol
      (fun l r => InboundPhase.returns request l (.call r)) .start (createInboundCall request) := by
  refine .call rfl fun r => ?_
  cases r with
  | error e => exact .pure (.inl rfl)
  | ok swarm =>
    dsimp only
    split
    · rename_i hroom
      exact .pure (.inr (.inl hroom))
    refine .call rfl fun r => ?_
    cases r with
    | ok existing => exact .pure rfl
    | error e =>
      cases e with
      | notFound =>
        refine .call trivial fun now => ?_
        split
        · rename_i e hagent
          exact .pure (.inr (.inr ⟨swarm, rfl, by rw [hagent]; exact Bool.false_ne_true⟩))
        rename_i agentID hagent
        refine .call trivial fun id => .call ⟨agentID, id, now, rfl⟩ fun r => ?_
        cases r with
        | error e => exact .pure (.inl rfl)
        | ok u => exact .pure rfl
      | duplicateKey => exact .pure (.inl rfl)
      | unavailable m => exact .pure (.inl rfl)
      | message m => exact .pure (.inl rfl)
      | wrapped m e => exact .pure (.inl rfl)

theorem Op.inboundConforms (platform : Platform DirectCallRequest) (op : Op) :
    Prog.Conforms op.inboundProtocol op.inboundReturns .start (op.prog platform) := by
  cases op with
  | createInboundCall request => exact createInboundCall_inboundConforms.bind fun _ _ h => .pure h
  | _ => exact .free

/-! ## The requests of one room -/

/-- What the phase of a request says about the world. -/
def InboundPhase.Sound (request : InboundRequest) (w : World) : InboundPhase → Prop
  | start => True
  | resolved swarm => w.swarms.get request.swarmID = some swarm
  | absent swarm => w.swarms.get request.swarmID = some swarm ∧
    ∀ c ∈ w.calls, c.inRoom request.room → c.idempotencyKey = "inbound:" ++ request.room
  | answered c => c ∈ w.calls ∧ c.inRoom request.room
  | refused => False

/-- At most one call is in the room. -/
def World.Single (w : World) (room : String) : Prop :=
  ∀ c ∈ w.calls, ∀ c' ∈ w.calls, c.inRoom room → c'.inRoom room → c = c'

/-- The swarms and the calls are as before, but for calls created for the room. -/
structure World.Admits (room : String) (w w' : World) : Prop where
  swarms : w'.swarms = w.swarms
  kept : ∀ c ∈ w.calls, c ∈ w'.calls
  new : ∀ c ∈ w'.calls, c ∈ w.calls ∨ c.idempotencyKey = "inbound:" ++ room

theorem World.Admits.of_calls {room : String} {w w' : World} (hswarms : w'.swarms = w.swarms)
    (hcalls : w'.calls = w.calls) : w.Admits room w' :=
  ⟨hswarms, fun _ hc => hcalls ▸ hc, fun _ hc => .inl (hcalls ▸ hc)⟩

theorem InboundPhase.Sound.mono {request : InboundRequest} {w w' : World} {l : InboundPhase}
    (h : l.Sound request w) (hw : w.Admits request.room w') : l.Sound request w' := by
  cases l with
  | start => trivial
  | resolved swarm =>
    change w'.swarms.get request.swarmID = some swarm
    rw [hw.swarms]
    exact h
  | absent swarm =>
    refine ⟨by rw [hw.swarms]; exact h.1, fun c hc hroom => ?_⟩
    rcases hw.new c hc with hold | hkey
    · exact h.2 c hold hroom
    · exact hkey
  | answered c => exact ⟨hw.kept c h.1, h.2⟩
  | refused => exact h

section Exec

variable {request : InboundRequest} {l : InboundPhase} {cmd : Cmd} {r : Resp cmd} {o : Oracle}
variable {w w' : World}

/-- A call is created under an identifier and a key that no stored call has. -/
def Cmd.createsNew (w : World) : Cmd → Prop
  | .saveCall x => ∀ d ∈ w.calls, d.id ≠ x.id ∧ d.idempotencyKey ≠ x.idempotencyKey
  | _ => True

/-- A reliable command of a valid request leads to a sound phase, and to at most
one call in the room. -/
theorem InboundPhase.Sound.exec (h : l.Sound request w) (hvalid : request.valid w)
    (hsingle : w.Single request.room) (ho : o.fault = .none) (hpermits : l.permits request cmd)
    (hnew : cmd.createsNew w) (hexec : cmd.exec o w = some (r, w')) :
    w.Admits request.room w' ∧ w'.Single request.room ∧ (l.next cmd r).Sound request w' := by
  cases l with
  | start =>
    cases cmd with
    | getSwarm id =>
      obtain rfl := hpermits
      obtain ⟨rfl, -⟩ := answer_some hexec
      refine ⟨.of_calls rfl rfl, hsingle, ?_⟩
      simp only [InboundRequest.valid, Option.any_eq_true, decide_eq_true_eq] at hvalid
      obtain ⟨-, swarm, hswarm, -⟩ := hvalid
      rw [answer_reliable ho hexec, hswarm]
      exact hswarm
    | _ => exact hpermits.elim
  | resolved swarm =>
    cases cmd with
    | getCallByRoom room =>
      obtain rfl := hpermits
      obtain ⟨rfl, hr⟩ := answer_some hexec
      refine ⟨.of_calls rfl rfl, hsingle, ?_⟩
      cases r with
      | ok c => exact exec_getCallByRoom hexec
      | error e =>
        have hfound := answer_reliable ho hexec
        cases hfind : findOneSorted (fun _ _ => true) o.pick
            (w'.calls.docs.filter (·.inRoom request.room)) with
        | some c => rw [hfind] at hfound; cases hfound
        | none =>
          rw [hfind] at hfound
          cases hfound
          have hnone := exec_getCallByRoom_notFound ho hexec
          exact ⟨h, fun c hc hroom => absurd hroom (hnone c hc)⟩
    | _ => exact hpermits.elim
  | absent swarm =>
    cases cmd with
    | now =>
      simp only [Cmd.exec, Option.some.injEq, Prod.mk.injEq] at hexec
      obtain ⟨-, rfl⟩ := hexec
      exact ⟨.of_calls rfl rfl, hsingle, h⟩
    | randomID kind =>
      obtain ⟨-, -, rfl⟩ := exec_randomID hexec
      exact ⟨.of_calls rfl rfl, hsingle, h⟩
    | saveCall x =>
      obtain ⟨agentID, id, now, hx⟩ := hpermits
      have hkey : x.idempotencyKey = "inbound:" ++ request.room := by rw [hx]; rfl
      have hroom : x.inRoom request.room := by rw [hx]; simp [inboundCall, Call.inRoom]
      obtain ⟨calls, hcalls⟩ : ∃ calls, w.calls.replaceOne x = some calls := by
        refine Option.ne_none_iff_exists'.1 fun hnone => ?_
        obtain ⟨d, hd, -, hdkey⟩ := Collection.replaceOne_eq_none_iff.1 hnone
        exact (hnew d hd).2 hdkey
      obtain rfl := exec_saveCall_applied (by rw [ho]; exact Bool.false_ne_true) hcalls hexec
      have hx' : x ∈ calls := Collection.self_mem_replaceOne hcalls
      have hold : ∀ {c}, c ∈ calls → c.inRoom request.room → c = x := by
        intro c hc hcroom
        rcases (Collection.mem_replaceOne hcalls).1 hc with rfl | ⟨hc, -⟩
        · rfl
        · exact absurd ((h.2 c hc hcroom).trans hkey.symm) (hnew c hc).2
      refine ⟨⟨rfl, fun c hc => ?_, fun c hc => ?_⟩, fun c hc c' hc' hcroom hcroom' => ?_, ?_⟩
      · exact (Collection.mem_replaceOne hcalls).2 (.inr ⟨hc, (hnew c hc).1⟩)
      · rcases (Collection.mem_replaceOne hcalls).1 hc with rfl | ⟨hc, -⟩
        · exact .inr hkey
        · exact .inl hc
      · exact (hold hc hcroom).trans (hold hc' hcroom').symm
      · cases r with
        | ok u => exact ⟨hx', hroom⟩
        | error e =>
          have hsame := exec_saveCall_error (.inl (by rw [ho]; exact Bool.false_ne_true)) hexec
          exact absurd rfl (hnew x (congrArg World.calls hsame ▸ hx')).1
    | _ => exact hpermits.elim
  | answered c => exact hpermits.elim
  | refused => exact hpermits.elim

end Exec

namespace ControlPlane

/-- A step of valid inbound requests for one room over a reliable store. -/
def inbound (room : String) (σ : State) : Step → Bool
  | .spawn _ (.createInboundCall request) => request.room = room ∧ request.valid σ.shared
  | .spawn _ _ => false
  | .exec _ o =>
    match o.fault with
    | .none => true
    | _ => false
  | _ => true

/-- No call is stored under the key of a call that is about to be written. -/
def createsFirst (σ : State) : Step → Bool
  | .exec t _ =>
    match σ.next t with
    | some (_, .saveCall x) => σ.shared.calls.docs.all (·.idempotencyKey ≠ x.idempotencyKey)
    | _ => true
  | _ => true

/-- Everyone who has answered has answered with the same call. -/
def answersAlike (σ : State) : Prop :=
  ∀ t t' op op' r r', σ.result t = some (op, r) → σ.result t' = some (op', r') →
    ∃ c, r = .call (.ok c) ∧ r' = .call (.ok c)

abbrev inboundView (σ : State) : Config Op Cmd Resp World InboundPhase :=
  σ.config Op.inboundProtocol fun _ => .start

/-- Every thread is a valid request for the room in a sound phase, and the room
has at most one call. -/
structure Answering (room : String) (cfg : Config Op Cmd Resp World InboundPhase) : Prop where
  single : cfg.shared.Single room
  sound : ∀ {t op l b}, cfg.view t = some ⟨op, l, b⟩ → ∃ request, op = .createInboundCall request ∧
    request.room = room ∧ request.valid cfg.shared ∧ l.Sound request cfg.shared

variable {platform : Platform DirectCallRequest} {s₀ : World} {σ : State} {room : String}

theorem Answering.update {cfg : Config Op Cmd Resp World InboundPhase} (h : Answering room cfg)
    {w : World} {log : List (Entry Cmd Resp World)} {t : ℕ} {request : InboundRequest}
    {l : InboundPhase} {b : Bool} (hw : cfg.shared.Admits room w) (hsingle : w.Single room)
    (hroom : request.room = room) (hvalid : request.valid cfg.shared) (hl : l.Sound request w) :
    Answering room ⟨w, Function.update cfg.view t (some ⟨.createInboundCall request, l, b⟩), log⟩ := by
  have hvalid' : ∀ {request : InboundRequest}, request.valid cfg.shared → request.valid w := by
    intro request hv
    simpa only [InboundRequest.valid, hw.swarms] using hv
  refine ⟨hsingle, fun {u op' l' b'} hu => ?_⟩
  rcases View.of_update hu with ⟨rfl, rfl, rfl, -⟩ | ⟨hut, hv⟩
  · exact ⟨request, rfl, hroom, hvalid' hvalid, hl⟩
  · obtain ⟨request', rfl, rfl, hv, hl'⟩ := h.sound hv
    exact ⟨request', rfl, rfl, hvalid' hv, hl'.mono hw⟩

theorem createsNew_of_reach {ok : State → Step → Prop}
    (h : (controlPlane platform).Reach ok (Pool.init s₀) σ) {t : ℕ} {o : Oracle} {op : Op} {cmd : Cmd}
    (hfirst : createsFirst σ (.exec t o)) (hnext : σ.next t = some (op, cmd)) :
    cmd.createsNew σ.shared := by
  cases cmd with
  | saveCall x =>
    simp only [createsFirst, hnext, List.all_eq_true, decide_eq_true_eq] at hfirst
    obtain ⟨l, hl, hpermits⟩ := (conforming_of_init h).permits hnext
    intro d hd
    refine ⟨?_, hfirst d hd⟩
    rcases Op.permits_saveCall hpermits with ⟨c, hc, hxc⟩ | ⟨ids, rfl, hid⟩
    · obtain ⟨d₀, hd₀, hcd⟩ := (synced h).copies hl hc
      exact absurd (hxc.trans hcd).idempotencyKey.symm (hfirst d₀ hd₀)
    · exact ((synced h).fresh hl _ hid).2 d hd
  | _ => trivial

theorem answering (h₀ : s₀.Single room)
    (h : (controlPlane platform).Reach (fun σ l => inbound room σ l && createsFirst σ l)
      (Pool.init s₀) σ) : Answering room (inboundView σ) := by
  refine h.invariant (Op.inboundConforms platform) .init ⟨h₀, nofun⟩ ?_
  intro ρ l cfg hreach hok hI hstep
  obtain ⟨hin, hfirst⟩ := (Bool.and_eq_true _ _).mp hok
  cases hstep with
  | @spawn t op ht =>
    cases op with
    | createInboundCall request =>
      obtain ⟨hroom, hvalid⟩ := of_decide_eq_true hin
      exact hI.update (.of_calls rfl rfl) hI.single hroom hvalid trivial
    | _ => exact absurd hin Bool.false_ne_true
  | @exec t o op ph cmd r w hnext ht hpermits hexec =>
    obtain ⟨request, rfl, rfl, hvalid, hsound⟩ := hI.sound ht
    have ho : o.fault = .none := by
      simp only [inbound] at hin
      split at hin
      · assumption
      · cases hin
    obtain ⟨hw, hsingle, hl⟩ := hsound.exec hvalid hI.single ho hpermits
      (createsNew_of_reach hreach hfirst hnext) hexec
    exact hI.update hw hsingle rfl hvalid hl
  | @crash t op ph b ht =>
    obtain ⟨request, rfl, hroom, hvalid, hsound⟩ := hI.sound ht
    exact hI.update (.of_calls rfl rfl) hI.single hroom hvalid hsound
  | env =>
    refine ⟨hI.single, fun hu => ?_⟩
    obtain ⟨request, rfl, hroom, hvalid, hsound⟩ := hI.sound hu
    exact ⟨request, rfl, hroom, hvalid, hsound.mono (.of_calls rfl rfl)⟩

/-- When every call is created before anyone else has created one, all requests
for the room succeed with one call. -/
theorem answersAlike_of_createsFirst (h₀ : s₀.Single room)
    (h : (controlPlane platform).Reach (fun σ l => inbound room σ l && createsFirst σ l)
      (Pool.init s₀) σ) : answersAlike σ := by
  have hanswering := answering h₀ h
  have hanswer : ∀ t op r, σ.result t = some (op, r) →
      ∃ c, r = .call (.ok c) ∧ c ∈ σ.shared.calls ∧ c.inRoom room := by
    intro t op r hres
    obtain ⟨l, b, ht, hreturns⟩ := (h.conforming (Op.inboundConforms platform) .init).result hres
    obtain ⟨request, rfl, rfl, hvalid, hsound⟩ := hanswering.sound ht
    simp only [InboundRequest.valid, Option.any_eq_true, decide_eq_true_eq] at hvalid
    obtain ⟨hroom, swarm, hswarm, hagent⟩ := hvalid
    cases r with
    | call r =>
      cases r with
      | ok c =>
        obtain rfl := hreturns
        exact ⟨c, rfl, hsound.1, hsound.2⟩
      | error e =>
        exfalso
        rcases hreturns with rfl | hempty | ⟨swarm', rfl, hnone⟩
        · exact hsound
        · exact hroom hempty
        · rw [hsound.1, Option.some.injEq] at hswarm
          exact hnone (hswarm ▸ hagent)
    | _ => exact hreturns.elim
  intro t t' op op' r r' hres hres'
  obtain ⟨c, rfl, hc, hcroom⟩ := hanswer t op r hres
  obtain ⟨c', rfl, hc', hcroom'⟩ := hanswer t' op' r' hres'
  exact ⟨c, rfl, by rw [hanswering.single c hc c' hc' hcroom hcroom']⟩

end ControlPlane

namespace Sample

def inboundRequest : InboundRequest where
  swarmID := "swarm_1"
  room := "room-1"
  fromNumber := "+919876543210"
  toNumber := "+911234567890"
  contextData := none
  metadata := none

/-- A second request for the room after the first has created its call. -/
def queuedRequests : List ControlPlane.Step :=
  [.spawn 0 (.createInboundCall inboundRequest)] ++ execs 0 3 ++ [.exec 0 { random := "a" }] ++
    execs 0 1 ++ [.spawn 1 (.createInboundCall inboundRequest)] ++ execs 1 2

/-- These requests are both answered. -/
def answeredRequests : {steps : List ControlPlane.Step // ((controlPlane platform).runWhere
    (fun σ l => ControlPlane.inbound "room-1" σ l && ControlPlane.createsFirst σ l) steps
    (Pool.init world)).any fun σ => (σ.result 0).isSome && (σ.result 1).isSome} :=
  ⟨queuedRequests, by decide +kernel⟩

/-- Two requests for the room that both look up before either creates its call. -/
def racingRequests : List ControlPlane.Step :=
  [.spawn 0 (.createInboundCall inboundRequest), .spawn 1 (.createInboundCall inboundRequest)] ++
    execs 0 3 ++ execs 1 3 ++ [.exec 0 { random := "a" }, .exec 1 { random := "b" }] ++
    execs 0 1 ++ execs 1 1

/-- The second request has failed on the first one's call. -/
def losesRace (σ : ControlPlane.State) : Bool :=
  match σ.result 1 with
  | some (_, .call (.error .duplicateKey)) => true
  | _ => false

end Sample

namespace ControlPlane

theorem answersAlike_of_createsFirst_queued :
    ∃ (σ : State) (op op' : Op) (c : Call),
      (controlPlane Sample.platform).Reach
        (fun σ l => inbound "room-1" σ l && createsFirst σ l) (Pool.init Sample.world) σ ∧
      σ.result 0 = some (op, .call (.ok c)) ∧ σ.result 1 = some (op', .call (.ok c)) := by
  obtain ⟨σ, hσ, hσr⟩ := System.Reach.exists_of_any Sample.answeredRequests.2
  simp only [Bool.and_eq_true, Option.isSome_iff_exists] at hσr
  obtain ⟨⟨⟨op, r⟩, hr⟩, ⟨op', r'⟩, hr'⟩ := hσr
  have hsingle : Sample.world.Single "room-1" := fun c hc => absurd hc Collection.not_mem_empty
  obtain ⟨c, rfl, rfl⟩ := answersAlike_of_createsFirst hsingle hσ 0 1 op op' r r' hr hr'
  exact ⟨σ, op, op', c, hσ, hr, hr'⟩

/-- The loser of a race between two requests for one room fails. -/
theorem not_answersAlike :
    ¬ ∀ (s₀ : World) (σ : State) (room : String), s₀.Single room →
      (controlPlane Sample.platform).Reach (fun σ l => inbound room σ l) (Pool.init s₀) σ →
      answersAlike σ := by
  intro h
  have hrun : ((controlPlane Sample.platform).runWhere (fun σ l => inbound "room-1" σ l)
      Sample.racingRequests (Pool.init Sample.world)).any Sample.losesRace := by
    decide +kernel
  obtain ⟨σ, hσ, hσr⟩ := System.Reach.exists_of_any hrun
  have hsingle : Sample.world.Single "room-1" := fun c hc => absurd hc Collection.not_mem_empty
  unfold Sample.losesRace at hσr
  split at hσr
  · rename_i op hres
    obtain ⟨c, hc, -⟩ := h _ σ "room-1" hsingle hσ 1 1 op op _ _ hres hres
    cases hc
  · cases hσr

end ControlPlane

end Stylme
