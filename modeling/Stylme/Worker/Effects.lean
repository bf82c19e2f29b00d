-- SUMMARY: What a step of a session does to the worker, to its requests and to the stored call.
import Stylme.Worker.System

/-!
# Effects of a session's steps

The control plane serves only the requests of the session, so a command either
leaves the stored calls alone or writes the call of the session. `Steps` lists
what a step of the two parties can do, and invariants are proved against it.
-/

namespace Stylme

open Conc Backend

/-! ## Requests for one call -/

/-- The operation is a request about the call. -/
def Op.about (id : String) : Op → Prop
  | .recordHandoff request => request.callID = id
  | .completeCall request => request.callID = id
  | _ => False

/-- `x` is what a request writes back for its copy `c`. -/
def Op.Writes (op : Op) (c x : Call) : Prop :=
  (∃ request, op = .recordHandoff request ∧ request.Writes c x) ∨
    ∃ request, op = .completeCall request ∧ request.Writes c x

theorem Op.Writes.sameCall {op : Op} {c x : Call} (h : op.Writes c x) : x.SameCall c := by
  rcases h with ⟨request, -, -, -, -, fromAgentID, toAgentID, now, -, rfl⟩ |
    ⟨request, -, now, d, f, rfl⟩
  · exact ⟨rfl, rfl, rfl, rfl, rfl⟩
  · exact ⟨rfl, rfl, rfl, rfl, rfl⟩

/-- The phases a request about the call passes through. -/
def Phase.about (id : String) : Phase → Prop
  | .start _ | .settled _ | .done => True
  | .copied c => c.id = id
  | _ => False

/-- Whether a command is the write of a call and takes effect. -/
def World.records (w : World) (o : Oracle) : Cmd → Bool
  | .saveCall x => w.applies o x
  | _ => false

/-- What one command of a request does: nothing that lasts, a read of the call, or
its write. -/
inductive Served (id : String) (op : Op) (o : Oracle) (w w' : World) : Cmd → Phase → Phase → Prop where
  | stays {cmd l} (hquiet : w.records o cmd = false) (hcalls : w'.calls = w.calls) :
      Served id op o w w' cmd l l
  | draws {cmd ids ids'} (hquiet : w.records o cmd = false) (hcalls : w'.calls = w.calls) :
      Served id op o w w' cmd (.start ids) (.start ids')
  | fails {cmd c} (hquiet : w.records o cmd = false) (hcalls : w'.calls = w.calls) :
      Served id op o w w' cmd (.copied c) .done
  | read {ids c} (hcalls : w'.calls = w.calls) (hc : w.calls.get id = some c) :
      Served id op o w w' (.getCall id) (.start ids) (.copied c)
  | wrote {c x l'} (happlies : w.applies o x) (hwrites : op.Writes c x)
      (hstored : w'.calls.get id = some x) (hl : l' = .settled x ∨ (l' = .done ∧ o.fault.isUnacked)) :
      Served id op o w w' (.saveCall x) (.copied c) l'

section Served

variable {id : String} {op : Op} {l : Phase} {cmd : Cmd} {o : Oracle} {w w' : World} {r : Resp cmd}

theorem Served.of_start {ids : List String} (hop : op.about id) (hpermits : op.starts ids cmd)
    (hexec : cmd.exec o w = some (r, w')) :
    Served id op o w w' cmd (.start ids) (op.next (.start ids) cmd r) := by
  cases cmd with
  | getCall id' =>
    have hid : id' = id := by
      rcases hpermits with ⟨request, rfl, rfl⟩ | ⟨request, rfl, rfl⟩ <;> exact hop
    subst hid
    have hcalls := exec_calls rfl hexec
    cases r with
    | error e => exact .stays rfl hcalls
    | ok c => exact .read hcalls (Collection.get_eq_some_iff.2 (exec_getCall hexec))
  | randomID kind => exact .draws rfl (exec_calls rfl hexec)
  | now | getAgent | getSwarm | getDefaultSwarm | getOutboundSwarmForAgent | getCampaign =>
    exact .stays rfl (exec_calls rfl hexec)
  | saveSwarm swarm =>
    obtain ⟨value, actor, rfl, -⟩ := hpermits
    exact hop.elim
  | clearSwarmDefaults =>
    obtain ⟨value, actor, rfl⟩ := hpermits
    exact hop.elim
  | saveCampaign =>
    rcases hpermits with ⟨value, actor, rfl⟩ | ⟨id, targets, actor, rfl⟩ <;> exact hop.elim
  | insertCalls =>
    obtain ⟨⟨id, targets, actor, rfl⟩, -⟩ := hpermits
    exact hop.elim
  | getCallByIdempotencyKey =>
    obtain ⟨request, rfl, -⟩ := hpermits
    exact hop.elim
  | getCallByRoom =>
    obtain ⟨request, rfl, -⟩ := hpermits
    exact hop.elim
  | saveCall =>
    obtain ⟨-, ⟨request, swarm, key, number, now, rfl, -⟩ | ⟨request, swarm, agentID, now, rfl, -⟩⟩ :=
      hpermits
    · exact hop.elim
    · exact hop.elim
  | claimPendingCall =>
    obtain ⟨rfl, -⟩ := hpermits
    exact hop.elim
  | _ => exact hpermits.elim

theorem Served.of_copied {c : Call} (hid : c.id = id) (hpermits : op.updates c cmd)
    (hexec : cmd.exec o w = some (r, w')) :
    Served id op o w w' cmd (.copied c) (op.next (.copied c) cmd r) := by
  cases cmd with
  | now | getAgent | disposition => exact .stays rfl (exec_calls rfl hexec)
  | saveCall x =>
    have hwrites : op.Writes c x := hpermits
    have hx : x.id = id := hwrites.sameCall.id.trans hid
    cases happlies : w.applies o x with
    | true =>
      obtain ⟨hstored, hr⟩ := exec_saveCall_of_applies happlies hexec
      refine .wrote happlies hwrites (hx ▸ hstored) ?_
      rcases hr with rfl | ⟨e, rfl, hunacked⟩
      · exact .inl rfl
      · exact .inr ⟨rfl, hunacked⟩
    | false =>
      obtain ⟨rfl, e, rfl⟩ := exec_saveCall_of_not_applies (by simp [happlies]) hexec
      exact .fails happlies rfl
  | _ => exact hpermits.elim

theorem Served.of_exec (hop : op.about id) (hl : l.about id) (hpermits : op.permits l cmd)
    (hexec : cmd.exec o w = some (r, w')) :
    Served id op o w w' cmd l (op.next l cmd r) := by
  cases l with
  | start ids => exact .of_start hop hpermits hexec
  | copied c => exact .of_copied hl hpermits hexec
  | settled c =>
    cases cmd with
    | incrementCampaignCount => exact .stays rfl (exec_calls rfl hexec)
    | _ => exact hpermits.elim
  | done => exact hpermits.elim
  | _ => exact hl.elim

/-- A request about the call stays one. -/
theorem Served.about {l' : Phase} (h : Served id op o w w' cmd l l') (hl : l.about id) :
    l'.about id := by
  cases h with
  | stays hquiet hcalls => exact hl
  | draws hquiet hcalls | fails hquiet hcalls => trivial
  | read hcalls hc => exact (Collection.get_eq_some_iff.1 hc).2
  | wrote happlies hwrites hstored hl' =>
    rcases hl' with rfl | ⟨rfl, -⟩ <;> trivial

end Served

namespace Worker

/-! ## The requests of a session -/

/-- The operation and the phase of each request. -/
def requests (control : ControlPlane.State) (t : ℕ) : Option (Op × Phase) :=
  ((ControlPlane.view control).view t).map fun v => (v.op, v.phase)

theorem view_of_requests {control : ControlPlane.State} {t : ℕ} {op : Op} {l : Phase}
    (h : requests control t = some (op, l)) :
    ∃ b, (ControlPlane.view control).view t = some ⟨op, l, b⟩ := by
  obtain ⟨v, hv, heq⟩ := Option.map_eq_some_iff.1 h
  obtain ⟨rfl, rfl⟩ := Prod.mk.inj heq
  exact ⟨v.alive, hv⟩

/-- A handoff that has settled the call is accepted. -/
def answers (op : Op) (l : Phase) (reply : Reply) : Prop :=
  Op.returns l reply ∧ ∀ request x, op = .recordHandoff request → l = .settled x → accepted reply

theorem conforms_answers (platform : Platform DirectCallRequest) (op : Op) :
    Prog.Conforms op.protocol (answers op) (.start []) (op.prog platform) := by
  cases op with
  | recordHandoff request =>
    refine recordHandoff_conforms.bind fun l r h => .pure ⟨h.1, fun _ x _ hx => ?_⟩
    obtain ⟨c, rfl⟩ := h.2 ⟨x, hx⟩
    rfl
  | _ => exact (Op.conforms platform _).mono fun l r h => ⟨h, fun _ _ hop => by cases hop⟩

/-- The control plane works on requests of the session only. -/
structure Owned (σ : State) : Prop where
  conforming : σ.control.Conforming Op.protocol ControlPlane.started answers
  about : ∀ {t op l}, requests σ.control t = some (op, l) →
    op.about σ.voice.callID ∧ l.about σ.voice.callID

variable {lib : Library} {platform : Platform DirectCallRequest} {σ σ' : State} {l : Label}

theorem Owned.init {voice : VoiceState} {w : World} : Owned (.init voice w) where
  conforming := .init
  about h := by cases h

/-! ## Steps of the control plane -/

/-- The control plane has received a request. -/
structure Sent (control : ControlPlane.State) (t : ℕ) (op : Op) (control' : ControlPlane.State) :
    Prop where
  fresh : requests control t = none
  added : requests control' = Function.update (requests control) t (some (op, .start []))
  shared : control'.shared = control.shared

theorem requests_of_view {control control' : ControlPlane.State} {t : ℕ} {op : Op} {l : Phase}
    {b : Bool} (h : (ControlPlane.view control').view =
      Function.update (ControlPlane.view control).view t (some ⟨op, l, b⟩)) :
    requests control' = Function.update (requests control) t (some (op, l)) := by
  funext u
  rw [requests, h]
  by_cases hut : u = t
  · subst hut
    simp only [Function.update_self, Option.map_some]
  · simp only [Function.update_of_ne hut, requests]

theorem Sent.of_send {control : ControlPlane.State} {t : ℕ} {op : Op}
    (hconf : σ.control.Conforming Op.protocol ControlPlane.started answers)
    (h : send platform σ t op = some control) : Sent σ.control t op control := by
  have hsteps := System.steps_of_step hconf h
  have hview := congrArg Config.view
    (show ControlPlane.view control = (control.config Op.protocol ControlPlane.started) from rfl)
  generalize hcfg : control.config Op.protocol ControlPlane.started = cfg at hsteps hview
  cases hsteps with
  | spawn ht =>
    have hshared := congrArg Config.shared hcfg
    exact ⟨by rw [requests, ht]; rfl, requests_of_view hview, hshared⟩

/-! ## Steps of a session -/

/-- What a step of the two parties does. -/
inductive Steps (σ : State) : Label → State → Prop where
  | tool {tool voice n} (hrun : σ.completion = none) (hvoice : σ.voice.Stays voice) :
      Steps σ (.tool tool) { σ with voice := voice, transfers := n }
  | hold {t reason route voice} (hrun : σ.completion = none) (hvoice : σ.voice.Stays voice) :
      Steps σ (.handoff t reason route) { σ with voice := voice }
  | send {t reason route voice edge control} (hrun : σ.completion = none)
      (hvoice : σ.voice.Stays voice) (hcaptured : voice.captured ≠ [])
      (hedge : edge ∈ σ.voice.runtime.graph.edges) (hfrom : edge.fromNode = σ.voice.currentNodeKey)
      (hsent : Sent σ.control t (.recordHandoff (voice.handoffRequest edge reason)) control) :
      Steps σ (.handoff t reason route)
        { σ with voice := voice, control := control, awaited := (t, edge) :: σ.awaited }
  | moved {t edge op x} (hrun : σ.completion = none) (hedge : (t, edge) ∈ σ.awaited)
      (hsettled : requests σ.control t = some (op, .settled x)) :
      Steps σ (.deliver t) { σ with voice := σ.voice.handedOff edge, awaited := σ.settle t }
  | refused {t} (hrun : σ.completion = none)
      (hopen : ∀ request x, requests σ.control t ≠ some (.recordHandoff request, .settled x)) :
      Steps σ (.deliver t) { σ with awaited := σ.settle t }
  | gaveUp {t} : Steps σ (.giveUp t) { σ with awaited := σ.settle t }
  | finished {t control} (hrun : σ.completion = none)
      (hsent : Sent σ.control t (.completeCall σ.voice.completeRequest) control) :
      Steps σ (.finish t) { σ with control := control, completion := some t }
  | served {t o op cmd l l' control} (hnext : σ.control.next t = some (op, cmd))
      (ht : requests σ.control t = some (op, l))
      (hserved : Served σ.voice.callID op o σ.control.shared control.shared cmd l l')
      (hrequests : requests control = Function.update (requests σ.control) t (some (op, l'))) :
      Steps σ (.control (.exec t o))
        { σ with
          control := control
          recorded := if σ.control.shared.records o cmd then (t, op) :: σ.recorded else σ.recorded }
  | idle {step control} (hcalls : control.shared.calls = σ.control.shared.calls)
      (hrequests : requests control = requests σ.control) :
      Steps σ (.control step) { σ with control := control }

theorem Steps.of_control {step : ControlPlane.Step} {control : ControlPlane.State} (h : Owned σ)
    (hspawn : ∀ t op, step ≠ .spawn t op)
    (hstep : (controlPlane platform).step σ.control step = some control) :
    Steps σ (.control step) { σ with control := control, recorded := σ.record step } := by
  have hsteps := System.steps_of_step h.conforming hstep
  have hview := congrArg Config.view
    (show ControlPlane.view control = control.config Op.protocol ControlPlane.started from rfl)
  generalize hcfg : control.config Op.protocol ControlPlane.started = cfg at hsteps hview
  have hshared := congrArg Config.shared hcfg
  cases hsteps with
  | spawn ht => exact absurd rfl (hspawn _ _)
  | @exec t o op ph cmd r w hnext ht hpermits hexec =>
    have hrequest : requests σ.control t = some (op, ph) := by rw [requests, ht]; rfl
    have hserved := Served.of_exec (h.about hrequest).1 (h.about hrequest).2 hpermits hexec
    have hw : control.shared = w := hshared
    have hserved' : Served σ.voice.callID op o σ.control.shared control.shared cmd ph _ := hw ▸ hserved
    have hsteps := Steps.served hnext hrequest hserved'
      (requests_of_view hview)
    have hrecord : σ.record (.exec t o) =
        if σ.control.shared.records o cmd then (t, op) :: σ.recorded else σ.recorded := by
      simp only [State.record, hnext, World.records]
      cases cmd <;> rfl
    rw [hrecord]
    exact hsteps
  | @crash t op ph b ht =>
    refine .idle (congrArg World.calls hshared) ?_
    rw [requests_of_view hview, Function.update_eq_self_iff, requests, ht]
    rfl
  | @env d =>
    have hview : (ControlPlane.view control).view = (ControlPlane.view σ.control).view := hview
    have hworld : control.shared = (controlPlane platform).env d σ.control.shared := hshared
    have hcalls : control.shared.calls = σ.control.shared.calls := by rw [hworld]; rfl
    exact .idle hcalls (by funext u; rw [requests, hview, requests])

theorem Steps.of_step (h : Owned σ) (hstep : (session lib platform).step σ l = some σ') :
    Steps σ l σ' := by
  have hrun : ∀ {x : Option State}, (if σ.completion.isSome then none else x) = some σ' →
      σ.completion = none ∧ x = some σ' := by
    intro x hx
    cases hc : σ.completion with
    | some t => simp [hc] at hx
    | none => simpa [hc] using hx
  change step lib platform σ l = some σ' at hstep
  cases l with
  | tool tool =>
    obtain ⟨hcompletion, hstep⟩ := hrun hstep
    obtain ⟨n, -, rfl⟩ := Option.map_eq_some_iff.1 hstep
    exact .tool hcompletion VoiceState.stays_apply
  | handoff t reason route =>
    obtain ⟨hcompletion, hstep⟩ := hrun hstep
    cases hprepared : prepareHandoff lib σ.voice reason route with
    | mk result voice =>
      obtain ⟨hvoice, hedge⟩ := VoiceState.prepareHandoff_spec hprepared
      rw [hprepared] at hstep
      split at hstep
      · rename_i edge voice' heq
        obtain ⟨rfl, rfl⟩ := Prod.mk.inj heq
        obtain ⟨control, hsent, rfl⟩ := Option.map_eq_some_iff.1 hstep
        obtain ⟨hmem, hfrom, hcaptured⟩ := hedge edge rfl
        exact .send hcompletion hvoice hcaptured hmem hfrom (.of_send h.conforming hsent)
      · rename_i voice' heq
        obtain ⟨rfl, rfl⟩ := Prod.mk.inj heq
        obtain rfl := Option.some.inj hstep
        exact .hold hcompletion hvoice
  | deliver t =>
    obtain ⟨hcompletion, hstep⟩ := hrun hstep
    split at hstep
    · rename_i edge op reply hedge hresult
      obtain ⟨ph, b, ht, hreturns, hsettles⟩ := h.conforming.result hresult
      have hrequest : requests σ.control t = some (op, ph) := by
        change ((σ.control.config Op.protocol ControlPlane.started).view t).map _ = _
        rw [ht]
        rfl
      split at hstep
      · rename_i haccepted
        obtain rfl := Option.some.inj hstep
        obtain ⟨c, rfl⟩ : ∃ c, reply = .call (.ok c) := by
          unfold accepted at haccepted
          split at haccepted
          · exact ⟨_, rfl⟩
          · cases haccepted
        rcases hreturns.2 with rfl | rfl
        · exact (h.about hrequest).2.elim
        · obtain ⟨before, after, hawaited, -⟩ := List.lookup_eq_some_iff.1 hedge
          exact .moved hcompletion (by simp [hawaited]) hrequest
      · rename_i haccepted
        obtain rfl := Option.some.inj hstep
        refine .refused hcompletion fun request x hx => haccepted ?_
        obtain ⟨rfl, rfl⟩ := Prod.mk.inj (Option.some.inj (hrequest.symm.trans hx))
        exact hsettles request x rfl rfl
    · cases hstep
  | giveUp t =>
    obtain rfl := Option.some.inj hstep
    exact .gaveUp
  | finish t =>
    obtain ⟨hcompletion, hstep⟩ := hrun hstep
    obtain ⟨control, hsent, rfl⟩ := Option.map_eq_some_iff.1 hstep
    exact .finished hcompletion (.of_send h.conforming hsent)
  | control step =>
    have hspawn : ∀ t op, step ≠ .spawn t op := by
      rintro t op rfl
      cases hstep
    cases step with
    | spawn t op => cases hstep
    | exec t o | crash t =>
      obtain ⟨control, hcontrol, rfl⟩ := Option.map_eq_some_iff.1 hstep
      exact .of_control h hspawn hcontrol
    | env d =>
      obtain rfl := Option.some.inj hstep
      exact .of_control h hspawn rfl

/-! ## Requests stay requests of the session -/

/-- The control plane takes one of its own steps, or none. -/
theorem control_of_step (hstep : (session lib platform).step σ l = some σ') :
    σ'.control = σ.control ∨ ∃ step, (controlPlane platform).step σ.control step = some σ'.control := by
  have hrun : ∀ {x : Option State}, (if σ.completion.isSome then none else x) = some σ' →
      x = some σ' := by
    intro x hx
    split at hx
    · cases hx
    · exact hx
  change step lib platform σ l = some σ' at hstep
  cases l with
  | tool tool =>
    obtain ⟨n, -, rfl⟩ := Option.map_eq_some_iff.1 (hrun hstep)
    exact .inl rfl
  | handoff t reason route =>
    replace hstep := hrun hstep
    split at hstep
    · obtain ⟨control, hcontrol, rfl⟩ := Option.map_eq_some_iff.1 hstep
      exact .inr ⟨_, hcontrol⟩
    · obtain rfl := Option.some.inj hstep
      exact .inl rfl
  | deliver t =>
    replace hstep := hrun hstep
    split at hstep
    · split at hstep
      · obtain rfl := Option.some.inj hstep
        exact .inl rfl
      · obtain rfl := Option.some.inj hstep
        exact .inl rfl
    · cases hstep
  | giveUp t =>
    obtain rfl := Option.some.inj hstep
    exact .inl rfl
  | finish t =>
    obtain ⟨control, hcontrol, rfl⟩ := Option.map_eq_some_iff.1 (hrun hstep)
    exact .inr ⟨_, hcontrol⟩
  | control step =>
    cases step with
    | spawn t op => cases hstep
    | exec t o | crash t =>
      obtain ⟨control, hcontrol, rfl⟩ := Option.map_eq_some_iff.1 hstep
      exact .inr ⟨_, hcontrol⟩
    | env d =>
      obtain rfl := Option.some.inj hstep
      exact .inr ⟨.env d, rfl⟩

/-- A request after a step: one from before, a new one, or the one that was served. -/
theorem Steps.request {t : ℕ} {op : Op} {ph : Phase} (h : Steps σ l σ')
    (ht : requests σ'.control t = some (op, ph)) :
    requests σ.control t = some (op, ph) ∨ (op.about σ.voice.callID ∧ ph = .start []) ∨
      ∃ l o cmd, requests σ.control t = some (op, l) ∧
        Served σ.voice.callID op o σ.control.shared σ'.control.shared cmd l ph := by
  have hupdate : ∀ {u op' ph'}, Function.update (requests σ.control) u (some (op', ph')) t =
      some (op, ph) → (t = u ∧ op' = op ∧ ph' = ph) ∨ requests σ.control t = some (op, ph) := by
    intro u op' ph' hu
    rw [Function.update_apply] at hu
    split at hu
    · rename_i htu
      obtain ⟨rfl, rfl⟩ := Prod.mk.inj (Option.some.inj hu)
      exact .inl ⟨htu, rfl, rfl⟩
    · exact .inr hu
  cases h with
  | tool | hold | moved | refused | gaveUp => exact .inl ht
  | send hrun hvoice hcaptured hedge hfrom hsent =>
    rcases hupdate (hsent.added ▸ ht) with ⟨-, rfl, rfl⟩ | hold
    · exact .inr (.inl ⟨hvoice.callID, rfl⟩)
    · exact .inl hold
  | finished hrun hsent =>
    rcases hupdate (hsent.added ▸ ht) with ⟨-, rfl, rfl⟩ | hold
    · exact .inr (.inl ⟨rfl, rfl⟩)
    · exact .inl hold
  | served hnext hreq hserved hrequests =>
    rcases hupdate (hrequests ▸ ht) with ⟨rfl, rfl, rfl⟩ | hold
    · exact .inr (.inr ⟨_, _, _, hreq, hserved⟩)
    · exact .inl hold
  | idle hcalls hrequests => exact .inl (hrequests ▸ ht)

theorem Steps.callID (h : Steps σ l σ') : σ'.voice.callID = σ.voice.callID := by
  cases h with
  | tool hrun hvoice => exact hvoice.callID
  | hold hrun hvoice => exact hvoice.callID
  | send hrun hvoice => exact hvoice.callID
  | _ => rfl

theorem Owned.step (h : Owned σ) (hstep : (session lib platform).step σ l = some σ') : Owned σ' := by
  have hsteps := Steps.of_step h hstep
  constructor
  · rcases control_of_step hstep with hsame | ⟨step, hcontrol⟩
    · exact hsame ▸ h.conforming
    · exact h.conforming.step (conforms_answers platform) hcontrol
  · intro t op ph ht
    rw [hsteps.callID]
    rcases hsteps.request ht with hold | ⟨habout, rfl⟩ | ⟨ph₀, o, cmd, hold, hserved⟩
    · exact h.about hold
    · exact ⟨habout, trivial⟩
    · exact ⟨(h.about hold).1, hserved.about (h.about hold).2⟩

variable {ok : State → Label → Prop} {voice : VoiceState} {w : World}

theorem owned (h : (session lib platform).Reach ok (.init voice w) σ) : Owned σ :=
  h.invariant .init fun _ _ _ howned _ hstep => howned.step hstep

/-- The control plane of a session is reachable on its own. -/
theorem reach_control (h : (session lib platform).Reach ok (.init voice w) σ) :
    (controlPlane platform).Reach (fun _ _ => True) (Pool.init w) σ.control := by
  refine Machine.Reach.invariant
    (I := fun ρ => (controlPlane platform).Reach (fun _ _ => True) (Pool.init w) ρ.control)
    .refl (fun ρ l ρ' hreach _ hstep => ?_) h
  rcases control_of_step hstep with hsame | ⟨step, hcontrol⟩
  · exact hsame ▸ hreach
  · exact .step hreach trivial hcontrol

/-- The copy a request works on is one of the session's call. -/
theorem sameCall_of_copied (h : (session lib platform).Reach ok (.init voice w) σ) {t : ℕ} {op : Op}
    {c call : Call} (ht : requests σ.control t = some (op, .copied c)) (hcall : σ.stored = some call) :
    c.SameCall call := by
  obtain ⟨b, hview⟩ := view_of_requests ht
  obtain ⟨d, hd, hsame⟩ := (ControlPlane.synced (reach_control h)).copies hview rfl
  have hid : c.id = σ.voice.callID := ((owned h).about ht).2
  obtain ⟨hmem, hcallID⟩ := Collection.get_eq_some_iff.1 hcall
  obtain rfl := Collection.eq_of_id_eq hd hmem (hsame.id.symm.trans (hid.trans hcallID.symm))
  exact hsame

/-- An invariant of sessions: it holds at the start, and whatever a step does keeps it. -/
theorem invariant {I : State → Prop} (hinit : I (.init voice w))
    (hstep : ∀ ρ l ρ', (session lib platform).Reach ok (.init voice w) ρ → ok ρ l → I ρ →
      Steps ρ l ρ' → I ρ')
    (h : (session lib platform).Reach ok (.init voice w) σ) : I σ := by
  induction h with
  | refl => exact hinit
  | step hreach hok hs ih => exact hstep _ _ _ hreach hok ih (.of_step (owned hreach) hs)

end Worker

end Stylme
