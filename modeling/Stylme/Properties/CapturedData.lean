-- SUMMARY: What a session has captured is stored at its end exactly as far as its last recorded handoff carried it.
import Stylme.Worker.Effects

/-!
# Captured data at the end of a session

Captured data reaches the control plane with the requests for handoffs, and each
recorded handoff replaces what was stored before. The completion request carries
the transcript only, and leaves the stored data as it finds it. Nothing captured
after the last recorded handoff was sent is therefore stored.
-/

namespace Stylme

open Conc

/-- The captured data of a stored call. -/
def Call.capturedData (c : Call) : Document :=
  match (c.context.getD []).lookup "captured" with
  | some (.obj fields) => fields
  | _ => []

/-- Every key of the second document has the same value in the first. -/
def Covers (stored captured : Document) : Prop :=
  ∀ key value, captured.lookup key = some value → stored.lookup key = some value

namespace Worker

/-! ## What is kept -/

/-- The completion request was answered with the call. -/
def Acknowledged (σ : State) : Prop :=
  ∃ t request call, σ.completion = some t ∧
    σ.control.result t = some (.completeCall request, .call (.ok call))

/-- Everything captured in the session is stored. -/
def Kept (σ : State) : Prop :=
  ∃ call, σ.stored = some call ∧ Covers call.capturedData σ.voice.captured

/-- What the last recorded handoff carried, or what the call had at the start. -/
def carried (initial : Document) : List (ℕ × Op) → Document
  | [] => initial
  | (_, .recordHandoff request) :: _ => request.captured.getD []
  | _ :: recorded => carried initial recorded

/-- The completion of the session is recorded. -/
def Completed (σ : State) : Prop := ∃ t request, (t, .completeCall request) ∈ σ.recorded

/-- When the completion reads the call, the last recorded handoff has carried all that
is captured; and so does every handoff that is recorded after the completion. -/
def Carries (initial : Document) (σ : State) : Label → Prop
  | .control (.exec t o) =>
    match σ.control.next t with
    | some (.completeCall _, .getCall _) => Covers (carried initial σ.recorded) σ.voice.captured
    | some (.recordHandoff request, .saveCall x) => σ.control.shared.applies o x → Completed σ →
      Covers (request.captured.getD []) σ.voice.captured
    | _ => True
  | _ => True

/-! ## What the two writes do to the stored data -/

theorem capturedData_of_handoff {request : HandoffRequest} {c x : Call} (h : request.Writes c x)
    (hcaptured : request.captured.getD [] ≠ []) : x.capturedData = request.captured.getD [] := by
  obtain ⟨-, -, -, fromAgentID, toAgentID, now, -, rfl⟩ := h
  cases hd : request.captured with
  | none => simp [hd] at hcaptured
  | some d =>
    cases d with
    | nil => simp [hd] at hcaptured
    | cons f fs => simp [Call.capturedData, Call.handedOff]

theorem capturedData_of_completion {request : CompleteRequest} {c x : Call}
    (h : request.Writes c x) : x.capturedData = c.capturedData := by
  obtain ⟨now, d, f, rfl⟩ := h
  rfl

/-! ## The invariant -/

/-- What is stored comes from the last recorded handoff, and the completion only
passes on what it has read. -/
structure Traced (initial : Document) (σ : State) : Prop where
  sent : ∀ {t op l}, requests σ.control t = some (op, l) →
    (∃ request, op = .recordHandoff request ∧ request.captured.getD [] ≠ []) ∨
      ∃ request, op = .completeCall request ∧ σ.completion = some t
  copied : ∀ {t request c}, requests σ.control t = some (.completeCall request, .copied c) →
    Covers c.capturedData σ.voice.captured
  settled : ∀ {t request x}, requests σ.control t = some (.completeCall request, .settled x) →
    Completed σ
  completed : ∀ {t request}, (t, .completeCall request) ∈ σ.recorded → σ.completion = some t ∧
    ∃ l, requests σ.control t = some (.completeCall request, l) ∧ (l = .done ∨ ∃ x, l = .settled x)
  stored : ∃ call, σ.stored = some call ∧
    (¬ Completed σ → call.capturedData = carried initial σ.recorded) ∧
    (Completed σ → Covers call.capturedData σ.voice.captured)

namespace Traced

variable {initial : Document} {σ σ' : State} {l : Label} {t : ℕ}

/-- While the session runs, its completion has not been sent. -/
theorem not_completed (h : Traced initial σ) (hrun : σ.completion = none) : ¬ Completed σ := by
  rintro ⟨t, request, hmem⟩
  rw [(h.completed hmem).1] at hrun
  cases hrun

theorem not_completeCall (h : Traced initial σ) (hrun : σ.completion = none)
    {request : CompleteRequest} {ph : Phase} :
    requests σ.control t ≠ some (.completeCall request, ph) := by
  intro ht
  rcases h.sent ht with ⟨r, hop, -⟩ | ⟨r, -, hcompletion⟩
  · cases hop
  · rw [hcompletion] at hrun
    cases hrun

/-- A tool may capture anything while the session runs. -/
theorem talk {voice : VoiceState} {n : ℕ} (h : Traced initial σ) (hrun : σ.completion = none)
    (hvoice : σ.voice.Stays voice) : Traced initial { σ with voice := voice, transfers := n } where
  sent := h.sent
  copied ht := absurd ht (h.not_completeCall hrun)
  settled := h.settled
  completed := h.completed
  stored := by
    obtain ⟨call, hcall, hopen, -⟩ := h.stored
    refine ⟨call, ?_, hopen, fun hc => absurd hc (h.not_completed hrun)⟩
    rw [State.stored, hvoice.callID]
    exact hcall

/-- What the worker waits for does not matter. -/
theorem await {awaited : List (ℕ × SwarmEdge)} (h : Traced initial σ) :
    Traced initial { σ with awaited := awaited } :=
  ⟨h.sent, h.copied, h.settled, h.completed, h.stored⟩

/-- A new request of either kind. -/
theorem send {op : Op} {control : ControlPlane.State} {completion : Option ℕ}
    (h : Traced initial σ) (hrun : σ.completion = none) (hsent : Sent σ.control t op control)
    (hop : (∃ request, op = .recordHandoff request ∧ request.captured.getD [] ≠ []) ∨
      ∃ request, op = .completeCall request ∧ completion = some t) :
    Traced initial { σ with control := control, completion := completion } where
  sent {u op' l} hu := by
    rw [hsent.added, Function.update_apply] at hu
    split at hu
    · rename_i hut
      obtain ⟨rfl, rfl⟩ := Prod.mk.inj (Option.some.inj hu)
      exact hut ▸ hop
    · rcases h.sent hu with hhandoff | ⟨request, rfl, hcompletion⟩
      · exact .inl hhandoff
      · exact absurd hu (h.not_completeCall hrun)
  copied {u request c} hu := by
    rw [hsent.added, Function.update_apply] at hu
    split at hu
    · cases hu
    · exact h.copied hu
  settled {u request x} hu := by
    rw [hsent.added, Function.update_apply] at hu
    split at hu
    · cases hu
    · exact h.settled hu
  completed hmem := absurd ⟨_, _, hmem⟩ (h.not_completed hrun)
  stored := by
    obtain ⟨call, hcall, hstored⟩ := h.stored
    refine ⟨call, ?_, hstored⟩
    rw [State.stored, hsent.shared]
    exact hcall

section Serve

variable {control : ControlPlane.State} {op : Op} {ph ph' : Phase}

/-- A request moves on and the calls stay as they are. -/
theorem quiet (h : Traced initial σ) (ht : requests σ.control t = some (op, ph))
    (hcalls : control.shared.calls = σ.control.shared.calls)
    (hrequests : requests control = Function.update (requests σ.control) t (some (op, ph')))
    (hcopied : ∀ request c, op = .completeCall request → ph' = .copied c →
      ph = .copied c ∨ Covers c.capturedData σ.voice.captured)
    (hsettled : ∀ x, ph' = .settled x → ph = .settled x)
    (hended : ph = .done ∨ (∃ x, ph = .settled x) → ph' = ph) :
    Traced initial { σ with control := control } where
  sent {u op' l} hu := by
    rw [hrequests, Function.update_apply] at hu
    split at hu
    · rename_i hut
      subst hut
      obtain ⟨rfl, -⟩ := Prod.mk.inj (Option.some.inj hu)
      exact h.sent ht
    · exact h.sent hu
  copied {u request c} hu := by
    rw [hrequests, Function.update_apply] at hu
    split at hu
    · obtain ⟨rfl, rfl⟩ := Prod.mk.inj (Option.some.inj hu)
      rcases hcopied request c rfl rfl with rfl | hcovers
      · exact h.copied ht
      · exact hcovers
    · exact h.copied hu
  settled {u request x} hu := by
    rw [hrequests, Function.update_apply] at hu
    split at hu
    · obtain ⟨rfl, rfl⟩ := Prod.mk.inj (Option.some.inj hu)
      obtain rfl := hsettled x rfl
      exact h.settled ht
    · exact h.settled hu
  completed {u request} hmem := by
    obtain ⟨hcompletion, l, hl, hend⟩ := h.completed hmem
    refine ⟨hcompletion, l, ?_, hend⟩
    rw [hrequests, Function.update_apply]
    split
    · rename_i hut
      subst hut
      obtain ⟨rfl, rfl⟩ := Prod.mk.inj (Option.some.inj (ht.symm.trans hl))
      rw [hended hend]
    · exact hl
  stored := by
    obtain ⟨call, hcall, hstored⟩ := h.stored
    refine ⟨call, ?_, hstored⟩
    rw [State.stored, hcalls]
    exact hcall

/-- A write of the call takes effect. -/
theorem record {c x : Call} (h : Traced initial σ) (ht : requests σ.control t = some (op, .copied c))
    (hwrites : op.Writes c x) (hstored : control.shared.calls.get σ.voice.callID = some x)
    (hl : ph' = .settled x ∨ ph' = .done)
    (hrequests : requests control = Function.update (requests σ.control) t (some (op, ph')))
    (hlate : ∀ request, op = .recordHandoff request → Completed σ →
      Covers (request.captured.getD []) σ.voice.captured) :
    Traced initial { σ with control := control, recorded := (t, op) :: σ.recorded } where
  sent {u op' l} hu := by
    rw [hrequests, Function.update_apply] at hu
    split at hu
    · rename_i hut
      subst hut
      obtain ⟨rfl, -⟩ := Prod.mk.inj (Option.some.inj hu)
      exact h.sent ht
    · exact h.sent hu
  copied {u request c'} hu := by
    rw [hrequests, Function.update_apply] at hu
    split at hu
    · obtain ⟨-, hph⟩ := Prod.mk.inj (Option.some.inj hu)
      rcases hl with rfl | rfl <;> cases hph
    · exact h.copied hu
  settled {u request y} hu := by
    rw [hrequests, Function.update_apply] at hu
    split at hu
    · obtain ⟨rfl, -⟩ := Prod.mk.inj (Option.some.inj hu)
      exact ⟨t, request, List.mem_cons_self⟩
    · obtain ⟨v, r, hv⟩ := h.settled hu
      exact ⟨v, r, List.mem_cons_of_mem _ hv⟩
  completed {u request} hmem := by
    rcases List.mem_cons.1 hmem with heq | hmem
    · obtain ⟨rfl, rfl⟩ := Prod.mk.inj heq
      rcases h.sent ht with ⟨r, hop, -⟩ | ⟨r, hop, hcompletion⟩
      · cases hop
      · refine ⟨hcompletion, ph', by rw [hrequests, Function.update_self], ?_⟩
        rcases hl with rfl | rfl
        · exact .inr ⟨x, rfl⟩
        · exact .inl rfl
    · obtain ⟨hcompletion, l, hu, hend⟩ := h.completed hmem
      refine ⟨hcompletion, l, ?_, hend⟩
      rw [hrequests, Function.update_of_ne, hu]
      -- the completion that was recorded has ended, so it is not the one that writes
      rintro rfl
      obtain ⟨-, rfl⟩ := Prod.mk.inj (Option.some.inj (ht.symm.trans hu))
      rcases hend with hend | ⟨y, hend⟩ <;> cases hend
  stored := by
    refine ⟨x, hstored, ?_⟩
    rcases h.sent ht with ⟨request, rfl, hcaptured⟩ | ⟨request, rfl, -⟩
    · have hcompleted : (∃ v r, (v, Op.completeCall r) ∈ (t, Op.recordHandoff request) :: σ.recorded) →
          Completed σ := by
        rintro ⟨v, r, hv⟩
        rcases List.mem_cons.1 hv with heq | hv
        · cases heq
        · exact ⟨v, r, hv⟩
      rcases hwrites with ⟨r, hr, hwrites⟩ | ⟨r, hr, -⟩
      · obtain rfl := Op.recordHandoff.inj hr
        have hdata := capturedData_of_handoff hwrites hcaptured
        refine ⟨fun _ => hdata, fun hc => ?_⟩
        rw [hdata]
        exact hlate request rfl (hcompleted hc)
      · cases hr
    · rcases hwrites with ⟨r, hr, -⟩ | ⟨r, hr, hwrites⟩
      · cases hr
      · refine ⟨fun hopen => absurd ⟨t, request, List.mem_cons_self⟩ hopen, fun _ => ?_⟩
        rw [capturedData_of_completion hwrites]
        exact h.copied ht

end Serve

/-- A served command passes on what was read, or records what was carried. -/
theorem served {o : Oracle} {op : Op} {cmd : Cmd} {ph ph' : Phase} {control : ControlPlane.State}
    (hok : Carries initial σ (.control (.exec t o))) (h : Traced initial σ)
    (hnext : σ.control.next t = some (op, cmd)) (ht : requests σ.control t = some (op, ph))
    (hserved : Served σ.voice.callID op o σ.control.shared control.shared cmd ph ph')
    (hrequests : requests control = Function.update (requests σ.control) t (some (op, ph'))) :
    Traced initial { σ with
      control := control
      recorded := if σ.control.shared.records o cmd then (t, op) :: σ.recorded else σ.recorded } := by
  cases hserved with
  | stays hrecords hcalls =>
    rw [hrecords]
    exact h.quiet ht hcalls hrequests (fun _ _ _ hph => .inl hph) (fun _ => id) fun _ => rfl
  | draws hrecords hcalls | fails hrecords hcalls =>
    rw [hrecords]
    refine h.quiet ht hcalls hrequests (fun _ _ _ hph => ?_) (fun _ hx => ?_) fun hend => ?_
    · cases hph
    · cases hx
    · rcases hend with hend | ⟨x, hend⟩ <;> cases hend
  | read hcalls hc =>
    refine h.quiet ht hcalls hrequests (fun request c hop hph => .inr ?_) (fun _ hx => ?_)
      fun hend => ?_
    rotate_left
    · cases hx
    · rcases hend with hend | ⟨x, hend⟩ <;> cases hend
    obtain rfl := Phase.copied.inj hph
    subst hop
    simp only [Carries, hnext] at hok
    obtain ⟨call, hcall, hopen, -⟩ := h.stored
    obtain rfl := Option.some.inj (hc.symm.trans hcall)
    -- the completion that reads the call has not been recorded
    have hnot : ¬ Completed σ := by
      rintro ⟨v, r, hv⟩
      obtain ⟨hcompletion, l, hl, hend⟩ := h.completed hv
      rcases h.sent ht with ⟨r', hop', -⟩ | ⟨r', -, hcompletion'⟩
      · cases hop'
      · obtain rfl := Option.some.inj (hcompletion.symm.trans hcompletion')
        obtain ⟨-, rfl⟩ := Prod.mk.inj (Option.some.inj (ht.symm.trans hl))
        rcases hend with hend | ⟨y, hend⟩ <;> cases hend
    rw [hopen hnot]
    exact hok
  | wrote happlies hwrites hstored hl =>
    simp only [World.records, happlies, if_true]
    refine h.record ht hwrites hstored (hl.imp_right And.left) hrequests fun request hop hc => ?_
    subst hop
    simp only [Carries, hnext] at hok
    exact hok happlies hc

theorem step (hok : Carries initial σ l) (h : Traced initial σ) (hsteps : Steps σ l σ') :
    Traced initial σ' := by
  cases hsteps with
  | tool hrun hvoice | hold hrun hvoice => exact h.talk hrun hvoice
  | send hrun hvoice hcaptured hedge hfrom hsent =>
    exact ((h.talk (n := σ.transfers) hrun hvoice).send hrun hsent
      (.inl ⟨_, rfl, hcaptured⟩)).await
  | moved => exact ⟨h.sent, h.copied, h.settled, h.completed, h.stored⟩
  | refused | gaveUp => exact h.await
  | finished hrun hsent => exact h.send hrun hsent (.inr ⟨_, rfl, rfl⟩)
  | served hnext ht hserved hrequests => exact h.served hok hnext ht hserved hrequests
  | idle hcalls hrequests =>
    have hrequest : ∀ {u r}, requests _ u = some r → requests σ.control u = some r :=
      fun hu => hrequests ▸ hu
    refine ⟨fun hu => h.sent (hrequest hu), fun hu => h.copied (hrequest hu),
      fun hu => h.settled (hrequest hu), fun hmem => ?_, ?_⟩
    · rw [hrequests]
      exact h.completed hmem
    · obtain ⟨call, hcall, hstored⟩ := h.stored
      refine ⟨call, ?_, hstored⟩
      rw [State.stored, hcalls]
      exact hcall

end Traced

/-! ## The result -/

/-- A session whose last recorded handoff carried everything it has captured loses
nothing of it at its end. -/
theorem capturedKept {lib : Library} {platform : Platform DirectCallRequest} {swarmID : String}
    {w : World} {call : Call} {voice : VoiceState} {σ : State} (hstart : Starts swarmID w call voice)
    (h : (session lib platform).Reach (Carries call.capturedData) (.init voice w) σ)
    (hack : Acknowledged σ) : Kept σ := by
  have hinit : Traced call.capturedData (.init voice w) := by
    refine ⟨fun ht => ?_, fun ht => ?_, fun ht => ?_, fun hmem => absurd hmem List.not_mem_nil, ?_⟩
    · cases ht
    · cases ht
    · cases ht
    · refine ⟨call, hstart.stored, fun _ => rfl, ?_⟩
      rintro ⟨t, request, hmem⟩
      exact absurd hmem List.not_mem_nil
  have htraced : Traced call.capturedData σ :=
    invariant hinit (fun _ _ _ _ hok hρ hsteps => hρ.step hok hsteps) h
  obtain ⟨t, request, c, -, hresult⟩ := hack
  obtain ⟨l, b, hview, ⟨-, hl⟩, -⟩ := (owned h).conforming.result hresult
  have hrequest : requests σ.control t = some (.completeCall request, l) := by
    change ((σ.control.config Op.protocol ControlPlane.started).view t).map _ = _
    rw [hview]
    rfl
  obtain ⟨stored, hstored, -, hcovers⟩ := htraced.stored
  rcases hl with rfl | rfl
  · exact ((owned h).about hrequest).2.elim
  · exact ⟨stored, hstored, hcovers (htraced.settled hrequest)⟩

end Worker

namespace Sample

open Worker

/-- The caller asks not to be called again. -/
def optOut : Worker.Label := .tool (.recordOptOut true "Do not call again")

/-- The control plane works on a request. -/
def works (t n : ℕ) : List Worker.Label := List.replicate n (.control (.exec t {}))

/-- The step is not the one at which a completion reads the call. -/
def unread (σ : Worker.State) : Worker.Label → Bool
  | .control (.exec t _) =>
    match σ.control.next t with
    | some (.completeCall _, .getCall _) => false
    | some (.recordHandoff _, .saveCall _) => σ.recorded.isEmpty
    | _ => true
  | _ => true

/-- The opt-out is captured and handed off, and the completion is sent. -/
def handedOver : Worker.State :=
  ((session library platform).runWhere (fun σ l => unread σ l)
    ([optOut, .handoff 0 "order help" ""] ++ works 0 3 ++ [.deliver 0, .finish 1])
    (.init voice callWorld)).get (by decide +kernel)

/-- The completion reads the call. -/
def completionRead : Worker.State :=
  ((session library platform).step handedOver (.control (.exec 1 {}))).get (by decide +kernel)

def completed : Worker.State :=
  ((session library platform).runWhere (fun σ l => unread σ l) (works 1 3) completionRead).get
    (by decide +kernel)

/-- The opt-out is captured, and the call is completed without a handoff. -/
def optedOut : Worker.State :=
  ((session library platform).runWhere (fun _ _ => True) ([optOut, .finish 0] ++ works 0 4)
    (.init voice callWorld)).get (by decide +kernel)

end Sample

namespace Worker

theorem carries_of_unread {initial : Document} {σ : State} {l : Label} (h : Sample.unread σ l) :
    Carries initial σ l := by
  cases l with
  | control step =>
    cases step with
    | exec t o =>
      simp only [Sample.unread] at h
      simp only [Carries]
      split
      · rename_i request id hnext
        simp [hnext] at h
      · rename_i request x hnext
        simp only [hnext, List.isEmpty_iff] at h
        rintro - ⟨u, r, hmem⟩
        rw [h] at hmem
        exact absurd hmem List.not_mem_nil
      · trivial
    | _ => trivial
  | _ => trivial

/-- The opt-out that a handoff carried is stored when the session has ended. -/
theorem capturedKept_sample :
    Kept Sample.completed ∧ (Sample.completed.voice.captured.lookup "opt_out").isSome := by
  have hunread : ∀ σ l, Sample.unread σ l → Carries Sample.call.capturedData σ l :=
    fun _ _ => carries_of_unread
  have hsent : (session Sample.library Sample.platform).Reach (fun σ l => Sample.unread σ l)
      (.init Sample.voice Sample.callWorld) Sample.handedOver :=
    Machine.Reach.refl.of_runWhere (Option.some_get _).symm
  -- the handoff carried what is captured now
  have hcarried : Carries Sample.call.capturedData Sample.handedOver (.control (.exec 1 {})) :=
    fun _ _ h => h
  have hread : (session Sample.library Sample.platform).Reach (Carries Sample.call.capturedData)
      (.init Sample.voice Sample.callWorld) Sample.completionRead :=
    (hsent.mono hunread).step hcarried (Option.some_get _).symm
  have hrest : (session Sample.library Sample.platform).Reach (fun σ l => Sample.unread σ l)
      Sample.completionRead Sample.completed :=
    Machine.Reach.refl.of_runWhere (Option.some_get _).symm
  refine ⟨capturedKept Sample.starts (hread.trans (hrest.mono hunread)) ?_, by decide +kernel⟩
  exact ⟨1, _, _, rfl, rfl⟩

/-- The completion of a session without handoffs loses an opt-out. -/
theorem not_capturedKept :
    ¬ ∀ {lib : Library} {platform : Platform DirectCallRequest} {swarmID : String} {w : World}
      {call : Call} {voice : VoiceState} {σ : State}, Starts swarmID w call voice →
      (session lib platform).Reach (fun _ _ => True) (.init voice w) σ → Acknowledged σ → Kept σ := by
  intro hall
  have hreach : (session Sample.library Sample.platform).Reach (fun _ _ => True)
      (.init Sample.voice Sample.callWorld) Sample.optedOut :=
    Machine.Reach.refl.of_runWhere (Option.some_get _).symm
  obtain ⟨call, hcall, hcovers⟩ := hall Sample.starts hreach ⟨0, _, _, rfl, rfl⟩
  have hlost : Sample.optedOut.stored.map (·.capturedData) = some [] := rfl
  rw [hcall] at hlost
  have hempty : call.capturedData = [] := Option.some.inj hlost
  have hoptOut := hcovers "opt_out" (.bool true) rfl
  rw [hempty] at hoptOut
  cases hoptOut

end Worker

end Stylme
