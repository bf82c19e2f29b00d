-- SUMMARY: A refused handoff leaves the session alone only where the captured data already held what it put in.
import Stylme.Domain.Dictionary
import Stylme.Lib.Fallible
import Stylme.Worker.System

/-!
# Refused handoffs

`prepare_handoff` puts the intent and the route into the captured data before it looks for an edge.
It takes the route out again where no edge matches, but never the intent, and
`handoff_to_next_agent` takes nothing back where the control plane refuses.
-/

namespace Stylme

open Conc Backend

namespace Worker

variable (lib : Library) (state : VoiceState) (reason route : String)

/-! ## What is put in -/

/-- The captured data once the intent is in. -/
def withIntent : Document := (state.captureDefault "intent" (.str (Recovery.strip reason))).captured

/-- The captured data that an edge is looked for with. -/
def routed : Document :=
  if normalizedRoute lib route = "" then withIntent state reason
  else setKey "handoff_route" (.str (normalizedRoute lib route)) (withIntent state reason)

/-- The edge that `prepare_handoff` looks for. -/
def routedEdge : Except Raised (Option SwarmEdge) :=
  chooseTransition lib state.runtime.graph state.currentNodeKey (routed lib state reason route)

/-- A handoff without an edge, or one that the control plane does not record, changes nothing. -/
structure HandoffUndone : Prop where
  unmatched : ∀ state', prepareHandoff lib state reason route = (.ok none, state') →
    state'.captured = state.captured
  unrecorded : ∀ recordHandoff fault state',
    handoffToNextAgent lib recordHandoff state reason route = (.error (.control fault), state') →
      state'.currentNodeKey = state.currentNodeKey ∧ state'.captured = state.captured

/-- What the session must have captured for that: an intent, a route that is not null if no edge
matches, and the route of the handoff itself if an edge does. -/
def AlreadyCaptured : Prop :=
  match routedEdge lib state reason route with
  | .error _ => True
  | .ok none => (state.captured.lookup "intent").isSome ∧
    (normalizedRoute lib route ≠ "" → ∀ value, state.captured.lookup "handoff_route" = some value →
      value ≠ .null)
  | .ok (some _) => (state.captured.lookup "intent").isSome ∧
    (normalizedRoute lib route ≠ "" →
      state.captured.lookup "handoff_route" = some (.str (normalizedRoute lib route)))

variable {lib state reason route}

/-! ## What is left in -/

theorem withIntent_eq_self_iff :
    withIntent state reason = state.captured ↔ (state.captured.lookup "intent").isSome := by
  unfold withIntent VoiceState.captureDefault
  split
  · rename_i value hvalue
    exact iff_of_true rfl (by rw [hvalue]; rfl)
  · rename_i hnone
    rw [hnone]
    refine iff_of_false (fun h => ?_) Bool.false_ne_true
    rw [VoiceState.capture, setKey_eq_self_iff, hnone] at h
    cases h

theorem lookup_withIntent {key : String} (hkey : key ≠ "intent") :
    (withIntent state reason).lookup key = state.captured.lookup key := by
  unfold withIntent VoiceState.captureDefault
  split
  · rfl
  · rw [VoiceState.capture, lookup_setKey, if_neg hkey]

variable (lib state reason route) in
/-- The captured data after `prepare_handoff`: the route is taken out where no edge matches. -/
def leftCaptured : Document :=
  match routedEdge lib state reason route with
  | .ok none =>
    if normalizedRoute lib route = "" then withIntent state reason
    else match (withIntent state reason).lookup "handoff_route" with
      | none | some .null => (routed lib state reason route).filter (·.1 ≠ "handoff_route")
      | some previous => setKey "handoff_route" previous (routed lib state reason route)
  | _ => routed lib state reason route

/-- What `prepare_handoff` answers, and what it leaves. -/
theorem prepareHandoff_eq {result : Except Raised (Option SwarmEdge)} {state' : VoiceState}
    (h : prepareHandoff lib state reason route = (result, state')) :
    result = routedEdge lib state reason route ∧ state'.captured = leftCaptured lib state reason route := by
  obtain ⟨hruntime, -, hnode⟩ : state.Stays (state.captureDefault "intent" (.str (Recovery.strip reason))) :=
    VoiceState.stays_captureDefault
  unfold prepareHandoff at h
  dsimp only at h
  unfold leftCaptured
  split at h
  · rename_i hroute
    obtain ⟨rfl, rfl⟩ := Prod.mk.inj h
    have hedge : routedEdge lib state reason route = chooseTransition lib state.runtime.graph
        state.currentNodeKey (withIntent state reason) := by
      rw [routedEdge, routed, if_pos hroute]
    rw [hruntime, hnode]
    refine ⟨hedge.symm, ?_⟩
    split
    · rw [if_pos hroute]
      rfl
    · rw [routed, if_pos hroute]
      rfl
  · rename_i hroute
    have hrouted : routed lib state reason route =
        setKey "handoff_route" (.str (normalizedRoute lib route)) (withIntent state reason) := if_neg hroute
    have hedge : routedEdge lib state reason route = chooseTransition lib
        (state.captureDefault "intent" (.str (Recovery.strip reason))).runtime.graph
        (state.captureDefault "intent" (.str (Recovery.strip reason))).currentNodeKey
        (setKey "handoff_route" (.str (normalizedRoute lib route)) (withIntent state reason)) := by
      rw [routedEdge, hrouted, hruntime, hnode]
    split at h
    · rename_i hnone
      obtain ⟨rfl, rfl⟩ := Prod.mk.inj h
      have hnone : routedEdge lib state reason route = .ok none := hedge.trans hnone
      rw [hnone]
      refine ⟨rfl, ?_⟩
      dsimp only
      rw [if_neg hroute, hrouted]
      have hlookup : (state.captureDefault "intent" (.str (Recovery.strip reason))).captured.lookup
          "handoff_route" = (withIntent state reason).lookup "handoff_route" := rfl
      rw [hlookup]
      cases (withIntent state reason).lookup "handoff_route" with
      | none => rfl
      | some value => cases value <;> rfl
    · rename_i hsome
      obtain ⟨rfl, rfl⟩ := Prod.mk.inj h
      refine ⟨hedge.symm, ?_⟩
      split
      · rename_i hnone
        exact absurd (hedge.symm.trans hnone) hsome
      · exact hrouted.symm

/-- Taking the route out restores what was there, unless it was null. -/
theorem leftCaptured_of_none (hedge : routedEdge lib state reason route = .ok none) :
    leftCaptured lib state reason route = state.captured ↔
      (state.captured.lookup "intent").isSome ∧ (normalizedRoute lib route ≠ "" →
        ∀ value, state.captured.lookup "handoff_route" = some value → value ≠ .null) := by
  have hintent : withIntent state reason = state.captured ↔ (state.captured.lookup "intent").isSome :=
    withIntent_eq_self_iff
  rw [← hintent, leftCaptured, hedge]
  dsimp only
  have hlookup : (withIntent state reason).lookup "handoff_route" = state.captured.lookup "handoff_route" :=
    lookup_withIntent (by decide)
  by_cases hroute : normalizedRoute lib route = ""
  · rw [if_pos hroute]
    exact (and_iff_left fun hne => absurd hroute hne).symm
  rw [if_neg hroute, hlookup, routed, if_neg hroute]
  cases hprevious : state.captured.lookup "handoff_route" with
  | none =>
    dsimp only
    rw [filter_setKey_of_lookup (hlookup.trans hprevious)]
    exact (and_iff_left fun _ _ h => by cases h).symm
  | some previous =>
    have hrestored : setKey "handoff_route" previous
        (setKey "handoff_route" (.str (normalizedRoute lib route)) (withIntent state reason)) =
          withIntent state reason := by
      rw [setKey_setKey, setKey_of_lookup (hlookup.trans hprevious)]
    cases previous with
    | null =>
      refine iff_of_false (fun h => ?_) fun h => h.2 hroute _ rfl rfl
      have hmem : ("handoff_route", Json.null) ∈ state.captured := mem_of_lookup hprevious
      rw [← h] at hmem
      exact absurd rfl (of_decide_eq_true (List.mem_filter.1 hmem).2)
    | _ =>
      dsimp only
      rw [hrestored]
      exact (and_iff_left fun _ value h => by cases h; simp).symm

/-- The route stays where an edge matches. -/
theorem leftCaptured_of_some {edge : SwarmEdge} (hedge : routedEdge lib state reason route = .ok (some edge)) :
    leftCaptured lib state reason route = state.captured ↔
      (state.captured.lookup "intent").isSome ∧ (normalizedRoute lib route ≠ "" →
        state.captured.lookup "handoff_route" = some (.str (normalizedRoute lib route))) := by
  have hintent : withIntent state reason = state.captured ↔ (state.captured.lookup "intent").isSome :=
    withIntent_eq_self_iff
  rw [← hintent, leftCaptured, hedge]
  dsimp only
  have hlookup : (withIntent state reason).lookup "handoff_route" = state.captured.lookup "handoff_route" :=
    lookup_withIntent (by decide)
  by_cases hroute : normalizedRoute lib route = ""
  · rw [routed, if_pos hroute]
    exact (and_iff_left fun hne => absurd hroute hne).symm
  rw [routed, if_neg hroute]
  constructor
  · intro h
    have hset : state.captured.lookup "handoff_route" = some (.str (normalizedRoute lib route)) := by
      rw [← h, lookup_setKey, if_pos rfl]
    refine ⟨?_, fun _ => hset⟩
    rwa [setKey_of_lookup (hlookup.trans hset)] at h
  · rintro ⟨hintent, hset⟩
    rw [setKey_of_lookup (hlookup.trans (hset hroute)), hintent]

theorem handoffUndone_iff : HandoffUndone lib state reason route ↔
    ∀ found, routedEdge lib state reason route = .ok found →
      leftCaptured lib state reason route = state.captured := by
  obtain ⟨result, state', h⟩ : ∃ result state', prepareHandoff lib state reason route = (result, state') :=
    ⟨_, _, rfl⟩
  obtain ⟨hresult, hcaptured⟩ := prepareHandoff_eq h
  have hstays := (VoiceState.prepareHandoff_spec h).1
  subst hresult
  constructor
  · rintro ⟨hunmatched, hunrecorded⟩ found hfound
    rw [← hcaptured]
    cases found with
    | none => exact hunmatched state' (by rw [h, hfound])
    | some edge =>
      refine (hunrecorded (fun _ => .error ⟨"", ""⟩) ⟨"", ""⟩ state' ?_).2
      rw [handoffToNextAgent, h, hfound]
  · intro hsame
    refine ⟨fun left hleft => ?_, fun recordHandoff fault left hleft => ?_⟩
    · obtain ⟨hnone, rfl⟩ := Prod.mk.inj (h.symm.trans hleft)
      exact hcaptured.trans (hsame none hnone)
    · rw [handoffToNextAgent, h] at hleft
      cases hedge : routedEdge lib state reason route with
      | error fault' =>
        rw [hedge] at hleft
        cases hleft
      | ok found =>
        rw [hedge] at hleft
        cases found with
        | none => cases hleft
        | some edge =>
          dsimp only at hleft
          split at hleft
          · obtain ⟨-, rfl⟩ := Prod.mk.inj hleft
            exact ⟨hstays.currentNodeKey, hcaptured.trans (hsame _ hedge)⟩
          · cases hleft

/-- A refused handoff changes nothing if and only if what it puts in was captured already. -/
theorem handoffUndone_iff_alreadyCaptured (lib : Library) (state : VoiceState) (reason route : String) :
    HandoffUndone lib state reason route ↔ AlreadyCaptured lib state reason route := by
  rw [handoffUndone_iff, AlreadyCaptured]
  cases hedge : routedEdge lib state reason route with
  | error fault => exact iff_of_true (fun _ h => by cases h) trivial
  | ok found =>
    refine (show _ ↔ leftCaptured lib state reason route = state.captured from
      ⟨fun h => h found rfl, fun h _ _ => h⟩).trans ?_
    cases found with
    | none => exact leftCaptured_of_none hedge
    | some edge => exact leftCaptured_of_some hedge

/-- A caller whose intent is known asks for the orders, and the control plane refuses the handoff. -/
def knownIntent : VoiceState := { Sample.voice with captured := [("intent", .str "delivery")] }

/-- The route stays in the captured data of a handoff that was refused. -/
theorem not_handoffUndone : ¬ ∀ (lib : Library) (state : VoiceState) (reason route : String),
    HandoffUndone lib state reason route := by
  intro h
  obtain ⟨found, hfound, hlength⟩ := exists_ok_of_any (routedEdge Sample.library knownIntent "" "orders")
    (fun _ => (leftCaptured Sample.library knownIntent "" "orders").length ≠ knownIntent.captured.length)
    (by decide +kernel)
  have hsame := handoffUndone_iff.1 (h Sample.library knownIntent "" "orders") found hfound
  exact of_decide_eq_true hlength (congrArg List.length hsame)

/-! ## Sessions -/

/-- In a session, a handoff whose answer is lost or refused leaves what the whole handoff leaves. -/
theorem voice_of_refused {platform : Platform DirectCallRequest} {σ σ₁ σ₂ σ₃ : State} {t : ℕ}
    {recordHandoff : HandoffRequest → Except Raised Unit}
    (hfails : ∀ request, ∃ fault, recordHandoff request = .error fault)
    (hsend : step lib platform σ (.handoff t reason route) = some σ₁) (hwait : σ₂.voice = σ₁.voice)
    (hanswer : step lib platform σ₂ (.giveUp t) = some σ₃ ∨
      step lib platform σ₂ (.deliver t) = some σ₃ ∧
        ∀ op reply, σ₂.control.result t = some (op, reply) → ¬ accepted reply) :
    σ₃.voice = (handoffToNextAgent lib recordHandoff σ.voice reason route).2 := by
  have hleft : σ₃.voice = σ₂.voice := by
    rcases hanswer with hgiveUp | ⟨hdeliver, hrefused⟩
    · obtain rfl := Option.some.inj hgiveUp
      rfl
    · rw [step] at hdeliver
      split at hdeliver
      · cases hdeliver
      split at hdeliver
      · rename_i edge op reply hedge hresult
        rw [if_neg (hrefused op reply hresult)] at hdeliver
        obtain rfl := Option.some.inj hdeliver
        rfl
      · cases hdeliver
  have hsent : σ₁.voice = (prepareHandoff lib σ.voice reason route).2 := by
    rw [step] at hsend
    split at hsend
    · cases hsend
    split at hsend
    · rename_i edge voice hprepared
      obtain ⟨control, -, rfl⟩ := Option.map_eq_some_iff.1 hsend
      rw [hprepared]
    · rename_i result voice hnone hprepared
      obtain rfl := Option.some.inj hsend
      rw [hprepared]
  rw [hleft, hwait, hsent, handoffToNextAgent]
  split
  · rename_i hprepared
    rw [hprepared]
  · rename_i hprepared
    rw [hprepared]
  · rename_i edge voice hprepared
    rw [hprepared]
    obtain ⟨fault, hfault⟩ := hfails (voice.handoffRequest edge reason)
    rw [hfault]

end Worker

end Stylme
