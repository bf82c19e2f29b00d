-- SUMMARY: A save that returns an error has changed no agent and no swarm, exactly when it does not take a default flag away before its own write fails.
import Stylme.Service.Saves
import Stylme.Service.System

/-!
# Failed saves

A save that marks its document as default clears the flags of the rivals before
it replaces the document. The replace is refused when the key belongs to another
document, and the rivals have lost their flags by then. Over a store that loses
requests or answers the same happens whenever the second write goes wrong.
-/

namespace Stylme

open Conc

/-! ## The two writes -/

section Storing

variable {F : Faults} {w cleared w' : World} {β : Type} {marked : Bool} {value : β} {e : Err}
variable {clear put : Service (Except Err Unit)} {eff : World → Option World}

theorem putting_error_iff :
    Prog.Ends (Cmd.execUnder F) (do
      match ← put with
      | .error e => return .error e
      | .ok () => return .ok value) w (.error e : Except Err β) w' ↔
      put.Ends (Cmd.execUnder F) w (.error e) w' := by
  rw [Prog.ends_bind]
  constructor
  · rintro ⟨r, w₁, hput, hret⟩
    cases r with
    | error e' =>
      obtain ⟨heq, rfl⟩ := Prog.ends_pure.1 hret
      obtain rfl := Except.error.inj heq
      exact hput
    | ok u =>
      obtain ⟨heq, -⟩ := Prog.ends_pure.1 hret
      cases heq
  · exact fun hput => ⟨_, w', hput, Prog.ends_pure.2 ⟨rfl, rfl⟩⟩

theorem storing_error_iff (hmarked : marked = true) :
    (storing marked clear put value).Ends (Cmd.execUnder F) w (.error e) w' ↔
      clear.Ends (Cmd.execUnder F) w (.error e) w' ∨
        ∃ w₁, clear.Ends (Cmd.execUnder F) w (.ok ()) w₁ ∧ put.Ends (Cmd.execUnder F) w₁ (.error e) w' := by
  unfold storing
  rw [if_pos hmarked, Prog.ends_bind]
  constructor
  · rintro ⟨r, w₁, hclear, hrest⟩
    cases r with
    | error e' =>
      obtain ⟨heq, rfl⟩ := Prog.ends_pure.1 hrest
      obtain rfl := Except.error.inj heq
      exact .inl hclear
    | ok u => exact .inr ⟨w₁, hclear, putting_error_iff.1 hrest⟩
  · rintro (hclear | ⟨w₁, hclear, hput⟩)
    · exact ⟨_, w', hclear, Prog.ends_pure.2 ⟨rfl, rfl⟩⟩
    · exact ⟨_, w₁, hclear, putting_error_iff.2 hput⟩

/-- A failed write leaves the old world or, when only the answer is lost, the new one. -/
theorem wrote_error_iff {x : Option World} : (∃ e, Wrote F w x (.error e) w') ↔
    (w' = w ∧ (x = none ∨ F.lost)) ∨ (F.unacked ∧ x = some w') := by
  constructor
  · rintro ⟨e, h⟩
    cases h with
    | refused => exact .inl ⟨rfl, .inl rfl⟩
    | lost hlost => exact .inl ⟨rfl, .inr hlost⟩
    | unacked hunacked =>
      cases x with
      | none => exact .inl ⟨rfl, .inl rfl⟩
      | some v => exact .inr ⟨hunacked, rfl⟩
  · rintro (⟨rfl, rfl | hlost⟩ | ⟨hunacked, rfl⟩)
    · exact ⟨_, .refused⟩
    · exact ⟨_, .lost (m := "") hlost⟩
    · exact ⟨_, .unacked (m := "") hunacked⟩

/-- When a failed store leaves agents and swarms alone: the flags of rivals are only
cleared if the document can be stored and the store answers, and the document is not
stored without an answer. -/
theorem storing_atomic_iff
    (hclear : ∀ {r w'}, clear.Ends (Cmd.execUnder F) w r w' ↔ Wrote F w (some cleared) r w')
    (hput : ∀ {v r w'}, put.Ends (Cmd.execUnder F) v r w' ↔ Wrote F v (eff v) r w')
    (hnew : ∀ {v v'}, w.Same v ∨ v = cleared → eff v = some v' → ¬ w.Same v') :
    (∀ e w', (storing marked clear put value).Ends (Cmd.execUnder F) w (.error e) w' → w.Same w') ↔
      (marked → ¬ w.Same cleared → eff cleared ≠ none ∧ ¬ F.lost ∧ ¬ F.unacked) ∧
        (F.unacked → eff (if marked then cleared else w) = none) := by
  cases marked with
  | false =>
    have hends : ∀ e w', (storing false clear put value).Ends (Cmd.execUnder F) w (.error e) w' ↔
        Wrote F w (eff w) (.error e) w' := fun e w' => putting_error_iff.trans hput
    simp only [hends, Bool.false_eq_true, false_imp_iff, true_and, if_false]
    constructor
    · intro h hunacked
      cases heff : eff w with
      | none => rfl
      | some v =>
        have hwrote : ∃ e, Wrote F w (eff w) (.error e) v := wrote_error_iff.2 (.inr ⟨hunacked, heff⟩)
        exact absurd (hwrote.elim fun e hwrote => h e v hwrote) (hnew (.inl .rfl) heff)
    · intro h e w' hwrote
      rcases wrote_error_iff.1 ⟨e, hwrote⟩ with ⟨rfl, -⟩ | ⟨hunacked, heff⟩
      · exact .rfl
      · rw [h hunacked] at heff
        cases heff
  | true =>
    simp only [storing_error_iff rfl, hclear, hput, true_imp_iff, if_true]
    constructor
    · intro h
      refine ⟨fun hsame => ⟨fun heff => ?_, fun hlost => ?_, fun hunacked => ?_⟩, fun hunacked => ?_⟩
      · obtain ⟨e, hwrote⟩ := wrote_error_iff.2 (.inl ⟨rfl, .inl heff⟩)
        exact hsame (h e cleared (.inr ⟨_, .done, hwrote⟩))
      · exact hsame (h _ _ (.inr ⟨_, .done, .lost (m := "") hlost⟩))
      · exact hsame (h _ _ (.inl (.unacked (m := "") hunacked)))
      · cases heff : eff cleared with
        | none => rfl
        | some v =>
          obtain ⟨e, hwrote⟩ := wrote_error_iff.2 (.inr ⟨hunacked, heff⟩)
          exact absurd (h e v (.inr ⟨_, .done, hwrote⟩)) (hnew (.inr rfl) heff)
    · rintro ⟨hcleared, hstored⟩ e w' h
      by_cases hsame : w.Same cleared
      · rcases h with hwrote | ⟨w₁, hdone, hwrote⟩
        · rcases wrote_error_iff.1 ⟨e, hwrote⟩ with ⟨rfl, -⟩ | ⟨-, heff⟩
          · exact .rfl
          · exact Option.some.inj heff ▸ hsame
        · cases hdone
          rcases wrote_error_iff.1 ⟨e, hwrote⟩ with ⟨rfl, -⟩ | ⟨hunacked, heff⟩
          · exact hsame
          · rw [hstored hunacked] at heff
            cases heff
      · obtain ⟨heff, hlost, hunacked⟩ := hcleared hsame
        rcases h with hwrote | ⟨w₁, hdone, hwrote⟩
        · rcases wrote_error_iff.1 ⟨e, hwrote⟩ with ⟨rfl, -⟩ | ⟨hF, -⟩
          · exact .rfl
          · exact absurd hF hunacked
        · cases hdone
          rcases wrote_error_iff.1 ⟨e, hwrote⟩ with ⟨-, hnone | hF⟩ | ⟨hF, -⟩
          · exact absurd hnone heff
          · exact absurd hF hlost
          · exact absurd hF hunacked

end Storing

/-! ## Saves -/

namespace World

variable {w : World}

theorem same_clearAgents_iff {x : Agent} (hdirection : x.direction ≠ "") :
    w.Same (w.clearAgents x) ↔ ∀ a ∈ w.agents, ¬ Agent.marking.Rival Agent.id x a := by
  have hiff : (w.clearAgents x).agents = w.agents ↔ ∀ a ∈ w.agents, ¬ Agent.marking.Rival Agent.id x a :=
    Marking.updateAll_eq_iff (fun _ => Agent.clearDefault_id) (fun _ => Agent.clearDefault_key)
      (fun _ => Agent.clearDefault_eq hdirection) fun _ => Bool.false_ne_true
  exact ⟨fun h => hiff.1 h.agents, fun h => ⟨hiff.2 h, rfl⟩⟩

theorem same_clearSwarms_iff {x : AgentSwarm} :
    w.Same (w.clearSwarms x) ↔ ∀ a ∈ w.swarms, ¬ AgentSwarm.marking.Rival AgentSwarm.id x a := by
  have hiff : (w.clearSwarms x).swarms = w.swarms ↔ ∀ a ∈ w.swarms, ¬ AgentSwarm.marking.Rival AgentSwarm.id x a :=
    Marking.updateAll_eq_iff (fun _ => AgentSwarm.clearDefault_id) (fun _ => AgentSwarm.clearDefault_key)
      (fun _ => AgentSwarm.clearDefault_eq) fun _ => Bool.false_ne_true
  exact ⟨fun h => hiff.1 h.swarms, fun h => ⟨rfl, hiff.2 h⟩⟩

end World

namespace Save

/-- The request passes the checks. -/
def Admitted (lower : Char → Char) (w : World) : Save → Prop
  | .agent value _ => ∃ value', value.prepared lower = .ok value'
  | .swarm value _ => ∃ value', w.Accepts value value'

/-- Another document has the requested key. -/
def Taken (w : World) : Save → Prop
  | .agent value _ => ∃ a ∈ w.agents, (value.id = "" ∨ a.id ≠ value.id) ∧ a.key = value.key
  | .swarm value _ => ∃ a ∈ w.swarms, (value.id = "" ∨ a.id ≠ value.id) ∧ a.key = value.key

/-- The request is for a default, and another default has an overlapping scope. -/
def Contested (w : World) : Save → Prop
  | .agent value _ => value.isDefault ∧ ∃ a ∈ w.agents, (value.id = "" ∨ a.id ≠ value.id) ∧
      a.isDefault ∧ Agent.marking.overlaps a value
  | .swarm value _ => value.isDefault ∧ ∃ a ∈ w.swarms, (value.id = "" ∨ a.id ≠ value.id) ∧
      a.isDefault ∧ AgentSwarm.marking.overlaps a value

/-- Whenever the save returns an error, the agents and the swarms are as before. -/
def Atomic (lower : Char → Char) (F : Faults) (w : World) (s : Save) : Prop :=
  ∀ e w', (s.prog lower).Ends (Cmd.execUnder F) w (.error e) w' → w.Same w'

end Save

section Atomic

variable {lower : Char → Char} {F : Faults} {w : World} {actor : String}

theorem map_error_iff {α β : Type} {p : Service (Except Err α)} {f : α → β} {e : Err} {w' : World} :
    Prog.Ends (Cmd.execUnder F) (do return (← p).map f) w (.error e : Except Err β) w' ↔
      p.Ends (Cmd.execUnder F) w (.error e) w' := by
  rw [Prog.ends_bind]
  constructor
  · rintro ⟨r, w₁, hp, hret⟩
    obtain ⟨heq, rfl⟩ := Prog.ends_pure.1 hret
    cases r with
    | error e' =>
      obtain rfl := Except.error.inj heq
      exact hp
    | ok a => cases heq
  · exact fun hp => ⟨_, w', hp, Prog.ends_pure.2 ⟨rfl, rfl⟩⟩

/-- The two writes of an agent that the checks let through. -/
theorem storeAgent_atomic_iff {value x : Agent} (hx : Agent.Written w value actor x)
    (hdirection : value.direction ≠ "") :
    (∀ e w', (storeAgent x).Ends (Cmd.execUnder F) w (.error e) w' → w.Same w') ↔
      (Save.Contested w (.agent value actor) →
        ¬ Save.Taken w (.agent value actor) ∧ ¬ F.lost ∧ ¬ F.unacked) ∧
      (F.unacked → Save.Taken w (.agent value actor)) := by
  have hscope := hx.sameScope
  have htaken : w.putAgent x = none ↔ Save.Taken w (.agent value actor) := by
    rw [World.putAgent_eq_none_iff, hscope.key]
    exact exists_congr fun a => and_congr_right fun ha => and_congr_left fun _ => hx.id_ne_iff ha
  have hcontested : (x.isDefault ∧ ¬ w.Same (w.clearAgents x)) ↔ Save.Contested w (.agent value actor) := by
    rw [World.same_clearAgents_iff (hscope.direction ▸ hdirection), hscope.isDefault]
    simp only [not_forall, not_not, exists_prop]
    refine and_congr_right fun _ => exists_congr fun a => and_congr_right fun ha => ?_
    have hoverlaps : Agent.marking.overlaps a x ↔ Agent.marking.overlaps a value := by
      rw [Agent.overlaps_iff, Agent.overlaps_iff, hscope.channels, hscope.direction]
    exact and_congr (hx.id_ne_iff ha) (and_congr_right fun _ => hoverlaps)
  have hif : (if x.isDefault then w.clearAgents x else w).putAgent x = none ↔ w.putAgent x = none := by
    split
    · exact World.putAgent_clearAgents
    · rfl
  rw [storeAgent_eq, storing_atomic_iff ends_clearAgentDefaults ends_saveAgent, hif,
    ne_eq, World.putAgent_clearAgents, htaken, ← hcontested, and_imp]
  intro v v' _ hput hsame
  obtain ⟨agents, hagents, rfl⟩ := Option.map_eq_some_iff.1 hput
  exact hx.not_mem (hsame.agents ▸ Collection.self_mem_replaceOne hagents)

/-- The two writes of a swarm that the checks let through. -/
theorem storeSwarm_atomic_iff {value x : AgentSwarm} (hx : AgentSwarm.Written w value actor x) :
    (∀ e w', (storeSwarm x).Ends (Cmd.execUnder F) w (.error e) w' → w.Same w') ↔
      (Save.Contested w (.swarm value actor) →
        ¬ Save.Taken w (.swarm value actor) ∧ ¬ F.lost ∧ ¬ F.unacked) ∧
      (F.unacked → Save.Taken w (.swarm value actor)) := by
  have hscope := hx.sameScope
  have htaken : w.putSwarm x = none ↔ Save.Taken w (.swarm value actor) := by
    rw [World.putSwarm_eq_none_iff, hscope.key]
    exact exists_congr fun a => and_congr_right fun ha => and_congr_left fun _ => hx.id_ne_iff ha
  have hcontested : (x.isDefault ∧ ¬ w.Same (w.clearSwarms x)) ↔ Save.Contested w (.swarm value actor) := by
    rw [World.same_clearSwarms_iff, hscope.isDefault]
    simp only [not_forall, not_not, exists_prop]
    refine and_congr_right fun _ => exists_congr fun a => and_congr_right fun ha => ?_
    have hoverlaps : AgentSwarm.marking.overlaps a x ↔ AgentSwarm.marking.overlaps a value := by
      rw [AgentSwarm.overlaps_iff, AgentSwarm.overlaps_iff, hscope.channels, hscope.directions]
    exact and_congr (hx.id_ne_iff ha) (and_congr_right fun _ => hoverlaps)
  have hif : (if x.isDefault then w.clearSwarms x else w).putSwarm x = none ↔ w.putSwarm x = none := by
    split
    · exact World.putSwarm_clearSwarms
    · rfl
  rw [storeSwarm_eq, storing_atomic_iff ends_clearSwarmDefaults ends_saveSwarm, hif,
    ne_eq, World.putSwarm_clearSwarms, htaken, ← hcontested, and_imp]
  intro v v' _ hput hsame
  obtain ⟨swarms, hswarms, rfl⟩ := Option.map_eq_some_iff.1 hput
  exact hx.not_mem (hsame.swarms ▸ Collection.self_mem_replaceOne hswarms)

/-- The checks change nothing that the two writes depend on. -/
theorem Agent.Prepared.save_congr {value value' : Agent} {w₁ : World}
    (h : Agent.Prepared lower value value') (actor : String) (hsame : w.Same w₁) :
    (Save.Contested w₁ (.agent value' actor) ↔ Save.Contested w (.agent value actor)) ∧
      (Save.Taken w₁ (.agent value' actor) ↔ Save.Taken w (.agent value actor)) := by
  rw [h.eq]
  simp only [Save.Contested, Save.Taken, Agent.overlaps_iff, hsame.agents, and_self]

theorem World.Accepts.save_congr {value value' : AgentSwarm} {w₁ : World} (h : w.Accepts value value')
    (actor : String) (hsame : w.Same w₁) :
    (Save.Contested w₁ (.swarm value' actor) ↔ Save.Contested w (.swarm value actor)) ∧
      (Save.Taken w₁ (.swarm value' actor) ↔ Save.Taken w (.swarm value actor)) := by
  obtain ⟨agents, -, hprepared⟩ := h.prepared
  obtain ⟨status, number, rfl⟩ := AgentSwarm.prepared_eq hprepared
  simp only [Save.Contested, Save.Taken, AgentSwarm.overlaps_iff, hsame.swarms, and_self]

theorem saveAgent_atomic_iff {value : Agent} :
    (∀ e w', (saveAgent lower value actor).Ends (Cmd.execUnder F) w (.error e) w' → w.Same w') ↔
      (Save.Admitted lower w (.agent value actor) → (Save.Contested w (.agent value actor) →
        ¬ Save.Taken w (.agent value actor) ∧ ¬ F.lost ∧ ¬ F.unacked) ∧
          (F.unacked → Save.Taken w (.agent value actor))) := by
  have hdirection : ∀ {value'}, Agent.Prepared lower value value' → value'.direction ≠ "" := by
    intro value' h
    rw [h.eq]
    exact h.direction
  constructor
  · rintro h ⟨value', hprepared⟩
    obtain ⟨x, w₁, hx, hsame, hends⟩ := saveAgent_ends F w actor hprepared
    have hprepared := Agent.prepared_ok hprepared
    obtain ⟨hcontested, htaken⟩ := hprepared.save_congr actor hsame
    rw [← hcontested, ← htaken]
    exact (storeAgent_atomic_iff hx (hdirection hprepared)).1 fun e w' he =>
      hsame.symm.trans (h e w' (hends _ w' he))
  · intro h e w' hends
    have hwp : Prog.wp (Cmd.execUnder F) (fun r w' => ∀ e, r = .error e → w.Same w')
        (saveAgent lower value actor) w := by
      refine saveAgent_rule (fun _ _ hsame _ _ => hsame) fun value' x w₁ hvalue hx hsame => ?_
      have hprepared := Agent.prepared_ok hvalue
      obtain ⟨hcontested, htaken⟩ := hprepared.save_congr actor hsame
      have hcondition := h ⟨value', hvalue⟩
      rw [← hcontested, ← htaken] at hcondition
      refine Prog.wp_iff_ends.2 fun r w₂ hr e he => ?_
      subst he
      exact hsame.trans ((storeAgent_atomic_iff hx (hdirection hprepared)).2 hcondition e w₂ hr)
    exact Prog.wp_iff_ends.1 hwp _ w' hends e rfl

theorem saveSwarm_atomic_iff {value : AgentSwarm} :
    (∀ e w', (saveSwarm value actor).Ends (Cmd.execUnder F) w (.error e) w' → w.Same w') ↔
      (Save.Admitted lower w (.swarm value actor) → (Save.Contested w (.swarm value actor) →
        ¬ Save.Taken w (.swarm value actor) ∧ ¬ F.lost ∧ ¬ F.unacked) ∧
          (F.unacked → Save.Taken w (.swarm value actor))) := by
  constructor
  · rintro h ⟨value', haccepts⟩
    obtain ⟨x, w₁, hx, hsame, hends⟩ := saveSwarm_ends F actor haccepts
    obtain ⟨hcontested, htaken⟩ := haccepts.save_congr actor hsame
    rw [← hcontested, ← htaken]
    exact (storeSwarm_atomic_iff hx).1 fun e w' he => hsame.symm.trans (h e w' (hends _ w' he))
  · intro h e w' hends
    have hwp : Prog.wp (Cmd.execUnder F) (fun r w' => ∀ e, r = .error e → w.Same w')
        (saveSwarm value actor) w := by
      refine saveSwarm_rule (fun _ _ hsame _ _ => hsame) fun value' x w₁ haccepts hx hsame => ?_
      obtain ⟨hcontested, htaken⟩ := haccepts.save_congr actor hsame
      have hcondition := h ⟨value', haccepts⟩
      rw [← hcontested, ← htaken] at hcondition
      refine Prog.wp_iff_ends.2 fun r w₂ hr e he => ?_
      subst he
      exact hsame.trans ((storeSwarm_atomic_iff hx).2 hcondition e w₂ hr)
    exact Prog.wp_iff_ends.1 hwp _ w' hends e rfl

/-- A failed save changes no agent and no swarm, exactly when a request that passes
the checks takes the flag of another default only if its key is free and the store
answers, and the answer to its own write is lost only if the key is taken. -/
theorem save_atomic_iff {s : Save} : s.Atomic lower F w ↔
    (s.Admitted lower w → (s.Contested w → ¬ s.Taken w ∧ ¬ F.lost ∧ ¬ F.unacked) ∧
      (F.unacked → s.Taken w)) := by
  cases s with
  | agent value actor =>
    rw [← saveAgent_atomic_iff]
    exact forall₂_congr fun e w' => imp_congr_left map_error_iff
  | swarm value actor =>
    rw [← saveSwarm_atomic_iff]
    exact forall₂_congr fun e w' => imp_congr_left map_error_iff

end Atomic

/-! ## A failed save that takes a flag away -/

namespace Sample

/-- A new default workflow under the key of the one that is stored. -/
def copiedSwarm : Save := .swarm { swarm with id := "" } "admin"

end Sample

/-- The copy is refused for its key, and the stored workflow is no default any more. -/
theorem not_atomic_copiedSwarm :
    ¬ ∀ (lower : Char → Char) (w : World) (s : Save), s.Atomic lower ⟨false, false⟩ w := by
  intro h
  have hrun : ((Sample.copiedSwarm.prog Char.toLower).run (Cmd.execUnder ⟨false, false⟩)
      (List.replicate 6 { random := "a1" }) Sample.world).any fun r => !r.1.isOk &&
        r.2.swarms.docs.all (!·.isDefault) := by
    decide +kernel
  obtain ⟨⟨r, w'⟩, hrun, hcheck⟩ := (Option.any_eq_true ..).1 hrun
  obtain ⟨herror, hcleared⟩ := Bool.and_eq_true_iff.1 hcheck
  cases r with
  | ok x => cases herror
  | error e =>
    have hsame := h Char.toLower Sample.world Sample.copiedSwarm e w' ⟨_, hrun⟩
    have hcleared : Sample.world.swarms.docs.all (!·.isDefault) := hsame.swarms ▸ hcleared
    exact absurd hcleared (by decide)

end Stylme
