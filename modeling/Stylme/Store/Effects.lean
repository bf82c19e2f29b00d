-- SUMMARY: What each command does to the world and what its answer says about it.
import Stylme.Store.World

/-!
# Effects of commands

One lemma per command: the world after it and what an answer reveals. Later
proofs use these and never unfold `Cmd.exec`.
-/

namespace Stylme

open Conc

variable {o : Oracle} {w w' : World}

theorem answer_some {α : Type} {r r' : Except Err α} (h : answer o r w = some (r', w')) :
    w' = w ∧ (r' = r ∨ ∃ m, r' = .error (.unavailable m)) := by
  unfold answer at h
  split at h <;> simp only [Option.some.injEq, Prod.mk.injEq] at h <;> obtain ⟨rfl, rfl⟩ := h
  · exact ⟨rfl, .inl rfl⟩
  · exact ⟨rfl, .inr ⟨_, rfl⟩⟩
  · exact ⟨rfl, .inr ⟨_, rfl⟩⟩

theorem commit_some {α : Type} {r r' : Except Err α} {w₁ : World}
    (h : commit o r w w₁ = some (r', w')) :
    (w' = w ∧ ∃ m, r' = .error (.unavailable m)) ∨
      (w' = w₁ ∧ (r' = r ∨ ∃ m, r' = .error (.unavailable m))) := by
  unfold commit at h
  split at h <;> simp only [Option.some.injEq, Prod.mk.injEq] at h <;> obtain ⟨rfl, rfl⟩ := h
  · exact .inr ⟨rfl, .inl rfl⟩
  · exact .inl ⟨rfl, _, rfl⟩
  · exact .inr ⟨rfl, .inr ⟨_, rfl⟩⟩

theorem answer_reliable {α : Type} {r r' : Except Err α} (ho : o.fault = .none)
    (h : answer o r w = some (r', w')) : r' = r := by
  simp only [answer, ho, Option.some.injEq, Prod.mk.injEq] at h
  exact h.1.symm

theorem commit_reliable {α : Type} {r r' : Except Err α} {w₁ : World} (ho : o.fault = .none)
    (h : commit o r w w₁ = some (r', w')) : r' = r ∧ w' = w₁ := by
  simp only [commit, ho, Option.some.injEq, Prod.mk.injEq] at h
  exact ⟨h.1.symm, h.2.symm⟩

theorem found_eq_ok {α : Type} {d : Option α} {a : α} : found d = .ok a ↔ d = some a := by
  cases d <;> simp [found]

/-! ## Reads -/

/-- A look-up answers with what is stored, with `ErrNotFound`, or not at all. -/
theorem answer_found {α : Type} {d : Option α} {r : Except Err α}
    (h : answer o (found d) w = some (r, w')) : w' = w ∧ ((∃ a, d = some a ∧ r = .ok a) ∨
      (d = none ∧ r = .error .notFound) ∨ ∃ m, r = .error (.unavailable m)) := by
  obtain ⟨hw, hr | hr⟩ := answer_some h
  · refine ⟨hw, ?_⟩
    cases d with
    | some a => exact .inl ⟨a, rfl, hr⟩
    | none => exact .inr (.inl ⟨rfl, hr⟩)
  · exact ⟨hw, .inr (.inr hr)⟩

/-- A store read answers with what is stored or with an error. -/
theorem answer_ok {α : Type} {r : Except Err α} {a : α} (h : answer o r w = some (.ok a, w')) :
    w' = w ∧ r = .ok a := by
  obtain ⟨hw, hr | ⟨m, hm⟩⟩ := answer_some h
  · exact ⟨hw, hr.symm⟩
  · cases hm

theorem exec_getCall {id : String} {c : Call}
    (h : Cmd.exec (.getCall id) o w = some (.ok c, w')) : c ∈ w.calls ∧ c.id = id :=
  Collection.get_eq_some_iff.1 (found_eq_ok.1 (answer_ok h).2)

theorem exec_getCallByIdempotencyKey {key : String} {c : Call}
    (h : Cmd.exec (.getCallByIdempotencyKey key) o w = some (.ok c, w')) :
    c ∈ w.calls ∧ c.idempotencyKey = key :=
  Collection.find?_key_eq_some_iff.1 (found_eq_ok.1 (answer_ok h).2)

theorem exec_getCallByRoom {room : String} {c : Call}
    (h : Cmd.exec (.getCallByRoom room) o w = some (.ok c, w')) : c ∈ w.calls ∧ c.inRoom room := by
  have hmem := List.mem_filter.1 (mem_of_findOneSorted (found_eq_ok.1 (answer_ok h).2))
  exact ⟨hmem.1, hmem.2⟩

/-- A reliable look-up that finds no call means that no call is in the room. -/
theorem exec_getCallByRoom_notFound {room : String} (ho : o.fault = .none)
    (h : Cmd.exec (.getCallByRoom room) o w = some (.error .notFound, w')) :
    ∀ c ∈ w.calls, ¬ c.inRoom room := by
  have hfound := answer_reliable ho h
  cases hfind : findOneSorted (fun _ _ => true) o.pick (w.calls.docs.filter (·.inRoom room)) with
  | some d => rw [hfind] at hfound; cases hfound
  | none =>
    intro c hc hroom
    exact List.filter_eq_nil_iff.1 (eq_nil_of_findOne hfind) c hc hroom

theorem exec_getCampaign {id : String} {campaign : Campaign}
    (h : Cmd.exec (.getCampaign id) o w = some (.ok campaign, w')) :
    campaign ∈ w.campaigns ∧ campaign.id = id :=
  Collection.get_eq_some_iff.1 (found_eq_ok.1 (answer_ok h).2)

theorem exec_getSwarm {id : String} {swarm : AgentSwarm}
    (h : Cmd.exec (.getSwarm id) o w = some (.ok swarm, w')) : swarm ∈ w.swarms ∧ swarm.id = id :=
  Collection.get_eq_some_iff.1 (found_eq_ok.1 (answer_ok h).2)

theorem exec_countActiveCampaignCalls {id exclude : String} {active : Int}
    (h : Cmd.exec (.countActiveCampaignCalls id exclude) o w = some (.ok active, w')) :
    active = w.calls.count (·.countsFor id exclude) :=
  (Except.ok.inj (answer_ok h).2).symm

theorem exec_randomID {kind id : String} (h : Cmd.exec (.randomID kind) o w = some (id, w')) :
    id ∉ w.issued ∧ (∀ c ∈ w.calls, c.id ≠ id) ∧ w' = { w with issued := id :: w.issued } := by
  simp only [Cmd.exec] at h
  split at h
  · cases h
  · rename_i hfresh
    simp only [Option.some.injEq, Prod.mk.injEq] at h
    obtain ⟨rfl, rfl⟩ := h
    exact ⟨fun hi => hfresh (.inl hi), fun c hc hid => hfresh (.inr (.inl ⟨c, hc, hid⟩)), rfl⟩

theorem exec_randomID_campaign {kind id : String}
    (h : Cmd.exec (.randomID kind) o w = some (id, w')) : w.campaigns.get id = none := by
  simp only [Cmd.exec] at h
  split at h
  · cases h
  · rename_i hfresh
    simp only [Option.some.injEq, Prod.mk.injEq] at h
    obtain ⟨rfl, -⟩ := h
    exact Collection.get_eq_none_iff.2 fun campaign hc hid =>
      hfresh (.inr (.inr (.inr (.inl ⟨campaign, hc, hid⟩))))

theorem exec_randomID_swarm {kind id : String}
    (h : Cmd.exec (.randomID kind) o w = some (id, w')) : w.swarms.get id = none := by
  simp only [Cmd.exec] at h
  split at h
  · cases h
  · rename_i hfresh
    simp only [Option.some.injEq, Prod.mk.injEq] at h
    obtain ⟨rfl, -⟩ := h
    exact Collection.get_eq_none_iff.2 fun swarm hs hid =>
      hfresh (.inr (.inr (.inl ⟨swarm, hs, hid⟩)))

theorem exec_randomID_agent {kind id : String}
    (h : Cmd.exec (.randomID kind) o w = some (id, w')) : w.agents.get id = none := by
  simp only [Cmd.exec] at h
  split at h
  · cases h
  · rename_i hfresh
    simp only [Option.some.injEq, Prod.mk.injEq] at h
    obtain ⟨rfl, -⟩ := h
    exact Collection.get_eq_none_iff.2 fun agent ha hid =>
      hfresh (.inr (.inr (.inr (.inr ⟨agent, ha, hid⟩))))

/-- What the generator draws is never empty. -/
theorem exec_randomID_ne {kind id : String} (h : Cmd.exec (.randomID kind) o w = some (id, w')) :
    id ≠ "" := by
  simp only [Cmd.exec] at h
  split at h
  · cases h
  · simp only [Option.some.injEq, Prod.mk.injEq] at h
    obtain ⟨rfl, -⟩ := h
    simp [String.append_eq_empty_iff]

/-! ## Writes of calls -/

theorem exec_saveCall {x : Call} {r : Except Err Unit}
    (h : Cmd.exec (.saveCall x) o w = some (r, w')) :
    (w' = w ∧ ∃ e, r = .error e) ∨
      ∃ calls, w.calls.replaceOne x = some calls ∧ w' = { w with calls := calls } := by
  simp only [Cmd.exec] at h
  split at h
  · rename_i calls hcalls
    rcases commit_some h with ⟨hw, m, hr⟩ | ⟨hw, -⟩
    · exact .inl ⟨hw, _, hr⟩
    · exact .inr ⟨calls, hcalls, hw⟩
  · obtain ⟨hw, hr | ⟨m, hr⟩⟩ := answer_some h
    · exact .inl ⟨hw, _, hr⟩
    · exact .inl ⟨hw, _, hr⟩

/-- A write that reaches the store and meets no other key is applied. -/
theorem exec_saveCall_applied {x : Call} {r : Except Err Unit}
    {calls : Collection Call Call.id Call.idempotencyKey} (hfault : ¬ o.fault.isLost)
    (hcalls : w.calls.replaceOne x = some calls) (h : Cmd.exec (.saveCall x) o w = some (r, w')) :
    w' = { w with calls := calls } := by
  simp only [Cmd.exec, hcalls, commit] at h
  cases hf : o.fault with
  | lost m => simp [hf, Fault.isLost] at hfault
  | none | unacked m =>
    simp only [hf, Option.some.injEq, Prod.mk.injEq] at h
    exact h.2.symm

/-- A write that is applied without an answer is one the store accepts. -/
theorem exec_saveCall_error {x : Call} {e : Err}
    (hfault : ¬ o.fault.isUnacked ∨ w.calls.replaceOne x = none)
    (h : Cmd.exec (.saveCall x) o w = some (.error e, w')) : w' = w := by
  simp only [Cmd.exec] at h
  split at h
  · rename_i calls hcalls
    simp only [hcalls, reduceCtorEq, or_false] at hfault
    cases hf : o.fault with
    | none => simp [commit, hf] at h
    | unacked m => simp [hf, Fault.isUnacked] at hfault
    | lost m =>
      simp only [commit, hf, Option.some.injEq, Prod.mk.injEq] at h
      exact h.2.symm
  · exact (answer_some h).1

/-- A write meets the unique index only where another call has its key. -/
theorem exec_saveCall_duplicateKey {x : Call}
    (h : Cmd.exec (.saveCall x) o w = some (.error .duplicateKey, w')) :
    ∃ c ∈ w.calls, c.id ≠ x.id ∧ c.idempotencyKey = x.idempotencyKey := by
  simp only [Cmd.exec] at h
  split at h
  · rcases commit_some h with ⟨-, m, hr⟩ | ⟨-, hr | ⟨m, hr⟩⟩ <;> cases hr
  · rename_i hcalls
    exact Collection.replaceOne_eq_none_iff.1 hcalls

/-- Whether the write of a call takes effect. -/
def World.applies (w : World) (o : Oracle) (x : Call) : Bool :=
  !o.fault.isLost && (w.calls.replaceOne x).isSome

/-- A write that takes effect stores the call, and is acknowledged unless only the
answer is lost. -/
theorem exec_saveCall_of_applies {x : Call} {r : Except Err Unit} (hx : w.applies o x)
    (h : Cmd.exec (.saveCall x) o w = some (r, w')) :
    w'.calls.get x.id = some x ∧ (r = .ok () ∨ ∃ e, r = .error e ∧ o.fault.isUnacked) := by
  simp only [World.applies, Bool.and_eq_true, Bool.not_eq_true', Option.isSome_iff_exists] at hx
  obtain ⟨hlost, calls, hcalls⟩ := hx
  have hw := exec_saveCall_applied (by simp [hlost]) hcalls h
  refine ⟨hw ▸ Collection.get_replaceOne_self hcalls, ?_⟩
  cases r with
  | ok u => exact .inl rfl
  | error e =>
    refine .inr ⟨e, rfl, ?_⟩
    simp only [Cmd.exec, hcalls] at h
    cases hf : o.fault with
    | none => simp [commit, hf] at h
    | lost m => simp [hf, Fault.isLost] at hlost
    | unacked m => rfl

/-- A write that takes no effect is refused. -/
theorem exec_saveCall_of_not_applies {x : Call} {r : Except Err Unit} (hx : ¬ w.applies o x)
    (h : Cmd.exec (.saveCall x) o w = some (r, w')) : w' = w ∧ ∃ e, r = .error e := by
  simp only [World.applies, Bool.and_eq_true, Bool.not_eq_true', not_and] at hx
  simp only [Cmd.exec] at h
  split at h
  · rename_i calls hcalls
    cases hf : o.fault with
    | none => simp [hf, Fault.isLost, hcalls] at hx
    | unacked m => simp [hf, Fault.isLost, hcalls] at hx
    | lost m =>
      simp only [commit, hf, Option.some.injEq, Prod.mk.injEq] at h
      exact ⟨h.2.symm, _, h.1.symm⟩
  · obtain ⟨hw, hr | ⟨m, hr⟩⟩ := answer_some h
    · exact ⟨hw, _, hr⟩
    · exact ⟨hw, _, hr⟩

theorem exec_claimPendingCall {now : Time} {lease : Duration} {r : Except Err Call}
    (h : Cmd.exec (.claimPendingCall now lease) o w = some (r, w')) :
    (w' = w ∧ ∃ e, r = .error e) ∨
      ∃ c calls, c ∈ w.calls ∧ c.claimable now ∧
        w.calls.replaceOne (c.claimed now lease) = some calls ∧ w' = { w with calls := calls } ∧
        (r = .ok (c.claimed now lease) ∨ ∃ e, r = .error e) := by
  simp only [Cmd.exec] at h
  split at h
  · obtain ⟨hw, hr | ⟨m, hr⟩⟩ := answer_some h
    · exact .inl ⟨hw, _, hr⟩
    · exact .inl ⟨hw, _, hr⟩
  rename_i c hc
  have hmem := List.mem_filter.1 (mem_of_findOneSorted hc)
  split at h
  · rename_i calls hcalls
    rcases commit_some h with ⟨hw, m, hr⟩ | ⟨hw, hr⟩
    · exact .inl ⟨hw, _, hr⟩
    · refine .inr ⟨c, calls, hmem.1, hmem.2, hcalls, hw, ?_⟩
      rcases hr with hr | ⟨m, hr⟩
      · exact .inl hr
      · exact .inr ⟨_, hr⟩
  · obtain ⟨hw, hr | ⟨m, hr⟩⟩ := answer_some h
    · exact .inl ⟨hw, _, hr⟩
    · exact .inl ⟨hw, _, hr⟩

/-- A claim without an answer takes nothing, unless the answer alone was lost. -/
theorem exec_claimPendingCall_error {now : Time} {lease : Duration} {e : Err}
    (hfault : ¬ o.fault.isUnacked ∨ ∀ c ∈ w.calls, ¬ c.claimable now)
    (h : Cmd.exec (.claimPendingCall now lease) o w = some (.error e, w')) : w' = w := by
  simp only [Cmd.exec] at h
  split at h
  · exact (answer_some h).1
  rename_i c hc
  obtain ⟨hmem, hclaim⟩ := List.mem_filter.1 (mem_of_findOneSorted hc)
  have hacked := hfault.resolve_right fun hnone => hnone c hmem hclaim
  split at h
  · cases hf : o.fault with
    | none => simp [commit, hf] at h
    | unacked m => simp [hf, Fault.isUnacked] at hacked
    | lost m =>
      simp only [commit, hf, Option.some.injEq, Prod.mk.injEq] at h
      exact h.2.symm
  · exact (answer_some h).1

theorem exec_insertCalls {xs : List Call} {r : Except Err ℕ}
    (h : Cmd.exec (.insertCalls xs) o w = some (r, w')) :
    w' = w ∨ w' = { w with calls := (Collection.insertMany xs w.calls).1 } := by
  simp only [Cmd.exec] at h
  split at h
  · simp only [Option.some.injEq, Prod.mk.injEq] at h
    exact .inl h.2.symm
  · rcases commit_some h with ⟨hw, -⟩ | ⟨hw, -⟩
    · exact .inl hw
    · exact .inr hw

/-- An acknowledged insertion is applied. -/
theorem exec_insertCalls_ok {xs : List Call} {n : ℕ}
    (h : Cmd.exec (.insertCalls xs) o w = some (.ok n, w')) :
    w'.calls = (Collection.insertMany xs w.calls).1 := by
  simp only [Cmd.exec] at h
  split at h
  · rename_i hxs
    simp only [Option.some.injEq, Prod.mk.injEq] at h
    rw [← h.2, hxs]
    rfl
  · rcases commit_some h with ⟨-, m, hr⟩ | ⟨rfl, -⟩
    · cases hr
    · rfl

/-! ## Writes of agents, swarms and campaigns -/

theorem exec_saveAgent {agent : Agent} {r : Except Err Unit}
    (h : Cmd.exec (.saveAgent agent) o w = some (r, w')) :
    w' = w ∨ ∃ agents, w.agents.replaceOne agent = some agents ∧ w' = { w with agents := agents } := by
  simp only [Cmd.exec] at h
  split at h
  · rename_i agents hagents
    rcases commit_some h with ⟨hw, -⟩ | ⟨hw, -⟩
    · exact .inl hw
    · exact .inr ⟨agents, hagents, hw⟩
  · exact .inl (answer_some h).1

theorem exec_seedAgent {agent : Agent} {r : Except Err Unit}
    (h : Cmd.exec (.seedAgent agent) o w = some (r, w')) :
    w' = w ∨ ∃ agents, w.agents.replaceOne agent = some agents ∧ w' = { w with agents := agents } := by
  simp only [Cmd.exec] at h
  split at h
  · exact .inl (answer_some h).1
  · exact exec_saveAgent h

theorem exec_seedSwarm {swarm : AgentSwarm} {r : Except Err Unit}
    (h : Cmd.exec (.seedSwarm swarm) o w = some (r, w')) :
    w' = w ∨ ∃ swarms, w.swarms.replaceOne swarm = some swarms ∧ w' = { w with swarms := swarms } := by
  simp only [Cmd.exec] at h
  split at h
  · exact .inl (answer_some h).1
  · split at h
    · rename_i swarms hswarms
      rcases commit_some h with ⟨hw, -⟩ | ⟨hw, -⟩
      · exact .inl hw
      · exact .inr ⟨swarms, hswarms, hw⟩
    · exact .inl (answer_some h).1

theorem exec_seedCampaign {campaign : Campaign} {r : Except Err Unit}
    (h : Cmd.exec (.seedCampaign campaign) o w = some (r, w')) :
    w' = w ∨ ∃ campaigns, w.campaigns.replaceOne campaign = some campaigns ∧
      w' = { w with campaigns := campaigns } := by
  simp only [Cmd.exec] at h
  split at h
  · exact .inl (answer_some h).1
  · split at h
    · rename_i campaigns hcampaigns
      rcases commit_some h with ⟨hw, -⟩ | ⟨hw, -⟩
      · exact .inl hw
      · exact .inr ⟨campaigns, hcampaigns, hw⟩
    · exact .inl (answer_some h).1

theorem exec_saveSwarm {swarm : AgentSwarm} {r : Except Err Unit}
    (h : Cmd.exec (.saveSwarm swarm) o w = some (r, w')) :
    w' = w ∨ ∃ swarms, w.swarms.replaceOne swarm = some swarms ∧ w' = { w with swarms := swarms } := by
  simp only [Cmd.exec] at h
  split at h
  · rename_i swarms hswarms
    rcases commit_some h with ⟨hw, -⟩ | ⟨hw, -⟩
    · exact .inl hw
    · exact .inr ⟨swarms, hswarms, hw⟩
  · exact .inl (answer_some h).1

theorem exec_saveCampaign {campaign : Campaign} {r : Except Err Unit}
    (h : Cmd.exec (.saveCampaign campaign) o w = some (r, w')) :
    w' = w ∨ ∃ campaigns, w.campaigns.replaceOne campaign = some campaigns ∧
      w' = { w with campaigns := campaigns } := by
  simp only [Cmd.exec] at h
  split at h
  · rename_i campaigns hcampaigns
    rcases commit_some h with ⟨hw, -⟩ | ⟨hw, -⟩
    · exact .inl hw
    · exact .inr ⟨campaigns, hcampaigns, hw⟩
  · exact .inl (answer_some h).1

theorem exec_incrementCampaignCount {campaignID key : String} {delta : Int} {r : Except Err Unit}
    (h : Cmd.exec (.incrementCampaignCount campaignID key delta) o w = some (r, w')) :
    w' = w ∨ ∃ campaign counts campaigns, w.campaigns.get campaignID = some campaign ∧
      campaign.counts = some counts ∧
      w.campaigns.replaceOne (campaign.incremented counts key delta w.clock) = some campaigns ∧
      w' = { w with campaigns := campaigns } := by
  simp only [Cmd.exec] at h
  split at h
  · simp only [Option.some.injEq, Prod.mk.injEq] at h
    exact .inl h.2.symm
  split at h
  · exact .inl (answer_some h).1
  rename_i campaign hcampaign
  split at h
  · exact .inl (answer_some h).1
  rename_i counts hcounts
  split at h
  · rename_i campaigns hcampaigns
    rcases commit_some h with ⟨hw, -⟩ | ⟨hw, -⟩
    · exact .inl hw
    · exact .inr ⟨campaign, counts, campaigns, hcampaign, hcounts, hcampaigns, hw⟩
  · exact .inl (answer_some h).1

/-! ## Frames -/

/-- The commands that can write the calls collection. -/
def Cmd.writesCalls : Cmd → Bool
  | insertCalls _ | saveCall _ | claimPendingCall _ _ => true
  | _ => false

/-- The commands that can write the agents collection. -/
def Cmd.writesAgents : Cmd → Bool
  | saveAgent _ | clearAgentDefaults _ _ _ | seedAgent _ => true
  | _ => false

/-- The commands that can write the swarms collection. -/
def Cmd.writesSwarms : Cmd → Bool
  | saveSwarm _ | clearSwarmDefaults _ _ _ | seedSwarm _ => true
  | _ => false

/-- The commands that can write the campaigns collection. -/
def Cmd.writesCampaigns : Cmd → Bool
  | saveCampaign _ | incrementCampaignCount _ _ _ | seedCampaign _ => true
  | _ => false

/-- What a command leaves alone. -/
structure Cmd.Frame (c : Cmd) (w w' : World) : Prop where
  calls : c.writesCalls = false → w'.calls = w.calls
  agents : c.writesAgents = false → w'.agents = w.agents
  swarms : c.writesSwarms = false → w'.swarms = w.swarms
  campaigns : c.writesCampaigns = false → w'.campaigns = w.campaigns
  issued : (∀ kind, c ≠ .randomID kind) → w'.issued = w.issued

theorem Cmd.Frame.refl {c : Cmd} : c.Frame w w := ⟨fun _ => rfl, fun _ => rfl, fun _ => rfl, fun _ => rfl, fun _ => rfl⟩

theorem exec_frame {c : Cmd} {r : Resp c} (h : Cmd.exec c o w = some (r, w')) : c.Frame w w' := by
  cases c with
  | insertCalls xs =>
    rcases exec_insertCalls h with rfl | rfl
    · exact .refl
    · exact ⟨Bool.noConfusion, fun _ => rfl, fun _ => rfl, fun _ => rfl, fun _ => rfl⟩
  | saveCall x =>
    rcases exec_saveCall h with ⟨rfl, -⟩ | ⟨calls, -, rfl⟩
    · exact .refl
    · exact ⟨Bool.noConfusion, fun _ => rfl, fun _ => rfl, fun _ => rfl, fun _ => rfl⟩
  | claimPendingCall now lease =>
    rcases exec_claimPendingCall h with ⟨rfl, -⟩ | ⟨c, calls, -, -, -, rfl, -⟩
    · exact .refl
    · exact ⟨Bool.noConfusion, fun _ => rfl, fun _ => rfl, fun _ => rfl, fun _ => rfl⟩
  | randomID kind =>
    rw [(exec_randomID h).2.2]
    exact ⟨fun _ => rfl, fun _ => rfl, fun _ => rfl, fun _ => rfl, fun hne => absurd rfl (hne kind)⟩
  | now | dispatchOutbound call swarm | disposition agent transcript =>
    simp only [Cmd.exec, Option.some.injEq, Prod.mk.injEq] at h
    exact h.2 ▸ .refl
  | getAgent | getSwarm | getDefaultSwarm | getOutboundSwarmForAgent | getCampaign | getCall
  | getCallByIdempotencyKey | getCallByRoom | countActiveCampaignCalls =>
    exact (answer_some h).1 ▸ .refl
  | saveAgent agent =>
    rcases exec_saveAgent h with rfl | ⟨agents, -, rfl⟩
    · exact .refl
    · exact ⟨fun _ => rfl, Bool.noConfusion, fun _ => rfl, fun _ => rfl, fun _ => rfl⟩
  | clearAgentDefaults id channels direction =>
    rcases commit_some h with ⟨rfl, -⟩ | ⟨rfl, -⟩
    · exact .refl
    · exact ⟨fun _ => rfl, Bool.noConfusion, fun _ => rfl, fun _ => rfl, fun _ => rfl⟩
  | seedAgent agent =>
    rcases exec_seedAgent h with rfl | ⟨agents, -, rfl⟩
    · exact .refl
    · exact ⟨fun _ => rfl, Bool.noConfusion, fun _ => rfl, fun _ => rfl, fun _ => rfl⟩
  | seedSwarm swarm =>
    rcases exec_seedSwarm h with rfl | ⟨swarms, -, rfl⟩
    · exact .refl
    · exact ⟨fun _ => rfl, fun _ => rfl, Bool.noConfusion, fun _ => rfl, fun _ => rfl⟩
  | seedCampaign campaign =>
    rcases exec_seedCampaign h with rfl | ⟨campaigns, -, rfl⟩
    · exact .refl
    · exact ⟨fun _ => rfl, fun _ => rfl, fun _ => rfl, Bool.noConfusion, fun _ => rfl⟩
  | saveSwarm swarm =>
    rcases exec_saveSwarm h with rfl | ⟨swarms, -, rfl⟩
    · exact .refl
    · exact ⟨fun _ => rfl, fun _ => rfl, Bool.noConfusion, fun _ => rfl, fun _ => rfl⟩
  | clearSwarmDefaults id channels directions =>
    rcases commit_some h with ⟨rfl, -⟩ | ⟨rfl, -⟩
    · exact .refl
    · exact ⟨fun _ => rfl, fun _ => rfl, Bool.noConfusion, fun _ => rfl, fun _ => rfl⟩
  | saveCampaign campaign =>
    rcases exec_saveCampaign h with rfl | ⟨campaigns, -, rfl⟩
    · exact .refl
    · exact ⟨fun _ => rfl, fun _ => rfl, fun _ => rfl, Bool.noConfusion, fun _ => rfl⟩
  | incrementCampaignCount campaignID key delta =>
    rcases exec_incrementCampaignCount h with rfl | ⟨campaign, counts, campaigns, -, -, -, rfl⟩
    · exact .refl
    · exact ⟨fun _ => rfl, fun _ => rfl, fun _ => rfl, Bool.noConfusion, fun _ => rfl⟩

theorem exec_calls {c : Cmd} {r : Resp c} (hc : c.writesCalls = false)
    (h : Cmd.exec c o w = some (r, w')) : w'.calls = w.calls :=
  (exec_frame h).calls hc

theorem exec_issued {c : Cmd} {r : Resp c} (hrandom : ∀ kind, c ≠ .randomID kind)
    (h : Cmd.exec c o w = some (r, w')) : w'.issued = w.issued :=
  (exec_frame h).issued hrandom

/-! ## One stored call -/

/-- What one command can do to the call stored under an identifier. -/
theorem exec_get {c : Cmd} {r : Resp c} {id : String} {d : Call}
    (h : Cmd.exec c o w = some (r, w')) (hd : w.calls.get id = some d) :
    w'.calls.get id = some d ∨
      (∃ x, c = .saveCall x ∧ x.id = id ∧ w'.calls.get id = some x) ∨
      ∃ now lease, c = .claimPendingCall now lease ∧ d.claimable now ∧
        w'.calls.get id = some (d.claimed now lease) := by
  cases hc : c.writesCalls with
  | false => exact .inl (exec_calls hc h ▸ hd)
  | true =>
    cases c with
    | insertCalls xs =>
      rcases exec_insertCalls h with rfl | rfl
      · exact .inl hd
      · obtain ⟨hmem, hid⟩ := Collection.get_eq_some_iff.1 hd
        exact .inl (Collection.get_eq_some_iff.2 ⟨Collection.mem_insertMany.1 hmem, hid⟩)
    | saveCall x =>
      rcases exec_saveCall h with ⟨rfl, -⟩ | ⟨calls, hcalls, rfl⟩
      · exact .inl hd
      by_cases hid : x.id = id
      · exact .inr (.inl ⟨x, rfl, hid, hid ▸ Collection.get_replaceOne_self hcalls⟩)
      · exact .inl ((Collection.get_replaceOne_of_ne hcalls (Ne.symm hid)).trans hd)
    | claimPendingCall now lease =>
      rcases exec_claimPendingCall h with ⟨rfl, -⟩ | ⟨e, calls, he, hclaim, hcalls, rfl, -⟩
      · exact .inl hd
      by_cases hid : e.id = id
      · obtain ⟨hmem, hdid⟩ := Collection.get_eq_some_iff.1 hd
        obtain rfl := Collection.eq_of_id_eq he hmem (hid.trans hdid.symm)
        exact .inr (.inr ⟨now, lease, rfl, hclaim, hid ▸ Collection.get_replaceOne_self hcalls⟩)
      · exact .inl ((Collection.get_replaceOne_of_ne hcalls (Ne.symm hid)).trans hd)
    | _ => simp [Cmd.writesCalls] at hc

/-- Where a call that is stored after a command comes from. -/
theorem exec_mem {c : Cmd} {r : Resp c} {d : Call} (h : Cmd.exec c o w = some (r, w'))
    (hd : d ∈ w'.calls) :
    d ∈ w.calls ∨ c = .saveCall d ∨
      (∃ xs, c = .insertCalls xs ∧ d ∈ xs ∧ ∀ e ∈ w.calls, e.id ≠ d.id) ∨
      ∃ now lease e, c = .claimPendingCall now lease ∧ e ∈ w.calls ∧ e.claimable now ∧
        d = e.claimed now lease := by
  cases hc : c.writesCalls with
  | false => exact .inl (exec_calls hc h ▸ hd)
  | true =>
    cases c with
    | insertCalls xs =>
      rcases exec_insertCalls h with rfl | rfl
      · exact .inl hd
      rcases Collection.mem_insertMany.2 hd with hold | ⟨hxs, hnew⟩
      · exact .inl hold
      · exact .inr (.inr (.inl ⟨xs, rfl, hxs, fun e he => (hnew e he).1⟩))
    | saveCall x =>
      rcases exec_saveCall h with ⟨rfl, -⟩ | ⟨calls, hcalls, rfl⟩
      · exact .inl hd
      rcases (Collection.mem_replaceOne hcalls).1 hd with rfl | ⟨hold, -⟩
      · exact .inr (.inl rfl)
      · exact .inl hold
    | claimPendingCall now lease =>
      rcases exec_claimPendingCall h with ⟨rfl, -⟩ | ⟨e, calls, he, hclaim, hcalls, rfl, -⟩
      · exact .inl hd
      rcases (Collection.mem_replaceOne hcalls).1 hd with rfl | ⟨hold, -⟩
      · exact .inr (.inr (.inr ⟨now, lease, e, rfl, he, hclaim, rfl⟩))
      · exact .inl hold
    | _ => simp [Cmd.writesCalls] at hc

end Stylme
