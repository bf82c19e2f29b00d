-- SUMMARY: The telephony a saved workflow ends up with is the provisioned one, unless the request names an unknown identifier and is accepted.
import Stylme.Service.Saves
import Stylme.Service.System

/-!
# Managed telephony

The phone number, the trunks, the dispatch rule and the agent name of a workflow
are provisioned by the server; an admin may set the human destination only.
`SaveSwarm` drops the other values of a request when it creates a workflow and
when it replaces a stored one. A request under an identifier that is not stored
takes neither path, and its values are written as they came.
-/

namespace Stylme

open Conc

/-- The telephony without the human destination. -/
def TelephonyBinding.managed (t : TelephonyBinding) : TelephonyBinding :=
  { t with humanHandoffNumber := "" }

/-- Every workflow has the managed telephony of the one that was stored under its
identifier, and none if there was no such workflow. -/
def World.KeepsManaged (w w' : World) : Prop :=
  ∀ s ∈ w'.swarms, s.telephony.managed = ((w.swarms.get s.id).map (·.telephony.managed)).getD {}

/-- The request names an identifier that is not stored, has managed telephony of its
own, and nothing stands in the way of its write. -/
structure AgentSwarm.Smuggles (w : World) (value : AgentSwarm) : Prop where
  named : value.id ≠ ""
  unknown : w.swarms.get value.id = none
  managed : value.telephony.managed ≠ {}
  accepted : ∃ value', w.Accepts value value'
  free : ∀ s ∈ w.swarms, s.key ≠ value.key

variable {w : World} {value value' x : AgentSwarm} {actor : String}

theorem preserveManagedTelephony_managed {proposed stored : TelephonyBinding} :
    (preserveManagedTelephony proposed stored).managed = stored.managed := by
  unfold preserveManagedTelephony
  split
  · split <;> rfl
  · rfl

theorem clearDefault_telephony {id : String} {channels directions : List String} {now : Time}
    {s : AgentSwarm} : (s.clearDefault id channels directions now).telephony = s.telephony := by
  unfold AgentSwarm.clearDefault
  split <;> rfl

/-- The checks leave identifier, key and managed telephony of a request alone. -/
theorem World.Accepts.managed (h : w.Accepts value value') : value'.id = value.id ∧
    value'.key = value.key ∧ value'.telephony.managed = value.telephony.managed := by
  obtain ⟨agents, -, hprepared⟩ := h.prepared
  obtain ⟨status, number, rfl⟩ := AgentSwarm.prepared_eq hprepared
  exact ⟨rfl, rfl, rfl⟩

/-- What is written has the stored telephony, or that of a request under an unknown identifier. -/
theorem AgentSwarm.Written.managed (h : Written w value actor x) :
    x.telephony.managed = ((w.swarms.get x.id).map (·.telephony.managed)).getD {} ∨
      (value.id ≠ "" ∧ w.swarms.get value.id = none ∧ x.id = value.id ∧
        x.telephony.managed = value.telephony.managed) := by
  cases h with
  | created hid hnew => exact .inl (by simp [stamped, hnew, TelephonyBinding.managed])
  | updated hid hstored => exact .inl (by simp [stamped, hstored, preserveManagedTelephony_managed])
  | unknown hid hnew => exact .inr ⟨hid, hnew, rfl, rfl⟩

/-- After the writes every swarm is the written one or has its telephony from before. -/
theorem storeSwarm_swarms {F : Faults} {r : Except Err AgentSwarm} {w' : World}
    (h : (storeSwarm x).Ends (Cmd.execUnder F) w r w') :
    ∀ s ∈ w'.swarms, (s = x ∧ w.putSwarm x ≠ none) ∨
      ∃ s₀ ∈ w.swarms, s₀.id = s.id ∧ s₀.telephony = s.telephony := by
  have hcleared : ∀ s ∈ (w.clearSwarms x).swarms,
      ∃ s₀ ∈ w.swarms, s₀.id = s.id ∧ s₀.telephony = s.telephony := by
    intro s hs
    obtain ⟨s₀, hs₀, rfl⟩ := List.mem_map.1 hs
    exact ⟨s₀, hs₀, AgentSwarm.clearDefault_id.symm, clearDefault_telephony.symm⟩
  have hput : ∀ {v v' : World}, v.putSwarm x = some v' → ∀ s ∈ v'.swarms, s = x ∨ s ∈ v.swarms := by
    intro v v' hv s hs
    obtain ⟨swarms, hswarms, rfl⟩ := Option.map_eq_some_iff.1 hv
    exact ((Collection.mem_replaceOne hswarms).1 hs).imp_right And.left
  rw [storeSwarm_eq] at h
  intro s hs
  rcases storing_world ends_clearSwarmDefaults.1 ends_saveSwarm.1 h with rfl | rfl | hw' | hw'
  · exact .inr ⟨s, hs, rfl, rfl⟩
  · exact .inr (hcleared s hs)
  · rcases hput hw' s hs with rfl | hs
    · exact .inl ⟨rfl, by rw [hw']; exact Option.some_ne_none _⟩
    · exact .inr ⟨s, hs, rfl, rfl⟩
  · rcases hput hw' s hs with rfl | hs
    · refine .inl ⟨rfl, fun hnone => ?_⟩
      rw [World.putSwarm_clearSwarms.2 hnone] at hw'
      cases hw'
    · exact .inr (hcleared s hs)

/-- Whatever the store does, a request that smuggles nothing keeps managed telephony. -/
theorem saveSwarm_keepsManaged {F : Faults} (h : ¬ value.Smuggles w) :
    Prog.wp (Cmd.execUnder F) (fun _ w' => w.KeepsManaged w') (saveSwarm value actor) w := by
  have hkept : ∀ {s s₀ : AgentSwarm}, s₀ ∈ w.swarms → s₀.id = s.id → s₀.telephony = s.telephony →
      s.telephony.managed = ((w.swarms.get s.id).map (·.telephony.managed)).getD {} := by
    intro s s₀ hs₀ hid htelephony
    rw [← hid, Collection.get_eq_some_iff.2 ⟨hs₀, rfl⟩, ← htelephony]
    rfl
  refine saveSwarm_rule (fun e w' hsame s hs => ?_) fun value' x w₁ haccepts hx hsame => ?_
  · exact hkept (hsame.swarms ▸ hs) rfl rfl
  · refine Prog.wp_iff_ends.2 fun r w' hends s hs => ?_
    rcases storeSwarm_swarms hends s hs with ⟨rfl, hput⟩ | ⟨s₀, hs₀, hid, htelephony⟩
    · rcases hx.managed with hmanaged | ⟨hid, hnew, hxid, hmanaged⟩
      · rw [← hsame.swarms]
        exact hmanaged
      · obtain ⟨hid', hkey', hmanaged'⟩ := haccepts.managed
        have hunknown : w.swarms.get value.id = none := by rw [← hid', ← hsame.swarms, hnew]
        rw [hxid, hid', hunknown, hmanaged, hmanaged']
        by_contra hne
        refine h ⟨hid' ▸ hid, hunknown, hne, ⟨value', haccepts⟩, fun s' hs' hkey => hput ?_⟩
        refine World.putSwarm_eq_none_iff.2 ⟨s', hsame.swarms ▸ hs', fun heq => ?_, ?_⟩
        · exact Collection.get_eq_none_iff.1 hunknown s' hs' (heq.trans (hxid.trans hid'))
        · exact hkey.trans (hx.sameScope.key.trans hkey').symm
    · exact hkept (hsame.swarms ▸ hs₀) hid htelephony

/-- A document whose key is free can be stored. -/
theorem storeSwarm_stores {F : Faults} (hput : w.putSwarm x ≠ none) :
    ∃ w', (storeSwarm x).Ends (Cmd.execUnder F) w (.ok x) w' ∧ x ∈ w'.swarms := by
  have hstored : ∀ v : World, v.putSwarm x ≠ none → ∃ v',
      (Store.saveSwarm x).Ends (Cmd.execUnder F) v (.ok ()) v' ∧ x ∈ v'.swarms := by
    intro v hv
    obtain ⟨v', hv'⟩ := Option.ne_none_iff_exists'.1 hv
    refine ⟨v', ends_saveSwarm.2 ?_, ?_⟩
    · rw [hv']
      exact .done
    · obtain ⟨swarms, hswarms, rfl⟩ := Option.map_eq_some_iff.1 hv'
      exact Collection.self_mem_replaceOne hswarms
  rw [storeSwarm_eq]
  unfold storing
  split
  · obtain ⟨w', hends, hmem⟩ := hstored (w.clearSwarms x) (mt World.putSwarm_clearSwarms.1 hput)
    refine ⟨w', Prog.ends_bind.2 ⟨_, _, ends_clearSwarmDefaults.2 .done, ?_⟩, hmem⟩
    exact Prog.ends_bind.2 ⟨_, _, hends, Prog.ends_pure.2 ⟨rfl, rfl⟩⟩
  · obtain ⟨w', hends, hmem⟩ := hstored w hput
    exact ⟨w', Prog.ends_bind.2 ⟨_, _, hends, Prog.ends_pure.2 ⟨rfl, rfl⟩⟩, hmem⟩

/-- A request that smuggles telephony gets it stored. -/
theorem AgentSwarm.Smuggles.stored (h : value.Smuggles w) (F : Faults) (actor : String) :
    ∃ r w', (saveSwarm value actor).Ends (Cmd.execUnder F) w r w' ∧ ¬ w.KeepsManaged w' := by
  obtain ⟨value', haccepts⟩ := h.accepted
  obtain ⟨x, w₁, hx, hsame, hends⟩ := saveSwarm_ends F actor haccepts
  obtain ⟨hid', hkey', hmanaged'⟩ := haccepts.managed
  have hnew : w₁.swarms.get value'.id = none := by rw [hid', hsame.swarms, h.unknown]
  obtain ⟨hxid, hmanaged⟩ : x.id = value.id ∧ x.telephony.managed = value.telephony.managed := by
    cases hx with
    | created hid => exact absurd (hid' ▸ hid) h.named
    | updated hid hstored =>
      rw [hnew] at hstored
      cases hstored
    | unknown hid hnew => exact ⟨hid', hmanaged'⟩
  have hput : w₁.putSwarm x ≠ none := by
    intro hnone
    obtain ⟨s, hs, -, hkey⟩ := World.putSwarm_eq_none_iff.1 hnone
    exact h.free s (hsame.swarms ▸ hs) (hkey.trans (hx.sameScope.key.trans hkey'))
  obtain ⟨w', hstored, hmem⟩ := storeSwarm_stores (F := F) hput
  refine ⟨_, w', hends _ w' hstored, fun hkept => h.managed ?_⟩
  rw [← hmanaged, hkept x hmem, hxid, h.unknown]
  rfl

/-- A save keeps managed telephony, exactly when the request smuggles none in. -/
theorem saveSwarm_keepsManaged_iff :
    (∀ r w', (saveSwarm value actor).Ends Cmd.exec w r w' → w.KeepsManaged w') ↔
      ¬ value.Smuggles w := by
  constructor
  · intro h hsmuggles
    obtain ⟨r, w', hends, hkept⟩ := hsmuggles.stored ⟨true, true⟩ actor
    rw [execUnder_all] at hends
    exact hkept (h r w' hends)
  · intro h r w' hends
    rw [← execUnder_all] at hends
    exact hends.wp (saveSwarm_keepsManaged h)

/-! ## A request under an unknown identifier -/

namespace Sample

/-- A workflow under an identifier of the client's own, with a trunk of its own. -/
def smuggledSwarm : AgentSwarm :=
  { swarm with
    id := "swarm_2", key := "copy", telephony := { outboundTrunkID := "attacker-outbound" } }

end Sample

/-- The client's trunk is stored with the new workflow. -/
theorem not_keepsManaged_smuggledSwarm : ¬ ∀ (w : World) (value : AgentSwarm) (actor : String) r w',
    (saveSwarm value actor).Ends Cmd.exec w r w' → w.KeepsManaged w' := by
  intro h
  have hrun : ((saveSwarm Sample.smuggledSwarm "admin").run Cmd.exec (List.replicate 6 {})
      Sample.world).any fun r => r.2.swarms.docs.any fun s =>
        s.id = "swarm_2" ∧ s.telephony.managed.outboundTrunkID = "attacker-outbound" := by
    decide +kernel
  obtain ⟨⟨r, w'⟩, hrun, hcheck⟩ := (Option.any_eq_true ..).1 hrun
  obtain ⟨s, hs, hsmuggled⟩ := List.any_eq_true.1 hcheck
  obtain ⟨hid, htrunk⟩ := of_decide_eq_true hsmuggled
  have hkept := h Sample.world Sample.smuggledSwarm "admin" r w' ⟨_, hrun⟩ s hs
  have hnew : Sample.world.swarms.get "swarm_2" = none := by decide
  rw [hid, hnew] at hkept
  rw [hkept] at htrunk
  exact absurd htrunk (by decide)

end Stylme
