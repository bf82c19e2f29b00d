-- SUMMARY: Dictionaries that keep the latest of the elements with each key.
import Mathlib.Data.List.Induction
import Mathlib.Order.Lattice
import Stylme.Domain.Dictionary

/-!
# The latest for each key

`keepLatest` puts an element under its key, unless the one that is there is as late. After a list, the
dictionary holds for each key of the list an element of the list that is as late as any other.
-/

namespace Stylme

section KeepLatest

variable {α γ : Type} [LinearOrder γ] (key : α → String) (rank : α → γ)

/-- Put the element under its key if no element there is as late. -/
def keepLatest (latest : List (String × α)) (a : α) : List (String × α) :=
  match latest.lookup (key a) with
  | some current => if rank current < rank a then setKey (key a) a latest else latest
  | none => setKey (key a) a latest

/-- The dictionary holds a latest element for each key of the list. -/
structure HoldsLatest (seen : List α) (latest : List (String × α)) : Prop where
  nodup : (latest.map (·.1)).Nodup
  kept : ∀ k a, latest.lookup k = some a → key a = k ∧ a ∈ seen
  latest : ∀ a ∈ seen, ∃ b, latest.lookup (key a) = some b ∧ rank a ≤ rank b

variable {key rank} {seen l : List α} {latest : List (String × α)} {a : α}

theorem HoldsLatest.replace (h : HoldsLatest key rank seen latest)
    (hlater : ∀ b, latest.lookup (key a) = some b → rank b ≤ rank a) :
    HoldsLatest key rank (seen ++ [a]) (setKey (key a) a latest) where
  nodup := nodup_keys_setKey h.nodup
  kept := by
    intro k b hlookup
    rw [lookup_setKey] at hlookup
    split at hlookup
    · rename_i hk
      obtain rfl := Option.some.inj hlookup
      exact ⟨hk.symm, List.mem_append_right _ List.mem_cons_self⟩
    · obtain ⟨hk, hb⟩ := h.kept k b hlookup
      exact ⟨hk, List.mem_append_left _ hb⟩
  latest := by
    intro b hb
    rw [lookup_setKey]
    by_cases hk : key b = key a
    · rw [if_pos hk]
      refine ⟨a, rfl, ?_⟩
      rcases List.mem_append.1 hb with hb | hb
      · obtain ⟨c, hc, hle⟩ := h.latest b hb
        exact hle.trans (hlater c (hk ▸ hc))
      · rw [List.mem_singleton.1 hb]
    · rw [if_neg hk]
      rcases List.mem_append.1 hb with hb | hb
      · exact h.latest b hb
      · exact absurd (congrArg key (List.mem_singleton.1 hb)) hk

theorem HoldsLatest.keep (h : HoldsLatest key rank seen latest) (a : α) :
    HoldsLatest key rank (seen ++ [a]) (keepLatest key rank latest a) := by
  rw [keepLatest]
  cases hlookup : latest.lookup (key a) with
  | none => exact h.replace fun b hb => absurd (hlookup.symm.trans hb) nofun
  | some current =>
    dsimp only
    split
    · rename_i hlt
      refine h.replace fun b hb => ?_
      obtain rfl := Option.some.inj (hlookup.symm.trans hb)
      exact hlt.le
    · rename_i hge
      refine ⟨h.nodup, fun k b hb => ?_, fun b hb => ?_⟩
      · obtain ⟨hk, hmem⟩ := h.kept k b hb
        exact ⟨hk, List.mem_append_left _ hmem⟩
      · rcases List.mem_append.1 hb with hb | hb
        · exact h.latest b hb
        · rw [List.mem_singleton.1 hb]
          exact ⟨current, hlookup, not_lt.1 hge⟩

theorem holdsLatest_foldl (l : List α) : HoldsLatest key rank l (l.foldl (keepLatest key rank) []) := by
  induction l using List.reverseRecOn with
  | nil => exact ⟨List.nodup_nil, nofun, nofun⟩
  | append_singleton l a ih =>
    rw [List.foldl_append]
    exact ih.keep a

/-- Elements with distinct keys are all kept, in their order. -/
theorem foldl_keepLatest_of_nodup (h : (l.map key).Nodup) :
    l.foldl (keepLatest key rank) [] = l.map fun a => (key a, a) := by
  induction l using List.reverseRecOn with
  | nil => rfl
  | append_singleton l a ih =>
    rw [List.map_append, List.nodup_append] at h
    obtain ⟨hl, -, hnew⟩ := h
    have hkeys : (l.map fun a => (key a, a)).map (·.1) = l.map key := by
      rw [List.map_map]
      rfl
    have hk : key a ∉ (l.map fun a => (key a, a)).map (·.1) := by
      rw [hkeys]
      exact fun hmem => hnew _ hmem _ List.mem_cons_self rfl
    have hlookup : (l.map fun a => (key a, a)).lookup (key a) = none := by
      refine List.lookup_eq_none_iff.2 fun x hx => ?_
      exact bne_iff_ne.2 fun heq => hk (List.mem_map.2 ⟨x, hx, heq.symm⟩)
    rw [List.foldl_append, ih hl, List.foldl_cons, List.foldl_nil, keepLatest, hlookup, List.map_append]
    exact setKey_of_not_mem hk

variable (key rank) in
/-- A latest element for each key. -/
def latestOf (l : List α) : List α := (l.foldl (keepLatest key rank) []).map (·.2)

theorem mem_of_mem_latestOf (h : a ∈ latestOf key rank l) : a ∈ l := by
  obtain ⟨x, hx, rfl⟩ := List.mem_map.1 h
  have hholds := @holdsLatest_foldl _ _ _ key rank l
  exact (hholds.kept x.1 x.2 (lookup_of_mem hholds.nodup hx)).2

theorem exists_mem_latestOf (h : a ∈ l) : ∃ b ∈ latestOf key rank l, key b = key a ∧ rank a ≤ rank b := by
  have hholds := @holdsLatest_foldl _ _ _ key rank l
  obtain ⟨b, hlookup, hle⟩ := hholds.latest a h
  exact ⟨b, List.mem_map.2 ⟨_, mem_of_lookup hlookup, rfl⟩, (hholds.kept _ b hlookup).1, hle⟩

theorem nodup_keys_latestOf (l : List α) : ((latestOf key rank l).map key).Nodup := by
  have hholds := @holdsLatest_foldl _ _ _ key rank l
  have hkeys : (latestOf key rank l).map key = (l.foldl (keepLatest key rank) []).map (·.1) := by
    rw [latestOf, List.map_map]
    refine List.map_congr_left fun x hx => ?_
    exact (hholds.kept x.1 x.2 (lookup_of_mem hholds.nodup hx)).1
  rw [hkeys]
  exact hholds.nodup

theorem latestOf_of_nodup (h : (l.map key).Nodup) : latestOf key rank l = l := by
  rw [latestOf, foldl_keepLatest_of_nodup h, List.map_map]
  exact List.map_id _

end KeepLatest

end Stylme
