-- SUMMARY: Heaps of bounded size that keep the smallest of what they are offered.
import Mathlib.Data.List.Sort
import Mathlib.Order.Basic

/-!
# Bounded heaps

A heap is a list in order, so that its head is the first element. The order puts greater scores first:
an element that is offered to a full heap replaces the head if its score is smaller.
-/

namespace Conc

variable {α β : Type} [LinearOrder β] (r : α → α → Prop) [DecidableRel r] (score : α → β)

/-- Push `a` while there is room, or replace the head by it if its score is smaller; none if there is
no room and no head. -/
def offer (limit : ℕ) (heap : List α) (a : α) : Option (List α) :=
  if heap.length < limit then some (heap.orderedInsert r a)
  else match heap with
    | [] => none
    | head :: tail => if score a < score head then some (tail.orderedInsert r a) else some heap

/-- The heap holds as many as it may of what it was offered, none with a greater score than what it lost. -/
structure Keeps (limit : ℕ) (offered heap : List α) : Prop where
  sorted : heap.Pairwise r
  length : heap.length = min limit offered.length
  smallest : ∃ lost, (heap ++ lost).Perm offered ∧ ∀ a ∈ heap, ∀ b ∈ lost, score a ≤ score b

variable {r score} {limit : ℕ} {offered heap : List α} {a : α}

omit [DecidableRel r] in
theorem keeps_nil : Keeps r score limit [] [] :=
  ⟨.nil, (Nat.min_zero _).symm, [], .refl _, fun _ h => absurd h List.not_mem_nil⟩

omit [DecidableRel r] in
theorem keeps_zero (offered : List α) : Keeps r score 0 offered [] :=
  ⟨.nil, (Nat.zero_min _).symm, offered, .refl _, fun _ h => absurd h List.not_mem_nil⟩

omit [DecidableRel r] in
theorem Keeps.of_perm {offered' : List α} (h : Keeps r score limit offered heap) (hperm : offered.Perm offered') :
    Keeps r score limit offered' heap := by
  obtain ⟨lost, hlost, hle⟩ := h.smallest
  exact ⟨h.sorted, hperm.length_eq ▸ h.length, lost, hlost.trans hperm, hle⟩

omit [DecidableRel r] in
theorem Keeps.mem (h : Keeps r score limit offered heap) (ha : a ∈ heap) : a ∈ offered := by
  obtain ⟨lost, hlost, -⟩ := h.smallest
  exact hlost.subset (List.mem_append_left _ ha)

variable [Std.Total r] [IsTrans α r] (hr : ∀ a b, r a b → score b ≤ score a)

theorem Keeps.push (h : Keeps r score limit offered heap) (hroom : heap.length < limit) :
    Keeps r score limit (a :: offered) (heap.orderedInsert r a) := by
  obtain ⟨lost, hperm, -⟩ := h.smallest
  have hlength := h.length
  -- While there is room, nothing was lost.
  have hlost : lost = [] := by
    have hsum := hperm.length_eq
    rw [List.length_append] at hsum
    exact List.length_eq_zero_iff.1 (by omega)
  subst hlost
  rw [List.append_nil] at hperm
  exact {
    sorted := h.sorted.orderedInsert a _
    length := by
      rw [List.orderedInsert_length, List.length_cons]
      omega
    smallest := ⟨[], by
      rw [List.append_nil]
      exact (List.perm_orderedInsert r a heap).trans (hperm.cons a), fun _ _ _ h => absurd h List.not_mem_nil⟩ }

include hr

theorem Keeps.replace {head : α} {tail : List α} (h : Keeps r score limit offered (head :: tail))
    (hfull : limit ≤ (head :: tail).length) (hlt : score a < score head) :
    Keeps r score limit (a :: offered) (tail.orderedInsert r a) := by
  obtain ⟨lost, hperm, hle⟩ := h.smallest
  have hlength := h.length
  obtain ⟨hhead, htail⟩ := List.pairwise_cons.1 h.sorted
  refine ⟨htail.orderedInsert a _, ?_, head :: lost, ?_, ?_⟩
  · rw [List.orderedInsert_length, List.length_cons]
    rw [List.length_cons] at hlength hfull
    omega
  · calc tail.orderedInsert r a ++ head :: lost
        |>.Perm (a :: tail ++ head :: lost) := (List.perm_orderedInsert r a tail).append_right _
      _ |>.Perm (a :: (head :: tail ++ lost)) := (List.perm_middle).cons a
      _ |>.Perm (a :: offered) := hperm.cons a
  · intro x hx y hy
    have hx' : score x ≤ score head := by
      rcases (List.mem_orderedInsert r).1 hx with rfl | hx
      · exact hlt.le
      · exact hr _ _ (hhead x hx)
    rcases List.mem_cons.1 hy with rfl | hy
    · exact hx'
    · exact hx'.trans (hle head List.mem_cons_self y hy)

omit [DecidableRel r] [Std.Total r] [IsTrans α r] in
theorem Keeps.skip {head : α} {tail : List α} (h : Keeps r score limit offered (head :: tail))
    (hfull : limit ≤ (head :: tail).length) (hle : score head ≤ score a) :
    Keeps r score limit (a :: offered) (head :: tail) := by
  obtain ⟨lost, hperm, hlost⟩ := h.smallest
  have hlength := h.length
  obtain ⟨hhead, -⟩ := List.pairwise_cons.1 h.sorted
  refine ⟨h.sorted, ?_, a :: lost, List.perm_middle.trans (hperm.cons a), ?_⟩
  · have hmore : (a :: offered).length = offered.length + 1 := rfl
    omega
  · intro x hx y hy
    have hx' : score x ≤ score head := by
      rcases List.mem_cons.1 hx with rfl | hx
      · exact le_refl _
      · exact hr _ _ (hhead x hx)
    rcases List.mem_cons.1 hy with rfl | hy
    · exact hx'.trans hle
    · exact hlost x hx y hy

/-- A heap that may hold something keeps the smallest of what it is offered. -/
theorem Keeps.offer (hlimit : 0 < limit) (h : Keeps r score limit offered heap) (a : α) :
    ∃ heap', offer r score limit heap a = some heap' ∧ Keeps r score limit (a :: offered) heap' := by
  unfold Conc.offer
  split
  case isTrue hroom => exact ⟨_, rfl, h.push hroom⟩
  case isFalse hfull =>
    cases heap with
    | nil => exact absurd hlimit hfull
    | cons head tail =>
      dsimp only
      split
      case isTrue hlt => exact ⟨_, rfl, h.replace hr (not_lt.1 hfull) hlt⟩
      case isFalse hnot => exact ⟨_, rfl, h.skip hr (not_lt.1 hfull) (not_lt.1 hnot)⟩

end Conc
