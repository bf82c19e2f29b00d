-- SUMMARY: Choosing from a list front to back, with a limit for each class and a limit for all, and proportional shares.
import Mathlib.Algebra.BigOperators.Ring.Finset
import Mathlib.Algebra.BigOperators.Ring.List
import Mathlib.Algebra.Field.Basic
import Mathlib.Algebra.Order.BigOperators.Group.List
import Mathlib.Algebra.Order.Floor.Semiring
import Mathlib.Algebra.Order.Ring.Defs
import Mathlib.Data.List.Count
import Mathlib.Data.List.Pairwise
import Mathlib.Logic.Function.Basic

/-!
# Quotas

An element is taken if its class has room, until the limit for all is reached. On a list in
the order of some rank the choice is fair: within a class, what is taken ranks before what
is left.

A number is shared out among the elements of a list in proportion to their weights. The shares
add up to it, and rounded down they do not exceed it.
-/

namespace Conc

variable {α κ : Type} [DecidableEq κ]

/-- Take what has room in its class; `room` is left for all, and `taken` counts by class. -/
def capped (cls : α → κ) (perClass : ℕ) : ℕ → (κ → ℕ) → List α → List α
  | 0, _, _ => []
  | _, _, [] => []
  | room + 1, taken, x :: xs =>
    if perClass ≤ taken (cls x) then capped cls perClass (room + 1) taken xs
    else x :: capped cls perClass room (Function.update taken (cls x) (taken (cls x) + 1)) xs

variable {cls : α → κ} {perClass room : ℕ} {taken : κ → ℕ} {xs : List α}

theorem capped_sublist : List.Sublist (capped cls perClass room taken xs) xs := by
  induction xs generalizing room taken with
  | nil => cases room <;> exact .slnil
  | cons x xs ih =>
    cases room with
    | zero => exact List.nil_sublist _
    | succ room =>
      rw [capped]
      split
      · exact ih.cons _
      · exact ih.cons_cons _

theorem length_capped_le : (capped cls perClass room taken xs).length ≤ room := by
  induction xs generalizing room taken with
  | nil => cases room <;> exact Nat.zero_le _
  | cons x xs ih =>
    cases room with
    | zero => exact Nat.le_refl _
    | succ room =>
      rw [capped]
      split
      · exact ih
      · exact Nat.succ_le_succ ih

/-- A class is filled up to its limit and not beyond. -/
theorem countP_capped_le {k : κ} (h : taken k ≤ perClass) :
    (capped cls perClass room taken xs).countP (cls · = k) + taken k ≤ perClass := by
  induction xs generalizing room taken with
  | nil => cases room <;> simpa [capped] using h
  | cons x xs ih =>
    cases room with
    | zero => simpa [capped] using h
    | succ room =>
      rw [capped]
      split
      · exact ih h
      · rename_i hroom
        by_cases hk : cls x = k
        · rw [hk] at hroom
          have hrest := @ih room (Function.update taken (cls x) (taken (cls x) + 1))
            (by rw [hk, Function.update_self]; omega)
          rw [hk, Function.update_self] at hrest
          rw [List.countP_cons_of_pos (by simpa using hk), hk]
          omega
        · have hrest := @ih room (Function.update taken (cls x) (taken (cls x) + 1))
            (by rwa [Function.update_of_ne (Ne.symm hk)])
          rw [Function.update_of_ne (Ne.symm hk)] at hrest
          rwa [List.countP_cons_of_neg (by simpa using hk)]

/-- Nothing is taken for a class that is full. -/
theorem cls_ne_of_full {k : κ} {x : α} (h : perClass ≤ taken k)
    (hx : x ∈ capped cls perClass room taken xs) : cls x ≠ k := by
  induction xs generalizing room taken with
  | nil => cases room <;> exact absurd hx List.not_mem_nil
  | cons y xs ih =>
    cases room with
    | zero => exact absurd hx List.not_mem_nil
    | succ room =>
      rw [capped] at hx
      split at hx
      · exact ih h hx
      · rename_i hroom
        have hk : cls y ≠ k := fun hk => hroom (hk ▸ h)
        rcases List.mem_cons.1 hx with rfl | hx
        · exact hk
        · exact ih (by rwa [Function.update_of_ne (Ne.symm hk)]) hx

/-- Within a class, what is left comes after what is taken. -/
theorem capped_fair {R : α → α → Prop} {x y : α} (hsorted : xs.Pairwise R) (hx : x ∈ xs)
    (hleft : x ∉ capped cls perClass room taken xs)
    (hy : y ∈ capped cls perClass room taken xs) (hcls : cls y = cls x) : R y x := by
  induction xs generalizing room taken with
  | nil => exact absurd hx List.not_mem_nil
  | cons z xs ih =>
    cases room with
    | zero => exact absurd hy List.not_mem_nil
    | succ room =>
      obtain ⟨hhead, htail⟩ := List.pairwise_cons.1 hsorted
      rw [capped] at hy hleft
      split at hy
      · rename_i hfull
        rw [if_pos hfull] at hleft
        rcases List.mem_cons.1 hx with rfl | hx
        · exact absurd hcls (cls_ne_of_full hfull hy)
        · exact ih htail hx hleft hy
      · rename_i hroom
        rw [if_neg hroom, List.mem_cons, not_or] at hleft
        have htake := (List.mem_cons.1 hx).resolve_left hleft.1
        rcases List.mem_cons.1 hy with rfl | hy
        · exact hhead x htake
        · exact ih htail htake hleft.2 hy

/-! ## Shares -/

section Shares

variable {ι K : Type*}

theorem sum_shares [Field K] {w : ι → K} {l : List ι} (n : K) (h : (l.map w).sum ≠ 0) :
    (l.map fun i => n * w i / (l.map w).sum).sum = n := by
  calc (l.map fun i => n * w i / (l.map w).sum).sum
      = (l.map fun i => (l.map w).sum⁻¹ * n * w i).sum := by
        congr 1
        exact List.map_congr_left fun i _ => by rw [div_eq_inv_mul, mul_assoc]
    _ = (l.map w).sum⁻¹ * n * (l.map w).sum := List.sum_map_mul_left _ _ _
    _ = n := by rw [mul_right_comm, inv_mul_cancel₀ h, one_mul]

variable [Semiring K] [LinearOrder K] [IsStrictOrderedRing K] [FloorSemiring K]

/-- Rounded down, numbers do not add up to more than they do. -/
theorem sum_floor_le {f : ι → K} {l : List ι} {n : ℕ} (hnonneg : ∀ i ∈ l, 0 ≤ f i)
    (h : (l.map f).sum ≤ n) : (l.map fun i => ⌊f i⌋₊).sum ≤ n := by
  have hcast : (((l.map fun i => ⌊f i⌋₊).sum : ℕ) : K) ≤ (l.map f).sum := by
    rw [Nat.cast_list_sum, List.map_map]
    exact List.sum_le_sum fun i hi => Nat.floor_le (hnonneg i hi)
  exact_mod_cast hcast.trans h

end Shares

end Conc
