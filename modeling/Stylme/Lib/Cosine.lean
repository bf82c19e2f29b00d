-- SUMMARY: Cauchy's inequality for the sum of a list against the squares of a longer one.
import Mathlib.Algebra.Order.BigOperators.Group.List
import Mathlib.Algebra.BigOperators.Ring.List
import Mathlib.Analysis.Real.Sqrt
import Mathlib.Tactic.Linarith
import Mathlib.Tactic.Ring

/-!
# Cosines of lists

The cosine between a vector of weights and the indicator of some of its entries
is the sum of these entries over the two norms. It lies between zero and one.
-/

namespace Conc

variable {l s : List ℚ}

/-- The sum of the squares of the entries. -/
def squares (l : List ℚ) : ℚ := (l.map fun w => w * w).sum

@[simp] theorem squares_nil : squares [] = 0 := rfl

@[simp] theorem squares_cons {w : ℚ} : squares (w :: l) = w * w + squares l := List.sum_cons

theorem squares_nonneg : 0 ≤ squares l := by
  induction l with
  | nil => rfl
  | cons w l ih => rw [squares_cons]; exact add_nonneg (mul_self_nonneg w) ih

theorem squares_pos (hl : l ≠ []) (hpos : ∀ w ∈ l, 0 < w) : 0 < squares l := by
  obtain ⟨w, l, rfl⟩ := List.exists_cons_of_ne_nil hl
  rw [squares_cons]
  have hw := hpos w List.mem_cons_self
  exact add_pos_of_pos_of_nonneg (mul_pos hw hw) squares_nonneg

theorem squares_le_of_sublist (h : s.Sublist l) : squares s ≤ squares l := by
  induction h with
  | slnil => rfl
  | cons w _ ih => rw [squares_cons]; linarith [mul_self_nonneg w]
  | cons_cons w _ ih => rw [squares_cons, squares_cons]; linarith

/-- The squares of the distances from `c`. -/
theorem squares_sub (c : ℚ) :
    squares (l.map (· - c)) = squares l - 2 * c * l.sum + l.length * (c * c) := by
  induction l with
  | nil => simp
  | cons w l ih =>
    simp only [List.map_cons, squares_cons, ih, List.sum_cons, List.length_cons, Nat.cast_succ]
    ring

/-- Cauchy's inequality against the vector of ones. -/
theorem sum_mul_sum_le : l.sum * l.sum ≤ l.length * squares l := by
  cases l with
  | nil => simp
  | cons w l =>
    set k := w :: l with hk
    have hlen : (0 : ℚ) < k.length := by rw [hk, List.length_cons]; positivity
    -- the distances from the mean
    have h := squares_nonneg (l := k.map (· - k.sum / k.length))
    rw [squares_sub] at h
    have hmul := mul_nonneg hlen.le h
    have heq : (k.length : ℚ) * (squares k - 2 * (k.sum / k.length) * k.sum +
        k.length * (k.sum / k.length * (k.sum / k.length))) =
        k.length * squares k - k.sum * k.sum := by
      field_simp
      ring
    rw [heq] at hmul
    linarith

theorem sum_pos_of_pos (hl : l ≠ []) (hpos : ∀ w ∈ l, 0 < w) : 0 < l.sum := by
  obtain ⟨w, l, rfl⟩ := List.exists_cons_of_ne_nil hl
  rw [List.sum_cons]
  exact add_pos_of_pos_of_nonneg (hpos w List.mem_cons_self)
    (List.sum_nonneg fun x hx => (hpos x (List.mem_cons_of_mem _ hx)).le)

section Cosine

/-- The cosine between the weights of square norm `n` and the indicator of the entries `s`. -/
noncomputable def cosine (s : List ℚ) (n : ℚ) : ℝ := (s.sum : ℝ) / (√(n : ℝ) * √(s.length : ℝ))

theorem cosine_pos {n : ℚ} (hn : 0 < n) (hs : s ≠ []) (hpos : ∀ w ∈ s, 0 < w) : 0 < cosine s n := by
  have hlen : (0 : ℝ) < s.length := by exact_mod_cast List.length_pos_iff.2 hs
  have hsum : (0 : ℝ) < s.sum := by exact_mod_cast sum_pos_of_pos hs hpos
  have hn' : (0 : ℝ) < n := by exact_mod_cast hn
  exact div_pos hsum (mul_pos (Real.sqrt_pos.2 hn') (Real.sqrt_pos.2 hlen))

theorem cosine_le_one (h : s.Sublist l) : cosine s (squares l) ≤ 1 := by
  refine div_le_one_of_le₀ ?_ (mul_nonneg (Real.sqrt_nonneg _) (Real.sqrt_nonneg _))
  rw [← Real.sqrt_mul' _ (Nat.cast_nonneg _)]
  refine Real.le_sqrt_of_sq_le ?_
  have hcauchy : s.sum * s.sum ≤ squares l * s.length := calc
    s.sum * s.sum ≤ s.length * squares s := sum_mul_sum_le
    _ ≤ s.length * squares l :=
      mul_le_mul_of_nonneg_left (squares_le_of_sublist h) (Nat.cast_nonneg _)
    _ = squares l * s.length := mul_comm _ _
  rw [sq]
  exact_mod_cast hcauchy

/-- Of two cosines with the same weights, the greater has the greater mean square. -/
theorem cosine_le_cosine_iff {t : List ℚ} {n : ℚ} (hn : 0 < n) (hs : s ≠ []) (ht : t ≠ [])
    (hs₀ : 0 ≤ s.sum) (ht₀ : 0 ≤ t.sum) :
    cosine s n ≤ cosine t n ↔ s.sum * s.sum * t.length ≤ t.sum * t.sum * s.length := by
  have hn' : (0 : ℝ) < √(n : ℝ) := Real.sqrt_pos.2 (by exact_mod_cast hn)
  have hslen : (0 : ℝ) < s.length := by exact_mod_cast List.length_pos_iff.2 hs
  have htlen : (0 : ℝ) < t.length := by exact_mod_cast List.length_pos_iff.2 ht
  have hs₁ : (0 : ℝ) ≤ s.sum * √(t.length : ℝ) :=
    mul_nonneg (by exact_mod_cast hs₀) (Real.sqrt_nonneg _)
  have ht₁ : (0 : ℝ) ≤ t.sum * √(s.length : ℝ) :=
    mul_nonneg (by exact_mod_cast ht₀) (Real.sqrt_nonneg _)
  have hsquares : (s.sum * √(t.length : ℝ) : ℝ) * (s.sum * √(t.length : ℝ)) ≤
      (t.sum * √(s.length : ℝ)) * (t.sum * √(s.length : ℝ)) ↔
      s.sum * s.sum * t.length ≤ t.sum * t.sum * s.length := by
    rw [mul_mul_mul_comm, mul_mul_mul_comm (t.sum : ℝ), Real.mul_self_sqrt htlen.le,
      Real.mul_self_sqrt hslen.le]
    exact_mod_cast Iff.rfl
  calc cosine s n ≤ cosine t n
      ↔ (s.sum : ℝ) * (√(n : ℝ) * √(t.length : ℝ)) ≤ t.sum * (√(n : ℝ) * √(s.length : ℝ)) :=
        div_le_div_iff₀ (mul_pos hn' (Real.sqrt_pos.2 hslen)) (mul_pos hn' (Real.sqrt_pos.2 htlen))
    _ ↔ √(n : ℝ) * (s.sum * √(t.length : ℝ)) ≤ √(n : ℝ) * (t.sum * √(s.length : ℝ)) := by
        rw [mul_left_comm, mul_left_comm (t.sum : ℝ)]
    _ ↔ s.sum * √(t.length : ℝ) ≤ (t.sum : ℝ) * √(s.length : ℝ) := mul_le_mul_iff_right₀ hn'
    _ ↔ (s.sum * √(t.length : ℝ) : ℝ) * (s.sum * √(t.length : ℝ)) ≤
        (t.sum * √(s.length : ℝ)) * (t.sum * √(s.length : ℝ)) :=
        (mul_self_le_mul_self_iff hs₁ ht₁)
    _ ↔ s.sum * s.sum * t.length ≤ t.sum * t.sum * s.length := hsquares

end Cosine

end Conc
