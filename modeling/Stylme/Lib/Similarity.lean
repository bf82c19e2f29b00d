-- SUMMARY: The similarity of two sequences by their longest common runs, and rounding a sum with a square root.
import Mathlib.Algebra.Order.Floor.Ring
import Mathlib.Algebra.Ring.Parity
import Mathlib.Analysis.Real.Sqrt
import Mathlib.Data.Rat.Floor

/-!
# Similarity

Two sequences are compared by the longest run they have in common, then to the left and to the
right of it.
-/

namespace Conc

namespace Similarity

section Runs

variable {α : Type} [DecidableEq α]

/-- The length of the longest common beginning of elements that are kept. -/
def common (keep : α → Bool) : List α → List α → ℕ
  | a :: l, b :: m => if a = b ∧ keep a then common keep l m + 1 else 0
  | _, _ => 0

/-- Where two sequences have a run in common. -/
structure Run where
  left : ℕ
  right : ℕ
  size : ℕ

/-- The first of the longest common runs of elements that are kept. -/
def longestRun (keep : α → Bool) (l m : List α) : Run :=
  (List.range l.length).foldl (fun best i =>
    (List.range m.length).foldl (fun best j =>
      if best.size < common keep (l.drop i) (m.drop j) then
        ⟨i, j, common keep (l.drop i) (m.drop j)⟩
      else best) best) ⟨0, 0, 0⟩

/-- The run, as far as it goes on to the left and to the right. -/
def extend (l m : List α) (run : Run) : Run :=
  let back := common (fun _ => true) (l.take run.left).reverse (m.take run.right).reverse
  let forth := common (fun _ => true) (l.drop (run.left + run.size)) (m.drop (run.right + run.size))
  ⟨run.left - back, run.right - back, back + run.size + forth⟩

/-- `find_longest_match`, without junk -/
def longestMatch (keep : α → Bool) (l m : List α) : Run := extend l m (longestRun keep l m)

/-- The elements of all matching blocks. -/
def matching (keep : α → Bool) : ℕ → List α → List α → ℕ
  | 0, _, _ => 0
  | fuel + 1, l, m =>
    let run := longestMatch keep l m
    if run.size = 0 then 0
    else matching keep fuel (l.take run.left) (m.take run.right) + run.size +
      matching keep fuel (l.drop (run.left + run.size)) (m.drop (run.right + run.size))

/-- A frequent element of a long sequence, with which no run begins. -/
def popular (m : List α) (a : α) : Bool := 200 ≤ m.length ∧ m.length / 100 + 1 < m.count a

/-- `SequenceMatcher(None, l, m).ratio()` -/
def ratio (l m : List α) : ℚ :=
  if l.length + m.length = 0 then 1
  else 2 * matching (fun a => !popular m a) l.length l m / (l.length + m.length : ℕ)

/-- The dot product of how often each element occurs. -/
def occurrences (l m : List α) : ℕ := (l.map m.count).sum

end Runs

/-! ## Rounding -/

/-- The integer part of `t + √z`. -/
def floorRoot (t z : ℚ) : ℤ := (t.num + (Nat.sqrt ⌊z * t.den ^ 2⌋.toNat : ℤ)) / t.den

/-- The integer nearest to `t + √z`, of two as near the even one. -/
def roundRoot (t z : ℚ) : ℤ :=
  let n := floorRoot (t + 1 / 2) z
  if n % 2 = 1 ∧ t + 1 / 2 ≤ n ∧ (n - t - 1 / 2) ^ 2 = z then n - 1 else n

theorem le_sqrt_floor {y : ℚ} (hy : 0 ≤ y) (n : ℤ) :
    n ≤ (Nat.sqrt ⌊y⌋.toNat : ℤ) ↔ (n : ℝ) ≤ √(y : ℝ) := by
  rcases lt_or_ge n 0 with hn | hn
  · exact iff_of_true (hn.le.trans (Int.natCast_nonneg _))
      ((Int.cast_nonpos.2 hn.le).trans (Real.sqrt_nonneg _))
  · obtain ⟨k, rfl⟩ := Int.eq_ofNat_of_zero_le hn
    have hfloor : ((⌊y⌋.toNat : ℕ) : ℤ) = ⌊y⌋ := Int.toNat_of_nonneg (Int.floor_nonneg.2 hy)
    calc (k : ℤ) ≤ Nat.sqrt ⌊y⌋.toNat
        ↔ k ^ 2 ≤ ⌊y⌋.toNat := by rw [Int.ofNat_le, Nat.le_sqrt']
      _ ↔ ((k : ℚ) ^ 2 : ℚ) ≤ y := by
        rw [← Int.ofNat_le, hfloor, Int.le_floor]
        push_cast
        rfl
      _ ↔ ((k : ℝ) ^ 2 : ℝ) ≤ y := by exact_mod_cast Iff.rfl
      _ ↔ (k : ℝ) ≤ √(y : ℝ) := (Real.le_sqrt (Nat.cast_nonneg k) (Rat.cast_nonneg.2 hy)).symm
      _ ↔ (((k : ℤ) : ℝ)) ≤ √(y : ℝ) := by rw [Int.cast_natCast]

theorem floorRoot_eq {t z : ℚ} (hz : 0 ≤ z) : floorRoot t z = ⌊(t : ℝ) + √(z : ℝ)⌋ := by
  have hden : (0 : ℤ) < t.den := Int.natCast_pos.2 t.den_pos
  have hden' : (0 : ℝ) < t.den := Nat.cast_pos.2 t.den_pos
  have hscaled : √((z * t.den ^ 2 : ℚ) : ℝ) = √(z : ℝ) * t.den := by
    push_cast
    rw [Real.sqrt_mul (by exact_mod_cast hz), Real.sqrt_sq hden'.le]
  have ht : (t : ℝ) * t.den = t.num := by exact_mod_cast Rat.mul_den_eq_num t
  refine eq_of_forall_le_iff fun n => ?_
  calc n ≤ floorRoot t z
      ↔ n * t.den - t.num ≤ (Nat.sqrt ⌊z * t.den ^ 2⌋.toNat : ℤ) := by
        rw [floorRoot, Int.le_ediv_iff_mul_le hden, sub_le_iff_le_add']
    _ ↔ ((n * t.den - t.num : ℤ) : ℝ) ≤ √(z : ℝ) * t.den := by
        rw [le_sqrt_floor (by positivity), hscaled]
    _ ↔ (n : ℝ) * t.den ≤ (t + √(z : ℝ)) * t.den := by
        push_cast
        rw [add_mul, ht, sub_le_iff_le_add']
    _ ↔ n ≤ ⌊(t : ℝ) + √(z : ℝ)⌋ := by rw [mul_le_mul_iff_left₀ hden', Int.le_floor]

end Similarity

end Conc
