-- SUMMARY: Numbers of an ordered field rounded to some decimal places, half to even, and what lies between bounds.
import Mathlib.Algebra.Order.Floor.Ring
import Mathlib.Algebra.Order.Ring.Cast
import Mathlib.Algebra.Order.Field.Basic
import Mathlib.Tactic.Linarith
import Mathlib.Tactic.Positivity

/-!
# Rounding to decimal places

A number is rounded to the nearest multiple of a power of ten, the even one if there are two of
them. A multiple is its own rounding, and no rounding crosses one.
-/

namespace Conc

variable {K : Type} [Field K] [LinearOrder K] [FloorRing K]

/-- The nearest integer, the even one if there are two. -/
def halfEven (x : K) : ℤ :=
  let low := ⌊x⌋
  if x - low < low + 1 - x then low
  else if low + 1 - x < x - low then low + 1
  else if low % 2 = 0 then low
  else low + 1

theorem floor_le_halfEven (x : K) : ⌊x⌋ ≤ halfEven x := by
  unfold halfEven
  dsimp only
  split_ifs <;> omega

theorem halfEven_le_floor_add_one (x : K) : halfEven x ≤ ⌊x⌋ + 1 := by
  unfold halfEven
  dsimp only
  split_ifs <;> omega

theorem le_halfEven {m : ℤ} {x : K} (h : (m : K) ≤ x) : m ≤ halfEven x :=
  (Int.le_floor.2 h).trans (floor_le_halfEven x)

variable [IsStrictOrderedRing K]

theorem halfEven_intCast (m : ℤ) : halfEven (m : K) = m := by
  simp [halfEven]

theorem halfEven_le {m : ℤ} {x : K} (h : x ≤ m) : halfEven x ≤ m := by
  rcases h.lt_or_eq with hlt | rfl
  · have hfloor : ⌊x⌋ < m := Int.floor_lt.2 hlt
    have hnext := halfEven_le_floor_add_one x
    omega
  · exact (halfEven_intCast m).le

/-- A number with so many decimal places. -/
def toPlaces (places : ℕ) (x : K) : K := halfEven (x * (10 ^ places : ℕ)) / (10 ^ places : ℕ)

theorem le_toPlaces {places : ℕ} {m : ℤ} {x : K} (h : (m : K) / 10 ^ places ≤ x) :
    (m : K) / 10 ^ places ≤ toPlaces places x := by
  have hpow : (0 : K) < 10 ^ places := by positivity
  rw [toPlaces, Nat.cast_pow, Nat.cast_ofNat]
  refine (div_le_div_iff_of_pos_right hpow).2 ?_
  exact_mod_cast le_halfEven ((div_le_iff₀ hpow).1 h)

theorem toPlaces_le {places : ℕ} {m : ℤ} {x : K} (h : x ≤ (m : K) / 10 ^ places) :
    toPlaces places x ≤ (m : K) / 10 ^ places := by
  have hpow : (0 : K) < 10 ^ places := by positivity
  rw [toPlaces, Nat.cast_pow, Nat.cast_ofNat]
  refine (div_le_div_iff_of_pos_right hpow).2 ?_
  exact_mod_cast halfEven_le ((le_div_iff₀ hpow).1 h)

end Conc
