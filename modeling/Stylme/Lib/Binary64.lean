-- SUMMARY: Rational numbers rounded to the doubles of IEEE 754, and the doubles as those that rounding keeps.
import Mathlib.Algebra.Order.Floor.Ring
import Mathlib.Data.Int.Log
import Mathlib.Data.Rat.Floor
import Mathlib.Tactic.Linarith
import Mathlib.Tactic.Positivity

/-!
# Doubles

A number is rounded to the nearest multiple of a power of two, the even one if there are two
of them, where the power leaves 53 binary digits unless it is the smallest one. Both zeros
are the rational zero.
-/

namespace Conc

namespace Binary64

/-! ## Rounding -/

/-- The nearest integer, the even one if there are two. -/
def roundEven (q : ℚ) : ℤ :=
  let low := ⌊q⌋
  if q - low < 1 / 2 then low
  else if 1 / 2 < q - low then low + 1
  else if low % 2 = 0 then low
  else low + 1

theorem roundEven_intCast (m : ℤ) : roundEven m = m := by
  simp [roundEven]

theorem roundEven_mem (q : ℚ) : roundEven q = ⌊q⌋ ∨ roundEven q = ⌊q⌋ + 1 := by
  unfold roundEven
  dsimp only
  split_ifs <;> simp

theorem abs_roundEven_le {q : ℚ} {m : ℤ} (h : |q| < m) : |roundEven q| ≤ m := by
  obtain ⟨hlow, hhigh⟩ := abs_lt.1 h
  have hfloor : -m ≤ ⌊q⌋ := Int.le_floor.2 (by push_cast; exact hlow.le)
  have hlt : ⌊q⌋ < m := Int.floor_lt.2 hhigh
  rw [abs_le]
  rcases roundEven_mem q with h | h <;> omega

theorem roundEven_mono {p q : ℚ} (h : p ≤ q) : roundEven p ≤ roundEven q := by
  have hfloor : ⌊p⌋ ≤ ⌊q⌋ := Int.floor_mono h
  rcases hfloor.lt_or_eq with hlt | heq
  · rcases roundEven_mem p with hp | hp <;> rcases roundEven_mem q with hq | hq <;> omega
  · unfold roundEven
    dsimp only
    rw [heq]
    split_ifs <;> first | omega | linarith

/-- The exponent of the last binary digit that is kept. -/
def exponent (x : ℚ) : ℤ := max (Int.log 2 |x| - 52) (-1074)

/-- The nearest number with 53 binary digits, however large. -/
def round (x : ℚ) : ℚ := roundEven (x / 2 ^ exponent x) * 2 ^ exponent x

theorem abs_lt_two_zpow (x : ℚ) : |x| < 2 ^ (exponent x + 53) := by
  have hlog : |x| < ((2 : ℕ) : ℚ) ^ (Int.log 2 |x| + 1) := Int.lt_zpow_succ_log_self one_lt_two _
  refine hlog.trans_le ?_
  push_cast
  exact zpow_le_zpow_right₀ one_le_two (by unfold exponent; omega)

theorem two_zpow_pos (e : ℤ) : (0 : ℚ) < 2 ^ e := zpow_pos two_pos e

/-- A multiple of the last digit is kept, and so is one of a greater power. -/
theorem round_of_multiple {x : ℚ} {m e : ℤ} (he : exponent x ≤ e) (h : x = m * 2 ^ e) :
    round x = x := by
  obtain ⟨d, rfl⟩ := Int.le.dest he
  have hx : x = (m * 2 ^ d : ℤ) * 2 ^ exponent x := by
    conv_lhs => rw [h]
    rw [zpow_add₀ two_ne_zero, zpow_natCast]
    push_cast
    ring
  have hdiv : x / 2 ^ exponent x = (m * 2 ^ d : ℤ) := by
    rw [div_eq_iff (two_zpow_pos _).ne']
    exact hx
  rw [round, hdiv, roundEven_intCast]
  exact hx.symm

theorem exponent_le_of_lt {x : ℚ} {e : ℤ} (hx : x ≠ 0) (he : -1074 ≤ e) (h : |x| < 2 ^ (e + 53)) :
    exponent x ≤ e := by
  have hlog : Int.log 2 |x| < e + 53 :=
    (Int.lt_zpow_iff_log_lt one_lt_two (abs_pos.2 hx)).1 (by push_cast; exact h)
  unfold exponent
  omega

theorem round_zero : round 0 = 0 := by
  simp [round, roundEven]

/-- Numbers with 53 binary digits are kept. -/
theorem round_mul {m e : ℤ} (hm : |m| ≤ 2 ^ 53) (he : -1074 ≤ e) :
    round (m * 2 ^ e) = m * 2 ^ e := by
  rcases eq_or_ne m 0 with rfl | hne
  · simp [round_zero]
  have hx : (m : ℚ) * 2 ^ e ≠ 0 := mul_ne_zero (by exact_mod_cast hne) (two_zpow_pos e).ne'
  have habs : |(m : ℚ) * 2 ^ e| = |(m : ℚ)| * 2 ^ e := by rw [abs_mul, abs_of_pos (two_zpow_pos e)]
  rcases hm.lt_or_eq with hlt | heq
  · have hexp : exponent (m * 2 ^ e) ≤ e := by
      refine exponent_le_of_lt hx he ?_
      rw [habs, zpow_add₀ two_ne_zero, mul_comm (2 ^ e)]
      exact mul_lt_mul_of_pos_right (by exact_mod_cast hlt) (two_zpow_pos e)
    exact round_of_multiple hexp rfl
  · -- The 54th digit of the greatest coefficient is absorbed by the next power.
    have hexp : exponent (m * 2 ^ e) ≤ e + 1 := by
      refine exponent_le_of_lt hx (by omega) ?_
      have hm' : |(m : ℚ)| = 2 ^ (53 : ℤ) := by exact_mod_cast heq
      rw [habs, hm', ← zpow_add₀ two_ne_zero]
      exact zpow_lt_zpow_right₀ one_lt_two (by omega)
    obtain ⟨half, hhalf⟩ : ∃ half : ℤ, m = 2 * half := by
      rcases abs_eq (by positivity) |>.1 heq with h | h
      · exact ⟨2 ^ 52, by omega⟩
      · exact ⟨-2 ^ 52, by omega⟩
    refine round_of_multiple hexp (m := half) ?_
    rw [hhalf, zpow_add₀ two_ne_zero]
    push_cast
    ring

theorem round_nonneg {x : ℚ} (h : 0 ≤ x) : 0 ≤ round x := by
  refine mul_nonneg ?_ (two_zpow_pos _).le
  have hdiv : ((0 : ℤ) : ℚ) ≤ x / 2 ^ exponent x := by
    push_cast
    exact div_nonneg h (two_zpow_pos _).le
  have hround := roundEven_mono hdiv
  rw [roundEven_intCast] at hround
  exact_mod_cast hround

/-- Rounding does not exceed a bound that is a double. -/
theorem round_le {x y : ℚ} (hx : 0 ≤ x) (h : x ≤ y) (hy : round y = y) : round x ≤ y := by
  rcases hx.eq_or_lt with rfl | hpos
  · rwa [round_zero]
  have hexp : exponent x ≤ exponent y := by
    have hlog : Int.log 2 |x| ≤ Int.log 2 |y| := by
      rw [abs_of_pos hpos, abs_of_pos (hpos.trans_le h)]
      exact Int.log_mono_right hpos h
    unfold exponent
    omega
  obtain ⟨d, hd⟩ := Int.le.dest hexp
  -- The bound is a multiple of the last digit of `x`, too.
  obtain ⟨m, hm⟩ : ∃ m : ℤ, y = m * 2 ^ exponent y := ⟨_, hy.symm⟩
  have hmultiple : y = ((m * 2 ^ d : ℤ) : ℚ) * 2 ^ exponent x := by
    rw [← hd, zpow_add₀ two_ne_zero, zpow_natCast] at hm
    push_cast
    linarith
  have hquot : x / 2 ^ exponent x ≤ ((m * 2 ^ d : ℤ) : ℚ) := by
    rw [div_le_iff₀ (two_zpow_pos _), ← hmultiple]
    exact h
  have hround := roundEven_mono hquot
  rw [roundEven_intCast] at hround
  rw [round, hmultiple]
  refine mul_le_mul_of_nonneg_right (by exact_mod_cast hround) (two_zpow_pos _).le

theorem round_round (x : ℚ) : round (round x) = round x := by
  refine round_mul ?_ (le_max_right _ _)
  have hquot : |x / 2 ^ exponent x| < ((2 ^ 53 : ℤ) : ℚ) := by
    rw [abs_div, abs_of_pos (two_zpow_pos _), div_lt_iff₀ (two_zpow_pos _)]
    have h := abs_lt_two_zpow x
    rw [zpow_add₀ two_ne_zero, mul_comm] at h
    exact_mod_cast h
  exact abs_roundEven_le hquot

end Binary64

/-! ## Doubles -/

/-- A finite double. -/
structure Binary64 where
  value : ℚ
  exact : Binary64.round value = value
  bounded : |value| < 2 ^ 1024

namespace Binary64

@[ext] theorem ext {x y : Binary64} (h : x.value = y.value) : x = y := by
  cases x
  cases y
  cases h
  rfl

instance : DecidableEq Binary64 := fun x y =>
  decidable_of_iff (x.value = y.value) ⟨ext, congrArg value⟩

/-- The double nearest to a number, none if it overflows. -/
def ofRat (x : ℚ) : Option Binary64 :=
  if h : |round x| < 2 ^ 1024 then some ⟨round x, round_round x, h⟩ else none

theorem ofRat_of_round_eq {x : Binary64} {q : ℚ} (h : round q = x.value) : ofRat q = some x := by
  unfold ofRat
  rw [dif_pos (h ▸ x.bounded)]
  exact congrArg some (ext h)

end Binary64

end Conc
