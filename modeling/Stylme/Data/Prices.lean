-- SUMMARY: The prices of an offer, and exactly when what is generated passes the validator.
import Stylme.Data.Common

/-!
# Prices

`price_fields` fills a missing price in from the other one, clamps a negative one to zero and
raises the list price to the sale price. What it returns is valid unless a negative sale price
stands beside a positive list price: the sale price is then clamped to zero after the list
price was found to be positive.
-/

namespace Stylme

open Conc

namespace Data

/-! ## The generator -/

/-- What `price_fields` returns. -/
structure PriceFields where
  mrpValue : ℤ
  saleValue : ℤ
  derived : ℚ
  flags : List String
  deriving DecidableEq

/-- `a or b`, of optional numbers -/
def orElse (a b : Option ℤ) : Option ℤ := if a = none ∨ a = some 0 then b else a

/-- `round(x, 2)`, of a double -/
def roundCents (x : ℚ) : ℚ := Binary64.round (Binary64.roundEven (x * 100) / 100)

/-- `price_fields` -/
def priceFields (lib : Library) (mrp sale : Option ℤ) (rawDiscount : Option String) : PriceFields :=
  let mrpValue := max 0 ((orElse mrp sale).getD 0)
  let saleValue := max 0 ((orElse sale (some mrpValue)).getD 0)
  let (mrpValue, saleValue, flags) :=
    if mrpValue ≤ 0 then (100, 100, ["fabricated_minimum_price"]) else (mrpValue, saleValue, [])
  let (mrpValue, flags) :=
    if mrpValue < saleValue then (saleValue, flags ++ ["mrp_raised_to_sale_price"]) else (mrpValue, flags)
  let derived :=
    if mrpValue ≠ 0 then roundCents (Binary64.round ((mrpValue - saleValue) * 100 / mrpValue)) else 0
  let flags := match parseFloat lib rawDiscount with
    | none => flags ++ ["discount_recomputed"]
    | some raw =>
      if raw.value < 0 ∨ 100 < raw.value ∨ 2 < |Binary64.round (raw.value - derived)| then
        flags ++ ["discount_recomputed"]
      else flags
  ⟨mrpValue, saleValue, derived, flags⟩

/-! ## The validator -/

/-- `0 < sale <= mrp and 0 <= discount <= 100` -/
def validPrice (mrp sale : ℤ) (discount : ℚ) : Prop :=
  (0 < sale ∧ sale ≤ mrp) ∧ 0 ≤ discount ∧ discount ≤ 100

instance (mrp sale : ℤ) (discount : ℚ) : Decidable (validPrice mrp sale discount) :=
  inferInstanceAs (Decidable (_ ∧ _))

/-- The generated prices are valid, and a pair that is valid already is not changed. -/
def Priced (mrp sale : Option ℤ) (fields : PriceFields) : Prop :=
  validPrice fields.mrpValue fields.saleValue fields.derived ∧
    ∀ m s, mrp = some m → sale = some s → 0 < s → s ≤ m → fields.mrpValue = m ∧ fields.saleValue = s

/-- The prices generated from two cells that are read. -/
def PricedFromCells (lib : Library) (rawMrp rawSale rawDiscount : Option String) : Prop :=
  ∀ mrp sale, parseMoneyPaise rawMrp = .ok mrp → parseMoneyPaise rawSale = .ok sale →
    Priced mrp sale (priceFields lib mrp sale rawDiscount)

/-! ## The discount -/

variable {lib : Library} {mrp sale : Option ℤ} {rawDiscount : Option String}

theorem round_hundred : Binary64.round 100 = 100 := by
  simpa using Binary64.round_mul (m := 100) (e := 0) (by norm_num) (by norm_num)

theorem roundCents_mem {x : ℚ} (h0 : 0 ≤ x) (h100 : x ≤ 100) : 0 ≤ roundCents x ∧ roundCents x ≤ 100 := by
  have hlow : 0 ≤ Binary64.roundEven (x * 100) := by
    have h := Binary64.roundEven_mono (p := ((0 : ℤ) : ℚ)) (q := x * 100) (by push_cast; positivity)
    rwa [Binary64.roundEven_intCast] at h
  have hhigh : Binary64.roundEven (x * 100) ≤ 10000 := by
    have h := Binary64.roundEven_mono (p := x * 100) (q := ((10000 : ℤ) : ℚ)) (by push_cast; linarith)
    rwa [Binary64.roundEven_intCast] at h
  have hlow' : (0 : ℚ) ≤ Binary64.roundEven (x * 100) := by exact_mod_cast hlow
  have hhigh' : (Binary64.roundEven (x * 100) : ℚ) ≤ 10000 := by exact_mod_cast hhigh
  refine ⟨Binary64.round_nonneg (by positivity), Binary64.round_le (by positivity) ?_ round_hundred⟩
  rw [div_le_iff₀ (by norm_num)]
  linarith

/-- Of a sale price up to the list price, the discount is a percentage. -/
theorem discount_mem {mrp sale : ℤ} (hmrp : 0 < mrp) (h0 : 0 ≤ sale) (h : sale ≤ mrp) :
    0 ≤ roundCents (Binary64.round ((mrp - sale) * 100 / mrp)) ∧
      roundCents (Binary64.round ((mrp - sale) * 100 / mrp)) ≤ 100 := by
  have hmrp' : (0 : ℚ) < mrp := by exact_mod_cast hmrp
  have h0' : (0 : ℚ) ≤ sale := by exact_mod_cast h0
  have h' : (sale : ℚ) ≤ mrp := by exact_mod_cast h
  have hlow : (0 : ℚ) ≤ (mrp - sale) * 100 / mrp :=
    div_nonneg (mul_nonneg (sub_nonneg.2 h') (by norm_num)) hmrp'.le
  have hhigh : ((mrp : ℚ) - sale) * 100 / mrp ≤ 100 := by
    rw [div_le_iff₀ hmrp']
    linarith
  exact roundCents_mem (Binary64.round_nonneg hlow) (Binary64.round_le hlow hhigh round_hundred)

/-! ## The prices -/

/-- The list price is positive, and the sale price is not above it. -/
theorem priceFields_ordered : 0 < (priceFields lib mrp sale rawDiscount).mrpValue ∧
    0 ≤ (priceFields lib mrp sale rawDiscount).saleValue ∧
    (priceFields lib mrp sale rawDiscount).saleValue ≤ (priceFields lib mrp sale rawDiscount).mrpValue := by
  unfold priceFields
  dsimp only
  split_ifs <;> dsimp only at * <;> omega

theorem priceFields_derived : (priceFields lib mrp sale rawDiscount).derived =
    roundCents (Binary64.round (((priceFields lib mrp sale rawDiscount).mrpValue -
      (priceFields lib mrp sale rawDiscount).saleValue) * 100 /
        (priceFields lib mrp sale rawDiscount).mrpValue)) := by
  have hne : (priceFields lib mrp sale rawDiscount).mrpValue ≠ 0 := priceFields_ordered.1.ne'
  unfold priceFields at hne ⊢
  dsimp only at hne ⊢
  rw [if_pos hne]

/-- The sale price is negative, and the list price positive. -/
def NegativeSale (mrp sale : Option ℤ) : Prop := ∃ m s, mrp = some m ∧ sale = some s ∧ 0 < m ∧ s < 0

/-- The sale price is zero where a negative one stands beside a positive list price. -/
theorem priceFields_sale_eq_zero :
    (priceFields lib mrp sale rawDiscount).saleValue = 0 ↔ NegativeSale mrp sale := by
  unfold NegativeSale priceFields orElse
  rcases mrp with _ | m <;> rcases sale with _ | s <;> dsimp only <;> split_ifs <;> (simp_all; try omega)

/-- Prices that are in order are left alone. -/
theorem priceFields_of_ordered {m s : ℤ} (hs : 0 < s) (h : s ≤ m) :
    (priceFields lib (some m) (some s) rawDiscount).mrpValue = m ∧
      (priceFields lib (some m) (some s) rawDiscount).saleValue = s := by
  unfold priceFields orElse
  dsimp only
  split_ifs <;> simp_all <;> omega

theorem priced_iff_not_negativeSale :
    Priced mrp sale (priceFields lib mrp sale rawDiscount) ↔ ¬ NegativeSale mrp sale := by
  obtain ⟨hmrp, hsale, hle⟩ := @priceFields_ordered lib mrp sale rawDiscount
  constructor
  · rintro ⟨⟨⟨hpos, -⟩, -⟩, -⟩ hnegative
    exact hpos.ne' (priceFields_sale_eq_zero.2 hnegative)
  · intro hnot
    have hpos : 0 < (priceFields lib mrp sale rawDiscount).saleValue :=
      lt_of_le_of_ne hsale fun hzero => hnot (priceFields_sale_eq_zero.1 hzero.symm)
    refine ⟨⟨⟨hpos, hle⟩, ?_⟩, ?_⟩
    · rw [priceFields_derived]
      exact discount_mem hmrp hsale hle
    · rintro m s rfl rfl hs hsm
      exact priceFields_of_ordered hs hsm

/-- The prices generated from two cells are right unless a positive list price stands beside a negative
sale price. -/
theorem pricedFromCells_iff (lib : Library) (rawMrp rawSale rawDiscount : Option String) :
    PricedFromCells lib rawMrp rawSale rawDiscount ↔
      ∀ mrp sale, parseMoneyPaise rawMrp = .ok mrp → parseMoneyPaise rawSale = .ok sale →
        ¬ NegativeSale mrp sale :=
  forall₄_congr fun _ _ _ _ => priced_iff_not_negativeSale

/-- A list price of 100 and a sale price of -5, in rupees. -/
theorem negativeSale_not_priced : ¬ ∀ (lib : Library) (rawMrp rawSale rawDiscount : Option String),
    PricedFromCells lib rawMrp rawSale rawDiscount := by
  intro h
  have hmrp : parseMoneyPaise (some "100") = .ok (some 10000) := by decide +kernel
  have hsale : parseMoneyPaise (some "-5") = .ok (some (-500)) := by decide +kernel
  have hpriced := (h plainLibrary _ _ none _ _ hmrp hsale).1
  exact absurd hpriced.1.1 (by decide +kernel)

end Data

end Stylme
