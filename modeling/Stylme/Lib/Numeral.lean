-- SUMMARY: Decimal numerals: what they denote, and the shortest one for a double.
import Stylme.Lib.Binary64

/-!
# Decimal numerals

A numeral has digits before and after a point and an exponent. A double is written with the
fewest digits that are read back as it.
-/

namespace Conc

namespace Numeral

/-! ## Reading -/

def digitsValue (digits : List Char) : ℕ := Nat.ofDigitChars 10 digits 0

/-- A nonempty string of digits. -/
def wholeNumber (l : List Char) : Option ℕ :=
  if l ≠ [] ∧ l.all Char.isDigit then some (digitsValue l) else none

def signedNumber : List Char → Option ℤ
  | '+' :: digits => (wholeNumber digits).map Int.ofNat
  | '-' :: digits => (wholeNumber digits).map fun (n : ℕ) => -(n : ℤ)
  | digits => (wholeNumber digits).map Int.ofNat

/-- What follows the digits: nothing, or an exponent. -/
def exponentPart : List Char → Option ℤ
  | [] => some 0
  | c :: rest => if c = 'e' ∨ c = 'E' then signedNumber rest else none

/-- The digits after a point, and the rest. -/
def fractionPart : List Char → List Char × List Char
  | '.' :: rest => (rest.takeWhile Char.isDigit, rest.dropWhile Char.isDigit)
  | rest => ([], rest)

/-- What a decimal numeral without sign denotes. -/
def read (l : List Char) : Option ℚ :=
  let whole := l.takeWhile Char.isDigit
  let (fraction, rest) := fractionPart (l.dropWhile Char.isDigit)
  if whole = [] ∧ fraction = [] then none
  else (exponentPart rest).map fun (e : ℤ) =>
    (digitsValue (whole ++ fraction) : ℚ) * 10 ^ (e - fraction.length)

/-! ## Writing -/

/-- The point stands after as many digits: the number lies between `10 ^ (scale - 1)` and
`10 ^ scale`. -/
def scale (x : ℚ) : ℤ := Int.log 10 x + 1

/-- A numeral `0.d₁d₂…` times a power of ten. -/
structure Digits where
  digits : List Char
  scale : ℤ

/-- The number that some digits denote. -/
def Digits.value (d : Digits) : ℚ := digitsValue d.digits * 10 ^ (d.scale - d.digits.length)

/-- The two nearest numbers to `q`, the nearer one first. -/
def neighbours (q : ℚ) : List ℕ :=
  let low := ⌊q⌋₊
  let near := (Binary64.roundEven q).toNat
  [near, if near = low then low + 1 else low]

/-- The digits that denote `s` at the position of the `k`th digit of a number of that scale. -/
def digitsOf (k : ℕ) (scale : ℤ) (s : ℕ) : Digits :=
  if s = 10 ^ k then ⟨Nat.toDigits 10 (10 ^ (k - 1)), scale + 1⟩ else ⟨Nat.toDigits 10 s, scale⟩

/-- At most `k` digits that are rounded to `x`. -/
def digitsAt (x : ℚ) (k : ℕ) : Option Digits :=
  ((neighbours (x * 10 ^ ((k : ℤ) - scale x))).map (digitsOf k (scale x))).find? fun d =>
    Binary64.round d.value = x

/-- The fewest digits that are rounded to `x`. No double needs as many as the bound. -/
def shortest (x : ℚ) : Option Digits := (List.range' 1 1400).findSome? (digitsAt x)

/-- The text of an exponent. -/
def exponentText (e : ℤ) : List Char :=
  'e' :: (if e < 0 then '-' else '+') :: Nat.toDigits 10 e.natAbs

/-- How digits are written. -/
def Digits.text (d : Digits) : List Char :=
  let k : ℤ := d.digits.length
  if k ≤ d.scale ∧ d.scale ≤ 21 then d.digits ++ List.replicate (d.scale - k).toNat '0'
  else if 0 < d.scale ∧ d.scale ≤ 21 then
    d.digits.take d.scale.toNat ++ '.' :: d.digits.drop d.scale.toNat
  else if -6 < d.scale ∧ d.scale ≤ 0 then
    '0' :: '.' :: (List.replicate (-d.scale).toNat '0' ++ d.digits)
  else if k = 1 then d.digits ++ exponentText (d.scale - 1)
  else d.digits.take 1 ++ '.' :: (d.digits.drop 1 ++ exponentText (d.scale - 1))

/-- The text of a number that is not negative. -/
def write (x : ℚ) : List Char := if x = 0 then ['0'] else (shortest x).elim [] Digits.text

/-! ## Reading what is written -/

section ReadText

theorem takeWhile_append_digits {digits rest : List Char} (hdigits : ∀ c ∈ digits, c.isDigit)
    (hrest : rest.takeWhile Char.isDigit = []) :
    (digits ++ rest).takeWhile Char.isDigit = digits ∧
      (digits ++ rest).dropWhile Char.isDigit = rest := by
  rw [List.takeWhile_append_of_pos hdigits, List.dropWhile_append_of_pos hdigits, hrest,
    List.append_nil]
  refine ⟨rfl, ?_⟩
  have h := List.takeWhile_append_dropWhile (p := Char.isDigit) (l := rest)
  rwa [hrest, List.nil_append] at h

/-- A numeral with a point. -/
theorem read_point (whole fraction rest : List Char) (e : ℤ) (hwhole : ∀ c ∈ whole, c.isDigit)
    (hne : whole ≠ []) (hfraction : ∀ c ∈ fraction, c.isDigit)
    (hrest : rest.takeWhile Char.isDigit = []) (he : exponentPart rest = some e) :
    read (whole ++ '.' :: (fraction ++ rest)) =
      some ((digitsValue (whole ++ fraction) : ℚ) * 10 ^ (e - fraction.length)) := by
  obtain ⟨htake, hdrop⟩ := takeWhile_append_digits hwhole
    (show ('.' :: (fraction ++ rest)).takeWhile Char.isDigit = [] from rfl)
  obtain ⟨htake', hdrop'⟩ := takeWhile_append_digits hfraction hrest
  simp only [read, htake, hdrop, fractionPart, htake', hdrop', hne, false_and, if_false, he,
    Option.map_some]

/-- A numeral without a point. -/
theorem read_whole (whole rest : List Char) (e : ℤ) (hwhole : ∀ c ∈ whole, c.isDigit)
    (hne : whole ≠ []) (hrest : rest.takeWhile Char.isDigit = [])
    (hpoint : fractionPart rest = ([], rest)) (he : exponentPart rest = some e) :
    read (whole ++ rest) = some ((digitsValue whole : ℚ) * 10 ^ e) := by
  obtain ⟨htake, hdrop⟩ := takeWhile_append_digits hwhole hrest
  simp only [read, htake, hdrop, hpoint, hne, false_and, if_false, he, Option.map_some,
    List.append_nil, List.length_nil, Nat.cast_zero, sub_zero]

theorem isDigit_toDigits {n : ℕ} : ∀ c ∈ Nat.toDigits 10 n, c.isDigit := fun _ hc =>
  Nat.isDigit_of_mem_toDigits (by decide) (by decide) hc

theorem wholeNumber_toDigits {n : ℕ} : wholeNumber (Nat.toDigits 10 n) = some n := by
  unfold wholeNumber digitsValue
  rw [if_pos ⟨Nat.toDigits_ne_nil, List.all_eq_true.2 isDigit_toDigits⟩,
    Nat.ofDigitChars_ten_toDigits]

theorem exponentPart_exponentText {e : ℤ} : exponentPart (exponentText e) = some e := by
  unfold exponentText exponentPart
  dsimp only
  rw [if_pos (.inl rfl)]
  split_ifs with he
  · simp only [signedNumber, wholeNumber_toDigits, Option.map_some]
    rw [Int.ofNat_natAbs_of_nonpos he.le, neg_neg]
  · simp only [signedNumber, wholeNumber_toDigits, Option.map_some]
    rw [Int.ofNat_eq_natCast, Int.natAbs_of_nonneg (not_lt.1 he)]

theorem takeWhile_exponentText {e : ℤ} : (exponentText e).takeWhile Char.isDigit = [] := rfl

theorem isDigit_replicate {n : ℕ} : ∀ c ∈ List.replicate n '0', c.isDigit := fun _ hc => by
  rw [List.eq_of_mem_replicate hc]
  rfl

theorem digitsValue_append_zeros {digits : List Char} {n : ℕ} :
    digitsValue (digits ++ List.replicate n '0') = digitsValue digits * 10 ^ n := by
  rw [digitsValue, Nat.ofDigitChars_append, Nat.ofDigitChars_replicate_zero, mul_comm, digitsValue]

theorem digitsValue_zeros_append {digits : List Char} {n : ℕ} :
    digitsValue (List.replicate n '0' ++ digits) = digitsValue digits := by
  rw [digitsValue, Nat.ofDigitChars_append, Nat.ofDigitChars_replicate_zero, mul_zero, digitsValue]

/-- What is written for some digits is read as what they denote. -/
theorem read_text {d : Digits} (hne : d.digits ≠ []) (hdigits : ∀ c ∈ d.digits, c.isDigit) :
    read d.text = some d.value := by
  have hlength : 0 < d.digits.length := List.length_pos_iff.2 hne
  unfold Digits.text Digits.value
  dsimp only
  split_ifs with hwhole hpoint hsmall hone
  · -- The digits and zeros
    have h := read_whole (d.digits ++ List.replicate (d.scale - d.digits.length).toNat '0') [] 0
      (List.forall_mem_append.2 ⟨hdigits, isDigit_replicate⟩)
      (by simp [hne]) rfl rfl rfl
    rw [List.append_nil] at h
    rw [h, digitsValue_append_zeros]
    have hexp : ((d.scale - d.digits.length).toNat : ℤ) = d.scale - d.digits.length :=
      Int.toNat_of_nonneg (by omega)
    rw [← hexp, zpow_natCast, zpow_zero, mul_one]
    push_cast
    rfl
  · -- A point between the digits
    have htake : d.digits.take d.scale.toNat ≠ [] := by
      rw [ne_eq, List.take_eq_nil_iff, not_or]
      exact ⟨by omega, hne⟩
    have h := read_point (d.digits.take d.scale.toNat) (d.digits.drop d.scale.toNat) [] 0
      (fun c hc => hdigits c (List.mem_of_mem_take hc)) htake (fun c hc => hdigits c (List.mem_of_mem_drop hc)) rfl rfl
    rw [List.append_nil] at h
    rw [h, List.take_append_drop, List.length_drop]
    congr 3
    omega
  · -- Zeros after the point
    have h := read_point ['0'] (List.replicate (-d.scale).toNat '0' ++ d.digits) [] 0
      (by simp) (by simp) (List.forall_mem_append.2 ⟨isDigit_replicate, hdigits⟩) rfl rfl
    rw [List.append_nil] at h
    refine h.trans ?_
    have hvalue : digitsValue (['0'] ++ (List.replicate (-d.scale).toNat '0' ++ d.digits)) =
        digitsValue d.digits := by
      rw [show ['0'] = List.replicate 1 '0' from rfl, digitsValue_zeros_append,
        digitsValue_zeros_append]
    rw [hvalue, List.length_append, List.length_replicate]
    congr 3
    omega
  · -- One digit and an exponent
    rw [read_whole _ _ _ hdigits hne rfl rfl exponentPart_exponentText, hone]
  · -- A point after the first digit, and an exponent
    have htake : d.digits.take 1 ≠ [] := by
      rw [ne_eq, List.take_eq_nil_iff, not_or]
      exact ⟨one_ne_zero, hne⟩
    rw [read_point _ _ _ _ (fun c hc => hdigits c (List.mem_of_mem_take hc)) htake
      (fun c hc => hdigits c (List.mem_of_mem_drop hc)) rfl exponentPart_exponentText,
      List.take_append_drop, List.length_drop]
    congr 3
    omega

end ReadText

/-! ## Shortest digits -/

section Shortest

open Binary64

/-- What is found is rounded to the number. -/
theorem shortest_spec {x : ℚ} {d : Digits} (h : shortest x = some d) :
    Binary64.round d.value = x ∧ d.digits ≠ [] ∧ ∀ c ∈ d.digits, c.isDigit := by
  obtain ⟨k, -, hk⟩ := List.exists_of_findSome?_eq_some h
  unfold digitsAt at hk
  have hround : Binary64.round d.value = x := by simpa using List.find?_some hk
  obtain ⟨s, -, rfl⟩ := List.mem_map.1 (List.mem_of_find?_eq_some hk)
  refine ⟨hround, ?_⟩
  unfold digitsOf
  split_ifs
  · exact ⟨Nat.toDigits_ne_nil, isDigit_toDigits⟩
  · exact ⟨Nat.toDigits_ne_nil, isDigit_toDigits⟩

/-- A positive double is a multiple of the smallest one. -/
theorem exists_multiple (x : Binary64) (hx : 0 < x.value) :
    ∃ n : ℕ, 0 < n ∧ x.value * 2 ^ 1074 = n := by
  have hexact := x.exact
  have hlow : -1074 ≤ exponent x.value := le_max_right _ _
  unfold Binary64.round at hexact
  generalize roundEven _ = m at hexact
  obtain ⟨d, hd⟩ := Int.le.dest hlow
  have hpos : 0 < m := by
    rw [← hexact] at hx
    exact_mod_cast (mul_pos_iff_of_pos_right (two_zpow_pos _)).1 hx
  lift m to ℕ using hpos.le
  have hshift : (2 : ℚ) ^ exponent x.value * 2 ^ 1074 = 2 ^ d := by
    rw [← zpow_natCast, ← zpow_natCast, ← zpow_add₀ two_ne_zero]
    congr 1
    omega
  refine ⟨m * 2 ^ d, Nat.mul_pos (by exact_mod_cast hpos) (by positivity), ?_⟩
  rw [← hexact, mul_assoc, hshift]
  push_cast
  rfl

/-- The scale of a positive double. -/
theorem scale_bounds (x : Binary64) (hx : 0 < x.value) :
    -323 ≤ scale x.value ∧ scale x.value ≤ 309 := by
  obtain ⟨n, hn, hmultiple⟩ := exists_multiple x hx
  have hsmall : (2 : ℚ) ^ 1074 ≤ 10 ^ 324 := by
    exact_mod_cast (by decide +kernel : 2 ^ 1074 ≤ 10 ^ 324)
  have hlarge : (2 : ℚ) ^ 1024 ≤ 10 ^ 309 := by
    exact_mod_cast (by decide +kernel : 2 ^ 1024 ≤ 10 ^ 309)
  have hlow : ((10 : ℕ) : ℚ) ^ (-324 : ℤ) ≤ x.value := by
    have hone : (1 : ℚ) ≤ x.value * 2 ^ 1074 := by
      rw [hmultiple]
      exact_mod_cast hn
    rw [zpow_neg, inv_le_iff_one_le_mul₀ (zpow_pos (by norm_num) _)]
    exact hone.trans (mul_le_mul_of_nonneg_left (by exact_mod_cast hsmall) hx.le)
  have hhigh : x.value < ((10 : ℕ) : ℚ) ^ (309 : ℤ) :=
    ((le_abs_self _).trans_lt x.bounded).trans_le (by exact_mod_cast hlarge)
  have h₁ := (Int.zpow_le_iff_le_log (by decide) hx).1 hlow
  have h₂ := (Int.lt_zpow_iff_log_lt (by decide) hx).1 hhigh
  unfold scale
  omega

theorem exists_shortest (x : Binary64) (hx : 0 < x.value) : ∃ d, shortest x.value = some d := by
  obtain ⟨n, hn, hmultiple⟩ := exists_multiple x hx
  obtain ⟨hmin, hmax⟩ := scale_bounds x hx
  -- With 1074 digits after the point nothing is lost.
  obtain ⟨k, hk⟩ : ∃ k : ℕ, (k : ℤ) = scale x.value + 1074 := ⟨_, Int.toNat_of_nonneg (by omega)⟩
  have hten : (10 : ℚ) ^ ((k : ℤ) - scale x.value) = 2 ^ 1074 * 5 ^ 1074 := by
    rw [← mul_pow, show (k : ℤ) - scale x.value = (1074 : ℕ) by omega, zpow_natCast]
    norm_num
  obtain ⟨s, hs⟩ : ∃ s : ℕ, x.value * 10 ^ ((k : ℤ) - scale x.value) = s := by
    refine ⟨n * 5 ^ 1074, ?_⟩
    rw [hten, ← mul_assoc, hmultiple, Nat.cast_mul, Nat.cast_pow, Nat.cast_ofNat]
  have hpos : (0 : ℚ) < 10 ^ ((k : ℤ) - scale x.value) := zpow_pos (by norm_num) _
  have hlow : 10 ^ (k - 1) ≤ s := by
    have h : ((10 : ℕ) : ℚ) ^ (scale x.value - 1) ≤ x.value := by
      rw [scale, add_sub_cancel_right]
      exact Int.zpow_log_le_self (by decide) hx
    have hmul := mul_le_mul_of_nonneg_right h hpos.le
    rw [hs, Nat.cast_ofNat, ← zpow_add₀ (by norm_num),
      show scale x.value - 1 + (k - scale x.value) = (k - 1 : ℕ) by omega, zpow_natCast] at hmul
    exact_mod_cast hmul
  have hhigh : s < 10 ^ k := by
    have h : x.value < ((10 : ℕ) : ℚ) ^ scale x.value := Int.lt_zpow_succ_log_self (by decide) _
    have hmul := mul_lt_mul_of_pos_right h hpos
    rw [hs, Nat.cast_ofNat, ← zpow_add₀ (by norm_num), add_sub_cancel, zpow_natCast] at hmul
    exact_mod_cast hmul
  have hlength : (Nat.toDigits 10 s).length = k := by
    have hle := (Nat.length_toDigits_le_iff (by decide) (by omega)).2 hhigh
    by_contra hne
    have hlt : s < 10 ^ (k - 1) :=
      (Nat.length_toDigits_le_iff (by decide) (by omega)).1 (by omega)
    omega
  have hmem : ⟨Nat.toDigits 10 s, scale x.value⟩ ∈
      (neighbours (x.value * 10 ^ ((k : ℤ) - scale x.value))).map (digitsOf k (scale x.value)) := by
    refine List.mem_map.2 ⟨s, ?_, if_neg hhigh.ne⟩
    rw [hs]
    unfold neighbours
    dsimp only
    rw [← Int.cast_natCast, roundEven_intCast]
    exact List.mem_cons_self
  have hvalue : Digits.value ⟨Nat.toDigits 10 s, scale x.value⟩ = x.value := by
    unfold Digits.value digitsValue
    dsimp only
    rw [Nat.ofDigitChars_ten_toDigits, hlength, ← neg_sub, zpow_neg,
      ← div_eq_mul_inv, div_eq_iff hpos.ne']
    exact hs.symm
  have hfound : (digitsAt x.value k).isSome := by
    refine List.find?_isSome.2 ⟨_, hmem, decide_eq_true ?_⟩
    rw [hvalue, x.exact]
  refine Option.isSome_iff_exists.1 ?_
  unfold shortest
  rw [List.findSome?_isSome_iff]
  exact ⟨k, List.mem_range'_1.2 (by omega), hfound⟩

/-- A double is read back from the text that is written for it. -/
theorem read_write (x : Binary64) (hx : 0 ≤ x.value) :
    ∃ q, read (write x.value) = some q ∧ ofRat q = some x := by
  unfold write
  split_ifs with hzero
  · refine ⟨0, ?_, ofRat_of_round_eq ?_⟩
    · rw [← List.append_nil ['0'], read_whole ['0'] [] 0 (by simp) (by simp) rfl rfl rfl]
      simp [digitsValue, Nat.ofDigitChars_cons]
    · rw [hzero, Binary64.round_zero]
  · obtain ⟨d, hd⟩ := exists_shortest x (lt_of_le_of_ne hx (Ne.symm hzero))
    obtain ⟨hround, hne, hdigits⟩ := shortest_spec hd
    refine ⟨d.value, ?_, ofRat_of_round_eq hround⟩
    rw [hd]
    exact read_text hne hdigits

example : write (Binary64.round (1 / 10)) = "0.1".toList := by decide +kernel

example : write (Binary64.round (10 ^ 23)) = "1e+23".toList := by decide +kernel

end Shortest

/-! ## The characters of a numeral -/

section Characters

/-- A character that is written. -/
def Written (c : Char) : Prop := c.isDigit ∨ c ∈ ['.', 'e', '+', '-']

instance : DecidablePred Written := fun c =>
  inferInstanceAs (Decidable (c.isDigit ∨ c ∈ ['.', 'e', '+', '-']))

theorem written_exponentText {e : ℤ} : ∀ c ∈ exponentText e, Written c := by
  intro c hc
  rcases List.mem_cons.1 hc with rfl | hc
  · exact .inr (by decide)
  rcases List.mem_cons.1 hc with rfl | hc
  · split_ifs
    · exact .inr (by decide)
    · exact .inr (by decide)
  · exact .inl (isDigit_toDigits c hc)

theorem written_text {d : Digits} (hdigits : ∀ c ∈ d.digits, c.isDigit) :
    ∀ c ∈ d.text, Written c := by
  have hpoint : Written '.' := .inr (by decide)
  have hwritten : ∀ l : List Char, (∀ c ∈ l, c.isDigit) → ∀ c ∈ l, Written c := fun _ h c hc =>
    .inl (h c hc)
  have htake : ∀ n, ∀ c ∈ d.digits.take n, Written c := fun n => hwritten _ fun c hc =>
    hdigits c (List.mem_of_mem_take hc)
  have hdrop : ∀ n, ∀ c ∈ d.digits.drop n, Written c := fun n => hwritten _ fun c hc =>
    hdigits c (List.mem_of_mem_drop hc)
  have hzeros : ∀ n, ∀ c ∈ List.replicate n '0', Written c := fun n => hwritten _ isDigit_replicate
  unfold Digits.text
  dsimp only
  split_ifs
  · exact List.forall_mem_append.2 ⟨hwritten _ hdigits, hzeros _⟩
  · exact List.forall_mem_append.2 ⟨htake _, List.forall_mem_cons.2 ⟨hpoint, hdrop _⟩⟩
  · exact List.forall_mem_cons.2 ⟨.inl rfl, List.forall_mem_cons.2 ⟨hpoint,
      List.forall_mem_append.2 ⟨hzeros _, hwritten _ hdigits⟩⟩⟩
  · exact List.forall_mem_append.2 ⟨hwritten _ hdigits, written_exponentText⟩
  · exact List.forall_mem_append.2 ⟨htake _, List.forall_mem_cons.2 ⟨hpoint,
      List.forall_mem_append.2 ⟨hdrop _, written_exponentText⟩⟩⟩

theorem written_write {x : ℚ} : ∀ c ∈ write x, Written c := by
  unfold write
  split_ifs
  · intro c hc
    rw [List.mem_singleton.1 hc]
    exact .inl rfl
  · cases hd : shortest x with
    | none => exact fun _ hc => (List.not_mem_nil hc).elim
    | some d => exact written_text (shortest_spec hd).2.2

/-- A numeral begins with a digit or a point. -/
theorem head_of_read {c : Char} {l : List Char} {q : ℚ} (h : read (c :: l) = some q) :
    c.isDigit ∨ c = '.' := by
  by_contra hnot
  obtain ⟨hdigit, hpoint⟩ := not_or.1 hnot
  have htake : (c :: l).takeWhile Char.isDigit = [] := by simp [hdigit]
  have hdrop : (c :: l).dropWhile Char.isDigit = c :: l := by simp [hdigit]
  have hfraction : fractionPart (c :: l) = ([], c :: l) := by
    unfold fractionPart
    split
    · rename_i heq
      exact (hpoint (List.cons.inj heq).1).elim
    · rfl
  simp [read, htake, hdrop, hfraction] at h

end Characters

end Numeral

end Conc
