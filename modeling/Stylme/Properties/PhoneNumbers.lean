-- SUMMARY: When the phone normaliser of the control plane and the one of the storefront agree, and what both accept.
import Stylme.Lib.Trimming
import Stylme.Recovery.System
import Stylme.Service.Campaigns

/-!
# Phone numbers

The control plane normalises the number for human handoffs, the storefront the
numbers of shoppers. Both drop the separators and put the country code before ten
digits. The storefront reads two zeros at the front as the international prefix,
the control plane as two of the ten digits.
-/

namespace Stylme

open Conc

namespace PhoneNumbers

/-! ## The same texts -/

/-- A character that the control plane accepts after the front of a number. -/
def Plain (c : Char) : Prop := c.isDigit ∨ c = ' ' ∨ c = '-' ∨ c = '(' ∨ c = ')'

instance : DecidablePred Plain := fun _ => inferInstanceAs (Decidable (_ ∨ _))

theorem trimSpace_toList (s : String) : (trimSpace s).toList = trim isSpace s.toList := by
  simp only [trimSpace, trim, List.rdropWhile, String.toList_ofList]

theorem strip_toList (s : String) : (Recovery.strip s).toList = trim Recovery.isSpace s.toList := by
  simp only [Recovery.strip, Recovery.dropRight, trim, List.rdropWhile, String.toList_ofList]

/-- Python takes at least the characters for blanks that Go does. -/
theorem isSpace_of_isSpace {c : Char} (h : isSpace c) : Recovery.isSpace c := by
  simp only [isSpace, Recovery.isSpace, decide_eq_true_eq, List.mem_cons, List.not_mem_nil,
    or_false] at h ⊢
  omega

/-- Of the characters that the control plane accepts, both take the space alone for a blank. -/
theorem isSpace_of_plain {c : Char} (hc : Plain c ∨ c = '+') (h : Recovery.isSpace c) : isSpace c := by
  rcases hc with (hdigit | rfl | rfl | rfl | rfl) | rfl
  · exfalso
    obtain ⟨hlow, hhigh⟩ := Char.isDigit_iff_toNat.1 hdigit
    have hlow : 48 ≤ c.toNat := hlow
    have hhigh : c.toNat ≤ 57 := hhigh
    simp only [Recovery.isSpace, decide_eq_true_eq] at h
    omega
  all_goals revert h; decide

theorem strip_eq_trimSpace {s : String} (h : ∀ c ∈ (trimSpace s).toList, Plain c ∨ c = '+') :
    (Recovery.strip s).toList = (trimSpace s).toList := by
  rw [trimSpace_toList] at h ⊢
  rw [strip_toList]
  have htight := tight_trim isSpace s.toList
  refine trim_eq_of_tight (fun c => isSpace_of_isSpace) ⟨fun c hc hspace => ?_, fun c hc hspace => ?_⟩
  · exact htight.head c hc (isSpace_of_plain (h c (List.mem_of_mem_head? hc)) hspace)
  · exact htight.last c hc (isSpace_of_plain (h c (List.mem_of_getLast? hc)) hspace)

/-! ## The format -/

/-- A plus sign, a digit that is not zero, and seven to fourteen digits more. -/
structure International (l : List Char) (d : Char) (digits : List Char) : Prop where
  eq : l = '+' :: d :: digits
  first : d.isDigit
  nonzero : d ≠ '0'
  rest : ∀ c ∈ digits, c.isDigit
  length : 7 ≤ digits.length ∧ digits.length ≤ 14

theorem International.congr {l : List Char} {d d' : Char} {digits digits' : List Char}
    (h : International l d digits) (hl : l = '+' :: d' :: digits') : d = d' ∧ digits = digits' := by
  simpa using h.eq.symm.trans hl

theorem isDigit_iff {c : Char} : c.isDigit ↔ '0' ≤ c ∧ c ≤ '9' := by
  simp only [Char.isDigit, Bool.and_eq_true, decide_eq_true_eq]
  rfl

theorem first_iff {d : Char} : ('1' ≤ d ∧ d ≤ '9') ↔ d.isDigit ∧ d ≠ '0' := by
  have hle : ∀ {a b : Char}, a ≤ b ↔ a.toNat ≤ b.toNat := Iff.rfl
  rw [isDigit_iff, ne_eq, ← Char.toNat_inj, hle, hle, hle]
  show (49 ≤ _ ∧ _ ≤ 57) ↔ (48 ≤ _ ∧ _ ≤ 57) ∧ ¬ _ = 48
  omega

theorem isE164_iff {s : String} : isE164 s ↔ ∃ d digits, International s.toList d digits := by
  unfold isE164
  split
  · rename_i d digits hlist
    simp only [decide_eq_true_eq, List.all_eq_true]
    constructor
    · rintro ⟨hlow, hhigh, hdigits, hlength⟩
      obtain ⟨hfirst, hnonzero⟩ := first_iff.1 ⟨hlow, hhigh⟩
      exact ⟨d, digits, hlist, hfirst, hnonzero, hdigits, hlength⟩
    · rintro ⟨d', digits', hint⟩
      obtain ⟨rfl, rfl⟩ := hint.congr hlist
      obtain ⟨hlow, hhigh⟩ := first_iff.2 ⟨hint.first, hint.nonzero⟩
      exact ⟨hlow, hhigh, hint.rest, hint.length⟩
  · rename_i hother
    refine iff_of_false (by simp) ?_
    rintro ⟨d, digits, hint⟩
    exact hother d digits hint.eq

theorem matchesE164_iff {s : String} :
    Recovery.matchesE164 s ↔ ∃ d digits, International s.toList d digits := by
  unfold Recovery.matchesE164
  split
  · rename_i d digits hlist
    simp only [decide_eq_true_eq, List.all_eq_true, ← isDigit_iff]
    constructor
    · rintro ⟨hfirst, hlength, hdigits⟩
      obtain ⟨hfirst, hnonzero⟩ := first_iff.1 hfirst
      exact ⟨d, digits, hlist, hfirst, hnonzero, hdigits, hlength⟩
    · rintro ⟨d', digits', hint⟩
      obtain ⟨rfl, rfl⟩ := hint.congr hlist
      exact ⟨first_iff.2 ⟨hint.first, hint.nonzero⟩, hint.length, hint.rest⟩
  · rename_i hother
    refine iff_of_false (by simp) ?_
    rintro ⟨d, digits, hint⟩
    exact hother d digits hint.eq

/-! ## The control plane -/

/-- What the control plane keeps of a number: its digits, and a plus sign at the front. -/
theorem normalizeDigits_iff {l kept : List Char} :
    normalizeDigits false l = .ok kept ↔ (∀ c ∈ l, Plain c) ∧ kept = l.filter Char.isDigit := by
  induction l generalizing kept with
  | nil => simp [normalizeDigits, eq_comm]
  | cons c l ih =>
    simp only [normalizeDigits, Bool.false_eq_true, and_false, or_false, List.forall_mem_cons]
    by_cases hdigit : c.isDigit
    · rw [if_pos hdigit, List.filter_cons_of_pos hdigit]
      cases hrest : normalizeDigits false l with
      | error e =>
        refine iff_of_false (by simp) ?_
        rintro ⟨⟨-, hl⟩, -⟩
        have := ih.2 ⟨hl, rfl⟩
        rw [hrest] at this
        cases this
      | ok rest =>
        obtain ⟨hl, rfl⟩ := ih.1 hrest
        exact ⟨fun h => ⟨⟨.inl hdigit, hl⟩, (Except.ok.inj h).symm⟩, fun h => by rw [h.2]⟩
    · rw [if_neg hdigit, List.filter_cons_of_neg hdigit]
      by_cases hplain : c = ' ' ∨ c = '-' ∨ c = '(' ∨ c = ')'
      · rw [if_pos hplain, ih]
        simp [Plain, hplain]
      · rw [if_neg hplain]
        exact iff_of_false (by simp) fun h => h.1.1.elim hdigit hplain

theorem normalizeDigits_front {l kept : List Char} : normalizeDigits true l = .ok kept ↔
    ((∀ c ∈ l, Plain c) ∧ kept = l.filter Char.isDigit) ∨
      ∃ rest, l = '+' :: rest ∧ (∀ c ∈ rest, Plain c) ∧ kept = '+' :: rest.filter Char.isDigit := by
  by_cases hplus : l.head? = some '+'
  · obtain ⟨rest, rfl⟩ : ∃ rest, l = '+' :: rest := by
      cases l with
      | nil => cases hplus
      | cons c rest => exact ⟨rest, by rw [Option.some.inj hplus]⟩
    have hno : ¬ ∀ c ∈ '+' :: rest, Plain c := fun h => absurd (h '+' List.mem_cons_self) (by decide)
    simp only [hno, false_and, false_or, List.cons.injEq, true_and, exists_eq_left', normalizeDigits,
      and_self, or_true, if_true]
    cases hrest : normalizeDigits false rest with
    | error e =>
      refine iff_of_false (by simp) ?_
      rintro ⟨hplain, -⟩
      have := normalizeDigits_iff.2 ⟨hplain, rfl⟩
      rw [hrest] at this
      cases this
    | ok kept' =>
      obtain ⟨hplain, rfl⟩ := normalizeDigits_iff.1 hrest
      exact ⟨fun h => ⟨hplain, (Except.ok.inj h).symm⟩, fun h => by rw [h.2]⟩
  · have hfront : normalizeDigits true l = normalizeDigits false l := by
      cases l with
      | nil => rfl
      | cons c rest =>
        have hc : c ≠ '+' := fun h => hplus (by rw [h]; rfl)
        simp [normalizeDigits, hc]
    rw [hfront, normalizeDigits_iff]
    refine (or_iff_left ?_).symm
    rintro ⟨rest, rfl, -⟩
    exact hplus rfl

/-- The number that the control plane makes of what it keeps. -/
def withCountryCode (kept : List Char) : List Char :=
  if kept.head? = some '+' then kept
  else if kept.length = 10 then '+' :: '9' :: '1' :: kept else '+' :: kept

theorem normalizeHumanHandoffNumber_iff {s r : String} (hs : trimSpace s ≠ "") :
    normalizeHumanHandoffNumber s = .ok r ↔ ∃ kept, normalizeDigits true (trimSpace s).toList = .ok kept ∧
      r.toList = withCountryCode kept ∧ isE164 r := by
  unfold normalizeHumanHandoffNumber
  simp only [if_neg hs]
  cases normalizeDigits true (trimSpace s).toList with
  | error e => simp
  | ok kept =>
    have hresult : (if kept.head? = some '+' then String.ofList kept
        else if kept.length = 10 then "+91" ++ String.ofList kept else "+" ++ String.ofList kept) =
        String.ofList (withCountryCode kept) := by
      unfold withCountryCode
      split_ifs <;> simp [← String.toList_inj]
    dsimp only
    rw [hresult]
    constructor
    · intro h
      split at h
      · rename_i hformat
        obtain rfl := Except.ok.inj h
        exact ⟨kept, rfl, String.toList_ofList, hformat⟩
      · cases h
    · rintro ⟨_, ⟨⟩, hr, hformat⟩
      rw [← hr, String.ofList_toList, if_pos hformat]

/-! ## The storefront -/

section Storefront

variable {lib : Recovery.Library}

/-- The number that the storefront makes of a text without blanks around it. -/
def international (lib : Recovery.Library) (raw : List Char) : List Char :=
  let raw := if ['0', '0'] <+: raw then '+' :: raw.drop 2 else raw
  let digits := raw.filter lib.isDigit
  if ['+'] <+: raw then '+' :: digits
  else if digits.length = 10 then ['+', '9', '1'] ++ digits
  else if digits.length = 11 ∧ ['0'] <+: digits then ['+', '9', '1'] ++ digits.drop 1
  else '+' :: digits

theorem international_plus {raw : List Char} :
    international lib ('+' :: raw) = '+' :: ('+' :: raw).filter lib.isDigit := by
  have hzeros : ¬ ['0', '0'] <+: '+' :: raw := by simp
  have hplus : ['+'] <+: '+' :: raw := by simp
  simp only [international, if_neg hzeros, if_pos hplus]

theorem international_zeros {raw : List Char} :
    international lib ('0' :: '0' :: raw) = '+' :: ('+' :: raw).filter lib.isDigit := by
  have hzeros : ['0', '0'] <+: '0' :: '0' :: raw := by simp
  have hplus : ['+'] <+: '+' :: raw := by simp
  simp only [international, if_pos hzeros, List.drop_succ_cons, List.drop_zero, if_pos hplus]

/-- Without a prefix, the country code is put before ten digits. -/
theorem international_local {raw : List Char} (hzeros : ¬ ['0', '0'] <+: raw) (hplus : ¬ ['+'] <+: raw) :
    international lib raw =
      if (raw.filter lib.isDigit).length = 10 then ['+', '9', '1'] ++ raw.filter lib.isDigit
      else if (raw.filter lib.isDigit).length = 11 ∧ ['0'] <+: raw.filter lib.isDigit then
        ['+', '9', '1'] ++ (raw.filter lib.isDigit).drop 1
      else '+' :: raw.filter lib.isDigit := by
  simp only [international, if_neg hzeros, if_neg hplus]

theorem normalizeE164_iff {s r : String} : Recovery.normalizeE164 lib (some s) = some r ↔
    (Recovery.strip s).toList ≠ [] ∧ r.toList = international lib (Recovery.strip s).toList ∧ isE164 r := by
  unfold Recovery.normalizeE164
  dsimp only
  split
  · rename_i hempty
    simp [hempty]
  · rename_i hne
    show (if Recovery.matchesE164 (String.ofList (international lib (Recovery.strip s).toList)) then
      some (String.ofList (international lib (Recovery.strip s).toList)) else none) = some r ↔ _
    have hsame : ∀ t, Recovery.matchesE164 t = isE164 t :=
      fun t => Bool.eq_iff_iff.2 (matchesE164_iff.trans isE164_iff.symm)
    rw [hsame]
    constructor
    · intro h
      split at h
      · rename_i hformat
        obtain rfl := Option.some.inj h
        exact ⟨hne, String.toList_ofList, hformat⟩
      · cases h
    · rintro ⟨-, hr, hformat⟩
      rw [← hr, String.ofList_toList, if_pos hformat]

/-! ## Agreement -/

/-- The storefront accepts what the control plane accepts, with the same result. -/
def Agrees (lib : Recovery.Library) (s : String) : Prop :=
  ∀ r, trimSpace s ≠ "" → normalizeHumanHandoffNumber s = .ok r →
    Recovery.normalizeE164 lib (some s) = some r

/-- What either accepts is in the international format, and both leave it as it is. -/
def Settles (lib : Recovery.Library) (s : String) : Prop :=
  ∀ r, (trimSpace s ≠ "" ∧ normalizeHumanHandoffNumber s = .ok r) ∨
      Recovery.normalizeE164 lib (some s) = some r →
    (∃ d digits, International r.toList d digits) ∧ normalizeHumanHandoffNumber r = .ok r ∧
      Recovery.normalizeE164 lib (some r) = some r

/-- A number of ten digits, with separators, that begins with the international prefix. -/
structure DoubleZero (s : String) : Prop where
  zeros : ['0', '0'] <+: (trimSpace s).toList
  plain : ∀ c ∈ (trimSpace s).toList, Plain c
  ten : ((trimSpace s).toList.filter Char.isDigit).length = 10

theorem Plain.toNat_lt {c : Char} (h : Plain c) : c.toNat < 128 := by
  rcases h with hdigit | rfl | rfl | rfl | rfl
  · have hhigh : c.toNat ≤ 57 := (Char.isDigit_iff_toNat.1 hdigit).2
    omega
  all_goals decide

theorem not_plain_plus : ¬ Plain '+' := by decide

section

variable (hdigit : ∀ c : Char, c.toNat < 128 → lib.isDigit c = c.isDigit)
include hdigit

theorem filter_isDigit {l : List Char} (h : ∀ c ∈ l, Plain c) :
    l.filter lib.isDigit = l.filter Char.isDigit :=
  List.filter_congr fun c hc => hdigit c (h c hc).toNat_lt

theorem filter_isDigit_plus {l : List Char} (h : ∀ c ∈ l, Plain c) :
    ('+' :: l).filter lib.isDigit = l.filter Char.isDigit := by
  rw [List.filter_cons_of_neg (by rw [hdigit '+' (by decide)]; decide), filter_isDigit hdigit h]

theorem settles (s : String) : Settles lib s := by
  intro r hr
  have hformat : isE164 r := by
    rcases hr with ⟨hs, hr⟩ | hr
    · obtain ⟨-, -, -, hformat⟩ := (normalizeHumanHandoffNumber_iff hs).1 hr
      exact hformat
    · exact (normalizeE164_iff.1 hr).2.2
  obtain ⟨d, digits, hint⟩ := isE164_iff.1 hformat
  have hplain : ∀ c ∈ d :: digits, Plain c := by
    intro c hc
    rcases List.mem_cons.1 hc with rfl | hc
    · exact .inl hint.first
    · exact .inl (hint.rest c hc)
  have hkeep : (d :: digits).filter Char.isDigit = d :: digits :=
    List.filter_eq_self.2 fun c hc => (List.mem_cons.1 hc).elim (fun h => h ▸ hint.first) (hint.rest c)
  have hblank : ∀ c ∈ r.toList, ¬ isSpace c := by
    rw [hint.eq]
    intro c hc hspace
    have hsep : c.isDigit ∨ c = '+' := by
      rcases List.mem_cons.1 hc with rfl | hc
      · exact .inr rfl
      · rw [← hkeep] at hc
        exact .inl (List.mem_filter.1 hc).2
    rcases hsep with hc | rfl
    · obtain ⟨hlow, hhigh⟩ := Char.isDigit_iff_toNat.1 hc
      have hlow : 48 ≤ c.toNat := hlow
      have hhigh : c.toNat ≤ 57 := hhigh
      simp only [isSpace, decide_eq_true_eq, List.mem_cons, List.not_mem_nil, or_false] at hspace
      omega
    · exact absurd hspace (by decide)
  have htrim : (trimSpace r).toList = r.toList := by
    rw [trimSpace_toList, trim_of_tight (tight_of_forall hblank)]
  have hstrip : (Recovery.strip r).toList = r.toList := by
    rw [strip_eq_trimSpace, htrim]
    rw [htrim, hint.eq]
    exact List.forall_mem_cons.2 ⟨.inr rfl, fun c hc => .inl (hplain c hc)⟩
  refine ⟨⟨d, digits, hint⟩, ?_, ?_⟩
  · have hne : trimSpace r ≠ "" := by
      rw [← String.toList_inj.ne, htrim, hint.eq]
      simp
    refine (normalizeHumanHandoffNumber_iff hne).2 ⟨'+' :: d :: digits, ?_, ?_, hformat⟩
    · rw [htrim, hint.eq, normalizeDigits_front, hkeep.symm]
      exact .inr ⟨_, by rw [hkeep], hplain, rfl⟩
    · rw [hint.eq]
      rfl
  · refine normalizeE164_iff.2 ⟨by rw [hstrip, hint.eq]; simp, ?_, hformat⟩
    rw [hstrip, hint.eq, international_plus, filter_isDigit_plus hdigit hplain, hkeep]

/-- Without the two zeros, the storefront follows the control plane. -/
theorem agrees_of_not_doubleZero {s : String} (h : ¬ DoubleZero s) : Agrees lib s := by
  intro r hs hr
  obtain ⟨kept, hkept, hr, hformat⟩ := (normalizeHumanHandoffNumber_iff hs).1 hr
  have hne : (trimSpace s).toList ≠ [] := fun hnil => hs (String.toList_inj.1 hnil)
  obtain ⟨d, digits, hint⟩ := isE164_iff.1 hformat
  rcases normalizeDigits_front.1 hkept with ⟨hplain, rfl⟩ | ⟨rest, hrest, hplain, rfl⟩
  case inl =>
    have hstrip := strip_eq_trimSpace fun c hc => .inl (hplain c hc)
    refine normalizeE164_iff.2 ⟨by rwa [hstrip], ?_, hformat⟩
    rw [hstrip]
    have hten : ['0', '0'] <+: (trimSpace s).toList →
        ((trimSpace s).toList.filter Char.isDigit).length ≠ 10 := fun hz hlength => h ⟨hz, hplain, hlength⟩
    generalize (trimSpace s).toList = t at *
    have hplus : ¬ ['+'] <+: t := fun hplus =>
      not_plain_plus (hplain '+' (hplus.subset List.mem_cons_self))
    have hhead : (t.filter Char.isDigit).head? ≠ some '+' := by
      intro hhead
      have := (List.mem_filter.1 (List.mem_of_mem_head? hhead)).2
      exact absurd this (by decide)
    rw [withCountryCode, if_neg hhead] at hr
    -- the first digit is no zero, unless the country code comes first
    have hzero : (t.filter Char.isDigit).length ≠ 10 → ¬ ['0'] <+: t.filter Char.isDigit := by
      rintro hlength ⟨tail, htail⟩
      rw [if_neg hlength, ← htail, List.singleton_append] at hr
      exact hint.nonzero (hint.congr hr).1
    by_cases hzeros : ['0', '0'] <+: t
    · obtain ⟨tail, rfl⟩ := hzeros
      exact absurd (List.prefix_append ['0'] _) (hzero (hten (List.prefix_append _ _)))
    · rw [international_local hzeros hplus, filter_isDigit hdigit hplain, hr]
      split
      · rfl
      · rename_i hlength
        rw [if_neg fun h => hzero hlength h.2]
  case inr =>
    have hstrip : (Recovery.strip s).toList = (trimSpace s).toList := by
      refine strip_eq_trimSpace ?_
      rw [hrest]
      exact List.forall_mem_cons.2 ⟨.inr rfl, fun c hc => .inl (hplain c hc)⟩
    refine normalizeE164_iff.2 ⟨by rwa [hstrip], ?_, hformat⟩
    rw [hstrip, hrest, international_plus, filter_isDigit_plus hdigit hplain, hr]
    rfl

/-- With the two zeros, the storefront takes the digits after them for the whole number. -/
theorem not_agrees_of_doubleZero {s : String} (h : DoubleZero s) : ¬ Agrees lib s := by
  obtain ⟨tail, htail⟩ := h.zeros
  have hplain := h.plain
  have hten := h.ten
  rw [← htail] at hplain hten
  have hdigits : (['0', '0'] ++ tail).filter Char.isDigit = '0' :: '0' :: tail.filter Char.isDigit := rfl
  rw [hdigits] at hten
  have hs : trimSpace s ≠ "" := fun hempty => by rw [hempty] at htail; cases htail
  let r := String.ofList ('+' :: '9' :: '1' :: '0' :: '0' :: tail.filter Char.isDigit)
  have hr : r.toList = '+' :: '9' :: '1' :: '0' :: '0' :: tail.filter Char.isDigit := String.toList_ofList
  have hint : International r.toList '9' ('1' :: '0' :: '0' :: tail.filter Char.isDigit) := by
    refine ⟨hr, by decide, by decide, fun c hc => ?_, ?_⟩
    · simp only [List.mem_cons, List.mem_filter] at hc
      rcases hc with rfl | rfl | rfl | ⟨-, hc⟩
      · decide
      · decide
      · decide
      · exact hc
    · simp only [List.length_cons] at hten ⊢
      omega
  have haccepted : normalizeHumanHandoffNumber s = .ok r := by
    refine (normalizeHumanHandoffNumber_iff hs).2
      ⟨'0' :: '0' :: tail.filter Char.isDigit, ?_, ?_, isE164_iff.2 ⟨_, _, hint⟩⟩
    · rw [← htail]
      exact normalizeDigits_front.2 (.inl ⟨hplain, rfl⟩)
    · rw [withCountryCode, if_neg (by simp), if_pos hten, hr]
  intro hagrees
  obtain ⟨-, hother, -⟩ := normalizeE164_iff.1 (hagrees r hs haccepted)
  have hstrip := strip_eq_trimSpace fun c hc => .inl (h.plain c hc)
  have htailPlain : ∀ c ∈ tail, Plain c := fun c hc => hplain c (List.mem_append_right _ hc)
  rw [hstrip, ← htail, List.cons_append, List.cons_append, List.nil_append, international_zeros,
    filter_isDigit_plus hdigit htailPlain, hr] at hother
  have hlength := congrArg List.length hother
  simp only [List.length_cons] at hlength
  omega

/-- For every text: the storefront's normaliser accepts what the control plane's accepts with the same result,
and what either accepts is an international number that both leave as it is, exactly when the text is not a
number of ten digits that begins with two zeros. -/
theorem agrees_iff (s : String) : (Agrees lib s ∧ Settles lib s) ↔ ¬ DoubleZero s :=
  ⟨fun h hzero => not_agrees_of_doubleZero hdigit hzero h.1,
    fun h => ⟨agrees_of_not_doubleZero hdigit h, settles hdigit s⟩⟩

end

end Storefront

/-- A number with separators, and the library that a test would use. -/
theorem agrees_iff_separators : Agrees Sample.recoveryLibrary "98765-43210" :=
  ((agrees_iff (fun _ _ => rfl) "98765-43210").2 fun h => absurd h.zeros (by decide)).1

/-- The international number 12345678, which the control plane takes for an Indian one. -/
theorem not_agrees_zeros : ¬ ∀ s r, trimSpace s ≠ "" → normalizeHumanHandoffNumber s = .ok r →
    Recovery.normalizeE164 Sample.recoveryLibrary (some s) = some r := by
  intro h
  have haccepted : normalizeHumanHandoffNumber "0012345678" = .ok "+910012345678" := by decide +kernel
  have hother := h "0012345678" _ (by decide +kernel) haccepted
  exact absurd hother (by decide +kernel)

end PhoneNumbers

end Stylme
