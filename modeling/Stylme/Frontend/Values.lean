-- SUMMARY: What the storefront uses of JavaScript's strings, numbers and plain objects.
import Mathlib.Data.List.DropRight
import Stylme.Domain.Models
import Stylme.Lib.Numeral

/-!
# JavaScript values

`Number` and `String` on the texts of a URL, and plain objects, whose properties are listed
with the array indices first and which inherit the properties of `Object.prototype`.
-/

namespace Stylme

open Conc

namespace Frontend

/-! ## Strings -/

/-- A white space or a line terminator. -/
def isWhite (c : Char) : Bool :=
  c.toNat ∈ [0x9, 0xa, 0xb, 0xc, 0xd, 0x20, 0xa0, 0x1680, 0x2028, 0x2029, 0x202f, 0x205f, 0x3000,
    0xfeff] ∨ (0x2000 ≤ c.toNat ∧ c.toNat ≤ 0x200a)

def trimmed (l : List Char) : List Char := (l.dropWhile isWhite).rdropWhile isWhite

/-- `s.trim()` -/
def trim (s : String) : String := String.ofList (trimmed s.toList)

/-- The text neither begins nor ends with a blank. -/
def Tight (l : List Char) : Prop :=
  (∀ c ∈ l.head?, ¬ isWhite c) ∧ ∀ c ∈ l.getLast?, ¬ isWhite c

theorem tight_trimmed (l : List Char) : Tight (trimmed l) := by
  constructor
  · intro c hc
    have hprefix : trimmed l <+: l.dropWhile isWhite := List.rdropWhile_prefix _ _
    obtain ⟨tail, htail⟩ := hprefix
    have hhead : (l.dropWhile isWhite).head? = some c := by
      rw [← htail, List.head?_append, Option.mem_def.1 hc]
      rfl
    have hnot := List.head?_dropWhile_not isWhite l
    rw [hhead] at hnot
    simpa using hnot
  · intro c hc
    have hne : trimmed l ≠ [] := by
      intro hnil
      rw [hnil] at hc
      cases hc
    have hlast : (trimmed l).getLast hne = c := by
      rw [List.getLast?_eq_some_getLast hne] at hc
      exact Option.some.inj hc
    exact hlast ▸ List.rdropWhile_last_not isWhite _ hne

theorem trimmed_of_tight {l : List Char} (h : Tight l) : trimmed l = l := by
  cases l with
  | nil => rfl
  | cons c rest =>
    have hdrop : (c :: rest).dropWhile isWhite = c :: rest := by
      rw [List.dropWhile_cons, if_neg (h.1 c rfl)]
    rw [trimmed, hdrop, List.rdropWhile_eq_self_iff]
    exact fun hne => h.2 _ (List.getLast?_eq_some_getLast hne)

theorem tight_of_forall {l : List Char} (h : ∀ c ∈ l, ¬ isWhite c) : Tight l :=
  ⟨fun c hc => h c (List.mem_of_mem_head? hc), fun c hc => h c (List.mem_of_getLast? hc)⟩

/-! ## Numbers -/

inductive Number where
  | nan
  | infinite (negative : Bool)
  | finite (x : Binary64)

/-- What a numeric literal denotes, before rounding. -/
inductive Literal where
  | nan
  | infinity (negative : Bool)
  | exact (q : ℚ)

def Literal.neg : Literal → Literal
  | nan => nan
  | infinity negative => infinity (!negative)
  | exact q => exact (-q)

/-- The base that a letter after a leading zero stands for. -/
def baseOf (c : Char) : Option ℕ :=
  if c = 'b' ∨ c = 'B' then some 2
  else if c = 'o' ∨ c = 'O' then some 8
  else if c = 'x' ∨ c = 'X' then some 16
  else none

/-- The value of a digit in a base. -/
def digitIn (base : ℕ) (c : Char) : Option ℕ :=
  let value :=
    if c.isDigit then c.toNat - '0'.toNat
    else if 'a' ≤ c ∧ c ≤ 'f' then c.toNat - 'a'.toNat + 10
    else if 'A' ≤ c ∧ c ≤ 'F' then c.toNat - 'A'.toNat + 10
    else base
  if value < base then some value else none

/-- A nonempty string of digits in a base. -/
def integerIn (base : ℕ) (l : List Char) : Option ℕ :=
  if l = [] then none
  else l.foldlM (fun n c => (digitIn base c).map (base * n + ·)) 0

/-- A decimal literal without sign. -/
def unsignedLiteral (l : List Char) : Literal :=
  if l = "Infinity".toList then .infinity false
  else (Numeral.read l).elim .nan .exact

def decimalLiteral : List Char → Literal
  | '+' :: rest => unsignedLiteral rest
  | '-' :: rest => (unsignedLiteral rest).neg
  | l => unsignedLiteral l

/-- `StringNumericLiteral`, without blanks around it -/
def literal (l : List Char) : Literal :=
  match l with
  | [] => .exact 0
  | '0' :: c :: rest =>
    match baseOf c with
    | some base => (integerIn base rest).elim .nan fun n => .exact n
    | none => decimalLiteral l
  | _ => decimalLiteral l

/-- The number that a literal denotes. -/
def Literal.number : Literal → Number
  | nan => .nan
  | infinity negative => .infinite negative
  | exact q => (Binary64.ofRat q).elim (.infinite (q < 0)) .finite

/-- `Number(s)` -/
def toNumber (s : String) : Number := (literal (trimmed s.toList)).number

/-- `String(x)` -/
def numberToString (x : Binary64) : String :=
  String.ofList (if x.value < 0 then '-' :: Numeral.write (-x.value) else Numeral.write x.value)

theorem unsignedLiteral_of_read {l : List Char} {q : ℚ} (h : Numeral.read l = some q) :
    unsignedLiteral l = .exact q := by
  unfold unsignedLiteral
  rw [if_neg, h]
  · rfl
  · rintro rfl
    rcases Numeral.head_of_read h with hhead | hhead
    · exact absurd hhead (by decide)
    · exact absurd hhead (by decide)

theorem decimalLiteral_of_read {l : List Char} {q : ℚ} (h : Numeral.read l = some q) :
    decimalLiteral l = .exact q := by
  unfold decimalLiteral
  split
  · exact absurd (Numeral.head_of_read h) (by decide)
  · exact absurd (Numeral.head_of_read h) (by decide)
  · exact unsignedLiteral_of_read h

/-- A numeral that is written is no literal of another base. -/
theorem literal_of_read {l : List Char} {q : ℚ} (h : Numeral.read l = some q)
    (hwritten : ∀ c ∈ l, Numeral.Written c) : literal l = .exact q := by
  unfold literal
  split
  · cases h
  · rename_i c rest
    have hbase : baseOf c = none := by
      have hc := hwritten c (List.mem_cons_of_mem _ List.mem_cons_self)
      unfold baseOf
      split_ifs with hbin hoct hhex
      · rcases hbin with rfl | rfl <;> exact absurd hc (by decide)
      · rcases hoct with rfl | rfl <;> exact absurd hc (by decide)
      · rcases hhex with rfl | rfl <;> exact absurd hc (by decide)
      · rfl
    rw [hbase]
    exact decimalLiteral_of_read h
  · exact decimalLiteral_of_read h

theorem not_isWhite_of_written {c : Char} (h : Numeral.Written c) : ¬ isWhite c := by
  rcases h with hdigit | hmem
  · obtain ⟨hlow, hhigh⟩ := Char.isDigit_iff_toNat.1 hdigit
    have hlow : 48 ≤ c.toNat := hlow
    have hhigh : c.toNat ≤ 57 := hhigh
    generalize hn : c.toNat = n at hlow hhigh
    rw [isWhite, hn, decide_eq_true_eq]
    rintro (hmem | hrange)
    · simp only [List.mem_cons, List.not_mem_nil, or_false] at hmem
      omega
    · omega
  · simp only [List.mem_cons, List.not_mem_nil, or_false] at hmem
    rcases hmem with rfl | rfl | rfl | rfl <;> decide

theorem numberToString_of_nonneg {x : Binary64} (hx : 0 ≤ x.value) :
    numberToString x = String.ofList (Numeral.write x.value) := by
  rw [numberToString, if_neg (not_lt.2 hx)]

/-- A number is read back from its text. -/
theorem toNumber_numberToString (x : Binary64) (hx : 0 ≤ x.value) :
    toNumber (numberToString x) = .finite x := by
  obtain ⟨q, hread, hround⟩ := Numeral.read_write x hx
  have htight : Tight (Numeral.write x.value) :=
    tight_of_forall fun c hc => not_isWhite_of_written (Numeral.written_write c hc)
  rw [toNumber, numberToString_of_nonneg hx, String.toList_ofList, trimmed_of_tight htight,
    literal_of_read hread Numeral.written_write, Literal.number, hround]
  rfl

theorem numberToString_ne_empty (x : Binary64) (hx : 0 ≤ x.value) : numberToString x ≠ "" := by
  obtain ⟨q, hread, -⟩ := Numeral.read_write x hx
  intro hempty
  rw [numberToString_of_nonneg hx] at hempty
  have hnil : Numeral.write x.value = [] := by
    simpa using congrArg String.toList hempty
  rw [hnil] at hread
  cases hread

/-! ## Objects -/

/-- A plain object, its own properties in the order of `Object.entries`. -/
abbrev PlainObject (α : Type) := List (String × α)

/-- The properties that a plain object inherits, none of which can be iterated over. -/
def objectPrototype : List String :=
  ["constructor", "__defineGetter__", "__defineSetter__", "hasOwnProperty", "__lookupGetter__",
    "__lookupSetter__", "isPrototypeOf", "propertyIsEnumerable", "toString", "valueOf", "__proto__",
    "toLocaleString"]

/-- Where a key is listed: the array indices by their value, before all other keys. -/
def keyRank (key : String) : ℕ :=
  match Numeral.wholeNumber key.toList with
  | some n => if toString n = key then min n 4294967295 else 4294967295
  | none => 4294967295

section Objects

variable {α : Type} {key : String} {value : α} {object : PlainObject α}

/-- Add a property. -/
def addProperty (key : String) (value : α) : PlainObject α → PlainObject α
  | [] => [(key, value)]
  | (k, v) :: rest =>
    if keyRank key < keyRank k then (key, value) :: (k, v) :: rest
    else (k, v) :: addProperty key value rest

/-- `object[key] = value` -/
def setProperty (key : String) (value : α) (object : PlainObject α) : PlainObject α :=
  if (object.lookup key).isSome then
    object.map fun property => if property.1 = key then (key, value) else property
  else addProperty key value object

/-- The properties are listed in order. -/
def Listed (object : PlainObject α) : Prop :=
  object.Pairwise fun a b => keyRank a.1 ≤ keyRank b.1

theorem perm_addProperty : (addProperty key value object).Perm ((key, value) :: object) := by
  induction object with
  | nil => exact .refl _
  | cons property rest ih =>
    unfold addProperty
    split_ifs
    · exact .refl _
    · exact (ih.cons property).trans (.swap _ _ _)

theorem listed_addProperty (h : Listed object) : Listed (addProperty key value object) := by
  induction object with
  | nil => exact List.pairwise_singleton _ _
  | cons property rest ih =>
    obtain ⟨hfirst, hrest⟩ := List.pairwise_cons.1 h
    unfold addProperty
    split_ifs with hlt
    · refine List.pairwise_cons.2 ⟨fun other hother => ?_, h⟩
      rcases List.mem_cons.1 hother with rfl | hother
      · exact hlt.le
      · exact hlt.le.trans (hfirst other hother)
    · refine List.pairwise_cons.2 ⟨fun other hother => ?_, ih hrest⟩
      rcases List.mem_cons.1 (perm_addProperty.subset hother) with rfl | hother
      · exact not_lt.1 hlt
      · exact hfirst other hother

/-- A key that is not before any other is listed last. -/
theorem addProperty_last (h : ∀ property ∈ object, keyRank property.1 ≤ keyRank key) :
    addProperty key value object = object ++ [(key, value)] := by
  induction object with
  | nil => rfl
  | cons property rest ih =>
    unfold addProperty
    rw [if_neg (not_lt.2 (h property List.mem_cons_self)),
      ih fun other hother => h other (List.mem_cons_of_mem _ hother)]
    rfl

end Objects

end Frontend

end Stylme
