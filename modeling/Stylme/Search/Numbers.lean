-- SUMMARY: The numbers of a query: prices, ranges of age, height and weight, and a pincode.
import Stylme.Search.Words
import Stylme.Lib.Binary64
import Stylme.Lib.Numeral
import Stylme.Lib.Trimming

/-!
# Numbers

Each extractor searches the whole text for its own patterns. The patterns ignore case and do not
ask for the boundaries of words.
-/

namespace Stylme

open Conc Backend

namespace Search

/-! ## Pieces of patterns -/

/-- A letter of a pattern that ignores case, with the letters that `re` takes for it. -/
def sameLetter (p c : Char) : Bool :=
  c = p ∨ (p.isLower ∧ c = p.toUpper) ∨ (p = 'i' ∧ (c = 'İ' ∨ c = 'ı')) ∨ (p = 's' ∧ c = 'ſ') ∨
    (p = 'k' ∧ c = 'K')

/-- A text with case ignored. -/
def literal (text : String) : Regex Char := .litBy sameLetter text.toList

def digit : Regex Char := .one Char.isDigit

variable (lib : Library)

/-- A text with case ignored, in which a blank stands for `\s*`. -/
def spelled (text : String) : Regex Char :=
  .all (text.toList.map fun c => if c = ' ' then lib.blanks else .one (sameLetter c))

/-- `(?:a|b|c)` -/
def oneOf (texts : List String) : Regex Char := .any (texts.map (spelled lib))

/-- `PRICE_VALUE`, `([0-9][0-9,]*(?:\.[0-9]+)?\s*[kK]?)` -/
def priceValue : Regex Char :=
  .group (.all [digit, .many fun c => c.isDigit ∨ c = ',',
    .opt (.seq (.one (· = '.')) (.some1 Char.isDigit)), lib.blanks, .opt (.one (sameLetter 'k'))])

/-- `rs\.?` -/
def rupees : Regex Char := .seq (literal "rs") (.opt (.one (· = '.')))

/-- `(?:rs\.?|inr|₹)` -/
def currency : Regex Char := .any [rupees, literal "inr", literal "₹"]

/-- `(?:rs\.?|inr|₹)?\s*PRICE_VALUE` -/
def amount : Regex Char := .all [.opt currency, lib.blanks, priceValue lib]

/-! ## Prices -/

def maximumWords : List String :=
  ["under", "below", "upto", "up to", "less than", "lower than", "lesser than", "cheaper than",
    "not more than", "at most", "within", "max", "budget"]

def minimumWords : List String :=
  ["above", "over", "more than", "higher than", "costlier than", "at least", "min", "starting from"]

/-- `PRICE_MAX_PATTERNS` -/
def priceMaxPatterns : List (Regex Char) :=
  [.all [oneOf lib maximumWords, lib.blanks, amount lib],
    .all [amount lib, lib.blanks, oneOf lib ["se kam", "ke niche", "से कम", "के नीचे"]]]

/-- `PRICE_MIN_PATTERNS` -/
def priceMinPatterns : List (Regex Char) :=
  [.all [oneOf lib minimumWords, lib.blanks, amount lib],
    .all [amount lib, lib.blanks, oneOf lib ["se zyada", "se jada", "से ज़्यादा", "से ज्यादा"]]]

/-- `PRICE_RANGE_PATTERNS` -/
def priceRangePatterns : List (Regex Char) :=
  [.all [oneOf lib ["between", "from"], lib.blanks, amount lib, lib.blanks,
      oneOf lib ["and", "to", "se", "से", "-"], lib.blanks, amount lib],
    .all [amount lib, lib.blanks, oneOf lib ["-", "to", "se", "से"], lib.blanks, amount lib]]

/-- `PRICE_CURRENCY_PATTERNS` -/
def priceCurrencyPatterns : List (Regex Char) :=
  [.all [currency, lib.blanks, priceValue lib],
    .all [priceValue lib, lib.blanks, .any [rupees, literal "inr"], .boundary lib.wordChar]]

/-- `pattern.search(text)` -/
def found (r : Regex Char) (text : String) : Option (Regex.Way Char) :=
  (r.search none text.toList).map (·.2)

/-- `_first_match` -/
def firstMatch (patterns : List (Regex Char)) (text : String) : Option (Regex.Way Char) :=
  patterns.findSome? (found · text)

/-- `match.group(i + 1)` -/
def groupOf (way : Regex.Way Char) (i : ℕ) : List Char := way.groups.getD i []

/-- `float(text)`, where `none` stands for infinity. -/
def floatOf (text : List Char) : Except Raised (Option Binary64) :=
  match Numeral.read (trim lib.isSpace text) with
  | some x => .ok (Binary64.ofRat x)
  | none => .error ⟨"ValueError", "could not convert string to float"⟩

/-- `int(float(cleaned) * multiplier)` -/
def truncated (cleaned : List Char) (multiplier : ℚ) : Except Raised ℤ :=
  (floatOf lib cleaned).bind fun x =>
    match x.bind fun x => Binary64.ofRat (x.value * multiplier) with
    | some x => .ok (if 0 ≤ x.value then ⌊x.value⌋ else ⌈x.value⌉)
    | none => .error ⟨"OverflowError", "cannot convert float infinity to integer"⟩

/-- `_price_number` -/
def priceNumber (value : List Char) : Except Raised ℤ :=
  let cleaned := value.filter fun c => c ≠ ',' ∧ c ≠ ' '
  if cleaned.getLast?.any (sameLetter 'k') then truncated lib cleaned.dropLast 1000
  else truncated lib cleaned 1

/-- `_number` -/
def numberOf (way : Option (Regex.Way Char)) : Except Raised (Option ℤ) :=
  match way with
  | some way => (priceNumber lib (groupOf way 0)).map some
  | none => .ok none

/-- `minimum` and `maximum` of `compile_search_intent` -/
def prices (correctedQuery : String) : Except Raised (Option ℤ × Option ℤ) :=
  match firstMatch (priceRangePatterns lib) correctedQuery with
  | some way => do
    let first ← priceNumber lib (groupOf way 0)
    let second ← priceNumber lib (groupOf way 1)
    return (some (min first second), some (max first second))
  | none => do
    let maximum ← numberOf lib (firstMatch (priceMaxPatterns lib) correctedQuery)
    let minimum ← numberOf lib (firstMatch (priceMinPatterns lib) correctedQuery)
    if minimum = none ∧ maximum = none then
      let maximum ← numberOf lib (firstMatch (priceCurrencyPatterns lib) correctedQuery)
      return (none, maximum)
    else return (minimum, maximum)

/-! ## Measurements -/

/-- `([0-9]+(?:\.[0-9]+)?)` -/
def measure : Regex Char :=
  .group (.seq (.some1 Char.isDigit) (.opt (.seq (.one (· = '.')) (.some1 Char.isDigit))))

/-- `(?:names)\s*(?:is|=|:)?\s*` -/
def measureOf (names : List String) : Regex Char :=
  .all [.any (names.map literal), lib.blanks, .opt (.any [literal "is", literal "=", literal ":"]),
    lib.blanks]

/-- The pattern of `range_match` -/
def rangePattern (names : List String) : Regex Char :=
  .all [measureOf lib names, measure, lib.blanks, oneOf lib ["-", "to", "se", "से"], lib.blanks, measure]

/-- The pattern of `exact` -/
def exactPattern (names : List String) : Regex Char := .seq (measureOf lib names) measure

/-- `float` of a group of digits, which is none where it overflows. -/
def measured (text : List Char) : Option ℚ :=
  ((Numeral.read text).bind Binary64.ofRat).map (·.value)

/-- `value, value` if the value of the exact match is in the range -/
def exactRange (correctedQuery : String) (names : List String) (minimum maximum : ℚ) : Option (ℚ × ℚ) :=
  (found (exactPattern lib names) correctedQuery).bind fun way =>
    (measured (groupOf way 0)).bind fun value =>
      if minimum ≤ value ∧ value ≤ maximum then some (value, value) else none

/-- `_numeric_range` -/
def numericRange (correctedQuery : String) (names : List String) (minimum maximum : ℚ) : Option (ℚ × ℚ) :=
  ((found (rangePattern lib names) correctedQuery).bind fun way =>
    (measured (groupOf way 0)).bind fun low => (measured (groupOf way 1)).bind fun high =>
      if minimum ≤ low ∧ low ≤ high ∧ high ≤ maximum then some (low, high) else none).or
    (exactRange lib correctedQuery names minimum maximum)

def ageRange (correctedQuery : String) : Option (ℚ × ℚ) :=
  numericRange lib correctedQuery ["age", "umar", "उम्र"] 0 110

def heightRange (correctedQuery : String) : Option (ℚ × ℚ) :=
  numericRange lib correctedQuery ["height", "height cm", "lambai", "लंबाई", "ऊंचाई"] 40 260

def weightRange (correctedQuery : String) : Option (ℚ × ℚ) :=
  numericRange lib correctedQuery ["weight", "weight kg", "wazan", "वजन"] 2 400

/-! ## Pincodes -/

/-- `TRAILING_PINCODE_RE` -/
def trailingPincode : Regex Char :=
  .all ([.notAfter Char.isDigit,
    .group (.all (.one (fun c => c.isDigit ∧ c ≠ '0') :: List.replicate 5 digit)), lib.blanks, .stop])

def pincodeOf (text : String) : Option String :=
  (found (trailingPincode lib) text).map fun way => String.ofList (groupOf way 0)

end Search

end Stylme
