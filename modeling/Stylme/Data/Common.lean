-- SUMMARY: The helpers of the data pipeline: normalized texts, slugs, hashes, amounts, product ids and images.
import Stylme.Lib.Numeral
import Stylme.Lib.Trimming
import Stylme.Recovery.Source

/-!
# Helpers of the data pipeline

A cell of a table is a text, or missing where the line is short. Amounts are read with the decimal
arithmetic of the standard library, which keeps 28 digits and raises where an exponent
leaves its range. What the standard library knows of Unicode, hashes and addresses is
left open.
-/

namespace Stylme

open Conc
open Recovery (strip)

namespace Data

/-- The parts of an address that are used. -/
structure Url where
  scheme : String
  netloc : String
  path : String

/-- What the standard library of the language provides. -/
structure Library where
  /-- `unicodedata.normalize("NFKC", s)` -/
  nfkc : String → String
  /-- `s.casefold()` -/
  casefold : String → String
  /-- `s.lower()` -/
  lower : String → String
  /-- `s.upper()` -/
  upper : String → String
  upper_ascii : ∀ s : String, (∀ c ∈ s.toList, c.toNat < 128) →
    upper s = String.ofList (s.toList.map Char.toUpper)
  /-- `c.isdigit()` -/
  isDigit : Char → Bool
  /-- The value of a decimal digit; some digits have none. -/
  decimalValue : Char → Option ℕ
  /-- The number that an eight-byte BLAKE2b digest of a text stands for. -/
  blake2b : String → Fin (2 ^ 64)
  /-- `urlparse`, none if it raises -/
  urlparse : String → Option Url
  /-- The finite number that `float` reads from a text, none if it raises or reads another one. -/
  float : String → Option Binary64

/-- What it provides of ASCII texts, where an address is its path. -/
def plainLibrary : Library where
  nfkc := id
  casefold := fun s => String.ofList (s.toList.map Char.toLower)
  lower := fun s => String.ofList (s.toList.map Char.toLower)
  upper := fun s => String.ofList (s.toList.map Char.toUpper)
  upper_ascii := fun _ _ => rfl
  isDigit := Char.isDigit
  decimalValue := fun c => if c.isDigit then some (c.toNat - 48) else none
  blake2b := fun s => Fin.ofNat _ s.length
  urlparse := fun s => some ⟨"https", "", s⟩
  float := fun _ => none

/-- The exceptions that leave a function. -/
inductive Raised where
  | valueError (message : String)
  | runtimeError (message : String)
  /-- `decimal.Overflow` -/
  | overflow
  | indexError
  /-- The `ValueError` of `int`, for a text it does not read. -/
  | invalidInt
  deriving DecidableEq, Repr

/-! ## Decimals -/

/-- `Decimal(cleaned)`, of a text of digits, points and hyphens; none if it is no literal. -/
def decimal : List Char → Option ℚ
  | '-' :: digits => (Numeral.read digits).map (- ·)
  | digits => Numeral.read digits

/-- The nearest decimal with 28 digits. -/
def toPrecision (x : ℚ) : ℚ :=
  let unit : ℚ := 10 ^ (Int.log 10 |x| - 27)
  Binary64.roundEven (x / unit) * unit

/-- The greatest exponent of a decimal is 999999. -/
def overflows (x : ℚ) : Prop := 999999 < Int.log 10 |x|

instance (x : ℚ) : Decidable (overflows x) := inferInstanceAs (Decidable (_ < _))

/-- `x.quantize(Decimal("1"))`, none if the result has more than 28 digits. -/
def quantize (x : ℚ) : Option ℤ := if |x| < 10 ^ 28 then some (Binary64.roundEven x) else none

/-! ## Cells -/

/-- The characters that `[^0-9.\-]` leaves. -/
def isMoneyChar (c : Char) : Bool := c.isDigit ∨ c = '.' ∨ c = '-'

/-- `parse_money_paise` -/
def parseMoneyPaise (value : Option String) : Except Raised (Option ℤ) :=
  match value with
  | none => .ok none
  | some value =>
    let cleaned := (trim (· = '"') (strip value).toList).filter (· ≠ ',')
    let cleaned := cleaned.filter isMoneyChar
    if cleaned = [] ∨ cleaned = ['-'] ∨ cleaned = ['.'] ∨ cleaned = ['-', '.'] then .ok none
    else match decimal cleaned with
      | none => .ok none
      | some amount =>
        let product := toPrecision (amount * 100)
        if overflows product then .error .overflow
        else .ok (quantize product)

/-- `parse_float`, without a default -/
def parseFloat (lib : Library) (value : Option String) : Option Binary64 :=
  lib.float (strip (value.getD "None"))

/-! ## Texts -/

/-- What `[^a-z0-9]` does not match. -/
def isSlugChar (c : Char) : Bool := ('a' ≤ c ∧ c ≤ 'z') ∨ c.isDigit

/-- The maximal runs of characters that satisfy `p`, of which `run` is the one begun. -/
def runs (p : Char → Bool) : List Char → List Char → List (List Char)
  | run, [] => if run = [] then [] else [run]
  | run, c :: text =>
    if p c then runs p (run ++ [c]) text
    else if run = [] then runs p [] text
    else run :: runs p [] text

/-- `text.replace("&", " and ")` without the trade marks `[®™©]` -/
def expand (text : List Char) : List Char :=
  (text.flatMap fun c => if c = '&' then " and ".toList else [c]).filter fun c =>
    c ≠ '®' ∧ c ≠ '™' ∧ c ≠ '©'

variable (lib : Library)

/-- The words that `normalize_text` leaves: what is neither a letter nor a digit separates them. -/
def normalWords (value : Option String) : List String :=
  let text := String.ofList (expand (lib.nfkc (value.getD "")).toList)
  (runs isSlugChar [] (lib.casefold text).toList).map String.ofList

/-- `normalize_text` -/
def normalizeText (value : Option String) : String := " ".intercalate (normalWords lib value)

/-- `s.replace(a, b)`, of single characters -/
def substitute (a b : Char) (s : String) : String :=
  String.ofList (s.toList.map fun c => if c = a then b else c)

/-- `slugify` -/
def slugify (value fallback : String) : String :=
  let slug := substitute ' ' '-' (normalizeText lib (some value))
  if slug = "" then fallback else slug

/-- `int(s)`, of a text of digits; it reads decimal digits, up to 4300 of them. -/
def intOf (s : String) : Except Raised ℕ :=
  match s.toList.mapM lib.decimalValue with
  | none => .error .invalidInt
  | some digits =>
    if digits.length ≤ 4300 then .ok (digits.foldl (fun n d => 10 * n + d) 0) else .error .invalidInt

/-- `stable_hash` -/
def stableHash (value seed : String) : ℕ := lib.blake2b (seed ++ ":" ++ value)

/-- `needle in text` -/
def isIn (needle text : String) : Bool := needle.toList <:+: text.toList

/-! ## Addresses -/

/-- The digits of a product's id, at the start of a text, as `/([0-9]{4,})/buy(?:[/?#]|$)`, in either case. -/
def productIdAt : List Char → Option (List Char)
  | '/' :: text =>
    let digits := text.takeWhile Char.isDigit
    match text.dropWhile Char.isDigit with
    | '/' :: b :: u :: y :: rest =>
      if 4 ≤ digits.length ∧ (b = 'b' ∨ b = 'B') ∧ (u = 'u' ∨ u = 'U') ∧ (y = 'y' ∨ y = 'Y') ∧
          (rest = [] ∨ rest = ['\n'] ∨ rest.head?.any fun c => c = '/' ∨ c = '?' ∨ c = '#') then
        some digits
      else none
    | _ => none
  | _ => none

/-- `extract_product_id` -/
def extractProductId (url : Option String) : Option String :=
  ((url.getD "").toList.tails.findSome? productIdAt).map String.ofList

/-- `category_from_url` -/
def categoryFromUrl (url : Option String) : String :=
  match lib.urlparse (url.getD "") with
  | none => "uncategorized"
  | some parsed =>
    let parts := (parsed.path.toList.splitOn '/').filter (· ≠ [])
    slugify lib ((parts.head?.map String.ofList).getD "uncategorized") "uncategorized"

/-- `text.partition(needle)` without the needle, none if it does not occur -/
def cut (needle : List Char) : List Char → Option (List Char × List Char)
  | [] => if needle = [] then some ([], []) else none
  | c :: text =>
    if needle <+: c :: text then some ([], (c :: text).drop needle.length)
    else (cut needle text).map fun (before, after) => (c :: before, after)

/-- `canonicalize_myntra_image` -/
def canonicalizeMyntraImage (url : String) : Option String :=
  let value := (strip url).toList
  if value = [] then none
  else
    let value := match cut "http://".toList value with
      | some (before, after) => before ++ "https://".toList ++ after
      | none => value
    let value := match cut "assets.myntassets.com/".toList value, cut "/assets/".toList value with
      | some _, some (_, after) => "https://assets.myntassets.com/assets/".toList ++ after
      | _, _ => value
    let value := String.ofList value
    match lib.urlparse value with
    | none => none
    | some parsed => if parsed.scheme ≠ "https" ∨ parsed.netloc = "" then none else some value

/-- `canonical_images`, of a text that is not JSON; the blanks after a semicolon are stripped later. -/
def canonicalImages (value : Option String) : List String :=
  let candidates := ((value.getD "").toList.splitOn ';').map String.ofList
  (candidates.filterMap (canonicalizeMyntraImage lib)).foldl
    (fun output url => if url ∈ output then output else output ++ [url]) []

end Data

end Stylme
