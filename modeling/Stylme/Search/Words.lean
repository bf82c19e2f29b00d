-- SUMMARY: The words of a query: normalisation, tokens, whole phrases, negation, and the words with a fixed meaning.
import Stylme.Lib.Regex
import Stylme.Reconciler.Traversal

/-!
# Words

`search_intent_service.py` folds a query to words between single blanks, cuts it into tokens and
looks for phrases in it by regular expressions.
-/

namespace Stylme

open Conc

namespace Search

/-- What the standard library knows of Unicode, and the functions of other services. -/
structure Library where
  /-- `unicodedata.normalize("NFKC", value).casefold()` -/
  fold : String → String
  /-- A blank of `str.split`, which is what `\s` matches. -/
  isSpace : Char → Bool
  /-- `\w` matches the character. -/
  wordChar : Char → Bool
  /-- `str.isdigit` of a character -/
  isDigit : Char → Bool
  redactQuery : String → String
  /-- The first 20 hexadecimal digits of the text's SHA-256. -/
  digest : String → String

/-! ## Tokens -/

/-- The tokens of a text, of which `token` is the one begun. -/
def scan (begins inner : Char → Bool) : List Char → List Char → List (List Char)
  | token, [] => if token = [] then [] else [token]
  | token, c :: text =>
    if token = [] then scan begins inner (if begins c then [c] else []) text
    else if inner c then scan begins inner (token ++ [c]) text
    else token :: scan begins inner (if begins c then [c] else []) text

namespace Library

variable (lib : Library)

/-- `str.split` of a text on blanks -/
def split (text : String) : List String :=
  ((text.toList.splitOnP lib.isSpace).filter (· ≠ [])).map String.ofList

/-- `str.replace` of `_` and of `-` by a blank -/
def unhyphen (text : String) : String :=
  String.ofList (text.toList.map fun c => if c = '_' ∨ c = '-' then ' ' else c)

def normalizeQuery (value : String) : String :=
  " ".intercalate (lib.split (unhyphen (lib.fold value)))

/-- The text functions of the reconciler, which has its own copy of `normalize_query`. -/
def texts : Reconciler.Texts where
  normalizeQuery := lib.normalizeQuery
  redactQuery := lib.redactQuery
  wordChar := lib.wordChar
  split := lib.split
  digest := lib.digest

/-- `[^\W_]` -/
def beginsToken (c : Char) : Bool := lib.wordChar c ∧ c ≠ '_'

/-- `[\w\u0300-\u036f\u0900-\u097f]` -/
def inToken (c : Char) : Bool :=
  lib.wordChar c ∨ (0x300 ≤ c.toNat ∧ c.toNat ≤ 0x36f) ∨ (0x900 ≤ c.toNat ∧ c.toNat ≤ 0x97f)

/-- `TOKEN_RE.findall(text)` -/
def tokensOf (text : String) : List String :=
  (scan lib.beginsToken lib.inToken [] text.toList).map String.ofList

def tokenize (value : String) : List String := lib.tokensOf (lib.normalizeQuery value)

/-! ## Phrases -/

/-- `_contains_phrase` -/
def containsPhrase (query phrase : String) : Bool :=
  occursWord lib.wordChar phrase.toList none query.toList

def blanks : Regex Char := .many lib.isSpace

def blanks1 : Regex Char := .some1 lib.isSpace

end Library

/-- A text as `re.escape` writes it. -/
def escaped (text : String) : Regex Char := .litBy (fun a b => a = b) text.toList

def negators : List String := ["not", "no", "nahi", "mat", "बिना"]

/-- The pattern of `_negated`. -/
def Library.negation (lib : Library) (phrase : String) : Regex Char :=
  .all [.any (negators.map escaped), lib.blanks1, .opt (.seq (.some1 lib.wordChar) lib.blanks1),
    escaped phrase, .notBefore lib.wordChar]

/-- `_negated` -/
def Library.negated (lib : Library) (query phrase : String) : Bool :=
  ((lib.negation phrase).search none query.toList).isSome

/-! ## Words with a fixed meaning -/

def stopWords : List String :=
  ["a", "an", "and", "aur", "day", "days", "for", "i", "in", "ka", "ke", "ki", "ko", "look",
    "light", "looking", "me", "mera", "meri", "of", "outfit", "please", "show", "some",
    "something", "thing", "things", "the", "to", "want", "wear", "with", "wala", "wali", "वाला", "वाली",
    "liye", "के", "की", "का", "और", "मुझे", "दिखाओ", "लिए", "apparel", "best",
    "cloth", "clothes", "clothing", "fashion", "mood", "personality", "style", "styled",
    "vibe", "vibes", "while", "color", "colour", "rang", "रंग"]

def controlWords : List String :=
  ["under", "below", "upto", "up", "less", "than", "max", "budget", "above", "over",
    "more", "lower", "lesser", "cheaper", "higher", "costlier", "within", "at", "most",
    "least", "not", "min", "rs", "inr", "price", "age", "umar", "height", "lambai", "weight",
    "wazan", "cm", "kg", "se", "kam", "zyada", "jada", "niche", "to", "₹"]

def spellingAliases : List (String × String) :=
  [("birthdy", "birthday"), ("brthday", "birthday"), ("burthday", "birthday"),
    ("cloths", "clothes"), ("clth", "cloth"), ("clths", "clothes"), ("happi", "happy"),
    ("styld", "styled"), ("styl", "style"), ("wer", "wear"), ("waer", "wear"), ("wera", "wear")]

/-- `PHRASE_ALIASES`: a phrase, and the field and the value that it names. -/
def phraseAliases : List (String × String × String) :=
  [("laal", "color_family", "red"), ("lal", "color_family", "red"), ("लाल", "color_family", "red"),
    ("kala", "color_family", "black"), ("kaala", "color_family", "black"), ("काला", "color_family", "black"),
    ("safed", "color_family", "white"), ("सफेद", "color_family", "white"),
    ("neela", "color_family", "blue"), ("nila", "color_family", "blue"), ("नीला", "color_family", "blue"),
    ("hara", "color_family", "green"), ("हरा", "color_family", "green"),
    ("peela", "color_family", "yellow"), ("pila", "color_family", "yellow"), ("पीला", "color_family", "yellow"),
    ("gulabi", "color_family", "pink"), ("गुलाबी", "color_family", "pink"),
    ("baingani", "color_family", "violet"), ("बैंगनी", "color_family", "violet"),
    ("shaadi", "occasion", "wedding"), ("shadi", "occasion", "wedding"), ("शादी", "occasion", "wedding"),
    ("wedding guest", "occasion", "wedding-guest"), ("mehmaan", "occasion", "wedding-guest"),
    ("tyohar", "theme", "festive"), ("festival wear", "theme", "festive"), ("त्योहार", "theme", "festive"),
    ("daftar", "occasion", "office"), ("work wear", "occasion", "office"), ("ऑफिस", "occasion", "office"),
    ("pooja", "occasion", "puja"), ("पूजा", "occasion", "puja"),
    ("roz", "theme", "casual"), ("daily wear", "theme", "casual"), ("रोज", "theme", "casual"),
    ("ladki", "gender", "women"), ("mahila", "gender", "women"), ("महिला", "gender", "women"),
    ("लड़की", "gender", "women"), ("ladka", "gender", "men"), ("purush", "gender", "men"),
    ("पुरुष", "gender", "men"), ("लड़का", "gender", "men"),
    ("bacche", "category", "kids"), ("bachche", "category", "kids"), ("बच्चे", "category", "kids"),
    ("kurta set", "product_type", "kurta-sets"), ("kurta sets", "product_type", "kurta-sets"),
    ("kurta", "product_type", "kurtas"), ("kurti", "product_type", "kurtis"), ("कुर्ता", "product_type", "kurtas"),
    ("saree", "product_type", "sarees"), ("sari", "product_type", "sarees"), ("साड़ी", "product_type", "sarees"),
    ("t shirt", "product_type", "tshirts"), ("tee", "product_type", "tshirts"),
    ("shirt", "product_type", "shirts"), ("jean", "product_type", "jeans"), ("denims", "product_type", "jeans"),
    ("dress", "product_type", "dresses"), ("sneaker", "product_type", "casual-shoes"),
    ("sneakers", "product_type", "casual-shoes"), ("running shoes", "product_type", "sports-shoes"),
    ("sports shoes", "product_type", "sports-shoes"), ("hoodie", "product_type", "sweatshirts"),
    ("gen alpha", "generation", "gen-alpha"), ("alpha kids", "generation", "gen-alpha"),
    ("gen z", "generation", "gen-z"), ("genz", "generation", "gen-z"),
    ("millennial", "generation", "millennial"), ("classic", "style", "classic"),
    ("trendy", "trend_signal", "trending"), ("trend", "trend_signal", "trending"),
    ("viral", "trend_signal", "viral"), ("ethnic", "style", "ethnic"),
    ("baggy", "fit", "oversized"), ("loose fit", "fit", "loose")]

def oneDayTerms : List String :=
  ["one day", "1 day", "same day", "kal tak", "tomorrow", "swoopstyl", "एक दिन", "कल तक"]

def sortPhrases : List (String × String) :=
  [("cheapest", "price-low"), ("lowest price", "price-low"), ("sasta", "price-low"), ("सस्ता", "price-low"),
    ("price high", "price-high"), ("costliest", "price-high"),
    ("newest", "newest"), ("latest", "newest"), ("new arrival", "newest"), ("naya", "newest"), ("नया", "newest"),
    ("best rated", "rating"), ("top rated", "rating"), ("highest rating", "rating")]

end Search

end Stylme
