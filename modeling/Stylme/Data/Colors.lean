-- SUMMARY: The colour catalogue of the data pipeline, and the colours that it reads in a text.
import Stylme.Data.Common
import Stylme.Domain.Dictionary
import Stylme.Lib.WholeWord
import Mathlib.Data.Prod.Lex
import Mathlib.Data.String.Basic

/-!
# Colours

A colour of the catalogue has a key, a name and aliases, and each of them, normalized, is a term for
it. A text is searched for the longest terms first. The first match of a term that
overlaps no occupied span occupies its own span, unless the term's colour was found before.
-/

namespace Stylme

open Conc
open Recovery (strip)

namespace Data

/-- A colour of the configuration, without aliases if it has none. -/
structure ColorRecord where
  key : String
  name : String
  hex : Option String
  primaryFamilyKey : String
  familyKeys : List String
  aliases : List String
  deriving DecidableEq

/-- `[0-9a-fA-F]` -/
def isHexDigit (c : Char) : Bool := c.isDigit ∨ ('a' ≤ c ∧ c ≤ 'f') ∨ ('A' ≤ c ∧ c ≤ 'F')

/-- `normalize_hex` -/
def normalizeHex (value : Option String) : Option String :=
  let digits := match (strip (value.getD "")).toList with
    | '#' :: digits => digits
    | digits => digits
  if digits.length = 6 ∧ digits.all isHexDigit then some (String.ofList ('#' :: digits.map Char.toUpper))
  else none

structure ColorMatch where
  key : String
  name : String
  hex : Option String
  primaryFamilyKey : String
  familyKeys : List String
  aliases : List String
  source : String
  confidence : ℚ
  deriving DecidableEq

/-! ## The catalogue -/

/-- `ColorCatalog`, without its version and its families -/
structure ColorCatalog where
  records : List (String × ColorRecord)
  aliasToKey : List (String × String)
  hexToKey : List (String × String)
  searchTerms : List String

variable (lib : Library)

/-- The terms for a colour, of which those that are blank are left out. -/
def ColorRecord.terms (record : ColorRecord) : List String :=
  ((record.key :: record.name :: record.aliases).map fun term => normalizeText lib (some term)).filter (· ≠ "")

/-- `records` -/
def recordsOf (colors : List ColorRecord) : List (String × ColorRecord) :=
  colors.foldl (fun records item => setKey item.key item records) []

/-- `alias_to_key` -/
def aliasesOf (records : List (String × ColorRecord)) : List (String × String) :=
  records.foldl (fun aliases (_, record) =>
    (record.terms lib).foldl (fun aliases term => setKey term record.key aliases) aliases) []

/-- `hex_to_key` -/
def hexesOf (records : List (String × ColorRecord)) : List (String × String) :=
  records.foldl (fun hexes (_, record) => match normalizeHex record.hex with
    | none => hexes
    | some hex => setKey hex record.key hexes) []

/-- The key of the search terms' sort. -/
def searchRank (term : String) : ℤ ×ₗ String := toLex (-term.length, term)

/-- `ColorCatalog.__init__`, of the configured colours -/
def catalogOf (colors : List ColorRecord) : ColorCatalog where
  records := recordsOf colors
  aliasToKey := aliasesOf lib (recordsOf colors)
  hexToKey := hexesOf (recordsOf colors)
  searchTerms := ((aliasesOf lib (recordsOf colors)).map (·.1)).insertionSort fun a b =>
    searchRank a ≤ searchRank b

namespace ColorCatalog

variable (catalog : ColorCatalog)

/-- `get`, none where it raises -/
def get (key source : String) (confidence : ℚ) : Option ColorMatch :=
  (catalog.records.lookup key).map fun record => {
    key := record.key
    name := record.name
    hex := normalizeHex record.hex
    primaryFamilyKey := record.primaryFamilyKey
    familyKeys := record.familyKeys
    aliases := record.aliases
    source := source
    confidence := confidence }

end ColorCatalog

/-! ## Reading a text -/

structure Span where
  start : ℕ
  stop : ℕ
  deriving DecidableEq

def Span.overlaps (a b : Span) : Bool := ¬ (a.stop ≤ b.start ∨ b.stop ≤ a.start)

/-- The spans of `pattern.finditer(text)` from a position on, where the character `before` it is given and
the next `skip` ones belong to a match. The pattern matches the term as whole words. -/
def spansFrom (term : List Char) : ℕ → Option Char → ℕ → List Char → List Span
  | _, _, _, [] => []
  | skip + 1, _, position, c :: text => spansFrom term skip (some c) (position + 1) text
  | 0, before, position, c :: text =>
    if beginsWord isSlugChar term before (c :: text) then
      ⟨position, position + term.length⟩ :: spansFrom term (term.length - 1) (some c) (position + 1) text
    else spansFrom term 0 (some c) (position + 1) text

/-- `pattern.finditer(text)` -/
def spansOf (term : String) (text : List Char) : List Span := spansFrom term.toList 0 none 0 text

/-- What the loop has found, and the spans that are occupied. -/
structure Reading where
  found : List String
  occupied : List Span

namespace ColorCatalog

variable (catalog : ColorCatalog)

/-- One round of the loop. -/
def readTerm (text : List Char) (s : Reading) (term : String) : Reading :=
  match (spansOf term text).find? fun span => ¬ s.occupied.any span.overlaps,
      catalog.aliasToKey.lookup term with
  | some span, some key => if key ∈ s.found then s else ⟨s.found ++ [key], s.occupied ++ [span]⟩
  | _, _ => s

/-- The loop, which ends where enough colours are found. -/
def readTerms (text : List Char) (limit : ℤ) : Reading → List String → Reading
  | s, [] => s
  | s, term :: terms =>
    if limit ≤ (catalog.readTerm text s term).found.length then catalog.readTerm text s term
    else readTerms text limit (catalog.readTerm text s term) terms

/-- The text that is searched. -/
def searchText (values : List (Option String)) : List Char :=
  (" " ++ " ".intercalate (values.map (normalizeText lib)) ++ " ").toList

/-- `extract_from_text`, none where it raises -/
def extractFromText (values : List (Option String)) (limit : ℤ) : Option (List ColorMatch) :=
  (catalog.readTerms (searchText lib values) limit ⟨[], []⟩ catalog.searchTerms).found.mapM fun key =>
    catalog.get key "source_text" (88 / 100)

end ColorCatalog

end Data

end Stylme
