-- SUMMARY: The registry of brands and sellers: normalized names, fuzzy candidates, and the keys of new records.
import Stylme.Data.Training
import Stylme.Lib.Extrema
import Stylme.Lib.Regex

/-!
# Entities

A name is looked up by its normalized form. Where the form is new, it is compared with the records of
the same initial and of about the same length; the nearest of them takes the name as an alias if it is
near enough, and otherwise the name gets a record of its own. The registry finds records by
their keys, which raises where there is none.
-/

namespace Stylme

open Conc
open Recovery (isSpace)

namespace Data

/-- What the standard library provides to normalize names. -/
structure EntityLibrary extends Library where
  /-- `s.title()` -/
  title : String → String
  /-- `\w` matches the character. -/
  isWord : Char → Bool
  /-- The letter of a pattern matches the character, whatever its case. -/
  sameLetter : Char → Char → Bool

variable (lib : EntityLibrary)

/-! ## Names -/

/-- A word of a pattern that ignores case. -/
def ignoreCase (word : String) : Regex Char := .litBy lib.sameLetter word.toList

/-- `\.?` -/
def optionalPoint : Regex Char := .opt (.one (· = '.'))

/-- `LEGAL_SUFFIXES` -/
def legalSuffixes : Regex Char :=
  let word := ignoreCase lib
  .all [.boundary lib.isWord,
    .any [.all [word "pvt", optionalPoint, .many isSpace, word "ltd", optionalPoint],
      .all [word "private", .some1 isSpace, word "limited"],
      .all [word "ltd", optionalPoint], word "limited", word "llp", .all [word "inc", optionalPoint],
      word "incorporated", .all [word "corp", optionalPoint], word "corporation", word "company",
      .all [word "co", optionalPoint]],
    .boundary lib.isWord]

/-- `pattern.sub(by, text)`, where the next `skip` characters belong to a match. No match is empty. -/
def replaceAll (pattern : Regex Char) (replacement : List Char) : ℕ → Option Char → List Char → List Char
  | _, _, [] => []
  | skip + 1, _, c :: text => replaceAll pattern replacement skip (some c) text
  | 0, before, c :: text =>
    match (pattern.ways before (c :: text)).head? with
    | some way => replacement ++ replaceAll pattern replacement (way.taken.length - 1) (some c) text
    | none => c :: replaceAll pattern replacement 0 (some c) text

/-- `normalize_entity_name` -/
def normalizeEntityName (removeLegalSuffixes : Bool) (value : String) : String :=
  let text := lib.nfkc value
  let text := if removeLegalSuffixes then
    String.ofList (replaceAll (legalSuffixes lib) [' '] 0 none text.toList) else text
  normalizeText lib.toLibrary (some text)

/-! ## The registry -/

/-- The bucket of a normalized name. -/
structure Bucket where
  initial : String
  third : ℤ
  deriving DecidableEq

/-- `_bucket` -/
def bucketOf (normalized : String) : Bucket :=
  ⟨String.ofList (normalized.toList.take 1), (normalized.length / 3 : ℕ)⟩

structure EntityRecord where
  key : String
  name : String
  normalizedName : String
  slug : String
  aliases : List String
  sources : List String
  dedupeMethods : List String
  metadata : Document

/-- A name that is near a record, for somebody to decide on. -/
structure Review where
  entityType : String
  incomingName : String
  incomingNormalized : String
  candidateKey : String
  candidateName : String
  similarity : ℚ
  tokenSimilarity : ℚ
  decision : String

/-- `EntityRegistry` -/
structure Registry where
  kind : String
  removeLegalSuffixes : Bool
  records : List (String × EntityRecord)
  normalizedToKey : List (String × String)
  buckets : List (Bucket × List String)
  reviewCandidates : List Review

/-- `EntityRegistry.__init__` -/
def Registry.new (kind : String) (removeLegalSuffixes : Bool) : Registry :=
  ⟨kind, removeLegalSuffixes, [], [], [], []⟩

/-- An element added to a set. -/
def addTo (items : List String) (item : String) : List String :=
  if item ∈ items then items else items ++ [item]

namespace EntityRecord

variable (record : EntityRecord) (display source : String)

/-- The record of a form that is registered again. -/
def mention : EntityRecord :=
  { record with
    aliases := if display ≠ record.name ∧ display ∉ record.aliases then record.aliases ++ [display]
      else record.aliases
    sources := addTo record.sources source }

/-- The record that takes a name as an alias. -/
def absorb : EntityRecord :=
  { record with
    aliases := addTo record.aliases display
    sources := addTo record.sources source
    dedupeMethods := addTo record.dedupeMethods "high_confidence_fuzzy" }

end EntityRecord

namespace Registry

variable (s : Registry) (similarity : String → String → ℚ)

/-- The name that is shown, with single blanks. -/
def display (name : Option String) : String :=
  let display := " ".intercalate ((runs (fun c => ¬ isSpace c) [] (name.getD "").toList).map String.ofList)
  if display = "" then "Unknown " ++ lib.title s.kind else display

/-- `_normalize` -/
def normalize (display : String) : String := normalizeEntityName lib s.removeLegalSuffixes display

/-- The keys in the bucket of a normalized name and in the ones next to it. -/
def neighbours (normalized : String) : List String :=
  let bucket := bucketOf normalized
  [bucket.third - 1, bucket.third, bucket.third + 1].flatMap fun third =>
    (s.buckets.lookup ⟨bucket.initial, third⟩).getD []

/-- The lengths do not differ by more than `max(3, int(len(normalized) * 0.15))`. -/
def similarLength (normalized candidate : String) : Bool :=
  |(candidate.length : ℤ) - normalized.length| ≤
    max 3 ⌊Binary64.round (normalized.length * Binary64.round (15 / 100))⌋

/-- `candidates`: the similarities and the keys. -/
def candidates (normalized : String) : Option (List (ℚ × String)) :=
  ((s.neighbours normalized).mapM fun key => (s.records.lookup key).map fun record =>
    (record.normalizedName, key)).map fun found =>
      (found.filter fun x => similarLength normalized x.1).map fun x => (similarity normalized x.1, x.2)

/-- The tuple that is compared. -/
def candidateRank (x : ℚ × String) : ℚ ×ₗ String := toLex x

/-- `token_score` -/
def tokenScore (normalized candidate : String) : ℚ :=
  let left := (splitWords normalized).dedup
  let right := (splitWords candidate).dedup
  (left.filter (· ∈ right)).length / (max 1 (left ++ right).dedup.length : ℕ)

/-- The name is taken as an alias of the candidate. -/
def merges (score : ℚ) (normalized candidate : String) : Bool :=
  975 / 1000 ≤ score ∨ (96 / 100 ≤ score ∧ 8 / 10 ≤ tokenScore normalized candidate)

/-- The key of a name, if no record has it. -/
def baseKey (display : String) : String := s.kind ++ ":" ++ slugify lib.toLibrary display s.kind

/-- `f"{n:08x}"` -/
def hex8 (n : ℕ) : String := String.ofList ((Nat.toDigits 16 n).leftpad 8 '0')

/-- The key of a name whose base key is taken. -/
def suffixedKey (display normalized : String) : String :=
  s.baseKey lib display ++ "-" ++ hex8 (stableHash lib.toLibrary normalized "stylme-v1")

def newKey (display normalized : String) : String :=
  if s.baseKey lib display ∈ s.records.map (·.1) then s.suffixedKey lib display normalized
  else s.baseKey lib display

/-- A record for a new name. -/
def add (display normalized source : String) (metadata : Option Document) : String × Registry :=
  let key := s.newKey lib display normalized
  let record : EntityRecord := {
    key := key
    name := display
    normalizedName := normalized
    slug := String.ofList ((key.toList.dropWhile (· ≠ ':')).drop 1)
    aliases := []
    sources := [source]
    dedupeMethods := ["normalized_exact"]
    metadata := metadata.getD [] }
  (key, { s with
    records := setKey key record s.records
    normalizedToKey := setKey normalized key s.normalizedToKey
    buckets := amend (bucketOf normalized) (fun keys => addTo (keys.getD []) key) s.buckets })

/-- `review_candidates.append` -/
def review (display normalized candidateKey : String) (candidate : EntityRecord) (score : ℚ) : Registry :=
  { s with reviewCandidates := s.reviewCandidates ++ [{
      entityType := s.kind
      incomingName := display
      incomingNormalized := normalized
      candidateKey := candidateKey
      candidateName := candidate.name
      similarity := toPlaces 4 score
      tokenSimilarity := toPlaces 4 (tokenScore normalized candidate.normalizedName)
      decision := "needs_review" }] }

/-- What `register` does with the name that is shown and its normalized form. -/
def registerForm (display normalized source : String) (metadata : Option Document) :
    Option (String × Registry) :=
  match s.normalizedToKey.lookup normalized with
  | some key => (s.records.lookup key).map fun record =>
    (key, { s with records := setKey key (record.mention display source) s.records })
  | none => (s.candidates similarity normalized).bind fun candidates =>
    match firstMax candidateRank candidates with
    | none => some (s.add lib display normalized source metadata)
    | some (score, candidateKey) => (s.records.lookup candidateKey).map fun candidate =>
      if merges score normalized candidate.normalizedName then
        (candidateKey, { s with records := setKey candidateKey (candidate.absorb display source) s.records })
      else if 88 / 100 ≤ score then
        (s.review display normalized candidateKey candidate score).add lib display normalized source metadata
      else s.add lib display normalized source metadata

/-- `register`, none where it raises -/
def register (name : Option String) (source : String) (metadata : Option Document) :
    Option (String × Registry) :=
  let display := s.display lib name
  s.registerForm lib similarity display (s.normalize lib display) source metadata

end Registry

end Data

end Stylme
