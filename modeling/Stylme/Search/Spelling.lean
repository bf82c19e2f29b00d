-- SUMMARY: How alike two words are, and the word of a vocabulary that a token is taken to misspell.
import Stylme.Search.Words
import Stylme.Lib.Similarity

/-!
# Spelling

`fuzzy_probability` blends the edit similarity of two words with the cosine of their bigrams.
-/

namespace Stylme

open Conc

namespace Search

variable (lib : Library)

/-- The bigrams of `_character_vector`, each as often as it occurs. -/
def bigrams (value : String) : List (Char × Char) :=
  let padded := '^' :: (lib.normalizeQuery value).toList ++ ['$']
  padded.zip padded.tail

/-- `SequenceMatcher(None, left, right).ratio()` -/
def sequenceRatio (left right : String) : ℚ := Similarity.ratio left.toList right.toList

/-- `0.62 * edit_score + 0.33 * cosine + 0.05 * prefix`, rounded and at most one. -/
def blend (edit : ℚ) (dot left right : ℕ) (samePrefix : Bool) : ℚ :=
  let sum : ℚ := 62 / 100 * edit + if samePrefix then 5 / 100 else 0
  let square : ℚ := if left = 0 ∨ right = 0 then 0 else (33 / 100 * dot) ^ 2 / (left * right : ℕ)
  min 1 ((Similarity.roundRoot (10000 * sum) (10000 ^ 2 * square) : ℚ) / 10000)

def fuzzyProbability (left right : String) : ℚ :=
  let left := lib.normalizeQuery left
  let right := lib.normalizeQuery right
  if left = "" ∨ right = "" then 0
  else if left = right then 1
  else
    let leftVector := bigrams lib left
    let rightVector := bigrams lib right
    blend (sequenceRatio left right) (Similarity.occurrences leftVector rightVector)
      (Similarity.occurrences leftVector leftVector) (Similarity.occurrences rightVector rightVector)
      (left.toList.head? = right.toList.head?)

/-- The phrase is not compared with the token. -/
def Incomparable (token phrase : String) : Prop :=
  ' ' ∈ phrase.toList ∨ 3 < ((phrase.length : ℤ) - token.length).natAbs ∨
    (phrase.toList.head? ≠ token.toList.head? ∧ sequenceRatio token phrase < 92 / 100)

instance (token phrase : String) : Decidable (Incomparable token phrase) :=
  inferInstanceAs (Decidable (_ ∨ _))

/-- One turn of the loop of `_best_fuzzy_match`. -/
def betterMatch (token : String) (best : Option String × ℚ) (phrase : String) : Option String × ℚ :=
  if Incomparable token phrase then best
  else if best.2 < fuzzyProbability lib token phrase then
    (some phrase, fuzzyProbability lib token phrase)
  else best

/-- `_best_fuzzy_match` -/
def bestFuzzyMatch (token : String) (vocabulary : List String) : Option String × ℚ :=
  vocabulary.foldl (betterMatch lib token) (none, 0)

/-- A match that replaces the token. -/
def acceptedMatch (token : String) (vocabulary : List String) : Option (String × ℚ) :=
  match bestFuzzyMatch lib token vocabulary with
  | (some phrase, probability) =>
    if phrase ≠ "" ∧ 79 / 100 ≤ probability then some (phrase, probability) else none
  | (none, _) => none

end Search

end Stylme
