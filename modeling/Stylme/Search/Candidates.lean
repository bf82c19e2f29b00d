-- SUMMARY: The hints of a query on the values of the taxonomy, and the candidates they add up to.
import Stylme.Catalogue.Metadata
import Stylme.Search.Spelling
import Stylme.Reconciler.Contexts

/-!
# Candidates

`compile_search_intent` collects hints from phrases of the taxonomy, misspelled tokens, learned
features and contexts. Each hint that is not negated is merged into the candidate of its value.
-/

namespace Stylme

open Conc Catalogue Reconciler

namespace Search

/-! ## What the service knows -/

/-- An element of `model["nodes"][feature]` -/
structure LearnedEdge where
  field : String
  value : String
  confidence : ℚ
  support : ℤ

/-- An element of `model["correlations"][key]` -/
structure CorrelationEdge where
  field : String
  value : String
  weight : ℚ
  support : ℤ

/-- `_intent_model` -/
structure IntentModel where
  nodes : List (String × List LearnedEdge)
  correlations : List (String × List CorrelationEdge)
  /-- `thresholds["runtime_minimum_confidence"]` -/
  minimumConfidence : Option ℚ

/-- The results of `_cached_fields`, `_cached_brands`, `_intent_model` and `_reconciliation_graph`. -/
structure Knowledge where
  fields : List MetadataField
  distinct : (fields.map (·.key)).Nodup
  brands : List Brand
  model : IntentModel
  graph : Option SearchGraph

/-- The order in which the elements of the sets `fuzzy_vocabulary` and `query_features` are visited. -/
structure Visits where
  vocabulary : List String → List String
  features : List String → List String
  vocabulary_perm : ∀ l, List.Perm (vocabulary l) l
  features_perm : ∀ l, List.Perm (features l) l

/-- A field and a value. -/
abbrev Tag := String × String

/-- `allowed.get(field, set())` -/
def Knowledge.allowed (k : Knowledge) (field : String) : List String :=
  (fieldOf k.fields field).elim [] (·.optionKeys)

/-! ## Hints -/

inductive HintSource where
  | taxonomy
  | alias
  | fuzzy
  /-- `"catalogue-correlation"` -/
  | learned
  /-- `"context-graph"` -/
  | context
  deriving DecidableEq

/-- The arguments of `add`. -/
structure Hint where
  field : String
  value : String
  score : ℚ
  source : HintSource
  phrase : String
  support : ℤ
  hardEligible : Bool
  deriving DecidableEq

def Hint.tag (h : Hint) : Tag := (h.field, h.value)

structure Evidence where
  source : HintSource
  phrase : String
  score : ℚ
  deriving DecidableEq

def Hint.evidence (h : Hint) : Evidence := ⟨h.source, h.phrase, roundFour h.score⟩

structure Candidate where
  score : ℚ
  evidence : List Evidence
  support : ℤ
  hardEligible : Bool
  deriving DecidableEq

/-- The candidate without hints. -/
def Candidate.empty : Candidate := ⟨0, [], 0, false⟩

/-- `current` after a hint -/
def Candidate.join (c : Candidate) (h : Hint) : Candidate where
  score := max c.score h.score
  evidence := if h.evidence ∈ c.evidence then c.evidence else c.evidence ++ [h.evidence]
  support := max c.support h.support
  hardEligible := c.hardEligible || h.hardEligible

/-- `candidates`, in the order of insertion -/
abbrev Candidates := List (Tag × Candidate)

variable (lib : Library) (k : Knowledge) (visit : Visits)

/-- The value of the hint is allowed and its phrase not negated. -/
def Hint.Admitted (query : String) (h : Hint) : Prop :=
  h.value ∈ k.allowed h.field ∧ ¬ lib.negated query h.phrase

instance (query : String) (h : Hint) : Decidable (h.Admitted lib k query) :=
  inferInstanceAs (Decidable (_ ∧ _))

def add (query : String) (candidates : Candidates) (h : Hint) : Candidates :=
  if h.Admitted lib k query then
    amend h.tag (fun current => (current.getD .empty).join h) candidates
  else candidates

/-! ## Phrases -/

/-- What a phrase names. -/
structure Naming where
  field : String
  value : String
  source : HintSource

/-- `terms` of an option -/
def optionTerms : OptionDoc → List String
  | .text _ => []
  | .doc key label aliases _ =>
    let value := key.getD ""
    [value, label.getD ""] ++ aliases ++
      if value.toList.getLast? = some 's' ∧ 4 < value.length then [String.ofList value.toList.dropLast]
      else []

/-- `str(option.get("key") or "")` -/
def optionValue : OptionDoc → String
  | .text _ => ""
  | .doc key _ _ _ => key.getD ""

/-- The phrases of one field. -/
def fieldNamings (field : MetadataField) : List (String × Naming) :=
  (field.options.filter (·.enabled)).flatMap fun option =>
    (((optionTerms option).map lib.normalizeQuery).filter (2 ≤ ·.length)).map fun phrase =>
      (phrase, ⟨field.key, optionValue option, .taxonomy⟩)

/-- The items of `phrase_index`, in the order of their insertion. -/
def phraseIndex : List (String × Naming) :=
  (k.fields.filter (·.filterable)).flatMap (fieldNamings lib) ++
    phraseAliases.map fun x => (lib.normalizeQuery x.1, ⟨x.2.1, x.2.2, .alias⟩)

/-- The keys of `phrase_index` -/
def phrases : List String := ((phraseIndex lib k).map (·.1)).eraseDups

/-- `phrase_index[phrase]` -/
def namings (phrase : String) : List Naming :=
  ((phraseIndex lib k).filter (·.1 = phrase)).map (·.2)

/-- `sorted(phrase_index, key=len, reverse=True)` -/
def longestFirst : List String :=
  (phrases lib k).insertionSort fun a b => b.length ≤ a.length

def phraseHint (phrase : String) (n : Naming) : Hint where
  field := n.field
  value := n.value
  score := if n.source = .alias then 1 else 96 / 100
  source := n.source
  phrase := phrase
  support := 0
  hardEligible := true

def phraseHints (query : String) : List Hint :=
  ((longestFirst lib k).filter (lib.containsPhrase query)).flatMap fun phrase =>
    (namings lib k phrase).map (phraseHint phrase)

/-! ## Misspelled tokens -/

/-- The keys of `single_phrases` -/
def singlePhrases : List String := (phrases lib k).filter fun p => ' ' ∉ p.toList ∧ 4 ≤ p.length

/-- `learned_single_phrases` -/
def learnedSinglePhrases : List String :=
  ((k.model.nodes.map (·.1)).filter fun p => ' ' ∉ p.toList ∧ 4 ≤ p.length ∧ p.length ≤ 32).map
    lib.normalizeQuery

/-- `context_single_phrases` -/
def contextSinglePhrases : List String :=
  ((indianContexts.map (·.1)).filter fun p => ' ' ∉ p.toList ∧ 4 ≤ p.length).map lib.normalizeQuery

/-- `fuzzy_vocabulary` -/
def fuzzyVocabulary : List String :=
  (singlePhrases lib k ++ learnedSinglePhrases lib k ++ contextSinglePhrases lib ++
    (stopWords ++ controlWords).filter (4 ≤ ·.length)).eraseDups

inductive CorrectionMethod where
  /-- `"commerce-spelling-alias"` -/
  | spellingAlias
  /-- `"edit-bigram-cosine"` -/
  | similarity
  deriving DecidableEq

/-- An element of `corrections`. -/
structure Correction where
  token : String
  word : String
  probability : ℚ
  method : CorrectionMethod

/-- An element of the first part of `correction_map`. -/
def aliasCorrection (token : String) : Option Correction :=
  (spellingAliases.lookup token).map fun word => ⟨token, word, 99 / 100, .spellingAlias⟩

/-- What the loop over the tokens adds for one. -/
def similarCorrection (token : String) : Option Correction :=
  if token.length < 4 ∨ (spellingAliases.lookup token).isSome ∨ token ∈ stopWords ∨
      token ∈ fuzzyVocabulary lib k then none
  else (acceptedMatch lib token (visit.vocabulary (fuzzyVocabulary lib k))).map fun x =>
    ⟨token, x.1, x.2, .similarity⟩

/-- `corrections`; a token that occurs again is corrected already. -/
def corrections (tokens : List String) : List Correction :=
  tokens.eraseDups.filterMap aliasCorrection ++ tokens.eraseDups.filterMap (similarCorrection lib k visit)

/-- `correction_map.get(token, token)` -/
def correct (corrections : List Correction) (token : String) : String :=
  ((corrections.find? (·.token = token)).map (·.word)).getD token

def fuzzyHint (c : Correction) (n : Naming) : Hint where
  field := n.field
  value := n.value
  score := 7 / 10 + 25 / 100 * c.probability
  source := .fuzzy
  phrase := c.token
  support := 0
  hardEligible := true

def fuzzyHints (corrections : List Correction) : List Hint :=
  (corrections.filter (·.method = .similarity)).flatMap fun c =>
    if c.word ∈ singlePhrases lib k then (namings lib k c.word).map (fuzzyHint c) else []

/-! ## Learned features -/

/-- `" ".join(semantic_tokens[index:index + width])` for every index -/
def windows (tokens : List String) (width : ℕ) : List String :=
  (List.range (tokens.length + 1 - width)).map fun i => " ".intercalate ((tokens.drop i).take width)

/-- `query_features` -/
def queryFeatures (semanticTokens : List String) : List String :=
  (semanticTokens ++ windows semanticTokens 2 ++ windows semanticTokens 3).eraseDups

def learnedFields : List String :=
  ["category", "product_type", "color", "color_family", "material", "pattern", "fit", "silhouette"]

/-- `learned_minimum` -/
def IntentModel.learnedMinimum (model : IntentModel) : ℚ :=
  if model.minimumConfidence.getD 0 = 0 then 52 / 100 else model.minimumConfidence.getD 0

def learnedHint (feature : String) (e : LearnedEdge) : Hint where
  field := e.field
  value := e.value
  score := e.confidence
  source := .learned
  phrase := feature
  support := e.support
  hardEligible := false

/-- The hints of one feature. -/
def featureHints (feature : String) : List Hint :=
  if feature ∈ stopWords ∨ feature ∈ controlWords then []
  else (((k.model.nodes.lookup feature).getD []).filter fun e =>
    e.field ∈ learnedFields ∧ k.model.learnedMinimum ≤ e.confidence).map (learnedHint feature)

def learnedHints (semanticTokens : List String) : List Hint :=
  (visit.features (queryFeatures semanticTokens)).flatMap (featureHints k)

/-! ## Contexts -/

/-- `semantic_signals` -/
def semanticSignals (correctedQuery : String) : List Signal :=
  baselineContextSignals lib.texts correctedQuery k.fields ++
    traverseGraph lib.texts k.graph correctedQuery 4 30

def signalTag (s : Signal) : Tag := (s.field.getD "", s.value.getD "")

/-- `strongest_signal` after one more signal -/
def keepStronger (strongest : List (Tag × Signal)) (s : Signal) : List (Tag × Signal) :=
  if (strongest.lookup (signalTag s)).elim 0 (·.score) < s.score then
    amend (signalTag s) (fun _ => s) strongest
  else strongest

/-- `strongest_signal` -/
def strongestSignals (correctedQuery : String) : List (Tag × Signal) :=
  (semanticSignals lib k correctedQuery).foldl keepStronger []

/-- `item.removeprefix("baseline:")` of an item with the prefix -/
def baselineConcept (item : String) : Option String :=
  if "baseline:".toList.isPrefixOf item.toList then
    some (String.ofList (item.toList.drop "baseline:".length))
  else none

def contextHint (tag : Tag) (s : Signal) : Hint where
  field := tag.1
  value := tag.2
  score := s.score
  source := .context
  phrase := (s.path.findSome? baselineConcept).getD tag.2
  support := 0
  hardEligible := false

def contextHints (correctedQuery : String) : List Hint :=
  (strongestSignals lib k correctedQuery).map fun x => contextHint x.1 x.2

/-! ## All together -/

/-- The values that one run of `compile_search_intent` computes before its candidates. -/
structure Reading where
  query : String
  tokens : List String
  corrections : List Correction

def reading (rawQuery : String) : Reading :=
  let query := lib.normalizeQuery rawQuery
  ⟨query, lib.tokenize query, corrections lib k visit (lib.tokenize query)⟩

@[simp] theorem reading_query {rawQuery : String} :
    (reading lib k visit rawQuery).query = lib.normalizeQuery rawQuery := by
  simp only [reading]

@[simp] theorem reading_tokens {rawQuery : String} :
    (reading lib k visit rawQuery).tokens = lib.tokenize (lib.normalizeQuery rawQuery) := by
  simp only [reading]

@[simp] theorem reading_corrections {rawQuery : String} : (reading lib k visit rawQuery).corrections =
    corrections lib k visit (lib.tokenize (lib.normalizeQuery rawQuery)) := by
  simp only [reading]

namespace Reading

variable (r : Reading)

def semanticTokens : List String := r.tokens.map (correct r.corrections)

def correctedQuery : String := " ".intercalate r.semanticTokens

/-- All hints, in the order in which they are added. -/
def hints : List Hint :=
  phraseHints lib k r.query ++ fuzzyHints lib k r.corrections ++
    learnedHints k visit r.semanticTokens ++ contextHints lib k r.correctedQuery

/-- `candidates` before the correlations -/
def candidates : Candidates := (r.hints lib k visit).foldl (add lib k r.query) []

end Reading

/-! ## Correlations -/

/-- `f"{field}:{value}"` -/
def tagText (tag : Tag) : String := tag.1 ++ ":" ++ tag.2

/-- `boost` -/
def CorrelationEdge.boost (e : CorrelationEdge) : ℚ := min (1 / 10) (max 0 e.weight * (25 / 1000))

/-- The candidate of the edge, if there is one, gains the boost. -/
def gain (candidates : Candidates) (e : CorrelationEdge) : Candidates :=
  candidates.map fun x =>
    if x.1 = (e.field, e.value) then (x.1, { x.2 with score := min 1 (x.2.score + e.boost) }) else x

/-- The edges that the loop over the candidates visits. -/
def correlated (model : IntentModel) (candidates : Candidates) : List CorrelationEdge :=
  candidates.flatMap fun x => (model.correlations.lookup (tagText x.1)).getD []

/-- `candidates` after the correlations -/
def boosted (model : IntentModel) (candidates : Candidates) : Candidates :=
  (correlated model candidates).foldl gain candidates

end Search

end Stylme
