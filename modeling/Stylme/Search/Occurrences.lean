-- SUMMARY: The hints of a query, computed from the texts that occur in it.
import Stylme.Lib.Distinct
import Stylme.Search.Hints

/-!
# Occurrences

A query contains few texts as whole words. The phrases and contexts that give hints are the ones
among these texts, which is decided without a look at each phrase's characters.
-/

namespace Stylme

open Conc Backend Catalogue Reconciler

namespace Search

/-- What the query contains as whole words. -/
def Library.occurrences (lib : Library) (query : String) : List String :=
  (wholeWords lib.wordChar none query.toList).map String.ofList

variable {lib : Library} {k : Knowledge} {query phrase : String}

theorem containsPhrase_eq : lib.containsPhrase query phrase = decide (phrase ∈ lib.occurrences query) := by
  have hmem : lib.containsPhrase query phrase = true ↔ phrase ∈ lib.occurrences query := by
    rw [Library.containsPhrase, occursWord_iff_mem, Library.occurrences, List.mem_map]
    constructor
    · exact fun h => ⟨phrase.toList, h, String.ofList_toList⟩
    · rintro ⟨l, hl, rfl⟩
      rwa [String.toList_ofList]
  by_cases h : phrase ∈ lib.occurrences query
  · rw [hmem.2 h, decide_eq_true h]
  · rw [decide_eq_false h]
    exact eq_false_of_ne_true fun hcontains => h (hmem.1 hcontains)

/-- The phrases of the index that occur, the longest first. -/
def occurring (index : List (String × Naming)) (occurrences : List String) : List String :=
  (((index.map (·.1)).filter (· ∈ occurrences)).eraseDups).insertionSort fun a b => b.length ≤ a.length

/-- The hints of the phrases of the index that occur. -/
def occurringHints (index : List (String × Naming)) (occurrences : List String) : List Hint :=
  (occurring index occurrences).flatMap fun phrase =>
    ((index.filter (·.1 = phrase)).map (·.2)).map (phraseHint phrase)

theorem phraseHints_eq :
    phraseHints lib k query = occurringHints (phraseIndex lib k) (lib.occurrences query) := by
  have hcontains : lib.containsPhrase query = fun phrase => decide (phrase ∈ lib.occurrences query) :=
    funext fun _ => containsPhrase_eq
  have htotal : Std.Total fun a b : String => b.length ≤ a.length := ⟨fun a b => le_total b.length a.length⟩
  have htrans : IsTrans String fun a b => b.length ≤ a.length := ⟨fun a b c hba hcb => le_trans hcb hba⟩
  rw [phraseHints, occurringHints, occurring, eraseDups_filter, filter_insertionSort, longestFirst, phrases, hcontains]
  rfl

theorem hasWord_eq {term : String} : lib.texts.hasWord term query = decide (term ∈ lib.occurrences query) :=
  containsPhrase_eq

theorem normalizedQuery_texts : normalizedQuery lib.texts query = lib.normalizeQuery (lib.redactQuery query) := by
  rw [normalizedQuery, Library.texts]

/-- The contexts that occur in a normalized query give its signals. -/
theorem baselineContextSignals_eq {rawQuery : String} {fields : List MetadataField}
    (hquery : normalizedQuery lib.texts rawQuery = query) : baselineContextSignals lib.texts rawQuery fields =
      ((indianContexts.filter fun x => x.1 ∈ lib.occurrences query).flatMap fun x =>
        (x.2.filter fun tag => tag.2.1 ∈ optionKeys fields tag.1).map (contextSignal x.1)).insertionSort
          fun a b => baselineKey a ≤ baselineKey b := by
  have hcontexts : (fun x : String × List ContextTag => lib.texts.hasWord x.1 query) =
      fun x => decide (x.1 ∈ lib.occurrences query) := funext fun _ => hasWord_eq
  rw [baselineContextSignals, hquery, hcontexts]

end Search

namespace Sample

namespace Search

open Stylme.Search

deriving instance DecidableEq for Naming

/-- The phrases of an option that is labelled by its key. -/
def optionPhrases (field value : String) (phrases : List String) : List (String × Naming) :=
  phrases.map fun phrase => (phrase, ⟨field, value, .taxonomy⟩)

/-- The phrases of the taxonomy and the hand-authored ones, which are written as they are normalized. -/
def phraseTable : List (String × Naming) :=
  optionPhrases "product_type" "kurtas" ["kurtas", "kurtas", "kurta"] ++
    optionPhrases "product_type" "kurta-sets" ["kurta sets", "kurta sets", "kurta set"] ++
    optionPhrases "product_type" "dresses" ["dresses", "dresses", "dresse"] ++
    optionPhrases "product_type" "dress-material" ["dress material", "dress material"] ++
    optionPhrases "color_family" "red" ["red", "red"] ++
    optionPhrases "color_family" "purple" ["purple", "purple"] ++
    optionPhrases "season" "winter" ["winter", "winter"] ++
    optionPhrases "season" "summer" ["summer", "summer"] ++
    phraseAliases.map fun x => (x.1, ⟨x.2.1, x.2.2, .alias⟩)

theorem phraseIndex_knowledge (nodes : List (String × List LearnedEdge)) :
    phraseIndex library (knowledge nodes) = phraseTable := by
  have htable : phraseIndex library (knowledge []) = phraseTable := by decide +kernel
  exact htable

theorem phraseHints_knowledge {nodes : List (String × List LearnedEdge)} {query : String} :
    phraseHints library (knowledge nodes) query = occurringHints phraseTable (library.occurrences query) := by
  rw [phraseHints_eq, phraseIndex_knowledge]

/-- The strongest of these signals for each tag, as hints. -/
def strongestHints (signals : List Signal) : List Hint :=
  (signals.foldl keepStronger []).map fun x => contextHint x.1 x.2

/-- The hints of the contexts among the texts that occur. -/
def occurringContexts (occurrences : List String) : List Hint :=
  strongestHints (((indianContexts.filter fun x => x.1 ∈ occurrences).flatMap fun x =>
    (x.2.filter fun tag => tag.2.1 ∈ optionKeys fields tag.1).map (contextSignal x.1)).insertionSort
      fun a b => baselineKey a ≤ baselineKey b)

theorem contextHints_knowledge {nodes : List (String × List LearnedEdge)} {query : String}
    (hquery : library.normalizeQuery query = query) :
    contextHints library (knowledge nodes) query = occurringContexts (library.occurrences query) := by
  have hfields : (knowledge nodes).fields = fields := rfl
  have htraversed : traverseGraph library.texts (knowledge nodes).graph query 4 30 = [] := rfl
  have hredacted : library.redactQuery query = query := rfl
  have hnormal : normalizedQuery library.texts query = query := by
    rw [normalizedQuery_texts, hredacted, hquery]
  have hsignals := @baselineContextSignals_eq library query query fields hnormal
  rw [contextHints, strongestSignals, semanticSignals, hfields, htraversed, List.append_nil, hsignals,
    occurringContexts, strongestHints]

/-- A query that is written as it is normalized, and whose tokens have no alias. -/
structure PlainQuery where
  query : String
  tokens : List String
  normalized : library.normalizeQuery query = query
  tokenized : library.tokenize query = tokens
  joined : " ".intercalate tokens = query
  unaliased : ∀ token ∈ tokens, aliasCorrection token = none

namespace PlainQuery

variable (q : PlainQuery) {k : Knowledge} {nodes : List (String × List LearnedEdge)} {visit : Visits}

theorem reading_eq (h : ∀ token ∈ q.tokens, similarCorrection library k visit token = none) :
    reading library k visit q.query = ⟨q.query, q.tokens, []⟩ :=
  Stylme.Search.reading_eq q.normalized q.tokenized fun token htoken => ⟨q.unaliased token htoken, h token htoken⟩

/-- All hints of the query, unless a token is corrected. -/
theorem hints_eq {hints : List Hint} (hhints : occurringHints phraseTable (library.occurrences q.query) ++
    learnedHints (knowledge nodes) visit q.tokens ++ occurringContexts (library.occurrences q.query) = hints) :
    (⟨q.query, q.tokens, []⟩ : Reading).hints library (knowledge nodes) visit = hints := by
  have hsemantic : (⟨q.query, q.tokens, []⟩ : Reading).semanticTokens = q.tokens := List.map_id q.tokens
  have hcorrected : (⟨q.query, q.tokens, []⟩ : Reading).correctedQuery = q.query := by
    rw [Reading.correctedQuery, hsemantic, q.joined]
  have hfuzzy : fuzzyHints library (knowledge nodes) [] = [] := rfl
  rw [Reading.hints, hcorrected, hsemantic, phraseHints_knowledge, contextHints_knowledge q.normalized, hfuzzy,
    List.append_nil, hhints]

end PlainQuery

end Search

end Sample

end Stylme
