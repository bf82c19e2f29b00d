-- SUMMARY: When a value whose phrases are all negated is used after all: other hints name it, and it is selected for them.
import Stylme.Search.Occurrences
import Stylme.Search.Selection
import Stylme.Properties.Negation

/-!
# Negated values

Each hint is discarded for a negator before its own phrase. A correction, a learned feature or a
context of another phrase may thus name a value that the shopper has negated.
-/

namespace Stylme

open Conc Backend Catalogue Reconciler

namespace Search

variable (lib : Library) (k : Knowledge) (visit : Visits)

/-! ## Negated phrases and used values -/

/-- Where the phrase occurs, it directly follows a negator that is a word of its own. -/
def OnlyNegated (phrase query : String) : Prop :=
  ∀ start after, query.toList = start ++ phrase.toList ++ after → ¬ start.getLast?.any lib.wordChar →
    ¬ after.head?.any lib.wordChar → ∃ negator ∈ negators, ∃ before blanks,
      start = before ++ negator.toList ++ blanks ∧ ¬ before.getLast?.any lib.wordChar ∧
      blanks ≠ [] ∧ ∀ c ∈ blanks, lib.isSpace c

/-- The direct filter of a field. -/
def DirectFilters.of (d : DirectFilters) (field : String) : List String :=
  if field = "category" then d.category
  else if field = "product_type" then d.productType
  else if field = "gender" then d.gender
  else if field = "size" then d.size
  else if field = "color" ∨ field = "color_family" then d.colour
  else []

/-- The two fields whose values are filtered by as colours. -/
def OtherColour (field other : String) : Prop :=
  (field = "color" ∧ other = "color_family") ∨ (field = "color_family" ∧ other = "color")

/-- The value is in the direct filter of its field, and is not the one of the other colour field. -/
def SearchIntent.Filters (intent : SearchIntent) (field value : String) : Prop :=
  value ∈ intent.hardFilters.direct.of field ∧ ∀ other, OtherColour field other →
    ¬ ∃ n ∈ intent.nodes, n.field = other ∧ n.value = value ∧ n.hardEligible

/-- The value is in a filter of its field or in the ranking vector. -/
def SearchIntent.Uses (intent : SearchIntent) (field value : String) : Prop :=
  intent.Filters field value ∨
    (∃ x ∈ intent.hardFilters.metadata, x.1 = field ∧ value ∈ x.2) ∨
    ∃ e ∈ intent.rankingVector, e.field = field ∧ e.value = value

/-- The hints of a value that do not come from a phrase of the query, and are not negated. -/
def reentries (r : Reading) (t : Tag) : List Hint :=
  admitted lib k r.query (fuzzyHints lib k r.corrections ++ learnedHints k visit r.semanticTokens ++
    contextHints lib k r.correctedQuery) t

/-- The score that these hints and the correlations give the value. -/
def reentryScore (r : Reading) (t : Tag) : ℚ :=
  boostedScore k.model (r.candidates lib k visit) t (Candidate.empty.joinAll (reentries lib k visit r t)).score

variable {lib k visit} {phrase query field value rawQuery : String} {pincode : Option String}
  {swoopstyl : Bool} {intent : SearchIntent} {r : Reading}

/-! ## What is used is selected -/

section Uses

variable {found : Option ℤ × Option ℤ}

theorem of_directFilters {d : Candidates} (h : value ∈ (directFilters lib k query d).of field) :
    value ∈ hardValues k d field ∨ ∃ other, OtherColour field other ∧ value ∈ hardValues k d other := by
  unfold DirectFilters.of at h
  split at h
  · rename_i hfield
    exact .inl (hfield ▸ h)
  split at h
  · rename_i hfield
    exact .inl (hfield ▸ h)
  split at h
  · rename_i hfield
    exact .inl (hfield ▸ h)
  split at h
  · rename_i hfield
    exact .inl (hfield ▸ h)
  split at h
  · rename_i hfield
    have hcolour := List.mem_append.1 (List.mem_eraseDups.1 h)
    rcases hfield with rfl | rfl
    · exact hcolour.imp id fun h => ⟨"color_family", .inl ⟨rfl, rfl⟩, h⟩
    · exact hcolour.symm.imp id fun h => ⟨"color", .inr ⟨rfl, rfl⟩, h⟩
  · exact absurd h List.not_mem_nil

theorem uses_iff : (intentOf lib k visit r pincode swoopstyl found).Uses field value ↔
    ∃ c, (value, c) ∈ selectedOf k (r.finalCandidates lib k visit) field := by
  constructor
  · rintro (⟨hfilter, hother⟩ | ⟨x, hx, rfl, hvalue⟩ | hentry)
    · rw [intentOf_hardFilters, hardFilters_direct] at hfilter
      rw [intentOf_nodes] at hother
      rcases of_directFilters hfilter with h | ⟨other, hcolour, h⟩
      · obtain ⟨c, hc, -⟩ := mem_hardValues.1 h
        exact ⟨c, hc⟩
      · obtain ⟨c, hc, hhard⟩ := mem_hardValues.1 h
        exact absurd ⟨_, List.mem_map.2 ⟨_, mem_selectedItems.2 hc, rfl⟩, rfl, rfl, hhard⟩ (hother other hcolour)
    · rw [intentOf_hardFilters, hardFilters_metadata] at hx
      exact mem_metadataFilters hx hvalue
    · rw [intentOf_rankingVector] at hentry
      exact mem_rankingVector.1 hentry
  · intro h
    refine .inr (.inr ?_)
    rw [intentOf_rankingVector]
    exact mem_rankingVector.2 h

end Uses

/-! ## Discarded phrases -/

theorem negated_of_onlyNegated (hoccurs : OccursIn lib phrase query) (honly : OnlyNegated lib phrase query) :
    lib.negated query phrase := by
  obtain ⟨start, after, hquery, hstart, hafter⟩ := hoccurs
  obtain ⟨negator, hnegator, before, blanks, rfl, hbefore, hblanks⟩ := honly start after hquery hstart hafter
  refine negated_iff.2 (.inl ⟨before, hbefore, negator, hnegator, blanks, after, ?_, ?_, hafter⟩)
  · simpa only [List.append_assoc] using hquery
  · exact ⟨blanks, [], (List.append_nil _).symm, hblanks, .inl rfl⟩

/-- The phrases of a value are all negated. -/
def Negative (lib : Library) (k : Knowledge) (query field value : String) : Prop :=
  ∀ phrase, Names lib k phrase field value → OccursIn lib phrase query → OnlyNegated lib phrase query

theorem admitted_hints (h : Negative lib k r.query field value) :
    admitted lib k r.query (r.hints lib k visit) (field, value) = reentries lib k visit r (field, value) := by
  have hnone : admitted lib k r.query (phraseHints lib k r.query) (field, value) = [] := by
    refine List.eq_nil_iff_forall_not_mem.2 fun x hx => ?_
    obtain ⟨hhint, hadmitted, htag⟩ := mem_admitted.1 hx
    obtain ⟨phrase, n, hcontains, hn, rfl⟩ := mem_phraseHints.1 hhint
    obtain ⟨rfl, rfl⟩ := Prod.mk.inj htag
    have hoccurs := containsPhrase_iff.1 hcontains
    exact hadmitted.2 (negated_of_onlyNegated hoccurs (h phrase (names_of_mem_namings hn) hoccurs))
  rw [Reading.hints, reentries, admitted, admitted, List.append_assoc, List.append_assoc, List.filter_append]
  rw [admitted] at hnone
  rw [hnone, List.nil_append, List.append_assoc]

theorem lookup_negative (h : Negative lib k r.query field value)
    (hne : reentries lib k visit r (field, value) ≠ []) :
    ∃ c, (r.finalCandidates lib k visit).lookup (field, value) = some c ∧
      c.score = reentryScore lib k visit r (field, value) := by
  have hlookup : (r.finalCandidates lib k visit).lookup (field, value) = _ := lookup_finalCandidates
  rw [admitted_hints h, if_neg hne] at hlookup
  refine ⟨_, hlookup, ?_⟩
  rw [reentryScore]

end Search

namespace Sample

namespace Search

open Stylme.Search

def notSummerQuery : PlainQuery :=
  ⟨"not summer", ["not", "summer"], by decide +kernel, by decide +kernel, by decide +kernel, by decide +kernel⟩

def notSummer : Reading := ⟨"not summer", ["not", "summer"], []⟩

theorem summer_names : Names library (knowledge []) "summer" "season" "summer" :=
  .inl ⟨field "season" ["winter", "summer"] "product_metadata",
    List.mem_cons_of_mem _ (List.mem_cons_of_mem _ List.mem_cons_self), rfl, rfl,
    .doc (some "summer") (some "summer") [] none, List.mem_cons_of_mem _ List.mem_cons_self, rfl, rfl,
    "summer", List.mem_cons_self, by decide +kernel⟩

theorem names_summer {phrase : String} (h : Names library (knowledge []) phrase "season" "summer") :
    phrase = "summer" := by
  have hnormal : library.normalizeQuery "summer" = "summer" := by decide +kernel
  have hterms : ∀ f ∈ fields, f.key = "season" → ∀ option ∈ f.options, optionValue option = "summer" →
      optionTerms option = ["summer", "summer"] := by decide +kernel
  have haliases : ∀ x ∈ phraseAliases, x.2 ≠ ("season", "summer") := by decide +kernel
  rcases h with ⟨f, hf, -, hkey, option, hoption, -, hvalue, term, hterm, rfl⟩ | ⟨x, hx, -, htag⟩
  · rw [hterms f hf hkey option hoption hvalue, List.mem_pair, or_self] at hterm
    rw [hterm, hnormal]
  · exact absurd htag (haliases x hx)

/-- The season occurs in a query once, after the negator. -/
theorem negative_summer {query : String} (before : List Char) (hbefore : ¬ before.getLast?.any library.wordChar)
    (hquery : ∀ i ≤ query.length, (query.toList.drop i).take 6 = "summer".toList →
      query.toList.take i = before ++ "not".toList ++ [' ']) :
    Negative library (knowledge []) query "season" "summer" := by
  intro phrase hnames _ start after heq _ _
  obtain rfl := names_summer hnames
  have hlength : start.length ≤ query.length := by
    rw [← String.length_toList, heq, List.append_assoc, List.length_append]
    exact Nat.le_add_right _ _
  have hstart := hquery start.length hlength (by
    rw [heq, List.append_assoc, List.drop_left]
    exact List.take_left' (by decide +kernel))
  rw [heq, List.append_assoc, List.take_left] at hstart
  exact ⟨"not", by decide +kernel, before, [' '], hstart, hbefore, List.cons_ne_nil _ _,
    List.forall_mem_singleton.2 rfl⟩

theorem similar_summer : similarCorrection library (knowledge []) visits "summer" = none := by
  have hphrase : "summer" ∈ phraseTable.map (·.1) := by decide +kernel
  have hword : "summer" ∈ Stylme.Search.phrases library (knowledge []) := by
    rw [Stylme.Search.phrases, phraseIndex_knowledge]
    exact List.mem_eraseDups.2 hphrase
  exact similarCorrection_of_phrase (mem_singlePhrases.2 ⟨hword, by decide +kernel⟩)

theorem reading_notSummer : reading library (knowledge []) visits "not summer" = notSummer := by
  refine notSummerQuery.reading_eq fun token htoken => ?_
  rcases List.mem_pair.1 htoken with rfl | rfl
  · exact similarCorrection_of_short (by decide +kernel)
  · exact similar_summer

def goaNotSummerQuery : PlainQuery :=
  ⟨"goa not summer", ["goa", "not", "summer"], by decide +kernel, by decide +kernel, by decide +kernel, by decide +kernel⟩

/-- The query does not ask for summer, but for what goes with Goa. -/
def goaNotSummer : Reading := ⟨"goa not summer", ["goa", "not", "summer"], []⟩

theorem reading_goaNotSummer : reading library (knowledge []) visits "goa not summer" = goaNotSummer := by
  refine goaNotSummerQuery.reading_eq fun token htoken => ?_
  rcases List.mem_cons.1 htoken with rfl | htoken
  · exact similarCorrection_of_short (by decide +kernel)
  rcases List.mem_pair.1 htoken with rfl | rfl
  · exact similarCorrection_of_short (by decide +kernel)
  · exact similar_summer

/-- The candidate that the context makes of the negated season. -/
def summerOnly : Candidates :=
  [(("season", "summer"), ⟨86 / 100, [⟨.context, "goa", 86 / 100⟩], 0, false⟩)]

theorem candidates_goaNotSummer :
    goaNotSummer.finalCandidates library (knowledge []) visits = summerOnly := by
  have hhints : goaNotSummer.hints library (knowledge []) visits =
      [phraseHint "summer" ⟨"season", "summer", .taxonomy⟩, phraseHint "summer" ⟨"season", "summer", .taxonomy⟩,
        ⟨"season", "summer", 86 / 100, .context, "goa", 0, false⟩] :=
    goaNotSummerQuery.hints_eq (by decide +kernel)
  have hcandidates : goaNotSummer.candidates library (knowledge []) visits = summerOnly := by
    rw [Reading.candidates, hhints]
    decide +kernel
  rw [Reading.finalCandidates, hcandidates]
  decide +kernel

end Search

end Sample

namespace Search

end Search

end Stylme
