-- SUMMARY: Hard filters come from phrases of the query that name an option, or from misspellings of one.
import Stylme.Search.Hints

/-!
# Hard filters from the shopper's words

Only phrases of the taxonomy, hand-authored aliases and corrected tokens make a candidate eligible
for a hard filter. What was learned or follows from a context does not.
-/

namespace Stylme

open Conc Backend Catalogue Reconciler

namespace Search

variable (lib : Library) (k : Knowledge)

/-- The value is that of an active option of the field. -/
def ActiveOption (field value : String) : Prop :=
  ∃ f ∈ k.fields, f.key = field ∧ ∃ option ∈ f.options, option.enabled ∧ optionValue option = value ∧
    value ≠ ""

/-- A token of the query was corrected to a word that names the value. -/
def CorrectedTo (intent : SearchIntent) (field value : String) : Prop :=
  ∃ c ∈ intent.corrections, c.method = .similarity ∧ c.token ∈ lib.tokenize intent.normalizedQuery ∧
    ' ' ∉ c.word.toList ∧ c.probability = fuzzyProbability lib c.token c.word ∧
    79 / 100 ≤ c.probability ∧ Names lib k c.word field value

/-- The value is active, and words of the query stand for it. -/
def Worded (intent : SearchIntent) (field value : String) : Prop :=
  ActiveOption k field value ∧
    ((∃ phrase, Names lib k phrase field value ∧ OccursIn lib phrase intent.normalizedQuery) ∨
      CorrectedTo lib k intent field value)

section Proofs

variable {lib k} {visit : Visits} {query phrase field value : String}

theorem activeOption_of_mem_allowed (h : value ∈ k.allowed field) : ActiveOption k field value := by
  unfold Knowledge.allowed at h
  cases hfield : fieldOf k.fields field with
  | none => rw [hfield] at h; exact absurd h List.not_mem_nil
  | some f =>
    rw [hfield] at h
    obtain ⟨option, hoption, rfl⟩ := List.mem_map.1 h
    obtain ⟨hoption, hkept⟩ := List.mem_filter.1 hoption
    obtain ⟨henabled, hkey⟩ := of_decide_eq_true hkept
    refine ⟨f, List.mem_of_find?_eq_some hfield, by simpa using List.find?_some hfield, option, hoption,
      henabled, ?_⟩
    cases option with
    | text key => cases henabled
    | doc key label aliases active =>
      cases key with
      | none => exact absurd rfl hkey
      | some key => exact ⟨rfl, hkey⟩

variable {rawQuery : String} {pincode : Option String} {swoopstyl : Bool} {intent : SearchIntent}

theorem worded_of_mem_hardValues
    (hok : compileSearchIntent lib k visit rawQuery pincode swoopstyl = .ok intent)
    (hvalue : value ∈ hardValues k ((reading lib k visit rawQuery).finalCandidates lib k visit) field) :
    Worded lib k intent field value := by
  obtain ⟨found, -, rfl⟩ := compileSearchIntent_eq_ok_iff.1 hok
  obtain ⟨c, hc, -, hhard⟩ := exists_of_mem_hardValues hvalue
  obtain ⟨h, hh, hadmitted, htag, hhard⟩ := exists_hard_hint hc hhard
  obtain ⟨rfl, rfl⟩ := Prod.mk.inj htag
  refine ⟨activeOption_of_mem_allowed hadmitted.1, ?_⟩
  rcases hard_hint hh hhard with hphrase | hfuzzy
  · obtain ⟨phrase, n, hcontains, hn, rfl⟩ := mem_phraseHints.1 hphrase
    exact .inl ⟨phrase, names_of_mem_namings hn, containsPhrase_iff.1 hcontains⟩
  · obtain ⟨correction, hcorrection, hmethod, hword, n, hn, rfl⟩ := mem_fuzzyHints.1 hfuzzy
    rw [reading_corrections] at hcorrection
    obtain ⟨htoken, hprobability, hle⟩ := mem_corrections hcorrection hmethod
    have hsingle := (mem_singlePhrases.1 hword).2.1
    refine .inr ⟨correction, ?_, hmethod, ?_, hsingle, hprobability, hle, names_of_mem_namings hn⟩
    · rwa [intentOf_corrections, reading_corrections]
    · rwa [intentOf_normalizedQuery, reading_query]

theorem brand_of_mem_matchedBrands {name : String} (h : name ∈ matchedBrands lib k query) :
    ∃ brand ∈ k.brands, brand.name = name ∧
      ∃ text ∈ brand.name :: brand.aliases, OccursIn lib (lib.normalizeQuery text) query := by
  obtain ⟨x, hx, rfl⟩ := Option.map_eq_some_iff.1 (Option.mem_toList.1 h)
  obtain ⟨brand, hbrand, hmatch⟩ := List.mem_filterMap.1 (mem_of_firstMax hx)
  obtain ⟨phrase, hphrase, rfl⟩ := Option.map_eq_some_iff.1 hmatch
  obtain ⟨text, htext, rfl⟩ := List.mem_map.1 (List.mem_of_find?_eq_some hphrase)
  have hfound := List.find?_some hphrase
  rw [decide_eq_true_eq] at hfound
  exact ⟨brand, hbrand, rfl, text, htext, containsPhrase_iff.1 hfound.2⟩

/-- The hard filters of a query come from its words. -/
theorem compileSearchIntent_worded
    (hok : compileSearchIntent lib k visit rawQuery pincode swoopstyl = .ok intent) :
    (∀ value ∈ intent.hardFilters.direct.category, Worded lib k intent "category" value) ∧
    (∀ value ∈ intent.hardFilters.direct.productType, Worded lib k intent "product_type" value) ∧
    (∀ value ∈ intent.hardFilters.direct.gender, Worded lib k intent "gender" value) ∧
    (∀ value ∈ intent.hardFilters.direct.size, Worded lib k intent "size" value) ∧
    (∀ value ∈ intent.hardFilters.direct.colour,
      Worded lib k intent "color" value ∨ Worded lib k intent "color_family" value) ∧
    intent.hardFilters.direct.category.length ≤ 1 ∧
    intent.hardFilters.direct.productType.length ≤ 1 ∧
    intent.hardFilters.direct.brand.length ≤ 1 ∧
    ∀ name ∈ intent.hardFilters.direct.brand, ∃ brand ∈ k.brands, brand.name = name ∧
      ∃ text ∈ brand.name :: brand.aliases,
        OccursIn lib (lib.normalizeQuery text) intent.normalizedQuery := by
  have hworded : ∀ field value,
      value ∈ hardValues k ((reading lib k visit rawQuery).finalCandidates lib k visit) field →
        Worded lib k intent field value := fun field value => worded_of_mem_hardValues hok
  obtain ⟨found, -, hintent⟩ := compileSearchIntent_eq_ok_iff.1 hok
  have hdirect : intent.hardFilters.direct = directFilters lib k (reading lib k visit rawQuery).query
      ((reading lib k visit rawQuery).finalCandidates lib k visit) := by
    rw [← hintent, intentOf_hardFilters, hardFilters_direct]
  have hquery : intent.normalizedQuery = (reading lib k visit rawQuery).query := by
    rw [← hintent, intentOf_normalizedQuery]
  rw [hdirect, hquery]
  generalize (reading lib k visit rawQuery).finalCandidates lib k visit = candidates at hworded ⊢
  refine ⟨hworded "category", hworded "product_type", hworded "gender", hworded "size", fun value hvalue => ?_,
    length_hardValues_le (by decide), length_hardValues_le (by decide), ?_,
    fun name hname => brand_of_mem_matchedBrands hname⟩
  · exact (List.mem_append.1 (List.mem_eraseDups.1 hvalue)).imp (hworded "color" value)
      (hworded "color_family" value)
  · exact Option.length_toList_le

end Proofs

open Sample.Search in
/-- The colours of a query are named by it. -/
theorem compileSearchIntent_worded_redMax : ∃ intent,
    compileSearchIntent library (knowledge []) visits "red max 500" none false = .ok intent ∧
    (∀ value ∈ intent.hardFilters.direct.colour, Worded library (knowledge []) intent "color" value ∨
      Worded library (knowledge []) intent "color_family" value) ∧
    intent.hardFilters.direct.brand.length ≤ 1 := by
  obtain ⟨intent, hok⟩ := compiles_redMax
  obtain ⟨-, -, -, -, hcolour, -, -, hbrand, -⟩ := compileSearchIntent_worded hok
  exact ⟨intent, hok, hcolour, hbrand⟩

end Search

end Stylme
