-- SUMMARY: Which hints a query gives: the phrases it contains, the corrections of its tokens, and what makes a value eligible.
import Stylme.Search.Table

/-!
# Hints

What phrases name, what corrections are known to be, and which hints make a candidate eligible for
a hard filter.
-/

namespace Stylme

open Conc Backend Catalogue Reconciler

namespace Search

variable (lib : Library) (k : Knowledge)

/-! ## Words -/

/-- The phrase occurs in the query as whole words. -/
def OccursIn (phrase query : String) : Prop :=
  ∃ start after, query.toList = start ++ phrase.toList ++ after ∧ ¬ start.getLast?.any lib.wordChar ∧
    ¬ after.head?.any lib.wordChar

/-- The phrase is the key, the label, an alias or the singular key of an option in use, or a
hand-authored alias of it. -/
def Names (phrase field value : String) : Prop :=
  (∃ f ∈ k.fields, f.filterable ∧ f.key = field ∧ ∃ option ∈ f.options, option.enabled ∧
    optionValue option = value ∧ ∃ term ∈ optionTerms option, lib.normalizeQuery term = phrase) ∨
  ∃ x ∈ phraseAliases, lib.normalizeQuery x.1 = phrase ∧ x.2 = (field, value)

section Proofs

variable {lib k} {visit : Visits} {query phrase field value : String}

theorem containsPhrase_iff : lib.containsPhrase query phrase ↔ OccursIn lib phrase query :=
  occursWord_none_iff

theorem mem_namings {n : Naming} : n ∈ namings lib k phrase ↔ (phrase, n) ∈ phraseIndex lib k := by
  rw [namings, List.mem_map]
  constructor
  · rintro ⟨⟨phrase', n'⟩, hitem, rfl⟩
    obtain ⟨hx, hphrase⟩ := List.mem_filter.1 hitem
    obtain rfl : phrase' = phrase := of_decide_eq_true hphrase
    exact hx
  · exact fun h => ⟨(phrase, n), List.mem_filter.2 ⟨h, decide_eq_true rfl⟩, rfl⟩

theorem names_of_mem_namings {n : Naming} (h : n ∈ namings lib k phrase) :
    Names lib k phrase n.field n.value := by
  rcases List.mem_append.1 (mem_namings.1 h) with h | h
  · obtain ⟨f, hf, h⟩ := List.mem_flatMap.1 h
    obtain ⟨hf, hfilterable⟩ := List.mem_filter.1 hf
    obtain ⟨option, hoption, h⟩ := List.mem_flatMap.1 h
    obtain ⟨hoption, henabled⟩ := List.mem_filter.1 hoption
    obtain ⟨phrase', hphrase, h⟩ := List.mem_map.1 h
    obtain ⟨rfl, rfl⟩ := Prod.mk.inj h
    obtain ⟨term, hterm, rfl⟩ := List.mem_map.1 (List.mem_of_mem_filter hphrase)
    exact .inl ⟨f, hf, hfilterable, rfl, option, hoption, henabled, rfl, term, hterm, rfl⟩
  · obtain ⟨x, hx, h⟩ := List.mem_map.1 h
    obtain ⟨rfl, rfl⟩ := Prod.mk.inj h
    exact .inr ⟨x, hx, rfl, rfl⟩

theorem mem_singlePhrases : phrase ∈ singlePhrases lib k ↔
    phrase ∈ phrases lib k ∧ ' ' ∉ phrase.toList ∧ 4 ≤ phrase.length := by
  rw [singlePhrases, List.mem_filter, decide_eq_true_eq]

/-! ## Corrections -/

theorem betterMatch_cases {token : String} (best : Option String × ℚ) (phrase : String) :
    betterMatch lib token best phrase = best ∨
      betterMatch lib token best phrase = (some phrase, fuzzyProbability lib token phrase) := by
  unfold betterMatch
  by_cases hskip : Incomparable token phrase
  · exact .inl (if_pos hskip)
  · rw [if_neg hskip]
    by_cases hbetter : best.2 < fuzzyProbability lib token phrase
    · exact .inr (if_pos hbetter)
    · exact .inl (if_neg hbetter)

theorem foldl_betterMatch {token : String} {vocabulary : List String} {best : Option String × ℚ} :
    vocabulary.foldl (betterMatch lib token) best = best ∨ ∃ phrase ∈ vocabulary,
      vocabulary.foldl (betterMatch lib token) best = (some phrase, fuzzyProbability lib token phrase) := by
  induction vocabulary generalizing best with
  | nil => exact .inl rfl
  | cons x vocabulary ih =>
    rw [List.foldl_cons]
    rcases @ih (betterMatch lib token best x) with h | ⟨phrase, hphrase, h⟩
    · rw [h]
      exact (betterMatch_cases best x).imp id fun heq => ⟨x, List.mem_cons_self, heq⟩
    · exact .inr ⟨phrase, List.mem_cons_of_mem _ hphrase, h⟩

theorem bestFuzzyMatch_spec {token : String} {vocabulary : List String} {p : ℚ}
    (h : bestFuzzyMatch lib token vocabulary = (some phrase, p)) :
    phrase ∈ vocabulary ∧ p = fuzzyProbability lib token phrase := by
  rw [bestFuzzyMatch] at h
  rcases @foldl_betterMatch lib token vocabulary (none, 0) with hbest | ⟨x, hx, hbest⟩
  · rw [hbest] at h
    cases h
  · rw [hbest] at h
    obtain ⟨hphrase, hp⟩ := Prod.mk.inj h
    obtain rfl := Option.some.inj hphrase
    exact ⟨hx, hp.symm⟩

/-- What is known of a correction that the similarity of words made. -/
theorem similarCorrection_spec {token : String} {c : Correction}
    (h : similarCorrection lib k visit token = some c) :
    c.token = token ∧ c.method = .similarity ∧ c.probability = fuzzyProbability lib c.token c.word ∧
      79 / 100 ≤ c.probability := by
  unfold similarCorrection at h
  split at h
  · cases h
  · obtain ⟨x, hx, rfl⟩ := Option.map_eq_some_iff.1 h
    unfold acceptedMatch at hx
    split at hx
    · rename_i phrase p hbest
      split at hx
      · rename_i haccepted
        obtain rfl := Option.some.inj hx
        exact ⟨rfl, rfl, (bestFuzzyMatch_spec hbest).2, haccepted.2⟩
      · cases hx
    · cases hx

theorem mem_corrections {tokens : List String} {c : Correction} (h : c ∈ corrections lib k visit tokens)
    (hmethod : c.method = .similarity) :
    c.token ∈ tokens ∧ c.probability = fuzzyProbability lib c.token c.word ∧ 79 / 100 ≤ c.probability := by
  rcases List.mem_append.1 h with h | h
  · obtain ⟨token, -, hc⟩ := List.mem_filterMap.1 h
    obtain ⟨word, -, rfl⟩ := Option.map_eq_some_iff.1 hc
    cases hmethod
  · obtain ⟨token, htoken, hc⟩ := List.mem_filterMap.1 h
    obtain ⟨rfl, -, hprobability, hle⟩ := similarCorrection_spec hc
    exact ⟨List.mem_eraseDups.1 htoken, hprobability, hle⟩

/-- Nothing is corrected when no token has an alias or is similar to another word. -/
theorem corrections_eq_nil {tokens : List String}
    (h : ∀ token ∈ tokens, aliasCorrection token = none ∧ similarCorrection lib k visit token = none) :
    corrections lib k visit tokens = [] := by
  rw [corrections, List.append_eq_nil_iff, List.filterMap_eq_nil_iff, List.filterMap_eq_nil_iff]
  exact ⟨fun token ht => (h token (List.mem_eraseDups.1 ht)).1,
    fun token ht => (h token (List.mem_eraseDups.1 ht)).2⟩

/-- A word of the vocabulary is not corrected. -/
theorem similarCorrection_of_mem {token : String} (h : token ∈ fuzzyVocabulary lib k) :
    similarCorrection lib k visit token = none := if_pos (.inr (.inr (.inr h)))

theorem similarCorrection_of_phrase {token : String} (h : token ∈ singlePhrases lib k) :
    similarCorrection lib k visit token = none :=
  similarCorrection_of_mem (List.mem_eraseDups.2
    (List.mem_append_left _ (List.mem_append_left _ (List.mem_append_left _ h))))

theorem similarCorrection_of_learned {token : String} (h : token ∈ k.model.nodes.map (·.1))
    (hnormal : lib.normalizeQuery token = token)
    (hword : ' ' ∉ token.toList ∧ 4 ≤ token.length ∧ token.length ≤ 32) :
    similarCorrection lib k visit token = none := by
  have hlearned : token ∈ learnedSinglePhrases lib k :=
    List.mem_map.2 ⟨token, List.mem_filter.2 ⟨h, decide_eq_true hword⟩, hnormal⟩
  exact similarCorrection_of_mem
    (List.mem_eraseDups.2 (List.mem_append_left _ (List.mem_append_left _ (List.mem_append_right _ hlearned))))

theorem similarCorrection_of_short {token : String} (h : token.length < 4) :
    similarCorrection lib k visit token = none := if_pos (.inl h)

theorem reading_eq {rawQuery query : String} {tokens : List String}
    (hquery : lib.normalizeQuery rawQuery = query) (htokens : lib.tokenize query = tokens)
    (h : ∀ token ∈ tokens, aliasCorrection token = none ∧ similarCorrection lib k visit token = none) :
    reading lib k visit rawQuery = ⟨query, tokens, []⟩ := by
  simp only [reading, hquery, htokens, corrections_eq_nil h]

/-! ## Hints -/

variable {r : Reading} {h : Hint}

theorem mem_phraseHints : h ∈ phraseHints lib k query ↔ ∃ phrase n, lib.containsPhrase query phrase ∧
    n ∈ namings lib k phrase ∧ h = phraseHint phrase n := by
  rw [phraseHints, List.mem_flatMap]
  constructor
  · rintro ⟨phrase, hphrase, hh⟩
    obtain ⟨n, hn, rfl⟩ := List.mem_map.1 hh
    exact ⟨phrase, n, (List.mem_filter.1 hphrase).2, hn, rfl⟩
  · rintro ⟨phrase, n, hcontains, hn, rfl⟩
    have hmem : phrase ∈ phrases lib k :=
      List.mem_eraseDups.2 (List.mem_map.2 ⟨(phrase, n), mem_namings.1 hn, rfl⟩)
    exact ⟨phrase, List.mem_filter.2 ⟨(List.mem_insertionSort _).2 hmem, hcontains⟩,
      List.mem_map.2 ⟨n, hn, rfl⟩⟩

theorem mem_fuzzyHints {corrections : List Correction} : h ∈ fuzzyHints lib k corrections ↔
    ∃ c ∈ corrections, c.method = .similarity ∧ c.word ∈ singlePhrases lib k ∧
      ∃ n ∈ namings lib k c.word, h = fuzzyHint c n := by
  rw [fuzzyHints, List.mem_flatMap]
  constructor
  · rintro ⟨c, hc, hh⟩
    obtain ⟨hc, hmethod⟩ := List.mem_filter.1 hc
    split at hh
    · rename_i hword
      obtain ⟨n, hn, rfl⟩ := List.mem_map.1 hh
      exact ⟨c, hc, of_decide_eq_true hmethod, hword, n, hn, rfl⟩
    · exact absurd hh List.not_mem_nil
  · rintro ⟨c, hc, hmethod, hword, n, hn, rfl⟩
    refine ⟨c, List.mem_filter.2 ⟨hc, decide_eq_true hmethod⟩, ?_⟩
    rw [if_pos hword]
    exact List.mem_map.2 ⟨n, hn, rfl⟩

theorem soft_of_mem_learnedHints {tokens : List String} (hh : h ∈ learnedHints k visit tokens) :
    h.hardEligible = false := by
  obtain ⟨feature, -, hh⟩ := List.mem_flatMap.1 hh
  unfold featureHints at hh
  split at hh
  · exact absurd hh List.not_mem_nil
  · obtain ⟨e, -, rfl⟩ := List.mem_map.1 hh
    rfl

theorem soft_of_mem_contextHints (hh : h ∈ contextHints lib k query) : h.hardEligible = false := by
  obtain ⟨x, -, rfl⟩ := List.mem_map.1 hh
  rfl

/-- A hint that makes its value eligible comes from a phrase or from a correction. -/
theorem hard_hint (hh : h ∈ r.hints lib k visit) (hhard : h.hardEligible) :
    h ∈ phraseHints lib k r.query ∨ h ∈ fuzzyHints lib k r.corrections := by
  rw [Reading.hints, List.mem_append, List.mem_append, List.mem_append] at hh
  rcases hh with ((hh | hh) | hh) | hh
  · exact .inl hh
  · exact .inr hh
  · rw [soft_of_mem_learnedHints hh] at hhard
    cases hhard
  · rw [soft_of_mem_contextHints hh] at hhard
    cases hhard

/-- A candidate that is eligible has a hint that made it so. -/
theorem exists_hard_hint {x : Tag × Candidate} (hx : x ∈ r.finalCandidates lib k visit)
    (hhard : x.2.hardEligible) :
    ∃ h ∈ r.hints lib k visit, h.Admitted lib k r.query ∧ h.tag = x.1 ∧ h.hardEligible := by
  obtain ⟨y, hy, htag, -, -, heligible⟩ := exists_of_mem_boosted hx
  obtain ⟨-, hjoined⟩ := mem_foldl_add.1 hy
  rw [heligible, hjoined, Candidate.joinAll_hardEligible] at hhard
  obtain ⟨h, hh, hhard⟩ := List.any_eq_true.1 hhard
  obtain ⟨hh, hadmitted, htag'⟩ := mem_admitted.1 hh
  exact ⟨h, hh, hadmitted, htag'.trans htag.symm, hhard⟩

end Proofs

end Search

end Stylme
