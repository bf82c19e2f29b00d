-- SUMMARY: What negates a hint: a negator in front of its phrase, also one that only ends a longer word.
import Stylme.Properties.ShopperWords

/-!
# Negation

`_negated` does not ask for a boundary before the negator, so that every word that ends like one
negates what follows it.
-/

namespace Stylme

open Conc Backend Catalogue Reconciler

namespace Search

variable (lib : Library)

/-! ## Negators before a phrase -/

/-- Blanks, or one word between blanks. -/
def Gap (text : List Char) : Prop :=
  ∃ blanks rest, text = blanks ++ rest ∧ (blanks ≠ [] ∧ ∀ c ∈ blanks, lib.isSpace c) ∧
    (rest = [] ∨ ∃ word blanks', rest = word ++ blanks' ∧ (word ≠ [] ∧ ∀ c ∈ word, lib.wordChar c) ∧
      (blanks' ≠ [] ∧ ∀ c ∈ blanks', lib.isSpace c))

/-- A negator stands after `start`, at most one word before the phrase, which no word goes on from. -/
def NegatorAfter (start : List Char) (query phrase : String) : Prop :=
  ∃ negator ∈ negators, ∃ gap after, query.toList = start ++ (negator.toList ++ gap ++ phrase.toList) ++ after ∧
    Gap lib gap ∧ ¬ after.head?.any lib.wordChar

/-- A negator stands as a word of its own before the phrase. -/
def NegatedByWord (query phrase : String) : Prop :=
  ∃ start, ¬ start.getLast?.any lib.wordChar ∧ NegatorAfter lib start query phrase

/-- A longer word before the phrase ends like a negator. -/
def NegatedByEnding (query phrase : String) : Prop :=
  ∃ start, start.getLast?.any lib.wordChar ∧ NegatorAfter lib start query phrase

variable {lib} {k : Knowledge} {visit : Visits} {query phrase : String}

theorem matches_negation {before : Option Char} {text rest : List Char} :
    (lib.negation phrase).Matches before text rest ↔ ∃ negator ∈ negators, ∃ gap,
      text = negator.toList ++ gap ++ phrase.toList ∧ Gap lib gap ∧ ¬ rest.head?.any lib.wordChar := by
  unfold Library.negation
  constructor
  · rintro ⟨negator, l₁, rfl, hnegator, blanks, l₂, rfl, hblanks, word, l₃, rfl, hword, phrase', l₄, rfl,
      hphrase, rfl, hafter⟩
    obtain ⟨r, hr, hnegator⟩ := Regex.matches_any.1 hnegator
    obtain ⟨n, hn, rfl⟩ := List.mem_map.1 hr
    obtain rfl := Regex.matches_litBy.1 hnegator
    obtain rfl := Regex.matches_litBy.1 hphrase
    refine ⟨n, hn, blanks ++ word, by simp only [List.append_assoc, List.append_nil],
      ⟨blanks, word, rfl, Regex.matches_some1.1 hblanks, ?_⟩, hafter⟩
    rcases Regex.matches_opt.1 hword with ⟨w, blanks', rfl, hw, hblanks'⟩ | rfl
    · exact .inr ⟨w, blanks', rfl, Regex.matches_some1.1 hw, Regex.matches_some1.1 hblanks'⟩
    · exact .inl rfl
  · rintro ⟨n, hn, gap, rfl, ⟨blanks, word, rfl, hblanks, hword⟩, hafter⟩
    refine ⟨n.toList, blanks ++ (word ++ phrase.toList), by simp only [List.append_assoc],
      Regex.matches_any.2 ⟨_, List.mem_map.2 ⟨n, hn, rfl⟩, Regex.matches_litBy.2 rfl⟩,
      blanks, word ++ phrase.toList, rfl, Regex.matches_some1.2 hblanks, word, phrase.toList, rfl, ?_,
      phrase.toList, [], (List.append_nil _).symm, Regex.matches_litBy.2 rfl, rfl, hafter⟩
    rcases hword with rfl | ⟨w, blanks', rfl, hw, hblanks'⟩
    · exact .inr rfl
    · exact .inl ⟨w, blanks', rfl, Regex.matches_some1.2 hw, Regex.matches_some1.2 hblanks'⟩

/-- The test accepts both. -/
theorem negated_iff : lib.negated query phrase ↔
    NegatedByWord lib query phrase ∨ NegatedByEnding lib query phrase := by
  have hanywhere : lib.negated query phrase ↔ ∃ start, NegatorAfter lib start query phrase := by
    rw [Library.negated, Regex.search_isSome]
    constructor
    · rintro ⟨start, text, after, hquery, hmatch⟩
      obtain ⟨n, hn, gap, rfl, hgap, hafter⟩ := matches_negation.1 hmatch
      exact ⟨start, n, hn, gap, after, hquery, hgap, hafter⟩
    · rintro ⟨start, n, hn, gap, after, hquery, hgap, hafter⟩
      exact ⟨start, _, after, hquery, matches_negation.2 ⟨n, hn, gap, rfl, hgap, hafter⟩⟩
  rw [hanywhere, NegatedByWord, NegatedByEnding, ← exists_or]
  refine exists_congr fun start => ?_
  rw [← or_and_right, or_comm, and_iff_right (Classical.em _)]

/-- The test with a boundary before the negator. -/
theorem negatedByWord_iff : NegatedByWord lib query phrase ↔
    ((Regex.seq (.notAfter lib.wordChar) (lib.negation phrase)).search none query.toList).isSome := by
  rw [Regex.search_isSome]
  constructor
  · rintro ⟨start, hstart, n, hn, gap, after, hquery, hgap, hafter⟩
    refine ⟨start, _, after, hquery, [], _, rfl, ⟨rfl, ?_⟩, matches_negation.2 ⟨n, hn, gap, rfl, hgap, hafter⟩⟩
    rwa [lastOr_none]
  · rintro ⟨start, text, after, hquery, l₁, l₂, rfl, ⟨rfl, hstart⟩, hmatch⟩
    obtain ⟨n, hn, gap, rfl, hgap, hafter⟩ := matches_negation.1 hmatch
    rw [lastOr_none] at hstart
    exact ⟨start, hstart, n, hn, gap, after, hquery, hgap, hafter⟩

/-! ## Discarded hints -/

variable (lib k visit) in
/-- The value of the hint is allowed, and yet the table does not have its evidence. -/
def Discarded (r : Reading) (h : Hint) : Prop :=
  h.value ∈ k.allowed h.field ∧
    ∀ x ∈ r.candidates lib k visit, x.1 = h.tag → h.evidence ∉ x.2.evidence

variable {r : Reading} {h : Hint}

theorem discarded_iff_negated (hh : h ∈ r.hints lib k visit) :
    Discarded lib k visit r h ↔ h.value ∈ k.allowed h.field ∧ lib.negated r.query h.phrase := by
  refine and_congr_right fun hallowed => ?_
  constructor
  · intro hnone
    by_contra hnot
    have hmem : h ∈ admitted lib k r.query (r.hints lib k visit) h.tag :=
      mem_admitted.2 ⟨hh, ⟨hallowed, hnot⟩, rfl⟩
    have hx : (h.tag, Candidate.empty.joinAll (admitted lib k r.query (r.hints lib k visit) h.tag)) ∈
        r.candidates lib k visit := mem_foldl_add.2 ⟨List.ne_nil_of_mem hmem, rfl⟩
    refine hnone _ hx rfl ?_
    exact Candidate.mem_joinAll_evidence.2 (.inr ⟨h, hmem, rfl⟩)
  · intro hnegated x hx _ hevidence
    rw [(mem_foldl_add.1 hx).2, Candidate.mem_joinAll_evidence] at hevidence
    rcases hevidence with hevidence | ⟨h', hh', heq⟩
    · exact absurd hevidence List.not_mem_nil
    · have hphrase : h'.phrase = h.phrase := congrArg Evidence.phrase heq
      have hadmitted := (mem_admitted.1 hh').2.1.2
      rw [hphrase] at hadmitted
      exact hadmitted hnegated

/-- A hint of an allowed value is discarded only for a negating word exactly when no longer word
that ends like a negator does what no negating word does. -/
theorem discarded_negatedByWord_iff {rawQuery : String}
    (hh : h ∈ (reading lib k visit rawQuery).hints lib k visit) :
    (Discarded lib k visit (reading lib k visit rawQuery) h →
      NegatedByWord lib (lib.normalizeQuery rawQuery) h.phrase) ↔
    (h.value ∈ k.allowed h.field → NegatedByEnding lib (lib.normalizeQuery rawQuery) h.phrase →
      NegatedByWord lib (lib.normalizeQuery rawQuery) h.phrase) := by
  rw [discarded_iff_negated hh, reading_query, negated_iff]
  constructor
  · exact fun hword hallowed hending => hword ⟨hallowed, .inr hending⟩
  · rintro hending ⟨hallowed, hword | hsuffix⟩
    · exact hword
    · exact hending hallowed hsuffix

end Search

namespace Sample

namespace Search

open Stylme.Search

/-- What the alias of the kurtas adds for a query. -/
def kurtaHint : Hint := phraseHint "kurta" ⟨"product_type", "kurtas", .alias⟩

theorem kurtaHint_mem {rawQuery : String}
    (h : library.containsPhrase (library.normalizeQuery rawQuery) "kurta") :
    kurtaHint ∈ (reading library (knowledge []) visits rawQuery).hints library (knowledge []) visits := by
  have halias : ("kurta", "product_type", "kurtas") ∈ phraseAliases := by simp [phraseAliases]
  have hnormal : library.normalizeQuery "kurta" = "kurta" := by decide +kernel
  have hindex : ("kurta", (⟨"product_type", "kurtas", .alias⟩ : Naming)) ∈
      phraseIndex library (knowledge []) :=
    List.mem_append_right _ (List.mem_map.2 ⟨_, halias, by rw [hnormal]⟩)
  have hphrase := mem_phraseHints.2 ⟨"kurta", _, h, mem_namings.2 hindex, rfl⟩
  rw [Reading.hints, reading_query]
  exact List.mem_append_left _ (List.mem_append_left _ (List.mem_append_left _ hphrase))

end Search

end Sample

namespace Search

open Sample.Search in
/-- A negator that stands alone discards the kurtas. -/
theorem discarded_negatedByWord_iff_kurta :
    Discarded library (knowledge []) visits (reading library (knowledge []) visits "not a kurta") kurtaHint ∧
      NegatedByWord library (library.normalizeQuery "not a kurta") "kurta" := by
  have hmem : kurtaHint ∈ (reading library (knowledge []) visits "not a kurta").hints library (knowledge []) visits :=
    kurtaHint_mem (by decide +kernel)
  have hallowed : kurtaHint.value ∈ (knowledge []).allowed kurtaHint.field := by decide +kernel
  have hnegated : library.negated (library.normalizeQuery "not a kurta") "kurta" := by decide +kernel
  have hdiscarded : Discarded library (knowledge []) visits (reading library (knowledge []) visits "not a kurta")
      kurtaHint := by
    refine (discarded_iff_negated hmem).2 ⟨hallowed, ?_⟩
    rw [reading_query]
    exact hnegated
  refine ⟨hdiscarded, (discarded_negatedByWord_iff hmem).2 (fun _ _ => ?_) hdiscarded⟩
  exact negatedByWord_iff.2 (by decide +kernel)

open Sample.Search in
/-- A knot discards the kurtas as well. -/
theorem not_discarded_negatedByWord :
    Discarded library (knowledge []) visits (reading library (knowledge []) visits "knot kurta") kurtaHint ∧
      ¬ NegatedByWord library (library.normalizeQuery "knot kurta") "kurta" := by
  have hallowed : kurtaHint.value ∈ (knowledge []).allowed kurtaHint.field := by decide +kernel
  have hnegated : library.negated (library.normalizeQuery "knot kurta") "kurta" := by decide +kernel
  refine ⟨(discarded_iff_negated (kurtaHint_mem (by decide +kernel))).2 ⟨hallowed, ?_⟩, fun h => ?_⟩
  · rw [reading_query]
    exact hnegated
  · have hnot : ¬ ((Regex.seq (.notAfter library.wordChar) (library.negation "kurta")).search none
        (library.normalizeQuery "knot kurta").toList).isSome := by
      decide +kernel
    exact hnot (negatedByWord_iff.1 h)

end Search

end Stylme
