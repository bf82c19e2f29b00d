-- SUMMARY: Which words of a query are left out of every filter and of the lexical query.
import Stylme.Properties.ShopperWords
import Stylme.Search.Occurrences

/-!
# The words that are dropped

A token leaves the residual text if a structured use accounts for it. It also leaves it when its
correction looks like a pincode, whether or not it is a number.
-/

namespace Stylme

open Conc Backend Catalogue Reconciler

namespace Search

variable (lib : Library) (k : Knowledge)

/-! ## What accounts for a token -/

/-- The token is a stop word, a control word or a numeral, or stands in a recognised phrase. -/
def UsedElsewhere (r : Reading) (candidates : Candidates) (token : String) : Prop :=
  (token ∈ stopWords ∨ correct r.corrections token ∈ stopWords) ∨
    (token ∈ controlWords ∨ correct r.corrections token ∈ controlWords) ∨ lib.isNumeral token ∨
    ∃ phrase ∈ recognizedPhrases lib k r.query candidates, token ∈ lib.tokenize phrase

/-- The text of `lexical_query` before the cut -/
def lexicalText (r : Reading) (candidates : Candidates) (structured : Bool) : String :=
  if ¬ structured ∧ residual lib k r candidates = [] then r.query
  else " ".intercalate (residual lib k r candidates).eraseDups

/-- The words of that text -/
def lexicalWords (r : Reading) (candidates : Candidates) (structured : Bool) : List String :=
  if ¬ structured ∧ residual lib k r candidates = [] then r.tokens
  else (residual lib k r candidates).eraseDups

/-- The correction is recognised, a numeral, or of the length of a pincode. -/
def DroppedByForm (r : Reading) (candidates : Candidates) (word : String) : Prop :=
  (∃ phrase ∈ recognizedPhrases lib k r.query candidates, word ∈ lib.tokenize phrase) ∨
    lib.isNumeral word ∨ pincodeShaped word

section Proofs

variable {lib k} {visit : Visits} {r : Reading} {candidates : Candidates} {structured : Bool}
  {token word : String}

theorem mem_recognizedTokens : token ∈ recognizedTokens lib k r.query candidates ↔
    ∃ phrase ∈ recognizedPhrases lib k r.query candidates, token ∈ lib.tokenize phrase :=
  List.mem_flatMap

/-- A token is dropped when it is used elsewhere or because of the form of its correction. -/
theorem dropped_iff : Dropped lib (recognizedTokens lib k r.query candidates) token
      (correct r.corrections token) ↔
    ((token ∈ stopWords ∨ correct r.corrections token ∈ stopWords) ∨
      (token ∈ controlWords ∨ correct r.corrections token ∈ controlWords) ∨
      ∃ phrase ∈ recognizedPhrases lib k r.query candidates, token ∈ lib.tokenize phrase) ∨
    DroppedByForm lib k r candidates (correct r.corrections token) := by
  rw [Dropped, DroppedByForm, mem_recognizedTokens, mem_recognizedTokens]
  constructor
  · rintro (h | h | h | h | h | h | h)
    · exact .inl (.inr (.inr h))
    · exact .inr (.inl h)
    · exact .inl (.inl (.inl h))
    · exact .inl (.inl (.inr h))
    · exact .inl (.inr (.inl (.inl h)))
    · exact .inl (.inr (.inl (.inr h)))
    · exact .inr (.inr h)
  · rintro (((h | h) | (h | h) | h) | h | h)
    · exact .inr (.inr (.inl h))
    · exact .inr (.inr (.inr (.inl h)))
    · exact .inr (.inr (.inr (.inr (.inl h))))
    · exact .inr (.inr (.inr (.inr (.inr (.inl h)))))
    · exact .inl h
    · exact .inr (.inl h)
    · exact .inr (.inr (.inr (.inr (.inr (.inr h)))))

theorem mem_residual : word ∈ residual lib k r candidates ↔ ∃ token ∈ r.tokens,
    ¬ Dropped lib (recognizedTokens lib k r.query candidates) token (correct r.corrections token) ∧
      correct r.corrections token = word := by
  rw [residual, List.mem_map]
  simp only [List.mem_filter, decide_eq_true_eq, and_assoc]

/-- A token without another use stays exactly if the form of its correction allows it. -/
theorem mem_residual_iff (ht : token ∈ r.tokens) (hused : ¬ UsedElsewhere lib k r candidates token) :
    correct r.corrections token ∈ residual lib k r candidates ↔
      ¬ DroppedByForm lib k r candidates (correct r.corrections token) := by
  rw [mem_residual]
  constructor
  · rintro ⟨token', -, hkept, heq⟩ hform
    exact hkept (dropped_iff.2 (.inr (heq ▸ hform)))
  · intro hform
    refine ⟨token, ht, fun hdropped => ?_, rfl⟩
    rcases dropped_iff.1 hdropped with hother | hother
    · refine hused ?_
      rcases hother with h | h | h
      · exact .inl h
      · exact .inr (.inl h)
      · exact .inr (.inr (.inr h))
    · exact hform hother

/-! ## The lexical query -/

theorem scan_ne_nil {begins inner : Char → Bool} {token text : List Char} {t : List Char}
    (h : t ∈ scan begins inner token text) : t ≠ [] := by
  induction text generalizing token with
  | nil =>
    rw [scan] at h
    split at h
    · exact absurd h List.not_mem_nil
    · rename_i hne
      rwa [List.mem_singleton.1 h]
  | cons c text ih =>
    rw [scan] at h
    split at h
    · exact ih h
    · rename_i hne
      split at h
      · exact ih h
      · rcases List.mem_cons.1 h with rfl | h
        · exact hne
        · exact ih h

theorem ne_empty_of_mem_tokenize {text : String} (h : token ∈ lib.tokenize text) : token ≠ "" := by
  obtain ⟨t, ht, rfl⟩ := List.mem_map.1 h
  intro hempty
  exact scan_ne_nil ht (String.ofList_eq_empty_iff.1 hempty)

theorem correction_ne_empty {tokens : List String} {c : Correction}
    (h : c ∈ corrections lib k visit tokens) : c.word ≠ "" := by
  rcases List.mem_append.1 h with h | h
  · obtain ⟨token, -, hc⟩ := List.mem_filterMap.1 h
    obtain ⟨word, hword, rfl⟩ := Option.map_eq_some_iff.1 hc
    have hall : ∀ x ∈ spellingAliases, x.2 ≠ "" := by decide
    exact hall _ (mem_of_lookup hword)
  · obtain ⟨token, -, hc⟩ := List.mem_filterMap.1 h
    unfold similarCorrection at hc
    split at hc
    · cases hc
    · obtain ⟨x, hx, rfl⟩ := Option.map_eq_some_iff.1 hc
      unfold acceptedMatch at hx
      split at hx
      · split at hx
        · rename_i haccepted
          obtain rfl := Option.some.inj hx
          exact haccepted.1
        · cases hx
      · cases hx

theorem correct_ne_empty {tokens : List String} (ht : token ≠ "") :
    correct (corrections lib k visit tokens) token ≠ "" := by
  unfold correct
  cases hfind : (corrections lib k visit tokens).find? (·.token = token) with
  | none => exact ht
  | some c => exact correction_ne_empty (List.mem_of_find?_eq_some hfind)

theorem intercalate_ne_empty {words : List String} (hne : words ≠ []) (hwords : ∀ w ∈ words, w ≠ "") :
    " ".intercalate words ≠ "" := by
  obtain ⟨w, words, rfl⟩ := List.exists_cons_of_ne_nil hne
  have hw : w ≠ "" := hwords w List.mem_cons_self
  cases words with
  | nil => rwa [String.intercalate_singleton]
  | cons v words =>
    rw [String.intercalate_cons_cons]
    intro h
    exact hw (String.append_eq_empty_iff.1 (String.append_eq_empty_iff.1 h).1).1

theorem cut_eq_empty_iff {text : String} : cut 100 text = "" ↔ text = "" := by
  unfold cut
  rw [String.ofList_eq_empty_iff, List.take_eq_nil_iff, String.toList_eq_nil_iff]
  simp

/-- The lexical query is the beginning of its text. -/
theorem lexicalQuery_eq (hwords : ∀ w ∈ residual lib k r candidates, w ≠ "") :
    lexicalQuery lib k r candidates structured = cut 100 (lexicalText lib k r candidates structured) := by
  have hempty : cut 100 (" ".intercalate (residual lib k r candidates).eraseDups) = "" ↔
      residual lib k r candidates = [] := by
    rw [cut_eq_empty_iff]
    constructor
    · intro h
      by_contra hne
      obtain ⟨w, hw⟩ := List.exists_mem_of_ne_nil _ hne
      exact intercalate_ne_empty (List.ne_nil_of_mem (List.mem_eraseDups.2 hw))
        (fun v hv => hwords v (List.mem_eraseDups.1 hv)) h
    · intro h
      rw [h]
      rfl
  simp only [lexicalQuery, lexicalText, hempty]
  split
  · rfl
  · rfl

/-- Every word of the text is found in it. -/
theorem mem_lexicalWords (ht : token ∈ r.tokens) (hused : ¬ UsedElsewhere lib k r candidates token) :
    correct r.corrections token ∈ lexicalWords lib k r candidates structured ↔
      if ¬ structured ∧ residual lib k r candidates = [] then correct r.corrections token ∈ r.tokens
      else ¬ DroppedByForm lib k r candidates (correct r.corrections token) := by
  unfold lexicalWords
  split
  · rfl
  · rw [List.mem_eraseDups, mem_residual_iff ht hused]

variable {rawQuery : String} {pincode : Option String} {swoopstyl : Bool} {intent : SearchIntent}

/-- A token is used elsewhere or its correction is in the lexical query, up to the cut, exactly when
its correction is not left out for its form, or stands in a query that is searched for as it is. -/
theorem compileSearchIntent_accounted_iff
    (hok : compileSearchIntent lib k visit rawQuery pincode swoopstyl = .ok intent)
    (ht : token ∈ lib.tokenize intent.normalizedQuery) :
    let r := reading lib k visit rawQuery
    let candidates := r.finalCandidates lib k visit
    let structured := intent.hardFilters.structured
    let word := correct r.corrections token
    intent.lexicalQuery = cut 100 (lexicalText lib k r candidates structured) ∧
    ((UsedElsewhere lib k r candidates token ∨ word ∈ lexicalWords lib k r candidates structured) ↔
      (¬ UsedElsewhere lib k r candidates token →
        if ¬ structured ∧ residual lib k r candidates = [] then word ∈ r.tokens
        else ¬ DroppedByForm lib k r candidates word)) := by
  obtain ⟨found, -, rfl⟩ := compileSearchIntent_eq_ok_iff.1 hok
  intro r candidates structured word
  have hwords : ∀ w ∈ residual lib k r candidates, w ≠ "" := by
    intro w hw
    obtain ⟨t, htoken, -, rfl⟩ := mem_residual.1 hw
    rw [reading_tokens] at htoken
    rw [reading_corrections]
    exact correct_ne_empty (ne_empty_of_mem_tokenize htoken)
  refine ⟨(intentOf_lexicalQuery ..).trans (lexicalQuery_eq hwords), ?_⟩
  have htoken : token ∈ r.tokens := by
    rw [intentOf_normalizedQuery, reading_query] at ht
    rwa [reading_tokens]
  constructor
  · rintro (hused | hword) hnot
    · exact absurd hused hnot
    · exact (mem_lexicalWords htoken hnot).1 hword
  · intro h
    by_cases hused : UsedElsewhere lib k r candidates token
    · exact .inl hused
    · exact .inr ((mem_lexicalWords htoken hused).2 (h hused))

end Proofs

end Search

namespace Sample

namespace Search

open Stylme.Search

/-- A service that knows the word `floral`, but nothing that it would imply. -/
def floral : Knowledge := knowledge [("floral", [])]

def redFloralQuery : PlainQuery :=
  ⟨"red floral", ["red", "floral"], by decide +kernel, by decide +kernel, by decide +kernel, by decide +kernel⟩

def redFloral : Reading := ⟨"red floral", ["red", "floral"], []⟩

/-- The candidate of a colour that the query names. -/
def redOnly : Candidates :=
  [(("color_family", "red"), ⟨96 / 100, [⟨.taxonomy, "red", 96 / 100⟩], 0, true⟩)]

theorem reading_redFloral : reading library floral visits "red floral" = redFloral := by
  refine redFloralQuery.reading_eq fun token htoken => ?_
  rcases List.mem_pair.1 htoken with rfl | rfl
  · exact similarCorrection_of_short (by decide +kernel)
  · exact similarCorrection_of_learned (List.mem_singleton.2 rfl) (by decide +kernel) (by decide +kernel)

theorem candidates_redFloral : redFloral.finalCandidates library floral visits = redOnly := by
  have hhints : redFloral.hints library floral visits =
      [phraseHint "red" ⟨"color_family", "red", .taxonomy⟩, phraseHint "red" ⟨"color_family", "red", .taxonomy⟩] :=
    redFloralQuery.hints_eq (by decide +kernel)
  have hcandidates : redFloral.candidates library floral visits = redOnly := by
    rw [Reading.candidates, hhints]
    decide +kernel
  rw [Reading.finalCandidates, hcandidates]
  decide +kernel

end Search

end Sample

namespace Search

open Sample.Search in
/-- A control word is used elsewhere. -/
theorem compileSearchIntent_accounted_iff_redMax : ∃ intent,
    compileSearchIntent library (knowledge []) visits "red max 500" none false = .ok intent ∧
    (UsedElsewhere library (knowledge []) (reading library (knowledge []) visits "red max 500")
        ((reading library (knowledge []) visits "red max 500").finalCandidates library (knowledge []) visits)
        "max" ∨
      correct (reading library (knowledge []) visits "red max 500").corrections "max" ∈
        lexicalWords library (knowledge []) (reading library (knowledge []) visits "red max 500")
          ((reading library (knowledge []) visits "red max 500").finalCandidates library (knowledge []) visits)
          intent.hardFilters.structured) := by
  obtain ⟨intent, hok⟩ := compiles_redMax
  have htoken : "max" ∈ library.tokenize intent.normalizedQuery := by
    obtain ⟨found, -, rfl⟩ := compileSearchIntent_eq_ok_iff.1 hok
    rw [intentOf_normalizedQuery, reading_query]
    decide +kernel
  refine ⟨intent, hok, (compileSearchIntent_accounted_iff hok htoken).2.2 fun hnot => ?_⟩
  exact absurd (.inr (.inl (.inl (by decide +kernel)))) hnot

open Sample.Search in
/-- `floral` has as many letters as a pincode has digits, and is in no filter and not searched for. -/
theorem not_compileSearchIntent_accounted : ∃ intent,
    compileSearchIntent library floral visits "red floral" none false = .ok intent ∧
    "floral" ∈ library.tokenize intent.normalizedQuery ∧ intent.lexicalQuery = "" ∧
    ¬ UsedElsewhere library floral redFloral redOnly "floral" ∧
    correct redFloral.corrections "floral" ∉
      lexicalWords library floral redFloral redOnly intent.hardFilters.structured := by
  have hprices : prices library redFloral.correctedQuery = .ok (none, none) :=
    eq_ok_of_toOption (by decide +kernel)
  have hok : compileSearchIntent library floral visits "red floral" none false =
      .ok (intentOf library floral visits redFloral none false (none, none)) := by
    refine compileSearchIntent_eq_ok_iff.2 ⟨(none, none), ?_, ?_⟩
    · rwa [reading_redFloral]
    · rw [reading_redFloral]
  have hstructured : (intentOf library floral visits redFloral none false (none, none)).hardFilters.structured := by
    rw [intentOf_hardFilters, candidates_redFloral]
    decide +kernel
  refine ⟨_, hok, ?_, ?_, ?_, ?_⟩
  · rw [intentOf_normalizedQuery]
    decide +kernel
  · rw [intentOf_lexicalQuery, hstructured, candidates_redFloral]
    decide +kernel
  · rintro (h | h | h | ⟨phrase, hphrase, h⟩)
    · exact absurd h (by decide +kernel)
    · exact absurd h (by decide +kernel)
    · exact absurd h (by decide +kernel)
    · have hrecognized : "floral" ∉ recognizedTokens library floral redFloral.query redOnly := by
        decide +kernel
      exact hrecognized (mem_recognizedTokens.2 ⟨phrase, hphrase, h⟩)
  · rw [hstructured]
    decide +kernel

end Search

end Stylme
