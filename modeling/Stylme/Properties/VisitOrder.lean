-- SUMMARY: When a query compiles to the same filters, words and ranking for every order in which its sets are visited.
import Stylme.Lib.Distinct
import Stylme.Search.Orders
import Stylme.Properties.ResidualWords

/-!
# Orders of sets

`fuzzy_vocabulary` and `query_features` are sets of strings, whose order changes from process to
process. The order decides which of several equally good corrections is made, and which of several
equally good learned values comes first.
-/

namespace Stylme

open Conc Backend Catalogue Reconciler

namespace Search

/-! ## The same outcome -/

/-- The same filters; `metadata` is a dictionary. -/
def HardFilters.Same (f f' : HardFilters) : Prop :=
  { f with metadata := [] } = { f' with metadata := [] } ∧ f.metadata.Perm f'.metadata

def SearchIntent.Same (intent intent' : SearchIntent) : Prop :=
  intent.hardFilters.Same intent'.hardFilters ∧ intent.lexicalQuery = intent'.lexicalQuery ∧
    ∀ e, e ∈ intent.rankingVector ↔ e ∈ intent'.rankingVector

/-- Both queries compile to the same, or raise the same. -/
def SameResult : Except Raised SearchIntent → Except Raised SearchIntent → Prop
  | .ok intent, .ok intent' => intent.Same intent'
  | .error e, .error e' => e = e'
  | _, _ => False

variable (lib : Library) (k : Knowledge) (visit : Visits)

/-! ## Ties -/

/-- The loop over the tokens looks for a word that is similar to the token. -/
def Sought (token : String) : Prop :=
  ¬ (token.length < 4 ∨ (spellingAliases.lookup token).isSome ∨ token ∈ stopWords ∨
    token ∈ fuzzyVocabulary lib k)

/-- No word of the vocabulary is more similar to the token, which is similar enough to be replaced. -/
def BestMatch (vocabulary : List String) (token word : String) : Prop :=
  word ∈ vocabulary ∧ ¬ Incomparable token word ∧ 79 / 100 ≤ fuzzyProbability lib token word ∧
    ∀ other ∈ vocabulary, ¬ Incomparable token other →
      fuzzyProbability lib token other ≤ fuzzyProbability lib token word

/-- At most one word is the best match of the token. -/
def UniqueMatch (token : String) : Prop :=
  ∀ word word', BestMatch lib (fuzzyVocabulary lib k) token word →
    BestMatch lib (fuzzyVocabulary lib k) token word' → word = word'

/-- The value of the first hint of the feature on a value that ranks highest in the field. -/
def leads (r : Reading) (field feature : String) : Option String :=
  ((featureHints k feature).find? fun h =>
    TopHint lib k r.query (r.finalCandidates lib k visit) field h).map (·.value)

/-- The field has an eligible candidate, or its features lead to one value. -/
def Agreed (r : Reading) (field : String) : Prop :=
  (∃ x ∈ itemsOf (r.finalCandidates lib k visit) field, x.2.hardEligible) ∨
    ∀ feature ∈ queryFeatures r.semanticTokens, ∀ feature' ∈ queryFeatures r.semanticTokens,
      ∀ value ∈ leads lib k visit r field feature, ∀ value' ∈ leads lib k visit r field feature', value = value'

variable {lib k visit} {visit' : Visits} {query field value rawQuery : String} {pincode : Option String}
  {swoopstyl : Bool} {intent : SearchIntent} {r : Reading}

/-! ## Corrections -/

section Corrections

variable {token : String} {vocabulary vocabulary' : List String} {best : Option String × ℚ}

theorem le_betterMatch {word : String} : best.2 ≤ (betterMatch lib token best word).2 ∧
    (¬ Incomparable token word → fuzzyProbability lib token word ≤ (betterMatch lib token best word).2) := by
  unfold betterMatch
  by_cases hskip : Incomparable token word
  · rw [if_pos hskip]
    exact ⟨le_rfl, fun h => absurd hskip h⟩
  · rw [if_neg hskip]
    split
    · rename_i hlt
      dsimp only
      exact ⟨hlt.le, fun _ => le_rfl⟩
    · rename_i hle
      exact ⟨le_rfl, fun _ => not_lt.1 hle⟩

theorem le_foldl_betterMatch : best.2 ≤ (vocabulary.foldl (betterMatch lib token) best).2 ∧
    ∀ word ∈ vocabulary, ¬ Incomparable token word →
      fuzzyProbability lib token word ≤ (vocabulary.foldl (betterMatch lib token) best).2 := by
  induction vocabulary generalizing best with
  | nil => exact ⟨le_rfl, nofun⟩
  | cons x vocabulary ih =>
    obtain ⟨hbest, hwords⟩ := @ih (betterMatch lib token best x)
    obtain ⟨hle, hx⟩ := @le_betterMatch lib token best x
    refine ⟨hle.trans hbest, fun word hword hcomparable => ?_⟩
    rcases List.mem_cons.1 hword with rfl | hword
    · exact (hx hcomparable).trans hbest
    · exact hwords word hword hcomparable

theorem foldl_betterMatch_comparable : vocabulary.foldl (betterMatch lib token) best = best ∨
    ∃ word ∈ vocabulary, ¬ Incomparable token word ∧
      vocabulary.foldl (betterMatch lib token) best = (some word, fuzzyProbability lib token word) := by
  induction vocabulary generalizing best with
  | nil => exact .inl rfl
  | cons x vocabulary ih =>
    rw [List.foldl_cons]
    rcases @ih (betterMatch lib token best x) with h | ⟨word, hword, hcomparable, h⟩
    · rw [h]
      by_cases hskip : Incomparable token x
      · exact .inl (if_pos hskip)
      · refine (betterMatch_cases best x).imp id fun heq => ⟨x, List.mem_cons_self, hskip, heq⟩
    · exact .inr ⟨word, List.mem_cons_of_mem _ hword, hcomparable, h⟩

theorem bestFuzzyMatch_le (h : vocabulary ⊆ vocabulary') :
    (bestFuzzyMatch lib token vocabulary).2 ≤ (bestFuzzyMatch lib token vocabulary').2 := by
  obtain ⟨hbest, hwords⟩ := @le_foldl_betterMatch lib token vocabulary' (none, 0)
  rw [bestFuzzyMatch, bestFuzzyMatch]
  rcases @foldl_betterMatch_comparable lib token vocabulary (none, 0) with heq | ⟨word, hword, hcomparable, heq⟩
  · rw [heq]
    dsimp only at hbest ⊢
    exact hbest
  · rw [heq]
    dsimp only
    exact hwords word (h hword) hcomparable

theorem bestMatch_of_bestFuzzyMatch {word : String} {p : ℚ}
    (h : bestFuzzyMatch lib token vocabulary = (some word, p)) (hp : 79 / 100 ≤ p) :
    BestMatch lib vocabulary token word := by
  obtain ⟨-, hwords⟩ := @le_foldl_betterMatch lib token vocabulary (none, 0)
  rw [bestFuzzyMatch] at h
  rw [h] at hwords
  dsimp only at hwords
  rcases @foldl_betterMatch_comparable lib token vocabulary (none, 0) with heq | ⟨x, hx, hcomparable, heq⟩
  · rw [h] at heq
    cases heq
  · rw [h] at heq
    obtain ⟨hword, rfl⟩ := Prod.mk.inj heq
    obtain rfl := Option.some.inj hword
    exact ⟨hx, hcomparable, hp, hwords⟩

theorem acceptedMatch_eq : acceptedMatch lib token vocabulary =
    (bestFuzzyMatch lib token vocabulary).1.bind fun word =>
      if word ≠ "" ∧ 79 / 100 ≤ (bestFuzzyMatch lib token vocabulary).2 then
        some (word, (bestFuzzyMatch lib token vocabulary).2)
      else none := by
  rw [acceptedMatch]
  obtain ⟨word, p⟩ := bestFuzzyMatch lib token vocabulary
  cases word <;> rfl

theorem exists_bestMatch (h : 79 / 100 ≤ (bestFuzzyMatch lib token vocabulary).2) :
    ∃ word, (bestFuzzyMatch lib token vocabulary).1 = some word ∧ BestMatch lib vocabulary token word := by
  obtain ⟨word, p, hbest⟩ : ∃ word p, bestFuzzyMatch lib token vocabulary = (word, p) := ⟨_, _, rfl⟩
  rw [hbest] at h ⊢
  cases word with
  | some word => exact ⟨word, rfl, bestMatch_of_bestFuzzyMatch hbest h⟩
  | none =>
    rw [bestFuzzyMatch] at hbest
    rcases @foldl_betterMatch_comparable lib token vocabulary (none, 0) with heq | ⟨x, -, -, heq⟩
    · rw [hbest] at heq
      rw [(Prod.mk.inj heq).2] at h
      norm_num at h
    · rw [hbest] at heq
      cases heq

/-- A token with one best match is corrected to it in every order of the vocabulary. -/
theorem acceptedMatch_perm (hunique : UniqueMatch lib k token)
    (hperm : vocabulary.Perm (fuzzyVocabulary lib k)) (hperm' : vocabulary'.Perm (fuzzyVocabulary lib k)) :
    acceptedMatch lib token vocabulary = acceptedMatch lib token vocabulary' := by
  have hsame : (bestFuzzyMatch lib token vocabulary).2 = (bestFuzzyMatch lib token vocabulary').2 :=
    le_antisymm (bestFuzzyMatch_le (hperm.trans hperm'.symm).subset)
      (bestFuzzyMatch_le (hperm'.trans hperm.symm).subset)
  have hbest : ∀ v : List String, v.Perm (fuzzyVocabulary lib k) → ∀ word, BestMatch lib v token word →
      BestMatch lib (fuzzyVocabulary lib k) token word := fun v hv word h =>
    ⟨hv.subset h.1, h.2.1, h.2.2.1, fun other hother => h.2.2.2 other (hv.symm.subset hother)⟩
  rw [acceptedMatch_eq, acceptedMatch_eq]
  by_cases hp : 79 / 100 ≤ (bestFuzzyMatch lib token vocabulary).2
  · obtain ⟨word, hword, hmatch⟩ := exists_bestMatch hp
    obtain ⟨word', hword', hmatch'⟩ := exists_bestMatch (hsame ▸ hp)
    have heq := hunique word word' (hbest _ hperm word hmatch) (hbest _ hperm' word' hmatch')
    rw [hword, hword', heq, hsame]
  · have hnone : ∀ word : Option String, ∀ p : ℚ, ¬ 79 / 100 ≤ p →
        (word.bind fun word => if word ≠ "" ∧ 79 / 100 ≤ p then some (word, p) else none) = none := by
      intro word p hnot
      cases word with
      | none => rfl
      | some word => exact if_neg fun h => hnot h.2
    rw [hnone _ _ hp, hnone _ _ (hsame ▸ hp)]

theorem similarCorrection_perm (hunique : Sought lib k token → UniqueMatch lib k token) :
    similarCorrection lib k visit token = similarCorrection lib k visit' token := by
  by_cases hsought : Sought lib k token
  · rw [similarCorrection, similarCorrection, if_neg hsought, if_neg hsought,
      acceptedMatch_perm (hunique hsought) (visit.vocabulary_perm _) (visit'.vocabulary_perm _)]
  · rw [similarCorrection, similarCorrection, if_pos (not_not.1 hsought), if_pos (not_not.1 hsought)]

theorem reading_perm
    (hunique : ∀ token ∈ lib.tokenize (lib.normalizeQuery rawQuery), Sought lib k token → UniqueMatch lib k token) :
    reading lib k visit rawQuery = reading lib k visit' rawQuery := by
  have hsimilar : (lib.tokenize (lib.normalizeQuery rawQuery)).eraseDups.filterMap
        (similarCorrection lib k visit) =
      (lib.tokenize (lib.normalizeQuery rawQuery)).eraseDups.filterMap (similarCorrection lib k visit') :=
    List.filterMap_congr fun token htoken =>
      similarCorrection_perm (hunique token (List.mem_eraseDups.1 htoken))
  simp only [reading, corrections, hsimilar]

end Corrections

/-! ## The first of the best -/

section Tops

theorem rank_eq_of_bare {c c' : Candidate} (h : c'.bare = c.bare) : rank (value, c') = rank (value, c) := by
  obtain ⟨hscore, -, hsupport, -⟩ := Candidate.mk.inj h
  rw [rank, rank, hscore, hsupport]

theorem tops_of_tops (h : Tops (r.finalCandidates lib k visit) field value) :
    Tops (r.finalCandidates lib k visit') field value := by
  obtain ⟨⟨v, c⟩, hx, rfl, hmax⟩ := h
  obtain ⟨c', hc', hbare, -⟩ := @mem_itemsOf_perm lib k visit visit' r _ _ c hx
  refine ⟨(v, c'), hc', rfl, fun y hy => ?_⟩
  obtain ⟨c'', hc'', hbare', -⟩ := @mem_itemsOf_perm lib k visit' visit r _ y.1 y.2 hy
  rw [rank_eq_of_bare hbare, ← rank_eq_of_bare (c := y.2) hbare']
  exact hmax _ hc''

theorem topHint_perm :
    (fun h => decide (TopHint lib k r.query (r.finalCandidates lib k visit) field h)) =
      fun h => decide (TopHint lib k r.query (r.finalCandidates lib k visit') field h) := by
  funext h
  refine decide_eq_decide.2 (and_congr_right fun _ => and_congr_right fun _ => ?_)
  exact ⟨tops_of_tops, tops_of_tops⟩

theorem leads_perm : leads lib k visit r field = leads lib k visit' r field := by
  funext feature
  rw [leads, leads, topHint_perm]

theorem soft_front (hsoft : ¬ ∃ x ∈ itemsOf (r.finalCandidates lib k visit) field, x.2.hardEligible) :
    (phraseHints lib k r.query ++ fuzzyHints lib k r.corrections).find?
      (fun h => TopHint lib k r.query (r.finalCandidates lib k visit) field h) = none := by
  refine List.find?_eq_none.2 fun h hh htop => hsoft ?_
  obtain ⟨hadmitted, rfl, x, hx, hvalue, -⟩ := of_decide_eq_true htop
  have hhard : h.hardEligible := by
    rcases List.mem_append.1 hh with hh | hh
    · obtain ⟨phrase, n, -, -, rfl⟩ := mem_phraseHints.1 hh
      rfl
    · obtain ⟨c, -, -, -, n, -, rfl⟩ := mem_fuzzyHints.1 hh
      rfl
  have hmem : h ∈ r.hints lib k visit := by
    rw [Reading.hints, List.append_assoc]
    exact List.mem_append_left _ hh
  refine ⟨x, hx, (hardEligible_of_mem (mem_itemsOf.1 hx).1).2 ⟨h, mem_admitted.2 ⟨hmem, hadmitted, ?_⟩, hhard⟩⟩
  exact Prod.ext rfl hvalue.symm

/-- Without eligible candidates the features lead to the value, or else the contexts. -/
theorem find?_topHint (hsoft : ¬ ∃ x ∈ itemsOf (r.finalCandidates lib k visit) field, x.2.hardEligible) :
    ((r.hints lib k visit).find? fun h =>
        TopHint lib k r.query (r.finalCandidates lib k visit) field h).map (·.value) =
      ((visit.features (queryFeatures r.semanticTokens)).findSome? (leads lib k visit r field)).or
        (((contextHints lib k r.correctedQuery).find? fun h =>
          TopHint lib k r.query (r.finalCandidates lib k visit) field h).map (·.value)) := by
  rw [Reading.hints, List.find?_append, List.find?_append, soft_front hsoft, Option.none_or, Option.map_or,
    learnedHints, List.find?_flatMap, List.map_findSome?]
  rfl

theorem findSome?_perm {α β : Type} {f : α → Option β} {l l' : List α} (h : l.Perm l')
    (hagreed : ∀ a ∈ l, ∀ b ∈ l, ∀ x ∈ f a, ∀ y ∈ f b, x = y) : l.findSome? f = l'.findSome? f := by
  cases hl' : l'.findSome? f with
  | none =>
    rw [List.findSome?_eq_none_iff] at hl' ⊢
    exact fun a ha => hl' a (h.subset ha)
  | some y =>
    obtain ⟨b, hb, hy⟩ := List.exists_of_findSome?_eq_some hl'
    cases hl : l.findSome? f with
    | none => rw [← List.findSome?_eq_none_iff.1 hl b (h.symm.subset hb), hy]
    | some x =>
      obtain ⟨a, ha, hx⟩ := List.exists_of_findSome?_eq_some hl
      rw [hagreed a ha b (h.symm.subset hb) x hx y hy]

theorem soft_perm (hsoft : ¬ ∃ x ∈ itemsOf (r.finalCandidates lib k visit) field, x.2.hardEligible) :
    ¬ ∃ x ∈ itemsOf (r.finalCandidates lib k visit') field, x.2.hardEligible := by
  rintro ⟨x, hx, hhard⟩
  obtain ⟨c', hc', hbare, -⟩ := @mem_itemsOf_perm lib k visit' visit r _ x.1 x.2 hx
  refine hsoft ⟨(x.1, c'), hc', ?_⟩
  rwa [(Candidate.mk.inj hbare).2.2.2]

end Tops

/-! ## The same selection -/

section Selections

variable {d : Candidates}

theorem map_ranked {items : List (String × Candidate)} :
    (ranked items).map bareItem = ranked (items.map bareItem) := by
  refine List.map_insertionSort _ _ _ _ fun a _ b _ => ?_
  rw [rank, rank, rank, rank, bareItem, bareItem, Candidate.bare, Candidate.bare]

theorem selectedOf_of_hard (h : ∃ x ∈ itemsOf d field, x.2.hardEligible) :
    (selectedOf k d field).map bareItem =
      slice (if field ∈ singleFields then 1 else k.maxSelections field) (ranked (bareExplicit d field)) := by
  have hexplicit : (itemsOf d field).filter (·.2.hardEligible) ≠ [] := fun hnil =>
    let ⟨x, hx, hhard⟩ := h
    List.filter_eq_nil_iff.1 hnil x hx hhard
  simp only [selectedOf]
  rw [if_pos hexplicit, slice_eq_take, slice_eq_take, List.map_take, map_ranked, bareExplicit, length_ranked,
    length_ranked, List.length_map]

theorem selectedOf_of_soft (h : ¬ ∃ x ∈ itemsOf d field, x.2.hardEligible) :
    selectedOf k d field = (firstMax rank (itemsOf d field)).toList := by
  have hexplicit : (itemsOf d field).filter (·.2.hardEligible) = [] :=
    List.filter_eq_nil_iff.2 fun x hx hhard => h ⟨x, hx, hhard⟩
  have hhead : (ranked (itemsOf d field)).head? = firstMax rank (itemsOf d field) := head?_insertionSort
  simp only [selectedOf]
  rw [if_neg (not_not.2 hexplicit), ← hhead]
  cases ranked (itemsOf d field) <;> rfl

/-- A field whose features agree selects the same values, but for the order of their evidence. -/
theorem selectedOf_perm (hagreed : Agreed lib k visit r field) :
    (selectedOf k (r.finalCandidates lib k visit) field).map bareItem =
      (selectedOf k (r.finalCandidates lib k visit') field).map bareItem := by
  by_cases hhard : ∃ x ∈ itemsOf (r.finalCandidates lib k visit) field, x.2.hardEligible
  · have hhard' : ∃ x ∈ itemsOf (r.finalCandidates lib k visit') field, x.2.hardEligible := by
      by_contra hsoft
      exact soft_perm hsoft hhard
    rw [selectedOf_of_hard hhard, selectedOf_of_hard hhard', @bareExplicit_perm lib k visit visit']
  · have hlead := hagreed.resolve_left hhard
    have hvalue : (firstMax rank (itemsOf (r.finalCandidates lib k visit) field)).map (·.1) =
        (firstMax rank (itemsOf (r.finalCandidates lib k visit') field)).map (·.1) := by
      rw [firstMax_itemsOf, firstMax_itemsOf, find?_topHint hhard, find?_topHint (soft_perm hhard),
        @topHint_perm lib k visit visit', @leads_perm lib k visit visit']
      congr 1
      refine findSome?_perm ((visit.features_perm _).trans (visit'.features_perm _).symm) fun a ha b hb => ?_
      rw [← @leads_perm lib k visit visit']
      exact hlead a ((visit.features_perm _).subset ha) b ((visit.features_perm _).subset hb)
    rw [selectedOf_of_soft hhard, selectedOf_of_soft (soft_perm hhard)]
    cases hfirst : firstMax rank (itemsOf (r.finalCandidates lib k visit) field) with
    | none =>
      rw [hfirst] at hvalue
      rw [Option.map_eq_none_iff.1 hvalue.symm]
    | some x =>
      rw [hfirst] at hvalue
      obtain ⟨x', hfirst', hx'⟩ := Option.map_eq_some_iff.1 hvalue.symm
      have hmem := (mem_itemsOf.1 (mem_of_firstMax hfirst)).1
      have hmem' := (mem_itemsOf.1 (mem_of_firstMax hfirst')).1
      rw [hfirst', Option.toList_some, Option.toList_some, List.map_singleton, List.map_singleton, bareItem,
        bareItem, ← (mem_finalCandidates.1 hmem).2, ← (mem_finalCandidates.1 hmem').2, hx',
        @bare_finalCandidate_perm lib k visit visit']

end Selections

/-! ## What follows from the selection -/

section Outcome

variable {suppliedPincode : Option String} {suppliedSwoopstyl : Bool} {found : Option ℤ × Option ℤ}

theorem mem_selectedFields {d : Candidates} : field ∈ selectedFields d ↔ itemsOf d field ≠ [] := by
  rw [selectedFields, List.mem_eraseDups, List.mem_map, itemsOf, ne_eq, List.map_eq_nil_iff,
    List.filter_eq_nil_iff]
  push Not
  exact exists_congr fun x => and_congr_right fun _ => decide_eq_true_iff.symm

theorem selectedFields_perm :
    (selectedFields (r.finalCandidates lib k visit)).Perm (selectedFields (r.finalCandidates lib k visit')) := by
  have hnodup : ∀ d, (selectedFields d).Nodup := fun d => nodup_eraseDups _
  refine (List.perm_ext_iff_of_nodup (hnodup _) (hnodup _)).2 fun field => ?_
  rw [mem_selectedFields, mem_selectedFields]
  have hstep : ∀ visit visit' : Visits, itemsOf (r.finalCandidates lib k visit) field ≠ [] →
      itemsOf (r.finalCandidates lib k visit') field ≠ [] := by
    intro visit visit' h
    obtain ⟨⟨v, c⟩, hx⟩ := List.exists_mem_of_ne_nil _ h
    obtain ⟨c', hc', -⟩ := @mem_itemsOf_perm lib k visit visit' r _ _ c hx
    exact List.ne_nil_of_mem hc'
  exact ⟨hstep visit visit', hstep visit' visit⟩

variable (hselected : ∀ field, (selectedOf k (r.finalCandidates lib k visit) field).map bareItem =
  (selectedOf k (r.finalCandidates lib k visit') field).map bareItem)

include hselected

theorem hardValues_perm : hardValues k (r.finalCandidates lib k visit) field =
    hardValues k (r.finalCandidates lib k visit') field := by
  have hbare : ∀ items : List (String × Candidate), (items.filter (·.2.hardEligible)).map (·.1) =
      ((items.map bareItem).filter (·.2.hardEligible)).map (·.1) := fun items => by
    rw [List.filter_map, List.map_map]
    rfl
  rw [hardValues, hardValues, lookup_selected, lookup_selected, hbare, hselected field, ← hbare]

theorem metadataFilters_perm : (metadataFilters k (r.finalCandidates lib k visit)).Perm
    (metadataFilters k (r.finalCandidates lib k visit')) := by
  have hvalues : ∀ field, (selectedOf k (r.finalCandidates lib k visit) field).map (·.1) =
      (selectedOf k (r.finalCandidates lib k visit') field).map (·.1) := fun field => by
    have h := congrArg (List.map (·.1)) (hselected field)
    rwa [List.map_map, List.map_map] at h
  have hmetadata : ∀ d, metadataFilters k d = ((selectedFields d).filter fun f =>
      (fieldOf k.fields f).bind (·.storage) = some "product_metadata").map fun f =>
        (f, (selectedOf k d f).map (·.1)) := fun d => by
    rw [metadataFilters, selected, List.filter_map, List.map_map]
    rfl
  rw [hmetadata, hmetadata]
  simp only [hvalues]
  exact (selectedFields_perm.filter _).map _

theorem mem_selectedOf_perm {c : Candidate} (h : (value, c) ∈ selectedOf k (r.finalCandidates lib k visit) field) :
    ∃ c', (value, c') ∈ selectedOf k (r.finalCandidates lib k visit') field ∧ c'.bare = c.bare ∧
      ∀ e, e ∈ c'.evidence ↔ e ∈ c.evidence := by
  have hbare : bareItem (value, c) ∈ (selectedOf k (r.finalCandidates lib k visit') field).map bareItem :=
    hselected field ▸ List.mem_map.2 ⟨_, h, rfl⟩
  obtain ⟨⟨v, c'⟩, hc', heq⟩ := List.mem_map.1 hbare
  obtain ⟨rfl, hbare⟩ := Prod.mk.inj heq
  refine ⟨c', hc', hbare, ?_⟩
  obtain ⟨c'', hc'', -, hevidence⟩ :=
    @exists_candidate_perm lib k visit visit' r _ c (mem_itemsOf.1 (mem_selectedOf h)).1
  have hsame : c' = c'' := (mem_finalCandidates.1 (mem_itemsOf.1 (mem_selectedOf hc')).1).2.symm.trans
    (mem_finalCandidates.1 hc'').2
  rwa [hsame]

theorem mem_rankingVector_perm {e : RankingEntry}
    (he : e ∈ rankingVector ((selectedItems k (r.finalCandidates lib k visit)).map scoredNode)) :
    e ∈ rankingVector ((selectedItems k (r.finalCandidates lib k visit')).map scoredNode) := by
  obtain ⟨n, hn, rfl⟩ := List.mem_map.1 he
  obtain ⟨hn, hscore⟩ := List.mem_filter.1 hn
  obtain ⟨⟨⟨f, v⟩, c⟩, hx, rfl⟩ := List.mem_map.1 hn
  obtain ⟨c', hc', hbare, -⟩ := mem_selectedOf_perm hselected (mem_selectedItems.1 hx)
  have hsame : c'.score = c.score := (Candidate.mk.inj hbare).1
  refine List.mem_map.2 ⟨scoredNode ((f, v), c'), List.mem_filter.2
    ⟨List.mem_map.2 ⟨_, mem_selectedItems.2 hc', rfl⟩, ?_⟩, ?_⟩
  · rw [scoredNode, hsame]
    exact hscore
  · rw [scoredNode, scoredNode, hsame]

theorem mem_recognizedPhrases_perm {phrase : String}
    (h : phrase ∈ recognizedPhrases lib k r.query (r.finalCandidates lib k visit)) :
    phrase ∈ recognizedPhrases lib k r.query (r.finalCandidates lib k visit') := by
  rw [recognizedPhrases, List.append_assoc] at h ⊢
  rcases List.mem_append.1 h with h | h
  · obtain ⟨⟨⟨f, v⟩, c⟩, hx, hphrase⟩ := List.mem_flatMap.1 h
    obtain ⟨e, he, rfl⟩ := List.mem_map.1 hphrase
    obtain ⟨c', hc', -, hevidence⟩ := mem_selectedOf_perm hselected (mem_selectedItems.1 hx)
    exact List.mem_append_left _ (List.mem_flatMap.2 ⟨((f, v), c'), mem_selectedItems.2 hc',
      List.mem_map.2 ⟨e, (hevidence e).2 he, rfl⟩⟩)
  · exact List.mem_append_right _ h

omit hselected in
theorem dropped_congr {recognized recognized' : List String} {token word : String}
    (h : ∀ t, t ∈ recognized ↔ t ∈ recognized') :
    Dropped lib recognized token word ↔ Dropped lib recognized' token word := by
  rw [Dropped, Dropped, h token, h word]

omit hselected in
theorem filter_dropped_congr {recognized recognized' tokens : List String} {word : String → String}
    (h : ∀ t, t ∈ recognized ↔ t ∈ recognized') :
    tokens.filter (fun token => ¬ Dropped lib recognized token (word token)) =
      tokens.filter fun token => ¬ Dropped lib recognized' token (word token) :=
  List.filter_congr fun _ _ => decide_eq_decide.2 (not_congr (dropped_congr h))

theorem lexicalQuery_perm {structured : Bool} :
    lexicalQuery lib k r (r.finalCandidates lib k visit) structured =
      lexicalQuery lib k r (r.finalCandidates lib k visit') structured := by
  have hrecognized : ∀ t, t ∈ recognizedTokens lib k r.query (r.finalCandidates lib k visit) ↔
      t ∈ recognizedTokens lib k r.query (r.finalCandidates lib k visit') := by
    intro t
    rw [mem_recognizedTokens, mem_recognizedTokens]
    exact exists_congr fun phrase => and_congr_left' ⟨mem_recognizedPhrases_perm hselected,
      mem_recognizedPhrases_perm fun field => (hselected field).symm⟩
  have hresidual : residual lib k r (r.finalCandidates lib k visit) =
      residual lib k r (r.finalCandidates lib k visit') := by
    rw [residual, residual, filter_dropped_congr hrecognized]
  simp only [lexicalQuery, hresidual]

omit hselected in
theorem structured_congr {f f' : HardFilters} (h : f.Same f') : f.structured = f'.structured := by
  obtain ⟨heq, hperm⟩ := h
  obtain ⟨hdirect, -, hmin, hmax, hage, hheight, hweight, -, hswoopstyl, -⟩ := HardFilters.mk.inj heq
  have hmetadata : f.metadata ≠ [] ↔ f'.metadata ≠ [] :=
    not_congr ⟨fun h => (h ▸ hperm).symm.eq_nil, fun h => (h ▸ hperm).eq_nil⟩
  rw [HardFilters.structured, HardFilters.structured]
  simp only [hdirect, hmin, hmax, hage, hheight, hweight, hswoopstyl, hmetadata]

/-- The same selection compiles to the same. -/
theorem same_intentOf : (intentOf lib k visit r suppliedPincode suppliedSwoopstyl found).Same
    (intentOf lib k visit' r suppliedPincode suppliedSwoopstyl found) := by
  have hdirect : directFilters lib k r.query (r.finalCandidates lib k visit) =
      directFilters lib k r.query (r.finalCandidates lib k visit') := by
    simp only [directFilters, hardValues_perm hselected]
  have hfilters : (intentOf lib k visit r suppliedPincode suppliedSwoopstyl found).hardFilters.Same
      (intentOf lib k visit' r suppliedPincode suppliedSwoopstyl found).hardFilters := by
    rw [intentOf_hardFilters, intentOf_hardFilters]
    refine ⟨?_, ?_⟩
    · simp only [hardFilters, hdirect]
    · rw [hardFilters_metadata, hardFilters_metadata]
      exact metadataFilters_perm hselected
  refine ⟨hfilters, ?_, fun e => ?_⟩
  · rw [intentOf_lexicalQuery, intentOf_lexicalQuery, lexicalQuery_perm hselected]
    exact congrArg (lexicalQuery lib k r _) (structured_congr hfilters)
  · rw [intentOf_rankingVector, intentOf_rankingVector]
    exact ⟨mem_rankingVector_perm hselected, mem_rankingVector_perm fun field => (hselected field).symm⟩

end Outcome

/-! ## Orders that differ -/

/-- The feature is visited first. -/
def Visits.leading (visit : Visits) (feature : String) : Visits where
  vocabulary := visit.vocabulary
  features l := if feature ∈ l then feature :: l.erase feature else l
  vocabulary_perm := visit.vocabulary_perm
  features_perm l := by
    split
    · rename_i h
      exact (List.perm_cons_erase h).symm
    · exact .refl l

section Differ

variable {feature : String}

/-- When a feature is visited first, the value that it leads to is selected. -/
theorem mem_selectedOf_leading
    (hsoft : ¬ ∃ x ∈ itemsOf (r.finalCandidates lib k visit) field, x.2.hardEligible)
    (hfeature : feature ∈ queryFeatures r.semanticTokens) (hlead : value ∈ leads lib k visit r field feature)
    {other : String} :
    (∃ c, (other, c) ∈ selectedOf k (r.finalCandidates lib k (visit.leading feature)) field) ↔ other = value := by
  have hsoft' := @soft_perm lib k visit (visit.leading feature) field r hsoft
  have hfirst : (firstMax rank (itemsOf (r.finalCandidates lib k (visit.leading feature)) field)).map (·.1) =
      some value := by
    have hfront : (visit.leading feature).features (queryFeatures r.semanticTokens) =
        feature :: (queryFeatures r.semanticTokens).erase feature := if_pos hfeature
    rw [firstMax_itemsOf, find?_topHint hsoft', hfront, @leads_perm lib k (visit.leading feature) visit,
      List.findSome?_cons, Option.mem_def.1 hlead]
    rfl
  obtain ⟨x, hx, rfl⟩ := Option.map_eq_some_iff.1 hfirst
  rw [selectedOf_of_soft hsoft', hx, Option.toList_some]
  constructor
  · rintro ⟨c, hc⟩
    exact congrArg Prod.fst (List.mem_singleton.1 hc)
  · rintro rfl
    exact ⟨x.2, List.mem_singleton.2 rfl⟩

end Differ

theorem compile_eq : compileSearchIntent lib k visit rawQuery pincode swoopstyl =
    (prices lib (reading lib k visit rawQuery).correctedQuery).map
      (intentOf lib k visit (reading lib k visit rawQuery) pincode swoopstyl) := by
  simp only [compileSearchIntent]

end Search

namespace Sample

namespace Search

open Stylme.Search

/-- A service that has learned as much of the one word as of the other. -/
def bohoChicService : Knowledge :=
  knowledge [("boho", [⟨"product_type", "kurtas", 8 / 10, 5⟩]), ("chic", [⟨"product_type", "dresses", 8 / 10, 5⟩])]

def bohoChicQuery : PlainQuery :=
  ⟨"boho chic", ["boho", "chic"], by decide +kernel, by decide +kernel, by decide +kernel, by decide +kernel⟩

def bohoChic : Reading := ⟨"boho chic", ["boho", "chic"], []⟩

theorem reading_bohoChic (visit : Visits) : reading library bohoChicService visit "boho chic" = bohoChic := by
  refine bohoChicQuery.reading_eq fun token htoken => ?_
  rcases List.mem_pair.1 htoken with rfl | rfl
  · exact similarCorrection_of_learned List.mem_cons_self (by decide +kernel) (by decide +kernel)
  · exact similarCorrection_of_learned (List.mem_cons_of_mem _ List.mem_cons_self) (by decide +kernel)
      (by decide +kernel)

/-- Only what was learned stands for the words. -/
theorem hints_bohoChic (visit : Visits) : bohoChic.hints library bohoChicService visit =
    learnedHints bohoChicService visit ["boho", "chic"] := by
  refine bohoChicQuery.hints_eq ?_
  have hphrases : occurringHints phraseTable (library.occurrences "boho chic") = [] := by decide +kernel
  have hcontexts : occurringContexts (library.occurrences "boho chic") = [] := by decide +kernel
  change occurringHints phraseTable (library.occurrences "boho chic") ++ _ ++
    occurringContexts (library.occurrences "boho chic") = _
  rw [hphrases, hcontexts, List.append_nil, List.nil_append]
  rfl

/-- The candidate that a word leads to. -/
def learnedCandidate (word : String) : Search.Candidate := ⟨8 / 10, [⟨.learned, word, 8 / 10⟩], 5, false⟩

theorem candidates_boho : bohoChic.finalCandidates library bohoChicService visits =
    [(("product_type", "kurtas"), learnedCandidate "boho"), (("product_type", "dresses"), learnedCandidate "chic")] := by
  rw [Reading.finalCandidates, Reading.candidates, hints_bohoChic]
  decide +kernel

theorem candidates_chic : bohoChic.finalCandidates library bohoChicService (visits.leading "chic") =
    [(("product_type", "dresses"), learnedCandidate "chic"), (("product_type", "kurtas"), learnedCandidate "boho")] := by
  rw [Reading.finalCandidates, Reading.candidates, hints_bohoChic]
  decide +kernel

end Search

end Sample

namespace Search

end Search

end Stylme
