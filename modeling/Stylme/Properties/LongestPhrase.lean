-- SUMMARY: When the longest phrase wins: a value that only a covered phrase names is outbid by another value of its field.
import Stylme.Properties.NegatedValues

/-!
# The longest phrase

Longer phrases are visited first, so that their values are found first and win every tie. A
shorter phrase still wins by its score: a hand-authored alias counts more than a term of the
taxonomy, and correlations add to it.
-/

namespace Stylme

open Conc Backend Catalogue Reconciler

namespace Search

variable (lib : Library) (k : Knowledge) (visit : Visits)

/-! ## Phrases and bids -/

/-- The value of another phrase, which is longer and not negated, and which covers what lies
between `start` and `after`. -/
def CoveredBy (query phrase field value : String) (start after : List Char) (other : String) : Prop :=
  other ≠ value ∧ ∃ longer, Names lib k longer field other ∧ 2 ≤ longer.length ∧
    phrase.length < longer.length ∧ ¬ lib.negated query longer ∧ ∃ start' after',
      query.toList = start' ++ longer.toList ++ after' ∧ ¬ start'.getLast?.any lib.wordChar ∧
      ¬ after'.head?.any lib.wordChar ∧ start' <+: start ∧ after' <:+ after

/-- Every occurrence of the phrase lies inside that of a longer phrase for another value. -/
def Covered (query phrase field value : String) : Prop :=
  ∀ start after, query.toList = start ++ phrase.toList ++ after → ¬ start.getLast?.any lib.wordChar →
    ¬ after.head?.any lib.wordChar → ∃ other, CoveredBy lib k query phrase field value start after other

/-- The phrase is all that names the value. -/
def OnlyEvidence (r : Reading) (phrase : String) (t : Tag) : Prop :=
  ∀ h ∈ valueHints lib k visit r t, h.phrase = phrase ∧ (h.source = .taxonomy ∨ h.source = .alias)

/-- The value is eligible, and it ranks higher than the other, or as high and is found first. -/
def Outbids (r : Reading) (t t' : Tag) : Prop :=
  (∃ h ∈ valueHints lib k visit r t, h.hardEligible) ∧
    (valueRank lib k visit r t' < valueRank lib k visit r t ∨
      valueRank lib k visit r t' = valueRank lib k visit r t ∧ FoundBefore lib k visit r t t')

variable {lib k visit} {phrase query field value rawQuery : String} {pincode : Option String}
  {swoopstyl : Bool} {intent : SearchIntent} {r : Reading}

/-! ## Sources -/

theorem mem_phraseHints_of_source {h : Hint} (hh : h ∈ r.hints lib k visit)
    (hsource : h.source = .taxonomy ∨ h.source = .alias) : h ∈ phraseHints lib k r.query := by
  have hnot : ∀ source : HintSource, h.source = source → source ≠ .taxonomy → source ≠ .alias → False := by
    rintro source rfl htaxonomy halias
    exact hsource.elim htaxonomy halias
  rw [Reading.hints, List.mem_append, List.mem_append, List.mem_append] at hh
  rcases hh with ((hh | hh) | hh) | hh
  · exact hh
  · obtain ⟨c, -, -, -, n, -, rfl⟩ := mem_fuzzyHints.1 hh
    exact (hnot .fuzzy rfl (by decide) (by decide)).elim
  · obtain ⟨feature, -, hh⟩ := List.mem_flatMap.1 hh
    unfold featureHints at hh
    split at hh
    · exact absurd hh List.not_mem_nil
    · obtain ⟨e, -, rfl⟩ := List.mem_map.1 hh
      exact (hnot .learned rfl (by decide) (by decide)).elim
  · obtain ⟨x, -, rfl⟩ := List.mem_map.1 hh
    exact (hnot .context rfl (by decide) (by decide)).elim

theorem phraseHint_score_ge {n : Naming} : (96 / 100 : ℚ) ≤ (phraseHint phrase n).score := by
  rw [phraseHint]
  dsimp only
  split <;> norm_num

theorem le_foldl_boost {es : List CorrelationEdge} {b s : ℚ} (hb : b ≤ 1) (h : b ≤ s) :
    b ≤ es.foldl (fun s e => min 1 (s + e.boost)) s := by
  induction es generalizing s with
  | nil => exact h
  | cons e es ih =>
    have hboost : 0 ≤ e.boost := by
      rw [CorrelationEdge.boost]
      have := le_max_left 0 e.weight
      positivity
    exact ih (le_min hb (h.trans (le_add_of_nonneg_right hboost)))

/-! ## Longer phrases are found first -/

theorem pairwise_phraseHints :
    (phraseHints lib k query).Pairwise fun h h' => h'.phrase.length ≤ h.phrase.length := by
  have hsorted : (longestFirst lib k).Pairwise fun a b => b.length ≤ a.length := by
    have htotal : Std.Total fun a b : String => b.length ≤ a.length := ⟨fun a b => le_total b.length a.length⟩
    have htrans : IsTrans String fun a b => b.length ≤ a.length := ⟨fun _ _ _ h h' => h'.trans h⟩
    exact List.pairwise_insertionSort _ _
  rw [phraseHints, List.pairwise_flatMap]
  refine ⟨fun phrase _ => ?_, (hsorted.sublist List.filter_sublist).imp fun {a b} hlength h hh h' hh' => ?_⟩
  · refine List.pairwise_map.2 (List.pairwise_of_forall fun n n' => ?_)
    exact le_rfl
  · obtain ⟨n, -, rfl⟩ := List.mem_map.1 hh
    obtain ⟨n', -, rfl⟩ := List.mem_map.1 hh'
    exact hlength

theorem mem_namings_of_names (h : Names lib k phrase field value) (hlength : 2 ≤ phrase.length) :
    ∃ n ∈ namings lib k phrase, n.field = field ∧ n.value = value := by
  rcases h with ⟨f, hf, hfilterable, rfl, option, hoption, henabled, rfl, term, hterm, rfl⟩ | ⟨x, hx, rfl, htag⟩
  · refine ⟨⟨f.key, optionValue option, .taxonomy⟩, mem_namings.2 (List.mem_append_left _ ?_), rfl, rfl⟩
    refine List.mem_flatMap.2 ⟨f, List.mem_filter.2 ⟨hf, hfilterable⟩, ?_⟩
    refine List.mem_flatMap.2 ⟨option, List.mem_filter.2 ⟨hoption, henabled⟩, List.mem_map.2 ⟨_, ?_, rfl⟩⟩
    exact List.mem_filter.2 ⟨List.mem_map.2 ⟨term, hterm, rfl⟩, decide_eq_true hlength⟩
  · obtain ⟨rfl, rfl⟩ := Prod.mk.inj htag
    exact ⟨⟨x.2.1, x.2.2, .alias⟩, mem_namings.2 (List.mem_append_right _ (List.mem_map.2 ⟨x, hx, rfl⟩)), rfl, rfl⟩

theorem foundBefore_of_longer {t : Tag} {h : Hint} (hh : h ∈ phraseHints lib k r.query)
    (hadmitted : h.Admitted lib k r.query) (hlonger : phrase.length < h.phrase.length)
    (honly : OnlyEvidence lib k visit r phrase t) (hne : valueHints lib k visit r t ≠ []) :
    FoundBefore lib k visit r h.tag t := by
  obtain ⟨rest, hhints⟩ : ∃ rest, r.hints lib k visit = phraseHints lib k r.query ++ rest :=
    ⟨_, by rw [Reading.hints, List.append_assoc, List.append_assoc]⟩
  obtain ⟨x, hx⟩ := List.exists_mem_of_ne_nil _ hne
  obtain ⟨hmem, hx⟩ := mem_admitted.1 hx
  rw [FoundBefore, foundAt, foundAt]
  rw [hhints] at hmem ⊢
  refine findIdx_lt_findIdx pairwise_phraseHints hh (decide_eq_true ⟨hadmitted, rfl⟩) (fun y hy hytag => ?_)
    ⟨x, hmem, decide_eq_true hx⟩
  obtain ⟨hyadmitted, rfl⟩ := of_decide_eq_true hytag
  rw [← hhints] at hy
  have hphrase := (honly y (mem_admitted.2 ⟨hy, hyadmitted, rfl⟩)).1
  refine ⟨fun hytag => ?_, by rw [hphrase]; exact not_le.2 hlonger⟩
  have hmem : h ∈ r.hints lib k visit := hhints ▸ List.mem_append_left _ hh
  have htag := (of_decide_eq_true hytag).2.symm
  exact hlonger.ne (congrArg String.length (honly h (mem_admitted.2 ⟨hmem, hadmitted, htag⟩)).1).symm

/-! ## The highest bid -/

section Bids

variable {c : Candidate}

/-- An eligible value of a single field is selected unless another value outbids it. -/
theorem not_mem_selectedOf_iff (hfield : field ∈ singleFields)
    (hmem : ((field, value), c) ∈ r.finalCandidates lib k visit) (hhard : c.hardEligible)
    (hscore : 68 / 100 ≤ c.score) : (value, c) ∉ selectedOf k (r.finalCandidates lib k visit) field ↔
      ∃ other, Outbids lib k visit r (field, other) (field, value) := by
  have hitem : (value, c) ∈ itemsOf (r.finalCandidates lib k visit) field := mem_itemsOf.2 ⟨hmem, hscore⟩
  have hcontends : (value, c) ∈ contenders (r.finalCandidates lib k visit) field :=
    mem_contenders.2 ⟨hitem, fun h => by rw [hhard] at h; exact absurd h.1 nofun⟩
  have hrank := rank_of_mem hmem
  rw [selectedOf_single hfield, Option.mem_toList, firstMax_eq_some_iff pairwise_contenders,
    and_iff_right hcontends]
  push Not
  constructor
  · rintro ⟨⟨other, c'⟩, hother, hle, hfound⟩
    obtain ⟨hitem', hnot⟩ := mem_contenders.1 hother
    have hmem' := (mem_itemsOf.1 hitem').1
    have hrank' := rank_of_mem hmem'
    refine ⟨other, (hardEligible_of_mem hmem').1 ?_, ?_⟩
    · by_contra hsoft
      exact hnot ⟨eq_false_of_ne_true hsoft, (value, c), hitem, hhard⟩
    · rw [← hrank, ← hrank']
      exact hle.lt_or_eq.imp_right fun heq => ⟨heq, hfound heq.symm⟩
  · rintro ⟨other, ⟨h, hh, heligible⟩, hbid⟩
    obtain ⟨c', hc'⟩ : ∃ c', ((field, other), c') ∈ r.finalCandidates lib k visit :=
      ⟨_, mem_finalCandidates.2 ⟨List.ne_nil_of_mem hh, rfl⟩⟩
    have hrank' := rank_of_mem hc'
    rw [← hrank, ← hrank'] at hbid
    have hle : rank (value, c) ≤ rank (other, c') := hbid.elim le_of_lt fun h => h.1.le
    have hscore' : c.score ≤ c'.score := Prod.Lex.monotone_fst _ _ hle
    refine ⟨(other, c'), mem_contenders.2 ⟨mem_itemsOf.2 ⟨hc', hscore.trans hscore'⟩, fun h => ?_⟩, hle,
      fun heq => ?_⟩
    · rw [(hardEligible_of_mem hc').2 ⟨_, hh, heligible⟩] at h
      exact absurd h.1 nofun
    · exact hbid.elim (fun hlt => absurd heq hlt.ne') fun h => h.2

end Bids

/-! ## Covered phrases -/

/-- The only evidence of a value makes it eligible, with a score that is high enough. -/
theorem exists_candidate {t : Tag} (honly : OnlyEvidence lib k visit r phrase t)
    (hne : valueHints lib k visit r t ≠ []) :
    ∃ c, (t, c) ∈ r.finalCandidates lib k visit ∧ c.hardEligible ∧ 68 / 100 ≤ c.score := by
  obtain ⟨h, hh⟩ := List.exists_mem_of_ne_nil _ hne
  obtain ⟨phrase', n, -, -, rfl⟩ :=
    mem_phraseHints.1 (mem_phraseHints_of_source (mem_admitted.1 hh).1 (honly h hh).2)
  have hscore : (96 / 100 : ℚ) ≤ (Candidate.empty.joinAll (valueHints lib k visit r t)).score :=
    phraseHint_score_ge.trans (Candidate.score_le_joinAll hh)
  refine ⟨_, mem_finalCandidates.2 ⟨hne, rfl⟩, ?_, ?_⟩
  · exact (hardEligible_of_mem (mem_finalCandidates.2 ⟨hne, rfl⟩)).2 ⟨_, hh, rfl⟩
  · have hleast : (96 / 100 : ℚ) ≤ boostedScore k.model (r.candidates lib k visit) t
        (Candidate.empty.joinAll (valueHints lib k visit r t)).score := le_foldl_boost (by norm_num) hscore
    exact le_trans (by norm_num) hleast

/-- Where the value of a longer phrase is an option, it outbids the covered one unless this ranks
higher. -/
theorem outbids_of_coveredBy {other : String} {start after : List Char}
    (hcovered : CoveredBy lib k r.query phrase field value start after other)
    (honly : OnlyEvidence lib k visit r phrase (field, value))
    (hne : valueHints lib k visit r (field, value) ≠ []) (hallowed : other ∈ k.allowed field)
    (hle : valueRank lib k visit r (field, value) ≤ valueRank lib k visit r (field, other)) :
    Outbids lib k visit r (field, other) (field, value) := by
  obtain ⟨-, longer, hnames, hlength, hlonger, hnegated, start', after', hquery, hstart, hafter, -⟩ := hcovered
  obtain ⟨n, hn, rfl, rfl⟩ := mem_namings_of_names hnames hlength
  have hcontains := containsPhrase_iff.2 ⟨start', after', hquery, hstart, hafter⟩
  have hhint := mem_phraseHints.2 ⟨longer, n, hcontains, hn, rfl⟩
  have hmem : phraseHint longer n ∈ r.hints lib k visit := by
    rw [Reading.hints, List.append_assoc, List.append_assoc]
    exact List.mem_append_left _ hhint
  have hadmitted : (phraseHint longer n).Admitted lib k r.query := ⟨hallowed, hnegated⟩
  refine ⟨⟨_, mem_admitted.2 ⟨hmem, hadmitted, rfl⟩, rfl⟩, ?_⟩
  exact hle.lt_or_eq.imp_right fun heq => ⟨heq, foundBefore_of_longer hhint hadmitted hlonger honly hne⟩

end Search

namespace Sample

namespace Search

open Stylme.Search

theorem similar_alias {k : Knowledge} {word : String} (halias : word ∈ phraseAliases.map (·.1))
    (hnormal : library.normalizeQuery word = word) (hword : ' ' ∉ word.toList ∧ 4 ≤ word.length) :
    similarCorrection library k visits word = none := by
  obtain ⟨x, hx, hxword⟩ := List.mem_map.1 halias
  have hindex : (word, (⟨x.2.1, x.2.2, .alias⟩ : Naming)) ∈ phraseIndex library k :=
    List.mem_append_right _ (List.mem_map.2 ⟨x, hx, by rw [hxword, hnormal]⟩)
  have hphrase : word ∈ Stylme.Search.phrases library k :=
    List.mem_eraseDups.2 (List.mem_map.2 ⟨_, hindex, rfl⟩)
  exact similarCorrection_of_phrase (mem_singlePhrases.2 ⟨hphrase, hword⟩)

/-! ### A set of kurtas -/

def kurtaSetQuery : PlainQuery :=
  ⟨"kurta set", ["kurta", "set"], by decide +kernel, by decide +kernel, by decide +kernel, by decide +kernel⟩

def kurtaSet : Reading := ⟨"kurta set", ["kurta", "set"], []⟩

/-- Both phrases are terms of the taxonomy and hand-authored aliases. -/
def kurtaSetHints : List Hint :=
  [phraseHint "kurta set" ⟨"product_type", "kurta-sets", .taxonomy⟩,
    phraseHint "kurta set" ⟨"product_type", "kurta-sets", .alias⟩,
    phraseHint "kurta" ⟨"product_type", "kurtas", .taxonomy⟩,
    phraseHint "kurta" ⟨"product_type", "kurtas", .alias⟩]

theorem reading_kurtaSet : reading library (knowledge []) visits "kurta set" = kurtaSet := by
  refine kurtaSetQuery.reading_eq fun token htoken => ?_
  rcases List.mem_pair.1 htoken with rfl | rfl
  · exact similar_alias (by decide +kernel) (by decide +kernel) (by decide +kernel)
  · exact similarCorrection_of_short (by decide +kernel)

theorem hints_kurtaSet : kurtaSet.hints library (knowledge []) visits = kurtaSetHints :=
  kurtaSetQuery.hints_eq (by decide +kernel)

/-! ### The material of a dress -/

/-- A service that knows the word `material`, but nothing that it would imply. -/
def material : Knowledge := knowledge [("material", [])]

def dressMaterialQuery : PlainQuery :=
  ⟨"dress material", ["dress", "material"], by decide +kernel, by decide +kernel, by decide +kernel, by decide +kernel⟩

def dressMaterial : Reading := ⟨"dress material", ["dress", "material"], []⟩

/-- The key and the label of the material, and the alias of the dresses. -/
def dressMaterialHints : List Hint :=
  [phraseHint "dress material" ⟨"product_type", "dress-material", .taxonomy⟩,
    phraseHint "dress material" ⟨"product_type", "dress-material", .taxonomy⟩,
    phraseHint "dress" ⟨"product_type", "dresses", .alias⟩]

theorem reading_dressMaterial : reading library material visits "dress material" = dressMaterial := by
  refine dressMaterialQuery.reading_eq fun token htoken => ?_
  rcases List.mem_pair.1 htoken with rfl | rfl
  · exact similar_alias (by decide +kernel) (by decide +kernel) (by decide +kernel)
  · exact similarCorrection_of_learned (List.mem_singleton.2 rfl) (by decide +kernel) (by decide +kernel)

theorem hints_dressMaterial : dressMaterial.hints library material visits = dressMaterialHints :=
  dressMaterialQuery.hints_eq (by decide +kernel)

/-- A product type whose label is its key. -/
theorem names_productType {k : Knowledge} {value phrase : String} (hfields : k.fields = fields)
    (hvalue : value ∈ ["kurtas", "kurta-sets", "dresses", "dress-material"])
    (hphrase : library.normalizeQuery value = phrase) : Names library k phrase "product_type" value :=
  .inl ⟨field "product_type" ["kurtas", "kurta-sets", "dresses", "dress-material"] "product_core",
    hfields ▸ List.mem_cons_self, rfl, rfl, .doc (some value) (some value) [] none,
    List.mem_map.2 ⟨value, hvalue, rfl⟩, rfl, rfl, value, List.mem_cons_self, hphrase⟩

end Search

end Sample

namespace Search

end Search

end Stylme
