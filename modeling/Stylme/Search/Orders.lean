-- SUMMARY: What the order in which sets are visited does not change: scores, supports, eligibility, and what is known of each value.
import Stylme.Search.Selection

/-!
# Orders of visiting

The learned features come from a set. Another order of the set permutes the learned hints, and
with them only the order of the candidates and of their evidence.
-/

namespace Stylme

open Conc Backend Catalogue Reconciler

namespace Search

/-! ## Joining in another order -/

namespace Candidate

variable {c : Candidate} {hs hs' : List Hint}

/-- The candidate without its evidence. -/
def bare (c : Candidate) : Candidate := { c with evidence := [] }

theorem bare_joinAll : (c.joinAll hs).bare = hs.foldl (fun b h =>
    { b with score := max b.score h.score, support := max b.support h.support,
             hardEligible := b.hardEligible || h.hardEligible }) c.bare := by
  induction hs generalizing c with
  | nil => rfl
  | cons h hs ih => exact ih

theorem bare_joinAll_perm (h : hs.Perm hs') : (c.joinAll hs).bare = (c.joinAll hs').bare := by
  rw [bare_joinAll, bare_joinAll]
  refine h.foldl_eq' (fun x _ y _ b => ?_) _
  simp only [max_right_comm, Bool.or_right_comm]

theorem mem_evidence_joinAll_perm (h : hs.Perm hs') {e : Evidence} :
    e ∈ (c.joinAll hs).evidence ↔ e ∈ (c.joinAll hs').evidence := by
  rw [mem_joinAll_evidence, mem_joinAll_evidence]
  simp only [h.mem_iff]

end Candidate

/-! ## Boosting in another order -/

section Boosting

theorem CorrelationEdge.boost_nonneg (e : CorrelationEdge) : 0 ≤ e.boost := by
  have := le_max_left 0 e.weight
  rw [boost]
  positivity

theorem min_one_add {s a b : ℚ} (hb : 0 ≤ b) : min 1 (min 1 (s + a) + b) = min 1 (s + a + b) := by
  rcases le_total 1 (s + a) with h | h
  · rw [min_eq_left h, min_eq_left (le_add_of_nonneg_right hb), min_eq_left (h.trans (le_add_of_nonneg_right hb))]
  · rw [min_eq_right h]

theorem boost_perm {es es' : List CorrelationEdge} {s : ℚ} (h : es.Perm es') :
    es.foldl (fun s e => min 1 (s + e.boost)) s = es'.foldl (fun s e => min 1 (s + e.boost)) s := by
  refine h.foldl_eq' (fun x _ y _ s => ?_) _
  rw [min_one_add y.boost_nonneg, min_one_add x.boost_nonneg, add_right_comm]

end Boosting

/-! ## Hints in another order -/

section Hints

variable {lib : Library} {k : Knowledge} {visit visit' : Visits} {r : Reading} {t : Tag}

theorem hints_perm : (r.hints lib k visit).Perm (r.hints lib k visit') := by
  refine .append_right _ (.append_left _ (.flatMap_right _ ?_))
  exact (visit.features_perm _).trans (visit'.features_perm _).symm

theorem valueHints_perm : (valueHints lib k visit r t).Perm (valueHints lib k visit' r t) :=
  hints_perm.filter _

theorem nodup_keys_candidates : ((r.candidates lib k visit).map (·.1)).Nodup := nodup_keys_foldl_add .nil

theorem keys_candidates_perm :
    ((r.candidates lib k visit).map (·.1)).Perm ((r.candidates lib k visit').map (·.1)) := by
  refine (List.perm_ext_iff_of_nodup nodup_keys_candidates nodup_keys_candidates).2 fun t => ?_
  rw [Reading.candidates, Reading.candidates, mem_keys_foldl_add, mem_keys_foldl_add, foundAt_lt_iff,
    foundAt_lt_iff]
  exact exists_congr fun h => and_congr_left' hints_perm.mem_iff

theorem correlated_perm {model : IntentModel} :
    (correlated model (r.candidates lib k visit)).Perm (correlated model (r.candidates lib k visit')) := by
  have hkeys : ∀ d : Candidates, correlated model d =
      (d.map (·.1)).flatMap fun t => (model.correlations.lookup (tagText t)).getD [] := fun d => by
    rw [correlated, List.flatMap_map]
  rw [hkeys, hkeys]
  exact keys_candidates_perm.flatMap_right _

theorem boostedScore_perm {model : IntentModel} {s : ℚ} :
    boostedScore model (r.candidates lib k visit) t s = boostedScore model (r.candidates lib k visit') t s :=
  boost_perm (correlated_perm.filter _)

theorem valueRank_perm : valueRank lib k visit r t = valueRank lib k visit' r t := by
  have hbare : (Candidate.empty.joinAll (valueHints lib k visit r t)).bare =
      (Candidate.empty.joinAll (valueHints lib k visit' r t)).bare := Candidate.bare_joinAll_perm valueHints_perm
  obtain ⟨hscore, -, hsupport, -⟩ := Candidate.mk.inj hbare
  rw [valueRank, valueRank, hscore, hsupport, boostedScore_perm]

theorem bare_finalCandidate_perm :
    (finalCandidate lib k visit r t).bare = (finalCandidate lib k visit' r t).bare := by
  have hbare : (Candidate.empty.joinAll (valueHints lib k visit r t)).bare =
      (Candidate.empty.joinAll (valueHints lib k visit' r t)).bare := Candidate.bare_joinAll_perm valueHints_perm
  obtain ⟨hscore, -, hsupport, hhard⟩ := Candidate.mk.inj hbare
  rw [finalCandidate, finalCandidate, Candidate.bare, Candidate.bare]
  dsimp only
  rw [hscore, hsupport, hhard, boostedScore_perm]

/-- In another order the value has the same candidate, with the same evidence. -/
theorem exists_candidate_perm {c : Candidate} (h : (t, c) ∈ r.finalCandidates lib k visit) :
    ∃ c', (t, c') ∈ r.finalCandidates lib k visit' ∧ c'.bare = c.bare ∧
      ∀ e, e ∈ c'.evidence ↔ e ∈ c.evidence := by
  have hperm : (valueHints lib k visit' r t).Perm (valueHints lib k visit r t) := valueHints_perm
  obtain ⟨hne, rfl⟩ := mem_finalCandidates.1 h
  refine ⟨finalCandidate lib k visit' r t, mem_finalCandidates.2 ⟨fun hnil => hne ?_, rfl⟩,
    bare_finalCandidate_perm, fun e => ?_⟩
  · rw [hnil] at hperm
    exact hperm.symm.eq_nil
  · rw [finalCandidate, finalCandidate]
    dsimp only
    rw [Candidate.mem_evidence_joinAll_perm hperm]

/-! ## Eligible candidates -/

/-- The eligible candidates are found before any set is visited. -/
theorem foundAt_of_hard (h : ∃ h ∈ valueHints lib k visit r t, h.hardEligible) :
    foundAt lib k r.query (r.hints lib k visit) t =
      foundAt lib k r.query (phraseHints lib k r.query ++ fuzzyHints lib k r.corrections) t := by
  obtain ⟨h, hh, hhard⟩ := h
  obtain ⟨hmem, hadmitted⟩ := mem_admitted.1 hh
  have hfront := List.mem_append.2 (hard_hint hmem hhard)
  rw [Reading.hints, List.append_assoc, foundAt, List.findIdx_append]
  exact if_pos (foundAt_lt_iff.2 ⟨h, hfront, hadmitted⟩)

/-- The item without its evidence. -/
def bareItem (x : String × Candidate) : String × Candidate := (x.1, x.2.bare)

/-- The eligible candidates of a field, without their evidence. -/
def bareExplicit (d : Candidates) (field : String) : List (String × Candidate) :=
  ((itemsOf d field).filter (·.2.hardEligible)).map bareItem

variable {field value : String}

theorem mem_itemsOf_perm {c : Candidate} (h : (value, c) ∈ itemsOf (r.finalCandidates lib k visit) field) :
    ∃ c', (value, c') ∈ itemsOf (r.finalCandidates lib k visit') field ∧ c'.bare = c.bare ∧
      ∀ e, e ∈ c'.evidence ↔ e ∈ c.evidence := by
  obtain ⟨hmem, hscore⟩ := mem_itemsOf.1 h
  obtain ⟨c', hc', hbare, hevidence⟩ := @exists_candidate_perm lib k visit visit' r _ c hmem
  refine ⟨c', mem_itemsOf.2 ⟨hc', ?_⟩, hbare, hevidence⟩
  rwa [(Candidate.mk.inj hbare).1]

theorem mem_bareExplicit {x : String × Candidate} (h : x ∈ bareExplicit (r.finalCandidates lib k visit) field) :
    x ∈ bareExplicit (r.finalCandidates lib k visit') field := by
  obtain ⟨⟨v, c⟩, hx, rfl⟩ := List.mem_map.1 h
  obtain ⟨hx, hhard⟩ := List.mem_filter.1 hx
  obtain ⟨c', hc', hbare, -⟩ := @mem_itemsOf_perm lib k visit visit' r _ v c hx
  refine List.mem_map.2 ⟨(v, c'), List.mem_filter.2 ⟨hc', ?_⟩, Prod.ext rfl hbare⟩
  rwa [(Candidate.mk.inj hbare).2.2.2]

theorem pairwise_bareExplicit : (bareExplicit (r.finalCandidates lib k visit) field).Pairwise fun x y =>
    foundAt lib k r.query (phraseHints lib k r.query ++ fuzzyHints lib k r.corrections) (field, x.1) <
      foundAt lib k r.query (phraseHints lib k r.query ++ fuzzyHints lib k r.corrections) (field, y.1) := by
  have hfound : ∀ x ∈ (itemsOf (r.finalCandidates lib k visit) field).filter (·.2.hardEligible),
      foundAt lib k r.query (r.hints lib k visit) (field, x.1) =
        foundAt lib k r.query (phraseHints lib k r.query ++ fuzzyHints lib k r.corrections) (field, x.1) := by
    intro x hx
    obtain ⟨hx, hhard⟩ := List.mem_filter.1 hx
    exact foundAt_of_hard ((hardEligible_of_mem (mem_itemsOf.1 hx).1).1 hhard)
  refine List.pairwise_map.2 (List.Pairwise.imp_of_mem (fun {x y} hx hy hlt => ?_)
    (pairwise_itemsOf.sublist List.filter_sublist))
  rwa [FoundBefore, hfound x hx, hfound y hy] at hlt

/-- The eligible candidates of a field come in the same order. -/
theorem bareExplicit_perm : bareExplicit (r.finalCandidates lib k visit) field =
    bareExplicit (r.finalCandidates lib k visit') field := by
  have hnodup : ∀ visit, (bareExplicit (r.finalCandidates lib k visit) field).Nodup := fun visit =>
    pairwise_bareExplicit.imp fun hlt heq => absurd (heq ▸ hlt) (lt_irrefl _)
  refine List.Perm.eq_of_pairwise (fun x y _ _ h h' => absurd h (lt_asymm h')) pairwise_bareExplicit
    pairwise_bareExplicit ?_
  exact (List.perm_ext_iff_of_nodup (hnodup visit) (hnodup visit')).2 fun x =>
    ⟨mem_bareExplicit, mem_bareExplicit⟩

/-! ## The first value that ranks highest -/

/-- No candidate of the field ranks higher than that of the value. -/
def Tops (d : Candidates) (field value : String) : Prop :=
  ∃ x ∈ itemsOf d field, x.1 = value ∧ ∀ y ∈ itemsOf d field, rank y ≤ rank x

instance (d : Candidates) (field value : String) : Decidable (Tops d field value) :=
  inferInstanceAs (Decidable (∃ x ∈ _, _ ∧ _))

/-- The hint is admitted, and no value of the field ranks higher than its own. -/
def TopHint (lib : Library) (k : Knowledge) (query : String) (d : Candidates) (field : String) (h : Hint) :
    Prop :=
  h.Admitted lib k query ∧ h.field = field ∧ Tops d field h.value

instance (lib : Library) (k : Knowledge) (query : String) (d : Candidates) (field : String) (h : Hint) :
    Decidable (TopHint lib k query d field h) :=
  inferInstanceAs (Decidable (_ ∧ _))

theorem getElem?_foundAt {hs : List Hint} (h : foundAt lib k r.query hs t < hs.length) :
    ∃ x, hs[foundAt lib k r.query hs t]? = some x ∧ x.tag = t :=
  ⟨_, List.getElem?_eq_getElem h, (of_decide_eq_true (List.findIdx_getElem (w := h))).2⟩

theorem foundAt_inj {hs : List Hint} {t' : Tag} (h : foundAt lib k r.query hs t < hs.length)
    (heq : foundAt lib k r.query hs t = foundAt lib k r.query hs t') : t = t' := by
  obtain ⟨x, hx, rfl⟩ := getElem?_foundAt h
  obtain ⟨x', hx', rfl⟩ := getElem?_foundAt (heq ▸ h)
  rw [heq, hx'] at hx
  exact congrArg Hint.tag (Option.some.inj hx).symm

theorem foundAt_le_length {before after : List Hint} {h : Hint} (hh : h.Admitted lib k r.query) :
    foundAt lib k r.query (before ++ h :: after) h.tag ≤ before.length := by
  rw [foundAt, List.findIdx_append]
  split
  · rename_i hlt
    exact hlt.le
  · rw [List.findIdx_cons, decide_eq_true (p := h.Admitted lib k r.query ∧ h.tag = h.tag) ⟨hh, rfl⟩, cond_true]
    exact (Nat.zero_add _).le

theorem length_le_foundAt {before after : List Hint}
    (h : ∀ x ∈ before, ¬ (x.Admitted lib k r.query ∧ x.tag = t)) :
    before.length ≤ foundAt lib k r.query (before ++ after) t := by
  rw [foundAt, List.findIdx_append, if_neg]
  · exact Nat.le_add_left _ _
  · rw [List.findIdx_lt_length]
    rintro ⟨x, hx, hfound⟩
    exact h x hx (of_decide_eq_true hfound)

/-- Of the candidates that rank highest the first one is that of the first hint on one of them. -/
theorem firstMax_itemsOf : (firstMax rank (itemsOf (r.finalCandidates lib k visit) field)).map (·.1) =
    ((r.hints lib k visit).find? fun h =>
      TopHint lib k r.query (r.finalCandidates lib k visit) field h).map (·.value) := by
  cases hfirst : firstMax rank (itemsOf (r.finalCandidates lib k visit) field) with
  | none =>
    have hnone : (r.hints lib k visit).find? (fun h =>
        TopHint lib k r.query (r.finalCandidates lib k visit) field h) = none := by
      refine List.find?_eq_none.2 fun h _ hh => ?_
      obtain ⟨x, hx, -⟩ := (of_decide_eq_true hh).2.2
      have hsome : (firstMax rank (itemsOf (r.finalCandidates lib k visit) field)).isSome := isSome_firstMax hx
      rw [hfirst] at hsome
      cases hsome
    rw [hnone]
    rfl
  | some x =>
    obtain ⟨hx, hmax⟩ := (firstMax_eq_some_iff pairwise_itemsOf).1 hfirst
    have htops : Tops (r.finalCandidates lib k visit) field x.1 :=
      ⟨x, hx, rfl, fun y hy => (hmax y hy).elim le_of_lt fun h => h.1.le⟩
    obtain ⟨h', hh'⟩ := List.exists_mem_of_ne_nil _ (mem_finalCandidates.1 (mem_itemsOf.1 hx).1).1
    obtain ⟨hmem', hadmitted', htag'⟩ := mem_admitted.1 hh'
    obtain ⟨hfield', hvalue'⟩ := Prod.mk.inj htag'
    cases hfind : (r.hints lib k visit).find? fun h =>
        TopHint lib k r.query (r.finalCandidates lib k visit) field h with
    | none =>
      have hnot := List.find?_eq_none.1 hfind h' hmem'
      exact absurd (decide_eq_true ⟨hadmitted', hfield', hvalue' ▸ htops⟩) hnot
    | some h =>
      obtain ⟨htop, before, after, hsplit, hbefore⟩ := List.find?_eq_some_iff_append.1 hfind
      obtain ⟨hadmitted, rfl, y, hy, hyvalue, hymax⟩ := of_decide_eq_true htop
      have hnone : ∀ h'' ∈ before, ¬ (h''.Admitted lib k r.query ∧ h''.tag = (h.field, x.1)) := by
        rintro h'' hh'' ⟨hadmitted'', htag''⟩
        obtain ⟨hfield'', hvalue''⟩ := Prod.mk.inj htag''
        have hnot := hbefore h'' hh''
        rw [decide_eq_true ⟨hadmitted'', hfield'', hvalue'' ▸ htops⟩] at hnot
        cases hnot
      have hle := @length_le_foundAt lib k r _ before (h :: after) hnone
      have hge := @foundAt_le_length lib k r before after h hadmitted
      rw [← hsplit] at hle hge
      have hfound := ((hmax y hy).resolve_left (not_lt.2 (hymax x hx))).2
      rw [hyvalue] at hfound
      have heq : foundAt lib k r.query (r.hints lib k visit) (h.field, x.1) =
          foundAt lib k r.query (r.hints lib k visit) h.tag := le_antisymm hfound (hge.trans hle)
      have htag := foundAt_inj (foundAt_lt_iff.2 ⟨h', hmem', hadmitted', htag'⟩) heq
      exact congrArg some (Prod.mk.inj htag).2

end Hints

end Search

end Stylme
