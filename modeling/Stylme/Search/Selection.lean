-- SUMMARY: Which candidates are selected: the place of a candidate among those of its field, and the score after the correlations.
import Stylme.Search.Hints

/-!
# Selection

A field compares its hard-eligible candidates, or all of them when there is none, and takes the
greatest. A selected value is in the ranking vector, and in the filters of its field.
-/

namespace Stylme

open Conc Backend Catalogue Reconciler

namespace Search

variable (k : Knowledge)

/-! ## Places -/

/-- How many of the elements `items[:n]` has. -/
def sliceLength (n : ℤ) (length : ℕ) : ℕ := if 0 ≤ n then n.toNat else length - n.natAbs

/-- The candidates of a field that are compared. -/
def contenders (d : Candidates) (field : String) : List (String × Candidate) :=
  if (itemsOf d field).any (·.2.hardEligible) then (itemsOf d field).filter (·.2.hardEligible)
  else itemsOf d field

/-- How many of them are taken. -/
def room (d : Candidates) (field : String) : ℕ :=
  if (itemsOf d field).any (·.2.hardEligible) then
    if field ∈ singleFields then 1 else sliceLength (k.maxSelections field) (contenders d field).length
  else 1

/-- A value that is eligible takes the place of a candidate that is not, or those that rank before
the candidate fill the room of its field. -/
def Outranked (d : Candidates) (field : String) (x : String × Candidate) : Prop :=
  (x.2.hardEligible = false ∧ ∃ y ∈ itemsOf d field, y.2.hardEligible) ∨
    room k d field ≤ (ranked (contenders d field)).idxOf x

variable {k} {d : Candidates} {field value : String} {c : Candidate} {x : String × Candidate}

theorem slice_eq_take {α : Type} {n : ℤ} {items : List α} :
    slice n items = items.take (sliceLength n items.length) := by
  rw [slice, sliceLength]
  split <;> rfl

theorem length_ranked {items : List (String × Candidate)} : (ranked items).length = items.length :=
  List.length_insertionSort _ _

theorem selectedOf_eq :
    selectedOf k d field = (ranked (contenders d field)).take (room k d field) := by
  have hany : (itemsOf d field).filter (·.2.hardEligible) ≠ [] ↔
      (itemsOf d field).any (·.2.hardEligible) := by
    rw [ne_eq, List.filter_eq_nil_iff, List.any_eq_true]
    push Not
    rfl
  simp only [selectedOf, contenders, room]
  by_cases hhard : (itemsOf d field).any (·.2.hardEligible)
  · rw [if_pos (hany.2 hhard), if_pos hhard, if_pos hhard, slice_eq_take, length_ranked]
    by_cases hsingle : field ∈ singleFields
    · rw [if_pos hsingle, if_pos hsingle]
      rfl
    · rw [if_neg hsingle, if_neg hsingle]
  · rw [if_neg (mt hany.1 hhard), if_neg hhard, if_neg hhard, slice_eq_take]
    rfl

theorem mem_contenders : x ∈ contenders d field ↔
    x ∈ itemsOf d field ∧ ¬ (x.2.hardEligible = false ∧ ∃ y ∈ itemsOf d field, y.2.hardEligible) := by
  rw [contenders]
  split
  · rename_i hhard
    rw [List.mem_filter]
    refine and_congr_right fun _ => ?_
    rw [not_and', Bool.not_eq_false]
    exact ⟨fun h _ => h, fun h => h (List.any_eq_true.1 hhard)⟩
  · rename_i hsoft
    exact (and_iff_left fun h => hsoft (List.any_eq_true.2 h.2)).symm

theorem mem_selectedOf_iff :
    x ∈ selectedOf k d field ↔ x ∈ itemsOf d field ∧ ¬ Outranked k d field x := by
  rw [selectedOf_eq, Outranked, not_or, ← and_assoc, ← mem_contenders, not_le]
  constructor
  · intro h
    have hmem := List.mem_of_mem_take h
    exact ⟨mem_ranked.1 hmem, (List.mem_take_iff_idxOf_lt hmem).1 h⟩
  · exact fun ⟨hx, hplace⟩ => (List.mem_take_iff_idxOf_lt (mem_ranked.2 hx)).2 hplace

/-- Of the candidates of a single field the first that ranks highest is selected. -/
theorem selectedOf_single (h : field ∈ singleFields) :
    selectedOf k d field = (firstMax rank (contenders d field)).toList := by
  have hroom : room k d field = 1 := by
    rw [room, if_pos h]
    exact ite_self _
  have hhead : (ranked (contenders d field)).head? = firstMax rank (contenders d field) := head?_insertionSort
  rw [selectedOf_eq, hroom, ← hhead]
  cases ranked (contenders d field) <;> rfl

/-! ## Filters and ranking -/

theorem mem_selectedItems :
    ((field, value), c) ∈ selectedItems k d ↔ (value, c) ∈ selectedOf k d field := by
  rw [selectedItems, List.mem_flatMap]
  constructor
  · rintro ⟨⟨f, items⟩, hitems, hx⟩
    obtain ⟨⟨v, c'⟩, hitem, heq⟩ := List.mem_map.1 hx
    obtain ⟨f', -, hf⟩ := List.mem_map.1 hitems
    obtain ⟨rfl, rfl⟩ := Prod.mk.inj hf
    obtain ⟨htag, rfl⟩ := Prod.mk.inj heq
    obtain ⟨rfl, rfl⟩ := Prod.mk.inj htag
    exact hitem
  · intro h
    obtain ⟨hx, hscore⟩ := mem_itemsOf.1 (mem_selectedOf h)
    have hfield : field ∈ selectedFields d := List.mem_eraseDups.2
      (List.mem_map.2 ⟨_, List.mem_filter.2 ⟨hx, decide_eq_true hscore⟩, rfl⟩)
    exact ⟨(field, selectedOf k d field), List.mem_map.2 ⟨field, hfield, rfl⟩,
      List.mem_map.2 ⟨(value, c), h, rfl⟩⟩

theorem mem_rankingVector : (∃ e ∈ rankingVector ((selectedItems k d).map scoredNode),
    e.field = field ∧ e.value = value) ↔ ∃ c, (value, c) ∈ selectedOf k d field := by
  constructor
  · rintro ⟨e, he, rfl, rfl⟩
    obtain ⟨n, hn, rfl⟩ := List.mem_map.1 he
    obtain ⟨⟨⟨f, v⟩, c⟩, hitem, rfl⟩ := List.mem_map.1 (List.mem_of_mem_filter hn)
    exact ⟨c, mem_selectedItems.1 hitem⟩
  · rintro ⟨c, hc⟩
    have hscore : (1 / 2 : ℚ) ≤ roundFour c.score := by
      have hleast : roundFour (68 / 100) = 68 / 100 := by decide +kernel
      refine le_trans ?_ (roundFour_mono (mem_itemsOf.1 (mem_selectedOf hc)).2)
      rw [hleast]
      norm_num
    have hnode : scoredNode ((field, value), c) ∈ (selectedItems k d).map scoredNode :=
      List.mem_map.2 ⟨_, mem_selectedItems.2 hc, rfl⟩
    exact ⟨_, List.mem_map.2 ⟨_, List.mem_filter.2 ⟨hnode, decide_eq_true hscore⟩, rfl⟩, rfl, rfl⟩

theorem mem_metadataFilters {x : String × List String} (h : x ∈ metadataFilters k d)
    (hvalue : value ∈ x.2) : ∃ c, (value, c) ∈ selectedOf k d x.1 := by
  obtain ⟨⟨f, items⟩, hitems, rfl⟩ := List.mem_map.1 h
  obtain ⟨f', -, hf⟩ := List.mem_map.1 (List.mem_of_mem_filter hitems)
  obtain ⟨rfl, rfl⟩ := Prod.mk.inj hf
  obtain ⟨⟨v, c⟩, hc, rfl⟩ := List.mem_map.1 hvalue
  exact ⟨c, hc⟩

theorem mem_hardValues : value ∈ hardValues k d field ↔
    ∃ c, (value, c) ∈ selectedOf k d field ∧ c.hardEligible := by
  rw [hardValues, lookup_selected, List.mem_map]
  constructor
  · rintro ⟨⟨v, c⟩, hc, rfl⟩
    exact ⟨c, List.mem_filter.1 hc⟩
  · rintro ⟨c, hc⟩
    exact ⟨(value, c), List.mem_filter.2 hc, rfl⟩

/-! ## The score after the correlations -/

/-- The score of a candidate after the correlations of the table. -/
def boostedScore (model : IntentModel) (d : Candidates) (t : Tag) (score : ℚ) : ℚ :=
  ((correlated model d).filter fun e => t = (e.field, e.value)).foldl (fun s e => min 1 (s + e.boost)) score

theorem lookup_gain {e : CorrelationEdge} {t : Tag} : (gain d e).lookup t =
    (d.lookup t).map fun c =>
      if t = (e.field, e.value) then { c with score := min 1 (c.score + e.boost) } else c := by
  induction d with
  | nil => rfl
  | cons x d ih =>
    rw [gain, List.map_cons, ← gain, lookup_cons_item, lookup_cons_item, ih]
    by_cases hx : x.1 = (e.field, e.value)
    · rw [if_pos hx]
      by_cases ht : t = x.1
      · rw [if_pos ht, if_pos ht, Option.map_some, if_pos (ht.trans hx)]
      · rw [if_neg ht, if_neg ht]
    · rw [if_neg hx]
      by_cases ht : t = x.1
      · rw [if_pos ht, if_pos ht, Option.map_some, if_neg (ht ▸ hx)]
      · rw [if_neg ht, if_neg ht]

theorem lookup_foldl_gain {es : List CorrelationEdge} {t : Tag} : (es.foldl gain d).lookup t =
    (d.lookup t).map fun c => { c with
      score := (es.filter fun e => t = (e.field, e.value)).foldl (fun s e => min 1 (s + e.boost)) c.score } := by
  induction es generalizing d with
  | nil => exact (congrFun Option.map_id _).symm
  | cons e es ih =>
    rw [List.foldl_cons, ih, lookup_gain, Option.map_map]
    congr 1
    funext c
    rw [Function.comp_apply, List.filter_cons]
    by_cases ht : t = (e.field, e.value)
    · rw [if_pos ht, if_pos (decide_eq_true ht), List.foldl_cons]
    · rw [if_neg ht, if_neg (mt of_decide_eq_true ht)]

theorem lookup_boosted {model : IntentModel} {t : Tag} : (boosted model d).lookup t =
    (d.lookup t).map fun c => { c with score := boostedScore model d t c.score } :=
  lookup_foldl_gain

theorem nodup_keys_boosted {model : IntentModel} (h : (d.map (·.1)).Nodup) :
    ((boosted model d).map (·.1)).Nodup := by
  rwa [keys_boosted]

/-! ## The order of the candidates -/

/-- In a list whose front is ordered, what is in the front is found before what may not precede it. -/
theorem findIdx_lt_findIdx {α : Type} {r : α → α → Prop} {front rest : List α} {p q : α → Bool} {a : α}
    (hfront : front.Pairwise r) (ha : a ∈ front) (hp : p a)
    (hq : ∀ b ∈ front ++ rest, q b → ¬ p b ∧ ¬ r b a) (hfound : ∃ b ∈ front ++ rest, q b) :
    (front ++ rest).findIdx p < (front ++ rest).findIdx q := by
  induction front with
  | nil => exact absurd ha List.not_mem_nil
  | cons x front ih =>
    obtain ⟨hx, hfront⟩ := List.pairwise_cons.1 hfront
    rw [List.cons_append, List.forall_mem_cons] at hq
    have hqx : ¬ q x := fun hqx => by
      rcases List.mem_cons.1 ha with rfl | ha
      · exact (hq.1 hqx).1 hp
      · exact (hq.1 hqx).2 (hx a ha)
    rw [List.cons_append, List.findIdx_cons, List.findIdx_cons, eq_false_of_ne_true hqx, cond_false]
    by_cases hpx : p x
    · rw [hpx, cond_true]
      exact Nat.succ_pos _
    · have hne : a ≠ x := fun heq => hpx (heq ▸ hp)
      rw [List.cons_append, List.exists_mem_cons_iff, or_iff_right hqx] at hfound
      rw [eq_false_of_ne_true hpx, cond_false]
      exact Nat.succ_lt_succ (ih hfront ((List.mem_cons.1 ha).resolve_left hne) hq.2 hfound)

/-- The place of the first admitted hint of a value. -/
def foundAt (lib : Library) (k : Knowledge) (query : String) (hs : List Hint) (t : Tag) : ℕ :=
  hs.findIdx fun h => h.Admitted lib k query ∧ h.tag = t

section Order

variable {lib : Library} {query : String} {hs : List Hint} {t : Tag}

theorem foundAt_lt_iff : foundAt lib k query hs t < hs.length ↔
    ∃ h ∈ hs, h.Admitted lib k query ∧ h.tag = t := by
  rw [foundAt, List.findIdx_lt_length]
  exact exists_congr fun h => and_congr_right fun _ => decide_eq_true_iff

theorem foundAt_concat {h : Hint} (ht : foundAt lib k query hs t < hs.length) :
    foundAt lib k query (hs ++ [h]) t = foundAt lib k query hs t := by
  rw [foundAt, List.findIdx_append]
  exact if_pos ht

theorem length_le_foundAt_concat {h : Hint} (ht : ¬ foundAt lib k query hs t < hs.length) :
    hs.length ≤ foundAt lib k query (hs ++ [h]) t := by
  rw [foundAt, List.findIdx_append]
  exact (le_add_self).trans (if_neg ht).ge

theorem mem_keys_foldl_add :
    t ∈ (hs.foldl (add lib k query) []).map (·.1) ↔ foundAt lib k query hs t < hs.length := by
  rw [foundAt_lt_iff, List.mem_map]
  constructor
  · rintro ⟨x, hx, rfl⟩
    obtain ⟨h, hh⟩ := List.exists_mem_of_ne_nil _ (mem_foldl_add.1 hx).1
    exact ⟨h, mem_admitted.1 hh⟩
  · rintro ⟨h, hh⟩
    exact ⟨(t, Candidate.empty.joinAll (admitted lib k query hs t)),
      mem_foldl_add.2 ⟨List.ne_nil_of_mem (mem_admitted.2 hh), rfl⟩, rfl⟩

/-- The candidates are in the order in which their values are found. -/
theorem pairwise_foundAt : ((hs.foldl (add lib k query) []).map (·.1)).Pairwise fun t t' =>
    foundAt lib k query hs t < foundAt lib k query hs t' := by
  induction hs using List.reverseRecOn with
  | nil => exact .nil
  | append_singleton hs h ih =>
    have hkept : ((hs.foldl (add lib k query) []).map (·.1)).Pairwise fun t t' =>
        foundAt lib k query (hs ++ [h]) t < foundAt lib k query (hs ++ [h]) t' := by
      refine ih.imp_of_mem fun ht ht' hlt => ?_
      rwa [foundAt_concat (mem_keys_foldl_add.1 ht), foundAt_concat (mem_keys_foldl_add.1 ht')]
    rw [List.foldl_append, List.foldl_cons, List.foldl_nil, add]
    split
    · rw [keys_amend]
      split
      · exact hkept
      · rename_i hnew
        refine List.pairwise_append.2 ⟨hkept, List.pairwise_singleton _ _, fun t ht t' ht' => ?_⟩
        rw [List.mem_singleton.1 ht', foundAt_concat (mem_keys_foldl_add.1 ht)]
        exact (mem_keys_foldl_add.1 ht).trans_le (length_le_foundAt_concat (mt mem_keys_foldl_add.2 hnew))
    · exact hkept

end Order

/-! ## The hints and the rank of a value -/

section Final

variable (lib : Library) (k : Knowledge) (visit : Visits)

/-- The admitted hints of a value. -/
def valueHints (r : Reading) (t : Tag) : List Hint :=
  admitted lib k r.query (r.hints lib k visit) t

/-- The score of a value after the correlations, and its support. -/
def valueRank (r : Reading) (t : Tag) : ℚ ×ₗ ℤ :=
  toLex (boostedScore k.model (r.candidates lib k visit) t
      (Candidate.empty.joinAll (valueHints lib k visit r t)).score,
    (Candidate.empty.joinAll (valueHints lib k visit r t)).support)

/-- The candidate that the hints and the correlations make of a value. -/
def finalCandidate (r : Reading) (t : Tag) : Candidate :=
  { Candidate.empty.joinAll (valueHints lib k visit r t) with
    score := boostedScore k.model (r.candidates lib k visit) t
      (Candidate.empty.joinAll (valueHints lib k visit r t)).score }

/-- The first admitted hint of the one value comes before that of the other. -/
def FoundBefore (r : Reading) (t t' : Tag) : Prop :=
  foundAt lib k r.query (r.hints lib k visit) t < foundAt lib k r.query (r.hints lib k visit) t'

variable {lib k visit} {r : Reading} {t : Tag}

theorem nodup_keys_finalCandidates : ((r.finalCandidates lib k visit).map (·.1)).Nodup :=
  nodup_keys_boosted (nodup_keys_foldl_add .nil)

/-- A candidate joins the admitted hints of its value, and gains what the correlations add. -/
theorem lookup_finalCandidates : (r.finalCandidates lib k visit).lookup t =
    if admitted lib k r.query (r.hints lib k visit) t = [] then none
    else some { Candidate.empty.joinAll (admitted lib k r.query (r.hints lib k visit) t) with
      score := boostedScore k.model (r.candidates lib k visit) t
        (Candidate.empty.joinAll (admitted lib k r.query (r.hints lib k visit) t)).score } := by
  rw [Reading.finalCandidates, lookup_boosted, Reading.candidates, lookup_foldl_add]
  split <;> rfl

theorem mem_finalCandidates_iff {x : Tag × Candidate} : x ∈ r.finalCandidates lib k visit ↔
    (r.finalCandidates lib k visit).lookup x.1 = some x.2 :=
  ⟨lookup_of_mem nodup_keys_finalCandidates, mem_of_lookup⟩

theorem mem_finalCandidates : (t, c) ∈ r.finalCandidates lib k visit ↔
    valueHints lib k visit r t ≠ [] ∧ finalCandidate lib k visit r t = c := by
  rw [mem_finalCandidates_iff, lookup_finalCandidates, ← valueHints, ← finalCandidate]
  split
  · rename_i hnil
    exact iff_of_false nofun fun h => h.1 hnil
  · rename_i hne
    rw [Option.some_inj, and_iff_right hne]

theorem rank_of_mem (h : (t, c) ∈ r.finalCandidates lib k visit) :
    rank (t.2, c) = valueRank lib k visit r t := by
  obtain ⟨-, rfl⟩ := mem_finalCandidates.1 h
  rw [rank, finalCandidate, valueRank]

theorem hardEligible_of_mem (h : (t, c) ∈ r.finalCandidates lib k visit) :
    c.hardEligible ↔ ∃ h ∈ valueHints lib k visit r t, h.hardEligible := by
  obtain ⟨-, rfl⟩ := mem_finalCandidates.1 h
  rw [finalCandidate]
  dsimp only
  rw [Candidate.joinAll_hardEligible, Candidate.empty, Bool.false_or, List.any_eq_true]

theorem pairwise_itemsOf : (itemsOf (r.finalCandidates lib k visit) field).Pairwise fun x y =>
    FoundBefore lib k visit r (field, x.1) (field, y.1) := by
  have hall : (r.finalCandidates lib k visit).Pairwise fun x y => FoundBefore lib k visit r x.1 y.1 := by
    refine List.pairwise_map.1 ?_
    rw [Reading.finalCandidates, keys_boosted]
    exact pairwise_foundAt
  refine List.pairwise_map.2 (List.Pairwise.imp_of_mem (fun {x y} hx hy hbefore => ?_)
    ((hall.sublist List.filter_sublist).sublist List.filter_sublist))
  have hxtag : x.1 = (field, x.1.2) := Prod.ext (of_decide_eq_true (List.mem_filter.1 hx).2) rfl
  have hytag : y.1 = (field, y.1.2) := Prod.ext (of_decide_eq_true (List.mem_filter.1 hy).2) rfl
  rwa [hxtag, hytag] at hbefore

theorem pairwise_contenders : (contenders (r.finalCandidates lib k visit) field).Pairwise fun x y =>
    FoundBefore lib k visit r (field, x.1) (field, y.1) := by
  rw [contenders]
  split
  · exact pairwise_itemsOf.sublist List.filter_sublist
  · exact pairwise_itemsOf

end Final

end Search

end Stylme
