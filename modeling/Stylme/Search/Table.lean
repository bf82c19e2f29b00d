-- SUMMARY: What is in the table of candidates: the hints of each value joined, and what the correlations change.
import Stylme.Search.Compile

/-!
# The table of candidates

A candidate is made of the admitted hints of its value. The correlations only raise scores, and
the selection only leaves candidates out.
-/

namespace Stylme

open Conc Backend Catalogue Reconciler

namespace Search

variable {lib : Library} {k : Knowledge} {visit : Visits} {query : String}

/-! ## Joining hints -/

namespace Candidate

variable {c : Candidate} {hs : List Hint}

/-- The candidate after several hints. -/
def joinAll (c : Candidate) (hs : List Hint) : Candidate := hs.foldl join c

theorem joinAll_hardEligible : (c.joinAll hs).hardEligible = (c.hardEligible || hs.any (·.hardEligible)) := by
  induction hs generalizing c with
  | nil => exact (Bool.or_false _).symm
  | cons h hs ih =>
    rw [joinAll, List.foldl_cons, List.any_cons, ← Bool.or_assoc]
    exact ih

theorem le_joinAll_score : c.score ≤ (c.joinAll hs).score := by
  induction hs generalizing c with
  | nil => exact le_rfl
  | cons h hs ih => exact (le_max_left _ _).trans ih

theorem score_le_joinAll {h : Hint} (hh : h ∈ hs) : h.score ≤ (c.joinAll hs).score := by
  induction hs generalizing c with
  | nil => exact absurd hh List.not_mem_nil
  | cons h' hs ih =>
    rcases List.mem_cons.1 hh with rfl | hh
    · exact (le_max_right _ _).trans (le_joinAll_score (c := c.join h))
    · exact ih hh

theorem joinAll_score_le {b : ℚ} (hc : c.score ≤ b) (hb : ∀ h ∈ hs, h.score ≤ b) :
    (c.joinAll hs).score ≤ b := by
  induction hs generalizing c with
  | nil => exact hc
  | cons h hs ih =>
    rw [List.forall_mem_cons] at hb
    exact ih (max_le hc hb.1) hb.2

theorem joinAll_support_le {b : ℤ} (hc : c.support ≤ b) (hb : ∀ h ∈ hs, h.support ≤ b) :
    (c.joinAll hs).support ≤ b := by
  induction hs generalizing c with
  | nil => exact hc
  | cons h hs ih =>
    rw [List.forall_mem_cons] at hb
    exact ih (max_le hc hb.1) hb.2

theorem le_joinAll_support : c.support ≤ (c.joinAll hs).support := by
  induction hs generalizing c with
  | nil => exact le_rfl
  | cons h hs ih => exact (le_max_left _ _).trans ih

theorem mem_joinAll_evidence {e : Evidence} :
    e ∈ (c.joinAll hs).evidence ↔ e ∈ c.evidence ∨ ∃ h ∈ hs, h.evidence = e := by
  induction hs generalizing c with
  | nil => simp [joinAll]
  | cons h hs ih =>
    have hjoin : e ∈ (c.join h).evidence ↔ e ∈ c.evidence ∨ h.evidence = e := by
      rw [join]
      split
      · rename_i hmem
        exact ⟨.inl, fun he => he.elim id fun heq => heq ▸ hmem⟩
      · rw [List.mem_append, List.mem_singleton, eq_comm (a := e)]
    rw [joinAll, List.foldl_cons, ← joinAll, ih, hjoin, List.exists_mem_cons_iff, or_assoc]

end Candidate

/-! ## Adding hints -/

/-- The hints of one value that are admitted. -/
def admitted (lib : Library) (k : Knowledge) (query : String) (hs : List Hint) (t : Tag) : List Hint :=
  hs.filter fun h => h.Admitted lib k query ∧ h.tag = t

theorem mem_admitted {hs : List Hint} {t : Tag} {h : Hint} :
    h ∈ admitted lib k query hs t ↔ h ∈ hs ∧ h.Admitted lib k query ∧ h.tag = t := by
  rw [admitted, List.mem_filter, decide_eq_true_eq]

theorem lookup_foldl_add {hs : List Hint} {d : Candidates} {t : Tag} :
    (hs.foldl (add lib k query) d).lookup t =
      if admitted lib k query hs t = [] then d.lookup t
      else some (((d.lookup t).getD .empty).joinAll (admitted lib k query hs t)) := by
  induction hs generalizing d with
  | nil => rfl
  | cons h hs ih =>
    rw [List.foldl_cons, ih, add]
    by_cases hadmitted : h.Admitted lib k query
    · rw [if_pos hadmitted, lookup_amend]
      by_cases htag : t = h.tag
      · have hcons : admitted lib k query (h :: hs) t = h :: admitted lib k query hs t :=
          List.filter_cons_of_pos (decide_eq_true ⟨hadmitted, htag.symm⟩)
        rw [hcons, if_pos htag, if_neg (List.cons_ne_nil _ _), ← htag, Option.getD_some]
        split
        · rename_i hnil
          rw [hnil]
          rfl
        · rfl
      · have hskip : admitted lib k query (h :: hs) t = admitted lib k query hs t :=
          List.filter_cons_of_neg fun hh => htag (of_decide_eq_true hh).2.symm
        rw [hskip, if_neg htag]
    · have hskip : admitted lib k query (h :: hs) t = admitted lib k query hs t :=
        List.filter_cons_of_neg fun hh => hadmitted (of_decide_eq_true hh).1
      rw [if_neg hadmitted, hskip]

theorem nodup_keys_foldl_add {hs : List Hint} {d : Candidates} (hd : (d.map (·.1)).Nodup) :
    ((hs.foldl (add lib k query) d).map (·.1)).Nodup := by
  induction hs generalizing d with
  | nil => exact hd
  | cons h hs ih =>
    refine ih ?_
    rw [add]
    split
    · exact nodup_keys_amend hd
    · exact hd

theorem mem_foldl_add {hs : List Hint} {x : Tag × Candidate} :
    x ∈ hs.foldl (add lib k query) [] ↔ admitted lib k query hs x.1 ≠ [] ∧
      x.2 = Candidate.empty.joinAll (admitted lib k query hs x.1) := by
  have hlookup := @lookup_foldl_add lib k query hs [] x.1
  have hnodup : ((hs.foldl (add lib k query) []).map (·.1)).Nodup := nodup_keys_foldl_add .nil
  constructor
  · intro hx
    rw [lookup_of_mem hnodup hx] at hlookup
    split at hlookup
    · cases hlookup
    · rename_i hne
      exact ⟨hne, Option.some.inj hlookup⟩
  · rintro ⟨hne, hx⟩
    rw [if_neg hne] at hlookup
    have hmem := mem_of_lookup hlookup
    rwa [List.lookup_nil, Option.getD_none, ← hx] at hmem

/-! ## Correlations -/

section Boosted

variable {model : IntentModel} {d : Candidates} {e : CorrelationEdge}

/-- The same candidate, but for its score. -/
def SameHints (x y : Tag × Candidate) : Prop :=
  x.1 = y.1 ∧ x.2.evidence = y.2.evidence ∧ x.2.support = y.2.support ∧
    x.2.hardEligible = y.2.hardEligible

theorem forall₂_gain : List.Forall₂ SameHints (gain d e) d := by
  rw [gain, List.forall₂_map_left_iff]
  refine List.forall₂_same.2 fun x _ => ?_
  split <;> exact ⟨rfl, rfl, rfl, rfl⟩

theorem SameHints.trans {x y z : Tag × Candidate} (h : SameHints x y) (h' : SameHints y z) :
    SameHints x z :=
  ⟨h.1.trans h'.1, h.2.1.trans h'.2.1, h.2.2.1.trans h'.2.2.1, h.2.2.2.trans h'.2.2.2⟩

theorem forall₂_foldl_gain {es : List CorrelationEdge} : List.Forall₂ SameHints (es.foldl gain d) d := by
  induction es generalizing d with
  | nil => exact List.forall₂_same.2 fun _ _ => ⟨rfl, rfl, rfl, rfl⟩
  | cons e es ih =>
    refine List.forall₂_iff_get.2 ?_
    obtain ⟨hlen, hget⟩ := List.forall₂_iff_get.1 (@ih (gain d e))
    obtain ⟨hlen', hget'⟩ := List.forall₂_iff_get.1 (@forall₂_gain d e)
    exact ⟨hlen.trans hlen', fun i h h' => (hget i h (hlen'.symm ▸ h')).trans (hget' i _ h')⟩

/-- The correlations change nothing but scores. -/
theorem forall₂_boosted : List.Forall₂ SameHints (boosted model d) d := forall₂_foldl_gain

theorem keys_boosted : (boosted model d).map (·.1) = d.map (·.1) := by
  have h : List.Forall₂ SameHints (boosted model d) d := forall₂_boosted
  generalize boosted model d = b at h
  induction h with
  | nil => rfl
  | cons h _ ih => rw [List.map_cons, List.map_cons, h.1, ih]

theorem exists_of_mem_boosted {x : Tag × Candidate} (hx : x ∈ boosted model d) :
    ∃ y ∈ d, SameHints x y := by
  have h : List.Forall₂ SameHints (boosted model d) d := forall₂_boosted
  generalize boosted model d = b at h hx
  induction h with
  | nil => exact absurd hx List.not_mem_nil
  | cons h _ ih =>
    rcases List.mem_cons.1 hx with rfl | hx
    · exact ⟨_, List.mem_cons_self, h⟩
    · obtain ⟨y, hy, hsame⟩ := ih hx
      exact ⟨y, List.mem_cons_of_mem _ hy, hsame⟩

end Boosted

/-! ## Selection -/

section Selected

variable {d : Candidates} {field value : String} {c : Candidate}

theorem mem_slice {α : Type} {n : ℤ} {items : List α} {a : α} (h : a ∈ slice n items) : a ∈ items := by
  rw [slice] at h
  split at h <;> exact List.mem_of_mem_take h

theorem length_slice_one {α : Type} {items : List α} : (slice 1 items).length ≤ 1 := by
  rw [slice, if_pos Int.one_nonneg]
  exact List.length_take_le 1 items

theorem mem_itemsOf : (value, c) ∈ itemsOf d field ↔ ((field, value), c) ∈ d ∧ 68 / 100 ≤ c.score := by
  rw [itemsOf, List.mem_map]
  constructor
  · rintro ⟨⟨⟨f, v⟩, c'⟩, hitem, heq⟩
    obtain ⟨hscored, hfield⟩ := List.mem_filter.1 hitem
    obtain ⟨hx, hscore⟩ := List.mem_filter.1 hscored
    obtain ⟨rfl, rfl⟩ := Prod.mk.inj heq
    obtain rfl : f = field := of_decide_eq_true hfield
    exact ⟨hx, of_decide_eq_true hscore⟩
  · rintro ⟨hx, hscore⟩
    exact ⟨((field, value), c), List.mem_filter.2 ⟨List.mem_filter.2 ⟨hx, decide_eq_true hscore⟩,
      decide_eq_true rfl⟩, rfl⟩

theorem mem_ranked {items : List (String × Candidate)} {x : String × Candidate} :
    x ∈ ranked items ↔ x ∈ items := List.mem_insertionSort _

theorem mem_selectedOf (h : (value, c) ∈ selectedOf k d field) : (value, c) ∈ itemsOf d field := by
  simp only [selectedOf] at h
  split at h
  · exact List.mem_of_mem_filter (mem_ranked.1 (mem_slice h))
  · exact mem_ranked.1 (mem_slice h)

theorem length_selectedOf_le (h : field ∈ singleFields) : (selectedOf k d field).length ≤ 1 := by
  simp only [selectedOf]
  rw [if_pos h]
  split <;> exact length_slice_one

theorem lookup_selected : ((selected k d).lookup field).getD [] = selectedOf k d field := by
  have hmap : ∀ l : List String, (l.map fun field => (field, selectedOf k d field)).lookup field =
      if field ∈ l then some (selectedOf k d field) else none := by
    intro l
    induction l with
    | nil => rfl
    | cons f l ih =>
      rw [List.map_cons, lookup_cons_item, ih]
      by_cases hf : field = f
      · rw [if_pos hf, if_pos (hf ▸ List.mem_cons_self), hf]
      · rw [if_neg hf]
        exact if_congr (by rw [List.mem_cons, or_iff_right hf]) rfl rfl
  rw [selected, hmap]
  split
  · rfl
  · rename_i hfield
    have hnil : itemsOf d field = [] := by
      rw [itemsOf, List.map_eq_nil_iff, List.filter_eq_nil_iff]
      intro x hx heq
      refine hfield (List.mem_eraseDups.2 (List.mem_map.2 ⟨x, hx, of_decide_eq_true heq⟩))
    rw [selectedOf, hnil]
    rfl

/-- A hard value is that of a hard-eligible candidate with enough evidence. -/
theorem exists_of_mem_hardValues (h : value ∈ hardValues k d field) :
    ∃ c, ((field, value), c) ∈ d ∧ 68 / 100 ≤ c.score ∧ c.hardEligible := by
  rw [hardValues, lookup_selected] at h
  obtain ⟨⟨v, c⟩, hx, rfl⟩ := List.mem_map.1 h
  obtain ⟨hx, hhard⟩ := List.mem_filter.1 hx
  obtain ⟨hmem, hscore⟩ := mem_itemsOf.1 (mem_selectedOf hx)
  exact ⟨c, hmem, hscore, hhard⟩

theorem length_hardValues_le (h : field ∈ singleFields) : (hardValues k d field).length ≤ 1 := by
  rw [hardValues, lookup_selected, List.length_map]
  exact (List.length_filter_le _ _).trans (length_selectedOf_le h)

end Selected

end Search

end Stylme
