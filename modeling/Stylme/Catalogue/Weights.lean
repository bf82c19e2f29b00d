-- SUMMARY: The dictionaries of ranking weights: their keys are distinct and their weights positive.
import Stylme.Catalogue.Ranking
import Stylme.Domain.Dictionary

/-!
# Ranking weights

Both the request and `_list_swoopstyl_products` build their weights as dictionaries.
A dictionary built from one that is already clean is that dictionary again.
-/

namespace Stylme

open Conc Backend

namespace Catalogue

/-! ## The weights of one field -/

/-- The weights of a field: distinct values, each with a positive weight of at most one. -/
structure CleanValues (values : List (String × ℚ)) : Prop where
  keys : (values.map (·.1)).Nodup
  bounded : ∀ x ∈ values, 0 < x.2 ∧ x.2 ≤ 1

theorem CleanValues.nil : CleanValues [] := ⟨.nil, fun _ h => absurd h List.not_mem_nil⟩

theorem CleanValues.setKey {values : List (String × ℚ)} (h : CleanValues values) {v : String} {w : ℚ}
    (hw : 0 < w ∧ w ≤ 1) : CleanValues (setKey v w values) where
  keys := nodup_keys_setKey h.keys
  bounded x hx := by
    rcases mem_of_mem_setKey hx with rfl | hx
    · exact hw
    · exact h.bounded x hx

theorem CleanValues.setDefault {values : List (String × ℚ)} (h : CleanValues values) {v : String} :
    CleanValues (setDefault v 1 values) := by
  unfold Catalogue.setDefault
  split
  · exact h
  · rename_i hnew
    have hk : v ∉ values.map (·.1) := by
      intro hmem
      obtain ⟨x, hx, hxv⟩ := List.mem_map.1 hmem
      exact hnew (List.any_eq_true.2 ⟨x, hx, decide_eq_true hxv⟩)
    refine ⟨nodup_keys_append h.keys hk, fun x hx => ?_⟩
    rcases List.mem_append.1 hx with hx | hx
    · exact h.bounded x hx
    · obtain rfl := List.mem_singleton.1 hx
      exact ⟨one_pos, le_rfl⟩

theorem clampedWeights_clean (values : List (String × ℚ)) : CleanValues (clampedWeights values) := by
  have hfold : ∀ (l d : List (String × ℚ)), CleanValues d → CleanValues (l.foldl (fun d x =>
      if x.1 ≠ "" ∧ 0 < x.2 then Stylme.setKey x.1 (max 0 (min x.2 1)) d else d) d) := by
    intro l
    induction l with
    | nil => exact fun d hd => hd
    | cons x l ih =>
      intro d hd
      refine ih _ ?_
      dsimp only
      split
      · rename_i hx
        exact hd.setKey ⟨lt_max_of_lt_right (lt_min hx.2 one_pos), max_le zero_le_one (min_le_right _ _)⟩
      · exact hd
  exact hfold values [] .nil

/-- No value of a clean field without empty values is clamped or dropped. -/
theorem clampedWeights_eq {values : List (String × ℚ)} (h : CleanValues values) :
    clampedWeights values = values.filter (·.1 ≠ "") := by
  have hfold : ∀ l : List (String × ℚ), (∀ x ∈ l, 0 < x.2 ∧ x.2 ≤ 1) → ∀ d : List (String × ℚ),
      l.foldl (fun d x =>
        if x.1 ≠ "" ∧ 0 < x.2 then Stylme.setKey x.1 (max 0 (min x.2 1)) d else d) d =
      (l.filter (·.1 ≠ "")).foldl (fun d x => Stylme.setKey x.1 x.2 d) d := by
    intro l hl
    induction l with
    | nil => exact fun d => rfl
    | cons x l ih =>
      intro d
      have hx := hl x List.mem_cons_self
      have ih := ih fun y hy => hl y (List.mem_cons_of_mem _ hy)
      rw [List.foldl_cons]
      by_cases hv : x.1 = ""
      · rw [List.filter_cons_of_neg (by simpa using hv), ← ih]
        simp [hv]
      · rw [List.filter_cons_of_pos (by simpa using hv), List.foldl_cons, ← ih]
        simp [hv, hx.1, min_eq_left hx.2, max_eq_right hx.1.le]
  have hnodup : ((values.filter (·.1 ≠ "")).map (·.1)).Nodup :=
    h.keys.sublist (List.filter_sublist.map _)
  refine (hfold values h.bounded []).trans ?_
  rw [foldl_setKey (fun w => w) hnodup fun _ _ => List.not_mem_nil]
  simp

/-! ## The weights of a request -/

/-- The weights of a request: distinct fields, each with clean values. -/
structure CleanWeights (weights : Weights) : Prop where
  keys : (weights.map (·.1)).Nodup
  values : ∀ x ∈ weights, CleanValues x.2

theorem CleanWeights.setKey {weights : Weights} (h : CleanWeights weights) {f : String}
    {values : List (String × ℚ)} (hvalues : CleanValues values) :
    CleanWeights (setKey f values weights) where
  keys := nodup_keys_setKey h.keys
  values x hx := by
    rcases mem_of_mem_setKey hx with rfl | hx
    · exact hvalues
    · exact h.values x hx

theorem CleanWeights.lookup {weights : Weights} (h : CleanWeights weights) (f : String) :
    CleanValues ((weights.lookup f).getD []) := by
  cases hlookup : weights.lookup f with
  | none => exact .nil
  | some values =>
    obtain ⟨l₁, l₂, rfl, -⟩ := List.lookup_eq_some_iff.1 hlookup
    exact h.values (f, values) (List.mem_append_right _ List.mem_cons_self)

theorem rankingWeights_clean (request : Request) : CleanWeights request.rankingWeights := by
  have hdefaults : ∀ (values : List String) (target : List (String × ℚ)), CleanValues target →
      CleanValues (values.foldl (fun target value => Catalogue.setDefault value 1 target) target) := by
    intro values
    induction values with
    | nil => exact fun target h => h
    | cons v values ih => exact fun target h => ih _ h.setDefault
  have hweights : ∀ (l : Weights) (d : Weights), CleanWeights d → CleanWeights (l.foldl
      (fun d x => Stylme.setKey x.1 (clampedWeights x.2) d) d) := by
    intro l
    induction l with
    | nil => exact fun d h => h
    | cons x l ih => exact fun d h => ih _ (h.setKey (clampedWeights_clean x.2))
  have hsoft : ∀ (l : List (String × List String)) (d : Weights), CleanWeights d → CleanWeights
      (l.foldl (fun d x => Stylme.setKey x.1 (x.2.foldl
        (fun target value => Catalogue.setDefault value 1 target) ((d.lookup x.1).getD [])) d) d) := by
    intro l
    induction l with
    | nil => exact fun d h => h
    | cons x l ih => exact fun d h => ih _ (h.setKey (hdefaults x.2 _ (h.lookup x.1)))
  exact hsoft _ _ (hweights _ _ ⟨.nil, fun _ h => absurd h List.not_mem_nil⟩)

/-- SwoopStyl drops the empty values from the weights of a request, and the fields without values. -/
theorem semanticWeights_eq {weights : Weights} (h : CleanWeights weights) :
    semanticWeights weights = (weights.filter fun entry => !entry.2.isEmpty).map
      fun (f, values) => (f, values.filter (·.1 ≠ "")) := by
  have hnodup : ((weights.filter fun entry => !entry.2.isEmpty).map (·.1)).Nodup :=
    h.keys.sublist (List.filter_sublist.map _)
  unfold semanticWeights
  rw [foldl_setKey clampedWeights hnodup fun _ _ => List.not_mem_nil, List.nil_append]
  refine List.map_congr_left fun x hx => ?_
  exact congrArg (x.1, ·) (clampedWeights_eq (h.values x (List.mem_filter.1 hx).1))

/-! ## Terms -/

/-- The terms of the pipeline are the weighed values that the taxonomy allows, of scored fields. -/
theorem mem_vectorTerms_iff {fields : List MetadataField} {weights : Weights} {t : Term} :
    t ∈ vectorTerms fields weights ↔ ∃ field values, (field, values) ∈ weights ∧
      (fieldOf fields field).bind (·.source) = some t.source ∧
      (t.value, t.weight) ∈ knownWeights fields field values := by
  simp only [vectorTerms, List.mem_flatMap, Prod.exists]
  refine exists_congr fun field => exists_congr fun values => and_congr_right fun _ => ?_
  unfold fieldTerms
  cases hsource : (fieldOf fields field).bind (·.source) with
  | none => simp
  | some source =>
    simp only [List.mem_map, Prod.exists, Option.some.injEq]
    constructor
    · rintro ⟨v, w, hv, rfl⟩
      exact ⟨rfl, hv⟩
    · rintro ⟨rfl, hv⟩
      exact ⟨t.value, t.weight, hv, rfl⟩

theorem CleanWeights.weight_pos {fields : List MetadataField} {weights : Weights}
    (h : CleanWeights weights) {t : Term} (ht : t ∈ vectorTerms fields weights) : 0 < t.weight := by
  obtain ⟨field, values, hmem, -, hv⟩ := mem_vectorTerms_iff.1 ht
  exact ((h.values _ hmem).bounded _ (List.mem_filter.1 hv).1).1

end Catalogue

end Stylme
