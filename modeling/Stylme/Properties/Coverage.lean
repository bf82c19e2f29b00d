-- SUMMARY: When a product that matches more of the wanted features scores at least as high.
import Stylme.Properties.VectorScores

/-!
# Coverage

The score divides the matched weight by the root of the number of matches. Further matches raise it
as long as their weights are not too small beside those matched already.
-/

namespace Stylme

open Conc Backend

namespace Catalogue

section Scores

variable {κ : Type} [DecidableEq κ]

/-- The weights of the features that are there. -/
def matchedWeights (queryVector : List (κ × ℚ)) (features : List κ) : List ℚ :=
  (queryVector.filter (·.1 ∈ features)).map (·.2)

/-- The weights that `more` matches and `features` does not. -/
def addedWeights (queryVector : List (κ × ℚ)) (features more : List κ) : List ℚ :=
  (queryVector.filter fun x => x.1 ∈ more ∧ x.1 ∉ features).map (·.2)

/-- The added weights make up for the longer norm. -/
def MakesUp (queryVector : List (κ × ℚ)) (features more : List κ) : Prop :=
  matchedWeights queryVector features = [] ∨
    (addedWeights queryVector features more).length *
        ((matchedWeights queryVector features).sum * (matchedWeights queryVector features).sum) ≤
      (matchedWeights queryVector features).length * ((addedWeights queryVector features more).sum *
        (2 * (matchedWeights queryVector features).sum + (addedWeights queryVector features more).sum))

variable {queryVector : List (κ × ℚ)} {features more : List κ}

theorem matchedWeights_perm (h : features ⊆ more) : (matchedWeights queryVector more).Perm
    (matchedWeights queryVector features ++ addedWeights queryVector features more) := by
  unfold matchedWeights addedWeights
  rw [← List.map_append]
  refine List.Perm.map _ ?_
  have hsplit := List.filter_append_perm (fun x : κ × ℚ => decide (x.1 ∈ features))
    (queryVector.filter (·.1 ∈ more))
  rw [List.filter_filter, List.filter_filter] at hsplit
  have hold : queryVector.filter (fun x => decide (x.1 ∈ features) && decide (x.1 ∈ more)) =
      queryVector.filter (·.1 ∈ features) := by
    refine List.filter_congr fun x _ => ?_
    by_cases hx : x.1 ∈ features
    · simp [hx, h hx]
    · simp [hx]
  have hnew : queryVector.filter (fun x => (!decide (x.1 ∈ features)) && decide (x.1 ∈ more)) =
      queryVector.filter fun x => x.1 ∈ more ∧ x.1 ∉ features := by
    refine List.filter_congr fun x _ => ?_
    by_cases hx : x.1 ∈ features <;> simp [hx]
  rw [hold, hnew] at hsplit
  exact hsplit.symm

theorem matchedWeights_sublist :
    (matchedWeights queryVector features).Sublist (queryVector.map (·.2)) := List.filter_sublist.map _

theorem sparseCosineScore_eq_exactScore (hpos : ∀ x ∈ queryVector, 0 < x.2) :
    sparseCosineScore realSqrt queryVector features =
      exactScore (matchedWeights queryVector features) (squares (queryVector.map (·.2))) := by
  unfold sparseCosineScore
  change (if matchedWeights queryVector features = [] then _ else _) = _
  by_cases hnil : matchedWeights queryVector features = []
  · rw [if_pos hnil, exactScore, if_pos hnil]
  · have hnorm := squares_pos_of_sublist matchedWeights_sublist
      (fun w hw => by
        obtain ⟨x, hx, rfl⟩ := List.mem_map.1 hw
        exact hpos x hx) hnil
    rw [if_neg hnil, if_pos (realSqrt_ne_zero hnorm), exactScore, if_neg hnil, ← similarity_eq]
    rfl

/-- The score is a share, and matching more scores at least as high if and only if the added weights
make up for the longer norm. -/
theorem sparseCosineScore_le_iff (hweights : ∀ x ∈ queryVector, 0 < x.2 ∧ x.2 ≤ 1)
    (hsub : features ⊆ more) :
    (∀ features, 0 ≤ sparseCosineScore realSqrt queryVector features ∧
      sparseCosineScore realSqrt queryVector features ≤ 1) ∧
    (sparseCosineScore realSqrt queryVector features ≤ sparseCosineScore realSqrt queryVector more ↔
      MakesUp queryVector features more) := by
  have hpos : ∀ x ∈ queryVector, 0 < x.2 := fun x hx => (hweights x hx).1
  have hpos' : ∀ w ∈ queryVector.map (·.2), 0 < w := fun w hw => by
    obtain ⟨x, hx, rfl⟩ := List.mem_map.1 hw
    exact hpos x hx
  have hbounds : ∀ features, 0 ≤ sparseCosineScore realSqrt queryVector features ∧
      sparseCosineScore realSqrt queryVector features ≤ 1 := by
    intro features
    rw [sparseCosineScore_eq_exactScore hpos]
    by_cases hnil : matchedWeights queryVector features = []
    · rw [exactScore, if_pos hnil]
      exact ⟨le_rfl, zero_le_one⟩
    · refine ⟨(exactScore_pos matchedWeights_sublist hpos' hnil).le, ?_⟩
      rw [exactScore, if_neg hnil]
      exact cosine_le_one matchedWeights_sublist
  refine ⟨hbounds, ?_⟩
  unfold MakesUp
  by_cases hnil : matchedWeights queryVector features = []
  · have hzero : sparseCosineScore realSqrt queryVector features = 0 := by
      rw [sparseCosineScore_eq_exactScore hpos, exactScore, if_pos hnil]
    rw [hzero]
    exact ⟨fun _ => .inl hnil, fun _ => (hbounds more).1⟩
  · have hperm : (matchedWeights queryVector more).Perm
        (matchedWeights queryVector features ++ addedWeights queryVector features more) :=
      matchedWeights_perm hsub
    have hne : matchedWeights queryVector more ≠ [] := fun h =>
      hnil (List.append_eq_nil_iff.1 (List.perm_nil.1 (h ▸ hperm).symm)).1
    have hnonneg : ∀ features, 0 ≤ (matchedWeights queryVector features).sum := fun features =>
      List.sum_nonneg fun w hw => (hpos' w (matchedWeights_sublist.subset hw)).le
    rw [sparseCosineScore_eq_exactScore hpos, sparseCosineScore_eq_exactScore hpos, exactScore,
      exactScore, if_neg hnil, if_neg hne,
      cosine_le_cosine_iff (squares_pos_of_sublist matchedWeights_sublist hpos' hnil) hnil hne
        (hnonneg _) (hnonneg _),
      hperm.sum_eq, hperm.length_eq, List.sum_append, List.length_append, Nat.cast_add,
      or_iff_right hnil]
    constructor
    · intro h
      linarith
    · intro h
      linarith

end Scores

/-! ## A second feature that hardly counts -/

namespace CoverageSample

def wanted : List (String × ℚ) := [("style:ethnic", 1), ("season:summer", 1 / 10)]

theorem weights_mem : ∀ x ∈ wanted, 0 < x.2 ∧ x.2 ≤ 1 := by
  intro x hx
  rcases List.mem_cons.1 hx with rfl | hx
  · norm_num
  · obtain rfl := List.mem_singleton.1 hx
    norm_num

theorem not_makesUp : ¬ MakesUp wanted ["style:ethnic"] ["style:ethnic", "season:summer"] := by
  have hmatched : matchedWeights wanted ["style:ethnic"] = [1] := by decide +kernel
  have hadded : addedWeights wanted ["style:ethnic"] ["style:ethnic", "season:summer"] =
      [1 / 10] := by decide +kernel
  unfold MakesUp
  rw [hmatched, hadded]
  norm_num

end CoverageSample

open CoverageSample in
theorem sparseCosineScore_le_iff_ethnic :
    (∀ features, 0 ≤ sparseCosineScore realSqrt wanted features ∧
      sparseCosineScore realSqrt wanted features ≤ 1) ∧
    (sparseCosineScore realSqrt wanted ["style:ethnic"] ≤
        sparseCosineScore realSqrt wanted ["style:ethnic", "season:summer"] ↔
      MakesUp wanted ["style:ethnic"] ["style:ethnic", "season:summer"]) :=
  sparseCosineScore_le_iff weights_mem (by simp)

open CoverageSample in
/-- A product that also matches the second feature scores lower. -/
theorem not_sparseCosineScore_mono :
    ¬ ∀ (queryVector : List (String × ℚ)) (features more : List String),
      (∀ x ∈ queryVector, 0 < x.2 ∧ x.2 ≤ 1) → features ⊆ more →
      sparseCosineScore realSqrt queryVector features ≤ sparseCosineScore realSqrt queryVector more := by
  intro h
  have hle := h wanted ["style:ethnic"] ["style:ethnic", "season:summer"] weights_mem (by simp)
  have hpos : ∀ x ∈ wanted, 0 < x.2 := fun x hx => (weights_mem x hx).1
  have hone : matchedWeights wanted ["style:ethnic"] = [1] := by decide +kernel
  have hboth : matchedWeights wanted ["style:ethnic", "season:summer"] = [1, 1 / 10] := by
    decide +kernel
  rw [sparseCosineScore_eq_exactScore hpos, sparseCosineScore_eq_exactScore hpos, hone, hboth,
    exactScore, exactScore, if_neg (List.cons_ne_nil _ _), if_neg (List.cons_ne_nil _ _),
    cosine_le_cosine_iff (squares_pos (by simp [wanted]) (by simp [wanted]))
      (List.cons_ne_nil _ _) (List.cons_ne_nil _ _) (by norm_num) (by norm_num)] at hle
  norm_num at hle

end Catalogue

end Stylme
