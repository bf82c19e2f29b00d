-- SUMMARY: When the fit filter keeps every offer with a compatible variant.
import Stylme.Catalogue.Drafts

/-!
# The fit filter

The ranges of an offer's variants are summed up as one range for each dimension,
the least that contains those that apply. A variant whose range does not apply
fits everybody, but the sum does not remember it.
-/

namespace Stylme

open Conc Backend

namespace Catalogue

/-! ## Compatible variants -/

namespace VariantInput

/-- The range of a variant in one dimension. -/
def bounds (v : VariantInput) : Dimension → Bounds
  | .age => ⟨v.ageRange.applicable, v.ageRange.minAge, v.ageRange.maxAge⟩
  | .height => ⟨v.fitRange.applicable, v.fitRange.minHeightCm, v.fitRange.maxHeightCm⟩
  | .weight => ⟨v.fitRange.applicable, v.fitRange.minWeightKg, v.fitRange.maxWeightKg⟩

end VariantInput

/-- A number lies between two optional ends. -/
def Between (minimum maximum : Option ℚ) (x : ℚ) : Prop :=
  (∀ low, minimum = some low → low ≤ x) ∧ ∀ high, maximum = some high → x ≤ high

/-- The range is not applicable, or some number lies in it and in the requested interval. -/
def Bounds.Meets (b : Bounds) (requested : Interval) : Prop :=
  b.applicable → ∃ x, Between b.minimum b.maximum x ∧ Between requested.minimum requested.maximum x

def VariantInput.Compatible (v : VariantInput) (request : Request) : Prop :=
  ∀ overlap ∈ request.overlaps, (v.bounds overlap.dimension).Meets overlap.requested

/-- Some range is applicable, and all that are end before the requested interval, or all begin
behind it. -/
def Outside (ranges : List Bounds) (requested : Interval) : Prop :=
  (∃ b ∈ ranges, b.applicable) ∧
    ((∃ low, requested.minimum = some low ∧
      ∀ b ∈ ranges, b.applicable → ∀ high, b.maximum = some high → high < low) ∨
    ∃ high, requested.maximum = some high ∧
      ∀ b ∈ ranges, b.applicable → ∀ low, b.minimum = some low → high < low)

/-! ## The hull of ranges -/

/-- The least range that contains the applicable ones. -/
def hull (ranges : List Bounds) : Bounds :=
  let applicable := ranges.filter (·.applicable)
  if applicable = [] then ⟨false, none, none⟩
  else ⟨true, (applicable.filterMap (·.minimum)).min?, (applicable.filterMap (·.maximum)).max?⟩

theorem hull_map {α : Type} (p : α → Bool) (minimum maximum : α → Option ℚ) (l : List α) :
    hull (l.map fun a => ⟨p a, minimum a, maximum a⟩) =
      if l.filter p = [] then ⟨false, none, none⟩
      else ⟨true, ((l.filter p).filterMap minimum).min?, ((l.filter p).filterMap maximum).max?⟩ := by
  have hfilter : (l.map fun a => (⟨p a, minimum a, maximum a⟩ : Bounds)).filter (·.applicable) =
      (l.filter p).map fun a => ⟨p a, minimum a, maximum a⟩ := by
    rw [List.filter_map]
    rfl
  simp only [hull, hfilter, List.map_eq_nil_iff, List.filterMap_map]
  rfl

/-- An approved draft's offer has the hull of its variants' ranges. -/
theorem offerDocument_bounds (idText : ObjectId → String) (draft : Draft) (colors : List Color)
    (productID id : ObjectId) (d : Dimension) :
    (draft.offerDocument idText colors productID id).bounds d =
      some (hull (draft.variants.map (·.bounds d))) := by
  have hmap : ∀ {α : Type} (f : VariantInput → α) (g : α → Bounds),
      draft.variants.map (fun v => g (f v)) = (draft.variants.map f).map g := fun f g => by
    rw [List.map_map]
    rfl
  cases d with
  | age =>
    simp only [Offer.bounds, Draft.offerDocument, Option.map_some, VariantInput.bounds, ageBounds]
    rw [hmap (·.ageRange) fun r => ⟨r.applicable, r.minAge, r.maxAge⟩, hull_map]
    split <;> rfl
  | height =>
    simp only [Offer.bounds, Draft.offerDocument, Option.map_some, VariantInput.bounds, fitBounds]
    rw [hmap (·.fitRange) fun r => ⟨r.applicable, r.minHeightCm, r.maxHeightCm⟩, hull_map]
    split <;> rfl
  | weight =>
    simp only [Offer.bounds, Draft.offerDocument, Option.map_some, VariantInput.bounds, fitBounds]
    rw [hmap (·.fitRange) fun r => ⟨r.applicable, r.minWeightKg, r.maxWeightKg⟩, hull_map]
    split <;> rfl

theorem hull_reach_iff {ranges : List Bounds} {requested : Interval} :
    (hull ranges).reach requested ↔ ¬ Outside ranges requested := by
  have hmem : ∀ {f : Bounds → Option ℚ} {x : ℚ},
      x ∈ (ranges.filter (·.applicable)).filterMap f ↔
        ∃ b ∈ ranges, b.applicable ∧ f b = some x := by
    intro f x
    simp only [List.mem_filterMap, List.mem_filter, and_assoc]
  by_cases hnone : ranges.filter (·.applicable) = []
  · have hout : ¬ Outside ranges requested := fun ⟨⟨b, hb, happ⟩, _⟩ =>
      List.not_mem_nil (hnone ▸ List.mem_filter.2 ⟨hb, happ⟩)
    simp [hull, hnone, Bounds.reach, hout]
  · have hsome : ∃ b ∈ ranges, b.applicable := by
      obtain ⟨b, hb⟩ := List.exists_mem_of_ne_nil _ hnone
      exact ⟨b, (List.mem_filter.1 hb).1, (List.mem_filter.1 hb).2⟩
    have hhull : hull ranges = ⟨true, ((ranges.filter (·.applicable)).filterMap (·.minimum)).min?,
        ((ranges.filter (·.applicable)).filterMap (·.maximum)).max?⟩ := by
      simp only [hull, hnone, if_false]
    simp only [hhull, Bounds.reach, Outside, hsome, true_and, decide_eq_true_eq, forall_const,
      Option.all_eq_true, Option.any_eq_true, le_max?_iff, min?_le_iff, hmem, not_or, not_exists,
      not_and, not_forall, not_lt]
    constructor
    · rintro ⟨hlow, hhigh⟩
      refine ⟨fun low h => ?_, fun high h => ?_⟩
      · obtain ⟨x, ⟨b, hb, happ, hx⟩, hle⟩ := hlow low h
        exact ⟨b, hb, happ, x, hx, hle⟩
      · obtain ⟨x, ⟨b, hb, happ, hx⟩, hle⟩ := hhigh high h
        exact ⟨b, hb, happ, x, hx, hle⟩
    · rintro ⟨hlow, hhigh⟩
      refine ⟨fun low h => ?_, fun high h => ?_⟩
      · obtain ⟨b, hb, happ, x, hx, hle⟩ := hlow low h
        exact ⟨x, ⟨b, hb, happ, hx⟩, hle⟩
      · obtain ⟨b, hb, happ, x, hx, hle⟩ := hhigh high h
        exact ⟨x, ⟨b, hb, happ, hx⟩, hle⟩

/-- Ranges are not all on one side of an interval that one of them overlaps. -/
theorem not_outside_of_meets {ranges : List Bounds} {b : Bounds} {requested : Interval}
    (hb : b ∈ ranges) (happ : b.applicable) (hmin : b.minimum.isSome) (hmax : b.maximum.isSome)
    (h : b.Meets requested) : ¬ Outside ranges requested := by
  obtain ⟨x, ⟨hlow, hhigh⟩, hrlow, hrhigh⟩ := h happ
  obtain ⟨low, hlow'⟩ := Option.isSome_iff_exists.1 hmin
  obtain ⟨high, hhigh'⟩ := Option.isSome_iff_exists.1 hmax
  rintro ⟨-, ⟨r, hr, hall⟩ | ⟨r, hr, hall⟩⟩
  · exact (hall b hb happ high hhigh').not_ge ((hrlow r hr).trans (hhigh high hhigh'))
  · exact (hall b hb happ low hlow').not_ge ((hlow low hlow').trans (hrhigh r hr))

/-! ## Accepted ranges -/

theorem FitRangeInput.Valid.isSome {r : FitRangeInput} (h : r.Valid) (happ : r.applicable) :
    ∀ v ∈ r.fields, v.isSome := by
  have hbounds := h.bounds
  unfold validateBounds at hbounds
  split at hbounds
  · cases hbounds
  · rename_i hall
    intro v hv
    by_contra hnone
    exact hall ⟨happ, List.any_eq_true.2 ⟨v, hv, by simpa using hnone⟩⟩

theorem AgeRangeInput.Valid.isSome {r : AgeRangeInput} (h : r.Valid) (happ : r.applicable) :
    r.minAge.isSome ∧ r.maxAge.isSome := by
  have hbounds := h.bounds
  unfold validateBounds at hbounds
  split at hbounds
  · cases hbounds
  · rename_i hall
    simpa [happ, Option.isSome_iff_ne_none] using hall

/-- An applicable range has both ends. -/
theorem VariantInput.bounds_isSome (v : VariantInput) (d : Dimension)
    (happ : (v.bounds d).applicable) :
    (v.bounds d).minimum.isSome ∧ (v.bounds d).maximum.isSome := by
  cases d with
  | age => exact v.age_valid.isSome happ
  | height =>
    have h := v.fit_valid.isSome happ
    exact ⟨h v.fitRange.minHeightCm (by simp [FitRangeInput.fields]),
      h v.fitRange.maxHeightCm (by simp [FitRangeInput.fields])⟩
  | weight =>
    have h := v.fit_valid.isSome happ
    exact ⟨h v.fitRange.minWeightKg (by simp [FitRangeInput.fields]),
      h v.fitRange.maxWeightKg (by simp [FitRangeInput.fields])⟩

/-! ## The filter -/

/-- The filters of a request on the bounds are those that `add_overlap` builds. -/
theorem resolveRequest_overlaps {K : Type} {lib : Library K} {store : Store} {request : Request}
    {plan : Plan} (h : resolveRequest lib store request = .ok plan) :
    plan.filters.overlaps = request.overlaps :=
  (resolveRequest_planOf h).overlaps

/-- Whenever some variant of the draft is compatible with the request, the offer written for the
draft passes the request's filters. -/
def KeepsFitting (draft : Draft) (request : Request) : Prop :=
  (∃ v ∈ draft.variants, v.Compatible request) →
    ∀ idText colors productID id, ∀ overlap ∈ request.overlaps,
      overlap.selects (draft.offerDocument idText colors productID id)

/-- The filter keeps a fitting offer exactly if no compatible variant has a dimension in which its
own range does not apply while all ranges that do lie on one side of the requested interval. -/
theorem keepsFitting_iff (draft : Draft) (request : Request) :
    KeepsFitting draft request ↔
      ∀ v ∈ draft.variants, v.Compatible request → ∀ overlap ∈ request.overlaps,
        ¬ (v.bounds overlap.dimension).applicable →
          ¬ Outside (draft.variants.map (·.bounds overlap.dimension)) overlap.requested := by
  have hselects : ∀ idText colors productID id, ∀ overlap : Overlap,
      overlap.selects (draft.offerDocument idText colors productID id) ↔
        ¬ Outside (draft.variants.map (·.bounds overlap.dimension)) overlap.requested := by
    intro idText colors productID id overlap
    rw [Overlap.selects, offerDocument_bounds, Option.all_some]
    exact hull_reach_iff
  constructor
  · intro h v hv hcompatible overlap hoverlap _
    exact (hselects toString [] 0 0 overlap).1
      (h ⟨v, hv, hcompatible⟩ toString [] 0 0 overlap hoverlap)
  · rintro h ⟨v, hv, hcompatible⟩ idText colors productID id overlap hoverlap
    refine (hselects idText colors productID id overlap).2 ?_
    by_cases happ : (v.bounds overlap.dimension).applicable
    · obtain ⟨hmin, hmax⟩ := v.bounds_isSome overlap.dimension happ
      exact not_outside_of_meets (List.mem_map_of_mem hv) happ hmin hmax
        (hcompatible overlap hoverlap)
    · exact h v hv hcompatible overlap hoverlap happ

namespace Sample

/-- A size for children of five and six years. -/
def childSize : VariantInput :=
  ⟨"child", "sku-child", "5-6", 1, anyFit, ⟨true, some 5, some 6⟩, anyFit_valid,
    ⟨by decide +kernel, by rfl⟩⟩

def mixedDraft : Draft where
  id := 1
  sellerID := 1
  brandID := 1
  source := none
  title := "Shawl"
  description := "A woollen shawl"
  categoryKey := "accessories"
  productTypeKey := "shawl"
  genderKeys := []
  metadata := []
  salePricePaise := 50000
  variants := [freeSize, childSize]
  inventory := [⟨"free", 1, 3, true⟩, ⟨"child", 1, 3, true⟩]

/-- A shopper of thirty. -/
def adultRequest : Request :=
  { sortBy := "createdAt", order := "desc", radiusKm := 100, minAge := some 30, maxAge := some 30 }

end Sample

/-- A shawl in a free size is hidden from adults once it is also sold in a size for children. -/
theorem not_keepsFitting : ¬ ∀ draft request, KeepsFitting draft request := by
  intro h
  have hcompatible : Sample.freeSize.Compatible Sample.adultRequest := by
    intro overlap hoverlap happ
    obtain rfl : overlap = ⟨.age, ⟨some 30, some 30⟩⟩ := List.mem_singleton.1 hoverlap
    cases happ
  have hselects := h Sample.mixedDraft Sample.adultRequest
    ⟨Sample.freeSize, List.mem_cons_self, hcompatible⟩ toString [] 0 0
    ⟨.age, ⟨some 30, some 30⟩⟩ (List.mem_singleton_self _)
  revert hselects
  decide +kernel

end Catalogue

end Stylme
