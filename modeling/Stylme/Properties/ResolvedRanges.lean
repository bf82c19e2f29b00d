-- SUMMARY: The ranges of an advanced search: when their ends, resolved one by one, are in order.
import Stylme.Search.Advanced

/-!
# Resolved ranges

The schema compares the two ends that the shopper chose. Where only one of them is chosen, nothing
compares it with the end that the query or the profile supplies.
-/

namespace Stylme

open Conc Backend Catalogue

namespace Search

namespace Ends

variable {e f : Ends}

/-- Both ends are present, or neither is. -/
def Paired (e : Ends) : Prop := e.low.isSome = e.high.isSome

/-- An end that stands alone is in order with the other end of `f`. -/
structure Fits (e f : Ends) : Prop where
  low : e.high = none → ∀ low ∈ e.low, ∀ high ∈ f.high, low ≤ high
  high : e.low = none → ∀ high ∈ e.high, ∀ low ∈ f.low, low ≤ high

theorem ordered_none : Ordered ⟨none, none⟩ := fun _ h => nomatch h

theorem ordered_orElse_iff (he : e.Ordered) (hf : f.Ordered) : (e.orElse f).Ordered ↔ e.Fits f := by
  obtain ⟨low, high⟩ := e
  cases low with
  | none =>
    cases high with
    | none => exact iff_of_true hf ⟨fun _ _ h => (nomatch h), fun _ _ h => (nomatch h)⟩
    | some b =>
      constructor
      · exact fun h => ⟨fun h => (nomatch h), fun _ _ hhigh low hlow => h low hlow _ hhigh⟩
      · exact fun h low hlow high hhigh => h.high rfl high hhigh low hlow
  | some a =>
    cases high with
    | none =>
      constructor
      · exact fun h => ⟨fun _ low hlow high hhigh => h low hlow high hhigh, fun h => (nomatch h)⟩
      · exact fun h low hlow high hhigh => h.low rfl low hlow high hhigh
    | some b => exact iff_of_true he ⟨fun h => (nomatch h), fun h => (nomatch h)⟩

theorem ordered_orElse_of_paired (he : e.Ordered) (hf : f.Ordered) (hpaired : e.Paired) :
    (e.orElse f).Ordered := by
  refine (ordered_orElse_iff he hf).2 ⟨fun hhigh low hlow => ?_, fun hlow high hhigh => ?_⟩
  · rw [Paired, hhigh, Option.mem_def.1 hlow] at hpaired
    cases hpaired
  · rw [Paired, hlow, Option.mem_def.1 hhigh] at hpaired
    cases hpaired

/-- The two halves of one range. -/
theorem ordered_map {α : Type} {range : Option α} {low high : α → ℚ} (h : ∀ r ∈ range, low r ≤ high r) :
    Ordered ⟨range.map low, range.map high⟩ := by
  intro a ha b hb
  obtain ⟨r, hr, rfl⟩ := Option.map_eq_some_iff.1 ha
  obtain ⟨r', hr', rfl⟩ := Option.map_eq_some_iff.1 hb
  obtain rfl := Option.some.inj (hr.symm.trans hr')
  exact h r hr

theorem orElse_none : e.orElse ⟨none, none⟩ = e := by
  simp [orElse]

end Ends

variable {lib : Library} {k : Knowledge} {visit : Visits}

/-! ## The words of the query -/

/-- A range of the query is in order. -/
theorem numericRange_le {correctedQuery : String} {names : List String} {minimum maximum : ℚ}
    {range : ℚ × ℚ} (h : numericRange lib correctedQuery names minimum maximum = some range) :
    range.1 ≤ range.2 := by
  rcases Option.or_eq_some_iff.1 h with hrange | ⟨-, hexact⟩
  · obtain ⟨way, -, hrange⟩ := Option.bind_eq_some_iff.1 hrange
    obtain ⟨low, -, hrange⟩ := Option.bind_eq_some_iff.1 hrange
    obtain ⟨high, -, hrange⟩ := Option.bind_eq_some_iff.1 hrange
    split at hrange
    · rename_i hordered
      obtain rfl := Option.some.inj hrange
      exact hordered.2.1
    · cases hrange
  · obtain ⟨way, -, hexact⟩ := Option.bind_eq_some_iff.1 hexact
    obtain ⟨value, -, hexact⟩ := Option.bind_eq_some_iff.1 hexact
    split at hexact
    · obtain rfl := Option.some.inj hexact
      exact le_rfl
    · cases hexact

/-- Only the prices of a query can be inverted. -/
theorem inferred_ordered {rawQuery : String} {pincode : Option String} {swoopstyl : Bool}
    {intent : SearchIntent} (h : compileSearchIntent lib k visit rawQuery pincode swoopstyl = .ok intent)
    (hprice : (intent.inferred.inferredEnds .price).Ordered) (m : Measure) :
    (intent.inferred.inferredEnds m).Ordered := by
  obtain ⟨found, -, rfl⟩ := compileSearchIntent_eq_ok_iff.1 h
  cases m with
  | price => exact hprice
  | age | height | weight =>
    simp only [SearchIntent.inferred, intentOf_hardFilters, hardFilters, Intent.inferredEnds]
    refine Ends.ordered_map fun range hrange => ?_
    exact numericRange_le (Option.mem_def.1 hrange)

/-- Only the price can have one end without the other. -/
theorem inferred_paired (intent : SearchIntent) {m : Measure} (hm : m ≠ .price) :
    (intent.inferred.inferredEnds m).Paired := by
  cases m with
  | price => exact absurd rfl hm
  | age | height | weight => exact Option.isSome_map.trans Option.isSome_map.symm

/-! ## The profile -/

theorem measurementBand_le (width : ℕ) (x : ℚ) : (measurementBand width x).1 ≤ (measurementBand width x).2 :=
  le_add_of_nonneg_right (Nat.cast_nonneg width)

theorem profileEnds_ordered (payload : SearchPayload) (intent : Catalogue.Intent) (m : Measure) :
    (payload.profileEnds intent m).Ordered := by
  unfold SearchPayload.profileEnds
  split
  · cases m with
    | price => exact Ends.ordered_none
    | age => exact fun low hlow high hhigh => (Option.some.inj (hlow.symm.trans hhigh)).le
    | height => exact Ends.ordered_map fun _ _ => measurementBand_le 15 _
    | weight => exact Ends.ordered_map fun _ _ => measurementBand_le 10 _
  · exact Ends.ordered_none

theorem profileEnds_price (payload : SearchPayload) (intent : Catalogue.Intent) :
    payload.profileEnds intent .price = ⟨none, none⟩ := ite_self _

/-- The end that is used where the shopper chose none. -/
def fallbackEnds (payload : SearchPayload) (intent : Catalogue.Intent) (m : Measure) : Ends :=
  (intent.inferredEnds m).orElse (payload.profileEnds intent m)

theorem fallbackEnds_ordered (payload : SearchPayload) (intent : SearchIntent)
    (hinferred : ∀ m, (intent.inferred.inferredEnds m).Ordered) (m : Measure) :
    (fallbackEnds payload intent.inferred m).Ordered := by
  by_cases hm : m = .price
  · rw [hm, fallbackEnds, profileEnds_price, Ends.orElse_none]
    exact hinferred .price
  · exact Ends.ordered_orElse_of_paired (hinferred m) (profileEnds_ordered payload _ m)
      (inferred_paired intent hm)

/-! ## The search -/

/-- Each end is chosen, or implied by the query, or taken from the profile. -/
theorem resolved_ends (payload : SearchPayload) (intent : Catalogue.Intent) (m : Measure) :
    (payload.resolved intent).ends m = (payload.explicitEnds m).orElse (fallbackEnds payload intent m) := by
  unfold fallbackEnds SearchPayload.profileEnds
  cases huse : useProfileMeasurements (explicitOr payload.gender intent.gender) payload.profileGender
      payload.profileAge with
  | false | true =>
    cases m <;> simp [Resolved.ends, SearchPayload.resolved, SearchPayload.explicitEnds, Ends.orElse,
      Intent.inferredEnds, huse, Function.comp_def]

/-- The ranges of an accepted request, whose query implies no inverted range, are in order exactly
when every end that the shopper chose alone is in order with the other end. -/
theorem resolved_ordered_iff (payload : SearchPayload) (haccepted : payload.Accepted) (intent : SearchIntent)
    (_h : compileSearchIntent lib k visit payload.query payload.pincode payload.swoopstyl = .ok intent)
    (hinferred : ∀ m, (intent.inferred.inferredEnds m).Ordered) :
    (∀ m, ((payload.resolved intent.inferred).ends m).Ordered) ↔
      ∀ m, (payload.explicitEnds m).Fits (fallbackEnds payload intent.inferred m) := by
  refine forall_congr' fun m => ?_
  rw [resolved_ends]
  exact Ends.ordered_orElse_iff (haccepted.ordered m) (fallbackEnds_ordered payload intent hinferred m)

end Search

namespace Sample

namespace Search

open Stylme.Search Catalogue

/-- A query for at most 500 rupees, with a minimum that the shopper chose. -/
def fromPrice (minimum : ℚ) : SearchPayload := { query := "red max 500", minPrice := some minimum }

theorem fromPrice_accepted {minimum : ℚ} (h : 0 ≤ minimum) : (fromPrice minimum).Accepted where
  query := (by decide : 1 ≤ "red max 500".length ∧ "red max 500".length ≤ 300)
  lexicalQuery _ h := nomatch h
  page := le_refl 1
  pageSize := (by decide : 1 ≤ 12 ∧ 12 ≤ 100)
  lists := ⟨Nat.zero_le _, Nat.zero_le _, Nat.zero_le _, Nat.zero_le _, Nat.zero_le _, Nat.zero_le _,
    Nat.zero_le _⟩
  profile := ⟨fun _ h => (nomatch h), fun _ h => (nomatch h), fun _ h => (nomatch h)⟩
  prices := ⟨fun _ hx => (Option.some.inj hx) ▸ h, fun _ h => (nomatch h)⟩
  ages := ⟨fun _ h => (nomatch h), fun _ h => (nomatch h)⟩
  heights := ⟨fun _ h => (nomatch h), fun _ h => (nomatch h)⟩
  weights := ⟨fun _ h => (nomatch h), fun _ h => (nomatch h)⟩
  pincode _ h := nomatch h
  radiusKm := (by norm_num : (1 : ℚ) ≤ 100 ∧ (100 : ℚ) ≤ 250)
  ordered m := by
    cases m with
    | price => exact fun _ _ _ h => (nomatch h)
    | age | height | weight => exact fun _ h => (nomatch h)
  delivered h := nomatch h

/-- The query implies a maximum of 500, and nothing else. -/
theorem exists_intent : ∃ intent,
    compileSearchIntent library (knowledge []) visits "red max 500" none false = .ok intent ∧
    intent.inferred.inferredEnds .price = ⟨none, some 500⟩ ∧
    ∀ m, (intent.inferred.inferredEnds m).Ordered := by
  obtain ⟨intent, hcompiled⟩ := compiles_redMax
  have hprice : intent.inferred.inferredEnds .price = ⟨none, some 500⟩ := by
    obtain ⟨found, hfound, rfl⟩ := compileSearchIntent_eq_ok_iff.1 hcompiled
    obtain rfl := Except.ok.inj (prices_redMax.symm.trans hfound)
    simp only [SearchIntent.inferred, intentOf_hardFilters]
    rfl
  refine ⟨intent, hcompiled, hprice, inferred_ordered hcompiled ?_⟩
  rw [hprice]
  exact fun _ h => nomatch h

end Search

end Sample

namespace Search

open Sample.Search in
/-- From 100 to 500 rupees. -/
theorem resolved_ordered_iff_fromPrice : ∃ intent,
    compileSearchIntent library (knowledge []) visits (fromPrice 100).query none false = .ok intent ∧
    ∀ m, (((fromPrice 100).resolved intent.inferred).ends m).Ordered := by
  obtain ⟨intent, hok, hprice, hordered⟩ := exists_intent
  refine ⟨intent, hok, (resolved_ordered_iff (fromPrice 100) (fromPrice_accepted (by norm_num)) intent hok
    hordered).2 fun m => ?_⟩
  cases m with
  | price =>
    refine ⟨fun _ low hlow high hhigh => ?_, fun h => (nomatch h)⟩
    have hfallback : fallbackEnds (fromPrice 100) intent.inferred .price = ⟨none, some 500⟩ := by
      rw [fallbackEnds, hprice, profileEnds_price, Ends.orElse_none]
    rw [hfallback] at hhigh
    obtain rfl := Option.some.inj hlow
    obtain rfl := Option.some.inj hhigh
    norm_num
  | age | height | weight => exact ⟨fun _ _ h => (nomatch h), fun _ _ h => (nomatch h)⟩

open Sample.Search in
/-- A minimum of 900 rupees is kept beside the maximum of 500 that the query implies. -/
theorem not_resolved_ordered : ∃ intent, (fromPrice 900).Accepted ∧
    compileSearchIntent library (knowledge []) visits (fromPrice 900).query none false = .ok intent ∧
    (∀ m, (intent.inferred.inferredEnds m).Ordered) ∧
    ¬ (((fromPrice 900).resolved intent.inferred).ends .price).Ordered := by
  obtain ⟨intent, hok, hprice, hordered⟩ := exists_intent
  refine ⟨intent, fromPrice_accepted (by norm_num), hok, hordered, fun h => ?_⟩
  rw [resolved_ends, fallbackEnds, hprice, profileEnds_price, Ends.orElse_none] at h
  exact absurd (h 900 rfl 500 rfl) (by norm_num)

end Search

end Stylme
