-- SUMMARY: Deduplication keeps one latest valid row for each phone number, sorted by their instants, and leaves its own result alone.
import Stylme.Properties.PhoneNumbers
import Stylme.Recovery.RawRows

/-!
# The latest rows

Rows are validated one by one, and of the valid ones with the same normalised phone number the latest is
kept. A valid row has a number in the international format and an aware instant, so that it is valid
once more and comes out as it is.
-/

namespace Stylme

open Conc Backend

namespace Recovery

namespace Raw

variable {lib : Library} {fromisoformat : String → Option (Time × Option ℤ)} {ρ : Type}
variable {rows : List (Row ρ)} {row : Row ρ} {v : ValidRow ρ}

/-! ## Validation -/

theorem mem_validateRows : v ∈ (validateRows lib fromisoformat rows).1 ↔
    ∃ row ∈ rows, validateRow lib fromisoformat row = .ok v := by
  induction rows with
  | nil => simp [validateRows]
  | cons row rows ih =>
    rw [validateRows]
    cases hrow : validateRow lib fromisoformat row with
    | ok v' =>
      simp only [List.mem_cons, exists_eq_or_imp, hrow, Except.ok.injEq, ih]
      exact or_congr_left eq_comm
    | error code => simp [hrow, ← ih]

theorem length_validateRows (rows : List (Row ρ)) : (validateRows lib fromisoformat rows).1.length +
    (validateRows lib fromisoformat rows).2.length = rows.length := by
  induction rows with
  | nil => rfl
  | cons row rows ih =>
    rw [validateRows, List.length_cons, ← ih]
    cases validateRow lib fromisoformat row with
    | ok v => exact Nat.add_right_comm ..
    | error code => rfl

theorem validateRows_of_valid {valid : List (ValidRow ρ)}
    (h : ∀ v ∈ valid, validateRow lib fromisoformat v.row = .ok v) :
    validateRows lib fromisoformat (valid.map ValidRow.row) = (valid, []) := by
  induction valid with
  | nil => rfl
  | cons v valid ih =>
    rw [List.map_cons, validateRows, ih fun v hv => h v (List.mem_cons_of_mem _ hv), h v List.mem_cons_self]

/-- What makes a row valid. -/
theorem validateRow_ok_iff : validateRow lib fromisoformat row = .ok v ↔
    stripped lib row.externalID ≠ "" ∧ row.contactPhone.getD "" ≠ "" ∧
      normalizeE164 lib row.contactPhone = some v.contactPhone ∧
      parseDatetime fromisoformat row.updatedAt = some v.updatedAt ∧ stripped lib row.recoveryURL ≠ "" ∧
      ("https://".toList <+: (stripped lib row.recoveryURL).toList ∨
        "http://localhost".toList <+: (stripped lib row.recoveryURL).toList) ∧
      v.externalID = row.externalID ∧ v.recoveryURL = row.recoveryURL ∧ v.rest = row.rest := by
  unfold validateRow
  by_cases hid : stripped lib row.externalID = ""
  · rw [if_pos hid]
    exact iff_of_false nofun fun h => h.1 hid
  by_cases hphone : row.contactPhone.getD "" = ""
  · rw [if_neg hid, if_pos hphone]
    exact iff_of_false nofun fun h => h.2.1 hphone
  rw [if_neg hid, if_neg hphone]
  cases hnormal : normalizeE164 lib row.contactPhone with
  | none => exact iff_of_false nofun fun h => nomatch h.2.2.1
  | some phone =>
    cases hparsed : parseDatetime fromisoformat row.updatedAt with
    | none => exact iff_of_false nofun fun h => nomatch h.2.2.2.1
    | some updatedAt =>
      dsimp only
      split_ifs with hempty hscheme
      · exact iff_of_false nofun fun h => h.2.2.2.2.1 hempty
      · obtain ⟨id, phone', updated', url, rest⟩ := v
        constructor
        · intro h
          obtain ⟨rfl, rfl, rfl, rfl, rfl⟩ := ValidRow.mk.inj (Except.ok.inj h)
          exact ⟨hid, hphone, rfl, rfl, hempty, hscheme, rfl, rfl, rfl⟩
        · rintro ⟨-, -, hp, hu, -, -, rfl, rfl, rfl⟩
          rw [Option.some.inj hp, Option.some.inj hu]
      · exact iff_of_false nofun fun h => hscheme h.2.2.2.2.2.1

/-- A valid row is valid once more, and stays as it is. -/
theorem validateRow_row (hdigit : ∀ c : Char, c.toNat < 128 → lib.isDigit c = c.isDigit)
    (h : validateRow lib fromisoformat row = .ok v) : validateRow lib fromisoformat v.row = .ok v := by
  obtain ⟨hid, -, hphone, -, hempty, hscheme, hsameID, hsameURL, -⟩ := validateRow_ok_iff.1 h
  obtain ⟨s, hs⟩ : ∃ s, row.contactPhone = some s := by
    cases hnone : row.contactPhone with
    | none => rw [hnone] at hphone; cases hphone
    | some s => exact ⟨s, rfl⟩
  rw [hs] at hphone
  obtain ⟨hformat, -, hsame⟩ := PhoneNumbers.settles hdigit s v.contactPhone (.inr hphone)
  obtain ⟨d, digits, hint⟩ := hformat
  have hne : v.contactPhone ≠ "" := by
    intro heq
    have h := hint.eq
    rw [heq] at h
    cases h
  have hrowID : v.row.externalID = row.externalID := hsameID
  have hrowURL : v.row.recoveryURL = row.recoveryURL := hsameURL
  rw [validateRow_ok_iff, hrowID, hrowURL]
  exact ⟨hid, hne, hsame, rfl, hempty, hscheme, hsameID, hsameURL, rfl⟩

/-! ## Deduplication -/

/-- The instants are at most as late as those before them. -/
abbrev Descends (a b : ValidRow ρ) : Prop := b.updatedAt.instant ≤ a.updatedAt.instant

instance : Std.Total (@Descends ρ) := ⟨fun a b => le_total b.updatedAt.instant a.updatedAt.instant⟩

instance : IsTrans (ValidRow ρ) Descends := ⟨fun _ _ _ hab hbc => le_trans hbc hab⟩

/-- A row that shows its date and time without an offset. -/
def IsNaive (fromisoformat : String → Option (Time × Option ℤ)) (stamp : Stamp) (wall : Time) : Prop :=
  stamp = .naive wall ∨ ∃ s, stamp = .text s ∧ fromisoformat (zulu s) = some (wall, none)

theorem instant_of_isNaive {stamp : Stamp} {wall : Time} {m : Moment} (h : IsNaive fromisoformat stamp wall)
    (hparsed : parseDatetime fromisoformat stamp = some m) : m.instant = wall := by
  have hutc : parseDatetime fromisoformat stamp = some ⟨wall, 0⟩ := by
    rcases h with rfl | ⟨s, rfl, hs⟩
    · rfl
    · rw [parseDatetime, hs]
      rfl
  obtain rfl := Option.some.inj (hparsed.symm.trans hutc)
  exact Int.sub_zero wall

/-- What deduplication does to rows. -/
structure Deduplicates (lib : Library) (fromisoformat : String → Option (Time × Option ℤ)) (rows : List (Row ρ))
    (deduped : List (ValidRow ρ)) (errors : List RunError) (count : ℕ) : Prop where
  distinct : (deduped.map (·.contactPhone)).Nodup
  valid : ∀ v ∈ deduped, ∃ row ∈ rows, validateRow lib fromisoformat row = .ok v
  /-- Every phone of a valid row has a row, which is as late as any. -/
  latest : ∀ row ∈ rows, ∀ v, validateRow lib fromisoformat row = .ok v →
    ∃ v' ∈ deduped, v'.contactPhone = v.contactPhone ∧ v.updatedAt.instant ≤ v'.updatedAt.instant
  sorted : deduped.Pairwise Descends
  utc : ∀ row ∈ rows, ∀ v wall, validateRow lib fromisoformat row = .ok v → IsNaive fromisoformat row.updatedAt wall →
    v.updatedAt.instant = wall
  counted : count + errors.length = rows.length ∧
    count = (rows.filter fun row => (validateRow lib fromisoformat row).isOk).length
  again : validateAndDedupeSource lib fromisoformat (deduped.map ValidRow.row) = (deduped, [], deduped.length)

theorem length_validRows (rows : List (Row ρ)) : (validateRows lib fromisoformat rows).1.length =
    (rows.filter fun row => (validateRow lib fromisoformat row).isOk).length := by
  induction rows with
  | nil => rfl
  | cons row rows ih =>
    rw [validateRows, List.filter_cons]
    cases validateRow lib fromisoformat row with
    | ok v => exact congrArg (· + 1) ih
    | error code => exact ih

/-- Of the valid rows with the same phone number one that is latest is kept, in descending order, and feeding
the result in again gives it back. -/
theorem deduplicates (hdigit : ∀ c : Char, c.toNat < 128 → lib.isDigit c = c.isDigit)
    (fromisoformat : String → Option (Time × Option ℤ)) (rows : List (Row ρ)) :
    Deduplicates lib fromisoformat rows (validateAndDedupeSource lib fromisoformat rows).1
      (validateAndDedupeSource lib fromisoformat rows).2.1 (validateAndDedupeSource lib fromisoformat rows).2.2 := by
  obtain ⟨deduped, hdeduped⟩ : ∃ deduped, (validateAndDedupeSource lib fromisoformat rows).1 = deduped := ⟨_, rfl⟩
  rw [hdeduped]
  have hperm : deduped.Perm (latestOf (·.contactPhone) (·.updatedAt.instant) (validateRows lib fromisoformat rows).1) :=
    hdeduped ▸ List.perm_insertionSort _ _
  have hsorted : deduped.Pairwise Descends := hdeduped ▸ List.pairwise_insertionSort Descends _
  have hdistinct : (deduped.map (·.contactPhone)).Nodup :=
    (hperm.map _).nodup_iff.2 (nodup_keys_latestOf _)
  have hvalid : ∀ v ∈ deduped, ∃ row ∈ rows, validateRow lib fromisoformat row = .ok v := fun v hv =>
    mem_validateRows.1 (mem_of_mem_latestOf (hperm.mem_iff.1 hv))
  exact {
    distinct := hdistinct
    valid := hvalid
    latest := by
      intro row hrow v hv
      obtain ⟨v', hv', hphone, hle⟩ := @exists_mem_latestOf _ _ _ (·.contactPhone) (·.updatedAt.instant) _ _
        (mem_validateRows.2 ⟨row, hrow, hv⟩)
      exact ⟨v', hperm.mem_iff.2 hv', hphone, hle⟩
    sorted := hsorted
    utc := fun row _ v wall hv hnaive => instant_of_isNaive hnaive (validateRow_ok_iff.1 hv).2.2.2.1
    counted := ⟨length_validateRows rows, length_validRows rows⟩
    again := by
      have hrows : validateRows lib fromisoformat (deduped.map ValidRow.row) = (deduped, []) := by
        refine validateRows_of_valid fun v hv => ?_
        obtain ⟨row, -, hrow⟩ := hvalid v hv
        exact validateRow_row hdigit hrow
      rw [validateAndDedupeSource, hrows]
      dsimp only
      rw [latestOf_of_nodup hdistinct]
      exact congrArg (·, [], deduped.length) (List.Pairwise.insertionSort_eq hsorted) }

end Raw

end Recovery

namespace Sample

open Recovery.Raw

/-- A row that shows its date and time as this value. -/
def rawRow (phone : Option String) (updatedAt : Stamp) : Row Unit :=
  ⟨.str "checkout", phone, updatedAt, .str "https://shop.example/recover", ()⟩

/-- Two rows of one phone number, written in two ways, and one without a number. -/
def rawRows : List (Row Unit) :=
  [rawRow (some "98765 43210") (.naive 1000), rawRow (some "+919876543210") (.aware ⟨5000, 4500⟩),
    rawRow none (.naive 2000)]

end Sample

namespace Recovery

namespace Raw

/-- The naive row is read as UTC, and later than the aware one. -/
theorem deduplicates_sample :
    Deduplicates Sample.recoveryLibrary (fun _ => none) Sample.rawRows
      (validateAndDedupeSource Sample.recoveryLibrary (fun _ => none) Sample.rawRows).1
      (validateAndDedupeSource Sample.recoveryLibrary (fun _ => none) Sample.rawRows).2.1
      (validateAndDedupeSource Sample.recoveryLibrary (fun _ => none) Sample.rawRows).2.2 ∧
    (validateAndDedupeSource Sample.recoveryLibrary (fun _ => none) Sample.rawRows).1.map
      (fun v => (v.contactPhone, v.updatedAt.instant)) = [("+919876543210", 1000)] :=
  ⟨deduplicates (fun _ _ => rfl) _ _, by decide +kernel⟩

end Raw

end Recovery

end Stylme
