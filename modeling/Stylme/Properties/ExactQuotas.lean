-- SUMMARY: The quotas of the categories add up to the target, are within what each has, and keep the minima that fit.
import Stylme.Data.Quotas
import Stylme.Lib.Quota

/-!
# Quotas that meet the target

A round gives something out while a category has room, whatever the arithmetic, so the loop ends after
as many rounds as rows are missing. With exact arithmetic the rounded shares do not exceed
what is left, so what was given out and what is left always add up to the target.
-/

namespace Stylme

namespace Data

variable {slots slots' : List Slot} {s : Slot} {remaining remaining' : ℕ}

/-! ## The pass for what is left -/

theorem grow_leftover (keys : List String) (slots : List Slot) (remaining : ℕ) :
    Grow slots (leftover keys slots remaining).1 := by
  induction keys generalizing slots remaining with
  | nil => exact Grow.refl _
  | cons key keys ih =>
    cases remaining with
    | zero => exact Grow.refl _
    | succ remaining =>
      rw [leftover]
      split
      · exact grow_give.trans (ih _ _)
      · exact ih _ _

theorem Grow.nodup (h : Grow slots slots') (hkeys : (slots.map (·.key)).Nodup) :
    (slots'.map (·.key)).Nodup := h.keys ▸ hkeys

theorem granted_leftover (keys : List String) (hkeys : (slots.map (·.key)).Nodup) (remaining : ℕ) :
    granted (leftover keys slots remaining).1 + (leftover keys slots remaining).2 =
      granted slots + remaining := by
  induction keys generalizing slots remaining with
  | nil => rfl
  | cons key keys ih =>
    cases remaining with
    | zero => rfl
    | succ remaining =>
      rw [leftover]
      split
      case isTrue h =>
        obtain ⟨s, hs, rfl, hroom⟩ := h
        rw [ih (grow_give.nodup hkeys), granted_give hkeys hs hroom]
        omega
      case isFalse => exact ih hkeys _

theorem leftover_le (keys : List String) (hkeys : (slots.map (·.key)).Nodup) (remaining : ℕ) :
    (leftover keys slots remaining).2 ≤ remaining := by
  have hsum := granted_leftover keys hkeys remaining
  have hgrow := (grow_leftover keys slots remaining).granted_le
  omega

/-- One of the categories it visits has room, so it gives something out. -/
theorem leftover_lt {keys : List String} (hkeys : (slots.map (·.key)).Nodup) (hs : s ∈ slots)
    (hroom : 0 < s.room) (hkey : s.key ∈ keys) (hremaining : 0 < remaining) :
    (leftover keys slots remaining).2 < remaining := by
  induction keys with
  | nil => cases hkey
  | cons key keys ih =>
    obtain ⟨remaining, rfl⟩ := Nat.exists_eq_add_one.2 hremaining
    rw [leftover]
    split
    case isTrue => exact Nat.lt_succ_of_le (leftover_le _ (grow_give.nodup hkeys) _)
    case isFalse h =>
      rcases List.mem_cons.1 hkey with rfl | hkey
      · exact absurd ⟨s, hs, rfl, hroom⟩ h
      · exact ih hkey

/-! ## A round -/

/-- Set what the allocations say. -/
def giveAll {K : Type*} (shares : List (Allocation K)) (slots : List Slot) : List Slot :=
  shares.foldl (fun slots a => give a.key a.take slots) slots

theorem grow_giveAll {K : Type*} (shares : List (Allocation K)) (slots : List Slot) :
    Grow slots (giveAll shares slots) := by
  induction shares generalizing slots with
  | nil => exact Grow.refl _
  | cons a shares ih => exact grow_give.trans (ih _)

/-- Allocations to different categories that have the room are given out in full. -/
theorem granted_giveAll {K : Type*} {shares : List (Allocation K)} (hslots : (slots.map (·.key)).Nodup)
    (hkeys : (shares.map (·.key)).Nodup) (h : ∀ a ∈ shares, ∃ s ∈ slots, s.key = a.key ∧ a.take ≤ s.room) :
    granted (giveAll shares slots) = granted slots + (shares.map (·.take)).sum := by
  induction shares generalizing slots with
  | nil => rfl
  | cons a shares ih =>
    rw [List.map_cons, List.nodup_cons] at hkeys
    obtain ⟨⟨s, hs, hkey, hroom⟩, htail⟩ := List.forall_mem_cons.1 h
    have hstep : giveAll (a :: shares) slots = giveAll shares (give a.key a.take slots) := rfl
    have hrest : ∀ b ∈ shares, ∃ s ∈ give a.key a.take slots, s.key = b.key ∧ b.take ≤ s.room := by
      intro b hb
      obtain ⟨s, hs, hkey, hroom⟩ := htail b hb
      have hne : s.key ≠ a.key := fun heq =>
        hkeys.1 (heq ▸ hkey ▸ List.mem_map_of_mem hb)
      exact ⟨s, mem_give_of_ne hs hne, hkey, hroom⟩
    rw [hstep, ih (grow_give.nodup hslots) hkeys.2 hrest, ← hkey, granted_give hslots hs hroom,
      List.map_cons, List.sum_cons, Nat.add_assoc]

section Rounds

variable {K : Type*} [One K] [Sub K] [Mul K] [Div K] [NatCast K] [LT K] [DecidableLT K]
variable {arithmetic : Arithmetic K} {multipliers : List (String × K)}

/-- How many rows a round assigns before the pass for what is left. -/
def assigned (arithmetic : Arithmetic K) (multipliers : List (String × K)) (slots : List Slot)
    (remaining : ℕ) : ℕ :=
  ((allocations arithmetic multipliers slots remaining).map (·.take)).sum

/-- The order of the pass for what is left. -/
def visited (arithmetic : Arithmetic K) (multipliers : List (String × K)) (slots : List Slot)
    (remaining : ℕ) : List String :=
  ((allocations arithmetic multipliers slots remaining).insertionSort Allocation.Precedes).map (·.key)

theorem round_eq : round arithmetic multipliers slots remaining =
    leftover (visited arithmetic multipliers slots remaining)
      (giveAll (allocations arithmetic multipliers slots remaining) slots)
      (remaining - assigned arithmetic multipliers slots remaining) := rfl

omit [LT K] [DecidableLT K] in
theorem mem_allocations {a : Allocation K} (h : a ∈ allocations arithmetic multipliers slots remaining) :
    ∃ s ∈ slots, s.key = a.key ∧ a.take ≤ s.room := by
  obtain ⟨s, hs, rfl⟩ := List.mem_map.1 h
  exact ⟨s, (List.mem_filter.1 hs).1, rfl, min_le_left _ _⟩

omit [LT K] [DecidableLT K] in
theorem keys_allocations : (allocations arithmetic multipliers slots remaining).map (·.key) =
    (candidates slots).map (·.key) := by
  rw [allocations, List.map_map]
  rfl

theorem mem_visited (hs : s ∈ candidates slots) :
    s.key ∈ visited arithmetic multipliers slots remaining := by
  have hperm := (List.perm_insertionSort Allocation.Precedes
    (allocations arithmetic multipliers slots remaining)).map (·.key)
  rw [visited, hperm.mem_iff, keys_allocations]
  exact List.mem_map_of_mem hs

theorem grow_round : Grow slots (round arithmetic multipliers slots remaining).1 := by
  rw [round_eq]
  exact (grow_giveAll _ _).trans (grow_leftover _ _ _)

variable (hkeys : (slots.map (·.key)).Nodup)
include hkeys

omit [LT K] [DecidableLT K] in
theorem granted_allocations :
    granted (giveAll (allocations arithmetic multipliers slots remaining) slots) =
      granted slots + assigned arithmetic multipliers slots remaining := by
  refine granted_giveAll hkeys ?_ fun a => mem_allocations
  rw [keys_allocations]
  exact hkeys.sublist ((List.filter_sublist).map _)

/-- While a category has room, a round gives something out. -/
theorem round_lt (hcandidates : candidates slots ≠ []) (hremaining : 0 < remaining) :
    (round arithmetic multipliers slots remaining).2 < remaining := by
  have hgrow := grow_giveAll (allocations arithmetic multipliers slots remaining) slots
  rw [round_eq]
  rcases Nat.eq_zero_or_pos (assigned arithmetic multipliers slots remaining) with hzero | hpos
  · -- Nothing was assigned, so the first category of the pass still has its room.
    obtain ⟨s, hs⟩ := List.exists_mem_of_ne_nil _ hcandidates
    obtain ⟨hmem, hroom⟩ := List.mem_filter.1 hs
    have hsame : giveAll (allocations arithmetic multipliers slots remaining) slots = slots :=
      hgrow.eq_of_granted_le (by rw [granted_allocations hkeys, hzero]; exact le_refl _)
    rw [hsame, hzero, Nat.sub_zero]
    exact leftover_lt hkeys hmem (of_decide_eq_true hroom) (mem_visited hs) hremaining
  · exact (leftover_le _ (hgrow.nodup hkeys) _).trans_lt (Nat.sub_lt hremaining hpos)

/-- What was given out and what is left keep their sum, if not more is assigned than is left. -/
theorem granted_round (h : assigned arithmetic multipliers slots remaining ≤ remaining) :
    granted (round arithmetic multipliers slots remaining).1 +
      (round arithmetic multipliers slots remaining).2 = granted slots + remaining := by
  have hgrow := grow_giveAll (allocations arithmetic multipliers slots remaining) slots
  rw [round_eq, granted_leftover _ (hgrow.nodup hkeys), granted_allocations hkeys]
  omega

omit hkeys

/-! ## The loop -/

theorem rounds_of_done {fuel : ℕ} (h : remaining = 0 ∨ candidates slots = []) :
    rounds arithmetic multipliers fuel slots remaining = some slots := by
  unfold rounds
  exact if_pos h

theorem rounds_succ {fuel : ℕ} (h : ¬ (remaining = 0 ∨ candidates slots = [])) :
    rounds arithmetic multipliers (fuel + 1) slots remaining =
      rounds arithmetic multipliers fuel (round arithmetic multipliers slots remaining).1
        (round arithmetic multipliers slots remaining).2 := by
  conv_lhs => unfold rounds
  exact if_neg h

theorem rounds_zero (h : ¬ (remaining = 0 ∨ candidates slots = [])) :
    rounds arithmetic multipliers 0 slots remaining = none := by
  unfold rounds
  exact if_neg h

theorem grow_rounds {fuel : ℕ} (h : rounds arithmetic multipliers fuel slots remaining = some slots') :
    Grow slots slots' := by
  induction fuel generalizing slots remaining with
  | zero =>
    by_cases hdone : remaining = 0 ∨ candidates slots = []
    · exact Option.some.inj ((rounds_of_done hdone).symm.trans h) ▸ Grow.refl _
    · cases (rounds_zero hdone).symm.trans h
  | succ fuel ih =>
    by_cases hdone : remaining = 0 ∨ candidates slots = []
    · exact Option.some.inj ((rounds_of_done hdone).symm.trans h) ▸ Grow.refl _
    · exact grow_round.trans (ih ((rounds_succ hdone).symm.trans h))

/-- The loop ends after as many rounds as rows are missing, whatever the arithmetic. -/
theorem exists_rounds {fuel : ℕ} (hkeys : (slots.map (·.key)).Nodup) (hfuel : remaining ≤ fuel) :
    ∃ slots', rounds arithmetic multipliers fuel slots remaining = some slots' := by
  induction fuel generalizing slots remaining with
  | zero => exact ⟨slots, rounds_of_done (.inl (Nat.le_zero.1 hfuel))⟩
  | succ fuel ih =>
    by_cases hdone : remaining = 0 ∨ candidates slots = []
    · exact ⟨slots, rounds_of_done hdone⟩
    · obtain ⟨hremaining, hcandidates⟩ := not_or.1 hdone
      have hgrow : Grow slots (round arithmetic multipliers slots remaining).1 := grow_round
      have hlt : (round arithmetic multipliers slots remaining).2 < remaining :=
        round_lt hkeys hcandidates (Nat.pos_of_ne_zero hremaining)
      obtain ⟨slots', hslots'⟩ := ih (hgrow.nodup hkeys) (Nat.le_of_lt_succ (hlt.trans_le hfuel))
      exact ⟨slots', (rounds_succ hdone).trans hslots'⟩

theorem capacity_le_granted (h : candidates slots = []) : capacity slots ≤ granted slots := by
  have hfull : ∀ s ∈ slots, s.count ≤ s.quota := fun s hs => by
    have hroom := List.filter_eq_nil_iff.1 h s hs
    unfold Slot.room at hroom
    simp only [decide_eq_true_eq] at hroom
    omega
  exact List.sum_le_sum hfull

theorem granted_of_done {fuel : ℕ} (hdone : remaining = 0 ∨ candidates slots = [])
    (hcapacity : granted slots + remaining ≤ capacity slots)
    (h : rounds arithmetic multipliers fuel slots remaining = some slots') :
    granted slots' = granted slots + remaining := by
  rw [rounds_of_done hdone, Option.some.injEq] at h
  subst h
  rcases hdone with rfl | hfull
  · rfl
  · have hle := capacity_le_granted hfull
    omega

/-- Where no round assigns more than is left, the loop gives out all that was left. -/
theorem granted_rounds {fuel : ℕ} (hkeys : (slots.map (·.key)).Nodup)
    (hassigned : ∀ slots remaining, candidates slots ≠ [] →
      assigned arithmetic multipliers slots remaining ≤ remaining)
    (hcapacity : granted slots + remaining ≤ capacity slots)
    (h : rounds arithmetic multipliers fuel slots remaining = some slots') :
    granted slots' = granted slots + remaining := by
  induction fuel generalizing slots remaining with
  | zero =>
    by_cases hdone : remaining = 0 ∨ candidates slots = []
    · exact granted_of_done hdone hcapacity h
    · cases (rounds_zero hdone).symm.trans h
  | succ fuel ih =>
    by_cases hdone : remaining = 0 ∨ candidates slots = []
    · exact granted_of_done hdone hcapacity h
    · rw [rounds_succ hdone] at h
      have hgrow : Grow slots (round arithmetic multipliers slots remaining).1 := grow_round
      have hsum := granted_round hkeys (hassigned slots remaining (not_or.1 hdone).2)
      rw [ih (hgrow.nodup hkeys) (by rw [hsum, hgrow.capacity_eq]; exact hcapacity) h, hsum]

end Rounds

/-! ## The first quotas -/

variable {eligible : List (String × ℕ)} {target : ℕ}

/-- The slot of a category of the map, with at least some quota. -/
def IsSlotOf (minimum : ℕ → ℕ) (entry : String × ℕ) (s : Slot) : Prop :=
  s.key = entry.1 ∧ s.count = entry.2 ∧ minimum entry.2 ≤ s.quota

abbrev AreSlotsOf (minimum : ℕ → ℕ) : List (String × ℕ) → List Slot → Prop :=
  List.Forall₂ (IsSlotOf minimum)

/-- The first quota of a category, zero if the quotas do not fit together. -/
def firstQuota (eligible : List (String × ℕ)) (target count : ℕ) : ℕ :=
  if target < (eligible.map fun e => min e.2 5).sum then 0 else min count 5

theorem slotsOf_seeded : AreSlotsOf (firstQuota eligible target) eligible (seeded eligible target) := by
  have hsum : (eligible.map fun e => min e.2 5).sum =
      granted (eligible.map fun e => ⟨e.1, e.2, min e.2 5, min_le_left _ _⟩) := by
    rw [granted, List.map_map]
    rfl
  unfold seeded firstQuota
  rw [hsum]
  dsimp only
  split
  · exact List.forall₂_map_right_iff.2 (List.forall₂_same.2 fun _ _ => ⟨rfl, rfl, le_refl _⟩)
  · exact List.forall₂_map_right_iff.2 (List.forall₂_same.2 fun _ _ => ⟨rfl, rfl, le_refl _⟩)

theorem granted_seeded_le : granted (seeded eligible target) ≤ target := by
  unfold seeded
  dsimp only
  split
  case isTrue =>
    have hzero : granted (eligible.map fun e => (⟨e.1, e.2, 0, Nat.zero_le _⟩ : Slot)) = 0 := by
      rw [granted, List.map_map]
      exact List.sum_eq_zero fun n hn => by
        obtain ⟨-, -, rfl⟩ := List.mem_map.1 hn
        rfl
    exact hzero.trans_le (Nat.zero_le _)
  case isFalse h => exact not_lt.1 h

theorem AreSlotsOf.grow {minimum : ℕ → ℕ} {slots slots' : List Slot} (h : AreSlotsOf minimum eligible slots)
    (hgrow : Grow slots slots') : AreSlotsOf minimum eligible slots' := by
  induction h generalizing slots' with
  | nil =>
    cases hgrow
    exact .nil
  | cons hs _ ih =>
    cases hgrow with
    | cons hs' htail =>
      exact .cons ⟨hs'.1.trans hs.1, hs'.2.1.trans hs.2.1, hs.2.2.trans hs'.2.2⟩ (ih htail)

theorem AreSlotsOf.keys {minimum : ℕ → ℕ} (h : AreSlotsOf minimum eligible slots) :
    slots.map (·.key) = eligible.map (·.1) := by
  induction h with
  | nil => rfl
  | cons hs _ ih => rw [List.map_cons, List.map_cons, hs.1, ih]

theorem AreSlotsOf.capacity_eq {minimum : ℕ → ℕ} (h : AreSlotsOf minimum eligible slots) :
    capacity slots = (eligible.map (·.2)).sum := by
  induction h with
  | nil => rfl
  | cons hs _ ih => exact congrArg₂ (· + ·) hs.2.1 ih

/-- The slot of a category is among the slots, with its count. -/
theorem AreSlotsOf.exists_of_mem {minimum : ℕ → ℕ} (h : AreSlotsOf minimum eligible slots) (hs : s ∈ slots) :
    ∃ entry ∈ eligible, IsSlotOf minimum entry s := by
  induction h with
  | nil => cases hs
  | cons hhead _ ih =>
    rcases List.mem_cons.1 hs with rfl | hs
    · exact ⟨_, List.mem_cons_self, hhead⟩
    · obtain ⟨entry, hentry, hslot⟩ := ih hs
      exact ⟨entry, List.mem_cons_of_mem _ hentry, hslot⟩

/-! ## Exact shares -/

theorem weight_pos {multipliers : List (String × ℝ)} (hpos : ∀ m ∈ multipliers, 0 < m.2)
    (hroom : 0 < s.room) : 0 < weight exactly multipliers s := by
  have hsqrt : (0 : ℝ) < exactly.sqrt s.room := Real.sqrt_pos.2 (by exact_mod_cast hroom)
  refine mul_pos hsqrt ?_
  cases hlookup : multipliers.lookup s.key with
  | none => exact one_pos
  | some m => exact hpos _ (mem_of_lookup hlookup)

theorem totalWeight_eq (multipliers : List (String × ℝ)) (slots : List Slot) :
    totalWeight exactly multipliers slots = ((candidates slots).map (weight exactly multipliers)).sum := rfl

theorem assigned_le {multipliers : List (String × ℝ)} (hpos : ∀ m ∈ multipliers, 0 < m.2)
    (slots : List Slot) (remaining : ℕ) (hcandidates : candidates slots ≠ []) :
    assigned exactly multipliers slots remaining ≤ remaining := by
  have hweight : ∀ s ∈ candidates slots, 0 < weight exactly multipliers s := fun s hs =>
    weight_pos hpos (of_decide_eq_true (List.mem_filter.1 hs).2)
  have htotal : 0 < ((candidates slots).map (weight exactly multipliers)).sum :=
    List.sum_pos _ (List.forall_mem_map.2 hweight) (by simpa using hcandidates)
  have hshare : ∀ s ∈ candidates slots, 0 ≤ exactShare exactly multipliers slots remaining s := fun s hs => by
    rw [exactShare, totalWeight_eq]
    exact div_nonneg (mul_nonneg (Nat.cast_nonneg _) (hweight s hs).le) htotal.le
  have hsum : ((candidates slots).map (exactShare exactly multipliers slots remaining)).sum ≤ remaining := by
    refine le_of_eq ?_
    unfold exactShare
    rw [totalWeight_eq]
    exact Conc.sum_shares _ htotal.ne'
  calc assigned exactly multipliers slots remaining
      ≤ ((candidates slots).map fun s => ⌊exactShare exactly multipliers slots remaining s⌋₊).sum := by
        rw [assigned, allocations, List.map_map]
        exact List.sum_le_sum fun s _ => min_le_right _ _
    _ ≤ remaining := Conc.sum_floor_le hshare hsum

/-! ## The function -/

/-- The positive counts are given quotas that add up to the target, within the counts, and not below
the minima if these fit. -/
structure Allocated (counts : List (String × ℕ)) (target : ℕ) (quotas : List (String × ℕ)) : Prop where
  keys : quotas.map (·.1) = (counts.filter (0 < ·.2)).map (·.1)
  total : (quotas.map (·.2)).sum = target
  within : ∀ key count quota, (key, count) ∈ counts → (key, quota) ∈ quotas → quota ≤ count
  minima : ((counts.filter (0 < ·.2)).map fun e => min e.2 5).sum ≤ target →
    ∀ key count quota, (key, count) ∈ counts → (key, quota) ∈ quotas → min count 5 ≤ quota

variable {counts : List (String × ℕ)}

theorem allocated_of_slots (hcounts : (counts.map (·.1)).Nodup)
    (hslots : AreSlotsOf (firstQuota (counts.filter (0 < ·.2)) target) (counts.filter (0 < ·.2)) slots)
    (htotal : granted slots = target) :
    Allocated counts target (slots.map fun s => (s.key, s.quota)) := by
  have hslot : ∀ key count quota, (key, count) ∈ counts →
      (key, quota) ∈ slots.map (fun s => (s.key, s.quota)) →
      ∃ s ∈ slots, s.quota = quota ∧
        IsSlotOf (firstQuota (counts.filter (0 < ·.2)) target) (key, count) s := by
    intro key count quota hcount hquota
    obtain ⟨s, hs, heq⟩ := List.mem_map.1 hquota
    obtain ⟨rfl, rfl⟩ := Prod.ext_iff.1 heq
    obtain ⟨entry, hentry, hof⟩ := hslots.exists_of_mem hs
    have hsame : entry = (s.key, count) :=
      List.inj_on_of_nodup_map hcounts (List.mem_filter.1 hentry).1 hcount hof.1.symm
    exact ⟨s, hs, rfl, hsame ▸ hof⟩
  exact {
    keys := by
      rw [List.map_map]
      exact hslots.keys
    total := by
      rw [List.map_map]
      exact htotal
    within := by
      intro key count quota hcount hquota
      obtain ⟨s, -, rfl, hof⟩ := hslot key count quota hcount hquota
      exact s.le.trans_eq hof.2.1
    minima := by
      intro hfit key count quota hcount hquota
      obtain ⟨s, -, rfl, hof⟩ := hslot key count quota hcount hquota
      have hfirst := hof.2.2
      rw [firstQuota, if_neg (not_lt.2 hfit)] at hfirst
      exact hfirst }

section Function

variable {K : Type*} [One K] [Sub K] [Mul K] [Div K] [NatCast K] [LT K] [DecidableLT K]
variable {arithmetic : Arithmetic K} {multipliers : List (String × K)} {fuel : ℕ}

theorem allocateQuotas_of_lt (h : ((counts.filter (0 < ·.2)).map (·.2)).sum < target) :
    allocateQuotas arithmetic multipliers fuel counts target =
      some (.error (.valueError "Not enough unique records to satisfy target")) := by
  unfold allocateQuotas
  exact if_pos h

theorem allocateQuotas_of_rounds (h : target ≤ ((counts.filter (0 < ·.2)).map (·.2)).sum)
    (hslots : rounds arithmetic multipliers fuel (seeded (counts.filter (0 < ·.2)) target)
      (target - granted (seeded (counts.filter (0 < ·.2)) target)) = some slots) :
    allocateQuotas arithmetic multipliers fuel counts target =
      some (if granted slots ≠ target then .error (.valueError ("Quota allocation produced " ++
          toString (granted slots) ++ ", expected " ++ toString target))
        else .ok (slots.map fun s => (s.key, s.quota))) := by
  unfold allocateQuotas
  dsimp only
  rw [if_neg (not_lt.2 h), hslots]
  rfl

/-- Whatever the arithmetic, the quotas that are returned meet the target. -/
theorem allocated_of_ok (hcounts : (counts.map (·.1)).Nodup) {quotas : List (String × ℕ)}
    (h : allocateQuotas arithmetic multipliers fuel counts target = some (.ok quotas)) :
    Allocated counts target quotas := by
  rcases lt_or_ge ((counts.filter (0 < ·.2)).map (·.2)).sum target with hlt | hge
  · cases (allocateQuotas_of_lt hlt).symm.trans h
  · cases hrounds : rounds arithmetic multipliers fuel (seeded (counts.filter (0 < ·.2)) target)
        (target - granted (seeded (counts.filter (0 < ·.2)) target)) with
    | none =>
      unfold allocateQuotas at h
      dsimp only at h
      rw [if_neg (not_lt.2 hge), hrounds] at h
      cases h
    | some slots =>
      rw [allocateQuotas_of_rounds hge hrounds, Option.some.injEq] at h
      split at h
      case isTrue => cases h
      case isFalse htotal =>
        rw [← Except.ok.inj h]
        exact allocated_of_slots hcounts (slotsOf_seeded.grow (grow_rounds hrounds)) (not_not.1 htotal)

end Function

/-- With exact arithmetic the loop ends, and the quotas meet the target unless there are too few rows. -/
theorem allocateQuotas_exactly (hcounts : (counts.map (·.1)).Nodup) (target : ℕ)
    {multipliers : List (String × ℝ)} (hpos : ∀ m ∈ multipliers, 0 < m.2) {fuel : ℕ} (hfuel : target ≤ fuel) :
    if ((counts.filter (0 < ·.2)).map (·.2)).sum < target then
      allocateQuotas exactly multipliers fuel counts target =
        some (.error (.valueError "Not enough unique records to satisfy target"))
    else ∃ quotas, allocateQuotas exactly multipliers fuel counts target = some (.ok quotas) ∧
      Allocated counts target quotas := by
  split
  case isTrue hlt => exact allocateQuotas_of_lt hlt
  case isFalse hnot =>
    have hslots : AreSlotsOf (firstQuota (counts.filter (0 < ·.2)) target) (counts.filter (0 < ·.2))
        (seeded (counts.filter (0 < ·.2)) target) := slotsOf_seeded
    have hkeys : ((seeded (counts.filter (0 < ·.2)) target).map (·.key)).Nodup :=
      hslots.keys ▸ hcounts.sublist ((List.filter_sublist).map _)
    have hle : granted (seeded (counts.filter (0 < ·.2)) target) ≤ target := granted_seeded_le
    obtain ⟨slots, hrounds⟩ : ∃ slots, rounds exactly multipliers fuel
        (seeded (counts.filter (0 < ·.2)) target)
        (target - granted (seeded (counts.filter (0 < ·.2)) target)) = some slots :=
      exists_rounds hkeys ((Nat.sub_le target _).trans hfuel)
    have htotal : granted slots = target := by
      have hcapacity : granted (seeded (counts.filter (0 < ·.2)) target) +
          (target - granted (seeded (counts.filter (0 < ·.2)) target)) ≤
            capacity (seeded (counts.filter (0 < ·.2)) target) := by
        rw [hslots.capacity_eq]
        omega
      rw [granted_rounds hkeys (assigned_le hpos) hcapacity hrounds]
      omega
    refine ⟨_, (allocateQuotas_of_rounds (not_lt.1 hnot) hrounds).trans ?_,
      allocated_of_slots hcounts (hslots.grow (grow_rounds hrounds)) htotal⟩
    rw [if_neg (not_not.2 htotal)]

/-- Twenty rows from two categories, one of them preferred, and none from an empty one. -/
theorem allocateQuotas_exactly_sample :
    ∃ quotas, allocateQuotas exactly [("kurta", 9 / 2)] 20 [("shoe", 3), ("kurta", 30), ("lamp", 0)] 20 =
      some (.ok quotas) ∧ Allocated [("shoe", 3), ("kurta", 30), ("lamp", 0)] 20 quotas := by
  have hpos : ∀ m ∈ [("kurta", (9 / 2 : ℝ))], 0 < m.2 := by
    rintro m hm
    rw [List.mem_singleton.1 hm]
    norm_num
  have h := @allocateQuotas_exactly [("shoe", 3), ("kurta", 30), ("lamp", 0)] (by decide) 20 _ hpos 20
    (le_refl _)
  rwa [if_neg (by decide)] at h

end Data

end Stylme
