-- SUMMARY: How a number of rows is shared out among the categories: proportional rounds with a pass for what is left.
import Mathlib.Algebra.BigOperators.Group.List.Basic
import Mathlib.Analysis.Real.Sqrt
import Stylme.Data.Common

/-!
# Quotas

Each category begins with a few rows, and the rest is shared out in rounds: in each
one in proportion to the square roots of what the categories have left, rounded down and
capped, and one more for those with the largest fractions while any are left. The numbers of the
source are floats; the model leaves their arithmetic open.
-/

namespace Stylme

namespace Data

/-! ## Slots -/

/-- A category, how many rows it has, and how many of them it was given. -/
@[ext] structure Slot where
  key : String
  count : ℕ
  quota : ℕ
  le : quota ≤ count

namespace Slot

/-- What may still be given to the category. -/
def room (s : Slot) : ℕ := s.count - s.quota

/-- Give the category more, as far as it has room. -/
def fill (n : ℕ) (s : Slot) : Slot where
  key := s.key
  count := s.count
  quota := s.quota + min s.room n
  le := by
    have h := s.le
    unfold room
    omega

end Slot

/-- How many rows were given out. -/
def granted (slots : List Slot) : ℕ := (slots.map (·.quota)).sum

/-- How many rows there are. -/
def capacity (slots : List Slot) : ℕ := (slots.map (·.count)).sum

/-- The numbers of the source, which may be exact or rounded. -/
structure Arithmetic (K : Type*) where
  /-- `math.sqrt` -/
  sqrt : ℕ → K
  sum : List K → K
  /-- `int`, of a number that is not negative -/
  int : K → ℕ
  /-- A float of the source, which has this value. -/
  float : ℚ → K

/-- Real numbers. -/
noncomputable def exactly : Arithmetic ℝ := ⟨fun n => √n, List.sum, Nat.floor, fun q => q⟩

/-- `quotas[key] += n` -/
def give (key : String) (n : ℕ) (slots : List Slot) : List Slot :=
  slots.map fun s => if s.key = key then s.fill n else s

/-- The same categories, none of them given less. -/
def Slot.Grows (s s' : Slot) : Prop := s'.key = s.key ∧ s'.count = s.count ∧ s.quota ≤ s'.quota

abbrev Grow (slots slots' : List Slot) : Prop := List.Forall₂ Slot.Grows slots slots'

theorem Slot.grows_refl (s : Slot) : s.Grows s := ⟨rfl, rfl, le_refl _⟩

theorem Slot.grows_fill (s : Slot) (n : ℕ) : s.Grows (s.fill n) := ⟨rfl, rfl, Nat.le_add_right _ _⟩

theorem Grow.refl (slots : List Slot) : Grow slots slots :=
  List.forall₂_same.2 fun s _ => s.grows_refl

theorem Grow.trans {a b c : List Slot} (hab : Grow a b) (hbc : Grow b c) : Grow a c := by
  induction hab generalizing c with
  | nil => exact hbc
  | cons hs _ ih =>
    cases hbc with
    | cons hs' htail =>
      exact .cons ⟨hs'.1.trans hs.1, hs'.2.1.trans hs.2.1, hs.2.2.trans hs'.2.2⟩ (ih htail)

theorem Grow.keys {slots slots' : List Slot} (h : Grow slots slots') :
    slots'.map (·.key) = slots.map (·.key) := by
  induction h with
  | nil => rfl
  | cons hs _ ih => rw [List.map_cons, List.map_cons, hs.1, ih]

theorem Grow.granted_le {slots slots' : List Slot} (h : Grow slots slots') :
    granted slots ≤ granted slots' := by
  induction h with
  | nil => exact le_refl _
  | cons hs _ ih => exact Nat.add_le_add hs.2.2 ih

theorem Grow.capacity_eq {slots slots' : List Slot} (h : Grow slots slots') :
    capacity slots' = capacity slots := by
  induction h with
  | nil => rfl
  | cons hs _ ih => exact congrArg₂ (· + ·) hs.2.1 ih

/-- Slots that grew and were given nothing are the same. -/
theorem Grow.eq_of_granted_le {slots slots' : List Slot} (h : Grow slots slots')
    (hle : granted slots' ≤ granted slots) : slots' = slots := by
  induction h with
  | nil => rfl
  | @cons s s' tail tail' hs htail ih =>
    have hgrow : granted tail ≤ granted tail' := Grow.granted_le htail
    have hquota := hs.2.2
    simp only [granted, List.map_cons, List.sum_cons] at hle hgrow
    have hsame : s' = s := Slot.ext hs.1 hs.2.1 (by omega)
    rw [hsame, ih (by unfold granted; omega)]

variable {slots slots' : List Slot} {s : Slot} {key : String} {n : ℕ}

theorem grow_give : Grow slots (give key n slots) := by
  refine List.forall₂_map_right_iff.2 (List.forall₂_same.2 fun s _ => ?_)
  split
  · exact s.grows_fill n
  · exact s.grows_refl

theorem give_of_not_mem (h : key ∉ slots.map (·.key)) : give key n slots = slots := by
  have hsame : ∀ s ∈ slots, (if s.key = key then s.fill n else s) = id s := fun s hs =>
    if_neg fun heq => h (List.mem_map.2 ⟨s, hs, heq⟩)
  rw [give, List.map_congr_left hsame, List.map_id]

/-- What a category is given is added to what was given out. -/
theorem granted_give (hkeys : (slots.map (·.key)).Nodup) (hs : s ∈ slots) (hroom : n ≤ s.room) :
    granted (give s.key n slots) = granted slots + n := by
  induction slots with
  | nil => cases hs
  | cons head tail ih =>
    rw [List.map_cons, List.nodup_cons] at hkeys
    rcases List.mem_cons.1 hs with rfl | htail
    · have hrest : give s.key n tail = tail := give_of_not_mem hkeys.1
      have hfill : (s.fill n).quota = s.quota + n := congrArg (s.quota + ·) (Nat.min_eq_right hroom)
      have hgive : give s.key n (s :: tail) = s.fill n :: tail := by
        rw [give, List.map_cons, if_pos rfl]
        exact congrArg (s.fill n :: ·) hrest
      rw [hgive, granted, granted, List.map_cons, List.map_cons, List.sum_cons, List.sum_cons, hfill]
      omega
    · have hne : head.key ≠ s.key := fun heq => hkeys.1 (heq ▸ List.mem_map_of_mem htail)
      have hgive : give s.key n (head :: tail) = head :: give s.key n tail :=
        congrArg (· :: _) (if_neg hne)
      have hih := ih hkeys.2 htail
      rw [hgive, granted, granted, List.map_cons, List.map_cons, List.sum_cons, List.sum_cons]
      unfold granted at hih
      omega

theorem mem_give_of_ne (hs : s ∈ slots) (hne : s.key ≠ key) : s ∈ give key n slots :=
  List.mem_map.2 ⟨s, hs, if_neg hne⟩

/-! ## A round -/

section Rounds

variable {K : Type*} [One K] [Sub K] [Mul K] [Div K] [NatCast K] [LT K] [DecidableLT K]
variable (arithmetic : Arithmetic K) (multipliers : List (String × K))

/-- The categories with room. -/
def candidates (slots : List Slot) : List Slot := slots.filter (0 < ·.room)

def weight (s : Slot) : K := arithmetic.sqrt s.room * (multipliers.lookup s.key).getD 1

def totalWeight (slots : List Slot) : K :=
  arithmetic.sum ((candidates slots).map (weight arithmetic multipliers))

/-- The share of a category, not rounded. -/
def exactShare (slots : List Slot) (remaining : ℕ) (s : Slot) : K :=
  remaining * weight arithmetic multipliers s / totalWeight arithmetic multipliers slots

/-- What a category is given in a round, and the fraction that was cut off. -/
structure Allocation (K : Type*) where
  fraction : K
  key : String
  take : ℕ

def allocations (slots : List Slot) (remaining : ℕ) : List (Allocation K) :=
  (candidates slots).map fun s =>
    let share := exactShare arithmetic multipliers slots remaining s
    let take := min s.room (arithmetic.int share)
    ⟨share - take, s.key, take⟩

/-- The descending order of the triples; no two of them have the same key. -/
def Allocation.Precedes (a b : Allocation K) : Prop :=
  b.fraction < a.fraction ∨ (¬ a.fraction < b.fraction ∧ b.key ≤ a.key)

instance (a b : Allocation K) : Decidable (a.Precedes b) := inferInstanceAs (Decidable (_ ∨ _))

/-- One more for each key, while something is left. -/
def leftover : List String → List Slot → ℕ → List Slot × ℕ
  | [], slots, remaining => (slots, remaining)
  | _ :: _, slots, 0 => (slots, 0)
  | key :: keys, slots, remaining + 1 =>
    if ∃ s ∈ slots, s.key = key ∧ 0 < s.room then leftover keys (give key 1 slots) remaining
    else leftover keys slots (remaining + 1)

/-- The body of the loop. -/
def round (slots : List Slot) (remaining : ℕ) : List Slot × ℕ :=
  let shares := allocations arithmetic multipliers slots remaining
  let assigned := (shares.map (·.take)).sum
  let slots := shares.foldl (fun slots a => give a.key a.take slots) slots
  leftover ((shares.insertionSort Allocation.Precedes).map (·.key)) slots (remaining - assigned)

/-- The loop, for a number of rounds; none if it goes on. -/
def rounds : ℕ → List Slot → ℕ → Option (List Slot)
  | fuel, slots, remaining =>
    if remaining = 0 ∨ candidates slots = [] then some slots
    else match fuel with
      | 0 => none
      | fuel + 1 =>
        let (slots, remaining) := round arithmetic multipliers slots remaining
        rounds fuel slots remaining

/-- The categories with a first quota each. -/
def seeded (eligible : List (String × ℕ)) (target : ℕ) : List Slot :=
  let quotas := eligible.map fun (key, count) => (⟨key, count, min count 5, min_le_left _ _⟩ : Slot)
  if target < granted quotas then
    eligible.map fun (key, count) => ⟨key, count, 0, Nat.zero_le _⟩
  else quotas

/-- `allocate_quotas`, none if the loop does not end within the number of rounds -/
def allocateQuotas (fuel : ℕ) (counts : List (String × ℕ)) (target : ℕ) :
    Option (Except Raised (List (String × ℕ))) :=
  let eligible := counts.filter (0 < ·.2)
  if (eligible.map (·.2)).sum < target then
    some (.error (.valueError "Not enough unique records to satisfy target"))
  else
    let slots := seeded eligible target
    (rounds arithmetic multipliers fuel slots (target - granted slots)).map fun slots =>
      let total := granted slots
      if total ≠ target then
        .error (.valueError ("Quota allocation produced " ++ toString total ++ ", expected " ++ toString target))
      else .ok (slots.map fun s => (s.key, s.quota))

end Rounds

end Data

end Stylme
