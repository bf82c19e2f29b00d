-- SUMMARY: Lists cut into chunks, and elements picked out by their positions.
import Mathlib.Data.List.Nodup
import Mathlib.Data.List.Perm.Basic

/-!
# Chunks

A list is worked through in chunks, and a chunk by the positions of its elements. Nothing is lost
or repeated by either.
-/

namespace Conc

variable {α : Type} {xs : List α}

/-! ## Chunks of a list -/

theorem flatten_toChunks_go {n : ℕ} {acc : Array α} {done : Array (List α)} :
    (List.toChunks.go n xs acc done).flatten = done.toList.flatten ++ acc.toList ++ xs := by
  induction xs generalizing acc done with
  | nil =>
    rw [List.toChunks.go]
    simp
  | cons x xs ih =>
    rw [List.toChunks.go]
    split
    · rw [ih]
      simp
    · rw [ih]
      simp

theorem flatten_toChunks (n : ℕ) (xs : List α) : (xs.toChunks n).flatten = xs := by
  cases xs with
  | nil => rfl
  | cons x xs =>
    cases n with
    | zero => exact List.append_nil _
    | succ n =>
      have h := @flatten_toChunks_go α xs (n + 1) #[x] #[]
      rw [List.toChunks]
      · simpa using h
      · simp

/-- The chunks of a list have its elements. -/
theorem mem_of_mem_toChunks {n : ℕ} {l : List α} {a : α} (hl : l ∈ xs.toChunks n) (ha : a ∈ l) : a ∈ xs := by
  rw [← flatten_toChunks n xs]
  exact List.mem_flatten.2 ⟨l, hl, ha⟩

/-! ## Positions -/

/-- Two elements at one position are the same. -/
theorem eq_of_mem_zipIdx {x y : α × ℕ} (hx : x ∈ xs.zipIdx) (hy : y ∈ xs.zipIdx) (h : x.2 = y.2) : x = y := by
  obtain ⟨a, i⟩ := x
  obtain ⟨b, j⟩ := y
  obtain rfl : i = j := h
  rw [List.mem_zipIdx_iff_getElem?] at hx hy
  rw [hx] at hy
  obtain rfl := Option.some.inj hy
  rfl

theorem nodup_zipIdx (xs : List α) : xs.zipIdx.Nodup := by
  refine List.Nodup.of_map Prod.snd ?_
  rw [List.zipIdx_map_snd]
  exact List.nodup_range'

/-- Picked elements and those that are left are all, where a test tells by the position what is picked. -/
theorem picked_append_left_perm {picked : List (α × ℕ)} {p : ℕ → Bool} (hnodup : picked.Nodup)
    (hmem : ∀ x ∈ picked, x ∈ xs.zipIdx) (hp : ∀ i, p i = true ↔ i ∈ picked.map (·.2)) :
    (picked.map (·.1) ++ (xs.zipIdx.filter fun x => !p x.2).map (·.1)).Perm xs := by
  have hpicked : picked.Perm (xs.zipIdx.filter fun x => p x.2) := by
    refine (List.perm_ext_iff_of_nodup hnodup ((nodup_zipIdx xs).filter _)).2 fun x => ?_
    rw [List.mem_filter, hp]
    constructor
    · exact fun h => ⟨hmem x h, List.mem_map.2 ⟨x, h, rfl⟩⟩
    · rintro ⟨hx, h⟩
      obtain ⟨y, hy, hidx⟩ := List.mem_map.1 h
      exact eq_of_mem_zipIdx (hmem y hy) hx hidx ▸ hy
  have hall := (hpicked.append_right (xs.zipIdx.filter fun x => !p x.2)).trans (List.filter_append_perm _ _)
  have hrows := hall.map Prod.fst
  rwa [List.map_append, List.zipIdx_map_fst] at hrows

end Conc
