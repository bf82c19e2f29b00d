-- SUMMARY: Sorting up to ties, slices of a sorted list, and when separately sorted pages partition it.
import Mathlib.Data.List.Sort
import Mathlib.Data.List.Pairwise
import Mathlib.Data.List.Perm.Basic
import Mathlib.Logic.Equiv.Basic

/-!
# Paging

A query sorts by a comparison that may not tell all elements apart; equal elements
come in any order. A listing asks for one page after the other, each with a query
of its own. Its pages partition the elements for every way of breaking ties exactly
if the comparison leaves no ties.
-/

namespace Conc

open Std

variable {α β : Type}

/-! ## Sorting -/

/-- Compare by `cmp`, and equal elements by their rank. -/
def breakTies (cmp : α → α → Ordering) (rank : α → ℕ) : α → α → Ordering :=
  compareLex cmp (compareOn rank)

/-- The elements in the order of `cmp`. Any order of equal elements is the one of some `rank`. -/
def sortBy (cmp : α → α → Ordering) (rank : α → ℕ) (l : List α) : List α :=
  l.insertionSort fun a b => (breakTies cmp rank a b).isLE

/-- The comparison tells the elements of the list apart. -/
def Separates (cmp : α → α → Ordering) (l : List α) : Prop :=
  ∀ a ∈ l, ∀ b ∈ l, cmp a b = .eq → a = b

section Sorting

variable {cmp : α → α → Ordering} {rank : α → ℕ} {l l' : List α}

theorem perm_sortBy : (sortBy cmp rank l).Perm l := List.perm_insertionSort _ l

theorem mem_sortBy {a : α} : a ∈ sortBy cmp rank l ↔ a ∈ l := perm_sortBy.mem_iff

theorem length_sortBy : (sortBy cmp rank l).length = l.length := perm_sortBy.length_eq

variable [TransCmp cmp]

instance : TransCmp (breakTies cmp rank) :=
  inferInstanceAs (TransCmp (compareLex cmp (compareOn rank)))

theorem pairwise_breakTies :
    (sortBy cmp rank l).Pairwise fun a b => (breakTies cmp rank a b).isLE := by
  have htotal : Std.Total fun a b => (breakTies cmp rank a b).isLE = true :=
    ⟨fun a b => by
      rw [@OrientedCmp.eq_swap _ (breakTies cmp rank) _ b]
      cases breakTies cmp rank a b <;> simp⟩
  have htrans : IsTrans α fun a b => (breakTies cmp rank a b).isLE = true :=
    ⟨fun a b c => TransCmp.isLE_trans⟩
  exact List.pairwise_insertionSort _ l

/-- A sorted list is in the order of `cmp`. -/
theorem pairwise_sortBy : (sortBy cmp rank l).Pairwise fun a b => (cmp a b).isLE := by
  refine pairwise_breakTies.imp fun {a b} h => ?_
  simp only [breakTies, compareLex] at h
  cases hcmp : cmp a b <;> simp_all

/-- Sorting forgets the order of the list, if no two elements are equal under `breakTies`. -/
theorem sortBy_eq_of_perm (hperm : l.Perm l') (h : Separates (breakTies cmp rank) l) :
    sortBy cmp rank l = sortBy cmp rank l' := by
  refine List.Perm.eq_of_pairwise ?_ pairwise_breakTies pairwise_breakTies
    (perm_sortBy.trans (hperm.trans perm_sortBy.symm))
  intro a b ha hb hab hba
  refine h a (mem_sortBy.1 ha) b (hperm.mem_iff.2 (mem_sortBy.1 hb)) ?_
  exact OrientedCmp.isLE_antisymm hab hba

omit [TransCmp cmp] in
/-- Only the ranks of the sorted elements matter. -/
theorem sortBy_congr_rank {rank' : α → ℕ} (h : ∀ a ∈ l, rank a = rank' a) :
    sortBy cmp rank l = sortBy cmp rank' l := by
  refine (List.map_id _).symm.trans ((List.map_insertionSort _ _ id l fun a ha b hb => ?_).trans
    (by rw [List.map_id]; rfl))
  simp only [breakTies, compareLex, compareOn, h a ha, h b hb, id]

/-- Where the comparison tells the elements apart, ties do not matter. -/
theorem sortBy_eq_of_separates (h : Separates cmp l) (rank' : α → ℕ) :
    sortBy cmp rank l = sortBy cmp rank' l := by
  have hsorted : ∀ rank : α → ℕ, (sortBy cmp rank l).Pairwise fun a b => (cmp a b).isLE :=
    fun _ => pairwise_sortBy
  refine List.Perm.eq_of_pairwise ?_ (hsorted rank) (hsorted rank')
    (perm_sortBy.trans perm_sortBy.symm)
  intro a b ha hb hab hba
  exact h a (mem_sortBy.1 ha) b (mem_sortBy.1 hb) (OrientedCmp.isLE_antisymm hab hba)

omit [TransCmp cmp] in
/-- Sorting commutes with a map that respects the comparisons. -/
theorem map_sortBy {cmp' : β → β → Ordering} {rank' : β → ℕ} (f : α → β)
    (hcmp : ∀ a ∈ l, ∀ b ∈ l, cmp' (f a) (f b) = cmp a b) (hrank : ∀ a ∈ l, rank' (f a) = rank a) :
    (sortBy cmp rank l).map f = sortBy cmp' rank' (l.map f) := by
  refine List.map_insertionSort _ _ f l fun a ha b hb => ?_
  simp only [breakTies, compareLex, compareOn, hcmp a ha b hb, hrank a ha, hrank b hb]

end Sorting

/-! ## Slices -/

/-- The elements of a page, counted from one. -/
def slice (page size : ℕ) (l : List α) : List α := (l.drop ((page - 1) * size)).take size

/-- `math.ceil(total / size)` -/
def pageCount (total size : ℕ) : ℕ := (total + size - 1) / size

theorem flatMap_slice_eq_take (l : List α) (size n : ℕ) :
    (List.range n).flatMap (fun i => slice (i + 1) size l) = l.take (n * size) := by
  induction n with
  | zero => simp
  | succ n ih =>
    rw [List.range_succ, List.flatMap_append, ih, List.flatMap_singleton, slice, Nat.add_sub_cancel,
      Nat.succ_mul, List.take_add]

/-- The pages of one list are the list. -/
theorem flatMap_slice (l : List α) {size : ℕ} (hsize : 0 < size) :
    (List.range (pageCount l.length size)).flatMap (fun i => slice (i + 1) size l) = l := by
  rw [flatMap_slice_eq_take]
  refine List.take_of_length_le ?_
  have h := Nat.div_add_mod (l.length + size - 1) size
  have hmod := Nat.mod_lt (l.length + size - 1) hsize
  rw [pageCount, Nat.mul_comm]
  omega

theorem pageCount_zero (size : ℕ) : pageCount 0 size = 0 := by
  rcases Nat.eq_zero_or_pos size with rfl | hpos
  · rfl
  · exact Nat.div_eq_of_lt (by omega)

theorem pageCount_of_ite {n size : ℕ} : (if n = 0 then 0 else pageCount n size) = pageCount n size := by
  split
  · rename_i hzero
    rw [hzero, pageCount_zero]
  · rfl

theorem pageCount_one (n : ℕ) : pageCount n 1 = n := by simp [pageCount]

theorem slice_one {l : List α} {i : ℕ} (h : i < l.length) : slice (i + 1) 1 l = [l[i]] := by
  rw [slice, Nat.add_sub_cancel, Nat.mul_one, List.drop_eq_getElem_cons h, List.take_succ_cons,
    List.take_zero]

theorem slice_map (f : α → β) (page size : ℕ) (l : List α) :
    slice page size (l.map f) = (slice page size l).map f := by
  rw [slice, slice, List.map_take, List.map_drop]

theorem slice_sublist {page size : ℕ} {l : List α} : (slice page size l).Sublist l :=
  (List.take_sublist _ _).trans (List.drop_sublist _ _)

theorem mem_of_mem_slice {page size : ℕ} {l : List α} {a : α} (h : a ∈ slice page size l) : a ∈ l :=
  slice_sublist.mem h

/-! ## Pages -/

/-- All pages, each of them sorted with ties of its own. -/
def pages (cmp : α → α → Ordering) (rank : ℕ → α → ℕ) (size : ℕ) (l : List α) : List α :=
  (List.range (pageCount l.length size)).flatMap fun i =>
    slice (i + 1) size (sortBy cmp (rank (i + 1)) l)

theorem mem_of_mem_pages {cmp : α → α → Ordering} {rank : ℕ → α → ℕ} {size : ℕ} {l : List α} {a : α}
    (h : a ∈ pages cmp rank size l) : a ∈ l := by
  obtain ⟨i, -, ha⟩ := List.mem_flatMap.1 h
  exact mem_sortBy.1 (mem_of_mem_slice ha)

/-- A list of some elements is all of them if their images are all images. -/
theorem perm_of_perm_map {f : α → β} {l l' : List α} (hmem : ∀ a ∈ l', a ∈ l)
    (hf : ∀ a ∈ l, ∀ b ∈ l, f a = f b → a = b) (hl : l.Nodup) (h : (l'.map f).Perm (l.map f)) :
    l'.Perm l := by
  have hnodup : (l'.map f).Nodup := h.nodup_iff.2 ((List.nodup_map_iff_inj_on hl).2 hf)
  refine (List.perm_ext_iff_of_nodup (.of_map f hnodup) hl).2 fun a => ⟨hmem a, fun ha => ?_⟩
  obtain ⟨b, hb, hab⟩ := List.mem_map.1 (h.mem_iff.2 (List.mem_map_of_mem ha))
  exact hf b (hmem b hb) a ha hab ▸ hb

section Pages

variable {cmp : α → α → Ordering} [TransCmp cmp] {l : List α}

theorem pages_perm_of_separates (h : Separates cmp l) (rank : ℕ → α → ℕ) {size : ℕ}
    (hsize : 0 < size) : (pages cmp rank size l).Perm l := by
  have hsort : pages cmp rank size l = (List.range (pageCount l.length size)).flatMap fun i =>
      slice (i + 1) size (sortBy cmp (rank 0) l) := by
    refine List.flatMap_congr fun i _ => ?_
    rw [sortBy_eq_of_separates h (rank 0)]
  have hlen : (sortBy cmp (rank 0) l).length = l.length := length_sortBy
  rw [hsort, ← hlen, flatMap_slice _ hsize]
  exact perm_sortBy

variable [DecidableEq α]

/-- Exchanging two equal elements in the order of ties exchanges them in the sorted list. -/
theorem sortBy_swap {rank : α → ℕ} {a b : α} (hab : cmp a b = .eq) (ha : a ∈ l) (hb : b ∈ l)
    (hl : l.Nodup) (hrank : ∀ x ∈ l, ∀ y ∈ l, rank x = rank y → x = y) :
    sortBy cmp (rank ∘ Equiv.swap a b) l = (sortBy cmp rank l).map (Equiv.swap a b) := by
  have hswap : ∀ x ∈ l, Equiv.swap a b x ∈ l := by
    intro x hx
    rw [Equiv.swap_apply_def]
    split
    · exact hb
    · split
      · exact ha
      · exact hx
  have hcmp : ∀ x y, cmp (Equiv.swap a b x) (Equiv.swap a b y) = cmp x y := by
    have hleft : ∀ x y, cmp (Equiv.swap a b x) y = cmp x y := by
      intro x y
      rw [Equiv.swap_apply_def]
      split
      · rename_i h
        rw [h, TransCmp.congr_left hab]
      · split
        · rename_i h
          rw [h, TransCmp.congr_left hab]
        · rfl
    intro x y
    have hflip : ∀ x y, cmp x y = (cmp y x).swap := fun _ _ => OrientedCmp.eq_swap
    rw [hleft, hflip, hleft, ← hflip]
  have hperm : (l.map (Equiv.swap a b)).Perm l := by
    refine (List.perm_ext_iff_of_nodup (hl.map (Equiv.swap a b).injective) hl).2 fun x => ?_
    constructor
    · intro hx
      obtain ⟨y, hy, rfl⟩ := List.mem_map.1 hx
      exact hswap y hy
    · intro hx
      exact List.mem_map.2 ⟨Equiv.swap a b x, hswap x hx, Equiv.swap_apply_self a b x⟩
  have hmap : (sortBy cmp rank l).map (Equiv.swap a b) =
      sortBy cmp (rank ∘ Equiv.swap a b) (l.map (Equiv.swap a b)) :=
    map_sortBy (Equiv.swap a b) (fun x _ y _ => hcmp x y) fun x _ => by simp
  rw [hmap]
  refine (sortBy_eq_of_perm hperm ?_).symm
  intro x hx y hy h
  have hxy : (rank ∘ Equiv.swap a b) x = (rank ∘ Equiv.swap a b) y := by
    simp only [breakTies, compareLex, Ordering.then_eq_eq, compareOn, Nat.compare_eq_eq] at h
    exact h.2
  exact (Equiv.swap a b).injective
    (hrank _ (hswap x (hperm.mem_iff.1 hx)) _ (hswap y (hperm.mem_iff.1 hy)) hxy)

/-- Pages of one element partition the elements for all orders of ties only if there are none. -/
theorem separates_of_pages_perm (hl : l.Nodup)
    (h : ∀ rank : ℕ → α → ℕ, (pages cmp rank 1 l).Perm l) : Separates cmp l := by
  intro a ha b hb hab
  by_contra hne
  set rank := fun x => l.idxOf x with hrank
  have hinj : ∀ x ∈ l, ∀ y ∈ l, rank x = rank y → x = y := fun x hx y _ hxy =>
    (List.idxOf_inj hx).1 hxy
  have hexchanged := sortBy_swap hab ha hb hl hinj
  have hlen : (sortBy cmp rank l).length = l.length := length_sortBy
  have hsorted : ∀ {x}, x ∈ l → x ∈ sortBy cmp rank l := mem_sortBy.2
  obtain ⟨i, hi, hia⟩ := List.getElem_of_mem (hsorted ha)
  obtain ⟨j, hj, hjb⟩ := List.getElem_of_mem (hsorted hb)
  have hij : i ≠ j := by
    rintro rfl
    exact hne (hia.symm.trans hjb)
  -- page `j + 1` alone is sorted with the two elements exchanged, and shows `a` again
  set ranks : ℕ → α → ℕ := fun k => if k = j + 1 then rank ∘ Equiv.swap a b else rank with hranks
  have hfirst : a ∈ slice (i + 1) 1 (sortBy cmp (ranks (i + 1)) l) := by
    have hi' : i + 1 ≠ j + 1 := by omega
    simp only [hranks, hi', if_false]
    rw [slice_one hi, hia]
    exact List.mem_singleton_self a
  have hagain : a ∈ slice (j + 1) 1 (sortBy cmp (ranks (j + 1)) l) := by
    simp only [hranks, if_true]
    rw [hexchanged, slice_map, slice_one hj, hjb]
    simp
  have hnodup := (h ranks).nodup_iff.2 hl
  rw [pages, pageCount_one, List.nodup_flatMap] at hnodup
  have hsymm : Std.Symm (Function.onFun List.Disjoint fun k =>
      slice (k + 1) 1 (sortBy cmp (ranks (k + 1)) l)) := ⟨fun _ _ h _ hx hx' => h hx' hx⟩
  have hdisjoint := hnodup.2.forall (List.mem_range.2 (hlen ▸ hi))
    (List.mem_range.2 (hlen ▸ hj)) hij
  exact hdisjoint hfirst hagain

end Pages

end Conc
