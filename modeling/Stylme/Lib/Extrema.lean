-- SUMMARY: The least and the greatest element of a list, the bounds they decide, and the first of the greatest.
import Mathlib.Order.Lattice
import Mathlib.Data.List.Induction
import Mathlib.Data.List.MinMax
import Mathlib.Data.List.Sort

/-!
# Extrema

Whether some element of a list reaches a bound can be read off its least or its
greatest element.
-/

namespace Conc

section MinMax

variable {α : Type} [LinearOrder α] {l : List α} {b : α}

/-- Lists with the same elements have the same least element. -/
theorem min?_congr {l' : List α} (h : ∀ a, a ∈ l ↔ a ∈ l') : l.min? = l'.min? :=
  Option.ext fun m => by simp only [List.min?_eq_some_iff, h]

theorem min?_le_iff : (∃ m, l.min? = some m ∧ m ≤ b) ↔ ∃ a ∈ l, a ≤ b := by
  constructor
  · rintro ⟨m, hmin, hle⟩
    exact ⟨m, (List.min?_eq_some_iff.1 hmin).1, hle⟩
  · rintro ⟨a, ha, hle⟩
    cases hmin : l.min? with
    | none => exact absurd ha (List.min?_eq_none_iff.1 hmin ▸ List.not_mem_nil)
    | some m => exact ⟨m, rfl, ((List.min?_eq_some_iff.1 hmin).2 a ha).trans hle⟩

theorem le_max?_iff : (∃ m, l.max? = some m ∧ b ≤ m) ↔ ∃ a ∈ l, b ≤ a := by
  constructor
  · rintro ⟨m, hmax, hle⟩
    exact ⟨m, (List.max?_eq_some_iff.1 hmax).1, hle⟩
  · rintro ⟨a, ha, hle⟩
    cases hmax : l.max? with
    | none => exact absurd ha (List.max?_eq_none_iff.1 hmax ▸ List.not_mem_nil)
    | some m => exact ⟨m, rfl, hle.trans ((List.max?_eq_some_iff.1 hmax).2 a ha)⟩

end MinMax

/-! ## The first greatest element -/

section FirstMax

variable {α β : Type} [LinearOrder β] {f : α → β} {l : List α} {a : α}

/-- Keep what is held unless the next element is greater. -/
def keepGreater (f : α → β) (held : Option α) (x : α) : Option α :=
  match held with
  | none => some x
  | some b => if f b < f x then some x else some b

/-- The first of the elements that are greatest under `f`. -/
def firstMax (f : α → β) (l : List α) : Option α := l.foldl (keepGreater f) none

theorem foldl_keepGreater (h : ∀ x ∈ l, f x ≤ f a) :
    l.foldl (keepGreater f) (some a) = some a := by
  induction l with
  | nil => rfl
  | cons x l ih =>
    rw [List.foldl_cons, keepGreater, if_neg (not_lt.2 (h x List.mem_cons_self))]
    exact ih fun y hy => h y (List.mem_cons_of_mem _ hy)

theorem mem_of_foldl_keepGreater {held : Option α}
    (h : l.foldl (keepGreater f) held = some a) : a ∈ l ∨ held = some a := by
  induction l generalizing held with
  | nil => exact .inr h
  | cons x l ih =>
    rcases ih h with hmem | hheld
    · exact .inl (List.mem_cons_of_mem _ hmem)
    · cases held with
      | none =>
        obtain rfl := Option.some.inj hheld
        exact .inl List.mem_cons_self
      | some b =>
        rw [keepGreater] at hheld
        split at hheld
        · obtain rfl := Option.some.inj hheld
          exact .inl List.mem_cons_self
        · exact .inr hheld

theorem mem_of_firstMax (h : firstMax f l = some a) : a ∈ l :=
  (mem_of_foldl_keepGreater h).resolve_right nofun

theorem isSome_foldl_keepGreater {held : Option α} (h : held.isSome) :
    (l.foldl (keepGreater f) held).isSome := by
  induction l generalizing held with
  | nil => exact h
  | cons x l ih =>
    refine ih ?_
    cases held with
    | none => rfl
    | some b =>
      rw [keepGreater]
      split <;> rfl

theorem isSome_firstMax (h : a ∈ l) : (firstMax f l).isSome := by
  cases l with
  | nil => exact absurd h List.not_mem_nil
  | cons x l => exact @isSome_foldl_keepGreater _ _ _ f l (some x) rfl

theorem firstMax_concat {x : α} : firstMax f (l ++ [x]) = keepGreater f (firstMax f l) x := by
  rw [firstMax, List.foldl_append]
  rfl

/-- What comes before the first greatest element is less, what comes after is no greater. -/
theorem firstMax_split (h : firstMax f l = some a) : ∃ before after, l = before ++ a :: after ∧
    (∀ x ∈ before, f x < f a) ∧ ∀ x ∈ after, f x ≤ f a := by
  induction l using List.reverseRecOn generalizing a with
  | nil => cases h
  | append_singleton l x ih =>
    rw [firstMax_concat] at h
    cases hl : firstMax f l with
    | none =>
      rw [hl] at h
      obtain rfl := Option.some.inj h
      refine ⟨l, [], rfl, fun y hy => ?_, fun y hy => absurd hy List.not_mem_nil⟩
      have hsome : (firstMax f l).isSome := isSome_firstMax hy
      rw [hl] at hsome
      cases hsome
    | some b =>
      obtain ⟨before, after, hsplit, hbefore, hafter⟩ := ih hl
      rw [hl, keepGreater] at h
      split at h
      · rename_i hlt
        obtain rfl := Option.some.inj h
        refine ⟨l, [], rfl, fun y hy => ?_, fun y hy => absurd hy List.not_mem_nil⟩
        rw [hsplit, List.mem_append, List.mem_cons] at hy
        rcases hy with hy | rfl | hy
        · exact (hbefore y hy).trans hlt
        · exact hlt
        · exact (hafter y hy).trans_lt hlt
      · rename_i hle
        obtain rfl := Option.some.inj h
        refine ⟨before, after ++ [x], by rw [hsplit]; simp, hbefore, fun y hy => ?_⟩
        rcases List.mem_append.1 hy with hy | hy
        · exact hafter y hy
        · rw [List.mem_singleton.1 hy]
          exact not_lt.1 hle

theorem firstMax_of_split {before after : List α} (hbefore : ∀ x ∈ before, f x < f a)
    (hafter : ∀ x ∈ after, f x ≤ f a) : firstMax f (before ++ a :: after) = some a := by
  rw [firstMax, List.foldl_append, List.foldl_cons]
  have hhead : keepGreater f (before.foldl (keepGreater f) none) a = some a := by
    cases hb : before.foldl (keepGreater f) none with
    | none => rfl
    | some b => rw [keepGreater, if_pos (hbefore b (mem_of_firstMax hb))]
  rw [hhead]
  exact foldl_keepGreater hafter

/-- In a list that is ordered by `g`, the first greatest element is the one that `g` puts first. -/
theorem firstMax_eq_some_iff {g : α → ℕ} (hl : l.Pairwise fun x y => g x < g y) :
    firstMax f l = some a ↔ a ∈ l ∧ ∀ b ∈ l, f b < f a ∨ f b = f a ∧ g a ≤ g b := by
  constructor
  · intro h
    obtain ⟨before, after, rfl, hbefore, hafter⟩ := firstMax_split h
    obtain ⟨-, hlater, -⟩ := List.pairwise_append.1 hl
    refine ⟨mem_of_firstMax h, fun b hb => ?_⟩
    rw [List.mem_append, List.mem_cons] at hb
    rcases hb with hb | rfl | hb
    · exact .inl (hbefore b hb)
    · exact .inr ⟨rfl, le_rfl⟩
    · exact (hafter b hb).lt_or_eq.imp_right fun heq => ⟨heq, ((List.pairwise_cons.1 hlater).1 b hb).le⟩
  · rintro ⟨ha, hmax⟩
    obtain ⟨before, after, rfl⟩ := List.append_of_mem ha
    obtain ⟨-, -, hbefore⟩ := List.pairwise_append.1 hl
    refine firstMax_of_split (fun b hb => ?_) fun b hb => ?_
    · refine (hmax b (List.mem_append_left _ hb)).resolve_right fun h => ?_
      exact absurd h.2 (not_le.2 (hbefore b hb a List.mem_cons_self))
    · exact (hmax b (List.mem_append_right _ (List.mem_cons_of_mem _ hb))).elim le_of_lt fun h => h.1.le

theorem firstMax_cons {x : α} : firstMax f (x :: l) =
    some ((firstMax f l).elim x fun b => if f b ≤ f x then x else b) := by
  cases hl : firstMax f l with
  | none =>
    cases l with
    | nil => rfl
    | cons y l =>
      have hsome : (firstMax f (y :: l)).isSome := isSome_firstMax List.mem_cons_self
      rw [hl] at hsome
      cases hsome
  | some b =>
    obtain ⟨before, after, rfl, hbefore, hafter⟩ := firstMax_split hl
    dsimp only [Option.elim_some]
    split
    · rename_i hle
      refine @firstMax_of_split _ _ _ f x [] _ nofun fun y hy => ?_
      rw [List.mem_append, List.mem_cons] at hy
      rcases hy with hy | rfl | hy
      · exact (hbefore y hy).le.trans hle
      · exact hle
      · exact (hafter y hy).trans hle
    · rename_i hlt
      refine @firstMax_of_split _ _ _ f b (x :: before) after (fun y hy => ?_) hafter
      rcases List.mem_cons.1 hy with rfl | hy
      · exact not_le.1 hlt
      · exact hbefore y hy

/-- A stable sort puts the first greatest element first. -/
theorem head?_insertionSort : (l.insertionSort fun a b => f b ≤ f a).head? = firstMax f l := by
  induction l with
  | nil => rfl
  | cons x l ih =>
    rw [List.insertionSort_cons, firstMax_cons, ← ih]
    cases l.insertionSort fun a b => f b ≤ f a with
    | nil => rfl
    | cons y sorted =>
      rw [List.orderedInsert_cons, List.head?_cons, Option.elim_some]
      split <;> rfl

end FirstMax

section Filter

variable {α : Type} {r : α → α → Prop} [DecidableRel r] {p : α → Bool} {a : α} {l : List α}

theorem filter_orderedInsert [IsTrans α r] (hsorted : l.Pairwise r) :
    (l.orderedInsert r a).filter p = if p a then (l.filter p).orderedInsert r a else l.filter p := by
  induction l with
  | nil => cases ha : p a <;> simp [ha]
  | cons b l ih =>
    obtain ⟨hb, hl⟩ := List.pairwise_cons.1 hsorted
    rw [List.orderedInsert_cons]
    split_ifs with hle ha ha
    · -- what stays of the list lies above `a`
      rw [List.filter_cons_of_pos ha]
      cases hrest : (b :: l).filter p with
      | nil => rfl
      | cons c rest =>
        have hc : c ∈ b :: l := List.mem_of_mem_filter (hrest ▸ List.mem_cons_self)
        have hac : r a c := (List.mem_cons.1 hc).elim (fun heq => heq ▸ hle) fun hc => trans_of r hle (hb c hc)
        rw [List.orderedInsert_cons, if_pos hac]
    · rw [List.filter_cons_of_neg ha]
    · rw [List.filter_cons, List.filter_cons, ih hl, if_pos ha]
      split_ifs with hpb
      · rw [List.orderedInsert_cons, if_neg hle]
      · rfl
    · rw [List.filter_cons, List.filter_cons, ih hl, if_neg ha]

/-- A stable sort of what a list filters is what the sorted list filters. -/
theorem filter_insertionSort [Std.Total r] [IsTrans α r] (l : List α) :
    (l.filter p).insertionSort r = (l.insertionSort r).filter p := by
  induction l with
  | nil => rfl
  | cons a l ih =>
    rw [List.insertionSort_cons, filter_orderedInsert (List.pairwise_insertionSort r l), ← ih]
    split_ifs with ha
    · rw [List.filter_cons_of_pos ha, List.insertionSort_cons]
    · rw [List.filter_cons_of_neg ha]

end Filter

end Conc
