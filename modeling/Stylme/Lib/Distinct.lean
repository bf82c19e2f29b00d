-- SUMMARY: Lists without repetitions: what removing repetitions keeps, and parts of such lists.
import Mathlib.Algebra.GroupWithZero.Nat
import Mathlib.Data.List.Nodup

/-!
# Lists without repetitions

`eraseDups` keeps the first of equal elements. A list without repetitions is kept, whatever
of it is repeated afterwards.
-/

namespace Conc

variable {α : Type} [DecidableEq α] {l more : List α} {a : α}

theorem eraseDups_of_nodup (h : l.Nodup) : l.eraseDups = l := by
  induction l with
  | nil => rfl
  | cons a l ih =>
    obtain ⟨hnew, hrest⟩ := List.nodup_cons.1 h
    have hfilter : l.filter (fun b => !b == a) = l := by
      refine List.filter_eq_self.2 fun b hb => ?_
      have hne : b ≠ a := fun heq => hnew (heq ▸ hb)
      simpa using hne
    rw [List.eraseDups_cons, hfilter, ih hrest]

theorem nodup_eraseDups : ∀ l : List α, l.eraseDups.Nodup
  | [] => .nil
  | a :: l => by
    have hshorter : (l.filter fun b => !b == a).length < (a :: l).length :=
      Nat.lt_succ_of_le (List.length_filter_le _ l)
    rw [List.eraseDups_cons, List.nodup_cons, List.mem_eraseDups, List.mem_filter]
    exact ⟨fun h => by simp at h, nodup_eraseDups _⟩
termination_by l => l.length
decreasing_by exact hshorter

/-- What the first occurrences filter. -/
theorem eraseDups_filter (p : α → Bool) : ∀ l : List α, (l.filter p).eraseDups = l.eraseDups.filter p
  | [] => rfl
  | a :: l => by
    have hshorter : (l.filter fun b => !b == a).length < (a :: l).length :=
      Nat.lt_succ_of_le (List.length_filter_le _ l)
    have hrest := eraseDups_filter p (l.filter fun b => !b == a)
    rw [List.filter_filter] at hrest
    rw [List.eraseDups_cons]
    by_cases ha : p a = true
    · rw [List.filter_cons_of_pos ha, List.filter_cons_of_pos ha, List.eraseDups_cons, List.filter_filter, ← hrest]
      exact congrArg (fun q => a :: (l.filter q).eraseDups) (funext fun b => Bool.and_comm _ _)
    · rw [List.filter_cons_of_neg ha, List.filter_cons_of_neg ha, ← hrest]
      refine congrArg List.eraseDups (List.filter_congr fun b _ => ?_)
      by_cases hb : b = a
      · rw [hb]
        simp [ha]
      · simp [hb]
termination_by l => l.length
decreasing_by exact hshorter

/-- Lists with the same elements have the same elements without repetitions, up to their order. -/
theorem eraseDups_perm {l' : List α} (h : ∀ a, a ∈ l ↔ a ∈ l') : l.eraseDups.Perm l'.eraseDups :=
  (List.perm_ext_iff_of_nodup (nodup_eraseDups l) (nodup_eraseDups l')).2 fun a => by
    rw [List.mem_eraseDups, List.mem_eraseDups, h]

/-- Repeating elements changes nothing. -/
theorem eraseDups_append_of_subset (h : l.Nodup) (hmore : ∀ b ∈ more, b ∈ l) :
    (l ++ more).eraseDups = l := by
  have hrest : more.removeAll l = [] := by
    refine List.filter_eq_nil_iff.2 fun b hb => ?_
    simpa using hmore b hb
  rw [List.eraseDups_append, eraseDups_of_nodup h, hrest, List.eraseDups_nil, List.append_nil]

/-- Appending elements that are already there, and one that is not, appends the latter. -/
theorem eraseDups_append_new (h : l.Nodup) (hmore : ∀ b ∈ more, b ∈ l) (hnew : a ∉ l) :
    ((l ++ more) ++ [a]).eraseDups = l ++ [a] := by
  have hlast : [a].removeAll (l ++ more) = [a] := by
    refine List.filter_eq_self.2 fun b hb => ?_
    obtain rfl := List.mem_singleton.1 hb
    have hb : b ∉ l ++ more := fun hb => hnew ((List.mem_append.1 hb).elim id (hmore b))
    simpa using hb
  rw [List.eraseDups_append, eraseDups_append_of_subset h hmore, hlast]
  rfl

theorem eraseDups_append_singleton (h : l.Nodup) :
    (l ++ [a]).eraseDups = if a ∈ l then l else l ++ [a] := by
  split_ifs with hmem
  · exact eraseDups_append_of_subset h fun b hb => List.mem_singleton.1 hb ▸ hmem
  · have hnil : ∀ b ∈ ([] : List α), b ∈ l := fun b hb => (List.not_mem_nil hb).elim
    have hnew := eraseDups_append_new h hnil hmem
    rwa [List.append_nil] at hnew

omit [DecidableEq α] in
/-- A part of a list without repetitions is what its elements filter out of the list. -/
theorem filter_of_sublist {part : List α} {p : α → Bool} (h : List.Sublist part l) (hnodup : l.Nodup)
    (hp : ∀ x ∈ l, p x = true ↔ x ∈ part) : l.filter p = part := by
  induction h with
  | slnil => rfl
  | cons a h ih =>
    obtain ⟨hnew, hrest⟩ := List.nodup_cons.1 hnodup
    have ha : ¬ p a = true := fun ha => hnew (h.subset ((hp a List.mem_cons_self).1 ha))
    rw [List.filter_cons_of_neg ha]
    exact ih hrest fun x hx => hp x (List.mem_cons_of_mem _ hx)
  | cons_cons a h ih =>
    obtain ⟨hnew, hrest⟩ := List.nodup_cons.1 hnodup
    rw [List.filter_cons_of_pos ((hp a List.mem_cons_self).2 List.mem_cons_self)]
    refine congrArg (a :: ·) (ih hrest fun x hx => (hp x (List.mem_cons_of_mem _ hx)).trans ?_)
    have hne : x ≠ a := fun heq => hnew (heq ▸ hx)
    rw [List.mem_cons, or_iff_right hne]

/-- The elements are as many as those of the keys together. -/
theorem length_eq_sum_filter {β : Type} {f : β → α} {l : List β} {keys : List α} (hkeys : keys.Nodup)
    (h : ∀ b ∈ l, f b ∈ keys) : l.length = (keys.map fun k => (l.filter (f · = k)).length).sum := by
  induction keys generalizing l with
  | nil => rw [List.eq_nil_iff_forall_not_mem.2 fun b hb => List.not_mem_nil (h b hb)]; rfl
  | cons k keys ih =>
    obtain ⟨hnew, hrest⟩ := List.nodup_cons.1 hkeys
    have hothers : ∀ b ∈ l.filter (fun b => ! decide (f b = k)), f b ∈ keys := fun b hb => by
      obtain ⟨hmem, hne⟩ := List.mem_filter.1 hb
      exact (List.mem_cons.1 (h b hmem)).resolve_left (by simpa using hne)
    have hfilter : ∀ k' ∈ keys, ((l.filter fun b => ! decide (f b = k)).filter (f · = k')).length =
        (l.filter (f · = k')).length := fun k' hk' => by
      have hne : k' ≠ k := fun heq => hnew (heq ▸ hk')
      rw [List.filter_filter]
      congr 1
      refine List.filter_congr fun b _ => ?_
      by_cases hb : f b = k'
      · simp [hb, hne]
      · simp [hb]
    rw [List.length_eq_length_filter_add (fun b => decide (f b = k)), ih hrest hothers, List.map_cons, List.sum_cons,
      List.map_congr_left hfilter]

end Conc
