-- SUMMARY: Dictionaries as association lists: their keys stay distinct, where an entry is put, and counters.
import Stylme.Domain.Models
import Mathlib.Data.List.Nodup

/-!
# Dictionaries

`setKey` replaces the entry of a key in its place, or appends one. `amend` does so with a value
made from the one that the key had. A counter gives each key that it met a positive number.
-/

namespace Stylme

section Lookup

variable {κ α : Type} [DecidableEq κ] [BEq κ] [LawfulBEq κ] {d : List (κ × α)}

theorem lookup_cons_item {k' : κ} {x : κ × α} :
    (x :: d).lookup k' = if k' = x.1 then some x.2 else d.lookup k' := by
  rw [List.lookup_cons]
  by_cases h : k' = x.1
  · simp [h]
  · simp [h, beq_false_of_ne h]

theorem lookup_of_mem {x : κ × α} (hnodup : (d.map (·.1)).Nodup) (h : x ∈ d) :
    d.lookup x.1 = some x.2 := by
  induction d with
  | nil => exact absurd h List.not_mem_nil
  | cons y d ih =>
    obtain ⟨hy, hnodup⟩ := List.nodup_cons.1 hnodup
    rw [lookup_cons_item]
    rcases List.mem_cons.1 h with rfl | h
    · rw [if_pos rfl]
    · have hne : x.1 ≠ y.1 := fun heq =>
        hy (List.mem_map.2 ⟨x, h, heq⟩)
      rw [if_neg hne]
      exact ih hnodup h

end Lookup

section SetKey

variable {α β : Type} {k : String} {v : α} {d : List (String × α)}

theorem mem_of_mem_setKey {x : String × α} (h : x ∈ setKey k v d) : x = (k, v) ∨ x ∈ d := by
  induction d with
  | nil => exact .inl (List.mem_singleton.1 h)
  | cons y d ih =>
    obtain ⟨k', v'⟩ := y
    rw [setKey] at h
    split at h
    · exact (List.mem_cons.1 h).imp_right (List.mem_cons_of_mem _)
    · rcases List.mem_cons.1 h with h | h
      · exact .inr (h ▸ List.mem_cons_self)
      · exact (ih h).imp_right (List.mem_cons_of_mem _)

theorem setKey_of_not_mem (h : k ∉ d.map (·.1)) : setKey k v d = d ++ [(k, v)] := by
  induction d with
  | nil => rfl
  | cons y d ih =>
    obtain ⟨k', v'⟩ := y
    rw [List.map_cons, List.mem_cons, not_or] at h
    rw [setKey, if_neg (Ne.symm h.1), ih h.2, List.cons_append]

theorem keys_setKey (h : k ∈ d.map (·.1)) : (setKey k v d).map (·.1) = d.map (·.1) := by
  induction d with
  | nil => cases h
  | cons y d ih =>
    obtain ⟨k', v'⟩ := y
    rw [setKey]
    split
    · rename_i heq
      rw [List.map_cons, List.map_cons, heq]
    · rename_i hne
      rw [List.map_cons, List.map_cons,
        ih ((List.mem_cons.1 h).resolve_left (Ne.symm hne))]

theorem setKey_setKey {w : α} : setKey k v (setKey k w d) = setKey k v d := by
  induction d with
  | nil => simp [setKey]
  | cons y d ih =>
    rw [setKey, setKey]
    split
    · rw [setKey, if_pos rfl]
    · rename_i hne
      rw [setKey, if_neg hne, ih]

/-- Setting a key to what it has changes nothing. -/
theorem setKey_of_lookup (h : d.lookup k = some v) : setKey k v d = d := by
  induction d with
  | nil => cases h
  | cons y d ih =>
    rw [lookup_cons_item] at h
    rw [setKey]
    split
    · rename_i heq
      rw [if_pos heq.symm] at h
      rw [← heq, ← Option.some.inj h]
    · rename_i hne
      rw [if_neg (Ne.symm hne)] at h
      rw [ih h]

theorem setKey_eq_self_iff : setKey k v d = d ↔ d.lookup k = some v := by
  refine ⟨fun h => ?_, setKey_of_lookup⟩
  have hlookup : (setKey k v d).lookup k = some v := by rw [lookup_setKey, if_pos rfl]
  rwa [h] at hlookup

theorem not_mem_keys_of_lookup (h : d.lookup k = none) : k ∉ d.map (·.1) := by
  rintro hk
  obtain ⟨x, hx, rfl⟩ := List.mem_map.1 hk
  exact absurd rfl (bne_iff_ne.1 (List.lookup_eq_none_iff.1 h x hx))

/-- A new entry is taken out again. -/
theorem filter_setKey_of_lookup (h : d.lookup k = none) : (setKey k v d).filter (·.1 ≠ k) = d := by
  have hk := not_mem_keys_of_lookup h
  have hkept : d.filter (·.1 ≠ k) = d := List.filter_eq_self.2 fun x hx =>
    decide_eq_true fun heq => hk (List.mem_map.2 ⟨x, hx, heq⟩)
  rw [setKey_of_not_mem hk, List.filter_append, hkept]
  simp

theorem nodup_keys_append (hd : (d.map (·.1)).Nodup) (hk : k ∉ d.map (·.1)) :
    ((d ++ [(k, v)]).map (·.1)).Nodup := by
  rw [List.map_append]
  refine List.nodup_append.2 ⟨hd, List.nodup_singleton _, ?_⟩
  intro a ha b hb hab
  have hb : b = k := List.mem_singleton.1 hb
  exact hk (hb ▸ hab ▸ ha)

theorem nodup_keys_setKey (hd : (d.map (·.1)).Nodup) : ((setKey k v d).map (·.1)).Nodup := by
  by_cases hk : k ∈ d.map (·.1)
  · rwa [keys_setKey hk]
  · rw [setKey_of_not_mem hk]
    exact nodup_keys_append hd hk

/-- Building a dictionary from distinct keys applies `f` to each value. -/
theorem foldl_setKey (f : α → β) {l : List (String × α)} {d : List (String × β)}
    (hl : (l.map (·.1)).Nodup) (hd : ∀ k ∈ l.map (·.1), k ∉ d.map (·.1)) :
    l.foldl (fun d (k, v) => setKey k (f v) d) d = d ++ l.map fun (k, v) => (k, f v) := by
  induction l generalizing d with
  | nil => exact (List.append_nil d).symm
  | cons y l ih =>
    obtain ⟨k, v⟩ := y
    rw [List.map_cons, List.nodup_cons] at hl
    have hk : k ∉ d.map (·.1) := hd k List.mem_cons_self
    have hrest : ∀ k' ∈ l.map (·.1), k' ∉ (d ++ [(k, f v)]).map (·.1) := by
      intro k' hk' hmem
      rw [List.map_append, List.mem_append] at hmem
      rcases hmem with hmem | hmem
      · exact hd k' (List.mem_cons_of_mem _ hk') hmem
      · have heq : k' = k := List.mem_singleton.1 hmem
        exact hl.1 (heq ▸ hk')
    have hstep := setKey_of_not_mem (v := f v) hk
    rw [List.foldl_cons]
    dsimp only
    rw [hstep, ih hl.2 hrest, List.append_assoc, List.map_cons, List.singleton_append]

end SetKey

/-! ## Changing an entry -/

/-- The entry of a key, changed in its place, or a new one at the end. -/
def amend {κ α : Type} [DecidableEq κ] (k : κ) (f : Option α → α) : List (κ × α) → List (κ × α)
  | [] => [(k, f none)]
  | x :: d => if x.1 = k then (k, f (some x.2)) :: d else x :: amend k f d

section Amend

variable {κ α : Type} [DecidableEq κ] {k k' : κ} {f : Option α → α} {d : List (κ × α)}

theorem lookup_amend [BEq κ] [LawfulBEq κ] :
    (amend k f d).lookup k' = if k' = k then some (f (d.lookup k)) else d.lookup k' := by
  induction d with
  | nil =>
    rw [amend, lookup_cons_item]
    rfl
  | cons x d ih =>
    rw [amend]
    by_cases hx : x.1 = k
    · rw [if_pos hx, lookup_cons_item, lookup_cons_item, lookup_cons_item, if_pos hx.symm]
      split
      · rfl
      · rename_i hk
        rw [if_neg (hx ▸ hk)]
    · rw [if_neg hx, lookup_cons_item, ih, lookup_cons_item, lookup_cons_item]
      by_cases hk : k' = x.1
      · rw [if_pos hk, if_pos hk, if_neg (hk ▸ hx)]
      · rw [if_neg hk, if_neg hk, if_neg (Ne.symm hx)]

theorem keys_amend : (amend k f d).map (·.1) =
    if k ∈ d.map (·.1) then d.map (·.1) else d.map (·.1) ++ [k] := by
  induction d with
  | nil => rfl
  | cons x d ih =>
    rw [amend]
    by_cases hx : x.1 = k
    · rw [if_pos hx, if_pos (List.mem_map.2 ⟨x, List.mem_cons_self, hx⟩), List.map_cons, List.map_cons, hx]
    · rw [if_neg hx, List.map_cons, ih, List.map_cons]
      by_cases hk : k ∈ d.map (·.1)
      · rw [if_pos hk, if_pos (List.mem_cons_of_mem _ hk)]
      · have hnew : k ∉ x.1 :: d.map (·.1) := List.not_mem_cons_of_ne_of_not_mem (Ne.symm hx) hk
        rw [if_neg hk, if_neg hnew, List.cons_append]

theorem nodup_keys_amend (h : (d.map (·.1)).Nodup) : ((amend k f d).map (·.1)).Nodup := by
  rw [keys_amend]
  split
  · exact h
  · rename_i hk
    refine List.nodup_append.2 ⟨h, List.nodup_singleton _, fun a ha b hb => ?_⟩
    rw [List.mem_singleton.1 hb]
    exact ne_of_mem_of_not_mem ha hk

end Amend

section Keys

variable {κ α : Type} [DecidableEq κ] {f : Option α → α} {keys : List κ} {d : List (κ × α)}

theorem lookup_foldl_amend {k : κ} (hkeys : keys.Nodup) :
    (keys.foldl (fun d k => amend k f d) d).lookup k =
      if k ∈ keys then some (f (d.lookup k)) else d.lookup k := by
  induction keys generalizing d with
  | nil => rw [if_neg List.not_mem_nil, List.foldl_nil]
  | cons k' keys ih =>
    obtain ⟨hk', hkeys⟩ := List.nodup_cons.1 hkeys
    rw [List.foldl_cons, ih hkeys, lookup_amend]
    by_cases hk : k = k'
    · rw [if_neg (hk ▸ hk'), if_pos hk, if_pos (hk ▸ List.mem_cons_self), hk]
    · simp only [List.mem_cons, hk, false_or, if_false]

theorem nodup_keys_foldl_amend (h : (d.map (·.1)).Nodup) :
    ((keys.foldl (fun d k => amend k f d) d).map (·.1)).Nodup := by
  induction keys generalizing d with
  | nil => exact h
  | cons k keys ih => exact ih (nodup_keys_amend h)

end Keys

/-! ## Counting -/

/-- `Counter` -/
abbrev Counter (κ : Type) := List (κ × ℕ)

namespace Counter

variable {κ : Type} [DecidableEq κ]

/-- `counter[k]` -/
def count (counter : Counter κ) (k : κ) : ℕ := (counter.lookup k).getD 0

/-- `counter.update(keys)` -/
def update (keys : List κ) (counter : Counter κ) : Counter κ :=
  keys.foldl (fun counter k => amend k (fun n => n.getD 0 + 1) counter) counter

theorem count_update {keys : List κ} (hkeys : keys.Nodup) (counter : Counter κ) (k : κ) :
    (update keys counter).count k = counter.count k + if k ∈ keys then 1 else 0 := by
  unfold count update
  rw [lookup_foldl_amend hkeys]
  split <;> rfl

theorem nodup_update {keys : List κ} {counter : Counter κ} (h : (counter.map (·.1)).Nodup) :
    ((update keys counter).map (·.1)).Nodup := nodup_keys_foldl_amend h

theorem count_of_mem {counter : Counter κ} {k : κ} {n : ℕ} (h : (counter.map (·.1)).Nodup)
    (hmem : (k, n) ∈ counter) : counter.count k = n := by
  rw [count, lookup_of_mem h hmem, Option.getD_some]

end Counter

end Stylme
