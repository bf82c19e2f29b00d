-- SUMMARY: Collections in which documents are marked for scopes: at most one marked document a scope, and what unmarking the rivals of a document does.
import Stylme.Lib.Collection

/-!
# Marked documents

A document may be marked, and has a list of scopes. Marking a document takes two
writes: its rivals, the other marked documents that share a scope with it, are
unmarked, and then it is stored. The second write keeps at most one marked
document in each scope if no rival has appeared in the meantime.
-/

namespace Conc

universe u v w x

/-- Which documents are marked, and for which scopes. -/
structure Marking (α : Type u) (σ : Type x) where
  marked : α → Bool
  scopes : α → List σ

namespace Marking

variable {α : Type u} {σ : Type x} {κ : Type v} {ι : Type w} {id : α → κ} {key : α → ι}
variable (M : Marking α σ)

/-- At most one document is marked for each scope. -/
def Sole (s : Collection α id key) : Prop :=
  ∀ p, ∀ a ∈ s, ∀ b ∈ s, M.marked a → p ∈ M.scopes a → M.marked b → p ∈ M.scopes b → a = b

variable {M} {s s' : Collection α id key}

/-- A change that marks nothing leaves at most one document marked in each scope. -/
theorem Sole.of_map {f : α → α} (h : M.Sole s) (hdocs : s'.docs = s.docs.map f)
    (hf : ∀ d, M.marked (f d) → f d = d) : M.Sole s' := by
  intro p a ha a' ha' hmarked hp hmarked' hp'
  rw [Collection.mem_def, hdocs] at ha ha'
  obtain ⟨d, hd, rfl⟩ := List.mem_map.1 ha
  obtain ⟨d', hd', rfl⟩ := List.mem_map.1 ha'
  have heq := hf d hmarked
  have heq' := hf d' hmarked'
  rw [heq] at hmarked hp ⊢
  rw [heq'] at hmarked' hp' ⊢
  exact h p d hd d' hd' hmarked hp hmarked' hp'

variable [DecidableEq σ]

variable (M) in
/-- The two documents share a scope. -/
def overlaps (a b : α) : Bool := (M.scopes a).any (· ∈ M.scopes b)

variable {a b : α}

theorem overlaps_iff : M.overlaps a b ↔ ∃ p ∈ M.scopes a, p ∈ M.scopes b := by
  simp [overlaps]

variable [DecidableEq κ]

variable (M id) in
/-- `a` is another marked document that shares a scope with `b`. -/
def Rival (b a : α) : Prop := id a ≠ id b ∧ M.marked a ∧ M.overlaps a b

instance : Decidable (M.Rival id b a) := inferInstanceAs (Decidable (_ ∧ _ ∧ _))

variable (M id) in
/-- Unmark the rivals of `b`. -/
def clear (unmark : α → α) (b a : α) : α := if M.Rival id b a then unmark a else a

variable {unmark : α → α}

/-- Storing a document that has no rivals leaves at most one marked in each scope. -/
theorem Sole.replaceOne [DecidableEq ι] (h : M.Sole s) (hs : s.replaceOne b = some s')
    (hrivals : M.marked b → ∀ a ∈ s, ¬ M.Rival id b a) : M.Sole s' := by
  have hnew : M.marked b → ∀ a ∈ s, id a ≠ id b → M.marked a → ∀ p ∈ M.scopes a, p ∉ M.scopes b :=
    fun hb a ha hne hmarked p hpa hpb =>
      hrivals hb a ha ⟨hne, hmarked, overlaps_iff.2 ⟨p, hpa, hpb⟩⟩
  intro p a ha a' ha' hmarked hp hmarked' hp'
  rcases (Collection.mem_replaceOne hs).1 ha with heq | ⟨ha, hne⟩ <;>
    rcases (Collection.mem_replaceOne hs).1 ha' with heq' | ⟨ha', hne'⟩
  · exact heq.trans heq'.symm
  · subst heq
    exact absurd hp (hnew hmarked a' ha' hne' hmarked' p hp')
  · subst heq'
    exact absurd hp' (hnew hmarked' a ha hne hmarked p hp)
  · exact h p a ha a' ha' hmarked hp hmarked' hp'

/-- Clearing changes something exactly when there is a rival. -/
theorem updateAll_eq_iff {f : α → α} (hid : ∀ d, id (f d) = id d) (hkey : ∀ d, key (f d) = key d)
    (hf : ∀ d, f d = M.clear id unmark b d) (hunmark : ∀ d, ¬ M.marked (unmark d)) :
    s.updateAll f hid hkey = s ↔ ∀ a ∈ s, ¬ M.Rival id b a := by
  constructor
  · intro h a ha hrival
    have hmem : f a ∈ s := h ▸ Collection.mem_updateAll.2 ⟨a, ha, rfl⟩
    have heq := Collection.eq_of_id_eq hmem ha (hid a)
    rw [hf, clear, if_pos hrival] at heq
    exact hunmark a (by rw [heq]; exact hrival.2.1)
  · intro h
    have hdocs : s.docs.map f = s.docs := by
      refine (List.map_congr_left fun a ha => ?_).trans (List.map_id _)
      rw [hf]
      exact if_neg (h a ha)
    cases s
    simp only [Collection.updateAll, Collection.mk.injEq]
    exact hdocs

end Marking

end Conc
