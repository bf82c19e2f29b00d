-- SUMMARY: Lists without the elements of one kind at their ends: when nothing is cut, and when two kinds cut alike.
import Mathlib.Data.List.DropRight

/-!
# Trimming

Trimming cuts the elements that satisfy a predicate off both ends of a list. A
list that neither begins nor ends with such an element is tight, and trimming
leaves it alone.
-/

namespace Conc

variable {α : Type*} {p q : α → Bool} {l : List α} {a : α}

/-- Cut the elements that satisfy `p` off both ends. -/
def trim (p : α → Bool) (l : List α) : List α := (l.dropWhile p).rdropWhile p

/-- The list neither begins nor ends with an element that satisfies `p`. -/
structure Tight (p : α → Bool) (l : List α) : Prop where
  head : ∀ a ∈ l.head?, ¬ p a
  last : ∀ a ∈ l.getLast?, ¬ p a

theorem tight_trim (p : α → Bool) (l : List α) : Tight p (trim p l) := by
  constructor
  case head =>
    intro a ha
    obtain ⟨tail, htail⟩ : trim p l <+: l.dropWhile p := List.rdropWhile_prefix _ _
    have hhead : (l.dropWhile p).head? = some a := by
      rw [← htail, List.head?_append, Option.mem_def.1 ha]
      rfl
    have hnot := List.head?_dropWhile_not p l
    rw [hhead] at hnot
    simpa using hnot
  case last =>
    intro a ha
    have hne : trim p l ≠ [] := by
      intro hnil
      rw [hnil] at ha
      cases ha
    have hlast : (trim p l).getLast hne = a := by
      rw [List.getLast?_eq_some_getLast hne] at ha
      exact Option.some.inj ha
    exact hlast ▸ List.rdropWhile_last_not p _ hne

theorem trim_of_tight (h : Tight p l) : trim p l = l := by
  cases l with
  | nil => rfl
  | cons a rest =>
    have hdrop : (a :: rest).dropWhile p = a :: rest := by
      rw [List.dropWhile_cons, if_neg (h.head a rfl)]
    rw [trim, hdrop, List.rdropWhile_eq_self_iff]
    exact fun hne => h.last _ (List.getLast?_eq_some_getLast hne)

theorem tight_of_forall (h : ∀ a ∈ l, ¬ p a) : Tight p l :=
  ⟨fun a ha => h a (List.mem_of_mem_head? ha), fun a ha => h a (List.mem_of_getLast? ha)⟩

theorem mem_of_mem_trim (h : a ∈ trim p l) : a ∈ l :=
  (List.dropWhile_suffix p).subset ((List.rdropWhile_prefix p _).subset h)

/-- What is cut off the front can be cut off before. -/
theorem dropWhile_dropWhile (hle : ∀ a, p a → q a) (l : List α) :
    (l.dropWhile p).dropWhile q = l.dropWhile q := by
  conv_rhs => rw [← List.takeWhile_append_dropWhile (p := p) (l := l)]
  rw [List.dropWhile_append_of_pos fun a ha => hle a (List.mem_takeWhile_imp ha)]

theorem rdropWhile_rdropWhile (hle : ∀ a, p a → q a) (l : List α) :
    (l.rdropWhile p).rdropWhile q = l.rdropWhile q := by
  simp only [List.rdropWhile, List.reverse_reverse, dropWhile_dropWhile hle]

/-- A list that is tight for a larger kind after it was trimmed of a smaller one was trimmed of both. -/
theorem trim_eq_of_tight (hle : ∀ a, p a → q a) (h : Tight q (trim p l)) : trim q l = trim p l := by
  by_cases hnil : trim p l = []
  · -- everything is of the smaller kind
    have hall : ∀ a ∈ l, p a := by
      have hdrop : ∀ a ∈ l.dropWhile p, p a := List.rdropWhile_eq_nil_iff.1 hnil
      intro a ha
      rw [← List.takeWhile_append_dropWhile (p := p) (l := l)] at ha
      rcases List.mem_append.1 ha with ha | ha
      · exact List.mem_takeWhile_imp ha
      · exact hdrop a ha
    rw [hnil, trim, List.dropWhile_eq_nil_iff.2 fun a ha => hle a (hall a ha)]
    rfl
  · have hhead : (l.dropWhile p).dropWhile q = l.dropWhile p := by
      obtain ⟨tail, htail⟩ : trim p l <+: l.dropWhile p := List.rdropWhile_prefix _ _
      cases htrim : trim p l with
      | nil => exact absurd htrim hnil
      | cons a rest =>
        have ha : ¬ q a := h.head a (by rw [htrim]; rfl)
        rw [← htail, htrim, List.cons_append, List.dropWhile_cons, if_neg ha]
    rw [trim, ← dropWhile_dropWhile hle, hhead, ← rdropWhile_rdropWhile hle]
    exact List.rdropWhile_eq_self_iff.2 fun hne => h.last _ (List.getLast?_eq_some_getLast hne)

end Conc
