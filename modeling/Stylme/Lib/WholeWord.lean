-- SUMMARY: Occurrences of one text in another with no word character next to them.
import Mathlib.Data.List.Induction
import Mathlib.Data.List.Infix

/-!
# Whole words

A text occurs as whole words where neither the character before the occurrence nor the one
after it belongs to a word.
-/

namespace Conc

variable {α : Type} [DecidableEq α]

/-- `text`, which `before` precedes, begins with `term` and no word goes on there. -/
def beginsWord (isWord : α → Bool) (term : List α) (before : Option α) (text : List α) : Bool :=
  term.isPrefixOf text ∧ ¬ before.any isWord ∧ ¬ (text.drop term.length).head?.any isWord

/-- `term` occurs as whole words in `text`, which `before` precedes. -/
def occursWord (isWord : α → Bool) (term : List α) : Option α → List α → Bool
  | before, [] => beginsWord isWord term before []
  | before, c :: text =>
    beginsWord isWord term before (c :: text) || occursWord isWord term (some c) text

variable {isWord : α → Bool} {term text : List α} {before : Option α}

theorem beginsWord_iff : beginsWord isWord term before text = true ↔
    ∃ after, text = term ++ after ∧ ¬ before.any isWord ∧ ¬ after.head?.any isWord := by
  simp only [beginsWord, decide_eq_true_eq, List.isPrefixOf_iff_prefix, Bool.decide_and,
    Bool.and_eq_true]
  constructor
  · rintro ⟨⟨after, rfl⟩, hbefore, hafter⟩
    rw [List.drop_left] at hafter
    exact ⟨after, rfl, hbefore, hafter⟩
  · rintro ⟨after, rfl, hbefore, hafter⟩
    exact ⟨⟨after, rfl⟩, hbefore, by rwa [List.drop_left]⟩

/-- The last character of `start`, or the one before it. -/
def lastOr (before : Option α) (start : List α) : Option α := start.foldl (fun _ c => some c) before

omit [DecidableEq α] in
theorem lastOr_none (start : List α) : lastOr none start = start.getLast? := by
  induction start using List.reverseRecOn with
  | nil => rfl
  | append_singleton start c _ => rw [lastOr, List.foldl_append, List.getLast?_concat]; rfl

theorem occursWord_iff : occursWord isWord term before text = true ↔
    ∃ start after, text = start ++ term ++ after ∧ ¬ (lastOr before start).any isWord ∧
      ¬ after.head?.any isWord := by
  induction text generalizing before with
  | nil =>
    rw [occursWord, beginsWord_iff]
    constructor
    · rintro ⟨after, htext, h⟩
      exact ⟨[], after, htext, h⟩
    · rintro ⟨start, after, htext, h⟩
      obtain ⟨hstart, rfl⟩ := List.append_eq_nil_iff.1 htext.symm
      obtain ⟨rfl, rfl⟩ := List.append_eq_nil_iff.1 hstart
      exact ⟨[], rfl, h⟩
  | cons c text ih =>
    rw [occursWord, Bool.or_eq_true, beginsWord_iff, ih]
    constructor
    · rintro (⟨after, htext, h⟩ | ⟨start, after, rfl, h⟩)
      · exact ⟨[], after, htext, h⟩
      · exact ⟨c :: start, after, rfl, h⟩
    · rintro ⟨start, after, htext, h⟩
      cases start with
      | nil => exact .inl ⟨after, htext, h⟩
      | cons c' start =>
        obtain ⟨rfl, rfl⟩ := List.cons.inj htext
        exact .inr ⟨start, after, rfl, h⟩

/-- An occurrence in a whole text. -/
theorem occursWord_none_iff : occursWord isWord term none text = true ↔
    ∃ start after, text = start ++ term ++ after ∧ ¬ start.getLast?.any isWord ∧
      ¬ after.head?.any isWord := by
  simp only [occursWord_iff, lastOr_none]

/-! ## All occurrences -/

/-- What `text` begins with where no word goes on. -/
def wordPrefixes (isWord : α → Bool) (text : List α) : List (List α) :=
  text.inits.filter fun start => ¬ (text.drop start.length).head?.any isWord

/-- Everything that occurs as whole words in `text`, which `before` precedes. -/
def wholeWords (isWord : α → Bool) : Option α → List α → List (List α)
  | before, [] => if before.any isWord then [] else wordPrefixes isWord []
  | before, c :: text =>
    (if before.any isWord then [] else wordPrefixes isWord (c :: text)) ++ wholeWords isWord (some c) text

theorem beginsWord_iff_mem :
    beginsWord isWord term before text = true ↔ ¬ before.any isWord ∧ term ∈ wordPrefixes isWord text := by
  rw [beginsWord_iff, wordPrefixes, List.mem_filter, List.mem_inits, decide_eq_true_eq]
  constructor
  · rintro ⟨after, rfl, hbefore, hafter⟩
    exact ⟨hbefore, List.prefix_append _ _, by rwa [List.drop_left]⟩
  · rintro ⟨hbefore, ⟨after, rfl⟩, hafter⟩
    exact ⟨after, rfl, hbefore, by rwa [List.drop_left] at hafter⟩

theorem occursWord_iff_mem : occursWord isWord term before text = true ↔ term ∈ wholeWords isWord before text := by
  have hbegins : ∀ {before : Option α} {text : List α}, beginsWord isWord term before text = true ↔
      term ∈ if before.any isWord then [] else wordPrefixes isWord text := by
    intro before text
    rw [beginsWord_iff_mem]
    split_ifs with hword
    · exact iff_of_false (fun h => h.1 hword) List.not_mem_nil
    · exact and_iff_right hword
  induction text generalizing before with
  | nil => rw [occursWord, wholeWords, hbegins]
  | cons c text ih =>
    rw [occursWord, wholeWords, Bool.or_eq_true, List.mem_append]
    exact or_congr hbegins ih

end Conc
