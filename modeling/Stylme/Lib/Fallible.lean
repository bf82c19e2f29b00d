-- SUMMARY: When sequenced computations that may fail succeed: binding, mapping, and traversing a list.
import Mathlib.Data.List.Forall2

/-!
# Computations that may fail

Equations for the results of computations in `Except`: a sequence of steps succeeds
exactly if each step does, and its value is built from theirs.
-/

namespace Conc

variable {ε α β : Type}

theorem bind_eq_ok {x : Except ε α} {f : α → Except ε β} {b : β} :
    x >>= f = .ok b ↔ ∃ a, x = .ok a ∧ f a = .ok b := by
  cases x with
  | error e => exact iff_of_false nofun fun ⟨_, h, _⟩ => nomatch h
  | ok a => exact ⟨fun h => ⟨a, rfl, h⟩, fun ⟨_, ha, h⟩ => Except.ok.inj ha ▸ h⟩

theorem map_eq_ok {f : α → β} {x : Except ε α} {b : β} :
    x.map f = .ok b ↔ ∃ a, x = .ok a ∧ f a = b := by
  cases x <;> simp [Except.map]

/-- Traversing a list succeeds if every step does, with their values. -/
theorem mapM_eq_ok_iff {f : α → Except ε β} {l : List α} {rs : List β} :
    l.mapM f = .ok rs ↔ List.Forall₂ (fun a r => f a = .ok r) l rs := by
  induction l generalizing rs with
  | nil =>
    rw [List.mapM_nil, List.forall₂_nil_left_iff]
    exact ⟨fun h => (Except.ok.inj h).symm, fun h => h ▸ rfl⟩
  | cons a l ih =>
    rw [List.mapM_cons, bind_eq_ok, List.forall₂_cons_left_iff]
    constructor
    · rintro ⟨r, hr, h⟩
      obtain ⟨rs', hrs, h⟩ := bind_eq_ok.1 h
      exact ⟨r, rs', hr, ih.1 hrs, (Except.ok.inj h).symm⟩
    · rintro ⟨r, rs', hr, hrs, rfl⟩
      exact ⟨r, hr, bind_eq_ok.2 ⟨rs', ih.2 hrs, rfl⟩⟩

theorem exists_mapM_eq_ok_iff {f : α → Except ε β} {l : List α} :
    (∃ rs, l.mapM f = .ok rs) ↔ ∀ a ∈ l, ∃ r, f a = .ok r := by
  simp only [mapM_eq_ok_iff]
  induction l with
  | nil => simp
  | cons a l ih =>
    simp only [List.forall₂_cons_left_iff, List.forall_mem_cons, ← ih]
    constructor
    · rintro ⟨_, r, rs, hr, hrs, -⟩
      exact ⟨⟨r, hr⟩, rs, hrs⟩
    · rintro ⟨⟨r, hr⟩, rs, hrs⟩
      exact ⟨_, r, rs, hr, hrs, rfl⟩

theorem exists_of_mem_mapM {f : α → Except ε β} {l : List α} {rs : List β} (h : l.mapM f = .ok rs)
    {r : β} (hr : r ∈ rs) : ∃ a ∈ l, f a = .ok r := by
  have hall := mapM_eq_ok_iff.1 h
  clear h
  induction hall with
  | nil => exact absurd hr List.not_mem_nil
  | cons ha _ ih =>
    rcases List.mem_cons.1 hr with rfl | hr
    · exact ⟨_, List.mem_cons_self, ha⟩
    · obtain ⟨a, hmem, ha⟩ := ih hr
      exact ⟨a, List.mem_cons_of_mem _ hmem, ha⟩

theorem mem_mapM_of_mem {f : α → Except ε β} {l : List α} {rs : List β} (h : l.mapM f = .ok rs)
    {a : α} (ha : a ∈ l) : ∃ r ∈ rs, f a = .ok r := by
  have hall := mapM_eq_ok_iff.1 h
  clear h
  induction hall with
  | nil => exact absurd ha List.not_mem_nil
  | cons hr _ ih =>
    rcases List.mem_cons.1 ha with rfl | ha
    · exact ⟨_, List.mem_cons_self, hr⟩
    · obtain ⟨r, hmem, hr⟩ := ih ha
      exact ⟨r, List.mem_cons_of_mem _ hmem, hr⟩

/-- Checking every element of a list succeeds if every check does. -/
theorem forM_eq_ok_iff {f : α → Except ε Unit} {l : List α} :
    l.forM f = .ok () ↔ ∀ a ∈ l, f a = .ok () := by
  induction l with
  | nil => simp [List.forM, pure, Except.pure]
  | cons a l ih =>
    change (f a >>= fun _ => l.forM f) = .ok () ↔ _
    rw [bind_eq_ok, List.forall_mem_cons, ← ih]
    exact ⟨fun ⟨_, ha, hl⟩ => ⟨ha, hl⟩, fun ⟨ha, hl⟩ => ⟨(), ha, hl⟩⟩

/-- A fold that succeeds keeps what each of its steps keeps. -/
theorem foldlM_invariant {I : β → Prop} {f : β → α → Except ε β} {l : List α} {b b' : β}
    (hstep : ∀ a ∈ l, ∀ b b', I b → f b a = .ok b' → I b') (hb : I b) (h : l.foldlM f b = .ok b') : I b' := by
  induction l generalizing b with
  | nil => exact Except.ok.inj h ▸ hb
  | cons a l ih =>
    rw [List.foldlM_cons, bind_eq_ok] at h
    obtain ⟨b₁, ha, hl⟩ := h
    exact ih (fun a ha => hstep a (List.mem_cons_of_mem _ ha)) (hstep a List.mem_cons_self _ _ hb ha) hl

/-- A fold succeeds if each of its steps does, whatever has been folded before. -/
theorem exists_foldlM_eq_ok_iff {I : β → Prop} {P : α → Prop} {f : β → α → Except ε β} {l : List α}
    {b : β} (hb : I b) (hkeep : ∀ a ∈ l, ∀ b b', I b → f b a = .ok b' → I b')
    (hstep : ∀ a b, I b → ((∃ b', f b a = .ok b') ↔ P a)) :
    (∃ b', l.foldlM f b = .ok b') ↔ ∀ a ∈ l, P a := by
  induction l generalizing b with
  | nil => simp [pure, Except.pure]
  | cons a l ih =>
    have hrest : ∀ a ∈ l, ∀ b b', I b → f b a = .ok b' → I b' := fun a ha =>
      hkeep a (List.mem_cons_of_mem _ ha)
    rw [List.forall_mem_cons, ← hstep a b hb]
    constructor
    · rintro ⟨b', h⟩
      rw [List.foldlM_cons, bind_eq_ok] at h
      obtain ⟨b₁, ha, hl⟩ := h
      exact ⟨⟨b₁, ha⟩, (ih (hkeep a List.mem_cons_self _ _ hb ha) hrest).1 ⟨b', hl⟩⟩
    · rintro ⟨⟨b₁, ha⟩, hl⟩
      obtain ⟨b', h⟩ := (ih (hkeep a List.mem_cons_self _ _ hb ha) hrest).2 hl
      exact ⟨b', by rw [List.foldlM_cons, bind_eq_ok]; exact ⟨b₁, ha, h⟩⟩

/-- A fold succeeds if its steps always do. -/
theorem exists_foldlM_ok {f : β → α → Except ε β} {l : List α} (hstep : ∀ a ∈ l, ∀ b, ∃ b', f b a = .ok b') (b : β) :
    ∃ b', l.foldlM f b = .ok b' := by
  induction l generalizing b with
  | nil => exact ⟨b, rfl⟩
  | cons a l ih =>
    obtain ⟨b₁, ha⟩ := hstep a List.mem_cons_self b
    obtain ⟨b', hl⟩ := ih (fun a ha => hstep a (List.mem_cons_of_mem _ ha)) b₁
    exact ⟨b', by rw [List.foldlM_cons, bind_eq_ok]; exact ⟨b₁, ha, hl⟩⟩

theorem eq_ok_of_toOption {x : Except ε α} {a : α} (h : x.toOption = some a) : x = .ok a := by
  cases x with
  | error e => cases h
  | ok b => exact congrArg Except.ok (Option.some.inj h)

/-- A computed value that passes a test. -/
theorem exists_ok_of_any (x : Except ε α) (test : α → Bool) (h : x.toOption.any test) :
    ∃ a, x = .ok a ∧ test a := by
  cases x with
  | error e => cases h
  | ok a => exact ⟨a, rfl, h⟩

end Conc
