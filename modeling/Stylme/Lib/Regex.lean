-- SUMMARY: Regular expressions with groups, read by backtracking, and the texts they match.
import Stylme.Lib.WholeWord
import Mathlib.Data.List.Basic

/-!
# Regular expressions

An expression is read from the left; of several ways to go on, the first that leads to a match
is taken. A repetition takes as much as it can.
-/

namespace Conc

inductive Regex (α : Type) where
  | empty
  | one (p : α → Bool)
  /-- As many elements of the class as possible -/
  | many (p : α → Bool)
  | seq (r s : Regex α)
  | alt (r s : Regex α)
  | group (r : Regex α)
  | notAfter (p : α → Bool)
  | notBefore (p : α → Bool)
  /-- Between an element of the class and one that is not, or the end of the text -/
  | boundary (p : α → Bool)
  /-- The end of the text -/
  | stop

namespace Regex

variable {α : Type}

/-! ## Abbreviations -/

def opt (r : Regex α) : Regex α := alt r empty

def some1 (p : α → Bool) : Regex α := seq (one p) (many p)

/-- One after another. -/
def all : List (Regex α) → Regex α
  | [] => empty
  | [r] => r
  | r :: s :: rest => seq r (all (s :: rest))

/-- One of them, the earlier ones preferred. -/
def any : List (Regex α) → Regex α
  | [] => one fun _ => false
  | [r] => r
  | r :: s :: rest => alt r (any (s :: rest))

/-- The elements of a text, each compared by `same`. -/
def litBy (same : α → α → Bool) : List α → Regex α
  | [] => empty
  | a :: l => seq (one (same a)) (litBy same l)

/-! ## Reading -/

/-- A way to match the beginning of a text. -/
structure Way (α : Type) where
  taken : List α
  rest : List α
  groups : List (List α)

def Way.none (text : List α) : Way α := ⟨[], text, []⟩

def Way.then (v w : Way α) : Way α := ⟨v.taken ++ w.taken, w.rest, v.groups ++ w.groups⟩

/-- The ways to read a repetition, the longest first. -/
def manyWays (p : α → Bool) : List α → List (Way α)
  | [] => [.none []]
  | c :: text =>
    if p c then (manyWays p text).map (Way.then ⟨[c], text, []⟩) ++ [.none (c :: text)]
    else [.none (c :: text)]

/-- The ways to match the beginning of a text that `before` precedes, the preferred first. -/
def ways : Regex α → Option α → List α → List (Way α)
  | empty, _, text => [.none text]
  | one _, _, [] => []
  | one p, _, c :: text => if p c then [⟨[c], text, []⟩] else []
  | many p, _, text => manyWays p text
  | seq r s, before, text =>
    (r.ways before text).flatMap fun v => (s.ways (lastOr before v.taken) v.rest).map v.then
  | alt r s, before, text => r.ways before text ++ s.ways before text
  | group r, before, text => (r.ways before text).map fun w => { w with groups := w.taken :: w.groups }
  | notAfter p, before, text => if before.any p then [] else [.none text]
  | notBefore p, _, text => if text.head?.any p then [] else [.none text]
  | boundary p, before, text => if before.any p = text.head?.any p then [] else [.none text]
  | stop, _, text => if text.isEmpty then [.none text] else []

/-- The leftmost match, after what stands before it. -/
def search (r : Regex α) : Option α → List α → Option (List α × Way α)
  | before, [] => (r.ways before []).head?.map ([], ·)
  | before, c :: text =>
    match (r.ways before (c :: text)).head? with
    | some w => some ([], w)
    | none => (r.search (some c) text).map fun x => (c :: x.1, x.2)

/-! ## Matching -/

/-- The expression matches the text between `before` and `rest`. -/
def Matches : Regex α → Option α → List α → List α → Prop
  | empty, _, text, _ => text = []
  | one p, _, text, _ => ∃ c, text = [c] ∧ p c
  | many p, _, text, _ => ∀ c ∈ text, p c
  | seq r s, before, text, rest => ∃ l₁ l₂, text = l₁ ++ l₂ ∧ r.Matches before l₁ (l₂ ++ rest) ∧
    s.Matches (lastOr before l₁) l₂ rest
  | alt r s, before, text, rest => r.Matches before text rest ∨ s.Matches before text rest
  | group r, before, text, rest => r.Matches before text rest
  | notAfter p, before, text, _ => text = [] ∧ ¬ before.any p
  | notBefore p, _, text, rest => text = [] ∧ ¬ rest.head?.any p
  | boundary p, before, text, rest => text = [] ∧ ¬ before.any p = rest.head?.any p
  | stop, _, text, rest => text = [] ∧ rest = []

variable {r s : Regex α} {before : Option α} {text taken rest : List α} {w : Way α} {p : α → Bool}

theorem mem_manyWays : (∃ w ∈ manyWays p text, w.taken = taken ∧ w.rest = rest) ↔
    text = taken ++ rest ∧ ∀ c ∈ taken, p c := by
  induction text generalizing taken with
  | nil =>
    constructor
    · rintro ⟨w, hw, rfl, rfl⟩
      obtain rfl := List.mem_singleton.1 hw
      exact ⟨rfl, fun c hc => absurd hc List.not_mem_nil⟩
    · rintro ⟨htext, -⟩
      obtain ⟨rfl, rfl⟩ := List.append_eq_nil_iff.1 htext.symm
      exact ⟨_, List.mem_singleton.2 rfl, rfl, rfl⟩
  | cons c text ih =>
    have hnone : (∃ w ∈ [Way.none (c :: text)], w.taken = taken ∧ w.rest = rest) ↔
        taken = [] ∧ rest = c :: text := by
      constructor
      · rintro ⟨w, hw, rfl, rfl⟩
        obtain rfl := List.mem_singleton.1 hw
        exact ⟨rfl, rfl⟩
      · rintro ⟨rfl, rfl⟩
        exact ⟨_, List.mem_singleton.2 rfl, rfl, rfl⟩
    rw [manyWays]
    split
    · rename_i hc
      constructor
      · rintro ⟨w, hw, hparts⟩
        rcases List.mem_append.1 hw with hw | hw
        · obtain ⟨v, hv, rfl⟩ := List.mem_map.1 hw
          obtain ⟨rfl, rfl⟩ := hparts
          obtain ⟨htext, hall⟩ := ih.1 ⟨v, hv, rfl, rfl⟩
          exact ⟨congrArg (c :: ·) htext, List.forall_mem_cons.2 ⟨hc, hall⟩⟩
        · obtain ⟨rfl, rfl⟩ := hnone.1 ⟨w, hw, hparts⟩
          exact ⟨rfl, fun c hc => absurd hc List.not_mem_nil⟩
      · rintro ⟨htext, hall⟩
        cases taken with
        | nil =>
          obtain ⟨w, hw, hparts⟩ := hnone.2 ⟨rfl, htext.symm⟩
          exact ⟨w, List.mem_append_right _ hw, hparts⟩
        | cons c' taken =>
          obtain ⟨rfl, rfl⟩ := List.cons.inj htext
          obtain ⟨v, hv, rfl, rfl⟩ := ih.2 ⟨rfl, (List.forall_mem_cons.1 hall).2⟩
          exact ⟨_, List.mem_append_left _ (List.mem_map.2 ⟨v, hv, rfl⟩), rfl, rfl⟩
    · rename_i hc
      rw [hnone]
      constructor
      · rintro ⟨rfl, rfl⟩
        exact ⟨rfl, fun c hc => absurd hc List.not_mem_nil⟩
      · rintro ⟨htext, hall⟩
        cases taken with
        | nil => exact ⟨rfl, htext.symm⟩
        | cons c' taken =>
          obtain ⟨rfl, -⟩ := List.cons.inj htext
          exact absurd (hall _ List.mem_cons_self) hc

/-- The ways to read an expression are its matches at the beginning of the text. -/
theorem mem_ways : (∃ w ∈ r.ways before text, w.taken = taken ∧ w.rest = rest) ↔
    text = taken ++ rest ∧ r.Matches before taken rest := by
  have hnone : ∀ {text taken rest : List α}, (∃ w ∈ [Way.none text], w.taken = taken ∧ w.rest = rest) ↔
      text = taken ++ rest ∧ taken = [] := by
    intro text taken rest
    constructor
    · rintro ⟨w, hw, rfl, rfl⟩
      obtain rfl := List.mem_singleton.1 hw
      exact ⟨rfl, rfl⟩
    · rintro ⟨rfl, rfl⟩
      exact ⟨_, List.mem_singleton.2 rfl, rfl, rfl⟩
  have hguard : ∀ {text taken rest : List α} {b : Prop} [Decidable b],
      (∃ w ∈ if b then [] else [Way.none text], w.taken = taken ∧ w.rest = rest) ↔
        text = taken ++ rest ∧ taken = [] ∧ ¬ b := by
    intro text taken rest b _
    by_cases hb : b
    · simp [hb]
    · rw [if_neg hb, hnone]
      simp [hb]
  induction r generalizing before text taken rest with
  | empty => exact hnone
  | one p =>
    cases text with
    | nil =>
      refine iff_of_false (fun ⟨w, hw, _⟩ => absurd hw List.not_mem_nil) ?_
      rintro ⟨htext, c, rfl, -⟩
      cases htext
    | cons c text =>
      rw [ways, Matches]
      constructor
      · rintro ⟨w, hw, rfl, rfl⟩
        split at hw
        · rename_i hc
          obtain rfl := List.mem_singleton.1 hw
          exact ⟨rfl, c, rfl, hc⟩
        · exact absurd hw List.not_mem_nil
      · rintro ⟨htext, c', rfl, hc⟩
        obtain ⟨rfl, rfl⟩ := List.cons.inj htext
        rw [if_pos hc]
        exact ⟨_, List.mem_singleton.2 rfl, rfl, rfl⟩
  | many p => exact mem_manyWays
  | seq r s ihr ihs =>
    rw [ways, Matches]
    constructor
    · rintro ⟨w, hw, rfl, rfl⟩
      obtain ⟨v, hv, hw⟩ := List.mem_flatMap.1 hw
      obtain ⟨u, hu, rfl⟩ := List.mem_map.1 hw
      obtain ⟨htext, hr⟩ := ihr.1 ⟨v, hv, rfl, rfl⟩
      obtain ⟨hrest, hs⟩ := ihs.1 ⟨u, hu, rfl, rfl⟩
      refine ⟨?_, v.taken, u.taken, rfl, hrest ▸ hr, hs⟩
      rw [htext, hrest, Way.then, List.append_assoc]
    · rintro ⟨rfl, l₁, l₂, rfl, hr, hs⟩
      obtain ⟨v, hv, rfl, hvrest⟩ := ihr.2 ⟨List.append_assoc .., hr⟩
      obtain ⟨u, hu, rfl, rfl⟩ := ihs.2 ⟨hvrest, hs⟩
      exact ⟨_, List.mem_flatMap.2 ⟨v, hv, List.mem_map.2 ⟨u, hu, rfl⟩⟩, rfl, rfl⟩
  | alt r s ihr ihs =>
    rw [ways, Matches, and_or_left]
    refine Iff.trans ?_ (or_congr ihr ihs)
    rw [← exists_or]
    refine exists_congr fun w => ?_
    rw [List.mem_append, or_and_right]
  | group r ih =>
    rw [ways, Matches]
    refine Iff.trans ?_ ih
    constructor
    · rintro ⟨w, hw, rfl, rfl⟩
      obtain ⟨v, hv, rfl⟩ := List.mem_map.1 hw
      exact ⟨v, hv, rfl, rfl⟩
    · rintro ⟨v, hv, rfl, rfl⟩
      exact ⟨_, List.mem_map.2 ⟨v, hv, rfl⟩, rfl, rfl⟩
  | notAfter p => exact hguard
  | notBefore p | boundary p =>
    rw [ways, Matches, hguard]
    refine and_congr_right fun htext => and_congr_right fun htaken => ?_
    rw [htext, htaken, List.nil_append]
  | stop =>
    rw [ways, Matches]
    constructor
    · rintro ⟨w, hw, rfl, rfl⟩
      split at hw
      · rename_i hempty
        obtain rfl := List.mem_singleton.1 hw
        exact ⟨rfl, rfl, List.isEmpty_iff.1 hempty⟩
      · exact absurd hw List.not_mem_nil
    · rintro ⟨rfl, rfl, rfl⟩
      exact ⟨_, List.mem_singleton.2 rfl, rfl, rfl⟩

/-! ## What the abbreviations match -/

theorem matches_opt : (opt r).Matches before text rest ↔ r.Matches before text rest ∨ text = [] := Iff.rfl

theorem matches_some1 : (some1 p).Matches before text rest ↔ text ≠ [] ∧ ∀ c ∈ text, p c := by
  constructor
  · rintro ⟨l₁, l₂, rfl, ⟨c, rfl, hc⟩, hmany⟩
    exact ⟨List.cons_ne_nil _ _, List.forall_mem_cons.2 ⟨hc, hmany⟩⟩
  · rintro ⟨hne, hall⟩
    obtain ⟨c, l, rfl⟩ := List.exists_cons_of_ne_nil hne
    obtain ⟨hc, hmany⟩ := List.forall_mem_cons.1 hall
    exact ⟨[c], l, rfl, ⟨c, rfl, hc⟩, hmany⟩

theorem matches_any {rs : List (Regex α)} :
    (any rs).Matches before text rest ↔ ∃ r ∈ rs, r.Matches before text rest := by
  induction rs with
  | nil => exact iff_of_false (fun ⟨_, _, h⟩ => nomatch h) fun ⟨_, h, _⟩ => absurd h List.not_mem_nil
  | cons r rs ih =>
    cases rs with
    | nil => simp only [any, List.mem_singleton, exists_eq_left]
    | cons s rs =>
      rw [List.exists_mem_cons_iff, ← ih]
      exact Iff.rfl

theorem matches_litBy [DecidableEq α] {l : List α} :
    (litBy (fun a b => a = b) l).Matches before text rest ↔ text = l := by
  induction l generalizing before text with
  | nil => exact Iff.rfl
  | cons a l ih =>
    constructor
    · rintro ⟨l₁, l₂, rfl, ⟨c, rfl, hc⟩, hrest⟩
      rw [ih.1 hrest, of_decide_eq_true hc]
      rfl
    · rintro rfl
      exact ⟨[a], l, rfl, ⟨a, rfl, decide_eq_true rfl⟩, ih.2 rfl⟩

/-! ## Searching -/

theorem head?_ways_isSome : (r.ways before text).head?.isSome ↔
    ∃ taken rest, text = taken ++ rest ∧ r.Matches before taken rest := by
  simp only [← mem_ways]
  cases hways : r.ways before text with
  | nil => simp
  | cons w ws => exact iff_of_true rfl ⟨_, _, w, List.mem_cons_self, rfl, rfl⟩

/-- A search finds something exactly when the expression matches somewhere. -/
theorem search_isSome : (r.search before text).isSome ↔ ∃ start taken rest,
    text = start ++ taken ++ rest ∧ r.Matches (lastOr before start) taken rest := by
  induction text generalizing before with
  | nil =>
    rw [search, Option.isSome_map, head?_ways_isSome]
    constructor
    · rintro ⟨taken, rest, htext, hmatch⟩
      exact ⟨[], taken, rest, htext, hmatch⟩
    · rintro ⟨start, taken, rest, htext, hmatch⟩
      obtain ⟨hstart, rfl⟩ := List.append_eq_nil_iff.1 htext.symm
      obtain ⟨rfl, rfl⟩ := List.append_eq_nil_iff.1 hstart
      exact ⟨[], [], rfl, hmatch⟩
  | cons c text ih =>
    rw [search]
    cases hhead : (r.ways before (c :: text)).head? with
    | some w =>
      obtain ⟨taken, rest, htext, hmatch⟩ := head?_ways_isSome.1 (Option.isSome_of_eq_some hhead)
      exact iff_of_true rfl ⟨[], taken, rest, htext, hmatch⟩
    | none =>
      rw [Option.isSome_map, ih]
      constructor
      · rintro ⟨start, taken, rest, rfl, hmatch⟩
        exact ⟨c :: start, taken, rest, rfl, hmatch⟩
      · rintro ⟨start, taken, rest, htext, hmatch⟩
        cases start with
        | nil =>
          have hsome : (r.ways before (c :: text)).head?.isSome :=
            head?_ways_isSome.2 ⟨taken, rest, htext, hmatch⟩
          rw [hhead] at hsome
          cases hsome
        | cons c' start =>
          obtain ⟨rfl, rfl⟩ := List.cons.inj htext
          exact ⟨start, taken, rest, rfl, hmatch⟩

end Regex

end Conc
