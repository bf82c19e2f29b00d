-- SUMMARY: A breadth-first search over walks with scores, and why it misses no best score of a bounded walk.
import Mathlib.Algebra.BigOperators.Group.List.Basic
import Mathlib.Algebra.Group.Action.Defs
import Mathlib.Algebra.GroupWithZero.Nat
import Mathlib.Algebra.Order.BigOperators.Group.List
import Mathlib.Algebra.Order.Group.Nat
import Mathlib.Data.List.Induction
import Mathlib.Order.Basic

/-!
# Breadth-first relaxation

The queue holds walks. A walk is continued along the edges of its last node, unless a walk with
at least its score was offered for the next node before. In a breadth-first order that walk is not
longer, and so it does as well whatever follows.
-/

namespace Conc

variable {α β γ : Type} [DecidableEq α] [LinearOrder β]

/-- How walks are continued: a last node, a number of edges and a score give the next nodes and
the scores there. -/
structure Growth (α β : Type) where
  extend : α → ℕ → β → List (α × β)
  /-- No walk has more edges. -/
  bound : ℕ
  /-- No walk has more continuations. -/
  width : ℕ
  stops : ∀ {a d s}, bound ≤ d → extend a d s = []
  length_le : ∀ a d s, (extend a d s).length ≤ width

/-- A walk in the queue. -/
structure Growth.Item (α β : Type) where
  node : α
  depth : ℕ
  score : β
  path : List α

namespace Growth

/-- The queue, and the best score offered for each node. -/
structure Frontier (α β : Type) where
  queue : List (Item α β)
  best : α → β

variable (growth : Growth α β)

/-- The continuations of a walk. -/
def next (i : Item α β) : List (α × β) := growth.extend i.node i.depth i.score

omit [DecidableEq α] [LinearOrder β] in
theorem next_of_le {i : Item α β} (h : growth.bound ≤ i.depth) : growth.next i = [] := growth.stops h

def Item.hop (i : Item α β) (x : α × β) : Item α β := ⟨x.1, i.depth + 1, x.2, i.path ++ [x.1]⟩

/-- Queue a continuation that beats what was offered for its node. -/
def offer (i : Item α β) (f : Frontier α β) (x : α × β) : Frontier α β :=
  if x.2 ≤ f.best x.1 then f else ⟨f.queue ++ [i.hop x], Function.update f.best x.1 x.2⟩

def expand (i : Item α β) (f : Frontier α β) : Frontier α β := (growth.next i).foldl (offer i) f

/-! ## Termination -/

/-- More than the walks that can come of a walk. -/
def weight (i : Item α β) : ℕ := (growth.width + 1) ^ (growth.bound - i.depth)

def size (queue : List (Item α β)) : ℕ := (queue.map growth.weight).sum

/-- What offers do to the queue and to the best scores. -/
structure Offered (i : Item α β) (xs : List (α × β)) (f f' : Frontier α β) (new : List (Item α β)) :
    Prop where
  queue : f'.queue = f.queue ++ new
  hops : ∀ j ∈ new, ∃ x ∈ xs, j = i.hop x
  length_le : new.length ≤ xs.length
  best : ∀ a, f'.best a = f.best a ∨ ∃ j ∈ new, j.node = a ∧ j.score = f'.best a
  covered : ∀ x ∈ xs, x.2 ≤ f.best x.1 ∨ ∃ j ∈ new, j.node = x.1 ∧ x.2 ≤ j.score

theorem offered (i : Item α β) (xs : List (α × β)) (f : Frontier α β) :
    ∃ new, Offered i xs f (xs.foldl (offer i) f) new := by
  induction xs using List.reverseRecOn with
  | nil => exact ⟨[], (List.append_nil _).symm, nofun, Nat.le_refl 0, fun _ => .inl rfl, nofun⟩
  | append_singleton xs x ih =>
    obtain ⟨new, h⟩ := ih
    rw [List.foldl_append, List.foldl_cons, List.foldl_nil]
    have hhops : ∀ j ∈ new, ∃ x' ∈ xs ++ [x], j = i.hop x' := fun j hj => by
      obtain ⟨x', hx', rfl⟩ := h.hops j hj
      exact ⟨x', List.mem_append_left _ hx', rfl⟩
    generalize xs.foldl (offer i) f = f' at h ⊢
    unfold offer
    split
    · rename_i hle
      refine ⟨new, h.queue, hhops, ?_, h.best, fun x' hx' => ?_⟩
      · rw [List.length_append]
        exact Nat.le_add_right_of_le h.length_le
      · rcases List.mem_append.1 hx' with hx' | hx'
        · exact h.covered x' hx'
        · obtain rfl := List.mem_singleton.1 hx'
          rcases h.best x'.1 with heq | ⟨j, hj, hnode, hscore⟩
          · exact .inl (heq ▸ hle)
          · exact .inr ⟨j, hj, hnode, hscore ▸ hle⟩
    · refine ⟨new ++ [i.hop x], ?_, ?_, ?_, fun a => ?_, fun x' hx' => ?_⟩
      · rw [h.queue, List.append_assoc]
      · intro j hj
        rcases List.mem_append.1 hj with hj | hj
        · exact hhops j hj
        · exact ⟨x, List.mem_append_right _ List.mem_cons_self, List.mem_singleton.1 hj⟩
      · rw [List.length_append, List.length_append]
        exact Nat.add_le_add_right h.length_le 1
      · dsimp only
        by_cases ha : a = x.1
        · subst ha
          refine .inr ⟨i.hop x, List.mem_append_right _ List.mem_cons_self, rfl, ?_⟩
          rw [Function.update_self]
          rfl
        · rw [Function.update_of_ne ha]
          refine (h.best a).imp_right ?_
          rintro ⟨j, hj, hj'⟩
          exact ⟨j, List.mem_append_left _ hj, hj'⟩
      · rcases List.mem_append.1 hx' with hx' | hx'
        · refine (h.covered x' hx').imp_right ?_
          rintro ⟨j, hj, hj'⟩
          exact ⟨j, List.mem_append_left _ hj, hj'⟩
        · obtain rfl := List.mem_singleton.1 hx'
          exact .inr ⟨i.hop x', List.mem_append_right _ List.mem_cons_self, rfl, le_rfl⟩

theorem size_expand_lt (i : Item α β) (queue : List (Item α β)) (best : α → β) :
    growth.size (growth.expand i ⟨queue, best⟩).queue < growth.size (i :: queue) := by
  obtain ⟨new, h⟩ := offered i (growth.next i) ⟨queue, best⟩
  unfold expand
  rw [h.queue, size, size, List.map_append, List.sum_append, List.map_cons, List.sum_cons, Nat.add_comm]
  refine Nat.add_lt_add_right ?_ _
  by_cases hbound : growth.bound ≤ i.depth
  · have hnil : new = [] := List.eq_nil_of_length_eq_zero (Nat.eq_zero_of_le_zero (by
      have hlength := h.length_le
      rwa [growth.next_of_le hbound] at hlength))
    rw [hnil]
    exact Nat.pow_pos (Nat.succ_pos _)
  · have hweights : ∀ n ∈ new.map growth.weight,
        n ≤ (growth.width + 1) ^ (growth.bound - i.depth - 1) := by
      intro n hn
      obtain ⟨j, hj, rfl⟩ := List.mem_map.1 hn
      obtain ⟨x, -, rfl⟩ := h.hops j hj
      exact Nat.le_of_eq (congrArg ((growth.width + 1) ^ ·) (Nat.sub_add_eq ..))
    have hsum := List.sum_le_card_nsmul _ _ hweights
    rw [List.length_map, smul_eq_mul] at hsum
    have hlength : new.length ≤ growth.width := h.length_le.trans (growth.length_le ..)
    have hpos : 0 < (growth.width + 1) ^ (growth.bound - i.depth - 1) := Nat.pow_pos (Nat.succ_pos _)
    have hsucc : growth.bound - i.depth = growth.bound - i.depth - 1 + 1 := by omega
    calc (new.map growth.weight).sum
        ≤ new.length * (growth.width + 1) ^ (growth.bound - i.depth - 1) := hsum
      _ ≤ growth.width * (growth.width + 1) ^ (growth.bound - i.depth - 1) :=
        Nat.mul_le_mul_right _ hlength
      _ < (growth.width + 1) * (growth.width + 1) ^ (growth.bound - i.depth - 1) :=
        Nat.mul_lt_mul_of_pos_right (Nat.lt_succ_self _) hpos
      _ = growth.weight i := by
        unfold weight
        conv_rhs => rw [hsucc, Nat.pow_succ]
        exact Nat.mul_comm ..

/-! ## The search -/

/-- The loop: take the first walk off the queue, visit it, and queue its continuations. -/
def search (visit : γ → Item α β → γ) : List (Item α β) → (α → β) → γ → γ
  | [], _, acc => acc
  | i :: queue, best, acc =>
    search visit (growth.expand i ⟨queue, best⟩).queue (growth.expand i ⟨queue, best⟩).best (visit acc i)
termination_by queue => growth.size queue
decreasing_by exact growth.size_expand_lt ..

/-- The walks that are taken off the queue, in order. -/
def visited (queue : List (Item α β)) (best : α → β) : List (Item α β) :=
  growth.search (fun seen i => seen ++ [i]) queue best []

theorem search_cons (visit : γ → Item α β → γ) (i : Item α β) (queue : List (Item α β))
    (best : α → β) (acc : γ) : growth.search visit (i :: queue) best acc =
      growth.search visit (growth.expand i ⟨queue, best⟩).queue (growth.expand i ⟨queue, best⟩).best
        (visit acc i) := by
  rw [search]

theorem search_eq_foldl (visit : γ → Item α β → γ) (queue : List (Item α β)) (best : α → β)
    (acc : γ) (seen : List (Item α β)) :
    growth.search visit queue best (seen.foldl visit acc) =
      (growth.search (fun seen i => seen ++ [i]) queue best seen).foldl visit acc := by
  induction queue, best, seen using search.induct growth (fun seen i => seen ++ [i]) with
  | case1 best seen => rw [search, search]
  | case2 i queue best seen ih =>
    rw [search_cons, search_cons, ← ih, List.foldl_append]
    rfl

/-- The search visits the walks in their order. -/
theorem search_eq (visit : γ → Item α β → γ) (queue : List (Item α β)) (best : α → β) (acc : γ) :
    growth.search visit queue best acc = (growth.visited queue best).foldl visit acc :=
  growth.search_eq_foldl visit queue best acc []

/-- Whatever continuations inherit, and the walks of the queue have, every visited walk has. -/
theorem visited_forall {P : Item α β → Prop} (hhop : ∀ i, P i → ∀ x ∈ growth.next i, P (i.hop x))
    {queue : List (Item α β)} {best : α → β} (h : ∀ i ∈ queue, P i) :
    ∀ i ∈ growth.visited queue best, P i := by
  have hsearch : ∀ (queue : List (Item α β)) (best : α → β) (seen : List (Item α β)),
      (∀ i ∈ queue, P i) → (∀ i ∈ seen, P i) →
        ∀ i ∈ growth.search (fun seen i => seen ++ [i]) queue best seen, P i := by
    intro queue best seen
    induction queue, best, seen using search.induct growth (fun seen i => seen ++ [i]) with
    | case1 best seen =>
      intro _ hseen
      rwa [search]
    | case2 i queue best seen ih =>
      intro hqueue hseen
      rw [search_cons]
      obtain ⟨hi, hrest⟩ := List.forall_mem_cons.1 hqueue
      obtain ⟨new, hnew⟩ := offered i (growth.next i) ⟨queue, best⟩
      refine ih (fun j hj => ?_) fun j hj => ?_
      · rw [expand, hnew.queue] at hj
        rcases List.mem_append.1 hj with hj | hj
        · exact hrest j hj
        · obtain ⟨x, hx, rfl⟩ := hnew.hops j hj
          exact hhop i hi x hx
      · rcases List.mem_append.1 hj with hj | hj
        · exact hseen j hj
        · exact List.mem_singleton.1 hj ▸ hi
  exact hsearch queue best [] h nofun

/-! ## Best scores -/

/-- The walks by their last node, their number of edges and their score. -/
inductive Walk (starts : List α) (one : β) : α → ℕ → β → Prop
  | start {a : α} (h : a ∈ starts) : Walk starts one a 0 one
  | hop {a : α} {d : ℕ} {s : β} {x : α × β} (h : Walk starts one a d s)
      (hx : x ∈ growth.extend a d s) : Walk starts one x.1 (d + 1) x.2

/-- A shorter walk with a better score has better continuations. -/
def Monotone : Prop :=
  ∀ {a d d' s s' b t}, d' ≤ d → s ≤ s' → (b, t) ∈ growth.extend a d s →
    ∃ t', (b, t') ∈ growth.extend a d' s' ∧ t ≤ t'

/-- The loop has seen some walks and left others in the queue. -/
structure Progress (floor : β) (seen queue : List (Item α β)) (best : α → β) : Prop where
  sorted : queue.Pairwise (·.depth ≤ ·.depth)
  near : ∀ j ∈ seen ++ queue, ∀ i ∈ queue, j.depth ≤ i.depth + 1
  held : ∀ a, best a = floor ∨ ∃ j ∈ seen ++ queue, j.node = a ∧ j.score = best a
  covered : ∀ i ∈ seen, ∀ x ∈ growth.next i,
    ∃ j ∈ seen ++ queue, j.node = x.1 ∧ j.depth ≤ i.depth + 1 ∧ x.2 ≤ j.score

variable {growth} {floor : β} {seen queue : List (Item α β)} {best : α → β}

theorem Progress.step {i : Item α β} (habove : ∀ {a d s}, ∀ x ∈ growth.extend a d s, floor < x.2)
    (h : growth.Progress floor seen (i :: queue) best) :
    growth.Progress floor (seen ++ [i]) (growth.expand i ⟨queue, best⟩).queue
      (growth.expand i ⟨queue, best⟩).best := by
  obtain ⟨hfirst, hsorted⟩ := List.pairwise_cons.1 h.sorted
  obtain ⟨new, hnew⟩ := offered i (growth.next i) ⟨queue, best⟩
  have hqueue : (growth.expand i ⟨queue, best⟩).queue = queue ++ new := hnew.queue
  have hdepth : ∀ j ∈ new, j.depth = i.depth + 1 := fun j hj => by
    obtain ⟨x, -, rfl⟩ := hnew.hops j hj
    rfl
  have hold : ∀ {j}, j ∈ seen ++ i :: queue → j ∈ (seen ++ [i]) ++ (queue ++ new) := fun {j} hj => by
    rw [← List.append_assoc, List.append_assoc seen]
    exact List.mem_append_left _ hj
  have hadded : ∀ {j}, j ∈ new → j ∈ (seen ++ [i]) ++ (queue ++ new) := fun hj =>
    List.mem_append_right _ (List.mem_append_right _ hj)
  have hle : ∀ j ∈ (seen ++ [i]) ++ (queue ++ new), j.depth ≤ i.depth + 1 := by
    intro j hj
    rw [← List.append_assoc, List.append_assoc seen, List.mem_append] at hj
    rcases hj with hj | hj
    · exact h.near j hj i List.mem_cons_self
    · exact (hdepth j hj).le
  rw [hqueue]
  refine ⟨?_, ?_, fun a => ?_, ?_⟩
  · refine List.pairwise_append.2 ⟨hsorted, ?_, fun j hj k hk => ?_⟩
    · refine List.pairwise_of_forall_mem_list fun j hj k hk => ?_
      rw [hdepth j hj, hdepth k hk]
    · rw [hdepth k hk]
      exact h.near j (List.mem_append_right _ (List.mem_cons_of_mem _ hj)) i List.mem_cons_self
  · intro j hj k hk
    rcases List.mem_append.1 hk with hk | hk
    · exact (hle j hj).trans (Nat.succ_le_succ (hfirst k hk))
    · rw [hdepth k hk]
      exact (hle j hj).trans (Nat.le_succ _)
  · rcases hnew.best a with hsame | ⟨j, hj, hj'⟩
    · have hbest : (growth.expand i ⟨queue, best⟩).best a = best a := hsame
      rw [hbest]
      refine (h.held a).imp_right ?_
      rintro ⟨j, hj, hj'⟩
      exact ⟨j, hold hj, hj'⟩
    · exact .inr ⟨j, hadded hj, hj'⟩
  · intro k hk x hx
    rcases List.mem_append.1 hk with hk | hk
    · obtain ⟨j, hj, hj'⟩ := h.covered k hk x hx
      exact ⟨j, hold hj, hj'⟩
    · obtain rfl := List.mem_singleton.1 hk
      rcases hnew.covered x hx with hbest | ⟨j, hj, hnode, hscore⟩
      · -- what was offered before is in the queue or seen, and it is not longer
        rcases h.held x.1 with hfloor | ⟨j, hj, hnode, hscore⟩
        · exact absurd (hfloor ▸ hbest) (not_le.2 (habove x hx))
        · exact ⟨j, hold hj, hnode, h.near j hj k List.mem_cons_self, hscore ▸ hbest⟩
      · exact ⟨j, hadded hj, hnode, (hdepth j hj).le, hscore⟩

theorem Progress.search (habove : ∀ {a d s}, ∀ x ∈ growth.extend a d s, floor < x.2)
    (h : growth.Progress floor seen queue best) :
    ∃ all, growth.search (fun seen i => seen ++ [i]) queue best seen = all ∧
      (∀ i ∈ seen ++ queue, i ∈ all) ∧ ∀ i ∈ all, ∀ x ∈ growth.next i,
        ∃ j ∈ all, j.node = x.1 ∧ j.depth ≤ i.depth + 1 ∧ x.2 ≤ j.score := by
  induction queue, best, seen using search.induct growth (fun seen i => seen ++ [i]) with
  | case1 best seen =>
    rw [Growth.search]
    refine ⟨seen, rfl, fun i hi => by rwa [List.append_nil] at hi, fun i hi x hx => ?_⟩
    obtain ⟨j, hj, hj'⟩ := h.covered i hi x hx
    exact ⟨j, by rwa [List.append_nil] at hj, hj'⟩
  | case2 i queue best seen ih =>
    rw [search_cons]
    obtain ⟨all, hall, hmem, hclosed⟩ := ih (h.step habove)
    refine ⟨all, hall, fun j hj => hmem j ?_, hclosed⟩
    obtain ⟨new, hnew⟩ := offered i (growth.next i) ⟨queue, best⟩
    have hqueue : (growth.expand i ⟨queue, best⟩).queue = queue ++ new := hnew.queue
    rw [hqueue, ← List.append_assoc, List.append_assoc seen]
    exact List.mem_append_left _ hj

variable (growth)

/-- The search from the starts, each of them with the score `one`. -/
def startQueue (starts : List α) (one : β) : List (Item α β) :=
  starts.map fun a => ⟨a, 0, one, [a]⟩

def startBest (starts : List α) (one floor : β) : α → β := fun a => if a ∈ starts then one else floor

variable {growth} {starts : List α} {one : β}

/-- Every visited walk is one. -/
theorem walk_of_visited {i : Item α β}
    (h : i ∈ growth.visited (startQueue starts one) (startBest starts one floor)) :
    growth.Walk starts one i.node i.depth i.score := by
  refine growth.visited_forall (P := fun i => growth.Walk starts one i.node i.depth i.score)
    (fun i hi x hx => hi.hop hx) ?_ i h
  intro j hj
  obtain ⟨a, ha, rfl⟩ := List.mem_map.1 hj
  exact .start ha

/-- For every walk a visited one ends at its last node that is not longer and has no lower score. -/
theorem exists_visited (hmono : growth.Monotone)
    (habove : ∀ {a d s}, ∀ x ∈ growth.extend a d s, floor < x.2) {a : α} {d : ℕ} {s : β}
    (h : growth.Walk starts one a d s) :
    ∃ i ∈ growth.visited (startQueue starts one) (startBest starts one floor),
      i.node = a ∧ i.depth ≤ d ∧ s ≤ i.score := by
  have hstart : growth.Progress floor [] (startQueue starts one) (startBest starts one floor) := by
    have hdepth : ∀ j ∈ startQueue starts one, j.depth = 0 := fun j hj => by
      obtain ⟨a, -, rfl⟩ := List.mem_map.1 hj
      rfl
    refine ⟨?_, fun j hj i _ => ?_, fun a => ?_, nofun⟩
    · refine List.pairwise_of_forall_mem_list fun j hj k _ => ?_
      rw [hdepth j hj]
      exact Nat.zero_le _
    · rw [hdepth j hj]
      exact Nat.zero_le _
    · unfold startBest
      split
      · rename_i ha
        exact .inr ⟨⟨a, 0, one, [a]⟩, List.mem_map_of_mem ha, rfl, rfl⟩
      · exact .inl rfl
  obtain ⟨all, hall, hmem, hclosed⟩ := hstart.search habove
  change ∃ i ∈ growth.search _ _ _ [], _
  rw [hall]
  induction h with
  | @start a ha => exact ⟨⟨a, 0, one, [a]⟩, hmem _ (List.mem_map_of_mem ha), rfl, le_rfl, le_rfl⟩
  | @hop a d s x _ hx ih =>
    obtain ⟨i, hi, rfl, hdepth, hscore⟩ := ih
    obtain ⟨t, ht, hle⟩ := hmono hdepth hscore hx
    obtain ⟨j, hj, hnode, hjdepth, hjscore⟩ := hclosed i hi (x.1, t) ht
    exact ⟨j, hj, hnode, hjdepth.trans (Nat.succ_le_succ hdepth), hle.trans hjscore⟩

end Growth

end Conc
