-- SUMMARY: Finite directed graphs given by successor lists: depth-first search for a cycle, and the nodes reached from a root.
import Mathlib.Data.List.Dedup
import Mathlib.Data.List.Nodup
import Mathlib.Logic.Relation

/-!
# Directed graphs

A graph is a function from a node to the list of its successors. `acyclic` is
the depth-first search with a set of nodes being visited and a set of finished
nodes; `reachable` marks everything a root leads to. Both recurse along paths,
so a fuel of one more than the number of nodes suffices, and the answer of
`acyclic` does not depend on the order in which the nodes are tried.
-/

namespace Conc.Digraph

universe u

variable {α : Type u} (succ : α → List α)

/-- There is an edge from `a` to `b`. -/
def Edge (a b : α) : Prop := b ∈ succ a

/-- No node lies on a cycle. -/
def Acyclic : Prop := ∀ v, ¬ Relation.TransGen (Edge succ) v v

/-- Every edge that leaves a node of `V` ends in a node of `V`. -/
def Closed (V : List α) : Prop := ∀ v ∈ V, ∀ w ∈ succ v, w ∈ V

/-! ## Depth-first search -/

structure Marks (α : Type u) where
  visiting : List α
  visited : List α

/-- Visit nodes one after the other, up to the first that closes a cycle. -/
def visitAll (visit : α → Marks α → Option (Bool × Marks α)) :
    List α → Marks α → Option (Bool × Marks α)
  | [], m => some (true, m)
  | n :: ns, m =>
    match visit n m with
    | some (true, m') => visitAll visit ns m'
    | r => r

section Search

variable [DecidableEq α]

/-- Visit one node: `false` when a cycle is found, `none` when the fuel is used up. -/
def visit : ℕ → α → Marks α → Option (Bool × Marks α)
  | 0, _, _ => none
  | fuel + 1, n, m =>
    if n ∈ m.visiting then some (false, m)
    else if n ∈ m.visited then some (true, m)
    else
      match visitAll (visit fuel) (succ n) { m with visiting := n :: m.visiting } with
      | some (true, m') => some (true, ⟨m'.visiting.erase n, n :: m'.visited⟩)
      | r => r

/-- No cycle is found from any node of `V`. -/
def acyclic (V : List α) : Bool :=
  match visitAll (visit succ (V.length + 1)) V ⟨[], []⟩ with
  | some (b, _) => b
  | none => false

/-- Mark nodes one after the other. -/
def markAll (mark : α → List α → List α) : List α → List α → List α
  | [], r => r
  | n :: ns, r => markAll mark ns (mark n r)

/-- Mark everything a node leads to. -/
def mark : ℕ → α → List α → List α
  | 0, _, r => r
  | fuel + 1, n, r => if n ∈ r then r else markAll (mark fuel) (succ n) (n :: r)

/-- The nodes that `root` leads to, in a graph on `V`. -/
def reachable (V : List α) (root : α) : List α := mark succ (V.length + 1) root []

end Search

variable {succ}

/-! ## Finished nodes lie on no cycle -/

/-- The finished nodes are closed under edges, lie on no cycle and are not being visited. -/
structure Marks.Sound (succ : α → List α) (m : Marks α) : Prop where
  closed : ∀ v ∈ m.visited, ∀ w ∈ succ v, w ∈ m.visited
  acyclic : ∀ v ∈ m.visited, ¬ Relation.TransGen (Edge succ) v v
  disjoint : ∀ v ∈ m.visited, v ∉ m.visiting

theorem Marks.Sound.empty : (⟨[], []⟩ : Marks α).Sound succ where
  closed _ h := absurd h List.not_mem_nil
  acyclic _ h := absurd h List.not_mem_nil
  disjoint _ h := absurd h List.not_mem_nil

/-- Whatever a finished node leads to is finished. -/
theorem Marks.Sound.mem_of_transGen {m : Marks α} (h : m.Sound succ) {v w : α}
    (hv : v ∈ m.visited) (hvw : Relation.TransGen (Edge succ) v w) : w ∈ m.visited := by
  induction hvw with
  | single hedge => exact h.closed _ hv _ hedge
  | tail _ hedge ih => exact h.closed _ ih _ hedge

/-- What a successful visit of the nodes `ns` does to the marks. -/
structure Marks.Finishes (succ : α → List α) (m : Marks α) (ns : List α) (m' : Marks α) : Prop where
  sound : m'.Sound succ
  visiting : m'.visiting = m.visiting
  subset : ∀ v ∈ m.visited, v ∈ m'.visited
  finished : ∀ n ∈ ns, n ∈ m'.visited

theorem visitAll_finishes {visit : α → Marks α → Option (Bool × Marks α)}
    (hvisit : ∀ n m m', m.Sound succ → visit n m = some (true, m') → m.Finishes succ [n] m')
    {ns : List α} {m m' : Marks α} (hm : m.Sound succ)
    (h : visitAll visit ns m = some (true, m')) : m.Finishes succ ns m' := by
  induction ns generalizing m with
  | nil =>
    simp only [visitAll, Option.some.injEq, Prod.mk.injEq, true_and] at h
    exact h ▸ ⟨hm, rfl, fun _ hv => hv, fun _ hn => absurd hn List.not_mem_nil⟩
  | cons n ns ih =>
    simp only [visitAll] at h
    split at h
    · rename_i m₁ hn
      have h₁ := hvisit n m m₁ hm hn
      have h₂ := ih h₁.sound h
      refine ⟨h₂.sound, h₂.visiting.trans h₁.visiting, fun v hv => h₂.subset v (h₁.subset v hv), ?_⟩
      intro k hk
      rcases List.mem_cons.1 hk with rfl | hk
      · exact h₂.subset _ (h₁.finished _ (List.mem_singleton_self _))
      · exact h₂.finished k hk
    · rename_i hne
      exact absurd h (hne m')

variable [DecidableEq α]

theorem visit_finishes {fuel : ℕ} {n : α} {m m' : Marks α} (hm : m.Sound succ)
    (h : visit succ fuel n m = some (true, m')) : m.Finishes succ [n] m' := by
  induction fuel generalizing n m m' with
  | zero => simp [visit] at h
  | succ fuel ih =>
    simp only [visit] at h
    split at h
    · simp at h
    split at h
    · rename_i hn
      simp only [Option.some.injEq, Prod.mk.injEq, true_and] at h
      subst h
      exact ⟨hm, rfl, fun _ hv => hv, by simpa using hn⟩
    · rename_i hnew hnot
      split at h
      · rename_i m₁ hsucc
        simp only [Option.some.injEq, Prod.mk.injEq, true_and] at h
        subst h
        have hm' : ({ m with visiting := n :: m.visiting } : Marks α).Sound succ := by
          refine ⟨hm.closed, hm.acyclic, fun v hv => ?_⟩
          simp only [List.mem_cons, not_or]
          exact ⟨fun hvn => hnot (hvn ▸ hv), hm.disjoint v hv⟩
        have h₁ := visitAll_finishes (fun n m m' => ih) hm' hsucc
        -- `n` is still being visited, so it cannot have been finished below itself
        have hn₁ : n ∉ m₁.visited := fun hn =>
          h₁.sound.disjoint n hn (h₁.visiting ▸ List.mem_cons_self)
        refine ⟨⟨?_, ?_, ?_⟩, ?_, ?_, ?_⟩
        · intro v hv w hw
          rcases List.mem_cons.1 hv with rfl | hv
          · exact List.mem_cons_of_mem _ (h₁.finished w hw)
          · exact List.mem_cons_of_mem _ (h₁.sound.closed v hv w hw)
        · intro v hv hcycle
          rcases List.mem_cons.1 hv with rfl | hv
          · obtain ⟨w, hw, hrest⟩ := Relation.TransGen.head'_iff.1 hcycle
            rcases hrest.cases_head with rfl | ⟨x, hwx, hxv⟩
            · exact hn₁ (h₁.finished _ hw)
            · exact hn₁ (h₁.sound.mem_of_transGen (h₁.finished w hw) (.head' hwx hxv))
          · exact h₁.sound.acyclic v hv hcycle
        · simp only [h₁.visiting, List.erase_cons_head]
          intro v hv
          rcases List.mem_cons.1 hv with rfl | hv
          · exact hnew
          · have := h₁.sound.disjoint v hv
            rw [h₁.visiting] at this
            exact fun hvm => this (List.mem_cons_of_mem _ hvm)
        · simp only [h₁.visiting, List.erase_cons_head]
        · exact fun v hv => List.mem_cons_of_mem _ (h₁.subset v hv)
        · intro k hk
          rw [List.mem_singleton.1 hk]
          exact List.mem_cons_self
      · rename_i hne
        exact absurd h (hne m')

/-! ## A failed search has found a cycle -/

omit [DecidableEq α] in
theorem visitAll_cycle {visit : α → Marks α → Option (Bool × Marks α)} {V : List α}
    (hok : ∀ n m m', m.Sound succ → visit n m = some (true, m') → m.Finishes succ [n] m')
    (hcycle : ∀ n m m', m.Sound succ → n ∈ V → (∀ u ∈ m.visiting, Relation.TransGen (Edge succ) u n) →
      visit n m = some (false, m') → ∃ v ∈ V, Relation.TransGen (Edge succ) v v)
    {ns : List α} {m m' : Marks α} (hm : m.Sound succ) (hV : ∀ n ∈ ns, n ∈ V)
    (hpath : ∀ n ∈ ns, ∀ u ∈ m.visiting, Relation.TransGen (Edge succ) u n)
    (h : visitAll visit ns m = some (false, m')) :
    ∃ v ∈ V, Relation.TransGen (Edge succ) v v := by
  induction ns generalizing m with
  | nil => simp [visitAll] at h
  | cons n ns ih =>
    simp only [visitAll] at h
    split at h
    · rename_i m₁ hn
      have h₁ := hok n m m₁ hm hn
      refine ih h₁.sound (fun k hk => hV k (List.mem_cons_of_mem _ hk)) (fun k hk => ?_) h
      rw [h₁.visiting]
      exact hpath k (List.mem_cons_of_mem _ hk)
    · exact hcycle n m m' hm (hV n List.mem_cons_self) (hpath n List.mem_cons_self) h

theorem visit_cycle {V : List α} (hV : Closed succ V) {fuel : ℕ} {n : α} {m m' : Marks α}
    (hm : m.Sound succ) (hn : n ∈ V)
    (hpath : ∀ u ∈ m.visiting, Relation.TransGen (Edge succ) u n)
    (h : visit succ fuel n m = some (false, m')) : ∃ v ∈ V, Relation.TransGen (Edge succ) v v := by
  induction fuel generalizing n m m' with
  | zero => simp [visit] at h
  | succ fuel ih =>
    simp only [visit] at h
    split at h
    · rename_i hvisiting
      exact ⟨n, hn, hpath n hvisiting⟩
    split at h
    · simp at h
    · rename_i hnew hnot
      split at h
      · simp at h
      · refine visitAll_cycle (fun n m m' => visit_finishes) (fun n m m' => ih)
          (m := { m with visiting := n :: m.visiting })
          ⟨hm.closed, hm.acyclic, fun v hv => ?_⟩ (hV n hn) (fun w hw u hu => ?_) h
        · simp only [List.mem_cons, not_or]
          exact ⟨fun hvn => hnot (hvn ▸ hv), hm.disjoint v hv⟩
        · rcases List.mem_cons.1 hu with rfl | hu
          · exact .single hw
          · exact (hpath u hu).tail hw

/-! ## The fuel suffices -/

/-- How many nodes of `V` a path through the nodes being visited can still add. -/
def Marks.room (V : List α) (m : Marks α) : ℕ := (V.filter (· ∉ m.visiting)).length

theorem Marks.room_lt {V : List α} {m : Marks α} {n : α} (hn : n ∈ V) (hnew : n ∉ m.visiting) :
    ({ m with visiting := n :: m.visiting } : Marks α).room V < m.room V := by
  have hsub : V.filter (· ∉ n :: m.visiting) = (V.filter (· ∉ m.visiting)).filter (· ≠ n) := by
    rw [List.filter_filter]
    exact List.filter_congr fun v _ => by simp
  simp only [room, hsub]
  exact List.length_filter_lt_length_iff_exists.2 ⟨n, List.mem_filter.2 ⟨hn, by simpa using hnew⟩, by simp⟩

theorem visitAll_isSome {visit : α → Marks α → Option (Bool × Marks α)} {V : List α} {fuel : ℕ}
    (hok : ∀ n m m', m.Sound succ → visit n m = some (true, m') → m.Finishes succ [n] m')
    (hsome : ∀ n m, m.Sound succ → n ∈ V → m.room V < fuel → (visit n m).isSome)
    {ns : List α} {m : Marks α} (hm : m.Sound succ) (hV : ∀ n ∈ ns, n ∈ V) (hfuel : m.room V < fuel) :
    (visitAll visit ns m).isSome := by
  induction ns generalizing m with
  | nil => rfl
  | cons n ns ih =>
    simp only [visitAll]
    split
    · rename_i m₁ hn
      have h₁ := hok n m m₁ hm hn
      refine ih h₁.sound (fun k hk => hV k (List.mem_cons_of_mem _ hk)) ?_
      rwa [Marks.room, h₁.visiting]
    · exact hsome n m hm (hV n List.mem_cons_self) hfuel

theorem visit_isSome {V : List α} (hV : Closed succ V) {fuel : ℕ} {n : α} {m : Marks α}
    (hm : m.Sound succ) (hn : n ∈ V) (hfuel : m.room V < fuel) : (visit succ fuel n m).isSome := by
  induction fuel generalizing n m with
  | zero => omega
  | succ fuel ih =>
    simp only [visit]
    split
    · rfl
    split
    · rfl
    · rename_i hnew hnot
      have hsome : (visitAll (visit succ fuel) (succ n)
          { m with visiting := n :: m.visiting }).isSome := by
        refine visitAll_isSome (fun n m m' => visit_finishes) (fun n m => ih)
          ⟨hm.closed, hm.acyclic, fun v hv => ?_⟩ (hV n hn) ?_
        · simp only [List.mem_cons, not_or]
          exact ⟨fun hvn => hnot (hvn ▸ hv), hm.disjoint v hv⟩
        · have := Marks.room_lt hn hnew
          omega
      split
      · rfl
      · exact hsome

/-! ## The search decides acyclicity -/

/-- The search finds a cycle exactly when a node lies on one. -/
theorem acyclic_iff {V : List α} (hV : Closed succ V) :
    acyclic succ V = true ↔ ∀ v ∈ V, ¬ Relation.TransGen (Edge succ) v v := by
  have hsome : (visitAll (visit succ (V.length + 1)) V ⟨[], []⟩).isSome :=
    visitAll_isSome (fun n m m' => visit_finishes) (fun n m => visit_isSome hV) .empty
      (fun _ hn => hn) (Nat.lt_succ_of_le (List.length_filter_le _ _))
  unfold acyclic
  cases hrun : visitAll (visit succ (V.length + 1)) V ⟨[], []⟩ with
  | none => simp [hrun] at hsome
  | some r =>
    obtain ⟨b, m'⟩ := r
    cases b with
    | true =>
      have hfin := visitAll_finishes (fun n m m' => visit_finishes) .empty hrun
      exact ⟨fun _ v hv => hfin.sound.acyclic v (hfin.finished v hv), fun _ => rfl⟩
    | false =>
      obtain ⟨v, hv, hcycle⟩ := visitAll_cycle (fun n m m' => visit_finishes)
        (fun n m m' => visit_cycle hV) .empty (fun _ hn => hn)
        (fun _ _ _ hu => absurd hu List.not_mem_nil) hrun
      exact ⟨fun h => by simp at h, fun h => absurd hcycle (h v hv)⟩

/-! ## What is marked -/

/-- What marking the nodes `ns` does to the nodes `r` marked before. -/
structure Marked (succ : α → List α) (r ns r' : List α) : Prop where
  nodup : r.Nodup → r'.Nodup
  subset : ∀ v ∈ r, v ∈ r'
  marked : ∀ n ∈ ns, n ∈ r'
  closed : ∀ v ∈ r', v ∉ r → ∀ w ∈ succ v, w ∈ r'
  reached : ∀ v ∈ r', v ∉ r → ∃ n ∈ ns, Relation.ReflTransGen (Edge succ) n v

/-- How many nodes of `V` are not marked. -/
theorem room_le {V r r' : List α} (h : ∀ v ∈ r, v ∈ r') :
    (⟨r', []⟩ : Marks α).room V ≤ (⟨r, []⟩ : Marks α).room V := by
  refine (List.monotone_filter_right V fun v hv => ?_).length_le
  simp only [decide_eq_true_eq] at hv ⊢
  exact fun hr => hv (h v hr)

theorem markAll_marked {mark : α → List α → List α} {V : List α} {fuel : ℕ}
    (hmark : ∀ n r, n ∈ V → (⟨r, []⟩ : Marks α).room V < fuel → Marked succ r [n] (mark n r))
    {ns r : List α} (hV : ∀ n ∈ ns, n ∈ V) (hfuel : (⟨r, []⟩ : Marks α).room V < fuel) :
    Marked succ r ns (markAll mark ns r) := by
  induction ns generalizing r with
  | nil => exact ⟨id, fun _ h => h, fun _ h => absurd h List.not_mem_nil, fun _ h hn => absurd h hn,
      fun _ h hn => absurd h hn⟩
  | cons n ns ih =>
    have h₁ := hmark n r (hV n List.mem_cons_self) hfuel
    have h₂ := ih (fun k hk => hV k (List.mem_cons_of_mem _ hk))
      (Nat.lt_of_le_of_lt (room_le h₁.subset) hfuel)
    refine ⟨fun h => h₂.nodup (h₁.nodup h), fun v hv => h₂.subset v (h₁.subset v hv),
      fun k hk => ?_, fun v hv hr w hw => ?_, fun v hv hr => ?_⟩
    · rcases List.mem_cons.1 hk with rfl | hk
      · exact h₂.subset _ (h₁.marked _ (List.mem_singleton_self _))
      · exact h₂.marked k hk
    · by_cases hv₁ : v ∈ mark n r
      · exact h₂.subset w (h₁.closed v hv₁ hr w hw)
      · exact h₂.closed v hv hv₁ w hw
    · by_cases hv₁ : v ∈ mark n r
      · obtain ⟨k, hk, hreach⟩ := h₁.reached v hv₁ hr
        exact ⟨n, List.mem_cons_self, List.mem_singleton.1 hk ▸ hreach⟩
      · obtain ⟨k, hk, hreach⟩ := h₂.reached v hv hv₁
        exact ⟨k, List.mem_cons_of_mem _ hk, hreach⟩

theorem mark_marked {V : List α} (hV : Closed succ V) {fuel : ℕ} {n : α} {r : List α} (hn : n ∈ V)
    (hfuel : (⟨r, []⟩ : Marks α).room V < fuel) : Marked succ r [n] (mark succ fuel n r) := by
  induction fuel generalizing n r with
  | zero => omega
  | succ fuel ih =>
    simp only [mark]
    split
    · rename_i hr
      exact ⟨id, fun _ h => h, fun k hk => List.mem_singleton.1 hk ▸ hr, fun _ h hn => absurd h hn,
        fun _ h hn => absurd h hn⟩
    · rename_i hr
      have hroom : (⟨n :: r, []⟩ : Marks α).room V < fuel :=
        Nat.lt_of_lt_of_le (Marks.room_lt (m := ⟨r, []⟩) hn hr) (Nat.le_of_lt_succ hfuel)
      have h := markAll_marked (fun k r hk => ih (r := r) hk) (hV n hn) hroom
      refine ⟨fun hnodup => h.nodup (List.nodup_cons.2 ⟨hr, hnodup⟩),
        fun v hv => h.subset v (List.mem_cons_of_mem _ hv),
        fun k hk => List.mem_singleton.1 hk ▸ h.subset n List.mem_cons_self,
        fun v hv hvr w hw => ?_, fun v hv hvr => ?_⟩
      · by_cases hvn : v = n
        · exact h.marked w (hvn ▸ hw)
        · exact h.closed v hv (by simp [hvn, hvr]) w hw
      · by_cases hvn : v = n
        · exact ⟨n, List.mem_singleton_self _, hvn ▸ .refl⟩
        · obtain ⟨k, hk, hreach⟩ := h.reached v hv (by simp [hvn, hvr])
          exact ⟨n, List.mem_singleton_self _, .head hk hreach⟩

/-- Marking visits each node once, and those are the nodes that the root leads to. -/
theorem nodup_reachable {V : List α} (hV : Closed succ V) {root : α} (hroot : root ∈ V) :
    (reachable succ V root).Nodup :=
  (mark_marked hV hroot (Nat.lt_succ_of_le (List.length_filter_le _ _))).nodup List.nodup_nil

theorem mem_reachable {V : List α} (hV : Closed succ V) {root : α} (hroot : root ∈ V) {v : α} :
    v ∈ reachable succ V root ↔ Relation.ReflTransGen (Edge succ) root v := by
  have h := mark_marked hV hroot (r := []) (Nat.lt_succ_of_le (List.length_filter_le _ _))
  constructor
  · intro hv
    obtain ⟨n, hn, hreach⟩ := h.reached v hv List.not_mem_nil
    exact List.mem_singleton.1 hn ▸ hreach
  · intro hreach
    induction hreach with
    | refl => exact h.marked root (List.mem_singleton_self _)
    | tail _ hedge ih => exact h.closed _ ih List.not_mem_nil _ hedge

theorem markAll_congr {f g : α → List α → List α} {V : List α} {n : ℕ}
    (hf : ∀ k r, k ∈ V → (⟨r, []⟩ : Marks α).room V < n → Marked succ r [k] (f k r))
    (hfg : ∀ k r, k ∈ V → (⟨r, []⟩ : Marks α).room V < n → f k r = g k r)
    {ns r : List α} (hV : ∀ k ∈ ns, k ∈ V) (hroom : (⟨r, []⟩ : Marks α).room V < n) :
    markAll f ns r = markAll g ns r := by
  induction ns generalizing r with
  | nil => rfl
  | cons k ns ih =>
    have hk := hV k List.mem_cons_self
    rw [markAll, markAll, ← hfg k r hk hroom]
    exact ih (fun j hj => hV j (List.mem_cons_of_mem _ hj))
      (Nat.lt_of_le_of_lt (room_le (hf k r hk hroom).subset) hroom)

/-- More fuel marks nothing else. -/
theorem mark_congr {V : List α} (hV : Closed succ V) {fuel fuel' : ℕ} {n : α} {r : List α}
    (hn : n ∈ V) (hfuel : (⟨r, []⟩ : Marks α).room V < fuel) (hle : fuel ≤ fuel') :
    mark succ fuel' n r = mark succ fuel n r := by
  induction fuel generalizing fuel' n r with
  | zero => omega
  | succ fuel ih =>
    obtain ⟨fuel', rfl⟩ := Nat.exists_eq_add_of_le' (Nat.one_le_of_lt hle)
    simp only [mark]
    split
    · rfl
    · rename_i hr
      have hroom : (⟨n :: r, []⟩ : Marks α).room V < fuel :=
        Nat.lt_of_lt_of_le (Marks.room_lt (m := ⟨r, []⟩) hn hr) (Nat.le_of_lt_succ hfuel)
      exact (markAll_congr (fun k r hk hlt => mark_marked hV hk hlt)
        (fun k r hk hlt => (ih hk hlt (Nat.le_of_succ_le_succ hle)).symm) (hV n hn) hroom).symm

/-! ## Paths in an acyclic graph -/

omit [DecidableEq α] in
/-- A path in an acyclic graph visits no node twice. -/
theorem Acyclic.nodup_of_isChain (h : Acyclic succ) {l : List α}
    (hl : l.IsChain (Edge succ)) : l.Nodup := by
  have hpair : l.Pairwise (Relation.TransGen (Edge succ)) :=
    (hl.imp fun _ _ hab => Relation.TransGen.single hab).pairwise
  refine hpair.imp fun {a b} hab heq => ?_
  exact h b (heq ▸ hab)

end Conc.Digraph
