-- SUMMARY: The transition chosen is the first of the best ones that match, unless a set comparison raises before it.
import Stylme.Lib.Extrema
import Stylme.Lib.Fallible
import Stylme.Worker.Graph

/-!
# The best transition

An edge settles the choice if its condition holds or raises, and of these edges the first one with the
greatest priority is looked at. Only the operator `in` raises: it hashes the values it
compares, and lists and dictionaries have no hash.
-/

namespace Stylme

open Conc Backend

namespace Worker

variable {lib : Library}

/-! ## Conditions that raise -/

/-- The value has no hash. -/
def IsNested : Json → Prop
  | .arr _ | .obj _ => True
  | _ => False

instance : DecidablePred IsNested := fun value => by
  cases value <;> unfold IsNested <;> infer_instance

/-- The comparison hashes a list or a dictionary. -/
def Unhashable (condition : TransitionCondition) (captured : Document) : Prop :=
  condition.operator = "in" ∧
    match getPath captured condition.field, condition.value with
    | .arr items, value => (∃ item ∈ items, IsNested item) ∨ IsNested value
    | actual, .arr items => (∃ item ∈ items, IsNested item) ∨ IsNested actual
    | _, _ => False

theorem isNested_normalized {value : Json} : IsNested (normalized lib value) ↔ IsNested value := by
  cases value <;> rfl

theorem hashable_eq_ok_iff {value : Json} : (∃ v, hashable value = .ok v) ↔ ¬ IsNested value := by
  cases value <;> simp [hashable, IsNested]

/-- A comparison with a set raises where something has no hash. -/
theorem inSet_ok_iff {value : Json} {items : List Json} :
    (∃ b, inSet lib value items = .ok b) ↔ ¬ ((∃ item ∈ items, IsNested item) ∨ IsNested value) := by
  have hitems : (∃ vs, items.mapM (fun item => hashable (normalized lib item)) = .ok vs) ↔
      ∀ item ∈ items, ¬ IsNested item := by
    rw [exists_mapM_eq_ok_iff]
    exact forall₂_congr fun item _ => hashable_eq_ok_iff.trans (not_congr isNested_normalized)
  have hvalue : (∃ v, hashable (normalized lib value) = .ok v) ↔ ¬ IsNested value :=
    hashable_eq_ok_iff.trans (not_congr isNested_normalized)
  rw [not_or, not_exists, ← hvalue]
  simp only [not_and]
  rw [← hitems]
  constructor
  · rintro ⟨b, hb⟩
    obtain ⟨vs, hvs, hb⟩ := bind_eq_ok.1 hb
    obtain ⟨v, hv, -⟩ := bind_eq_ok.1 hb
    exact ⟨⟨vs, hvs⟩, ⟨v, hv⟩⟩
  · rintro ⟨⟨vs, hvs⟩, ⟨v, hv⟩⟩
    refine ⟨vs.any (eq v), ?_⟩
    unfold inSet
    rw [hvs, hv]
    rfl

/-- A condition raises where its comparison is with something that has no hash. -/
theorem conditionMatches_ok_iff {condition : TransitionCondition} {captured : Document} :
    (∃ b, conditionMatches lib condition captured = .ok b) ↔ ¬ Unhashable condition captured := by
  by_cases hoperator : condition.operator = "in"
  · unfold conditionMatches Unhashable
    rw [hoperator]
    simp only [true_and]
    cases getPath captured condition.field <;> cases condition.value <;>
      first | exact inSet_ok_iff | exact iff_of_true ⟨_, rfl⟩ id
  · have hnot : ¬ Unhashable condition captured := fun h => hoperator h.1
    refine iff_of_true ?_ hnot
    unfold conditionMatches
    dsimp only
    split
    case h_3 heq => exact absurd heq hoperator
    case h_4 => split <;> exact ⟨_, rfl⟩
    all_goals exact ⟨_, rfl⟩

/-! ## Edges that settle the choice -/

/-- The condition of the edge holds. -/
def Holds (lib : Library) (captured : Document) (edge : SwarmEdge) : Prop :=
  conditionMatches lib edge.condition captured = .ok true

/-- The condition of the edge holds, or raises. -/
def settles (lib : Library) (captured : Document) (edge : SwarmEdge) : Bool :=
  match conditionMatches lib edge.condition captured with
  | .ok b => b
  | .error _ => true

theorem settles_iff {captured : Document} {edge : SwarmEdge} :
    settles lib captured edge = true ↔ Holds lib captured edge ∨ Unhashable edge.condition captured := by
  have hok := @conditionMatches_ok_iff lib edge.condition captured
  unfold settles Holds
  cases hmatches : conditionMatches lib edge.condition captured with
  | ok b =>
    have hnot : ¬ Unhashable edge.condition captured := hok.1 ⟨b, hmatches⟩
    simp [hnot]
  | error e =>
    have hraises : Unhashable edge.condition captured :=
      not_not.1 fun hnot => by
        obtain ⟨b, hb⟩ := hok.2 hnot
        rw [hmatches] at hb
        cases hb
    simp [hraises]

theorem not_unhashable_of_holds {captured : Document} {edge : SwarmEdge} (h : Holds lib captured edge) :
    ¬ Unhashable edge.condition captured := conditionMatches_ok_iff.1 ⟨true, h⟩

/-- What the first of the edges that settle the choice makes of it. -/
def settled (lib : Library) (captured : Document) : Option SwarmEdge → Except Raised (Option SwarmEdge)
  | none => .ok none
  | some edge => (conditionMatches lib edge.condition captured).map fun _ => some edge

theorem firstMatch_eq {captured : Document} (edges : List SwarmEdge) :
    firstMatch lib captured edges = settled lib captured (edges.filter (settles lib captured)).head? := by
  induction edges with
  | nil => rfl
  | cons edge edges ih =>
    rw [firstMatch, List.filter_cons, ih]
    cases hmatches : conditionMatches lib edge.condition captured with
    | error e => simp [settles, hmatches, settled, bind, Except.bind, Except.map]
    | ok b =>
      cases b with
      | true => simp [settles, hmatches, settled, bind, Except.bind, Except.map, pure, Except.pure]
      | false => simp [settles, hmatches, bind, Except.bind]

/-- The edges that leave a node and settle the choice, in the order of the graph. -/
def settling (lib : Library) (graph : SwarmGraph) (currentNode : String) (captured : Document) :
    List SwarmEdge :=
  (graph.edges.filter (·.fromNode = currentNode)).filter (settles lib captured)

/-- The first of them with the greatest priority is looked at. -/
theorem chooseTransition_eq {graph : SwarmGraph} {currentNode : String} {captured : Document} :
    chooseTransition lib graph currentNode captured =
      settled lib captured (firstMax (·.priority) (settling lib graph currentNode captured)) := by
  rw [chooseTransition, firstMatch_eq, ← filter_insertionSort, settling]
  exact congrArg (settled lib captured) head?_insertionSort

/-! ## The choice -/

/-- The edge leaves the node, its condition holds, it has the greatest priority of such edges and is the
first of those with it. -/
structure Best (lib : Library) (graph : SwarmGraph) (currentNode : String) (captured : Document)
    (edge : SwarmEdge) : Prop where
  mem : edge ∈ graph.edges
  leaves : edge.fromNode = currentNode
  holds : Holds lib captured edge
  split : ∃ before after, graph.edges = before ++ edge :: after ∧
    (∀ e ∈ before, e.fromNode = currentNode → Holds lib captured e → e.priority < edge.priority) ∧
    ∀ e ∈ after, e.fromNode = currentNode → Holds lib captured e → e.priority ≤ edge.priority

/-- No error is raised, and what is chosen is the best edge, none only if no condition holds. -/
def ChoosesBest (lib : Library) (graph : SwarmGraph) (currentNode : String) (captured : Document) : Prop :=
  ∃ chosen, chooseTransition lib graph currentNode captured = .ok chosen ∧
    (∀ edge, chosen = some edge → Best lib graph currentNode captured edge) ∧
    (chosen = none ↔ ∀ edge ∈ graph.edges, edge.fromNode = currentNode → ¬ Holds lib captured edge)

/-- Where an edge that leaves the node compares what has no hash, one whose condition holds is looked at
before: it has a greater priority, or the same one and comes first. -/
def Foreclosed (lib : Library) (graph : SwarmGraph) (currentNode : String) (captured : Document) : Prop :=
  ∀ before edge after, graph.edges = before ++ edge :: after → edge.fromNode = currentNode →
    Unhashable edge.condition captured →
    (∃ e ∈ graph.edges, e.fromNode = currentNode ∧ Holds lib captured e ∧ edge.priority < e.priority) ∨
      ∃ e ∈ before, e.fromNode = currentNode ∧ Holds lib captured e ∧ e.priority = edge.priority

variable {graph : SwarmGraph} {currentNode : String} {captured : Document} {edge : SwarmEdge}

theorem mem_settling : edge ∈ settling lib graph currentNode captured ↔ edge ∈ graph.edges ∧
    edge.fromNode = currentNode ∧ (Holds lib captured edge ∨ Unhashable edge.condition captured) := by
  rw [settling, List.mem_filter, List.mem_filter, settles_iff, decide_eq_true_eq, and_assoc]

/-- Around the edge that is looked at, those that settle the choice have less priority before it and no
more after it. -/
theorem split_settling (h : firstMax (·.priority) (settling lib graph currentNode captured) = some edge) :
    ∃ before after, graph.edges = before ++ edge :: after ∧
      (∀ e ∈ before, e ∈ settling lib graph currentNode captured → e.priority < edge.priority) ∧
      ∀ e ∈ after, e ∈ settling lib graph currentNode captured → e.priority ≤ edge.priority := by
  obtain ⟨before, after, hsplit, hbefore, hafter⟩ := firstMax_split h
  have hmem : ∀ {e}, e ∈ settling lib graph currentNode captured →
      (settles lib captured e && decide (e.fromNode = currentNode)) = true := fun {e} he => by
    obtain ⟨-, hleaves, hsettles⟩ := mem_settling.1 he
    rw [settles_iff.2 hsettles, decide_eq_true hleaves]
    rfl
  rw [settling, List.filter_filter] at hsplit
  obtain ⟨front, back, hedges, hfront, hback⟩ := List.filter_eq_append_iff.1 hsplit
  obtain ⟨skipped, rest, rfl, hskipped, -, hrest⟩ := List.filter_eq_cons_iff.1 hback
  refine ⟨front ++ skipped, rest, by rw [hedges, List.append_assoc], fun e he hsettling => ?_,
    fun e he hsettling => hafter e (hrest ▸ List.mem_filter.2 ⟨he, hmem hsettling⟩)⟩
  rcases List.mem_append.1 he with he | he
  · exact hbefore e (hfront ▸ List.mem_filter.2 ⟨he, hmem hsettling⟩)
  · exact absurd (hmem hsettling) (hskipped e he)

theorem foreclosed_of_holds (h : firstMax (·.priority) (settling lib graph currentNode captured) = some edge)
    (hholds : Holds lib captured edge) : Foreclosed lib graph currentNode captured := by
  obtain ⟨before, after, hedges, hbefore, hafter⟩ := split_settling h
  obtain ⟨hmem, hleaves, -⟩ := mem_settling.1 (mem_of_firstMax h)
  intro front e back hsplit heleaves hraises
  have hne : edge ≠ e := fun heq => not_unhashable_of_holds hholds (heq ▸ hraises)
  have hsettling : e ∈ settling lib graph currentNode captured :=
    mem_settling.2 ⟨hsplit ▸ List.mem_append_right _ List.mem_cons_self, heleaves, .inr hraises⟩
  rw [hedges] at hsplit
  rcases List.append_eq_append_iff.1 hsplit with ⟨between, rfl, hrest⟩ | ⟨between, rfl, hrest⟩
  · -- the edge that is looked at comes before `e`
    cases between with
    | nil => exact absurd (List.cons.inj hrest).1 hne
    | cons first between =>
      obtain ⟨rfl, hafter'⟩ := List.cons.inj hrest
      have hle : e.priority ≤ edge.priority :=
        hafter e (hafter' ▸ List.mem_append_right _ List.mem_cons_self) hsettling
      rcases hle.lt_or_eq with hlt | heq
      · exact .inl ⟨edge, hmem, hleaves, hholds, hlt⟩
      · exact .inr ⟨edge, List.mem_append_right _ List.mem_cons_self, hleaves, hholds, heq.symm⟩
  · cases between with
    | nil => exact absurd (List.cons.inj hrest).1.symm hne
    | cons first between =>
      obtain ⟨rfl, -⟩ := List.cons.inj hrest
      have hlt := hbefore e (List.mem_append_right _ List.mem_cons_self) hsettling
      exact .inl ⟨edge, hmem, hleaves, hholds, hlt⟩

/-- The choice is right, and raises no error, unless an edge compares what has no hash before a condition
holds. -/
theorem choosesBest_iff (lib : Library) (graph : SwarmGraph) (currentNode : String) (captured : Document) :
    ChoosesBest lib graph currentNode captured ↔ Foreclosed lib graph currentNode captured := by
  unfold ChoosesBest
  rw [chooseTransition_eq]
  cases hfirst : firstMax (·.priority) (settling lib graph currentNode captured) with
  | none =>
    have hnil : ∀ e, e ∉ settling lib graph currentNode captured := fun e he => by
      have hsome : (firstMax (·.priority) (settling lib graph currentNode captured)).isSome :=
        isSome_firstMax he
      rw [hfirst] at hsome
      cases hsome
    refine iff_of_true ⟨none, rfl, nofun, iff_of_true rfl fun e he hleaves hholds => ?_⟩ ?_
    · exact hnil e (mem_settling.2 ⟨he, hleaves, .inl hholds⟩)
    · intro before e after hsplit hleaves hraises
      exact absurd (mem_settling.2 ⟨hsplit ▸ List.mem_append_right _ List.mem_cons_self, hleaves,
        .inr hraises⟩) (hnil e)
  | some edge =>
    obtain ⟨before, after, hedges, hbefore, hafter⟩ := split_settling hfirst
    obtain ⟨hmem, hleaves, hsettles⟩ := mem_settling.1 (mem_of_firstMax hfirst)
    have hsettling : ∀ {e}, e ∈ graph.edges → e.fromNode = currentNode → Holds lib captured e →
        e ∈ settling lib graph currentNode captured := fun he hleaves hholds =>
      mem_settling.2 ⟨he, hleaves, .inl hholds⟩
    rcases hsettles with hholds | hraises
    · refine iff_of_true ⟨some edge, ?_, fun e he => ?_, iff_of_false nofun fun hnone =>
        hnone edge hmem hleaves hholds⟩ (foreclosed_of_holds hfirst hholds)
      · rw [settled, hholds]
        rfl
      · obtain rfl := Option.some.inj he
        refine ⟨hmem, hleaves, hholds, before, after, hedges, fun e he heleaves heholds => ?_,
          fun e he heleaves heholds => ?_⟩
        · exact hbefore e he (hsettling (hedges ▸ List.mem_append_left _ he) heleaves heholds)
        · exact hafter e he (hsettling (hedges ▸ List.mem_append_right _ (List.mem_cons_of_mem _ he))
            heleaves heholds)
    · refine iff_of_false ?_ ?_
      · rintro ⟨chosen, hchosen, -⟩
        obtain ⟨b, hb, -⟩ := map_eq_ok.1 hchosen
        exact conditionMatches_ok_iff.1 ⟨b, hb⟩ hraises
      · intro hsettled
        rcases hsettled before edge after hedges hleaves hraises with
          ⟨e, he, heleaves, heholds, hlt⟩ | ⟨e, he, heleaves, heholds, heq⟩
        · have hmem' : e ∈ before ++ edge :: after := hedges ▸ he
          rcases List.mem_append.1 hmem' with hfront | hback
          · exact absurd hlt (hbefore e hfront (hsettling he heleaves heholds)).not_gt
          · rcases List.mem_cons.1 hback with rfl | hback
            · exact not_unhashable_of_holds heholds hraises
            · exact absurd hlt (hafter e hback (hsettling he heleaves heholds)).not_gt
        · have he' : e ∈ graph.edges := hedges ▸ List.mem_append_left _ he
          exact absurd heq (hbefore e he (hsettling he' heleaves heholds)).ne

/-- One transition, to callers of two tiers, of which the second is given as a list. -/
def tierGraph : SwarmGraph where
  entryNodeKey := "concierge"
  nodes := [⟨"concierge", "agent-1"⟩, ⟨"specialist", "agent-2"⟩]
  edges := [⟨"concierge", "specialist", 1, ⟨"tier", "in", .arr [.str "gold", .arr [.str "silver"]]⟩, ""⟩]

/-- The control plane accepts the graph, and a caller of the first tier makes the worker raise. -/
theorem tierGraph_raises : ¬ ∀ (lib : Library) (graph : SwarmGraph) (currentNode : String)
    (captured : Document), graph.validateGraph = .ok () →
      ChoosesBest lib graph.fromDict currentNode captured := by
  intro h
  have hvalid : tierGraph.validateGraph = .ok () := by decide +kernel
  obtain ⟨chosen, hchosen, -⟩ := h ⟨fun s => s, fun _ => "", Char.isDigit⟩ tierGraph "concierge"
    [("tier", .str "gold")] hvalid
  have hraises : (chooseTransition ⟨fun s => s, fun _ => "", Char.isDigit⟩ tierGraph.fromDict "concierge"
      [("tier", .str "gold")]).toOption.isNone := by
    decide +kernel
  rw [hchosen] at hraises
  cases hraises

end Worker

end Stylme
