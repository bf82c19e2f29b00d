-- SUMMARY: Building the search graph from the taxonomy, a learned model, the contexts and a model's answers.
import Stylme.Lib.Fallible
import Stylme.Search.Candidates
import Mathlib.Data.List.Dedup
import Mathlib.Data.Nat.Sqrt
import Mathlib.Order.Bounds.Basic

/-!
# The construction of the search graph

`build_deterministic_graph` and `build_or_load_graph` call `_add_node` and `_add_edge` again and
again on two dictionaries. Of several edges between two nodes the heaviest stays, so that the
graph says of any two nodes how strong the best evidence for joining them is. The best edges are
stored, with the nodes they join.
-/

namespace Stylme

open Conc Backend

namespace Reconciler

/-! ## Calls -/

def maxPersistedEdges : ℕ := 40000

def phraseNode (texts : Texts) (kind phrase : String) : String :=
  kind ++ "::" ++ texts.digest (kind ++ ":" ++ texts.normalizeQuery phrase)

/-- A call of `_add_node` or of `_add_edge`. -/
inductive GraphCall where
  | node (values : GraphNode)
  | edge (e : GraphEdge)

/-- `value`, unless it is one of `(None, "", [])`. -/
def given (value current : Option String) : Option String := (value.filter (· ≠ "")).or current

/-- The node with the values that a call gives it. -/
def GraphNode.updated (n values : GraphNode) : GraphNode where
  key := n.key
  kind := values.kind.or n.kind
  field := given values.field n.field
  value := given values.value n.value
  label := given values.label n.label
  market := given values.market n.market
  terms := if values.terms = [] then n.terms else values.terms

/-- `round(max(0.01, min(float(weight), 1.0)), 4)` -/
def edgeWeight (weight : ℚ) : ℚ := roundFour (max (1 / 100) (min weight 1))

/-- The two nodes of an edge in order. -/
def GraphEdge.ends (e : GraphEdge) : String × String := (min e.source e.target, max e.source e.target)

/-- `candidate` of `_add_edge` -/
def GraphEdge.candidate (e : GraphEdge) : GraphEdge where
  source := e.ends.1
  target := e.ends.2
  weight := edgeWeight e.weight
  relation := e.relation
  evidenceSource := e.evidenceSource
  support := max 0 e.support
  rationale := (e.rationale.filter (· ≠ "")).map fun text => String.ofList (text.toList.take 240)

/-- The dictionaries `nodes` and `edges`. -/
structure GraphDraft where
  nodes : List (String × GraphNode)
  edges : List ((String × String) × GraphEdge)

namespace GraphDraft

def empty : GraphDraft := ⟨[], []⟩

/-- `_add_node` -/
def addNode (values : GraphNode) (d : GraphDraft) : GraphDraft :=
  { d with nodes := amend values.key (fun n => (n.getD { key := values.key }).updated values) d.nodes }

/-- The edge that stays when there is another one for its nodes. -/
def heavier (e : GraphEdge) (current : Option GraphEdge) : GraphEdge :=
  current.elim e fun old => if old.weight < e.weight then e else old

/-- `_add_edge` -/
def addEdge (e : GraphEdge) (d : GraphDraft) : GraphDraft :=
  if e.source = "" ∨ e.target = "" ∨ e.source = e.target then d
  else { d with edges := amend e.ends (heavier e.candidate) d.edges }

def run (d : GraphDraft) : GraphCall → GraphDraft
  | .node values => d.addNode values
  | .edge e => d.addEdge e

def runAll (calls : List GraphCall) (d : GraphDraft) : GraphDraft := calls.foldl run d

end GraphDraft

/-! ## The taxonomy -/

/-- The options of a field that are taken into the graph. -/
def TaxonomyField.offered (field : TaxonomyField) : List TaxonomyOption :=
  field.options.filter fun o => field.key ≠ "product_type" ∨ o.key ∉ forbiddenProductTypes

/-- `allowed.get(field, set())` -/
def allowedKeys (fields : List TaxonomyField) (field : String) : List String :=
  (lookupField fields field).elim [] (·.offered.map (·.key))

/-- `list(dict.fromkeys([option["key"], option["label"], *option.get("aliases", [])]))` -/
def TaxonomyOption.names (o : TaxonomyOption) : List String := (o.key :: o.label :: o.aliases).eraseDups

section Construction

variable (texts : Texts)

def termNode (phrase : String) : GraphNode where
  key := phraseNode texts "term" phrase
  kind := some .term
  label := some phrase

def conceptNode (concept : String) : GraphNode where
  key := phraseNode texts "concept" concept
  kind := some .concept
  label := some concept
  market := some "IN"

def optionNode (field : String) (o : TaxonomyOption) : GraphNode where
  key := taxonomyNode field o.key
  kind := some .taxonomy
  field := some field
  value := some o.key
  label := some o.label
  terms := (o.names.map texts.normalizeQuery).filter (· ≠ "")

def nameEdge (phrase : String) (field : String) (o : TaxonomyOption) : GraphEdge where
  source := phraseNode texts "term" phrase
  target := taxonomyNode field o.key
  weight := 1
  relation := "names"
  evidenceSource := "taxonomy"
  support := 0

/-- The calls for one name of an option. -/
def nameCalls (field : String) (o : TaxonomyOption) (name : String) : List GraphCall :=
  let phrase := texts.normalizeQuery name
  if phrase.length < 2 then []
  else [.node (termNode texts phrase), .edge (nameEdge texts phrase field o)]

def optionCalls (field : String) (o : TaxonomyOption) : List GraphCall :=
  .node (optionNode texts field o) :: o.names.flatMap (nameCalls texts field o)

def taxonomyCalls (fields : List TaxonomyField) : List GraphCall :=
  fields.flatMap fun field => field.offered.flatMap (optionCalls texts field.key)

/-! ## The learned model -/

/-- `search_model["nodes"]` -/
abbrev LearnedModel := List (String × List Search.LearnedEdge)

def learnedNode (l : Search.LearnedEdge) : String := taxonomyNode l.field l.value

/-- `left.split("::", 2)[1]` -/
def fieldPart (node : String) : String := (node.splitOn "::").getD 1 ""

/-- `combinations(items, 2)` -/
def combinations {α : Type} : List α → List (α × α)
  | [] => []
  | a :: items => items.map (a, ·) ++ combinations items

/-- `math.sqrt`, to twenty digits. -/
def squareRoot (x : ℚ) : Except Raised ℚ :=
  if x < 0 then .error ⟨"ValueError", "math domain error"⟩
  else .ok (Nat.sqrt ⌊x * 10 ^ 40⌋₊ / 10 ^ 20)

def correlationEdge (phrase : String) (l : Search.LearnedEdge) : GraphEdge where
  source := phraseNode texts "term" phrase
  target := learnedNode l
  weight := l.confidence
  relation := "catalogue-correlation"
  evidenceSource := "catalogue-model"
  support := l.support

def correlationCalls (phrase : String) (l : Search.LearnedEdge) : List GraphCall :=
  [.node (termNode texts phrase), .edge (correlationEdge texts phrase l)]

def cooccurrenceEdge (left right : Search.LearnedEdge) (weight : ℚ) : GraphEdge where
  source := learnedNode left
  target := learnedNode right
  weight := weight
  relation := "catalogue-cooccurrence"
  evidenceSource := "catalogue-model"
  support := min left.support right.support

/-- The call for two values that one term stands for. -/
def cooccurrenceCall (pair : Search.LearnedEdge × Search.LearnedEdge) : Except Raised (Option GraphCall) :=
  if fieldPart (learnedNode pair.1) = fieldPart (learnedNode pair.2) then .ok none
  else (squareRoot (pair.1.confidence * pair.2.confidence)).map fun weight =>
    some (.edge (cooccurrenceEdge pair.1 pair.2 weight))

/-- `valid` -/
def knownEdges (fields : List TaxonomyField) (edges : List Search.LearnedEdge) : List Search.LearnedEdge :=
  edges.filter fun l => l.value ∈ allowedKeys fields l.field

/-- The calls for one term of the model. -/
def termCalls (fields : List TaxonomyField) (entry : String × List Search.LearnedEdge) :
    Except Raised (List GraphCall) :=
  let phrase := texts.normalizeQuery entry.1
  if phrase = "" then .ok []
  else
    let valid := knownEdges fields entry.2
    ((combinations valid).mapM cooccurrenceCall).map fun pairs =>
      valid.flatMap (correlationCalls texts phrase) ++ pairs.filterMap id

def learnedCalls (fields : List TaxonomyField) (model : LearnedModel) :
    Except Raised (List GraphCall) :=
  (model.mapM (termCalls texts fields)).map List.flatten

/-! ## Contexts -/

def meansEdge (concept evidenceSource : String) : GraphEdge where
  source := phraseNode texts "term" concept
  target := phraseNode texts "concept" concept
  weight := 1
  relation := "means"
  evidenceSource := evidenceSource
  support := 0

def contextEdge (concept : String) (tag : ContextTag) : GraphEdge where
  source := phraseNode texts "concept" concept
  target := taxonomyNode tag.1 tag.2.1
  weight := tag.2.2 / 100
  relation := "india-context"
  evidenceSource := "india-baseline"
  support := 0

/-- The calls for a concept, its term and the edge between them. -/
def conceptCalls (concept evidenceSource : String) : List GraphCall :=
  [.node (conceptNode texts concept), .node (termNode texts concept),
    .edge (meansEdge texts concept evidenceSource)]

def contextCalls (fields : List TaxonomyField) (entry : String × List ContextTag) : List GraphCall :=
  conceptCalls texts entry.1 "india-baseline" ++
    (entry.2.filter fun tag => tag.2.1 ∈ allowedKeys fields tag.1).map fun tag =>
      .edge (contextEdge texts entry.1 tag)

def deterministicCalls (fields : List TaxonomyField) (model : LearnedModel) :
    Except Raised (List GraphCall) :=
  (learnedCalls texts fields model).map fun learned =>
    taxonomyCalls texts fields ++ learned ++ indianContexts.flatMap (contextCalls texts fields)

def buildDeterministicGraph (fields : List TaxonomyField) (model : LearnedModel) :
    Except Raised GraphDraft :=
  (deterministicCalls texts fields model).map fun calls => GraphDraft.empty.runAll calls

/-! ## The answers of a model -/

/-- `normalize_query(str(edge.get("concept") or ""))[:80]` -/
def AiEdge.shortConcept (e : AiEdge) : String :=
  String.ofList ((texts.normalizeQuery e.concept).toList.take 80)

/-- `max(0.5, min(float(edge.get("weight") or 0.5), 0.95))` -/
def AiEdge.boundedWeight (e : AiEdge) : ℚ := max (1 / 2) (min e.weight (95 / 100))

/-- The edge as `ai_graph_edges` passes it on. -/
def AiEdge.cleaned (e : AiEdge) : AiEdge where
  concept := e.shortConcept texts
  target := e.target
  weight := e.boundedWeight
  relation := if e.relation = "" then "usage-context" else e.relation
  rationale := String.ofList (e.rationale.toList.take 240)

/-- An edge with a concept too short or with another target than those asked for is dropped. -/
def AiEdge.clean (targets : List String) (e : AiEdge) : Option AiEdge :=
  if (e.shortConcept texts).length < 2 ∨ e.target ∉ targets then none else some (e.cleaned texts)

def aiEdge (e : AiEdge) : GraphEdge where
  source := phraseNode texts "concept" e.concept
  target := e.target
  weight := e.weight
  relation := e.relation
  evidenceSource := "openai"
  support := 0
  rationale := some e.rationale

def aiCalls (e : AiEdge) : List GraphCall :=
  conceptCalls texts e.concept "openai" ++ [.edge (aiEdge texts e)]

/-- `target_nodes` -/
def GraphDraft.targets (d : GraphDraft) : List String :=
  ((d.nodes.filter (·.2.kind = some .taxonomy)).map (·.1)).insertionSort (· ≤ ·)

/-- The dictionaries of `build_or_load_graph` when a model has answered `answers`. -/
def buildGraph (fields : List TaxonomyField) (model : LearnedModel) (answers : List AiEdge) :
    Except Raised GraphDraft :=
  (buildDeterministicGraph texts fields model).map fun d =>
    d.runAll ((answers.filterMap (AiEdge.clean texts d.targets)).flatMap (aiCalls texts))

end Construction

/-! ## What is stored -/

/-- The rank of a kind of evidence. -/
def evidenceRank (evidenceSource : String) : ℕ :=
  if evidenceSource = "taxonomy" then 0
  else if evidenceSource = "india-baseline" then 1
  else if evidenceSource = "openai" then 2
  else if evidenceSource = "catalogue-model" then 3
  else 4

/-- `_edge_priority` -/
def edgePriority (e : GraphEdge) : ℕ ×ₗ ℚ ×ₗ ℤ :=
  toLex (evidenceRank e.evidenceSource, toLex (-e.weight, -e.support))

namespace GraphDraft

variable (d : GraphDraft)

/-- `selected_edges` -/
def selectedEdges : List GraphEdge :=
  ((d.edges.map (·.2)).insertionSort fun a b => edgePriority a ≤ edgePriority b).take maxPersistedEdges

/-- `sorted(referenced)` -/
def referenced : List String :=
  ((d.selectedEdges.map (·.source) ++ d.selectedEdges.map (·.target)).dedup).insertionSort (· ≤ ·)

/-- The graph that is stored. -/
def persisted : SearchGraph := ⟨d.referenced.filterMap fun key => d.nodes.lookup key, d.selectedEdges⟩

end GraphDraft

/-! ## Weights -/

theorem roundFour_of_scaled {x : ℚ} {m : ℤ} (h : x * 10000 = m) : roundFour x = x := by
  rw [roundFour, h, Binary64.roundEven_intCast, ← h]
  exact mul_div_cancel_right₀ x (by norm_num)

theorem edgeWeight_mem (weight : ℚ) : 1 / 100 ≤ edgeWeight weight ∧ edgeWeight weight ≤ 1 := by
  have hlow : roundFour (1 / 100) = 1 / 100 := roundFour_of_scaled (m := 100) (by norm_num)
  have hhigh : roundFour 1 = 1 := roundFour_of_scaled (m := 10000) (by norm_num)
  constructor
  · rw [← hlow]
    exact roundFour_mono (le_max_left _ _)
  · rw [← hhigh]
    exact roundFour_mono (max_le (by norm_num) (min_le_right _ _))

/-! ## Keys -/

section Keys

variable {texts : Texts} {phrase phrase' field value : String}

theorem taxonomyNode_ne_empty : taxonomyNode field value ≠ "" := by
  intro h
  have hlist := congrArg String.toList h
  simp [taxonomyNode, String.toList_append] at hlist

theorem phraseNode_ne_empty {kind : String} : phraseNode texts kind phrase ≠ "" := by
  intro h
  have hlist := congrArg String.toList h
  simp [phraseNode, String.toList_append] at hlist

theorem termNode_ne_taxonomyNode : phraseNode texts "term" phrase ≠ taxonomyNode field value := by
  intro h
  have hlist := congrArg String.toList h
  simp [phraseNode, taxonomyNode, String.toList_append] at hlist

theorem conceptNode_ne_taxonomyNode :
    phraseNode texts "concept" phrase ≠ taxonomyNode field value := by
  intro h
  have hlist := congrArg String.toList h
  simp [phraseNode, taxonomyNode, String.toList_append] at hlist

theorem termNode_ne_conceptNode :
    phraseNode texts "term" phrase ≠ phraseNode texts "concept" phrase' := by
  intro h
  have hlist := congrArg String.toList h
  simp [phraseNode, String.toList_append] at hlist

end Keys

/-! ## What the dictionaries hold -/

/-- The edge is between two different nodes. -/
def GraphEdge.Proper (e : GraphEdge) : Prop := e.source ≠ "" ∧ e.target ≠ "" ∧ e.source ≠ e.target

theorem GraphEdge.Proper.ends_lt {e : GraphEdge} (h : e.Proper) : e.ends.1 < e.ends.2 :=
  min_lt_max.2 h.2.2

namespace GraphDraft

variable {calls calls' : List GraphCall} {d : GraphDraft}

theorem heavier_eq (e : GraphEdge) (current : Option GraphEdge) :
    (heavier e current = e ∧ ∀ old, current = some old → old.weight ≤ e.weight) ∨
      ∃ old, current = some old ∧ heavier e current = old ∧ e.weight ≤ old.weight := by
  cases current with
  | none => exact .inl ⟨rfl, fun old hold => by cases hold⟩
  | some old =>
    by_cases hlt : old.weight < e.weight
    · exact .inl ⟨if_pos hlt, fun old' hold => Option.some.inj hold ▸ hlt.le⟩
    · exact .inr ⟨old, rfl, if_neg hlt, not_lt.1 hlt⟩

/-- What the dictionaries hold after some calls: a node for each key of a call, and for each two
nodes the heaviest of the edges offered for them. -/
structure Holds (calls : List GraphCall) (d : GraphDraft) : Prop where
  nodes_nodup : (d.nodes.map (·.1)).Nodup
  edges_nodup : (d.edges.map (·.1)).Nodup
  node : ∀ key, key ∈ d.nodes.map (·.1) ↔ ∃ values, .node values ∈ calls ∧ values.key = key
  offered : ∀ pair e, d.edges.lookup pair = some e →
    ∃ e', .edge e' ∈ calls ∧ e'.Proper ∧ e'.ends = pair ∧ e'.candidate = e
  heaviest : ∀ e', .edge e' ∈ calls → e'.Proper →
    ∃ e, d.edges.lookup e'.ends = some e ∧ edgeWeight e'.weight ≤ e.weight

theorem holds_empty : Holds [] empty where
  nodes_nodup := .nil
  edges_nodup := .nil
  node key := by
    constructor
    · intro h
      cases h
    · rintro ⟨values, h, -⟩
      cases h
  offered pair e h := by cases h
  heaviest e' h := by cases h

/-- What an edge comes from is among the calls after one more. -/
theorem Holds.offered_append (h : Holds calls d) (c : GraphCall) {pair : String × String} {e : GraphEdge}
    (hlookup : d.edges.lookup pair = some e) :
    ∃ e', .edge e' ∈ calls ++ [c] ∧ e'.Proper ∧ e'.ends = pair ∧ e'.candidate = e := by
  obtain ⟨e', hmem, hrest⟩ := h.offered pair e hlookup
  exact ⟨e', List.mem_append_left _ hmem, hrest⟩

theorem Holds.addNode (h : Holds calls d) (values : GraphNode) :
    Holds (calls ++ [.node values]) (d.addNode values) where
  nodes_nodup := nodup_keys_amend h.nodes_nodup
  edges_nodup := h.edges_nodup
  node key := by
    have hkeys : key ∈ (d.addNode values).nodes.map (·.1) ↔ key ∈ d.nodes.map (·.1) ∨ values.key = key := by
      rw [GraphDraft.addNode]
      dsimp only
      rw [keys_amend]
      split
      · rename_i hmem
        exact ⟨.inl, fun hkey => hkey.elim id fun heq => heq ▸ hmem⟩
      · rw [List.mem_append, List.mem_singleton, eq_comm]
    rw [hkeys, h.node]
    constructor
    · rintro (⟨values', hmem, hkey⟩ | hkey)
      · exact ⟨values', List.mem_append_left _ hmem, hkey⟩
      · exact ⟨values, List.mem_append_right _ (.head _), hkey⟩
    · rintro ⟨values', hmem, hkey⟩
      rcases List.mem_append.1 hmem with hmem | hmem
      · exact .inl ⟨values', hmem, hkey⟩
      · obtain rfl := GraphCall.node.inj (List.mem_singleton.1 hmem)
        exact .inr hkey
  offered _ _ hlookup := h.offered_append _ hlookup
  heaviest e' hmem := by
    rcases List.mem_append.1 hmem with hmem | hmem
    · exact h.heaviest e' hmem
    · cases List.mem_singleton.1 hmem

theorem Holds.addEdge (h : Holds calls d) (new : GraphEdge) :
    Holds (calls ++ [.edge new]) (d.addEdge new) := by
  have hnode : ∀ key, key ∈ d.nodes.map (·.1) ↔
      ∃ values, .node values ∈ calls ++ [.edge new] ∧ values.key = key := by
    intro key
    rw [h.node]
    constructor
    · rintro ⟨values, hmem, hkey⟩
      exact ⟨values, List.mem_append_left _ hmem, hkey⟩
    · rintro ⟨values, hmem, hkey⟩
      rcases List.mem_append.1 hmem with hmem | hmem
      · exact ⟨values, hmem, hkey⟩
      · cases List.mem_singleton.1 hmem
  rw [GraphDraft.addEdge]
  split
  · -- The call changes nothing, and what it offers is no edge.
    rename_i hskip
    refine ⟨h.nodes_nodup, h.edges_nodup, hnode, fun pair e hlookup => ?_, fun e' hmem hproper => ?_⟩
    · exact h.offered_append _ hlookup
    · rcases List.mem_append.1 hmem with hmem | hmem
      · exact h.heaviest e' hmem hproper
      · obtain rfl := GraphCall.edge.inj (List.mem_singleton.1 hmem)
        rcases hskip with hskip | hskip | hskip
        · exact absurd hskip hproper.1
        · exact absurd hskip hproper.2.1
        · exact absurd hskip hproper.2.2
  · rename_i hproper
    rw [not_or, not_or] at hproper
    have hstays := heavier_eq new.candidate (d.edges.lookup new.ends)
    refine ⟨h.nodes_nodup, nodup_keys_amend h.edges_nodup, hnode, fun pair e hlookup => ?_,
      fun e' hmem hproper' => ?_⟩
    · dsimp only at hlookup
      rw [lookup_amend] at hlookup
      split at hlookup
      · rename_i hpair
        have he := Option.some.inj hlookup
        rcases hstays with ⟨hnew, -⟩ | ⟨old, hold, hkept, -⟩
        · exact ⟨new, List.mem_append_right _ (.head _), hproper, hpair.symm, hnew.symm.trans he⟩
        · rw [hpair, ← he, hkept]
          exact h.offered_append _ hold
      · exact h.offered_append _ hlookup
    · dsimp only
      rw [lookup_amend]
      rcases List.mem_append.1 hmem with hmem | hmem
      · obtain ⟨e, hlookup, hle⟩ := h.heaviest e' hmem hproper'
        split
        · rename_i hpair
          rw [hpair] at hlookup
          refine ⟨_, rfl, ?_⟩
          rcases hstays with ⟨hnew, hlighter⟩ | ⟨old, hold, hkept, -⟩
          · rw [hnew]
            exact hle.trans (hlighter e hlookup)
          · rw [hkept, Option.some.inj (hold.symm.trans hlookup)]
            exact hle
        · exact ⟨e, hlookup, hle⟩
      · obtain rfl := GraphCall.edge.inj (List.mem_singleton.1 hmem)
        rw [if_pos rfl]
        refine ⟨_, rfl, ?_⟩
        rcases hstays with ⟨hnew, -⟩ | ⟨old, -, hkept, hle⟩
        · rw [hnew]
          exact le_refl _
        · rw [hkept]
          exact hle

theorem Holds.run (h : Holds calls d) (c : GraphCall) : Holds (calls ++ [c]) (d.run c) := by
  cases c with
  | node values => exact h.addNode values
  | edge e => exact h.addEdge e

theorem Holds.runAll (h : Holds calls d) : Holds (calls ++ calls') (d.runAll calls') := by
  induction calls' generalizing calls d with
  | nil => rwa [List.append_nil]
  | cons c calls' ih =>
    have hrest := ih (h.run c)
    rwa [List.append_assoc] at hrest

theorem holds_runAll : Holds calls (empty.runAll calls) := by
  have h : Holds ([] ++ calls) (empty.runAll calls) := holds_empty.runAll
  rwa [List.nil_append] at h

end GraphDraft

/-! ## The nodes -/

/-- The taxonomy as `taxonomy_snapshot` reads it: one field for each key, and no key is empty. -/
structure Snapshot (fields : List TaxonomyField) : Prop where
  nodup : (fields.map (·.key)).Nodup
  field_ne : ∀ field ∈ fields, field.key ≠ ""
  option_ne : ∀ field ∈ fields, ∀ o ∈ field.options, o.key ≠ ""

section Nodes

variable {texts : Texts} {fields : List TaxonomyField} {n values : GraphNode}

/-- The key names an option that is taken into the graph. -/
def OffersKey (fields : List TaxonomyField) (key : String) : Prop :=
  ∃ field ∈ fields, ∃ o ∈ field.offered, key = taxonomyNode field.key o.key

/-- A call for a term, a concept or an option that is taken into the graph. -/
def NamedNode (texts : Texts) (fields : List TaxonomyField) (values : GraphNode) : Prop :=
  (∃ phrase, values = termNode texts phrase ∨ values = conceptNode texts phrase) ∨
    ∃ field ∈ fields, ∃ o ∈ field.offered, values = optionNode texts field.key o

/-- A term or a concept. -/
def PhraseShape (texts : Texts) (n : GraphNode) : Prop :=
  (∃ phrase, n.key = phraseNode texts "term" phrase ∨ n.key = phraseNode texts "concept" phrase) ∧
    n.kind ≠ some .taxonomy ∧ n.field = none ∧ n.value = none

/-- A value of the taxonomy that is taken into the graph. -/
def OptionShape (fields : List TaxonomyField) (n : GraphNode) : Prop :=
  n.kind = some .taxonomy ∧ ∃ field ∈ fields, ∃ o ∈ field.offered,
    n.field = some field.key ∧ n.value = some o.key ∧ n.key = taxonomyNode field.key o.key

theorem phrase_ne_taxonomyNode {key field value : String}
    (h : ∃ phrase, key = phraseNode texts "term" phrase ∨ key = phraseNode texts "concept" phrase) :
    key ≠ taxonomyNode field value := by
  obtain ⟨phrase, rfl | rfl⟩ := h
  · exact termNode_ne_taxonomyNode
  · exact conceptNode_ne_taxonomyNode

theorem TaxonomyField.mem_options {field : TaxonomyField} {o : TaxonomyOption}
    (h : o ∈ field.offered) : o ∈ field.options := List.mem_of_mem_filter h

theorem TaxonomyField.not_forbidden {field : TaxonomyField} {o : TaxonomyOption}
    (h : o ∈ field.offered) (hfield : field.key = "product_type") : o.key ∉ forbiddenProductTypes :=
  (of_decide_eq_true (List.mem_filter.1 h).2).resolve_left fun hne => hne hfield

theorem given_of_ne {value : String} {current : Option String} (h : value ≠ "") :
    given (some value) current = some value := by
  rw [given, Option.filter_some, if_pos (decide_eq_true h), Option.some_or]

/-- What a call makes of a node that has the key of the call, if there is one. -/
theorem NamedNode.shape (hsnapshot : Snapshot fields) (h : NamedNode texts fields values)
    (hkey : n.key = values.key)
    (hn : n = { key := values.key } ∨ PhraseShape texts n ∨ OptionShape fields n) :
    PhraseShape texts (n.updated values) ∨ OptionShape fields (n.updated values) := by
  rcases h with ⟨phrase, hvalues⟩ | ⟨field, hfield, o, ho, rfl⟩
  · have hphrase : ∃ phrase, n.key = phraseNode texts "term" phrase ∨
        n.key = phraseNode texts "concept" phrase := by
      refine ⟨phrase, ?_⟩
      rcases hvalues with rfl | rfl
      · exact .inl hkey
      · exact .inr hkey
    have hnone : n.field = none ∧ n.value = none := by
      rcases hn with rfl | ⟨-, -, hfield, hvalue⟩ | ⟨-, field, -, o, -, -, -, hoption⟩
      · exact ⟨rfl, rfl⟩
      · exact ⟨hfield, hvalue⟩
      · exact absurd hoption (phrase_ne_taxonomyNode hphrase)
    -- neither call gives a field or a value
    rcases hvalues with rfl | rfl
    · exact .inl ⟨hphrase, fun hkind => (by cases hkind), hnone⟩
    · exact .inl ⟨hphrase, fun hkind => (by cases hkind), hnone⟩
  · exact .inr ⟨rfl, field, hfield, o, ho, given_of_ne (hsnapshot.field_ne field hfield),
      given_of_ne (hsnapshot.option_ne field hfield o (TaxonomyField.mem_options ho)), hkey⟩

/-- Every node is filed under its key and is a phrase or an option. -/
def GraphDraft.Filed (texts : Texts) (fields : List TaxonomyField) (d : GraphDraft) : Prop :=
  ∀ key n, d.nodes.lookup key = some n →
    n.key = key ∧ (PhraseShape texts n ∨ OptionShape fields n)

theorem GraphDraft.Filed.run {d : GraphDraft} (hsnapshot : Snapshot fields)
    (hd : d.Filed texts fields) (c : GraphCall)
    (hc : ∀ values, c = .node values → NamedNode texts fields values) :
    (d.run c).Filed texts fields := by
  cases c with
  | edge e =>
    intro key n hlookup
    have hnodes : (d.run (.edge e)).nodes = d.nodes := by
      show (d.addEdge e).nodes = d.nodes
      unfold GraphDraft.addEdge
      split <;> rfl
    rw [hnodes] at hlookup
    exact hd key n hlookup
  | node values =>
    intro key n hlookup
    rw [GraphDraft.run, GraphDraft.addNode] at hlookup
    dsimp only at hlookup
    rw [lookup_amend] at hlookup
    split at hlookup
    · rename_i hkey
      obtain rfl := Option.some.inj hlookup
      cases hcurrent : d.nodes.lookup values.key with
      | none => exact ⟨hkey.symm, (hc values rfl).shape hsnapshot rfl (.inl rfl)⟩
      | some current =>
        obtain ⟨hcurrentKey, hshape⟩ := hd values.key current hcurrent
        exact ⟨hcurrentKey.trans hkey.symm, (hc values rfl).shape hsnapshot hcurrentKey (.inr hshape)⟩
    · exact hd key n hlookup

theorem GraphDraft.Filed.runAll {calls : List GraphCall} {d : GraphDraft}
    (hsnapshot : Snapshot fields) (hd : d.Filed texts fields)
    (hcalls : ∀ values, .node values ∈ calls → NamedNode texts fields values) :
    (d.runAll calls).Filed texts fields := by
  induction calls generalizing d with
  | nil => exact hd
  | cons c calls ih =>
    have hc : ∀ values, c = .node values → NamedNode texts fields values :=
      fun values h => hcalls values (h ▸ .head _)
    exact ih (hd.run hsnapshot c hc) fun values h => hcalls values (.tail _ h)

theorem filed_empty : GraphDraft.empty.Filed texts fields := by
  intro key n h
  cases h

end Nodes

/-! ## Evidence -/

section Evidence

variable (texts : Texts) (fields : List TaxonomyField) (model : LearnedModel) (answers : List AiEdge)

/-- What the sources of the graph say for joining two nodes, and how strongly: an option has the
name, the model learned the value for the term or both values for one term, a context has the
tag, or a model answered that the concept means the value. -/
inductive GraphEvidence : String → String → ℚ → Prop where
  | symm {a b : String} {weight : ℚ} (h : GraphEvidence a b weight) : GraphEvidence b a weight
  | names {field : TaxonomyField} {o : TaxonomyOption} {name : String} (hfield : field ∈ fields)
      (ho : o ∈ field.offered) (hname : name ∈ o.key :: o.label :: o.aliases)
      (hlength : 2 ≤ (texts.normalizeQuery name).length) :
      GraphEvidence (phraseNode texts "term" (texts.normalizeQuery name)) (taxonomyNode field.key o.key) 1
  | correlation {term : String} {edges : List Search.LearnedEdge} {l : Search.LearnedEdge}
      (hentry : (term, edges) ∈ model) (hterm : texts.normalizeQuery term ≠ "") (hl : l ∈ edges)
      (hallowed : l.value ∈ allowedKeys fields l.field) :
      GraphEvidence (phraseNode texts "term" (texts.normalizeQuery term)) (learnedNode l) l.confidence
  | cooccurrence {term : String} {edges : List Search.LearnedEdge} {left right : Search.LearnedEdge} {weight : ℚ}
      (hentry : (term, edges) ∈ model) (hterm : texts.normalizeQuery term ≠ "")
      (hleft : left ∈ edges) (hleftAllowed : left.value ∈ allowedKeys fields left.field)
      (hright : right ∈ edges) (hrightAllowed : right.value ∈ allowedKeys fields right.field)
      (hfields : fieldPart (learnedNode left) ≠ fieldPart (learnedNode right))
      (hweight : squareRoot (left.confidence * right.confidence) = .ok weight) :
      GraphEvidence (learnedNode left) (learnedNode right) weight
  | means {concept : String} {tags : List ContextTag} (hentry : (concept, tags) ∈ indianContexts) :
      GraphEvidence (phraseNode texts "term" concept) (phraseNode texts "concept" concept) 1
  | context {concept : String} {tags : List ContextTag} {tag : ContextTag}
      (hentry : (concept, tags) ∈ indianContexts) (htag : tag ∈ tags)
      (hallowed : tag.2.1 ∈ allowedKeys fields tag.1) :
      GraphEvidence (phraseNode texts "concept" concept) (taxonomyNode tag.1 tag.2.1) (tag.2.2 / 100)
  | answerMeans {answer : AiEdge} (hanswer : answer ∈ answers)
      (hlength : 2 ≤ (answer.shortConcept texts).length) (htarget : OffersKey fields answer.target) :
      GraphEvidence (phraseNode texts "term" (answer.shortConcept texts))
        (phraseNode texts "concept" (answer.shortConcept texts)) 1
  | answer {answer : AiEdge} (hanswer : answer ∈ answers)
      (hlength : 2 ≤ (answer.shortConcept texts).length) (htarget : OffersKey fields answer.target) :
      GraphEvidence (phraseNode texts "concept" (answer.shortConcept texts)) answer.target
        answer.boundedWeight

variable {texts fields model answers}

theorem offersKey_of_allowed {field value : String} (h : value ∈ allowedKeys fields field) :
    OffersKey fields (taxonomyNode field value) := by
  unfold allowedKeys at h
  cases hlookup : lookupField fields field with
  | none => rw [hlookup] at h; cases h
  | some document =>
    rw [hlookup] at h
    obtain ⟨o, ho, rfl⟩ := List.mem_map.1 h
    unfold lookupField at hlookup
    have hkey : document.key = field := by simpa using List.find?_some hlookup
    exact ⟨document, List.mem_of_find?_eq_some hlookup, o, ho, by rw [hkey]⟩

theorem OffersKey.ne_empty {key : String} (h : OffersKey fields key) : key ≠ "" := by
  obtain ⟨field, -, o, -, rfl⟩ := h
  exact taxonomyNode_ne_empty

theorem OffersKey.ne_phrase {key phrase : String} (h : OffersKey fields key) :
    phraseNode texts "term" phrase ≠ key ∧ phraseNode texts "concept" phrase ≠ key := by
  obtain ⟨field, -, o, -, rfl⟩ := h
  exact ⟨termNode_ne_taxonomyNode, conceptNode_ne_taxonomyNode⟩

/-- Evidence is for two different nodes. -/
theorem GraphEvidence.proper {a b : String} {weight : ℚ}
    (h : GraphEvidence texts fields model answers a b weight) : a ≠ "" ∧ b ≠ "" ∧ a ≠ b := by
  induction h with
  | symm _ ih => exact ⟨ih.2.1, ih.1, ih.2.2.symm⟩
  | names => exact ⟨phraseNode_ne_empty, taxonomyNode_ne_empty, termNode_ne_taxonomyNode⟩
  | correlation => exact ⟨phraseNode_ne_empty, taxonomyNode_ne_empty, termNode_ne_taxonomyNode⟩
  | cooccurrence _ _ _ _ _ _ hfields =>
    exact ⟨taxonomyNode_ne_empty, taxonomyNode_ne_empty, fun heq => hfields (congrArg fieldPart heq)⟩
  | means => exact ⟨phraseNode_ne_empty, phraseNode_ne_empty, termNode_ne_conceptNode⟩
  | context => exact ⟨phraseNode_ne_empty, taxonomyNode_ne_empty, conceptNode_ne_taxonomyNode⟩
  | answerMeans => exact ⟨phraseNode_ne_empty, phraseNode_ne_empty, termNode_ne_conceptNode⟩
  | answer _ _ htarget => exact ⟨phraseNode_ne_empty, htarget.ne_empty, htarget.ne_phrase.2⟩

end Evidence

/-! ## The calls -/

section Calls

variable {texts : Texts} {fields : List TaxonomyField} {model : LearnedModel} {answers : List AiEdge}
variable {calls : List GraphCall}

def HasKey (calls : List GraphCall) (key : String) : Prop :=
  ∃ values, .node values ∈ calls ∧ values.key = key

/-- Calls for nodes that belong into the graph, and for edges that have evidence, between nodes
that are options or get a call, too. -/
structure Founded (texts : Texts) (fields : List TaxonomyField) (model : LearnedModel)
    (answers : List AiEdge) (calls : List GraphCall) : Prop where
  node : ∀ values, .node values ∈ calls → NamedNode texts fields values
  edge : ∀ e, .edge e ∈ calls → GraphEvidence texts fields model answers e.source e.target e.weight
  ends : ∀ e, .edge e ∈ calls → (HasKey calls e.source ∨ OffersKey fields e.source) ∧
    (HasKey calls e.target ∨ OffersKey fields e.target)

theorem HasKey.subset {part : List GraphCall} {key : String} (h : HasKey part key)
    (hpart : part ⊆ calls) : HasKey calls key := h.imp fun _ hvalues => hvalues.imp_left fun h => hpart h

/-- Calls made in several groups are founded if each group is. -/
theorem Founded.of_parts (h : ∀ c ∈ calls, ∃ part, c ∈ part ∧ part ⊆ calls ∧
    Founded texts fields model answers part) : Founded texts fields model answers calls where
  node values hmem := by
    obtain ⟨part, hpart, -, hfounded⟩ := h _ hmem
    exact hfounded.node values hpart
  edge e hmem := by
    obtain ⟨part, hpart, -, hfounded⟩ := h _ hmem
    exact hfounded.edge e hpart
  ends e hmem := by
    obtain ⟨part, hpart, hsubset, hfounded⟩ := h _ hmem
    obtain ⟨hsource, htarget⟩ := hfounded.ends e hpart
    exact ⟨hsource.imp_left (·.subset hsubset), htarget.imp_left (·.subset hsubset)⟩

theorem Founded.append {calls' : List GraphCall} (h : Founded texts fields model answers calls)
    (h' : Founded texts fields model answers calls') :
    Founded texts fields model answers (calls ++ calls') := by
  refine .of_parts fun c hc => ?_
  rcases List.mem_append.1 hc with hc | hc
  · exact ⟨calls, hc, List.subset_append_left _ _, h⟩
  · exact ⟨calls', hc, List.subset_append_right _ _, h'⟩

theorem Founded.flatMap {α : Type} {l : List α} {f : α → List GraphCall}
    (h : ∀ x ∈ l, Founded texts fields model answers (f x)) :
    Founded texts fields model answers (l.flatMap f) := by
  refine .of_parts fun c hc => ?_
  obtain ⟨x, hx, hc⟩ := List.mem_flatMap.1 hc
  exact ⟨f x, hc, fun c hc => List.mem_flatMap.2 ⟨x, hx, hc⟩, h x hx⟩

theorem founded_nil : Founded texts fields model answers [] where
  node values h := by cases h
  edge e h := by cases h
  ends e h := by cases h

theorem founded_node {values : GraphNode} (h : NamedNode texts fields values) :
    Founded texts fields model answers [.node values] where
  node values' hmem := by
    obtain rfl := GraphCall.node.inj (List.mem_singleton.1 hmem)
    exact h
  edge e hmem := by cases List.mem_singleton.1 hmem
  ends e hmem := by cases List.mem_singleton.1 hmem

/-- Calls for an edge and for those of its ends that are no options. -/
theorem Founded.concat {e : GraphEdge} (h : Founded texts fields model answers calls)
    (hevidence : GraphEvidence texts fields model answers e.source e.target e.weight)
    (hsource : HasKey calls e.source ∨ OffersKey fields e.source)
    (htarget : HasKey calls e.target ∨ OffersKey fields e.target) :
    Founded texts fields model answers (calls ++ [.edge e]) where
  node values hmem := by
    rcases List.mem_append.1 hmem with hmem | hmem
    · exact h.node values hmem
    · cases List.mem_singleton.1 hmem
  edge e' hmem := by
    rcases List.mem_append.1 hmem with hmem | hmem
    · exact h.edge e' hmem
    · obtain rfl := GraphCall.edge.inj (List.mem_singleton.1 hmem)
      exact hevidence
  ends e' hmem := by
    have hends : (HasKey calls e'.source ∨ OffersKey fields e'.source) ∧
        (HasKey calls e'.target ∨ OffersKey fields e'.target) := by
      rcases List.mem_append.1 hmem with hmem | hmem
      · exact h.ends e' hmem
      · obtain rfl := GraphCall.edge.inj (List.mem_singleton.1 hmem)
        exact ⟨hsource, htarget⟩
    exact hends.imp (·.imp_left (·.subset (List.subset_append_left _ _)))
      (·.imp_left (·.subset (List.subset_append_left _ _)))

theorem founded_optionCalls {field : TaxonomyField} {o : TaxonomyOption} (hfield : field ∈ fields)
    (ho : o ∈ field.offered) : Founded texts fields model answers (optionCalls texts field.key o) := by
  have hoption : OffersKey fields (taxonomyNode field.key o.key) := ⟨field, hfield, o, ho, rfl⟩
  refine .append (founded_node (.inr ⟨field, hfield, o, ho, rfl⟩)) (.flatMap fun name hname => ?_)
  rw [TaxonomyOption.names, List.mem_eraseDups] at hname
  rw [nameCalls]
  split
  · exact founded_nil
  · rename_i hlength
    exact (founded_node (.inl ⟨_, .inl rfl⟩)).concat (.names hfield ho hname (not_lt.1 hlength))
      (.inl ⟨_, .head _, rfl⟩) (.inr hoption)

theorem founded_taxonomyCalls : Founded texts fields model answers (taxonomyCalls texts fields) :=
  .flatMap fun _ hfield => .flatMap fun _ ho => founded_optionCalls hfield ho

theorem mem_knownEdges {edges : List Search.LearnedEdge} {l : Search.LearnedEdge} :
    l ∈ knownEdges fields edges ↔ l ∈ edges ∧ l.value ∈ allowedKeys fields l.field := by
  rw [knownEdges, List.mem_filter, decide_eq_true_iff]

theorem mem_of_mem_combinations {α : Type} {l : List α} {x : α × α} (h : x ∈ combinations l) :
    x.1 ∈ l ∧ x.2 ∈ l := by
  induction l with
  | nil => cases h
  | cons a l ih =>
    rcases List.mem_append.1 h with h | h
    · obtain ⟨b, hb, rfl⟩ := List.mem_map.1 h
      exact ⟨.head _, .tail _ hb⟩
    · exact (ih h).imp (.tail _) (.tail _)

theorem mem_combinations_or {α : Type} {l : List α} {a b : α} (ha : a ∈ l) (hb : b ∈ l) (hne : a ≠ b) :
    (a, b) ∈ combinations l ∨ (b, a) ∈ combinations l := by
  induction l with
  | nil => cases ha
  | cons c l ih =>
    rcases List.mem_cons.1 ha with hac | ha'
    · have hb' : b ∈ l := (List.mem_cons.1 hb).resolve_left fun hbc => hne (hac.trans hbc.symm)
      exact .inl (List.mem_append_left _ (List.mem_map.2 ⟨b, hb', by rw [hac]⟩))
    · rcases List.mem_cons.1 hb with hbc | hb'
      · exact .inr (List.mem_append_left _ (List.mem_map.2 ⟨a, ha', by rw [hbc]⟩))
      · exact (ih ha' hb').imp (List.mem_append_right _) (List.mem_append_right _)

theorem cooccurrenceCall_eq_some {pair : Search.LearnedEdge × Search.LearnedEdge} {c : GraphCall} :
    cooccurrenceCall pair = .ok (some c) ↔ fieldPart (learnedNode pair.1) ≠ fieldPart (learnedNode pair.2) ∧
      ∃ weight, squareRoot (pair.1.confidence * pair.2.confidence) = .ok weight ∧
        .edge (cooccurrenceEdge pair.1 pair.2 weight) = c := by
  rw [cooccurrenceCall]
  split
  · rename_i heq
    exact iff_of_false (fun h => by cases Except.ok.inj h) fun h => h.1 heq
  · rename_i hne
    rw [map_eq_ok, and_iff_right hne]
    exact exists_congr fun weight => and_congr_right fun _ => Option.some_inj

theorem founded_correlationCalls {term : String} {edges : List Search.LearnedEdge} {l : Search.LearnedEdge}
    (hentry : (term, edges) ∈ model) (hterm : texts.normalizeQuery term ≠ "")
    (hl : l ∈ knownEdges fields edges) :
    Founded texts fields model answers (correlationCalls texts (texts.normalizeQuery term) l) := by
  obtain ⟨hmem, hallowed⟩ := mem_knownEdges.1 hl
  exact (founded_node (.inl ⟨_, .inl rfl⟩)).concat (.correlation hentry hterm hmem hallowed)
    (.inl ⟨_, .head _, rfl⟩) (.inr (offersKey_of_allowed hallowed))

theorem founded_cooccurrenceCall {term : String} {edges : List Search.LearnedEdge}
    {pair : Search.LearnedEdge × Search.LearnedEdge} {c : GraphCall} (hentry : (term, edges) ∈ model)
    (hterm : texts.normalizeQuery term ≠ "") (hpair : pair ∈ combinations (knownEdges fields edges))
    (hcall : cooccurrenceCall pair = .ok (some c)) : Founded texts fields model answers [c] := by
  obtain ⟨hleft, hright⟩ := mem_of_mem_combinations hpair
  obtain ⟨hleft, hleftAllowed⟩ := mem_knownEdges.1 hleft
  obtain ⟨hright, hrightAllowed⟩ := mem_knownEdges.1 hright
  obtain ⟨hfields, weight, hweight, rfl⟩ := cooccurrenceCall_eq_some.1 hcall
  exact founded_nil.concat
    (.cooccurrence hentry hterm hleft hleftAllowed hright hrightAllowed hfields hweight)
    (.inr (offersKey_of_allowed hleftAllowed)) (.inr (offersKey_of_allowed hrightAllowed))

theorem founded_termCalls {entry : String × List Search.LearnedEdge} (hentry : entry ∈ model)
    (h : termCalls texts fields entry = .ok calls) : Founded texts fields model answers calls := by
  rw [termCalls] at h
  split at h
  · obtain rfl := Except.ok.inj h
    exact founded_nil
  · rename_i hterm
    obtain ⟨pairs, hpairs, rfl⟩ := map_eq_ok.1 h
    refine .append (.flatMap fun l hl => founded_correlationCalls hentry hterm hl)
      (.of_parts fun c hc => ⟨[c], .head _, List.cons_subset.2 ⟨hc, List.nil_subset _⟩, ?_⟩)
    obtain ⟨x, hx, rfl⟩ := List.mem_filterMap.1 hc
    obtain ⟨pair, hpair, hcall⟩ := exists_of_mem_mapM hpairs hx
    exact founded_cooccurrenceCall hentry hterm hpair hcall

theorem founded_learnedCalls (h : learnedCalls texts fields model = .ok calls) :
    Founded texts fields model answers calls := by
  obtain ⟨parts, hparts, rfl⟩ := map_eq_ok.1 h
  refine .of_parts fun c hc => ?_
  obtain ⟨part, hpart, hc⟩ := List.mem_flatten.1 hc
  obtain ⟨entry, hentry, hcalls⟩ := exists_of_mem_mapM hparts hpart
  exact ⟨part, hc, fun c hc => List.mem_flatten.2 ⟨part, hpart, hc⟩, founded_termCalls hentry hcalls⟩

theorem founded_conceptCalls {concept evidenceSource : String}
    (hmeans : GraphEvidence texts fields model answers (phraseNode texts "term" concept)
      (phraseNode texts "concept" concept) 1) :
    Founded texts fields model answers (conceptCalls texts concept evidenceSource) :=
  ((founded_node (.inl ⟨_, .inr rfl⟩)).append (founded_node (.inl ⟨_, .inl rfl⟩))).concat hmeans
    (.inl ⟨_, .tail _ (.head _), rfl⟩) (.inl ⟨_, .head _, rfl⟩)

theorem founded_contextCalls {entry : String × List ContextTag} (hentry : entry ∈ indianContexts) :
    Founded texts fields model answers (contextCalls texts fields entry) := by
  have hconcept : Founded texts fields model answers (conceptCalls texts entry.1 "india-baseline") :=
    founded_conceptCalls (.means hentry)
  refine .of_parts fun c hc => ?_
  rcases List.mem_append.1 hc with hc' | hc'
  · exact ⟨_, hc', List.subset_append_left _ _, hconcept⟩
  · obtain ⟨tag, htag, rfl⟩ := List.mem_map.1 hc'
    obtain ⟨htag, hallowed⟩ := List.mem_filter.1 htag
    have hallowed := of_decide_eq_true hallowed
    refine ⟨_, List.mem_append_right _ (.head _), ?_, hconcept.concat
      (.context hentry htag hallowed) (.inl ⟨_, .head _, rfl⟩) (.inr (offersKey_of_allowed hallowed))⟩
    exact List.append_subset.2 ⟨List.subset_append_left _ _, List.cons_subset.2 ⟨hc, List.nil_subset _⟩⟩

theorem clean_eq_some {targets : List String} {e e' : AiEdge} : AiEdge.clean texts targets e = some e' ↔
    (2 ≤ (e.shortConcept texts).length ∧ e.target ∈ targets) ∧ e.cleaned texts = e' := by
  rw [AiEdge.clean]
  split
  · rename_i hdropped
    refine iff_of_false (fun h => by cases h) fun h => ?_
    rcases hdropped with hshort | htarget
    · omega
    · exact htarget h.1.2
  · rename_i hkept
    rw [not_or, not_lt, not_not] at hkept
    rw [and_iff_right hkept, Option.some_inj]

theorem founded_answerCalls {targets : List String} {answer e : AiEdge} (hanswer : answer ∈ answers)
    (htargets : ∀ key ∈ targets, OffersKey fields key) (h : answer.clean texts targets = some e) :
    Founded texts fields model answers (aiCalls texts e) := by
  obtain ⟨⟨hlength, htarget⟩, rfl⟩ := clean_eq_some.1 h
  have htarget := htargets _ htarget
  exact (founded_conceptCalls (.answerMeans hanswer hlength htarget)).concat
    (.answer hanswer hlength htarget) (.inl ⟨_, .head _, rfl⟩) (.inr htarget)

end Calls

/-! ## What the graph says -/

section Graph

variable {texts : Texts} {fields : List TaxonomyField} {model : LearnedModel} {answers : List AiEdge}
variable {calls : List GraphCall}

theorem GraphEdge.joins_iff_ends {e : GraphEdge} {a b : String} :
    e.Joins a b ↔ e.ends = (min a b, max a b) := by
  unfold GraphEdge.Joins GraphEdge.ends
  rw [Prod.mk.injEq]
  constructor
  · rintro (⟨rfl, rfl⟩ | ⟨rfl, rfl⟩)
    · exact ⟨rfl, rfl⟩
    · exact ⟨min_comm _ _, max_comm _ _⟩
  · rintro ⟨hmin, hmax⟩
    rcases le_total e.source e.target with h | h <;> rcases le_total a b with h' | h' <;>
      simp only [min_eq_left, min_eq_right, max_eq_left, max_eq_right, h, h'] at hmin hmax
    · exact .inl ⟨hmin, hmax⟩
    · exact .inr ⟨hmin, hmax⟩
    · exact .inr ⟨hmax, hmin⟩
    · exact .inl ⟨hmax, hmin⟩

theorem GraphEdge.ends_candidate {e : GraphEdge} : e.candidate.ends = e.ends := by
  show (min e.ends.1 e.ends.2, max e.ends.1 e.ends.2) = e.ends
  have hle : e.ends.1 ≤ e.ends.2 := min_le_max
  rw [min_eq_left hle, max_eq_right hle]

/-- Of the edges of a graph made by founded calls, each is as heavy as the best evidence. -/
theorem isGreatest_of_calls {a b : String} {weight : ℚ}
    (hfounded : Founded texts fields model answers calls)
    (hcomplete : ∀ a b raw, GraphEvidence texts fields model answers a b raw →
      ∃ e, .edge e ∈ calls ∧ e.Joins a b ∧ e.weight = raw) :
    (∃ x ∈ (GraphDraft.empty.runAll calls).edges, x.2.Joins a b ∧ x.2.weight = weight) ↔
      IsGreatest {w | ∃ raw, GraphEvidence texts fields model answers a b raw ∧ w = edgeWeight raw} weight := by
  have hholds : GraphDraft.Holds calls (GraphDraft.empty.runAll calls) := GraphDraft.holds_runAll
  -- the heaviest edge that was offered stays
  have hbound : ∀ e, (GraphDraft.empty.runAll calls).edges.lookup (min a b, max a b) = some e →
      ∀ raw, GraphEvidence texts fields model answers a b raw → edgeWeight raw ≤ e.weight := by
    intro e hlookup raw hraw
    obtain ⟨e', hmem, hjoins, rfl⟩ := hcomplete a b raw hraw
    obtain ⟨e₁, he₁, hle⟩ := hholds.heaviest e' hmem (hfounded.edge e' hmem).proper
    rw [GraphEdge.joins_iff_ends.1 hjoins, hlookup] at he₁
    obtain rfl := Option.some.inj he₁
    exact hle
  have hevidence : ∀ e, (GraphDraft.empty.runAll calls).edges.lookup (min a b, max a b) = some e →
      ∃ raw, GraphEvidence texts fields model answers a b raw ∧ e.weight = edgeWeight raw := by
    intro e hlookup
    obtain ⟨e', hmem, -, hends, rfl⟩ := hholds.offered _ e hlookup
    refine ⟨e'.weight, ?_, rfl⟩
    rcases GraphEdge.joins_iff_ends.2 hends with ⟨rfl, rfl⟩ | ⟨rfl, rfl⟩
    · exact hfounded.edge e' hmem
    · exact .symm (hfounded.edge e' hmem)
  constructor
  · rintro ⟨x, hx, hjoins, rfl⟩
    have hlookup := lookup_of_mem hholds.edges_nodup hx
    have hkey : x.1 = (min a b, max a b) := by
      obtain ⟨e', -, -, hends, hcandidate⟩ := hholds.offered _ _ hlookup
      rw [← hends, ← GraphEdge.joins_iff_ends.1 hjoins, ← hcandidate, GraphEdge.ends_candidate]
    rw [hkey] at hlookup
    refine ⟨hevidence _ hlookup, ?_⟩
    rintro w ⟨raw, hraw, rfl⟩
    exact hbound _ hlookup raw hraw
  · rintro ⟨⟨raw, hraw, rfl⟩, hgreatest⟩
    obtain ⟨e', hmem, hjoins, hweight⟩ := hcomplete a b raw hraw
    obtain ⟨e, hlookup, hle⟩ := hholds.heaviest e' hmem (hfounded.edge e' hmem).proper
    rw [GraphEdge.joins_iff_ends.1 hjoins] at hlookup
    obtain ⟨raw', hraw', hraw'Weight⟩ := hevidence e hlookup
    obtain ⟨e₁, -, -, hends, hcandidate⟩ := hholds.offered _ e hlookup
    refine ⟨_, mem_of_lookup hlookup, ?_, ?_⟩
    · rw [GraphEdge.joins_iff_ends, ← hcandidate, GraphEdge.ends_candidate]
      exact hends
    · refine le_antisymm ?_ (hweight ▸ hle)
      exact hgreatest ⟨raw', hraw', hraw'Weight⟩

theorem mem_of_offersKey {key : String} (h : OffersKey fields key) :
    HasKey (taxonomyCalls texts fields) key := by
  obtain ⟨field, hfield, o, ho, rfl⟩ := h
  exact ⟨optionNode texts field.key o,
    List.mem_flatMap.2 ⟨field, hfield, List.mem_flatMap.2 ⟨o, ho, .head _⟩⟩, rfl⟩

/-- The taxonomy nodes of a graph made by founded calls are the options. -/
theorem mem_targets {key : String} (hsnapshot : Snapshot fields)
    (hfounded : Founded texts fields model answers calls) (htaxonomy : taxonomyCalls texts fields ⊆ calls) :
    key ∈ (GraphDraft.empty.runAll calls).targets ↔ OffersKey fields key := by
  have hholds : GraphDraft.Holds calls (GraphDraft.empty.runAll calls) := GraphDraft.holds_runAll
  have hfiled : (GraphDraft.empty.runAll calls).Filed texts fields :=
    filed_empty.runAll hsnapshot hfounded.node
  rw [GraphDraft.targets, List.mem_insertionSort, List.mem_map]
  constructor
  · rintro ⟨x, hx, rfl⟩
    obtain ⟨hx, hkind⟩ := List.mem_filter.1 hx
    obtain ⟨hkey, hshape⟩ := hfiled x.1 x.2 (lookup_of_mem hholds.nodes_nodup hx)
    rcases hshape with ⟨-, hphrase, -⟩ | ⟨-, field, hfield, o, ho, -, -, hoption⟩
    · exact absurd (of_decide_eq_true hkind) hphrase
    · exact ⟨field, hfield, o, ho, hkey.symm.trans hoption⟩
  · intro hoffers
    have hcalled : HasKey calls key := (mem_of_offersKey hoffers).subset htaxonomy
    obtain ⟨x, hx, hxkey⟩ := List.mem_map.1 ((hholds.node key).2 hcalled)
    refine ⟨x, List.mem_filter.2 ⟨hx, decide_eq_true ?_⟩, hxkey⟩
    obtain ⟨hkey, hshape⟩ := hfiled x.1 x.2 (lookup_of_mem hholds.nodes_nodup hx)
    rcases hshape with ⟨hphrase, -⟩ | ⟨hkind, -⟩
    · obtain ⟨field, -, o, -, rfl⟩ := hoffers
      exact absurd (hkey.trans hxkey) (phrase_ne_taxonomyNode hphrase)
    · exact hkind

/-! ## What is stored -/

theorem lookupField_of_mem {field : TaxonomyField} (hnodup : (fields.map (·.key)).Nodup)
    (hfield : field ∈ fields) : lookupField fields field.key = some field := by
  unfold lookupField
  induction fields with
  | nil => cases hfield
  | cons other fields ih =>
    obtain ⟨hother, hnodup⟩ := List.nodup_cons.1 hnodup
    rcases List.mem_cons.1 hfield with rfl | hmem
    · exact List.find?_cons_of_pos (decide_eq_true rfl)
    · have hne : other.key ≠ field.key := fun heq =>
        hother (List.mem_map.2 ⟨field, hmem, heq.symm⟩)
      rw [List.find?_cons_of_neg (by simpa using hne)]
      exact ih hnodup hmem

theorem mem_allowedValues {field : TaxonomyField} {o : TaxonomyOption} (hsnapshot : Snapshot fields)
    (hfield : field ∈ fields) (ho : o ∈ field.offered) : o.key ∈ allowedValues fields field.key := by
  rw [allowedValues, lookupField_of_mem hsnapshot.nodup hfield]
  exact List.mem_map.2 ⟨o, TaxonomyField.mem_options ho, rfl⟩

/-- The graph that is stored of the dictionaries: its nodes are phrases and options of the taxonomy,
none forbidden, and those that its edges join; it has one edge at most between two nodes; and no
edge of the dictionaries that is left out comes before one of its own. -/
structure SearchGraph.Stored (fields : List TaxonomyField) (d : GraphDraft) (g : SearchGraph) : Prop where
  builtFrom : g.BuiltFrom fields
  not_forbidden : ∀ n ∈ g.nodes, n.field = some "product_type" →
    ∀ value, n.value = some value → value ∉ forbiddenProductTypes
  sorted : (g.nodes.map (·.key)).Pairwise (· < ·)
  joined : ∀ key, key ∈ g.nodes.map (·.key) ↔ ∃ e ∈ g.edges, e.source = key ∨ e.target = key
  edge : ∀ e ∈ g.edges, e.source < e.target ∧ 1 / 100 ≤ e.weight ∧ e.weight ≤ 1 ∧ 0 ≤ e.support
  once : g.edges.Pairwise fun e f => ¬ f.Joins e.source e.target
  length : g.edges.length = min maxPersistedEdges d.edges.length
  best : ∀ x ∈ d.edges, x.2 ∉ g.edges → ∀ e ∈ g.edges, edgePriority e ≤ edgePriority x.2

section Stored

variable {d : GraphDraft}

theorem GraphDraft.mem_of_mem_selectedEdges {e : GraphEdge} (h : e ∈ d.selectedEdges) :
    ∃ x ∈ d.edges, x.2 = e := by
  have hsorted := List.mem_of_mem_take h
  exact List.mem_map.1 (List.mem_insertionSort _ |>.1 hsorted)

theorem GraphDraft.mem_referenced {key : String} :
    key ∈ d.referenced ↔ ∃ e ∈ d.selectedEdges, e.source = key ∨ e.target = key := by
  rw [referenced, List.mem_insertionSort, List.mem_dedup, List.mem_append, List.mem_map, List.mem_map]
  constructor
  · rintro (⟨e, he, hkey⟩ | ⟨e, he, hkey⟩)
    · exact ⟨e, he, .inl hkey⟩
    · exact ⟨e, he, .inr hkey⟩
  · rintro ⟨e, he, hkey | hkey⟩
    · exact .inl ⟨e, he, hkey⟩
    · exact .inr ⟨e, he, hkey⟩

theorem GraphDraft.pairwise_referenced : d.referenced.Pairwise (· < ·) := by
  have hsorted : d.referenced.Pairwise (· ≤ ·) := List.pairwise_insertionSort _ _
  have hnodup : d.referenced.Nodup := (List.perm_insertionSort _ _).nodup_iff.2 (List.nodup_dedup _)
  exact hsorted.imp₂ (fun _ _ hle hne => lt_of_le_of_ne hle hne) hnodup

/-- Every edge comes before those that the cut leaves out. -/
theorem GraphDraft.selectedEdges_best {x : (String × String) × GraphEdge} (hx : x ∈ d.edges)
    (hleft : x.2 ∉ d.selectedEdges) {e : GraphEdge} (he : e ∈ d.selectedEdges) :
    edgePriority e ≤ edgePriority x.2 := by
  have hsorted : ((d.edges.map (·.2)).insertionSort fun a b => edgePriority a ≤ edgePriority b).Pairwise
      fun a b => edgePriority a ≤ edgePriority b := List.pairwise_insertionSort _ _
  rw [← List.take_append_drop maxPersistedEdges ((d.edges.map (·.2)).insertionSort _)] at hsorted
  have hmem : x.2 ∈ (d.edges.map (·.2)).insertionSort fun a b => edgePriority a ≤ edgePriority b :=
    (List.mem_insertionSort _).2 (List.mem_map.2 ⟨x, hx, rfl⟩)
  rw [← List.take_append_drop maxPersistedEdges ((d.edges.map (·.2)).insertionSort _)] at hmem
  exact (List.pairwise_append.1 hsorted).2.2 e he x.2 ((List.mem_append.1 hmem).resolve_left hleft)

/-- The nodes of keys that all have one keep the keys. -/
theorem map_key_filterMap {keys : List String} {nodes : List (String × GraphNode)}
    (h : ∀ key ∈ keys, ∃ n, nodes.lookup key = some n ∧ n.key = key) :
    (keys.filterMap fun key => nodes.lookup key).map (·.key) = keys := by
  induction keys with
  | nil => rfl
  | cons key keys ih =>
    obtain ⟨n, hlookup, hkey⟩ := h key (.head _)
    have hrest := ih fun key' hkey' => h key' (.tail _ hkey')
    simp only [List.filterMap_cons, hlookup, List.map_cons, hkey, hrest]

theorem stored_of_calls (hsnapshot : Snapshot fields)
    (hfounded : Founded texts fields model answers calls) (htaxonomy : taxonomyCalls texts fields ⊆ calls) :
    (GraphDraft.empty.runAll calls).persisted.Stored fields (GraphDraft.empty.runAll calls) := by
  have hholds : GraphDraft.Holds calls (GraphDraft.empty.runAll calls) := GraphDraft.holds_runAll
  have hfiled : (GraphDraft.empty.runAll calls).Filed texts fields :=
    filed_empty.runAll hsnapshot hfounded.node
  generalize GraphDraft.empty.runAll calls = d at hholds hfiled ⊢
  have hedge : ∀ e ∈ d.selectedEdges, ∃ e', .edge e' ∈ calls ∧ e'.Proper ∧ e'.candidate = e := by
    intro e he
    obtain ⟨x, hx, rfl⟩ := d.mem_of_mem_selectedEdges he
    obtain ⟨e', hmem, hproper, -, hcandidate⟩ := hholds.offered _ _ (lookup_of_mem hholds.edges_nodup hx)
    exact ⟨e', hmem, hproper, hcandidate⟩
  -- every end of an edge has a node
  have hnode : ∀ key ∈ d.referenced, ∃ n, d.nodes.lookup key = some n ∧ n.key = key := by
    intro key hkey
    obtain ⟨e, he, hend⟩ := d.mem_referenced.1 hkey
    obtain ⟨e', hmem, -, rfl⟩ := hedge e he
    have hends : key = e'.source ∨ key = e'.target := by
      rcases hend with rfl | rfl
      · exact min_choice e'.source e'.target
      · exact max_choice e'.source e'.target
    have hcalled : HasKey calls key := by
      obtain ⟨hsource, htarget⟩ := hfounded.ends e' hmem
      rcases hends with rfl | rfl
      · exact hsource.elim id fun h => (mem_of_offersKey h).subset htaxonomy
      · exact htarget.elim id fun h => (mem_of_offersKey h).subset htaxonomy
    obtain ⟨x, hx, rfl⟩ := List.mem_map.1 ((hholds.node key).2 hcalled)
    have hlookup := lookup_of_mem hholds.nodes_nodup hx
    exact ⟨x.2, hlookup, (hfiled _ _ hlookup).1⟩
  have hshape : ∀ n ∈ d.persisted.nodes, PhraseShape texts n ∨ OptionShape fields n := by
    intro n hn
    obtain ⟨key, -, hlookup⟩ := List.mem_filterMap.1 hn
    exact (hfiled key n hlookup).2
  have hkeys : d.persisted.nodes.map (·.key) = d.referenced := map_key_filterMap hnode
  constructor
  · intro n hn
    rcases hshape n hn with ⟨-, hphrase⟩ | ⟨hkind, field, hfield, o, ho, hnfield, hvalue, hkey⟩
    · exact .inl hphrase
    · exact .inr ⟨hkind, field.key, o.key, hnfield, hvalue, hkey, mem_allowedValues hsnapshot hfield ho⟩
  · intro n hn hproduct value hvalue
    rcases hshape n hn with ⟨-, -, hnone, -⟩ | ⟨-, field, -, o, ho, hnfield, hnvalue, -⟩
    · rw [hnone] at hproduct
      cases hproduct
    · obtain rfl := Option.some.inj (hnvalue.symm.trans hvalue)
      exact TaxonomyField.not_forbidden ho (Option.some.inj (hnfield.symm.trans hproduct))
  · rw [hkeys]
    exact d.pairwise_referenced
  · intro key
    rw [hkeys]
    exact d.mem_referenced
  · intro e he
    obtain ⟨e', -, hproper, rfl⟩ := hedge e he
    obtain ⟨hlow, hhigh⟩ := edgeWeight_mem e'.weight
    exact ⟨hproper.ends_lt, hlow, hhigh, le_max_left _ _⟩
  · -- two edges of the dictionary have different ends
    have hends : ∀ x ∈ d.edges, x.2.ends = x.1 := by
      intro x hx
      obtain ⟨e', -, -, hends, hcandidate⟩ := hholds.offered _ _ (lookup_of_mem hholds.edges_nodup hx)
      rw [← hcandidate, GraphEdge.ends_candidate, hends]
    have hapart : (d.edges.map (·.2)).Pairwise fun e f => e.ends ≠ f.ends := by
      rw [List.pairwise_map]
      refine (List.pairwise_map.1 hholds.edges_nodup).imp_of_mem ?_
      intro x y hx hy hne heq
      exact hne ((hends x hx).symm.trans (heq.trans (hends y hy)))
    have hselected : d.selectedEdges.Pairwise fun e f => e.ends ≠ f.ends :=
      (hapart.perm (List.perm_insertionSort _ _).symm (fun h => h.symm)).sublist (List.take_sublist _ _)
    refine hselected.imp ?_
    intro e f hne hjoins
    exact hne (GraphEdge.joins_iff_ends.1 hjoins).symm
  · show d.selectedEdges.length = _
    rw [GraphDraft.selectedEdges, List.length_take, List.length_insertionSort, List.length_map]
  · intro x hx hleft e he
    exact d.selectedEdges_best hx hleft he

end Stored

end Graph

/-! ## The graph that is built -/

section Built

variable {texts : Texts} {fields : List TaxonomyField} {model : LearnedModel} {answers : List AiEdge}
variable {learned : List GraphCall} {d : GraphDraft}

/-- The calls of `build_deterministic_graph`, given those for the learned model. -/
def baseCalls (texts : Texts) (fields : List TaxonomyField) (learned : List GraphCall) : List GraphCall :=
  taxonomyCalls texts fields ++ learned ++ indianContexts.flatMap (contextCalls texts fields)

/-- All calls. -/
def allCalls (texts : Texts) (fields : List TaxonomyField) (answers : List AiEdge)
    (learned : List GraphCall) : List GraphCall :=
  baseCalls texts fields learned ++
    (answers.filterMap (AiEdge.clean texts
      (GraphDraft.empty.runAll (baseCalls texts fields learned)).targets)).flatMap (aiCalls texts)

theorem buildGraph_eq_ok : buildGraph texts fields model answers = .ok d ↔
    ∃ learned, learnedCalls texts fields model = .ok learned ∧
      GraphDraft.empty.runAll (allCalls texts fields answers learned) = d := by
  have happend : ∀ calls calls', GraphDraft.empty.runAll (calls ++ calls') =
      (GraphDraft.empty.runAll calls).runAll calls' := fun _ _ => List.foldl_append
  unfold buildGraph buildDeterministicGraph deterministicCalls
  rw [map_eq_ok]
  constructor
  · rintro ⟨base, hbase, rfl⟩
    obtain ⟨calls, hcalls, rfl⟩ := map_eq_ok.1 hbase
    obtain ⟨learned, hlearned, rfl⟩ := map_eq_ok.1 hcalls
    exact ⟨learned, hlearned, happend _ _⟩
  · rintro ⟨learned, hlearned, rfl⟩
    refine ⟨_, map_eq_ok.2 ⟨_, map_eq_ok.2 ⟨learned, hlearned, rfl⟩, rfl⟩, ?_⟩
    exact (happend _ _).symm

theorem founded_baseCalls (h : learnedCalls texts fields model = .ok learned) :
    Founded texts fields model answers (baseCalls texts fields learned) :=
  (founded_taxonomyCalls.append (founded_learnedCalls h)).append
    (.flatMap fun _ hentry => founded_contextCalls hentry)

theorem taxonomyCalls_subset : taxonomyCalls texts fields ⊆ baseCalls texts fields learned := by
  intro c hc
  exact List.mem_append_left _ (List.mem_append_left _ hc)

/-- A model may name the options as its targets. -/
theorem mem_baseTargets (hsnapshot : Snapshot fields)
    (h : learnedCalls texts fields model = .ok learned) {key : String} :
    key ∈ (GraphDraft.empty.runAll (baseCalls texts fields learned)).targets ↔ OffersKey fields key := by
  have hbase : Founded texts fields model [] (baseCalls texts fields learned) := founded_baseCalls h
  exact mem_targets hsnapshot hbase taxonomyCalls_subset

theorem founded_allCalls (hsnapshot : Snapshot fields)
    (h : learnedCalls texts fields model = .ok learned) :
    Founded texts fields model answers (allCalls texts fields answers learned) := by
  refine (founded_baseCalls h).append (.flatMap fun e he => ?_)
  obtain ⟨answer, hanswer, hclean⟩ := List.mem_filterMap.1 he
  exact founded_answerCalls hanswer (fun key hkey => (mem_baseTargets hsnapshot h).1 hkey) hclean

/-- The calls for a term of the model. -/
theorem exists_termCalls {term : String} {edges : List Search.LearnedEdge}
    (h : learnedCalls texts fields model = .ok learned) (hentry : (term, edges) ∈ model)
    (hterm : texts.normalizeQuery term ≠ "") :
    ∃ pairs, (combinations (knownEdges fields edges)).mapM cooccurrenceCall = .ok pairs ∧
      (knownEdges fields edges).flatMap (correlationCalls texts (texts.normalizeQuery term)) ++
        pairs.filterMap id ⊆ learned := by
  obtain ⟨parts, hparts, rfl⟩ := map_eq_ok.1 h
  obtain ⟨part, hpart, hcalls⟩ := mem_mapM_of_mem hparts hentry
  rw [termCalls, if_neg hterm] at hcalls
  obtain ⟨pairs, hpairs, rfl⟩ := map_eq_ok.1 hcalls
  exact ⟨pairs, hpairs, fun c hc => List.mem_flatten.2 ⟨_, hpart, hc⟩⟩

theorem mem_pairs {edges : List Search.LearnedEdge} {left right : Search.LearnedEdge} {weight : ℚ}
    {pairs : List (Option GraphCall)}
    (hpairs : (combinations (knownEdges fields edges)).mapM cooccurrenceCall = .ok pairs)
    (hpair : (left, right) ∈ combinations (knownEdges fields edges))
    (hfields : fieldPart (learnedNode left) ≠ fieldPart (learnedNode right))
    (hweight : squareRoot (left.confidence * right.confidence) = .ok weight) :
    .edge (cooccurrenceEdge left right weight) ∈ pairs.filterMap id := by
  obtain ⟨r, hr, hcall⟩ := mem_mapM_of_mem hpairs hpair
  have hsome : cooccurrenceCall (left, right) = .ok (some (.edge (cooccurrenceEdge left right weight))) :=
    cooccurrenceCall_eq_some.2 ⟨hfields, weight, hweight, rfl⟩
  obtain rfl := Except.ok.inj (hcall.symm.trans hsome)
  exact List.mem_filterMap.2 ⟨_, hr, rfl⟩

/-- All evidence is offered as an edge. -/
theorem exists_call_of_evidence (hsnapshot : Snapshot fields)
    (h : learnedCalls texts fields model = .ok learned) {a b : String} {raw : ℚ}
    (hevidence : GraphEvidence texts fields model answers a b raw) :
    ∃ e, .edge e ∈ allCalls texts fields answers learned ∧ e.Joins a b ∧ e.weight = raw := by
  have hbase : ∀ c ∈ baseCalls texts fields learned, c ∈ allCalls texts fields answers learned :=
    fun c hc => List.mem_append_left _ hc
  have hlearned : ∀ c ∈ learned, c ∈ allCalls texts fields answers learned :=
    fun c hc => hbase c (List.mem_append_left _ (List.mem_append_right _ hc))
  have hcontext : ∀ entry ∈ indianContexts, ∀ c ∈ contextCalls texts fields entry,
      c ∈ allCalls texts fields answers learned := fun entry hentry c hc =>
    hbase c (List.mem_append_right _ (List.mem_flatMap.2 ⟨entry, hentry, hc⟩))
  have hanswers : ∀ answer ∈ answers, 2 ≤ (answer.shortConcept texts).length →
      OffersKey fields answer.target → ∀ c ∈ aiCalls texts (answer.cleaned texts),
        c ∈ allCalls texts fields answers learned := by
    intro answer hanswer hlength htarget c hc
    have htargets := (mem_baseTargets hsnapshot h).2 htarget
    refine List.mem_append_right _ (List.mem_flatMap.2 ⟨answer.cleaned texts, ?_, hc⟩)
    exact List.mem_filterMap.2 ⟨answer, hanswer, clean_eq_some.2 ⟨⟨hlength, htargets⟩, rfl⟩⟩
  induction hevidence with
  | symm _ ih =>
    obtain ⟨e, hmem, hjoins, hweight⟩ := ih
    exact ⟨e, hmem, hjoins.symm, hweight⟩
  | @names field o name hfield ho hname hlength =>
    refine ⟨nameEdge texts (texts.normalizeQuery name) field.key o, ?_, .inl ⟨rfl, rfl⟩, rfl⟩
    refine hbase _ (taxonomyCalls_subset (List.mem_flatMap.2 ⟨field, hfield, List.mem_flatMap.2 ⟨o, ho, ?_⟩⟩))
    refine List.mem_cons_of_mem _ (List.mem_flatMap.2 ⟨name, List.mem_eraseDups.2 hname, ?_⟩)
    rw [nameCalls, if_neg (not_lt.2 hlength)]
    exact .tail _ (.head _)
  | @correlation term edges l hentry hterm hl hallowed =>
    obtain ⟨pairs, -, hsubset⟩ := exists_termCalls h hentry hterm
    refine ⟨correlationEdge texts (texts.normalizeQuery term) l, hlearned _ (hsubset ?_),
      .inl ⟨rfl, rfl⟩, rfl⟩
    exact List.mem_append_left _
      (List.mem_flatMap.2 ⟨l, mem_knownEdges.2 ⟨hl, hallowed⟩, .tail _ (.head _)⟩)
  | @cooccurrence term edges left right weight hentry hterm hleft hleftAllowed hright hrightAllowed
      hfields hweight =>
    obtain ⟨pairs, hpairs, hsubset⟩ := exists_termCalls h hentry hterm
    have hne : left ≠ right := fun heq => hfields (heq ▸ rfl)
    -- one of the two orders of the values is a combination
    rcases mem_combinations_or (mem_knownEdges.2 ⟨hleft, hleftAllowed⟩)
      (mem_knownEdges.2 ⟨hright, hrightAllowed⟩) hne with hpair | hpair
    · exact ⟨cooccurrenceEdge left right weight,
        hlearned _ (hsubset (List.mem_append_right _ (mem_pairs hpairs hpair hfields hweight))),
        .inl ⟨rfl, rfl⟩, rfl⟩
    · rw [mul_comm] at hweight
      exact ⟨cooccurrenceEdge right left weight,
        hlearned _ (hsubset (List.mem_append_right _ (mem_pairs hpairs hpair hfields.symm hweight))),
        .inr ⟨rfl, rfl⟩, rfl⟩
  | @means concept tags hentry =>
    exact ⟨meansEdge texts concept "india-baseline", hcontext _ hentry _
      (List.mem_append_left _ (.tail _ (.tail _ (.head _)))), .inl ⟨rfl, rfl⟩, rfl⟩
  | @context concept tags tag hentry htag hallowed =>
    refine ⟨contextEdge texts concept tag, hcontext _ hentry _ (List.mem_append_right _ ?_),
      .inl ⟨rfl, rfl⟩, rfl⟩
    exact List.mem_map.2 ⟨tag, List.mem_filter.2 ⟨htag, decide_eq_true hallowed⟩, rfl⟩
  | @answerMeans answer hanswer hlength htarget =>
    refine ⟨meansEdge texts (answer.cleaned texts).concept "openai",
      hanswers answer hanswer hlength htarget _ ?_, .inl ⟨rfl, rfl⟩, rfl⟩
    exact List.mem_append_left _ (.tail _ (.tail _ (.head _)))
  | @answer answer hanswer hlength htarget =>
    exact ⟨aiEdge texts (answer.cleaned texts),
      hanswers answer hanswer hlength htarget _ (List.mem_append_right _ (.head _)), .inl ⟨rfl, rfl⟩, rfl⟩

/-- Two nodes of the graph are joined by an edge that weighs as much as the best evidence for joining
them, and by none if there is no evidence. -/
theorem edge_iff_isGreatest (hsnapshot : Snapshot fields)
    (h : buildGraph texts fields model answers = .ok d) (a b : String) (weight : ℚ) :
    (∃ x ∈ d.edges, x.2.Joins a b ∧ x.2.weight = weight) ↔
      IsGreatest {w | ∃ raw, GraphEvidence texts fields model answers a b raw ∧ w = edgeWeight raw} weight := by
  obtain ⟨learned, hlearned, rfl⟩ := buildGraph_eq_ok.1 h
  exact isGreatest_of_calls (founded_allCalls hsnapshot hlearned) fun a b raw =>
    exists_call_of_evidence hsnapshot hlearned

/-- The graph that is stored is well formed, whatever was learned and whatever a model answers. -/
theorem persisted_stored (hsnapshot : Snapshot fields)
    (h : buildGraph texts fields model answers = .ok d) : d.persisted.Stored fields d := by
  obtain ⟨learned, hlearned, rfl⟩ := buildGraph_eq_ok.1 h
  have hsubset : taxonomyCalls texts fields ⊆ allCalls texts fields answers learned :=
    fun c hc => List.mem_append_left _ (taxonomyCalls_subset hc)
  exact stored_of_calls hsnapshot (founded_allCalls hsnapshot hlearned) hsubset

end Built

/-! ### A graph of one style -/

namespace GraphSample

def texts : Texts where
  normalizeQuery := fun text => text.toLower
  redactQuery := id
  wordChar := Char.isAlphanum
  split := fun text => text.splitOn " "
  digest := id

def option (key label : String) : TaxonomyOption := ⟨key, label, []⟩

def field (key : String) (options : List TaxonomyOption) : TaxonomyField where
  key := key
  label := key
  storage := some "product_metadata"
  dataType := some "multi_select"
  maxSelections := none
  aiAllowed := true
  options := options

/-- A field of two styles, and one of which the only option is forbidden. -/
def fields : List TaxonomyField :=
  [field "style" [option "ethnic" "Ethnic", option "formal" "Formal"],
    field "product_type" [option "bra" "Bra"]]

theorem snapshot : Snapshot fields where
  nodup := by decide
  field_ne := by decide
  option_ne := by
    intro f hf o ho
    have hkeys : (fields.all fun f => f.options.all fun o => o.key ≠ "") = true := by decide
    have hall := List.all_eq_true.1 hkeys f hf
    exact of_decide_eq_true (List.all_eq_true.1 hall o ho)

/-- What was learned of sarees names one style and, wrongly, a forbidden product type. -/
def model : LearnedModel := [("Saree", [⟨"style", "ethnic", 9 / 10, 12⟩, ⟨"product_type", "bra", 8 / 10, 4⟩])]

/-- One answer names a style, the other what is no option. -/
def answers : List AiEdge :=
  [⟨"puja", taxonomyNode "style" "ethnic", 7 / 10, "", "worn to temples"⟩,
    ⟨"puja", taxonomyNode "style" "boho", 1, "", ""⟩]

theorem learns : ∃ learned, learnedCalls texts fields model = .ok learned := by
  obtain ⟨learned, h, -⟩ := exists_ok_of_any (learnedCalls texts fields model) (fun _ => true) (by decide +kernel)
  exact ⟨learned, h⟩

theorem builds : ∃ d, buildGraph texts fields model answers = .ok d := by
  obtain ⟨learned, hlearned⟩ := learns
  exact ⟨_, buildGraph_eq_ok.2 ⟨learned, hlearned, rfl⟩⟩

end GraphSample

open GraphSample in
theorem edge_iff_isGreatest_saree : ∃ d, buildGraph texts fields model answers = .ok d ∧
    ((∃ x ∈ d.edges, x.2.Joins (phraseNode texts "term" "saree") (taxonomyNode "style" "ethnic") ∧
        x.2.weight = 9 / 10) ↔
      IsGreatest {w | ∃ raw, GraphEvidence texts fields model answers (phraseNode texts "term" "saree")
        (taxonomyNode "style" "ethnic") raw ∧ w = edgeWeight raw} (9 / 10)) := by
  obtain ⟨d, h⟩ := builds
  exact ⟨d, h, edge_iff_isGreatest snapshot h _ _ _⟩

open GraphSample in
theorem persisted_stored_saree : ∃ d, buildGraph texts fields model answers = .ok d ∧
    d.persisted.Stored fields d := by
  obtain ⟨d, h⟩ := builds
  exact ⟨d, h, persisted_stored snapshot h⟩

end Reconciler

end Stylme
