-- SUMMARY: Nodes and edges of the search graph, with the indexes its readers build and the text functions they use.
import Stylme.Lib.Binary64
import Stylme.Lib.WholeWord
import Stylme.Reconciler.Retags

/-!
# The search graph

Nodes are taxonomy values, terms and concepts, told apart by their keys; edges are read in
both directions.
-/

namespace Stylme

open Conc Backend

namespace Reconciler

/-! ## Texts -/

/-- The functions of the service that depend on Unicode or on a hash. -/
structure Texts where
  normalizeQuery : String → String
  redactQuery : String → String
  /-- `\w` matches the character. -/
  wordChar : Char → Bool
  /-- `str.split` of a text on blanks -/
  split : String → List String
  /-- The first 20 hexadecimal digits of the text's SHA-256. -/
  digest : String → String

/-- `re.search(rf"(?<!\w){re.escape(term)}(?!\w)", text)` -/
def Texts.hasWord (texts : Texts) (term text : String) : Bool :=
  occursWord texts.wordChar term.toList none text.toList

/-! ## Numbers -/

/-- Python's `round(x, 4)`. -/
def roundFour (x : ℚ) : ℚ := Binary64.roundEven (x * 10000) / 10000

theorem roundFour_mono {x y : ℚ} (h : x ≤ y) : roundFour x ≤ roundFour y := by
  unfold roundFour
  have hscaled : x * 10000 ≤ y * 10000 := mul_le_mul_of_nonneg_right h (by norm_num)
  have hround : (Binary64.roundEven (x * 10000) : ℚ) ≤ Binary64.roundEven (y * 10000) :=
    Int.cast_le.2 (Binary64.roundEven_mono hscaled)
  exact div_le_div_of_nonneg_right hround (by norm_num)

/-! ## Nodes and edges -/

inductive NodeKind where
  | taxonomy
  | term
  | concept
  deriving DecidableEq

structure GraphNode where
  key : String
  kind : Option NodeKind := none
  field : Option String := none
  value : Option String := none
  label : Option String := none
  market : Option String := none
  terms : List String := []
  deriving DecidableEq

structure GraphEdge where
  source : String
  target : String
  weight : ℚ
  relation : String
  evidenceSource : String
  support : Int
  rationale : Option String := none
  deriving DecidableEq

structure SearchGraph where
  nodes : List GraphNode
  edges : List GraphEdge

def taxonomyNode (field value : String) : String := "tax::" ++ field ++ "::" ++ value

/-- `_allowed_taxonomy_values`, looked up for a field -/
def allowedValues (fields : List TaxonomyField) (field : String) : List String :=
  (lookupField fields field).elim [] (·.options.map (·.key))

/-- The edge joins the two nodes, in either direction. -/
def GraphEdge.Joins (e : GraphEdge) (a b : String) : Prop :=
  (e.source = a ∧ e.target = b) ∨ (e.source = b ∧ e.target = a)

namespace SearchGraph

variable (g : SearchGraph)

/-- `graph_nodes.get(key)`: of several nodes with the key, the last one. -/
def node (key : String) : Option GraphNode := (g.nodes.filter (·.key = key)).getLast?

/-- What one edge adds to `graph_adjacency[key]`. -/
def endsAt (key : String) (e : GraphEdge) : List (String × GraphEdge) :=
  (if e.source = key then [(e.target, e)] else []) ++ if e.target = key then [(e.source, e)] else []

/-- `graph_adjacency.get(key, [])` -/
def adjacent (key : String) : List (String × GraphEdge) := g.edges.flatMap (endsAt key)

variable {g} {key neighbour : String} {e : GraphEdge}

theorem mem_adjacent : (neighbour, e) ∈ g.adjacent key ↔ e ∈ g.edges ∧ e.Joins key neighbour := by
  unfold adjacent endsAt GraphEdge.Joins
  rw [List.mem_flatMap]
  constructor
  · rintro ⟨e', he', hmem⟩
    rcases List.mem_append.1 hmem with hmem | hmem
    · split at hmem
      · rename_i hsource
        obtain ⟨rfl, rfl⟩ := Prod.mk.inj (List.mem_singleton.1 hmem)
        exact ⟨he', .inl ⟨hsource, rfl⟩⟩
      · exact absurd hmem List.not_mem_nil
    · split at hmem
      · rename_i htarget
        obtain ⟨rfl, rfl⟩ := Prod.mk.inj (List.mem_singleton.1 hmem)
        exact ⟨he', .inr ⟨rfl, htarget⟩⟩
      · exact absurd hmem List.not_mem_nil
  · rintro ⟨he, ⟨hsource, htarget⟩ | ⟨hsource, htarget⟩⟩
    · exact ⟨e, he, List.mem_append_left _ (by rw [if_pos hsource, htarget]; exact .head _)⟩
    · exact ⟨e, he, List.mem_append_right _ (by rw [if_pos htarget, hsource]; exact .head _)⟩

theorem node_mem {n : GraphNode} (h : g.node key = some n) : n ∈ g.nodes ∧ n.key = key := by
  have hmem := List.mem_of_getLast? h
  exact ⟨List.mem_of_mem_filter hmem, of_decide_eq_true (List.mem_filter.1 hmem).2⟩

/-- The nodes that name a taxonomy value are taxonomy nodes under its key, and the value is an
option of its field. -/
def BuiltFrom (g : SearchGraph) (fields : List TaxonomyField) : Prop :=
  ∀ n ∈ g.nodes, (n.kind ≠ some .taxonomy ∧ n.field = none ∧ n.value = none) ∨
    (n.kind = some .taxonomy ∧ ∃ field value, n.field = some field ∧ n.value = some value ∧
      n.key = taxonomyNode field value ∧ value ∈ allowedValues fields field)

end SearchGraph

end Reconciler

end Stylme
