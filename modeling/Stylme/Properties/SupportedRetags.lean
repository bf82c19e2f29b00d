-- SUMMARY: When a tag that the catalogue supports is among the candidates, and how a heavier edge hides the support.
import Stylme.Properties.ProposalBudget

/-!
# Supported retags

The loop keeps one edge for each target, the first of the heaviest, and tests both
thresholds on it. An edge with enough weight and support counts for nothing behind a
heavier edge whose support is low.
-/

namespace Stylme

open Conc Backend

namespace Reconciler

section

variable {texts : Texts} {fields : List TaxonomyField} {g : SearchGraph} {p : Product}
variable {existing : List String} {target : String} {signal : TargetSignal}

/-- An edge of enough weight and support joins the target to a node that the product has. -/
def Supported (fields : List TaxonomyField) (g : SearchGraph) (p : Product) (target : String) :
    Prop :=
  ∃ e ∈ g.edges, ∃ neighbour, e.Joins target neighbour ∧ Names fields p.tags neighbour ∧
    e.relation = "catalogue-cooccurrence" ∧ 86 / 100 ≤ e.weight ∧ 50 ≤ e.support

/-- The first of the heaviest edges between the target and what the product has lacks support. -/
def Shadowed (g : SearchGraph) (existing : List String) (target : String) : Prop :=
  ∃ before e after, cooccurrences g existing target = before ++ e :: after ∧
    (∀ x ∈ before, x.weight < e.weight) ∧ (∀ x ∈ after, x.weight ≤ e.weight) ∧ e.support < 50

/-- If the loop reads the product's values for the target, they are something to iterate over. -/
def Readable (fields : List TaxonomyField) (g : SearchGraph) (p : Product)
    (existing : List String) (target : String) : Prop :=
  ∀ n document, target ∉ existing → n = (g.node target).getD { key := target } →
    n.field.getD "" ∈ retaggableProductMetadataFields →
    lookupField fields (n.field.getD "") = some document → document.retaggable = true →
    ∃ current, listOf (p.metadata.lookup (n.field.getD "")) = .ok current

/-! ## Turns that raise nothing -/

theorem candidate_ok_iff : (∃ draft, candidate texts fields g p existing target signal = .ok draft) ↔
    Readable fields g p existing target := by
  constructor
  · rintro ⟨draft, h⟩ n document habsent rfl hfield hdocument hretaggable
    unfold candidate at h
    rw [if_neg habsent] at h
    dsimp only at h
    rw [if_neg (not_not_intro hfield), hdocument, Option.filter_some, if_pos hretaggable] at h
    dsimp only at h
    split at h
    · cases h
    · rename_i current hcurrent
      exact ⟨current, hcurrent⟩
  · intro hreadable
    unfold candidate
    split
    · exact ⟨none, rfl⟩
    · rename_i habsent
      dsimp only
      split
      · exact ⟨none, rfl⟩
      · rename_i hfield
        split
        · exact ⟨none, rfl⟩
        · rename_i document hdocument
          obtain ⟨hdocument, hretaggable⟩ := Option.filter_eq_some_iff.1 hdocument
          obtain ⟨current, hcurrent⟩ :=
            hreadable _ document habsent rfl (not_not.1 hfield) hdocument hretaggable
          rw [hcurrent]
          dsimp only
          split
          · exact ⟨none, rfl⟩
          · exact ⟨_, rfl⟩

theorem candidates_ok_iff {entries : List (String × TargetSignal)} :
    (∃ output, candidates texts fields g p existing entries = .ok output) ↔
      ∀ x ∈ entries, Readable fields g p existing x.1 := by
  induction entries with
  | nil => exact ⟨fun _ x hx => absurd hx List.not_mem_nil, fun _ => ⟨[], rfl⟩⟩
  | cons x entries ih =>
    obtain ⟨target, signal⟩ := x
    rw [List.forall_mem_cons, ← ih, ← @candidate_ok_iff texts fields g p existing target signal,
      candidates]
    constructor
    · rintro ⟨output, h⟩
      split at h
      · rename_i draft drafts hdraft hdrafts
        exact ⟨⟨draft, hdraft⟩, drafts, hdrafts⟩
      · cases h
      · cases h
    · rintro ⟨⟨draft, hdraft⟩, drafts, hdrafts⟩
      rw [hdraft, hdrafts]
      exact ⟨_, rfl⟩

/-! ## Turns with evidence -/

theorem suggestion_isSome_iff {field value : String} {direct : Option String}
    {best : Option GraphEdge} : (∃ d, suggestion existing field value signal direct best = some d) ↔
      (∃ term, direct = some term) ∨ ∃ e, best = some e ∧ minRetagCooccurrenceWeight ≤ e.weight ∧
        minRetagCooccurrenceSupport ≤ e.support := by
  constructor
  · rintro ⟨d, h⟩
    obtain ⟨-, -, ⟨term, hdirect, -⟩ | ⟨e, hbest, hweight, hsupport, -⟩⟩ := suggestion_spec h
    · exact .inl ⟨term, hdirect⟩
    · exact .inr ⟨e, hbest, hweight, hsupport⟩
  · rintro (⟨term, rfl⟩ | ⟨e, rfl, hweight, hsupport⟩)
    · exact ⟨_, rfl⟩
    · cases direct with
      | some term => exact ⟨_, rfl⟩
      | none =>
        have hthresholds : ¬ (e.weight < minRetagCooccurrenceWeight ∨
            e.support < minRetagCooccurrenceSupport) :=
          not_or.2 ⟨not_lt.2 hweight, not_lt.2 hsupport⟩
        exact ⟨_, if_neg hthresholds⟩

theorem directTerm_isSome_iff {n : GraphNode} {text : String} :
    (∃ term, directTerm texts n text = some term) ↔
      ∃ term ∈ n.terms, 3 ≤ term.length ∧ texts.hasWord term text = true := by
  unfold directTerm
  rw [← Option.isSome_iff_exists, List.find?_isSome]
  constructor
  · rintro ⟨term, hmem, hoccurs⟩
    obtain ⟨hterm, hlength⟩ := List.mem_filter.1 hmem
    exact ⟨term, hterm, of_decide_eq_true hlength, hoccurs⟩
  · rintro ⟨term, hterm, hlength, hoccurs⟩
    exact ⟨term, List.mem_filter.2 ⟨hterm, decide_eq_true hlength⟩, hoccurs⟩

theorem supported_iff (hexisting : productNodes fields p = .ok existing) :
    Supported fields g p target ↔
      ∃ e ∈ cooccurrences g existing target, 86 / 100 ≤ e.weight ∧ 50 ≤ e.support := by
  constructor
  · rintro ⟨e, hedge, neighbour, hjoins, hnames, hrelation, hthresholds⟩
    refine ⟨e, List.mem_map.2 ⟨(neighbour, e), List.mem_filter.2 ⟨?_, ?_⟩, rfl⟩, hthresholds⟩
    · exact SearchGraph.mem_adjacent.2 ⟨hedge, hjoins⟩
    · exact decide_eq_true ⟨(mem_nodesOf hexisting).2 hnames, hrelation⟩
  · rintro ⟨e, hmem, hthresholds⟩
    obtain ⟨neighbour, hhas, hedge, hjoins, hrelation⟩ := mem_cooccurrences hmem
    exact ⟨e, hedge, neighbour, hjoins, (mem_nodesOf hexisting).1 hhas, hrelation, hthresholds⟩

/-- Given support, the edge that is kept passes the thresholds unless another one shadows it. -/
theorem bestEdge_passes_iff (h : ∃ e ∈ cooccurrences g existing target,
    86 / 100 ≤ e.weight ∧ 50 ≤ e.support) :
    (∃ e, bestEdge (cooccurrences g existing target) = some e ∧
      minRetagCooccurrenceWeight ≤ e.weight ∧ minRetagCooccurrenceSupport ≤ e.support) ↔
    ¬ Shadowed g existing target := by
  constructor
  · rintro ⟨e, hbest, -, hsupport⟩ ⟨before, e', after, hsplit, hbefore, hafter, hlow⟩
    have hbest' : bestEdge (cooccurrences g existing target) = some e' :=
      hsplit ▸ firstMax_of_split hbefore hafter
    obtain rfl := Option.some.inj (hbest.symm.trans hbest')
    exact absurd hsupport (not_le.2 hlow)
  · intro hshadow
    obtain ⟨e, hmem, hweight, -⟩ := h
    obtain ⟨b, hbest⟩ := Option.isSome_iff_exists.1 (@isSome_firstMax _ _ _ (·.weight) _ _ hmem)
    obtain ⟨before, after, hsplit, hbefore, hafter⟩ := firstMax_split hbest
    refine ⟨b, hbest, hweight.trans ?_, ?_⟩
    · rw [hsplit, List.mem_append, List.mem_cons] at hmem
      rcases hmem with hmem | rfl | hmem
      · exact (hbefore e hmem).le
      · exact le_rfl
      · exact hafter e hmem
    · by_contra hlow
      exact hshadow ⟨before, b, after, hsplit, hbefore, hafter, not_le.1 hlow⟩

/-- A supported target that passes the checks is among the candidates just when the loop raises
nothing and a term of it is in the product's text or no edge shadows the support. -/
theorem supported_ranked_iff {targets : Targets} {n : GraphNode} {document : TaxonomyField}
    {current : List Json} (hexisting : productNodes fields p = .ok existing)
    (htarget : (target, signal) ∈ targets.entries)
    (hadd : Addable fields g p existing target n document current) :
    (Supported fields g p target →
      ∃ output d, candidates texts fields g p existing targets.entries = .ok output ∧
        candidate texts fields g p existing target signal = .ok (some d) ∧ d ∈ output) ↔
    (¬ Supported fields g p target ∨
      ((∀ x ∈ targets.entries, Readable fields g p existing x.1) ∧
        ((∃ term ∈ n.terms, 3 ≤ term.length ∧ texts.hasWord term (productText texts p) = true) ∨
          ¬ Shadowed g existing target))) := by
  have hturn : (∃ d, candidate texts fields g p existing target signal = .ok (some d)) ↔
      (∃ term, directTerm texts n (productText texts p) = some term) ∨
        ∃ e, bestEdge (cooccurrences g existing target) = some e ∧
          minRetagCooccurrenceWeight ≤ e.weight ∧ minRetagCooccurrenceSupport ≤ e.support := by
    rw [candidate_of_addable hadd]
    simp only [Except.ok.injEq]
    exact suggestion_isSome_iff
  by_cases hsupported : Supported fields g p target
  · have hedge := (supported_iff hexisting).1 hsupported
    rw [directTerm_isSome_iff, bestEdge_passes_iff hedge] at hturn
    rw [← hturn, ← @candidates_ok_iff texts fields g p existing targets.entries]
    constructor
    · intro h
      obtain ⟨output, d, houtput, hd, -⟩ := h hsupported
      exact .inr ⟨⟨output, houtput⟩, d, hd⟩
    · rintro (hno | ⟨⟨output, houtput⟩, d, hd⟩) _
      · exact absurd hsupported hno
      · exact ⟨output, d, houtput, hd, (mem_candidates houtput).2 ⟨_, htarget, hd⟩⟩
  · exact ⟨fun _ => .inl hsupported, fun _ h => absurd h hsupported⟩

end

/-! ## A supported tag behind a heavier edge -/

namespace RetagSample

def existing : List String := [taxonomyNode "occasion" "travel"]

theorem addable (edges : List GraphEdge) :
    Addable fields (graph edges) product existing (taxonomyNode "season" "winter")
      (valueNode "season" "winter") (listField "season" ["winter"]) [] where
  absent := by decide
  hasNode := rfl
  hasField := by decide
  hasDocument := rfl
  retaggable := rfl
  reads := rfl
  room := by decide

theorem supported (e : GraphEdge) : Supported fields (graph [e, link (9 / 10) 60]) product
    (taxonomyNode "season" "winter") :=
  ⟨link (9 / 10) 60, .tail _ (.head _), taxonomyNode "occasion" "travel", .inr ⟨rfl, rfl⟩,
    ⟨"occasion", .arr [.str "travel"], "travel", List.mem_append_right _ (.head _), .head _, .head _, rfl⟩,
    rfl, by decide +kernel, by decide⟩

end RetagSample

open RetagSample in
theorem supported_ranked_iff_parka :
    (Supported fields (graph [link (9 / 10) 60]) product (taxonomyNode "season" "winter") →
      ∃ output d, candidates texts fields (graph [link (9 / 10) 60]) product existing
          targets.entries = .ok output ∧
        candidate texts fields (graph [link (9 / 10) 60]) product existing
          (taxonomyNode "season" "winter") ⟨[], 1⟩ = .ok (some d) ∧ d ∈ output) ↔
    (¬ Supported fields (graph [link (9 / 10) 60]) product (taxonomyNode "season" "winter") ∨
      ((∀ x ∈ targets.entries, Readable fields (graph [link (9 / 10) 60]) product existing x.1) ∧
        ((∃ term ∈ (valueNode "season" "winter").terms, 3 ≤ term.length ∧
            texts.hasWord term (productText texts product) = true) ∨
          ¬ Shadowed (graph [link (9 / 10) 60]) existing (taxonomyNode "season" "winter")))) :=
  supported_ranked_iff (p := product) rfl (.head _) (addable _)

open RetagSample in
/-- A heavier edge with little support comes first. -/
theorem not_ranked_shadowed :
    Supported fields (graph [link (95 / 100) 10, link (9 / 10) 60]) product
        (taxonomyNode "season" "winter") ∧
      productNodes fields product = .ok existing ∧
      Addable fields (graph [link (95 / 100) 10, link (9 / 10) 60]) product existing
        (taxonomyNode "season" "winter") (valueNode "season" "winter")
        (listField "season" ["winter"]) [] ∧
      candidates texts fields (graph [link (95 / 100) 10, link (9 / 10) 60]) product existing
        targets.entries = .ok [] := by
  have hdirect : directTerm texts (valueNode "season" "winter") (productText texts product) = none := by
    decide +kernel
  have hbest : bestEdge (cooccurrences (graph [link (95 / 100) 10, link (9 / 10) 60]) existing
      (taxonomyNode "season" "winter")) = some (link (95 / 100) 10) := by
    decide +kernel
  refine ⟨supported _, rfl, addable _, ?_⟩
  rw [targets, candidates, candidate_of_addable (addable _), hdirect, hbest, suggestion,
    if_pos (.inr (by decide))]
  rfl

end Reconciler

end Stylme
