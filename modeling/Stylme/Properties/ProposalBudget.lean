-- SUMMARY: The proposals for a product rest on evidence in the graph, and no field and no product gets too many.
import Stylme.Reconciler.Metadata
import Stylme.Reconciler.Proposals

/-!
# The proposal budget

Whatever the targets and the graph are, `proposals_for_product` offers a product few tags,
each of them allowed, missing on the product and backed by evidence, and the ones it leaves
out rank behind those it offers in the same field.
-/

namespace Stylme

open Conc Backend

namespace Reconciler

/-! ## What a proposal guarantees -/

/-- The evidence recorded for a tag: a term of the tag in the product's text, or an edge to what
the product has. -/
inductive Evidenced (texts : Texts) (fields : List TaxonomyField) (g : SearchGraph) (p : Product)
    (d : ProposalDraft) : Prop
  | direct {n : GraphNode} {term : String} (hasNode : g.node (taxonomyNode d.field d.value) = some n)
      (hasTerm : term ∈ n.terms) (occurs : texts.hasWord term (productText texts p) = true)
      (recorded : d.evidence = directEvidence term)
  | cooccurrence {e : GraphEdge} {neighbour : String} (hasEdge : e ∈ g.edges)
      (joins : e.Joins (taxonomyNode d.field d.value) neighbour)
      (related : e.relation = "catalogue-cooccurrence") (names : Names fields p.tags neighbour)
      (weight : 86 / 100 ≤ e.weight) (support : 50 ≤ e.support)
      (recorded : d.evidence = cooccurrenceEvidence (some neighbour) e)

/-- What holds of each proposal for a product. -/
structure SoundDraft (texts : Texts) (fields : List TaxonomyField) (g : SearchGraph) (p : Product)
    (targets : Targets) (d : ProposalDraft) : Prop where
  targeted : taxonomyNode d.field d.value ∈ targets.entries.map (·.1)
  retaggable : d.field ∈ retaggableProductMetadataFields
  room : ∃ document, lookupField fields d.field = some document ∧
    document.storage = some "product_metadata" ∧ document.aiAllowed = true ∧
    ((p.items d.field).length : Int) < document.limit
  allowed : d.value ∈ allowedValues fields d.field
  absent : .str d.value ∉ p.items d.field
  confidence : 0 ≤ d.confidence ∧ d.confidence ≤ 98 / 100
  evidenced : Evidenced texts fields g p d

/-- What holds of the proposals for a product together. -/
structure SoundDrafts (texts : Texts) (fields : List TaxonomyField) (g : SearchGraph) (p : Product)
    (targets : Targets) (drafts : List ProposalDraft) : Prop where
  sound : ∀ d ∈ drafts, SoundDraft texts fields g p targets d
  perProduct : drafts.length ≤ 12
  perField : ∀ field, drafts.countP (·.field = field) ≤ 2
  distinct : (drafts.map fun d => (d.field, d.value)).Nodup
  fair : ∀ existing output, productNodes fields p = .ok existing →
    candidates texts fields g p existing targets.entries = .ok output →
    ∀ c ∈ output, c ∉ drafts → ∀ d ∈ drafts, d.field = c.field → rankKey d < rankKey c

/-! ## One candidate -/

section Candidate

variable {texts : Texts} {fields : List TaxonomyField} {g : SearchGraph} {p : Product}
variable {existing : List String} {target : String} {signal : TargetSignal} {d : ProposalDraft}

theorem roundFour_confidence {w : ℚ} (h : minRetagCooccurrenceWeight ≤ w) :
    0 ≤ roundFour (min (93 / 100) (w * (96 / 100))) ∧
      roundFour (min (93 / 100) (w * (96 / 100))) ≤ 98 / 100 := by
  have hzero : roundFour 0 = 0 := by decide +kernel
  have htop : roundFour (93 / 100) = 93 / 100 := by decide +kernel
  unfold minRetagCooccurrenceWeight at h
  constructor
  · rw [← hzero]
    exact roundFour_mono (le_min (by norm_num) (by linarith))
  · refine (roundFour_mono (min_le_left _ _)).trans ?_
    rw [htop]
    norm_num

theorem mem_cooccurrences {e : GraphEdge} (h : e ∈ cooccurrences g existing target) :
    ∃ neighbour ∈ existing, e ∈ g.edges ∧ e.Joins target neighbour ∧
      e.relation = "catalogue-cooccurrence" := by
  obtain ⟨⟨neighbour, e'⟩, hmem, rfl⟩ := List.mem_map.1 h
  obtain ⟨hadjacent, hkept⟩ := List.mem_filter.1 hmem
  obtain ⟨hexisting, hrelation⟩ := of_decide_eq_true hkept
  obtain ⟨hedge, hjoins⟩ := SearchGraph.mem_adjacent.1 hadjacent
  exact ⟨neighbour, hexisting, hedge, hjoins, hrelation⟩

/-- The endpoint that the evidence names is the one the product has. -/
theorem find_endpoint {e : GraphEdge} {neighbour : String} (h : e.Joins target neighbour)
    (habsent : target ∉ existing) (hhas : neighbour ∈ existing) :
    [e.source, e.target].find? (· ∈ existing) = some neighbour := by
  rcases h with ⟨rfl, rfl⟩ | ⟨rfl, rfl⟩
  · rw [List.find?_cons_of_neg (by simpa using habsent), List.find?_cons_of_pos (by simpa using hhas)]
  · rw [List.find?_cons_of_pos (by simpa using hhas)]

theorem directTerm_mem {n : GraphNode} {text term : String}
    (h : directTerm texts n text = some term) : term ∈ n.terms ∧ texts.hasWord term text = true := by
  have hmem := List.mem_of_find?_eq_some h
  have hoccurs := @List.find?_some _ (texts.hasWord · text) _ _ h
  exact ⟨List.mem_of_mem_filter hmem, hoccurs⟩

theorem listOf_ok (hlists : ∀ x ∈ p.metadata, ∃ items, x.2 = .arr items) (field : String) :
    ∃ current, listOf (p.metadata.lookup field) = .ok current := by
  cases hlookup : p.metadata.lookup field with
  | none => exact ⟨[], rfl⟩
  | some v =>
    obtain ⟨items, hitems⟩ := hlists _ (mem_of_lookup hlookup)
    exact ⟨items, congrArg (listOf ∘ some) hitems⟩

theorem items_of_listOf {field : String} {current : List Json}
    (hlists : ∀ x ∈ p.metadata, ∃ items, x.2 = .arr items)
    (h : listOf (p.metadata.lookup field) = .ok current) : p.items field = current := by
  unfold Product.items
  cases hlookup : p.metadata.lookup field with
  | none =>
    rw [hlookup] at h
    exact Except.ok.inj h
  | some v =>
    obtain ⟨items, hitems⟩ := hlists _ (mem_of_lookup hlookup)
    dsimp only at hitems
    subst hitems
    rw [hlookup] at h
    exact Except.ok.inj h

theorem suggestion_spec {field value : String} {direct : Option String} {best : Option GraphEdge}
    (h : suggestion existing field value signal direct best = some d) :
    d.field = field ∧ d.value = value ∧
      ((∃ term, direct = some term ∧ d.confidence = roundFour (98 / 100) ∧
        d.evidence = directEvidence term) ∨
      ∃ e, best = some e ∧ minRetagCooccurrenceWeight ≤ e.weight ∧
        minRetagCooccurrenceSupport ≤ e.support ∧
        d.confidence = roundFour (min (93 / 100) (e.weight * (96 / 100))) ∧
        d.evidence = cooccurrenceEvidence ([e.source, e.target].find? (· ∈ existing)) e) := by
  cases direct with
  | some term =>
    obtain rfl := Option.some.inj h
    exact ⟨rfl, rfl, .inl ⟨term, rfl, rfl, rfl⟩⟩
  | none =>
    cases best with
    | none => cases h
    | some e =>
      simp only [suggestion] at h
      split at h
      · cases h
      · rename_i hthresholds
        obtain ⟨hweight, hsupport⟩ := not_or.1 hthresholds
        obtain rfl := Option.some.inj h
        exact ⟨rfl, rfl, .inr ⟨e, rfl, not_lt.1 hweight, not_lt.1 hsupport, rfl, rfl⟩⟩

/-- A node of a field that may be added to is the taxonomy node of its value. -/
theorem addable_node {n : GraphNode} {document : TaxonomyField} {current : List Json}
    (hgraph : g.BuiltFrom fields) (h : Addable fields g p existing target n document current) :
    g.node target = some n ∧ target = taxonomyNode (n.field.getD "") (n.value.getD "") ∧
      n.value.getD "" ∈ allowedValues fields (n.field.getD "") := by
  have hnone : n.field ≠ none := by
    intro hnone
    have hfield := h.hasField
    rw [hnone] at hfield
    exact absurd hfield (by decide)
  cases hnode : g.node target with
  | none =>
    rw [h.hasNode, hnode] at hnone
    exact absurd rfl hnone
  | some n' =>
    have heq : n = n' := by rw [h.hasNode, hnode]; rfl
    subst heq
    obtain ⟨hmem, rfl⟩ := SearchGraph.node_mem hnode
    rcases hgraph n hmem with ⟨-, hfield, -⟩ | ⟨-, field, value, hfield, hvalue, hkey, hallowed⟩
    · exact absurd hfield hnone
    · rw [hfield, hvalue]
      exact ⟨rfl, hkey, hallowed⟩

theorem candidate_sound {targets : Targets} (hgraph : g.BuiltFrom fields)
    (hlists : ∀ x ∈ p.metadata, ∃ items, x.2 = .arr items)
    (hexisting : productNodes fields p = .ok existing) (htarget : (target, signal) ∈ targets.entries)
    (h : candidate texts fields g p existing target signal = .ok (some d)) :
    target = taxonomyNode d.field d.value ∧ SoundDraft texts fields g p targets d := by
  obtain ⟨n, document, current, hadd⟩ := addable_of_candidate h
  rw [candidate_of_addable hadd] at h
  obtain ⟨hnode, hkey, hallowed⟩ := addable_node hgraph hadd
  obtain ⟨hfield, hvalue, hevidence⟩ := suggestion_spec (Except.ok.inj h)
  rw [← hfield] at hkey hallowed
  rw [← hvalue] at hkey hallowed
  have hitems := items_of_listOf hlists hadd.reads
  rw [← hfield] at hitems
  have hretaggable := of_decide_eq_true hadd.retaggable
  refine ⟨hkey, ?_, hfield ▸ hadd.hasField, ?_, hallowed, ?_, ?_, ?_⟩
  · exact hkey ▸ List.mem_map_of_mem htarget
  · refine ⟨document, hfield ▸ hadd.hasDocument, hretaggable.1, hretaggable.2, ?_⟩
    rw [hitems]
    exact hadd.room
  · intro hmem
    refine hadd.absent ((mem_nodesOf hexisting).2 ?_)
    cases hlookup : p.metadata.lookup d.field with
    | none =>
      rw [Product.items, hlookup] at hmem
      exact absurd hmem List.not_mem_nil
    | some raw =>
      obtain ⟨items, hraw⟩ := hlists _ (mem_of_lookup hlookup)
      dsimp only at hraw
      subst hraw
      rw [Product.items, hlookup] at hmem
      exact ⟨d.field, .arr items, d.value, List.mem_append_right _ (mem_of_lookup hlookup), hmem,
        hallowed, hkey⟩
  · rcases hevidence with ⟨-, -, hconfidence, -⟩ | ⟨e, -, hweight, -, hconfidence, -⟩
    · rw [hconfidence]
      have hround : roundFour (98 / 100) = 98 / 100 := by decide +kernel
      rw [hround]
      norm_num
    · rw [hconfidence]
      exact roundFour_confidence hweight
  · rcases hevidence with ⟨term, hdirect, -, hrecorded⟩ | ⟨e, hbest, hweight, hsupport, -, hrecorded⟩
    · obtain ⟨hterm, hoccurs⟩ := directTerm_mem hdirect
      exact .direct (hkey ▸ hnode) hterm hoccurs hrecorded
    · obtain ⟨neighbour, hhas, hedge, hjoins, hrelation⟩ := mem_cooccurrences (mem_of_firstMax hbest)
      rw [find_endpoint hjoins hadd.absent hhas] at hrecorded
      exact .cooccurrence hedge (hkey ▸ hjoins) hrelation ((mem_nodesOf hexisting).1 hhas) hweight
        hsupport hrecorded

end Candidate

/-! ## All candidates -/

section Candidates

variable {texts : Texts} {fields : List TaxonomyField} {g : SearchGraph} {p : Product}
variable {existing : List String} {targets : Targets} {output : List ProposalDraft}

/-- Different targets are different values. -/
theorem nodup_candidates (hgraph : g.BuiltFrom fields)
    (hlists : ∀ x ∈ p.metadata, ∃ items, x.2 = .arr items)
    (hexisting : productNodes fields p = .ok existing)
    (h : candidates texts fields g p existing targets.entries = .ok output) :
    (output.map fun d => (d.field, d.value)).Nodup := by
  have hsublist : ∀ {entries output}, (∀ x ∈ entries, x ∈ targets.entries) →
      candidates texts fields g p existing entries = .ok output →
      List.Sublist (output.map fun d => taxonomyNode d.field d.value) (entries.map (·.1)) := by
    intro entries
    induction entries with
    | nil =>
      intro output _ h
      obtain rfl := Except.ok.inj h
      exact .slnil
    | cons x entries ih =>
      intro output hentries h
      rw [candidates] at h
      split at h
      · rename_i draft drafts hdraft hdrafts
        obtain rfl := Except.ok.inj h
        have hrest := ih (fun y hy => hentries y (List.mem_cons_of_mem _ hy)) hdrafts
        cases draft with
        | none => exact hrest.cons _
        | some d =>
          obtain ⟨hkey, -⟩ := candidate_sound hgraph hlists hexisting (hentries x List.mem_cons_self) hdraft
          rw [List.map_cons, hkey]
          exact hrest.cons_cons _
      · cases h
      · cases h
  have hnodup : (output.map fun d => taxonomyNode d.field d.value).Nodup :=
    (hsublist (fun _ hx => hx) h).nodup targets.nodup
  refine List.Nodup.of_map (fun x : String × String => taxonomyNode x.1 x.2) ?_
  rw [List.map_map]
  exact hnodup

theorem rankKey_ne {a b : ProposalDraft} (h : (a.field, a.value) ≠ (b.field, b.value)) :
    rankKey a ≠ rankKey b := by
  intro heq
  obtain ⟨-, hrest⟩ := Prod.mk.inj (toLex.injective heq)
  obtain ⟨-, hname⟩ := Prod.mk.inj (toLex.injective hrest)
  exact h (toLex.injective hname)

theorem ranked_perm : (ranked output).Perm output := List.perm_insertionSort _ output

theorem pairwise_ranked (h : (output.map fun d => (d.field, d.value)).Nodup) :
    (ranked output).Pairwise fun a b => rankKey a < rankKey b := by
  have hsorted : (ranked output).Pairwise fun a b => rankKey a ≤ rankKey b :=
    List.pairwise_insertionSort _ output
  have hnodup : ((ranked output).map fun d => (d.field, d.value)).Nodup :=
    (ranked_perm.map _).nodup_iff.2 h
  have hne : (ranked output).Pairwise fun a b => (a.field, a.value) ≠ (b.field, b.value) :=
    List.pairwise_map.1 hnodup
  exact hsorted.imp₂ (fun _ _ hle hne => lt_of_le_of_ne hle (rankKey_ne hne)) hne

end Candidates

/-! ## The proposals of a product -/

section Product

variable {texts : Texts} {fields : List TaxonomyField} {g : SearchGraph} {p : Product}
variable {targets : Targets}

theorem soundDrafts (hgraph : g.BuiltFrom fields)
    (hlists : ∀ x ∈ p.metadata, ∃ items, x.2 = .arr items) {drafts : List ProposalDraft}
    (h : proposalsForProduct texts p g targets fields = .ok drafts) :
    SoundDrafts texts fields g p targets drafts := by
  unfold proposalsForProduct at h
  split at h
  · cases h
  · rename_i existing hexisting
    cases houtput : candidates texts fields g p existing targets.entries with
    | error e => rw [houtput] at h; cases h
    | ok output =>
      rw [houtput] at h
      obtain rfl := Except.ok.inj h
      have hdistinct := nodup_candidates hgraph hlists hexisting houtput
      have hsublist : List.Sublist (selected (ranked output)) (ranked output) := capped_sublist
      refine ⟨fun d hd => ?_, length_capped_le, fun field => ?_, ?_, ?_⟩
      · obtain ⟨x, hx, hcandidate⟩ :=
          (mem_candidates houtput).1 (ranked_perm.mem_iff.1 (hsublist.subset hd))
        exact (candidate_sound hgraph hlists hexisting hx hcandidate).2
      · exact @countP_capped_le ProposalDraft String _ (·.field) maxRetagProposalsPerField
          maxRetagProposalsPerProduct (fun _ => 0) (ranked output) field (Nat.zero_le _)
      · exact (hsublist.map _).nodup ((ranked_perm.map _).nodup_iff.2 hdistinct)
      · intro existing' output' hexisting' houtput' c hc hleft d hd hfield
        obtain rfl := Except.ok.inj (hexisting.symm.trans hexisting')
        obtain rfl := Except.ok.inj (houtput.symm.trans houtput')
        exact capped_fair (R := fun a b => rankKey a < rankKey b) (pairwise_ranked hdistinct)
          (ranked_perm.mem_iff.2 hc) hleft hd hfield

/-- Values that can be looked up in a set. -/
def Hashable : Json → Prop
  | .arr _ | .obj _ => False
  | _ => True

theorem knownValues_ok {allowed : List String} {values : List Json} (h : ∀ v ∈ values, Hashable v) :
    ∃ known, knownValues allowed values = .ok known := by
  induction values with
  | nil => exact ⟨[], rfl⟩
  | cons x values ih =>
    obtain ⟨known, hknown⟩ := ih fun v hv => h v (List.mem_cons_of_mem _ hv)
    have hx := h x List.mem_cons_self
    cases x with
    | arr _ | obj _ => exact hx.elim
    | null | bool _ | num _ => exact ⟨known, hknown⟩
    | str s => exact ⟨if s ∈ allowed then s :: known else known, by rw [knownValues, hknown]; rfl⟩

theorem nodesOf_ok {entries : List (String × Json)}
    (h : ∀ x ∈ entries, ∀ v ∈ asList x.2, Hashable v) : ∃ nodes, nodesOf fields entries = .ok nodes := by
  induction entries with
  | nil => exact ⟨[], rfl⟩
  | cons x entries ih =>
    obtain ⟨nodes, hnodes⟩ := ih fun y hy => h y (List.mem_cons_of_mem _ hy)
    obtain ⟨known, hknown⟩ := @knownValues_ok (allowedValues fields x.1) (asList x.2)
      (h x List.mem_cons_self)
    exact ⟨_, by rw [nodesOf, hknown, hnodes]⟩

theorem candidates_ok {existing : List String} {entries : List (String × TargetSignal)}
    (hlists : ∀ x ∈ p.metadata, ∃ items, x.2 = .arr items) :
    ∃ output, candidates texts fields g p existing entries = .ok output := by
  induction entries with
  | nil => exact ⟨[], rfl⟩
  | cons x entries ih =>
    obtain ⟨output, houtput⟩ := ih
    have hturn : ∃ draft, candidate texts fields g p existing x.1 x.2 = .ok draft := by
      unfold candidate
      split
      · exact ⟨none, rfl⟩
      · dsimp only
        split
        · exact ⟨none, rfl⟩
        · split
          · exact ⟨none, rfl⟩
          · obtain ⟨current, hcurrent⟩ := listOf_ok hlists
              ((((g.node x.1).getD { key := x.1 }).field).getD "")
            rw [hcurrent]
            dsimp only
            split
            · exact ⟨none, rfl⟩
            · exact ⟨_, rfl⟩
    obtain ⟨draft, hdraft⟩ := hturn
    exact ⟨_, by rw [candidates, hdraft, houtput]⟩

/-- The proposals for a product whose metadata are lists are sound and within the limits, and
there are such proposals unless a list holds another list or a document. -/
theorem proposalsForProduct_sound (hgraph : g.BuiltFrom fields)
    (hlists : ∀ x ∈ p.metadata, ∃ items, x.2 = .arr items) :
    (∀ drafts, proposalsForProduct texts p g targets fields = .ok drafts →
      SoundDrafts texts fields g p targets drafts) ∧
    ((∀ x ∈ p.metadata, ∀ v ∈ asList x.2, Hashable v) →
      ∃ drafts, proposalsForProduct texts p g targets fields = .ok drafts) := by
  refine ⟨fun drafts => soundDrafts hgraph hlists, fun hhashable => ?_⟩
  obtain ⟨existing, hexisting⟩ : ∃ nodes, productNodes fields p = .ok nodes := by
    refine nodesOf_ok fun x hx => ?_
    rcases List.mem_append.1 hx with hx | hx
    · simp only [List.mem_cons, List.not_mem_nil, or_false] at hx
      rcases hx with rfl | rfl | rfl
      · exact fun v hv => (List.mem_singleton.1 hv) ▸ trivial
      · exact fun v hv => (List.mem_singleton.1 hv) ▸ trivial
      · intro v hv
        obtain ⟨key, -, rfl⟩ := List.mem_map.1 hv
        trivial
    · exact hhashable x hx
  obtain ⟨output, houtput⟩ := @candidates_ok texts fields g p existing targets.entries hlists
  refine ⟨selected (ranked output), ?_⟩
  rw [proposalsForProduct, hexisting]
  exact congrArg (Except.map fun output => selected (ranked output)) houtput

end Product

/-! ## A product with one supported tag -/

namespace RetagSample

def texts : Texts where
  normalizeQuery := id
  redactQuery := id
  wordChar := Char.isAlphanum
  split := fun text => text.splitOn " "
  digest := id

def listField (key : String) (values : List String) : TaxonomyField where
  key := key
  label := key
  storage := some "product_metadata"
  dataType := some "multi_select"
  maxSelections := none
  aiAllowed := true
  options := values.map fun value => ⟨value, value, []⟩

def fields : List TaxonomyField := [listField "occasion" ["travel"], listField "season" ["winter"]]

def valueNode (field value : String) : GraphNode where
  key := taxonomyNode field value
  kind := some .taxonomy
  field := some field
  value := some value
  label := some value
  terms := [value]

def link (weight : ℚ) (support : Int) : GraphEdge where
  source := taxonomyNode "occasion" "travel"
  target := taxonomyNode "season" "winter"
  weight := weight
  relation := "catalogue-cooccurrence"
  evidenceSource := "catalogue-model"
  support := support

def graph (edges : List GraphEdge) : SearchGraph :=
  ⟨[valueNode "occasion" "travel", valueNode "season" "winter"], edges⟩

theorem builtFrom (edges : List GraphEdge) : (graph edges).BuiltFrom fields := by
  intro n hn
  simp only [graph, List.mem_cons, List.not_mem_nil, or_false] at hn
  rcases hn with rfl | rfl
  · exact .inr ⟨rfl, "occasion", "travel", rfl, rfl, rfl, .head _⟩
  · exact .inr ⟨rfl, "season", "winter", rfl, rfl, rfl, .head _⟩

def product : Product where
  id := 1
  status := "active"
  visibility := "public"
  title := "Parka"
  description := ""
  searchText := ""
  categoryKey := "outerwear"
  productTypeKey := "parka"
  genderKeys := []
  metadata := [("occasion", .arr [.str "travel"])]
  reconciliation := none

def targets : Targets := ⟨[(taxonomyNode "season" "winter", ⟨[], 1⟩)], by decide⟩

end RetagSample

open RetagSample in
theorem proposalsForProduct_sound_parka :
    (∀ drafts, proposalsForProduct texts product (graph [link (9 / 10) 60]) targets fields =
      .ok drafts → SoundDrafts texts fields (graph [link (9 / 10) 60]) product targets drafts) ∧
    ((∀ x ∈ product.metadata, ∀ v ∈ asList x.2, Hashable v) →
      ∃ drafts, proposalsForProduct texts product (graph [link (9 / 10) 60]) targets fields =
        .ok drafts) :=
  proposalsForProduct_sound (builtFrom _) fun x hx => ⟨[.str "travel"], by
    rw [List.mem_singleton.1 hx]⟩

end Reconciler

end Stylme
