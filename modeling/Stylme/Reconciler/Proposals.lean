-- SUMMARY: The tags a product is offered: which targets have evidence, how they rank, and how many are taken.
import Stylme.Lib.Extrema
import Stylme.Lib.Quota
import Stylme.Reconciler.SearchGraph
import Mathlib.Data.Prod.Lex
import Mathlib.Data.String.Basic

/-!
# Proposals for a product

`proposals_for_product` looks at every target tag the product lacks, keeps those with direct
or statistical evidence, and offers the best of them, a few for each field.
-/

namespace Stylme

open Conc Backend

namespace Reconciler

/-! ## Constants -/

def maxRetagProposalsPerProduct : ℕ := 12

def maxRetagProposalsPerField : ℕ := 2

def minRetagCooccurrenceWeight : ℚ := 86 / 100

def minRetagCooccurrenceSupport : Int := 50

def retaggableProductMetadataFields : List String :=
  ["aesthetic", "dress_code", "festival", "fit", "generation", "material", "mood", "occasion",
    "pattern", "season", "silhouette", "style", "surface_detail", "theme", "trend_signal"]

/-! ## What the product has -/

/-- The values that are in the set; a list or a document cannot be looked up in one. -/
def knownValues (allowed : List String) : List Json → Except Raised (List String)
  | [] => .ok []
  | .arr _ :: _ => .error ⟨"TypeError", "unhashable type: 'list'"⟩
  | .obj _ :: _ => .error ⟨"TypeError", "unhashable type: 'dict'"⟩
  | .str s :: values =>
    (knownValues allowed values).map fun known => if s ∈ allowed then s :: known else known
  | _ :: values => knownValues allowed values

/-- `raw if isinstance(raw, list) else [raw]` -/
def asList : Json → List Json
  | .arr items => items
  | v => [v]

/-- The nodes of the values of some fields. -/
def nodesOf (fields : List TaxonomyField) : List (String × Json) → Except Raised (List String)
  | [] => .ok []
  | (field, raw) :: rest =>
    match knownValues (allowedValues fields field) (asList raw), nodesOf fields rest with
    | .ok known, .ok nodes => .ok (known.map (taxonomyNode field) ++ nodes)
    | .error e, _ => .error e
    | _, .error e => .error e

/-- The fields of a product that name taxonomy values. -/
def Product.tags (p : Product) : List (String × Json) :=
  [("category", .str p.categoryKey), ("product_type", .str p.productTypeKey),
    ("gender", .arr (p.genderKeys.map .str))] ++ p.metadata

/-- `_product_nodes` -/
def productNodes (fields : List TaxonomyField) (p : Product) : Except Raised (List String) :=
  nodesOf fields p.tags

theorem mem_knownValues {allowed known : List String} {values : List Json} {v : String}
    (h : knownValues allowed values = .ok known) : v ∈ known ↔ .str v ∈ values ∧ v ∈ allowed := by
  induction values generalizing known with
  | nil =>
    obtain rfl := Except.ok.inj h
    simp
  | cons x values ih =>
    cases x with
    | arr _ | obj _ => cases h
    | null | bool _ | num _ =>
      replace h : knownValues allowed values = .ok known := h
      rw [ih h, List.mem_cons]
      simp
    | str s =>
      rw [knownValues] at h
      cases hrest : knownValues allowed values with
      | error e => rw [hrest] at h; cases h
      | ok rest =>
        rw [hrest] at h
        obtain rfl := Except.ok.inj h
        rw [List.mem_cons, Json.str.injEq]
        split
        · rename_i hs
          rw [List.mem_cons, ih hrest]
          constructor
          · rintro (rfl | ⟨hv, hallowed⟩)
            · exact ⟨.inl rfl, hs⟩
            · exact ⟨.inr hv, hallowed⟩
          · rintro ⟨rfl | hv, hallowed⟩
            · exact .inl rfl
            · exact .inr ⟨hv, hallowed⟩
        · rename_i hs
          rw [ih hrest]
          constructor
          · rintro ⟨hv, hallowed⟩
            exact ⟨.inr hv, hallowed⟩
          · rintro ⟨rfl | hv, hallowed⟩
            · exact absurd hallowed hs
            · exact ⟨hv, hallowed⟩

/-- One of the fields names the taxonomy value of the node. -/
def Names (fields : List TaxonomyField) (entries : List (String × Json)) (key : String) : Prop :=
  ∃ field raw v, (field, raw) ∈ entries ∧ .str v ∈ asList raw ∧ v ∈ allowedValues fields field ∧
    key = taxonomyNode field v

theorem mem_nodesOf {fields : List TaxonomyField} {entries : List (String × Json)}
    {nodes : List String} {key : String} (h : nodesOf fields entries = .ok nodes) :
    key ∈ nodes ↔ Names fields entries key := by
  induction entries generalizing nodes with
  | nil =>
    obtain rfl := Except.ok.inj h
    simp [Names]
  | cons x entries ih =>
    obtain ⟨field, raw⟩ := x
    rw [nodesOf] at h
    split at h
    · rename_i known rest hknown hrest
      obtain rfl := Except.ok.inj h
      rw [List.mem_append, ih hrest, List.mem_map]
      constructor
      · rintro (⟨v, hv, rfl⟩ | ⟨field', raw', v, hmem, h⟩)
        · obtain ⟨hv, hallowed⟩ := (mem_knownValues hknown).1 hv
          exact ⟨field, raw, v, .head _, hv, hallowed, rfl⟩
        · exact ⟨field', raw', v, .tail _ hmem, h⟩
      · rintro ⟨field', raw', v, hmem, hv, hallowed, rfl⟩
        rcases List.mem_cons.1 hmem with heq | hmem
        · obtain ⟨rfl, rfl⟩ := Prod.mk.inj heq
          exact .inl ⟨v, (mem_knownValues hknown).2 ⟨hv, hallowed⟩, rfl⟩
        · exact .inr ⟨field', raw', v, hmem, hv, hallowed, rfl⟩
    · cases h
    · cases h

/-- `list(value or [])` -/
def listOf : Option Json → Except Raised (List Json)
  | none | some .null | some (.bool false) => .ok []
  | some (.bool true) => .error ⟨"TypeError", "'bool' object is not iterable"⟩
  | some (.num n) =>
    if n = 0 then .ok []
    else .error ⟨"TypeError", if n.den = 1 then "'int' object is not iterable"
      else "'float' object is not iterable"⟩
  | some (.str s) => .ok (s.toList.map fun c => .str c.toString)
  | some (.arr items) => .ok items
  | some (.obj entries) => .ok (entries.map fun entry => .str entry.1)

/-! ## Evidence -/

variable (texts : Texts)

/-- The text of a product in which terms are looked for. -/
def productText (p : Product) : String :=
  texts.normalizeQuery (p.title ++ " " ++ p.description ++ " " ++ p.searchText)

/-- The first term of a node that the text contains. -/
def directTerm (n : GraphNode) (text : String) : Option String :=
  (n.terms.filter (3 ≤ ·.length)).find? (texts.hasWord · text)

/-- The co-occurrence edges between a target and what the product has. -/
def cooccurrences (g : SearchGraph) (existing : List String) (target : String) : List GraphEdge :=
  ((g.adjacent target).filter fun x =>
    x.1 ∈ existing ∧ x.2.relation = "catalogue-cooccurrence").map (·.2)

/-- `best_edge`: the first of the heaviest edges. -/
def bestEdge (edges : List GraphEdge) : Option GraphEdge := firstMax (·.weight) edges

def directEvidence (term : String) : Document :=
  [("type", .str "direct-lexical"), ("term", .str term)]

def cooccurrenceEvidence (origin : Option String) (e : GraphEdge) : Document :=
  [("type", .str "catalogue-cooccurrence"), ("from", origin.elim .null .str),
    ("weight", .num e.weight), ("support", .num e.support)]

/-- An entry of `target_signals`. -/
structure TargetSignal where
  queryHashes : List String
  score : ℚ

/-- `target_signals`, in the order of the dictionary. -/
structure Targets where
  entries : List (String × TargetSignal)
  nodup : (entries.map (·.1)).Nodup

/-- The proposal for a tag that may be added, if there is evidence for it. -/
def suggestion (existing : List String) (field value : String) (signal : TargetSignal)
    (direct : Option String) (best : Option GraphEdge) : Option ProposalDraft :=
  match direct, best with
  | some term, _ => some {
      field
      value
      confidence := roundFour (98 / 100)
      autoEligible := true
      evidence := directEvidence term
      queryHashes := signal.queryHashes
      queryScore := signal.score }
  | none, some e =>
    if e.weight < minRetagCooccurrenceWeight ∨ e.support < minRetagCooccurrenceSupport then none
    else some {
      field
      value
      confidence := roundFour (min (93 / 100) (e.weight * (96 / 100)))
      autoEligible := 94 / 100 ≤ e.weight ∧ 20 ≤ e.support
      evidence := cooccurrenceEvidence ([e.source, e.target].find? (· ∈ existing)) e
      queryHashes := signal.queryHashes
      queryScore := signal.score }
  | none, none => none

/-- The field of a target may be added to by a retag. -/
def TaxonomyField.retaggable (document : TaxonomyField) : Bool :=
  document.storage = some "product_metadata" ∧ document.aiAllowed

/-- The turn of the loop for one target. -/
def candidate (fields : List TaxonomyField) (g : SearchGraph) (p : Product)
    (existing : List String) (target : String) (signal : TargetSignal) :
    Except Raised (Option ProposalDraft) :=
  if target ∈ existing then .ok none
  else
    let node := (g.node target).getD { key := target }
    let field := node.field.getD ""
    if field ∉ retaggableProductMetadataFields then .ok none
    else
      match (lookupField fields field).filter (·.retaggable) with
      | none => .ok none
      | some document =>
        match listOf (p.metadata.lookup field) with
        | .error e => .error e
        | .ok current =>
          if document.limit ≤ current.length then .ok none
          else .ok (suggestion existing field (node.value.getD "") signal
            (directTerm texts node (productText texts p))
            (bestEdge (cooccurrences g existing target)))

/-- `output`: the candidates of all targets. -/
def candidates (fields : List TaxonomyField) (g : SearchGraph) (p : Product)
    (existing : List String) : List (String × TargetSignal) → Except Raised (List ProposalDraft)
  | [] => .ok []
  | (target, signal) :: rest =>
    match candidate texts fields g p existing target signal,
        candidates fields g p existing rest with
    | .ok draft, .ok drafts => .ok (draft.toList ++ drafts)
    | .error e, _ => .error e
    | _, .error e => .error e

/-- The target passes the checks on the product and on the field. -/
structure Addable (fields : List TaxonomyField) (g : SearchGraph) (p : Product)
    (existing : List String) (target : String) (n : GraphNode) (document : TaxonomyField)
    (current : List Json) : Prop where
  absent : target ∉ existing
  hasNode : n = (g.node target).getD { key := target }
  hasField : n.field.getD "" ∈ retaggableProductMetadataFields
  hasDocument : lookupField fields (n.field.getD "") = some document
  retaggable : document.retaggable = true
  reads : listOf (p.metadata.lookup (n.field.getD "")) = .ok current
  room : (current.length : Int) < document.limit

section Candidate

variable {texts} {fields : List TaxonomyField} {g : SearchGraph} {p : Product}
variable {existing : List String} {target : String} {signal : TargetSignal} {n : GraphNode}
variable {document : TaxonomyField} {current : List Json}

theorem candidate_of_addable (h : Addable fields g p existing target n document current) :
    candidate texts fields g p existing target signal =
      .ok (suggestion existing (n.field.getD "") (n.value.getD "") signal
        (directTerm texts n (productText texts p)) (bestEdge (cooccurrences g existing target))) := by
  obtain ⟨habsent, rfl, hfield, hdocument, hretaggable, hcurrent, hroom⟩ := h
  unfold candidate
  rw [if_neg habsent]
  dsimp only
  rw [if_neg (not_not_intro hfield), hdocument, Option.filter_some, if_pos hretaggable]
  dsimp only
  rw [hcurrent]
  dsimp only
  rw [if_neg (Int.not_le.2 hroom)]

theorem addable_of_candidate {d : ProposalDraft}
    (h : candidate texts fields g p existing target signal = .ok (some d)) :
    ∃ n document current, Addable fields g p existing target n document current := by
  unfold candidate at h
  split at h
  · cases h
  · rename_i habsent
    dsimp only at h
    split at h
    · cases h
    · rename_i hfield
      split at h
      · cases h
      · rename_i document hdocument
        obtain ⟨hdocument, hretaggable⟩ := Option.filter_eq_some_iff.1 hdocument
        split at h
        · cases h
        · rename_i current hcurrent
          split at h
          · cases h
          · rename_i hroom
            exact ⟨_, document, current, habsent, rfl, not_not.1 hfield, hdocument, hretaggable,
              hcurrent, Int.not_le.1 hroom⟩

theorem mem_candidates {entries : List (String × TargetSignal)} {output : List ProposalDraft}
    {d : ProposalDraft} (h : candidates texts fields g p existing entries = .ok output) :
    d ∈ output ↔ ∃ x ∈ entries, candidate texts fields g p existing x.1 x.2 = .ok (some d) := by
  induction entries generalizing output with
  | nil =>
    obtain rfl := Except.ok.inj h
    simp
  | cons x entries ih =>
    obtain ⟨target, signal⟩ := x
    rw [candidates] at h
    split at h
    · rename_i draft drafts hdraft hdrafts
      obtain rfl := Except.ok.inj h
      rw [List.mem_append, ih hdrafts, List.exists_mem_cons_iff, hdraft, Except.ok.injEq,
        Option.mem_toList]
    · cases h
    · cases h

end Candidate

/-! ## Ranking -/

/-- The key of the sort: sure ones first, then by confidence, then by name. -/
def rankKey (d : ProposalDraft) : Bool ×ₗ ℚ ×ₗ String ×ₗ String :=
  toLex (!d.autoEligible, toLex (-d.confidence, toLex (d.field, d.value)))

def ranked (drafts : List ProposalDraft) : List ProposalDraft :=
  drafts.insertionSort fun a b => rankKey a ≤ rankKey b

/-- The loop over the ranked candidates. -/
def selected (drafts : List ProposalDraft) : List ProposalDraft :=
  capped (·.field) maxRetagProposalsPerField maxRetagProposalsPerProduct (fun _ => 0) drafts

def proposalsForProduct (p : Product) (g : SearchGraph) (targets : Targets)
    (fields : List TaxonomyField) : Except Raised (List ProposalDraft) :=
  match productNodes fields p with
  | .error e => .error e
  | .ok existing =>
    (candidates texts fields g p existing targets.entries).map fun output =>
      selected (ranked output)

end Reconciler

end Stylme
