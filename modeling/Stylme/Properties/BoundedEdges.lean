-- SUMMARY: The training raises no arithmetic error, and the edges it keeps are bounded, supported and the best of their fields.
import Stylme.Data.Training
import Stylme.Lib.Fallible
import Mathlib.Data.List.ReduceOption
import Mathlib.Analysis.SpecialFunctions.Log.Base

/-!
# Bounded edges

The counters hold how many rows have a term, a label, or both. A pair that comes in all rows has a
lift of one and is skipped before the logarithm of its frequency divides; for all others this
logarithm is negative. The loop over the sorted edges keeps the first of each field.
-/

namespace Stylme

open Conc Counter

namespace Data

/-- The logarithms of real numbers. -/
noncomputable def reals : Logarithms ℝ := ⟨Real.log, Real.logb 2⟩

variable (lib : JsonLibrary)

/-! ## Counts -/

/-- How many rows have a term. -/
def termDocuments (rows : List Cells) (term : String) : ℕ := rows.countP fun row => term ∈ features lib row

/-- How many rows have a label. -/
def labelDocuments (rows : List Cells) (label : Label) : ℕ := rows.countP fun row => label ∈ labels lib row

/-- How many rows have both. -/
def jointDocuments (rows : List Cells) (term : String) (label : Label) : ℕ :=
  rows.countP fun row => term ∈ features lib row ∧ label ∈ labels lib row

variable {lib} {rows : List Cells} {term : String} {label : Label}

theorem nodup_features (row : Cells) : (features lib row).Nodup := List.nodup_dedup _

theorem nodup_labels (row : Cells) : (labels lib row).Nodup := List.nodup_dedup _

theorem jointDocuments_le_term : jointDocuments lib rows term label ≤ termDocuments lib rows term :=
  List.countP_mono_left fun _ _ h => decide_eq_true (of_decide_eq_true h).1

theorem jointDocuments_le_label : jointDocuments lib rows term label ≤ labelDocuments lib rows label :=
  List.countP_mono_left fun _ _ h => decide_eq_true (of_decide_eq_true h).2

theorem termDocuments_cons (row : Cells) : termDocuments lib (row :: rows) term =
    termDocuments lib rows term + if term ∈ features lib row then 1 else 0 := by
  simp only [termDocuments, List.countP_cons, decide_eq_true_eq]

theorem labelDocuments_cons (row : Cells) : labelDocuments lib (row :: rows) label =
    labelDocuments lib rows label + if label ∈ labels lib row then 1 else 0 := by
  simp only [labelDocuments, List.countP_cons, decide_eq_true_eq]

theorem jointDocuments_cons (row : Cells) : jointDocuments lib (row :: rows) term label =
    jointDocuments lib rows term label +
      if term ∈ features lib row ∧ label ∈ labels lib row then 1 else 0 := by
  simp only [jointDocuments, List.countP_cons, decide_eq_true_eq]

theorem count_documents (s : Documents) (term : String) (label : Label) :
    (rows.foldl (countDocuments lib) s).rows = s.rows + rows.length ∧
      (rows.foldl (countDocuments lib) s).terms.count term =
        s.terms.count term + termDocuments lib rows term ∧
      (rows.foldl (countDocuments lib) s).labels.count label =
        s.labels.count label + labelDocuments lib rows label := by
  induction rows generalizing s with
  | nil => exact ⟨rfl, rfl, rfl⟩
  | cons row rows ih =>
    obtain ⟨hrows, hterms, hlabels⟩ := ih (countDocuments lib s row)
    rw [List.foldl_cons, hrows, hterms, hlabels, termDocuments_cons, labelDocuments_cons, List.length_cons]
    have hterm := count_update (nodup_features row : (features lib row).Nodup) s.terms term
    have hlabel := count_update (nodup_labels row : (labels lib row).Nodup) s.labels label
    unfold countDocuments
    dsimp only
    omega

theorem rows_documentsOf : (documentsOf lib rows).rows = rows.length := by
  rw [documentsOf, (count_documents _ "" ⟨"", ""⟩).1]
  exact zero_add _

theorem terms_documentsOf : (documentsOf lib rows).terms.count term = termDocuments lib rows term := by
  rw [documentsOf, (count_documents _ _ ⟨"", ""⟩).2.1]
  exact zero_add _

theorem labels_documentsOf : (documentsOf lib rows).labels.count label = labelDocuments lib rows label := by
  rw [documentsOf, (count_documents _ "" _).2.2]
  exact zero_add _

/-- The number of rows of a term and a label, as the second pass has it. -/
def jointCount (joint : Joint) (term : String) (label : Label) : ℕ :=
  count ((joint.lookup term).getD []) label

/-- What the second pass leaves: counters of candidates, one for each. -/
structure Joined (candidates : List String) (joint : Joint) : Prop where
  nodup : (joint.map (·.1)).Nodup
  candidate : ∀ x ∈ joint, x.1 ∈ candidates
  counter : ∀ x ∈ joint, (x.2.map (·.1)).Nodup

variable {candidates : List String} {joint : Joint}

theorem lookup_countJoint {row : Cells} (hlabels : labels lib row ≠ []) :
    (countJoint lib candidates joint row).lookup term =
      if term ∈ (features lib row).filter (· ∈ candidates) then
        some (((joint.lookup term).getD []).update (labels lib row)) else joint.lookup term := by
  rw [countJoint, if_neg hlabels]
  exact lookup_foldl_amend ((nodup_features row).filter _)

theorem Joined.countJoint (h : Joined candidates joint) (row : Cells) :
    Joined candidates (countJoint lib candidates joint row) := by
  by_cases hlabels : labels lib row = []
  · rwa [Data.countJoint, if_pos hlabels]
  have hnodup : ((Data.countJoint lib candidates joint row).map (·.1)).Nodup := by
    rw [Data.countJoint, if_neg hlabels]
    exact nodup_keys_foldl_amend h.nodup
  have hold : ∀ {term}, (((joint.lookup term).getD []).map (·.1)).Nodup := fun {term} => by
    cases hlookup : joint.lookup term with
    | none => exact List.nodup_nil
    | some counter => exact h.counter _ (mem_of_lookup hlookup)
  have hentry : ∀ x ∈ Data.countJoint lib candidates joint row,
      x.1 ∈ candidates ∧ (x.2.map (·.1)).Nodup := fun x hx => by
    have hlookup := lookup_of_mem hnodup hx
    rw [lookup_countJoint hlabels] at hlookup
    split at hlookup
    · rename_i hterm
      rw [← Option.some.inj hlookup]
      exact ⟨of_decide_eq_true (List.mem_filter.1 hterm).2, nodup_update hold⟩
    · exact ⟨h.candidate _ (mem_of_lookup hlookup), h.counter _ (mem_of_lookup hlookup)⟩
  exact ⟨hnodup, fun x hx => (hentry x hx).1, fun x hx => (hentry x hx).2⟩

theorem joined_jointOf : Joined candidates (jointOf lib candidates rows) := by
  have hrun : ∀ joint, Joined candidates joint → Joined candidates (rows.foldl (countJoint lib candidates) joint) := by
    induction rows with
    | nil => exact fun joint h => h
    | cons row rows ih => exact fun joint h => ih _ (h.countJoint row)
  exact hrun [] ⟨List.nodup_nil, nofun, nofun⟩

theorem jointCount_countJoint {row : Cells} (hterm : term ∈ candidates) :
    jointCount (countJoint lib candidates joint row) term label = jointCount joint term label +
      if term ∈ features lib row ∧ label ∈ labels lib row then 1 else 0 := by
  by_cases hlabels : labels lib row = []
  · rw [countJoint, if_pos hlabels, hlabels, if_neg fun h => List.not_mem_nil h.2]
    rfl
  have hmem : term ∈ (features lib row).filter (· ∈ candidates) ↔ term ∈ features lib row := by
    simp only [List.mem_filter, decide_eq_true hterm, and_true]
  rw [jointCount, lookup_countJoint hlabels]
  by_cases hfeature : term ∈ features lib row
  · rw [if_pos (hmem.2 hfeature), Option.getD_some, count_update (nodup_labels row)]
    simp only [hfeature, true_and]
    rfl
  · rw [if_neg fun h => hfeature (hmem.1 h), if_neg fun h => hfeature h.1]
    rfl

theorem jointCount_jointOf (hterm : term ∈ candidates) :
    jointCount (jointOf lib candidates rows) term label = jointDocuments lib rows term label := by
  have hrun : ∀ joint, jointCount (rows.foldl (countJoint lib candidates) joint) term label =
      jointCount joint term label + jointDocuments lib rows term label := by
    induction rows with
    | nil => exact fun joint => rfl
    | cons row rows ih =>
      intro joint
      rw [List.foldl_cons, ih, jointCount_countJoint hterm, jointDocuments_cons]
      omega
  exact (hrun []).trans (zero_add _)

/-- The entries of the second pass are the counts of the rows. -/
theorem support_eq {correlations : Counter Label} {support : ℕ}
    (hterm : (term, correlations) ∈ jointOf lib candidates rows) (hlabel : (label, support) ∈ correlations) :
    support = jointDocuments lib rows term label := by
  have hjoined : Joined candidates (jointOf lib candidates rows) := joined_jointOf
  rw [← jointCount_jointOf (hjoined.candidate _ hterm), jointCount,
    lookup_of_mem hjoined.nodup hterm, Option.getD_some]
  exact (count_of_mem (hjoined.counter _ hterm) hlabel).symm

/-- A pair that some row has is an entry of the second pass. -/
theorem mem_of_support {correlations : Counter Label}
    (hterm : (term, correlations) ∈ jointOf lib candidates rows)
    (hpos : 0 < jointDocuments lib rows term label) :
    (label, jointDocuments lib rows term label) ∈ correlations := by
  have hjoined : Joined candidates (jointOf lib candidates rows) := joined_jointOf
  have hcount : jointCount (jointOf lib candidates rows) term label = jointDocuments lib rows term label :=
    jointCount_jointOf (hjoined.candidate _ hterm)
  rw [jointCount, lookup_of_mem hjoined.nodup hterm, Option.getD_some, count] at hcount
  dsimp only at hcount
  cases hlookup : correlations.lookup label with
  | none =>
    rw [hlookup, Option.getD_none] at hcount
    omega
  | some support =>
    rw [hlookup, Option.getD_some] at hcount
    exact hcount ▸ mem_of_lookup hlookup

/-! ## One edge -/

section Arithmetic

variable {K : Type} [Field K] [LinearOrder K] {x y : K}

theorem divide_eq (h : y ≠ 0) : divide x y = .ok (x / y) := if_neg h

theorem logarithm_eq {log : K → K} (h : 0 < x) : logarithm log x = .ok (log x) := if_neg (not_le.2 h)

variable [IsStrictOrderedRing K] [FloorRing K] {fn : Logarithms K} {minimumSupport : ℤ}
  {trainingRows termCount labelCount support : ℕ} {edge : Edge K}

theorem edge_of_edgeOf
    (h : edgeOf fn minimumSupport trainingRows termCount labelCount label support = .ok (some edge)) :
    edge.label = label ∧ edge.support = support ∧ minimumSupport ≤ support ∧
      30 / 100 ≤ edge.confidence ∧ edge.confidence ≤ 999 / 1000 := by
  unfold edgeOf at h
  split at h
  · cases h
  rename_i hsupport
  obtain ⟨precision, -, h⟩ := bind_eq_ok.1 h
  obtain ⟨prior, -, h⟩ := bind_eq_ok.1 h
  obtain ⟨lift, -, h⟩ := bind_eq_ok.1 h
  split at h
  · cases h
  obtain ⟨pmi, -, h⟩ := bind_eq_ok.1 h
  obtain ⟨surprise, -, h⟩ := bind_eq_ok.1 h
  obtain ⟨npmi, -, h⟩ := bind_eq_ok.1 h
  obtain ⟨reliability, -, h⟩ := bind_eq_ok.1 h
  obtain ⟨doublings, -, h⟩ := bind_eq_ok.1 h
  dsimp only at h
  split at h
  · cases h
  rename_i hconfidence
  obtain rfl := Option.some.inj (Except.ok.inj h)
  refine ⟨rfl, rfl, not_lt.1 hsupport, ?_, ?_⟩
  · have hlow : ∀ {x : K}, ((3000 : ℤ) : K) / 10 ^ 4 ≤ x → ((3000 : ℤ) : K) / 10 ^ 4 ≤ toPlaces 4 x :=
      le_toPlaces
    have hle := not_lt.1 hconfidence
    norm_num [percent] at hlow hle ⊢
    exact hlow (le_min hle (by norm_num))
  · have hhigh : ∀ {x : K}, x ≤ ((9990 : ℤ) : K) / 10 ^ 4 → toPlaces 4 x ≤ ((9990 : ℤ) : K) / 10 ^ 4 :=
      toPlaces_le
    norm_num at hhigh ⊢
    exact hhigh (min_le_right _ _)

end Arithmetic

theorem exists_bind {ε α β : Type} {x : Except ε α} {f : α → Except ε β} {a : α} (hx : x = .ok a)
    (hf : ∃ b, f a = .ok b) : ∃ b, (x >>= f) = .ok b :=
  hf.imp fun _ hb => bind_eq_ok.2 ⟨a, hx, hb⟩

/-- Nothing raises where the counts are those of some rows. -/
theorem exists_edgeOf {minimumSupport : ℤ} {trainingRows termCount labelCount support : ℕ}
    (hmin : 1 ≤ minimumSupport) (hterm : support ≤ termCount) (hlabel : support ≤ labelCount)
    (hterms : termCount ≤ trainingRows) (hlabels : labelCount ≤ trainingRows) :
    ∃ edge, edgeOf reals minimumSupport trainingRows termCount labelCount label support = .ok edge := by
  by_cases hsupport : (support : ℤ) < minimumSupport
  · exact ⟨none, if_pos hsupport⟩
  have hpos : 0 < support := by omega
  have hsupport0 : (0 : ℝ) < support := by exact_mod_cast hpos
  have hterm0 : (0 : ℝ) < termCount := by exact_mod_cast hpos.trans_le hterm
  have hlabel0 : (0 : ℝ) < labelCount := by exact_mod_cast hpos.trans_le hlabel
  have hrows0 : (0 : ℝ) < trainingRows := by exact_mod_cast hpos.trans_le (hterm.trans hterms)
  have hprior : (labelCount : ℝ) / trainingRows ≠ 0 := (div_pos hlabel0 hrows0).ne'
  rw [edgeOf, if_neg hsupport]
  refine exists_bind (divide_eq hterm0.ne') (exists_bind (divide_eq hrows0.ne') ?_)
  refine exists_bind ((if_pos hprior).trans (divide_eq hprior)) ?_
  split
  · exact ⟨none, rfl⟩
  rename_i hkept
  have hlift := not_lt.1 (not_or.1 hkept).2
  -- a pair that comes in all rows has lift 1
  have hrare : support < trainingRows := by
    refine lt_of_le_of_ne (hterm.trans hterms) fun hall => ?_
    have hterm : termCount = trainingRows := by omega
    have hlabel : labelCount = trainingRows := by omega
    rw [hall, hterm, hlabel, div_self hrows0.ne', div_one] at hlift
    norm_num [percent] at hlift
  have hfrequency : (0 : ℝ) < support / trainingRows := div_pos hsupport0 hrows0
  have hsurprise : Real.log (support / trainingRows) < 0 :=
    Real.log_neg hfrequency ((div_lt_one hrows0).2 (by exact_mod_cast hrare))
  refine exists_bind (logarithm_eq (lt_max_of_lt_right (by norm_num))) ?_
  refine exists_bind (bind_eq_ok.2 ⟨_, divide_eq hrows0.ne', logarithm_eq hfrequency⟩) ?_
  refine exists_bind (divide_eq (neg_ne_zero.2 hsurprise.ne)) ?_
  refine exists_bind (divide_eq (by positivity)) ?_
  refine exists_bind (logarithm_eq (lt_max_of_lt_right one_pos)) ?_
  dsimp only
  split
  · exact ⟨_, rfl⟩
  · exact ⟨_, rfl⟩

/-! ## The edges of a term -/

section Loop

variable {K : Type} [Field K] [LinearOrder K] {edge : Edge K} {kept edges : List (Edge K)}
  {maximumEdges : ℤ}

/-- A new edge is kept where no later edge of its field precedes it. -/
theorem mem_uniqueFields (hsorted : edges.Pairwise fun a b => a.rank ≤ b.rank)
    (h : edge ∈ uniqueFields maximumEdges kept edges) :
    edge ∈ kept ∨ edge ∈ edges ∧ edge.field ∉ kept.map (·.field) ∧
      ∀ other ∈ edges, other.field = edge.field → edge.rank ≤ other.rank := by
  induction edges generalizing kept with
  | nil => exact .inl h
  | cons first edges ih =>
    obtain ⟨hfirst, hsorted⟩ := List.pairwise_cons.1 hsorted
    have hnew : first.field ∉ kept.map (·.field) → edge = first → first ∈ first :: edges ∧
        first.field ∉ kept.map (·.field) ∧
        ∀ other ∈ first :: edges, other.field = first.field → first.rank ≤ other.rank :=
      fun hfield _ => ⟨List.mem_cons_self, hfield, List.forall_mem_cons.2
        ⟨fun _ => le_rfl, fun other hother _ => hfirst other hother⟩⟩
    rw [uniqueFields] at h
    split at h
    · rename_i hseen
      refine (ih hsorted h).imp_right fun ⟨hmem, hfield, hbest⟩ =>
        ⟨List.mem_cons_of_mem _ hmem, hfield, List.forall_mem_cons.2 ⟨fun heq => ?_, hbest⟩⟩
      exact absurd (heq ▸ hseen) hfield
    · rename_i hfield
      have hcases : edge ∈ kept ++ [first] ∨ edge ∈ edges ∧ edge.field ∉ (kept ++ [first]).map (·.field) ∧
          ∀ other ∈ edges, other.field = edge.field → edge.rank ≤ other.rank := by
        split at h
        · exact .inl h
        · exact ih hsorted h
      rcases hcases with hmem | ⟨hmem, hfield', hbest⟩
      · refine (List.mem_append.1 hmem).imp_right fun hmem => ?_
        have heq := List.mem_singleton.1 hmem
        exact heq ▸ hnew hfield heq
      · rw [List.map_append, List.mem_append, not_or, List.map_singleton, List.mem_singleton] at hfield'
        refine .inr ⟨List.mem_cons_of_mem _ hmem, hfield'.1, List.forall_mem_cons.2 ⟨fun heq => ?_, hbest⟩⟩
        exact absurd heq.symm hfield'.2

omit [Field K] [LinearOrder K] in
theorem nodup_uniqueFields (h : (kept.map (·.field)).Nodup) :
    ((uniqueFields maximumEdges kept edges).map (·.field)).Nodup := by
  induction edges generalizing kept with
  | nil => exact h
  | cons first edges ih =>
    rw [uniqueFields]
    split
    · exact ih h
    · rename_i hfield
      have hnext : ((kept ++ [first]).map (·.field)).Nodup := by
        rw [List.map_append, List.map_singleton]
        exact h.append (List.nodup_singleton _) (List.disjoint_singleton.2 hfield)
      split
      · exact hnext
      · exact ih hnext

omit [Field K] [LinearOrder K] in
theorem length_uniqueFields (h : (kept.length : ℤ) < maximumEdges) :
    ((uniqueFields maximumEdges kept edges).length : ℤ) ≤ maximumEdges := by
  induction edges generalizing kept with
  | nil => exact h.le
  | cons first edges ih =>
    rw [uniqueFields]
    split
    · exact ih h
    · have hlength : ((kept ++ [first]).length : ℤ) = kept.length + 1 := by simp
      split
      · omega
      · exact ih (by omega)

theorem confidence_le {other : Edge K} [IsStrictOrderedRing K] (h : edge.rank ≤ other.rank) :
    other.confidence ≤ edge.confidence := by
  have hle : -edge.confidence ≤ -other.confidence := Prod.Lex.monotone_fst _ _ h
  exact neg_le_neg_iff.1 hle

end Loop

variable (lib) in
/-- The edge is what the training makes of the counts of the term and of the edge's label. -/
def Candidate (minimumSupport : ℤ) (rows : List Cells) (term : String) (edge : Edge ℝ) : Prop :=
  edgeOf reals minimumSupport rows.length (termDocuments lib rows term)
    (labelDocuments lib rows edge.label) edge.label (jointDocuments lib rows term edge.label) =
    .ok (some edge)

variable {correlations : Counter Label} {minimumSupport : ℤ} {edges : List (Edge ℝ)} {edge : Edge ℝ}

theorem exists_edgesOf (hmin : 1 ≤ minimumSupport)
    (hterm : (term, correlations) ∈ jointOf lib candidates rows) :
    ∃ edges, edgesOf reals minimumSupport (documentsOf lib rows) term correlations = .ok edges := by
  have hall : ∃ results, (correlations.mapM fun (label, support) =>
      edgeOf reals minimumSupport (documentsOf lib rows).rows ((documentsOf lib rows).terms.count term)
        ((documentsOf lib rows).labels.count label) label support) = .ok results := by
    refine exists_mapM_eq_ok_iff.2 fun (label, support) hlabel => ?_
    dsimp only
    rw [rows_documentsOf, terms_documentsOf, labels_documentsOf, support_eq hterm hlabel]
    exact exists_edgeOf hmin jointDocuments_le_term jointDocuments_le_label List.countP_le_length
      List.countP_le_length
  obtain ⟨results, hresults⟩ := hall
  exact ⟨results.reduceOption, map_eq_ok.2 ⟨results, hresults, rfl⟩⟩

theorem mem_edgesOf (hmin : 1 ≤ minimumSupport)
    (hterm : (term, correlations) ∈ jointOf lib candidates rows)
    (hedges : edgesOf reals minimumSupport (documentsOf lib rows) term correlations = .ok edges) :
    edge ∈ edges ↔ Candidate lib minimumSupport rows term edge := by
  obtain ⟨results, hresults, rfl⟩ := map_eq_ok.1 hedges
  rw [List.reduceOption_mem_iff]
  constructor
  · intro hmem
    obtain ⟨⟨label, support⟩, hlabel, hedge⟩ := exists_of_mem_mapM hresults hmem
    dsimp only at hedge
    rw [rows_documentsOf, terms_documentsOf, labels_documentsOf, support_eq hterm hlabel] at hedge
    obtain ⟨rfl, -⟩ := edge_of_edgeOf hedge
    exact hedge
  · intro hcandidate
    obtain ⟨-, hsupport, hle, -⟩ := edge_of_edgeOf hcandidate
    have hmem : (edge.label, jointDocuments lib rows term edge.label) ∈ correlations :=
      mem_of_support hterm (by omega)
    obtain ⟨result, hresult, hedge⟩ := mem_mapM_of_mem hresults hmem
    dsimp only at hedge
    rw [rows_documentsOf, terms_documentsOf, labels_documentsOf, hcandidate] at hedge
    exact Except.ok.inj hedge ▸ hresult

/-! ## The model -/

variable (lib) in
/-- The edges that a term keeps. -/
structure Bounded (minimumSupport maximumEdges : ℤ) (rows : List Cells) (term : String)
    (edges : List (Edge ℝ)) : Prop where
  nonempty : 1 ≤ edges.length
  few : (edges.length : ℤ) ≤ maximumEdges
  distinct : (edges.map (·.field)).Nodup
  confident : ∀ edge ∈ edges, 30 / 100 ≤ edge.confidence ∧ edge.confidence ≤ 999 / 1000
  supported : ∀ edge ∈ edges, minimumSupport ≤ edge.support ∧
    edge.support ≤ termDocuments lib rows term ∧ edge.support ≤ labelDocuments lib rows edge.label
  best : ∀ edge ∈ edges, Candidate lib minimumSupport rows term edge ∧
    ∀ other, Candidate lib minimumSupport rows term other → other.field = edge.field →
      other.confidence ≤ edge.confidence

variable {maximumEdges : ℤ} {node : Node ℝ}

theorem mem_keepEdges (h : edge ∈ keepEdges maximumEdges edges) :
    edge ∈ edges ∧ ∀ other ∈ edges, other.field = edge.field → other.confidence ≤ edge.confidence := by
  have hsorted : (edges.insertionSort fun a b => a.rank ≤ b.rank).Pairwise fun a b => a.rank ≤ b.rank :=
    List.pairwise_insertionSort _ _
  rcases mem_uniqueFields hsorted h with h | ⟨hmem, -, hbest⟩
  · exact absurd h List.not_mem_nil
  · refine ⟨(List.mem_insertionSort _).1 hmem, fun other hother hfield => ?_⟩
    exact confidence_le (hbest other ((List.mem_insertionSort _).2 hother) hfield)

theorem bounded_nodeOf (hmin : 1 ≤ minimumSupport) (hmax : 1 ≤ maximumEdges)
    (hterm : (term, correlations) ∈ jointOf lib candidates rows)
    (h : nodeOf reals minimumSupport maximumEdges (documentsOf lib rows) term correlations =
      .ok (some node)) :
    Bounded lib minimumSupport maximumEdges rows node.term node.edges := by
  obtain ⟨edges, hedges, h⟩ := map_eq_ok.1 h
  have hmem : ∀ edge, edge ∈ edges ↔ Candidate lib minimumSupport rows term edge := fun _ =>
    mem_edgesOf hmin hterm hedges
  have hnodup : ((keepEdges maximumEdges edges).map (·.field)).Nodup := nodup_uniqueFields List.nodup_nil
  have hlength : ((keepEdges maximumEdges edges).length : ℤ) ≤ maximumEdges :=
    length_uniqueFields (by exact_mod_cast hmax)
  cases hkept : keepEdges maximumEdges edges with
  | nil =>
    rw [hkept] at h
    cases h
  | cons first rest =>
    rw [hkept] at h hnodup hlength
    obtain rfl := Option.some.inj h
    have hbest : ∀ edge ∈ first :: rest, Candidate lib minimumSupport rows term edge ∧
        ∀ other, Candidate lib minimumSupport rows term other → other.field = edge.field →
          other.confidence ≤ edge.confidence := fun edge hedge => by
      obtain ⟨hin, hbest⟩ := mem_keepEdges (hkept ▸ hedge)
      exact ⟨(hmem edge).1 hin, fun other hother => hbest other ((hmem other).2 hother)⟩
    refine ⟨Nat.le_add_left _ _, hlength, hnodup, fun edge hedge => ?_, fun edge hedge => ?_, hbest⟩
    · exact (edge_of_edgeOf (hbest edge hedge).1).2.2.2
    · obtain ⟨-, hsupport, hle, -⟩ := edge_of_edgeOf (hbest edge hedge).1
      rw [hsupport]
      exact ⟨hle, jointDocuments_le_term, jointDocuments_le_label⟩

/-- The training raises nothing, and the edges of each node are bounded. -/
theorem train_bounded (lib : JsonLibrary) (rows : List Cells)
    (minimumSupport maximumTermDocuments maximumNodes maximumEdges : ℤ)
    (hmin : 1 ≤ minimumSupport) (hmax : 1 ≤ maximumEdges) :
    ∃ model, train lib reals rows minimumSupport maximumTermDocuments maximumNodes maximumEdges =
      .ok model ∧
      ∀ node ∈ model.nodes, Bounded lib minimumSupport maximumEdges rows node.1 node.2 := by
  let candidates := candidateTerms minimumSupport maximumTermDocuments (documentsOf lib rows).terms
  have hgraph : ∃ graph, ((jointOf lib candidates rows).mapM fun x =>
      nodeOf reals minimumSupport maximumEdges (documentsOf lib rows) x.1 x.2) = .ok graph := by
    refine exists_mapM_eq_ok_iff.2 fun x hterm => ?_
    obtain ⟨edges, hedges⟩ := exists_edgesOf hmin hterm
    exact ⟨_, map_eq_ok.2 ⟨edges, hedges, rfl⟩⟩
  obtain ⟨graph, hgraph⟩ := hgraph
  refine ⟨_, bind_eq_ok.2 ⟨graph, hgraph, rfl⟩, fun node hnode => ?_⟩
  obtain ⟨found, hfound, rfl⟩ := List.mem_map.1 hnode
  have hmem : found ∈ graph.reduceOption :=
    (List.mem_insertionSort _).1 (List.mem_of_mem_take ((List.mem_insertionSort _).1 hfound))
  obtain ⟨⟨term, correlations⟩, hterm, hresult⟩ :=
    exists_of_mem_mapM hgraph (List.reduceOption_mem_iff.1 hmem)
  exact bounded_nodeOf hmin hmax hterm hresult

def plainJson : JsonLibrary := { plainLibrary with loads := fun _ => none, str := fun _ => "" }

def sampleRows : List Cells :=
  [[("title", some "Linen shirt"), ("category_key", some "shirts")],
    [("title", some "Silk saree"), ("category_key", some "sarees"), ("gender_keys_json", none)]]

theorem train_bounded_sample : ∃ model, train plainJson reals sampleRows 1 6000 6500 4 = .ok model ∧
    ∀ node ∈ model.nodes, Bounded plainJson 1 4 sampleRows node.1 node.2 :=
  train_bounded plainJson sampleRows 1 6000 6500 4 le_rfl (by decide)

end Data

end Stylme
