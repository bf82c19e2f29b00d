-- SUMMARY: Executions of the staging of proposals side by side, what each has read, and the commands it issues given that.
import Stylme.Reconciler.System

/-!
# Staging

A phase holds what an execution of `stage_retag_proposals` has read. The documents it stages
are a function of it, and it inserts those whose keys it has not found.
-/

namespace Stylme

open Conc Backend

namespace Reconciler

variable (lib : Library)

/-- The arguments of `stage_retag_proposals`. -/
structure StageRequest where
  graph : Graph
  failures : List Failure
  maxProducts : ℕ
  depth : ℕ
  runID : String

/-- Any number of executions on one store. -/
def staging : System StageRequest Cmd (Raising PyErr Answer) (Except PyErr StageResult) World Oracle
    Env where
  prog request := stageRetagProposals lib request.graph request.failures request.maxProducts
    request.depth request.runID
  exec := Cmd.exec lib.forbiddenText
  env := Env.apply

/-! ## What an execution has read -/

structure StagePhase where
  fields : Option (List TaxonomyField) := none
  products : List Product := []
  now : Time := 0
  /-- The keys that were found. -/
  existing : Option (List String) := none
  /-- Documents were sent. -/
  sent : Bool := false
  /-- The insertion was answered, perhaps with keys it passed over. -/
  inserted : Bool := false

/-- The documents for the batch, if there is nothing that raises. -/
def StageRequest.documents (request : StageRequest) (l : StagePhase) : List ProposalDocument :=
  match lib.targetSignals request.graph request.failures request.depth (l.fields.getD []) with
  | .error _ => []
  | .ok targets =>
    match stagedDocuments lib request.graph targets (l.fields.getD []) request.runID l.now
        l.products with
    | .error _ => []
    | .ok documents => documents

def StagePermits (request : StageRequest) (l : StagePhase) : Cmd → Prop
  | .taxonomySnapshot => l.fields = none ∧ l.existing = none
  | .findCursor | .findProducts _ _ | .setCursor _ | .now => l.fields.isSome ∧ l.existing = none
  | .findProposalKeys keys =>
    (l.fields.isSome ∧ l.existing = none) ∧ keys = (request.documents lib l).map (·.proposalKey)
  | .insertProposals documents => documents ≠ [] ∧ ∃ existing, l.existing = some existing ∧
      documents = (request.documents lib l).filter (·.proposalKey ∉ existing)
  | _ => False

def stageNext (l : StagePhase) : (cmd : Cmd) → Resp cmd → StagePhase
  | .taxonomySnapshot, .ok fields => { l with fields := some fields }
  | .findProducts _ _, .ok products => { l with products }
  | .now, .ok now => { l with now }
  | .findProposalKeys _, .ok existing => { l with existing := some existing }
  | .insertProposals _, .ok _ | .insertProposals _, .error (.bulkWrite _) =>
    { l with sent := true, inserted := true }
  | .insertProposals _, _ => { l with sent := true }
  | _, _ => l

def StageRequest.protocol (request : StageRequest) : Protocol Cmd (Raising PyErr Answer) StagePhase :=
  ⟨StagePermits lib request, stageNext⟩

/-- All was inserted but what an unordered insertion passes over. -/
def InsertionDone (r : Except PyErr Unit) : Prop :=
  r = .ok () ∨ ∃ codes, r = .error (.bulkWrite codes)

/-- Every document of the batch was found or inserted. -/
def StageRequest.Done (request : StageRequest) (l : StagePhase) : Prop :=
  l.fields.isSome ∧ (request.documents lib l = [] ∨ l.inserted = true ∨
    ∃ existing, l.existing = some existing ∧
      ∀ d ∈ request.documents lib l, d.proposalKey ∈ existing)

/-! ## Conformance -/

section Conforms

variable {lib} {request : StageRequest} {l : StagePhase}

/-- A phase of the scan. -/
structure Scanning (fields : List TaxonomyField) (l : StagePhase) : Prop where
  fields : l.fields = some fields
  existing : l.existing = none

theorem Scanning.permits {fields : List TaxonomyField} (h : Scanning fields l) :
    l.fields.isSome ∧ l.existing = none :=
  ⟨by rw [h.fields]; rfl, h.existing⟩

/-- The scan ends with the products it has read last. -/
abbrev Scans (fields : List TaxonomyField) (l : StagePhase) (r : Except PyErr (List Product)) : Prop :=
  ∀ products, r = .ok products → Scanning fields l ∧ l.products = products

theorem findProducts_conforms {fields : List TaxonomyField} (h : Scanning fields l)
    {cursor : Option ObjectId} {limit : ℕ} :
    Prog.Conforms (request.protocol lib) (Scans fields) l (Raise.ask (Cmd.findProducts cursor limit)) := by
  refine Raise.conforms_ask (c := Cmd.findProducts cursor limit) ?_ fun r => ?_
  · exact h.permits
  · cases r with
    | error e => exact nofun
    | ok products =>
      rintro _ ⟨⟩
      exact ⟨⟨h.fields, h.existing⟩, rfl⟩

theorem scanProductBatch_conforms {fields : List TaxonomyField} (h : Scanning fields l) {limit : ℕ} :
    Prog.Conforms (request.protocol lib) (Scans fields) l (scanProductBatch limit) := by
  refine Raise.conforms_ask_bind ?_ (fun cursor => ?_) fun e => nofun
  · exact h.permits
  change Prog.Conforms _ _ l _
  refine Raise.conforms_bind (Q := Scans fields) ?_ (fun l' products h' => ?_) fun l' e _ => nofun
  · refine Raise.conforms_bind (Q := Scans fields) (findProducts_conforms h) (fun l' products h' => ?_)
      fun l' e _ => nofun
    obtain ⟨hscan, hproducts⟩ := h' products rfl
    split
    · exact findProducts_conforms hscan
    · exact Raise.conforms_pure fun _ heq => ⟨hscan, Except.ok.inj heq ▸ hproducts⟩
  · obtain ⟨hscan, hproducts⟩ := h' products rfl
    -- moving the cursor teaches nothing
    refine Raise.conforms_bind (Q := fun l'' _ => l'' = l') ?_ ?_ fun l' e _ => nofun
    · unfold advanceCursor
      split
      · rename_i p _
        refine Raise.conforms_ask (c := Cmd.setCursor p.id) ?_ fun r => ?_
        · exact hscan.permits
        · cases r <;> rfl
      · exact Raise.conforms_pure rfl
    · rintro _ u rfl
      exact Raise.conforms_pure fun _ heq => ⟨hscan, Except.ok.inj heq ▸ hproducts⟩

theorem insertNewProposals_conforms {fields : List TaxonomyField} (h : Scanning fields l) :
    Prog.Conforms (request.protocol lib) (fun l r => r = .ok () → request.Done lib l) l
      (insertNewProposals (request.documents lib l)) := by
  have hread : l.fields.isSome := h.permits.1
  unfold insertNewProposals
  split
  · rename_i hnil
    exact Raise.conforms_pure fun _ => ⟨hread, .inl hnil⟩
  refine Raise.conforms_ask_bind ?_ (fun existing => ?_) fun e => nofun
  · exact ⟨h.permits, rfl⟩
  change Prog.Conforms _ _ { l with existing := some existing } _
  dsimp only
  split
  · rename_i hnil
    refine Raise.conforms_pure fun _ => ⟨hread, .inr (.inr ⟨existing, rfl, fun d hd => ?_⟩)⟩
    by_contra hnew
    have hmem : d ∈ (request.documents lib l).filter (·.proposalKey ∉ existing) :=
      List.mem_filter.2 ⟨hd, decide_eq_true hnew⟩
    rw [hnil] at hmem
    exact absurd hmem List.not_mem_nil
  · rename_i hnew
    have hinsert : Prog.Conforms (request.protocol lib) (fun l r => InsertionDone r → request.Done lib l)
        { l with existing := some existing } (Raise.ask (Cmd.insertProposals
          ((request.documents lib l).filter (·.proposalKey ∉ existing)))) := by
      refine Raise.conforms_ask (c := Cmd.insertProposals _) ⟨hnew, existing, rfl, rfl⟩ fun r => ?_
      rintro (rfl | ⟨codes, rfl⟩)
      · exact ⟨hread, .inr (.inl rfl)⟩
      · exact ⟨hread, .inr (.inl rfl)⟩
    refine Raise.conforms_tryExcept hinsert (fun l' _ h' => fun _ => h' (.inl rfl)) ?_ fun l' e _ => nofun
    · intro l' e hbulk h'
      cases e with
      | bulkWrite codes =>
        dsimp only
        split
        · exact Raise.conforms_throw nofun
        · exact Raise.conforms_pure fun _ => h' (.inr ⟨codes, rfl⟩)
      | _ => cases hbulk

/-- An execution issues only commands that its phase permits, and when it returns its documents are
found or inserted. -/
theorem StageRequest.conforms : Prog.Conforms (request.protocol lib)
    (fun l r => ∀ result, r = .ok result → request.Done lib l) {} ((staging lib).prog request) := by
  change Prog.Conforms _ _ _ (stageRetagProposals lib _ _ _ _ _)
  refine Raise.conforms_ask_bind ?_ (fun fields => ?_) fun e => nofun
  · exact ⟨rfl, rfl⟩
  change Prog.Conforms _ _ ({ fields := some fields } : StagePhase) _
  cases htargets : lib.targetSignals request.graph request.failures request.depth fields with
  | error e => exact Raise.conforms_throw nofun
  | ok targets =>
  refine Raise.conforms_bind (Q := Scans fields) (scanProductBatch_conforms ⟨rfl, rfl⟩)
    (fun l products h => ?_) fun l e _ => nofun
  obtain ⟨hscan, hproducts⟩ := h products rfl
  refine Raise.conforms_ask_bind ?_ (fun now => ?_) fun e => nofun
  · exact hscan.permits
  change Prog.Conforms _ _ { l with now } _
  cases hstaged : stagedDocuments lib request.graph targets fields request.runID now products with
  | error e => exact Raise.conforms_throw nofun
  | ok documents =>
  have hdocuments : request.documents lib { l with now } = documents := by
    unfold StageRequest.documents
    rw [hscan.fields, hproducts]
    simp only [Option.getD_some, htargets, hstaged]
  rw [← hdocuments]
  change Prog.Conforms _ _ _ (insertNewProposals (request.documents lib { l with now }) >>= fun _ => _)
  refine Raise.conforms_bind (insertNewProposals_conforms ⟨hscan.fields, hscan.existing⟩)
    (fun l' _ h' => ?_) fun l' e _ => nofun
  exact Raise.conforms_pure fun _ _ => h' rfl

end Conforms

/-! ## Insertions -/

section Insert

variable {forbiddenText : String → Bool} {w w' : World} {o : Oracle}

/-- New documents get new identifiers. -/
theorem withIDs_spec {ids : List ObjectId} {documents : List ProposalDocument}
    {proposals : List Proposal} (h : withIDs w ids documents = some proposals) :
    proposals.map (·.toProposalDocument) = documents ∧ (proposals.map (·.id)).Nodup ∧
      ∀ p ∈ w.proposals, p.id ∉ proposals.map (·.id) := by
  unfold withIDs at h
  split at h
  · rename_i hids
    obtain ⟨hlength, hnodup, hfresh⟩ := hids
    obtain rfl := Option.some.inj h
    have hdocuments : ∀ (documents : List ProposalDocument) (ids : List ObjectId),
        ids.length = documents.length →
        (List.zipWith (fun d id => (⟨d, id⟩ : Proposal)) documents ids).map
            (·.toProposalDocument) = documents ∧
          (List.zipWith (fun d id => (⟨d, id⟩ : Proposal)) documents ids).map (·.id) = ids := by
      intro documents
      induction documents with
      | nil =>
        intro ids hlength
        obtain rfl := List.length_eq_zero_iff.1 hlength
        exact ⟨rfl, rfl⟩
      | cons d documents ih =>
        intro ids hlength
        cases ids with
        | nil => cases hlength
        | cons id ids =>
          obtain ⟨hrest, hids⟩ := ih ids (Nat.succ.inj hlength)
          exact ⟨congrArg (d :: ·) hrest, congrArg (id :: ·) hids⟩
    obtain ⟨hdocs, hids⟩ := hdocuments documents ids hlength
    exact ⟨hdocs, by rwa [hids], fun p hp => by rw [hids]; exact hfresh p hp⟩
  · cases h

/-- What an insertion of proposals does: it keeps what is stored, adds only given documents with
new keys, and when it is answered every given key is stored. -/
theorem exec_insertProposals {documents : List ProposalDocument} {r : Resp (.insertProposals documents)}
    (h : (Cmd.insertProposals documents).exec forbiddenText o w = some (r, w')) :
    (∀ p ∈ w.proposals, p ∈ w'.proposals) ∧
    (∀ p ∈ w'.proposals, p ∈ w.proposals ∨ p.toProposalDocument ∈ documents) ∧
    (InsertionDone r → ∀ d ∈ documents, ∃ p ∈ w'.proposals, p.proposalKey = d.proposalKey) := by
  simp only [Cmd.exec] at h
  split at h
  · cases h
  · rename_i proposals hproposals
    obtain ⟨hdocuments, hnodup, hfresh⟩ := withIDs_spec hproposals
    have hgiven : ∀ p ∈ proposals, p.toProposalDocument ∈ documents := fun p hp =>
      hdocuments ▸ List.mem_map_of_mem hp
    split at h
    · obtain ⟨-, rfl⟩ := Prod.mk.inj (Option.some.inj h)
      refine ⟨fun p hp => Collection.mem_insertMany.1 hp, fun p hp => ?_, fun _ d hd => ?_⟩
      · exact (Collection.mem_insertMany.2 hp).imp_right fun h => hgiven p h.1
      · rw [← hdocuments] at hd
        obtain ⟨p, hp, rfl⟩ := List.mem_map.1 hd
        obtain ⟨q, hq, hid | hkey⟩ := Collection.exists_mem_insertMany (s := w.proposals) hp
        · -- the identifiers of the documents are their own
          refine ⟨q, hq, ?_⟩
          rcases Collection.mem_insertMany.2 hq with hstored | ⟨hgiven, -⟩
          · exact absurd (hid ▸ List.mem_map_of_mem hp) (hfresh q hstored)
          · rw [List.inj_on_of_nodup_map hnodup hgiven hp hid]
        · exact ⟨q, hq, hkey⟩
    · rename_i f _
      obtain ⟨rfl, rfl⟩ := Prod.mk.inj (Option.some.inj h)
      refine ⟨fun p hp => Collection.mem_insertMany.1 hp, fun p hp => ?_, ?_⟩
      · exact (Collection.mem_insertMany.2 hp).imp_right fun h =>
          hgiven p (List.mem_of_mem_take h.1)
      · rintro (h | ⟨codes, h⟩)
        · cases h
        · cases hcause : f.cause <;> rw [hcause] at h <;> cases h

end Insert

end Reconciler

end Stylme
