-- SUMMARY: Executions of the staging of proposals keep every stored proposal, and store each proposed tag once.
import Stylme.Lib.Numeral
import Stylme.Properties.ProposalBudget
import Stylme.Reconciler.Staging

/-!
# Proposals are staged once

However many executions overlap, fail or are repeated, a stored proposal stays as it is, and the
tags an execution proposes have one document each when it returns.
-/

namespace Stylme

open Conc Backend

namespace Reconciler

abbrev StageState := Pool StageRequest Cmd (Raising PyErr Answer) (Except PyErr StageResult) World

variable (lib : Library)

/-- The key is taken. -/
def World.HoldsKey (w : World) (key : String) : Prop := ∃ p ∈ w.proposals, p.proposalKey = key

/-- Every stored proposal is for a tag that can be proposed, under the key of that tag. -/
def World.Keyed (w : World) : Prop :=
  ∀ p ∈ w.proposals, p.field ∈ retaggableProductMetadataFields ∧
    p.proposalKey = proposalKey lib p.productID p.field p.value

/-- What an execution has read. -/
def phaseOf (σ : StageState) (t : ℕ) (request : StageRequest) : StagePhase :=
  (request.protocol lib).phase {} (σ.trace t)

/-- The library with the proposals of this service. A stored graph and the signals are read off
their documents. -/
def Library.retagging (texts : Texts) (graphOf : Graph → SearchGraph)
    (targetsOf : List (String × Document) → Targets) : Library :=
  { lib with proposalsForProduct := fun p graph targets fields =>
      Reconciler.proposalsForProduct texts p (graphOf graph) (targetsOf targets) fields }

/-! ## Keys -/

section Keys

variable {lib}

theorem append_colon_inj {xs ys zs ws : List Char} (hxs : ':' ∉ xs) (hys : ':' ∉ ys)
    (h : xs ++ ':' :: zs = ys ++ ':' :: ws) : xs = ys ∧ zs = ws := by
  induction xs generalizing ys with
  | nil =>
    cases ys with
    | nil => exact ⟨rfl, (List.cons.inj h).2⟩
    | cons y ys => exact absurd ((List.cons.inj h).1 ▸ List.mem_cons_self) hys
  | cons x xs ih =>
    cases ys with
    | nil => exact absurd ((List.cons.inj h).1 ▸ List.mem_cons_self) hxs
    | cons y ys =>
      obtain ⟨hhead, htail⟩ := List.cons.inj h
      obtain ⟨hinit, hrest⟩ :=
        ih (fun hmem => hxs (.tail _ hmem)) (fun hmem => hys (.tail _ hmem)) htail
      exact ⟨by rw [hhead, hinit], hrest⟩

theorem colon_not_mem_field {field : String} (h : field ∈ retaggableProductMetadataFields) :
    ':' ∉ field.toList :=
  (by decide : ∀ field ∈ retaggableProductMetadataFields, ':' ∉ field.toList) field h

theorem proposalKey_inj (hinj : Function.Injective lib.idText)
    (hcolon : ∀ id, ':' ∉ (lib.idText id).toList) {id id' : ObjectId} {field field' value value' : String}
    (hfield : field ∈ retaggableProductMetadataFields)
    (hfield' : field' ∈ retaggableProductMetadataFields)
    (h : proposalKey lib id field value = proposalKey lib id' field' value') :
    id = id' ∧ field = field' ∧ value = value' := by
  have hlist : ∀ (id : ObjectId) (field value : String), (proposalKey lib id field value).toList =
      (lib.idText id).toList ++ ':' :: (field.toList ++ ':' :: value.toList) := by
    intro id field value
    simp [proposalKey]
  have hkeys := congrArg String.toList h
  rw [hlist, hlist] at hkeys
  obtain ⟨hid, hrest⟩ := append_colon_inj (hcolon id) (hcolon id') hkeys
  obtain ⟨hfields, hvalues⟩ := append_colon_inj (colon_not_mem_field hfield)
    (colon_not_mem_field hfield') hrest
  exact ⟨hinj (String.toList_injective hid), String.toList_injective hfields,
    String.toList_injective hvalues⟩

theorem field_of_proposalsForProduct {texts : Texts} {p : Product} {g : SearchGraph}
    {targets : Targets} {fields : List TaxonomyField} {drafts : List ProposalDraft}
    (h : proposalsForProduct texts p g targets fields = .ok drafts) {d : ProposalDraft}
    (hd : d ∈ drafts) : d.field ∈ retaggableProductMetadataFields := by
  unfold proposalsForProduct at h
  split at h
  · cases h
  · rename_i existing _
    cases houtput : candidates texts fields g p existing targets.entries with
    | error e => rw [houtput] at h; cases h
    | ok output =>
      rw [houtput] at h
      obtain rfl := Except.ok.inj h
      obtain ⟨⟨target, signal⟩, -, hcandidate⟩ :=
        (mem_candidates houtput).1 (ranked_perm.mem_iff.1 (capped_sublist.subset hd))
      obtain ⟨n, document, current, haddable⟩ := addable_of_candidate hcandidate
      rw [candidate_of_addable haddable] at hcandidate
      rw [(suggestion_spec (Except.ok.inj hcandidate)).1]
      exact haddable.hasField

/-- What the documents of a batch are made of. -/
theorem mem_stagedDocuments {graph : Graph} {targets : List (String × Document)}
    {fields : List TaxonomyField} {runID : String} {now : Time} {products : List Product}
    {documents : List ProposalDocument}
    (h : stagedDocuments lib graph targets fields runID now products = .ok documents)
    {d : ProposalDocument} (hd : d ∈ documents) :
    ∃ p ∈ products, ∃ drafts draft, lib.proposalsForProduct p graph targets fields = .ok drafts ∧
      draft ∈ drafts ∧ d = draft.document lib p.id graph runID now := by
  induction products generalizing documents with
  | nil =>
    obtain rfl := Except.ok.inj h
    exact absurd hd List.not_mem_nil
  | cons p products ih =>
    rw [stagedDocuments] at h
    split at h
    · rename_i drafts rest hdrafts hrest
      obtain rfl := Except.ok.inj h
      rcases List.mem_append.1 hd with hd | hd
      · obtain ⟨draft, hdraft, rfl⟩ := List.mem_map.1 hd
        exact ⟨p, .head _, drafts, draft, hdrafts, hdraft, rfl⟩
      · obtain ⟨q, hq, h⟩ := ih hrest hd
        exact ⟨q, .tail _ hq, h⟩
    · cases h
    · cases h

/-- The keys of a batch depend neither on the run nor on the time. -/
theorem keys_stagedDocuments {graph : Graph} {targets : List (String × Document)}
    {fields : List TaxonomyField} {runID runID' : String} {now now' : Time} {products : List Product} :
    (stagedDocuments lib graph targets fields runID now products).map (·.map (·.proposalKey)) =
      (stagedDocuments lib graph targets fields runID' now' products).map
        (·.map (·.proposalKey)) := by
  induction products with
  | nil => rfl
  | cons p products ih =>
    rw [stagedDocuments, stagedDocuments]
    cases lib.proposalsForProduct p graph targets fields with
    | error e => rfl
    | ok drafts =>
      cases hrest : stagedDocuments lib graph targets fields runID now products with
      | error e =>
        cases hrest' : stagedDocuments lib graph targets fields runID' now' products with
        | error e' =>
          rw [hrest, hrest'] at ih
          exact ih
        | ok rest' => rw [hrest, hrest'] at ih; cases ih
      | ok rest =>
        cases hrest' : stagedDocuments lib graph targets fields runID' now' products with
        | error e' => rw [hrest, hrest'] at ih; cases ih
        | ok rest' =>
          rw [hrest, hrest'] at ih
          have hkeys : rest.map (·.proposalKey) = rest'.map (·.proposalKey) := Except.ok.inj ih
          refine congrArg Except.ok ?_
          change List.map _ (_ ++ rest) = List.map _ (_ ++ rest')
          rw [List.map_append, List.map_append, hkeys, List.map_map, List.map_map]
          rfl

end Keys

/-! ## What an execution knows -/

/-- Commands keep the taxonomy, the products and the stored proposals. -/
structure Grows (w w' : World) : Prop where
  taxonomy : w'.taxonomy = w.taxonomy
  products : w'.products = w.products
  proposals : ∀ p ∈ w.proposals, p ∈ w'.proposals

theorem Grows.holdsKey {w w' : World} (h : Grows w w') {key : String} (hkey : w.HoldsKey key) :
    w'.HoldsKey key := by
  obtain ⟨p, hp, hkey⟩ := hkey
  exact ⟨p, h.proposals p hp, hkey⟩

theorem grows_env {w : World} (e : Env) : Grows w (e.apply w) := by
  cases e <;> exact ⟨rfl, rfl, fun _ hp => hp⟩

/-- The keys an execution has found and those of the documents it has inserted are taken. -/
structure Knows (fields : List TaxonomyField) (w : World) (request : StageRequest)
    (l : StagePhase) : Prop where
  fields : l.fields = none ∨ l.fields = some fields
  products : ∀ p ∈ l.products, p ∈ w.products
  found : ∀ existing, l.existing = some existing → ∀ key ∈ existing, w.HoldsKey key
  inserted : l.inserted = true →
    l.existing.isSome ∧ ∀ d ∈ request.documents lib l, w.HoldsKey d.proposalKey

/-- An execution that starts on a store with some keys finds them, and it inserts no document with
one of them. -/
structure Spares (w₁ : World) (request : StageRequest) (l : StagePhase) : Prop where
  read : l.existing.isSome → l.fields.isSome
  found : ∀ existing, l.existing = some existing →
    ∀ d ∈ request.documents lib l, w₁.HoldsKey d.proposalKey → d.proposalKey ∈ existing
  sent : l.sent = true →
    l.existing.isSome ∧ ∃ d ∈ request.documents lib l, ¬ w₁.HoldsKey d.proposalKey

section Knows

variable {lib} {forbiddenText : String → Bool} {o : Oracle} {w w' w₁ : World}
variable {request : StageRequest} {l : StagePhase} {fields : List TaxonomyField}

theorem Knows.start : Knows lib fields w request {} :=
  ⟨.inl rfl, nofun, nofun, nofun⟩

theorem Spares.start : Spares lib w₁ request {} := ⟨nofun, nofun, nofun⟩

theorem Knows.rely (h : Knows lib fields w request l) (hgrows : Grows w w') :
    Knows lib fields w' request l where
  fields := h.fields
  products p hp := by
    rw [hgrows.products]
    exact h.products p hp
  found existing hexisting key hkey := hgrows.holdsKey (h.found existing hexisting key hkey)
  inserted hinserted := (h.inserted hinserted).imp_right fun hdocuments d hd =>
    hgrows.holdsKey (hdocuments d hd)

/-- A permitted command reads, moves the cursor, or inserts. -/
theorem grows_exec {cmd : Cmd} {r : Resp cmd} (hpermits : StagePermits lib request l cmd)
    (h : cmd.exec forbiddenText o w = some (r, w')) : Grows w w' := by
  have hframe := exec_frame h
  cases cmd with
  | insertProposals documents =>
    exact ⟨hframe.taxonomy, hframe.products nofun, (exec_insertProposals h).1⟩
  | taxonomySnapshot | findCursor | findProducts after limit | setCursor id | now
  | findProposalKeys keys =>
    refine ⟨hframe.taxonomy, hframe.products nofun, fun p hp => ?_⟩
    rwa [hframe.proposals nofun]
  | _ => exact hpermits.elim

theorem keyed_exec {lib' : Library} {cmd : Cmd} {r : Resp cmd}
    (hdocuments : ∀ d ∈ request.documents lib' l, d.field ∈ retaggableProductMetadataFields ∧
      d.proposalKey = proposalKey lib d.productID d.field d.value)
    (hpermits : StagePermits lib' request l cmd) (h : cmd.exec forbiddenText o w = some (r, w'))
    (hw : w.Keyed lib) : w'.Keyed lib := by
  have hframe := exec_frame h
  cases cmd with
  | insertProposals documents =>
    obtain ⟨-, existing, -, rfl⟩ := hpermits
    intro p hp
    rcases (exec_insertProposals h).2.1 p hp with hstored | hgiven
    · exact hw p hstored
    · exact hdocuments _ (List.mem_of_mem_filter hgiven)
  | taxonomySnapshot | findCursor | findProducts after limit | setCursor id | now
  | findProposalKeys keys =>
    unfold World.Keyed
    rw [hframe.proposals nofun]
    exact hw
  | _ => exact hpermits.elim

/-- The commands of the scan find no keys. -/
theorem stageNext_scan {cmd : Cmd} {r : Resp cmd} (hfind : ∀ keys, cmd ≠ .findProposalKeys keys)
    (hinsert : ∀ documents, cmd ≠ .insertProposals documents) :
    (stageNext l cmd r).existing = l.existing ∧ (stageNext l cmd r).sent = l.sent ∧
      (stageNext l cmd r).inserted = l.inserted := by
  cases cmd with
  | findProposalKeys keys => exact absurd rfl (hfind keys)
  | insertProposals documents => exact absurd rfl (hinsert documents)
  | _ => cases r <;> exact ⟨rfl, rfl, rfl⟩

theorem existing_of_scan {cmd : Cmd} (hpermits : StagePermits lib request l cmd)
    (hinsert : ∀ documents, cmd ≠ .insertProposals documents) : l.existing = none := by
  cases cmd with
  | taxonomySnapshot => exact hpermits.2
  | findCursor | findProducts after limit | setCursor id | now => exact hpermits.2
  | findProposalKeys keys => exact hpermits.1.2
  | insertProposals documents => exact absurd rfl (hinsert documents)
  | _ => exact hpermits.elim

theorem fields_stageNext {cmd : Cmd} {r : Resp cmd} (hw : w.taxonomy.docs = fields)
    (hfields : l.fields = none ∨ l.fields = some fields)
    (h : cmd.exec forbiddenText o w = some (r, w')) :
    (stageNext l cmd r).fields = none ∨ (stageNext l cmd r).fields = some fields := by
  cases cmd with
  | taxonomySnapshot =>
    cases r with
    | error e => exact hfields
    | ok found =>
      obtain rfl := Except.ok.inj (respond_ok h)
      exact .inr (congrArg some hw)
  | insertProposals documents =>
    rcases r with (_ | _) | _
    all_goals exact hfields
  | _ => cases r <;> exact hfields

theorem products_stageNext {cmd : Cmd} {r : Resp cmd}
    (hproducts : ∀ p ∈ l.products, p ∈ w.products)
    (h : cmd.exec forbiddenText o w = some (r, w')) :
    ∀ p ∈ (stageNext l cmd r).products, p ∈ w.products := by
  cases cmd with
  | findProducts after limit =>
    cases r with
    | error e => exact hproducts
    | ok found =>
      obtain rfl := Except.ok.inj (respond_ok h)
      exact fun p hp => List.mem_of_mem_filter (mem_of_sortLimit hp)
  | insertProposals documents =>
    rcases r with (_ | _) | _
    all_goals exact hproducts
  | _ => cases r <;> exact hproducts

/-- The keys found are those of the given ones that are taken. -/
theorem exec_findProposalKeys {keys found : List String}
    (h : (Cmd.findProposalKeys keys).exec forbiddenText o w = some (.ok found, w')) {key : String} :
    key ∈ found ↔ key ∈ keys ∧ w.HoldsKey key := by
  obtain rfl := Except.ok.inj (respond_ok h)
  rw [List.mem_filter, List.mem_map, decide_eq_true_iff]
  exact and_comm

theorem Knows.exec (h : Knows lib fields w request l) (hw : w.taxonomy.docs = fields)
    {cmd : Cmd} {r : Resp cmd} (hpermits : StagePermits lib request l cmd)
    (hexec : cmd.exec forbiddenText o w = some (r, w')) :
    Knows lib fields w' request (stageNext l cmd r) := by
  have hgrows := grows_exec hpermits hexec
  have hfields := fields_stageNext hw h.fields hexec
  have hproducts : ∀ p ∈ (stageNext l cmd r).products, p ∈ w'.products := by
    rw [hgrows.products]
    exact products_stageNext h.products hexec
  by_cases hinsert : ∃ documents, cmd = .insertProposals documents
  · obtain ⟨documents, rfl⟩ := hinsert
    have hrely := h.rely hgrows
    obtain ⟨-, existing, hexisting, rfl⟩ := hpermits
    have hanswered : InsertionDone r → ∀ d ∈ request.documents lib l, w'.HoldsKey d.proposalKey := by
      intro hr d hd
      by_cases hfound : d.proposalKey ∈ existing
      · exact hrely.found existing hexisting _ hfound
      · exact (exec_insertProposals hexec).2.2 hr d
          (List.mem_filter.2 ⟨hd, decide_eq_true hfound⟩)
    have hsome : l.existing.isSome := by rw [hexisting]; rfl
    cases r with
    | ok => exact ⟨hfields, hproducts, hrely.found, fun _ => ⟨hsome, hanswered (.inl rfl)⟩⟩
    | error e =>
      cases e with
      | bulkWrite codes =>
        exact ⟨hfields, hproducts, hrely.found, fun _ => ⟨hsome, hanswered (.inr ⟨codes, rfl⟩)⟩⟩
      | _ => exact ⟨hfields, hproducts, hrely.found, hrely.inserted⟩
  · have hnone : l.existing = none :=
      existing_of_scan hpermits fun documents heq => hinsert ⟨documents, heq⟩
    have hunsent : l.inserted ≠ true := fun hinserted => by
      have hsome := (h.inserted hinserted).1
      rw [hnone] at hsome
      cases hsome
    by_cases hfind : ∃ keys, cmd = .findProposalKeys keys
    · obtain ⟨keys, rfl⟩ := hfind
      cases r with
      | error e => exact h.rely hgrows
      | ok found =>
        refine ⟨hfields, hproducts, ?_, fun hinserted => absurd hinserted hunsent⟩
        rintro _ ⟨⟩ key hkey
        exact hgrows.holdsKey ((exec_findProposalKeys hexec).1 hkey).2
    · obtain ⟨hexisting, -, hinserted⟩ := stageNext_scan (l := l) (r := r)
        (fun keys heq => hfind ⟨keys, heq⟩) fun documents heq => hinsert ⟨documents, heq⟩
      refine ⟨hfields, hproducts, fun existing hsome => ?_, fun h' => absurd (hinserted ▸ h') hunsent⟩
      rw [hexisting, hnone] at hsome
      cases hsome

theorem Spares.exec (h : Spares lib w₁ request l) (hw : ∀ p ∈ w₁.proposals, p ∈ w.proposals)
    {cmd : Cmd} {r : Resp cmd} (hpermits : StagePermits lib request l cmd)
    (hexec : cmd.exec forbiddenText o w = some (r, w')) :
    Spares lib w₁ request (stageNext l cmd r) := by
  by_cases hinsert : ∃ documents, cmd = .insertProposals documents
  · obtain ⟨documents, rfl⟩ := hinsert
    obtain ⟨hne, existing, hexisting, rfl⟩ := hpermits
    have hsent : l.existing.isSome ∧ ∃ d ∈ request.documents lib l, ¬ w₁.HoldsKey d.proposalKey := by
      obtain ⟨d, hd⟩ := List.exists_mem_of_ne_nil _ hne
      obtain ⟨hd, hnew⟩ := List.mem_filter.1 hd
      exact ⟨by rw [hexisting]; rfl, d, hd, fun hkey =>
        of_decide_eq_true hnew (h.found existing hexisting d hd hkey)⟩
    rcases r with (_ | _) | _
    all_goals exact ⟨h.read, h.found, fun _ => hsent⟩
  · have hnone : l.existing = none :=
      existing_of_scan hpermits fun documents heq => hinsert ⟨documents, heq⟩
    have hunsent : l.sent ≠ true := fun hsent => by
      have hsome := (h.sent hsent).1
      rw [hnone] at hsome
      cases hsome
    by_cases hfind : ∃ keys, cmd = .findProposalKeys keys
    · obtain ⟨keys, rfl⟩ := hfind
      cases r with
      | error e => exact h
      | ok found =>
        refine ⟨fun _ => hpermits.1.1, ?_, fun hsent => absurd hsent hunsent⟩
        rintro _ ⟨⟩ d hd ⟨p, hp, hkey⟩
        refine (exec_findProposalKeys hexec).2 ⟨?_, p, hw p hp, hkey⟩
        rw [hpermits.2]
        exact List.mem_map_of_mem hd
    · obtain ⟨hexisting, hsent, -⟩ := stageNext_scan (l := l) (r := r)
        (fun keys heq => hfind ⟨keys, heq⟩) fun documents heq => hinsert ⟨documents, heq⟩
      rw [hnone] at hexisting
      refine ⟨fun hsome => ?_, fun existing hsome => ?_, fun h' => absurd (hsent ▸ h') hunsent⟩
      · rw [hexisting] at hsome
        cases hsome
      · rw [hexisting] at hsome
        cases hsome

/-- When an execution is done the keys of its documents are taken. -/
theorem Knows.holds (h : Knows lib fields w request l) (hdone : request.Done lib l)
    {d : ProposalDocument} (hd : d ∈ request.documents lib l) : w.HoldsKey d.proposalKey := by
  obtain ⟨-, hnil | hinserted | ⟨existing, hexisting, hfound⟩⟩ := hdone
  · rw [hnil] at hd
    exact absurd hd List.not_mem_nil
  · exact (h.inserted hinserted).2 d hd
  · exact h.found existing hexisting _ (hfound d hd)

/-- The keys of an execution's documents depend on the graph, the failures and what was read. -/
theorem keys_documents {request' : StageRequest} {l' : StagePhase}
    (hgraph : request'.graph = request.graph) (hfailures : request'.failures = request.failures)
    (hdepth : request'.depth = request.depth) (hfields : l'.fields = l.fields)
    (hproducts : l'.products = l.products) :
    (request'.documents lib l').map (·.proposalKey) = (request.documents lib l).map (·.proposalKey) := by
  unfold StageRequest.documents
  rw [hgraph, hfailures, hdepth, hfields, hproducts]
  cases lib.targetSignals request.graph request.failures request.depth (l.fields.getD []) with
  | error e => rfl
  | ok targets =>
    dsimp only
    have hkeys : (stagedDocuments lib request.graph targets (l.fields.getD []) request'.runID l'.now
          l.products).map (·.map (·.proposalKey)) =
        (stagedDocuments lib request.graph targets (l.fields.getD []) request.runID l.now
          l.products).map (·.map (·.proposalKey)) := keys_stagedDocuments
    cases hnew : stagedDocuments lib request.graph targets (l.fields.getD []) request'.runID l'.now
      l.products with
    | error e =>
      cases hold : stagedDocuments lib request.graph targets (l.fields.getD []) request.runID l.now
        l.products with
      | error e' => rfl
      | ok documents => rw [hnew, hold] at hkeys; cases hkeys
    | ok documents =>
      cases hold : stagedDocuments lib request.graph targets (l.fields.getD []) request.runID l.now
        l.products with
      | error e' => rw [hnew, hold] at hkeys; cases hkeys
      | ok documents' =>
        rw [hnew, hold] at hkeys
        exact Except.ok.inj hkeys

/-- An execution that has issued an insertion has sent documents. -/
theorem sent_of_trace {tr : List (Σ cmd, Resp cmd)} {documents : List ProposalDocument}
    {r : Resp (.insertProposals documents)} (h : ⟨.insertProposals documents, r⟩ ∈ tr) :
    ((request.protocol lib).phase l tr).sent = true := by
  induction tr with
  | nil => cases h
  | cons e tr ih =>
    change (stageNext ((request.protocol lib).phase l tr) e.1 e.2).sent = true
    rcases List.mem_cons.1 h with rfl | htail
    · rcases r with (_ | _) | _
      all_goals rfl
    · obtain ⟨cmd, r⟩ := e
      cases cmd with
      | insertProposals documents =>
        rcases r with (_ | _) | _
        all_goals rfl
      | _ => cases r <;> exact ih htail

end Knows

/-! ## Every run -/

section Runs

variable {lib} {texts : Texts} {graphOf : Graph → SearchGraph}
variable {targetsOf : List (String × Document) → Targets} {w₀ : World} {σ σ₁ σ₂ : StageState}

theorem keyed_documents {request : StageRequest} {l : StagePhase} {d : ProposalDocument}
    (hd : d ∈ request.documents (lib.retagging texts graphOf targetsOf) l) :
    d.field ∈ retaggableProductMetadataFields ∧
      d.proposalKey = proposalKey lib d.productID d.field d.value := by
  unfold StageRequest.documents at hd
  split at hd
  · exact absurd hd List.not_mem_nil
  · split at hd
    · exact absurd hd List.not_mem_nil
    · rename_i documents hdocuments
      obtain ⟨p, -, drafts, draft, hdrafts, hdraft, rfl⟩ := mem_stagedDocuments hdocuments hd
      exact ⟨field_of_proposalsForProduct hdrafts hdraft, rfl⟩

/-- The store's products, whether it is keyed, and what every execution knows at any time. -/
theorem knows_of_reach
    (h : (staging (lib.retagging texts graphOf targetsOf)).Reach (fun _ _ => True) (Pool.init w₀) σ) :
    σ.shared.products = w₀.products ∧ (w₀.Keyed lib → σ.shared.Keyed lib) ∧
      ∀ t th, σ.threads t = some th → Knows (lib.retagging texts graphOf targetsOf)
        w₀.taxonomy.docs σ.shared th.op (phaseOf (lib.retagging texts graphOf targetsOf) σ t th.op) := by
  obtain ⟨⟨-, hproducts, hkeyed⟩, hknows⟩ := h.known
    (P := StageRequest.protocol (lib.retagging texts graphOf targetsOf))
    (G := Grows)
    (W := fun s => s.taxonomy.docs = w₀.taxonomy.docs ∧ s.products = w₀.products ∧
      (w₀.Keyed lib → s.Keyed lib))
    (J := fun s _ request l => Knows (lib.retagging texts graphOf targetsOf) w₀.taxonomy.docs s request l)
    (fun request => StageRequest.conforms) .init ⟨rfl, rfl, id⟩ (fun t op l b ht => by cases ht)
    (fun s t request => .start) (fun s s' t request l hgrows h => h.rely hgrows)
    (fun s t request l cmd o r s' hW hJ hpermits hexec => by
      have hgrows := grows_exec hpermits hexec
      exact ⟨hgrows, ⟨by rw [hgrows.taxonomy]; exact hW.1, hgrows.products.trans hW.2.1,
        fun hkeyed => keyed_exec (fun d hd => keyed_documents hd) hpermits hexec (hW.2.2 hkeyed)⟩,
        hJ.exec hW.1 hpermits hexec⟩)
    (fun s e hW => ⟨grows_env e, by cases e <;> exact hW⟩)
  exact ⟨hproducts, hkeyed, fun t th ht => hknows t th.op _ th.alive (by simp [Pool.config, ht, phaseOf])⟩

/-- What is stored stays, and an execution that starts later spares the keys that are taken. -/
theorem spares_of_reach (h₁ : (staging lib).Reach (fun _ _ => True) (Pool.init w₀) σ₁)
    (h₂ : (staging lib).Reach (fun _ _ => True) σ₁ σ₂) :
    (∀ p ∈ σ₁.shared.proposals, p ∈ σ₂.shared.proposals) ∧
      ∀ t th, σ₁.threads t = none → σ₂.threads t = some th →
        Spares lib σ₁.shared th.op (phaseOf lib σ₂ t th.op) := by
  obtain ⟨hstored, hspares⟩ := h₂.known
    (P := StageRequest.protocol lib) (G := Grows)
    (W := fun s => ∀ p ∈ σ₁.shared.proposals, p ∈ s.proposals)
    (J := fun _ t request l => σ₁.threads t = none → Spares lib σ₁.shared request l)
    (fun request => StageRequest.conforms) (h₁.conforming (fun _ => StageRequest.conforms) .init)
    (fun p hp => hp) (fun t op l b ht hnone => by simp [Pool.config, hnone] at ht)
    (fun s t request _ => .start) (fun s s' t request l _ h => h)
    (fun s t request l cmd o r s' hW hJ hpermits hexec => by
      have hgrows := grows_exec hpermits hexec
      exact ⟨hgrows, fun p hp => hgrows.proposals p (hW p hp),
        fun hnone => (hJ hnone).exec hW hpermits hexec⟩)
    (fun s e hW => ⟨grows_env e, fun p hp => (grows_env e).proposals p (hW p hp)⟩)
  exact ⟨hstored, fun t th hnone ht =>
    hspares t th.op _ th.alive (by simp [Pool.config, ht, phaseOf]) hnone⟩

/-- No stored proposal is ever changed. Every document of an execution that has returned is stored
once, and in a keyed store its tag has no other document. A later execution on the same batch issues
no insertion. -/
theorem stageRetagProposals_once (hinj : Function.Injective lib.idText)
    (hcolon : ∀ id, ':' ∉ (lib.idText id).toList)
    (h₁ : (staging (lib.retagging texts graphOf targetsOf)).Reach (fun _ _ => True)
      (Pool.init w₀) σ₁)
    (h₂ : (staging (lib.retagging texts graphOf targetsOf)).Reach (fun _ _ => True) σ₁ σ₂) :
    (∀ p ∈ σ₁.shared.proposals, p ∈ σ₂.shared.proposals) ∧
    ∀ t request result, σ₁.result t = some (request, .ok result) →
      (∀ d ∈ request.documents (lib.retagging texts graphOf targetsOf)
          (phaseOf (lib.retagging texts graphOf targetsOf) σ₁ t request),
        (∃! p, p ∈ σ₂.shared.proposals ∧ p.proposalKey = d.proposalKey) ∧
        (w₀.Keyed lib → ∃! p, p ∈ σ₂.shared.proposals ∧
          p.productID = d.productID ∧ p.field = d.field ∧ p.value = d.value)) ∧
      ∀ u th, σ₁.threads u = none → σ₂.threads u = some th → th.op.graph = request.graph →
        th.op.failures = request.failures → th.op.depth = request.depth →
        (phaseOf (lib.retagging texts graphOf targetsOf) σ₂ u th.op).products.map (·.id) =
          (phaseOf (lib.retagging texts graphOf targetsOf) σ₁ t request).products.map (·.id) →
        ∀ documents r, ⟨.insertProposals documents, r⟩ ∉ σ₂.trace u := by
  obtain ⟨hstored, hspares⟩ := spares_of_reach h₁ h₂
  refine ⟨hstored, fun t request result hresult => ?_⟩
  obtain ⟨l, b, hview, hdone⟩ :=
    (h₁.conforming (fun _ => StageRequest.conforms) .init).result hresult
  obtain rfl := Pool.phase_of_view hview
  obtain ⟨th, ht, hth⟩ := Option.map_eq_some_iff.1 hview
  obtain rfl : th.op = request := (View.mk.inj hth).1
  obtain ⟨hproducts₁, -, hknows₁⟩ := knows_of_reach h₁
  obtain ⟨hproducts₂, hkeyed₂, hknows₂⟩ := knows_of_reach (h₁.trans h₂)
  have hknows := hknows₁ t th ht
  have hholds : ∀ d ∈ th.op.documents (lib.retagging texts graphOf targetsOf)
      (phaseOf (lib.retagging texts graphOf targetsOf) σ₁ t th.op),
      σ₁.shared.HoldsKey d.proposalKey := fun d hd => hknows.holds (hdone result rfl) hd
  refine ⟨fun d hd => ?_, ?_⟩
  · obtain ⟨p, hp, hkey⟩ := hholds d hd
    have honly : ∀ q ∈ σ₂.shared.proposals, q.proposalKey = d.proposalKey → q = p := fun q hq h =>
      Collection.eq_of_key_eq hq (hstored p hp) (h.trans hkey.symm)
    refine ⟨⟨p, ⟨hstored p hp, hkey⟩, fun q hq => honly q hq.1 hq.2⟩, fun hkeyed => ?_⟩
    obtain ⟨hfield, hkeyd⟩ := keyed_documents hd
    obtain ⟨hfieldp, hkeyp⟩ := hkeyed₂ hkeyed p (hstored p hp)
    refine ⟨p, ⟨hstored p hp, proposalKey_inj hinj hcolon hfieldp hfield ?_⟩, ?_⟩
    · rw [← hkeyp, hkey, hkeyd]
    · rintro q ⟨hq, hproduct, hqfield, hvalue⟩
      refine honly q hq ?_
      rw [(hkeyed₂ hkeyed q hq).2, hkeyd, hproduct, hqfield, hvalue]
  · intro u th' hnone hu hgraph hfailures hdepth hbatch documents r hmem
    have hspares := hspares u th' hnone hu
    obtain ⟨hexisting, d, hd, hnew⟩ := hspares.sent (sent_of_trace hmem)
    have hfields : (phaseOf (lib.retagging texts graphOf targetsOf) σ₂ u th'.op).fields =
        (phaseOf (lib.retagging texts graphOf targetsOf) σ₁ t th.op).fields := by
      have hread := hspares.read hexisting
      have hread' := (hdone result rfl).1
      rcases (hknows₂ u th' hu).fields with h | h
      · rw [h] at hread
        cases hread
      · rcases hknows.fields with h' | h'
        · exact absurd hread' (by unfold phaseOf at h'; rw [h']; exact Bool.false_ne_true)
        · rw [h, h']
    have hproducts := Collection.eq_of_map_id_eq (s := w₀.products)
      (hproducts₂ ▸ (hknows₂ u th' hu).products) (hproducts₁ ▸ hknows.products) hbatch
    have hkeys := @keys_documents (lib.retagging texts graphOf targetsOf) _ _ _ _ hgraph hfailures
      hdepth hfields hproducts
    have hkey := List.mem_map_of_mem (f := (·.proposalKey)) hd
    rw [hkeys] at hkey
    obtain ⟨d', hd', heq⟩ := List.mem_map.1 hkey
    exact hnew (heq ▸ hholds d' hd')

end Runs

/-! ## The same batch twice -/

namespace StageSample

/-- An identifier, in as many digits as an `ObjectId` has. -/
def idText (id : ObjectId) : String :=
  String.ofList (List.replicate (24 - (Nat.toDigits 10 id).length) '0' ++ Nat.toDigits 10 id)

/-- Every failure asks for one tag. -/
def library : Library :=
  { Sample.Reconciler.library with
    idText := idText
    targetSignals := fun _ _ _ _ => .ok [(taxonomyNode "season" "winter", [])] }

theorem idText_injective : Function.Injective library.idText := by
  intro id id' h
  change idText id = idText id' at h
  have hdigits := congrArg Numeral.digitsValue (congrArg String.toList h)
  simp only [idText, String.toList_ofList, Numeral.digitsValue_zeros_append] at hdigits
  have hvalue : ∀ n : ℕ, Numeral.digitsValue (Nat.toDigits 10 n) = n := fun n =>
    Nat.ofDigitChars_ten_toDigits
  rwa [hvalue, hvalue] at hdigits

theorem colon_not_mem_idText (id : ObjectId) : ':' ∉ (library.idText id).toList := by
  intro h
  change ':' ∈ (idText id).toList at h
  rw [idText, String.toList_ofList, List.mem_append] at h
  have hdigit : (':' : Char).isDigit := h.elim (Numeral.isDigit_replicate _) (Numeral.isDigit_toDigits _)
  cases hdigit

def retagging : Library :=
  library.retagging RetagSample.texts (fun _ => RetagSample.graph [RetagSample.link (9 / 10) 60])
    fun _ => RetagSample.targets

def world : World :=
  { Sample.Reconciler.world with
    taxonomy := ⟨RetagSample.fields, by decide, by decide⟩
    products := ⟨[RetagSample.product], by decide +kernel, by decide +kernel⟩
    proposals := ∅ }

def request : StageRequest where
  graph := ⟨⟨"main", 1, 1, true, "in", 2, "", "", [], ⟨[], []⟩, ⟨false, "disabled"⟩, ⟨0, 0, 0, 0⟩, 0⟩, 9⟩
  failures := []
  maxProducts := 10
  depth := 2
  runID := "trr_0"

def first : List (Label StageRequest Oracle Env) :=
  [.spawn 0 request] ++ List.replicate 6 (.exec 0 {}) ++ [.exec 0 { objectIDs := [7] }]

/-- The cursor is past the last product, so the pass starts again. -/
def again : List (Label StageRequest Oracle Env) :=
  .spawn 1 request :: List.replicate 7 (.exec 1 {})

end StageSample

open StageSample in
/-- The tag is stored once, and the second execution inserts nothing. -/
theorem stageRetagProposals_once_parka :
    ∃ σ₁ σ₂ : StageState, (σ₁.result 0).any (·.2.isOk) ∧ (σ₂.result 1).any (·.2.isOk) ∧
      (∃! p, p ∈ σ₂.shared.proposals ∧ p.productID = 1 ∧ p.field = "season" ∧ p.value = "winter") ∧
      ∀ documents r, ⟨.insertProposals documents, r⟩ ∉ σ₂.trace 1 := by
  have hrun : ((staging retagging).runWhere (fun _ _ => True) first (Pool.init world)).any fun σ₁ =>
      (σ₁.threads 1).isNone &&
      ((σ₁.result 0).any fun x => x.2.isOk) &&
      ((request.documents retagging (phaseOf retagging σ₁ 0 request)).any fun d =>
        d.productID = 1 ∧ d.field = "season" ∧ d.value = "winter") &&
      ((phaseOf retagging σ₁ 0 request).products.map (·.id) = [1]) &&
      (((staging retagging).runWhere (fun _ _ => True) again σ₁).any fun σ₂ =>
        ((σ₂.result 1).any fun x => x.2.isOk) &&
        ((phaseOf retagging σ₂ 1 request).products.map (·.id) = [1])) := by
    decide +kernel
  obtain ⟨σ₁, hrun₁, hcheck⟩ := (Option.any_eq_true ..).1 hrun
  simp only [Bool.and_eq_true] at hcheck
  obtain ⟨⟨⟨⟨hnone, hresult⟩, hproposed⟩, hbatch₁⟩, hagain⟩ := hcheck
  obtain ⟨σ₂, hrun₂, hcheck₂⟩ := (Option.any_eq_true ..).1 hagain
  rw [Bool.and_eq_true] at hcheck₂
  obtain ⟨hresult₂, hbatch₂⟩ := hcheck₂
  have h₁ : (staging retagging).Reach (fun _ _ => True) (Pool.init world) σ₁ :=
    .of_runWhere .refl hrun₁
  have h₂ : (staging retagging).Reach (fun _ _ => True) σ₁ σ₂ := .of_runWhere .refl hrun₂
  have hops₁ : (staging retagging).Reach (fun _ l => l ∈ first ++ again) (Pool.init world) σ₁ :=
    (System.Reach.of_run hrun₁).mono fun _ _ h => List.mem_append_left _ h
  have hops₂ : (staging retagging).Reach (fun _ l => l ∈ first ++ again) (Pool.init world) σ₂ :=
    hops₁.trans ((System.Reach.of_run hrun₂).mono fun _ _ h => List.mem_append_right _ h)
  have hspawn : ∀ (σ : StageState) (t : ℕ) (op : StageRequest), .spawn t op ∈ first ++ again →
      op = request := by
    intro σ t op h
    have hstart : t = 0 ∧ op = request ∨ t = 1 ∧ op = request := by simpa [first, again] using h
    exact hstart.elim (·.2) (·.2)
  obtain ⟨⟨op, r⟩, hreturned, hok⟩ := (Option.any_eq_true ..).1 hresult
  obtain ⟨result, rfl⟩ : ∃ result, r = .ok result := by
    cases r with
    | ok result => exact ⟨result, rfl⟩
    | error e => cases hok
  obtain ⟨th₁, hth₁, rfl⟩ := Pool.exists_thread hreturned
  obtain ⟨⟨op, r⟩, hreturned₂, -⟩ := (Option.any_eq_true ..).1 hresult₂
  obtain ⟨th, hth, -⟩ := Pool.exists_thread hreturned₂
  have hrequest₁ : th₁.op = request := hops₁.ops (p := (· = request)) hspawn hth₁
  have hrequest : th.op = request := hops₂.ops (p := (· = request)) hspawn hth
  rw [hrequest₁] at hreturned
  obtain ⟨d, hd, htag⟩ := List.any_eq_true.1 hproposed
  obtain ⟨hproduct, hfield, hvalue⟩ := of_decide_eq_true htag
  have hstaged := (stageRetagProposals_once idText_injective colon_not_mem_idText h₁ h₂).2 0 request
    result hreturned
  have hkeyed : world.Keyed library := fun p hp => absurd hp Collection.not_mem_empty
  have htags := (hstaged.1 d hd).2 hkeyed
  rw [hproduct, hfield, hvalue] at htags
  refine ⟨σ₁, σ₂, hresult, hresult₂, htags, ?_⟩
  refine hstaged.2 1 th (Option.isNone_iff_eq_none.1 hnone) hth (by rw [hrequest]) (by rw [hrequest])
    (by rw [hrequest]) ?_
  rw [hrequest]
  exact (of_decide_eq_true hbatch₂).trans (of_decide_eq_true hbatch₁).symm

end Reconciler

end Stylme
