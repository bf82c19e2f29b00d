-- SUMMARY: An application that runs alone gives each product the values of its applied proposals, and repeating it changes nothing.
import Stylme.Lib.Distinct
import Stylme.Reconciler.Application
import Stylme.Reconciler.System

/-!
# Applying retags

On a store whose metadata are lists, an application that no other operation disturbs decides
every proposal it selects, adds exactly the values it accepts, and leaves a later application
with the same arguments nothing to do unless its limit cut the selection.
-/

namespace Stylme

open Conc Backend

namespace Reconciler

/-! ## What an application does -/

/-- The status of a stored proposal. -/
def World.statusOf (w : World) (id : ObjectId) : Option ProposalStatus :=
  (w.proposals.get id).map (·.status)

variable (lib : Library)

/-- The limit leaves out no proposal. -/
def ApplyRequest.Uncut (request : ApplyRequest) (w : World) : Prop :=
  ∀ query, request.query lib = .ok query →
    (w.proposals.docs.filter query.selects).length ≤ request.limit

/-- The values of the selected proposals for a field of a product that the application from `w`
to `w'` has applied. -/
def appliedValues (request : ApplyRequest) (w w' : World) (pid : ObjectId) (field : String) :
    List String :=
  ((request.selection lib w).filter fun p => w'.statusOf p.id = some .applied ∧ p.productID = pid ∧
    p.field = field).map (·.value)

/-- The values are options of a metadata field that the product lacks and has room for. -/
structure Fitting (w : World) (p : Product) (field : String) (values : List String) : Prop where
  nodup : values.Nodup
  absent : ∀ v ∈ values, .str v ∉ p.items field
  allowed : ∃ document, lookupField w.taxonomy.docs field = some document ∧
    document.storage = some "product_metadata" ∧ (∀ v ∈ values, v ∈ document.options.map (·.key)) ∧
    ((p.items field ++ values.map Json.str).length : Int) ≤ document.limit

/-- The product after an application: its metadata are those of before with the applied values. -/
structure Retagged (request : ApplyRequest) (w w' : World) (p p' : Product) : Prop where
  rest : p' = { p with metadata := p'.metadata, reconciliation := p'.reconciliation }
  untouched : ∀ field, appliedValues lib request w w' p.id field = [] →
    p'.metadata.lookup field = p.metadata.lookup field
  touched : ∀ field, appliedValues lib request w w' p.id field ≠ [] →
    p'.metadata.lookup field =
        some (.arr (p.items field ++ (appliedValues lib request w w' p.id field).map .str)) ∧
      Fitting w p field (appliedValues lib request w w' p.id field)

/-- What an application does that returns `result`. -/
structure AppliedExactly (request : ApplyRequest) (w w' : World) (result : ApplyResult) : Prop where
  decided : ∀ p ∈ request.selection lib w,
    w'.statusOf p.id = some .applied ∨ w'.statusOf p.id = some .stale
  counted : result = ⟨(request.selection lib w).length,
    (request.selection lib w).countP fun p => w'.statusOf p.id = some .applied,
    (request.selection lib w).countP fun p => w'.statusOf p.id = some .stale⟩
  others : ∀ p ∈ w.proposals, p ∉ request.selection lib w → p ∈ w'.proposals
  owned : ∀ p ∈ request.selection lib w, w'.statusOf p.id = some .applied →
    ∃ product ∈ w.products, product.id = p.productID
  retagged : ∀ p ∈ w.products, ∃ p' ∈ w'.products, Retagged lib request w w' p p'
  same : ∀ p' ∈ w'.products, ∃ p ∈ w.products, p.id = p'.id

variable {lib} {request : ApplyRequest} {w w' : World} {result : ApplyResult} {p : Proposal}

/-! ## Selected proposals -/

theorem mem_selection (h : p ∈ request.selection lib w) :
    p ∈ w.proposals ∧ ∃ query, request.query lib = .ok query ∧ query.selects p = true := by
  unfold ApplyRequest.selection at h
  split at h
  · rename_i query hquery
    have hmem := List.mem_filter.1 (mem_of_sortLimit h)
    exact ⟨hmem.1, query, hquery, hmem.2⟩
  · exact absurd h List.not_mem_nil

theorem selection_ids_nodup : ((request.selection lib w).map (·.id)).Nodup := by
  unfold ApplyRequest.selection
  split
  · exact nodup_map_sortLimit ((List.filter_sublist.map _).nodup w.proposals.ids_nodup)
  · exact .nil

variable (lib request w) in
theorem plan_exact : (request.plan lib w).Exact w.taxonomy.docs
    (proposedIn w (request.selection lib w)) (request.selection lib w) :=
  RetagPlan.planRetags_exact

variable (lib request w) in
theorem plan_sound : (request.plan lib w).Sound w.taxonomy.docs
    (proposedIn w (request.selection lib w)) (request.selection lib w) :=
  RetagPlan.planRetags_sound

/-- A product that was read for a proposal is the stored one. -/
theorem find_proposedIn {proposals : List Proposal} {id : ObjectId} {product : Product}
    (h : (proposedIn w proposals).find? (·.id = id) = some product) :
    product ∈ w.products ∧ product.id = id := by
  have hmem := List.mem_of_find?_eq_some h
  refine ⟨List.mem_of_mem_filter (List.mem_of_mem_take hmem), ?_⟩
  have hid := List.find?_some h
  exact of_decide_eq_true hid

/-- Identifiers are decided one way or the other. -/
theorem decided_once (h : p ∈ request.selection lib w) :
    (p.id ∈ (request.plan lib w).appliedIDs ∧ p.id ∉ (request.plan lib w).staleIDs) ∨
      (p.id ∉ (request.plan lib w).appliedIDs ∧ p.id ∈ (request.plan lib w).staleIDs) := by
  have hdecided := (plan_exact lib request w).decided
  have hnodup := hdecided.nodup_iff.2 selection_ids_nodup
  have hdisjoint := (List.nodup_append.1 hnodup).2.2
  have hmem := hdecided.mem_iff.2 (List.mem_map_of_mem (f := (·.id)) h)
  rcases List.mem_append.1 hmem with happlied | hstale
  · exact .inl ⟨happlied, fun hstale => hdisjoint _ happlied _ hstale rfl⟩
  · exact .inr ⟨fun happlied => hdisjoint _ happlied _ hstale rfl, hstale⟩

theorem statusOf_eq {q : Proposal} (h : q ∈ w.proposals) : w.statusOf q.id = some q.status := by
  rw [World.statusOf, Collection.get_eq_some_iff.2 ⟨h, rfl⟩]
  rfl

theorem statusOf_landed (hland : Landed lib request w w' result) (h : p ∈ request.selection lib w) :
    (p.id ∈ (request.plan lib w).appliedIDs ∧ w'.statusOf p.id = some .applied) ∨
      (p.id ∉ (request.plan lib w).appliedIDs ∧ p.id ∈ (request.plan lib w).staleIDs ∧
        w'.statusOf p.id = some .stale) := by
  obtain ⟨now, hproposals⟩ := hland.proposals
  have hmem := (hproposals _).2 ⟨p, (mem_selection h).1, rfl⟩
  have hstatus := statusOf_eq hmem
  rw [Proposal.droppedFor_id, Proposal.appliedFor_id] at hstatus
  rcases decided_once h with ⟨happlied, hstale⟩ | ⟨happlied, hstale⟩
  · refine .inl ⟨happlied, hstatus.trans ?_⟩
    rw [Proposal.droppedFor, if_neg (by rwa [Proposal.appliedFor_id]), Proposal.appliedFor,
      if_pos happlied]
  · refine .inr ⟨happlied, hstale, hstatus.trans ?_⟩
    rw [Proposal.droppedFor, if_pos (by rwa [Proposal.appliedFor_id])]

theorem mem_taken_iff (h : p ∈ request.selection lib w) :
    p ∈ (request.plan lib w).taken ↔ p.id ∈ (request.plan lib w).appliedIDs := by
  have hexact := plan_exact lib request w
  rw [hexact.applied]
  refine ⟨List.mem_map_of_mem, fun hmem => ?_⟩
  obtain ⟨q, hq, hid⟩ := List.mem_map.1 hmem
  obtain rfl := List.inj_on_of_nodup_map selection_ids_nodup (hexact.sublist.subset hq) h hid
  exact hq

theorem applied_iff_taken (hland : Landed lib request w w' result) (h : p ∈ request.selection lib w) :
    w'.statusOf p.id = some .applied ↔ p ∈ (request.plan lib w).taken := by
  rw [mem_taken_iff h]
  rcases statusOf_landed hland h with ⟨happlied, hstatus⟩ | ⟨happlied, -, hstatus⟩
  · exact iff_of_true hstatus happlied
  · refine iff_of_false (fun happlied => ?_) happlied
    rw [hstatus] at happlied
    cases happlied

/-- The accepted proposals are the selected ones that end up applied. -/
theorem filter_applied (hland : Landed lib request w w' result) :
    ((request.selection lib w).filter fun p => w'.statusOf p.id = some .applied) =
      (request.plan lib w).taken := by
  refine filter_of_sublist (plan_exact lib request w).sublist (.of_map _ selection_ids_nodup) ?_
  intro p hp
  rw [decide_eq_true_eq]
  exact applied_iff_taken hland hp

theorem appliedValues_eq (hland : Landed lib request w w' result) {pid : ObjectId} {field : String} :
    appliedValues lib request w w' pid field = (request.plan lib w).values pid field := by
  rw [(plan_exact lib request w).values, ← filter_applied hland, List.filter_filter, appliedValues]
  refine congrArg _ (List.filter_congr fun p _ => ?_)
  rw [← Bool.decide_and, decide_eq_decide]
  exact and_comm

/-! ## Products -/

theorem items_of_lookup {product : Product} {field : String} {items : List Json}
    (h : product.metadata.lookup field = some (.arr items) ∨
      product.metadata.lookup field = none ∧ items = []) : product.items field = items := by
  rcases h with h | ⟨h, rfl⟩ <;> rw [Product.items, h]

theorem currentValues_items {product : Product} {field : String}
    (h : ∀ x ∈ product.metadata, ∃ items, x.2 = .arr items) :
    currentValues (product.metadata.lookup field) = product.items field := by
  unfold Product.items
  cases hlookup : product.metadata.lookup field with
  | none => rfl
  | some v =>
    obtain ⟨items, hitems⟩ := h _ (mem_of_lookup hlookup)
    dsimp only at hitems
    subst hitems
    rfl

/-- The accepted values of a field fit the stored product. -/
theorem fitting_values (hlisted : w.Listed) {product : Product} (hproduct : product ∈ w.products)
    {field : String} {values : List String}
    (h : (request.plan lib w).Pending product.id field values) :
    Fitting w product field ((request.plan lib w).values product.id field) := by
  have hexact := plan_exact lib request w
  have hstored : ∀ {q : Product}, (proposedIn w (request.selection lib w)).find? (·.id = product.id) =
      some q → q = product := fun hq =>
    Collection.eq_of_id_eq (find_proposedIn hq).1 hproduct (find_proposedIn hq).2
  -- each value stands for an accepted proposal for this field of this product
  have horigin : ∀ v ∈ (request.plan lib w).values product.id field,
      ∃ q ∈ (request.plan lib w).taken, q.productID = product.id ∧ q.field = field ∧ q.value = v := by
    intro v hv
    rw [hexact.values] at hv
    obtain ⟨q, hq, rfl⟩ := List.mem_map.1 hv
    obtain ⟨hq, hkept⟩ := List.mem_filter.1 hq
    obtain ⟨hpid, hfield⟩ := of_decide_eq_true hkept
    exact ⟨q, hq, hpid, hfield, rfl⟩
  refine ⟨hexact.distinct _ _, fun v hv hmem => ?_, ?_⟩
  · obtain ⟨q, hq, hpid, rfl, rfl⟩ := horigin v hv
    obtain ⟨document, product', -, hfind, -, -, habsent⟩ := hexact.admitted q hq
    rw [hpid] at hfind
    obtain rfl := hstored hfind
    rw [currentValues_items (hlisted _ hproduct)] at habsent
    exact habsent (any_isStr_iff.2 hmem)
  · have hvalues : (request.plan lib w).values product.id field = values :=
      (plan_sound lib request w).values_of_pending h
    obtain ⟨document, product', hdocument, hfind, hfits⟩ := (plan_sound lib request w).fits h
    obtain rfl := hstored hfind
    refine ⟨document, hdocument, ?_, fun v hv => ?_, ?_⟩
    · obtain ⟨q, hq, -, rfl⟩ := hexact.filled h
      obtain ⟨document', -, hdocument', -, hstorage, -⟩ := hexact.admitted q hq
      obtain rfl := Option.some.inj (hdocument.symm.trans hdocument')
      exact hstorage
    · obtain ⟨q, hq, -, rfl, rfl⟩ := horigin v hv
      obtain ⟨document', -, hdocument', -, -, hvalue, -⟩ := hexact.admitted q hq
      obtain rfl := Option.some.inj (hdocument.symm.trans hdocument')
      exact hvalue
    · rw [currentValues_items (hlisted _ hproduct)] at hfits
      rw [hvalues, List.length_append, List.length_map]
      exact_mod_cast hfits

variable (lib request w) in
theorem find_write {updatedAt : Time} {product : Product} :
    (((request.plan lib w).writes request.runID updatedAt).find? (·.productID = product.id)).map
      (·.additions) = (request.plan lib w).pending.lookup product.id := by
  rw [← @RetagPlan.writes_eq _ _ _ _ (plan_exact lib request w) request.runID updatedAt]
  induction (request.plan lib w).writes request.runID updatedAt with
  | nil => rfl
  | cons write writes ih =>
    rw [List.map_cons, lookup_cons_item, List.find?_cons]
    by_cases hid : product.id = write.productID
    · simp [hid]
    · simp [hid, Ne.symm hid, ih]

theorem retagged_of_written (hlisted : w.Listed) (hland : Landed lib request w w' result)
    {updatedAt : Time} {product product' : Product} (hproduct : product ∈ w.products)
    (h : product.written ((request.plan lib w).writes request.runID updatedAt) = some product') :
    Retagged lib request w w' product product' := by
  have hfind := @find_write lib request w updatedAt product
  unfold Product.written at h
  split at h
  · rename_i hnone
    obtain rfl := Option.some.inj h
    rw [hnone] at hfind
    have hvalues : ∀ field, appliedValues lib request w w' product.id field = [] := by
      intro field
      rw [appliedValues_eq hland, RetagPlan.values, ← hfind]
      rfl
    exact ⟨rfl, fun _ _ => rfl, fun field hne => absurd (hvalues field) hne⟩
  · rename_i write hwrite
    rw [hwrite] at hfind
    obtain ⟨metadata, hadd, rfl⟩ := Option.map_eq_some_iff.1 h
    have hpending := mem_of_lookup hfind.symm
    refine ⟨rfl, fun field hnil => ?_, fun field hne => ?_⟩
    · rw [appliedValues_eq hland] at hnil
      refine addFields_lookup_of_not_mem hadd fun hmem => ?_
      obtain ⟨⟨field', values⟩, haddition, rfl⟩ := List.mem_map.1 hmem
      have hfilled : (request.plan lib w).Pending product.id field' values :=
        ⟨_, hpending, haddition⟩
      obtain ⟨q, hq, hpid, hfield⟩ := (plan_exact lib request w).filled hfilled
      have hq' : q.value ∈ (request.plan lib w).values product.id field' := by
        rw [(plan_exact lib request w).values]
        exact List.mem_map_of_mem (List.mem_filter.2 ⟨hq, decide_eq_true ⟨hpid, hfield⟩⟩)
      rw [hnil] at hq'
      exact absurd hq' List.not_mem_nil
    · rw [appliedValues_eq hland] at hne ⊢
      obtain ⟨v, hv⟩ := List.exists_mem_of_ne_nil _ hne
      obtain ⟨values, ⟨additions, hadditions, hfield⟩, -⟩ := RetagPlan.pending_of_mem_values hv
      obtain rfl : additions = write.additions := by
        have hlookup := lookup_of_mem (plan_sound lib request w).productKeys hadditions
        exact Option.some.inj (hlookup.symm.trans hfind.symm)
      have hfilled : (request.plan lib w).Pending product.id field values :=
        ⟨_, hpending, hfield⟩
      have hvalues : (request.plan lib w).values product.id field = values :=
        (plan_sound lib request w).values_of_pending hfilled
      have hfitting := fitting_values hlisted hproduct hfilled
      refine ⟨?_, hfitting⟩
      obtain ⟨items, hitems, hlookup⟩ :=
        addFields_lookup_of_mem hadd ((plan_sound lib request w).fieldKeys _ hpending) hfield
      have hsame := items_of_lookup hitems
      rw [hvalues] at hfitting ⊢
      rw [hsame, ← addToSet_of_new hfitting.nodup (hsame ▸ hfitting.absent)]
      exact hlookup

theorem written_isSome (hlisted : w.Listed) {product : Product} (hproduct : product ∈ w.products)
    {writes : List ProductWrite} : ∃ product', product.written writes = some product' := by
  unfold Product.written
  split
  · exact ⟨product, rfl⟩
  · rename_i write _
    have hadd := @addFields_isSome product.metadata write.additions
      fun field v hlookup => hlisted product hproduct (field, v) (mem_of_lookup hlookup)
    obtain ⟨metadata, hmetadata⟩ := Option.isSome_iff_exists.1 hadd
    exact ⟨_, by rw [Product.added, hmetadata]; rfl⟩

/-- A proposal that was not selected stays as it is. -/
theorem landed_of_not_selected (hland : Landed lib request w w' result) (hp : p ∈ w.proposals)
    (h : p ∉ request.selection lib w) : p ∈ w'.proposals := by
  have hundecided : ¬ (p.id ∈ (request.plan lib w).appliedIDs ∨ p.id ∈ (request.plan lib w).staleIDs) := by
    intro hdecided
    obtain ⟨q, hq, hid⟩ := (plan_sound lib request w).decided p.id hdecided
    exact h (Collection.eq_of_id_eq (mem_selection hq).1 hp hid ▸ hq)
  obtain ⟨happlied, hstale⟩ := not_or.1 hundecided
  obtain ⟨now, hproposals⟩ := hland.proposals
  have hmem := (hproposals _).2 ⟨p, hp, rfl⟩
  rwa [Proposal.droppedFor, if_neg (by rwa [Proposal.appliedFor_id]), Proposal.appliedFor,
    if_neg happlied] at hmem

theorem counted_of_landed (hland : Landed lib request w w' result) :
    result = ⟨(request.selection lib w).length,
      (request.selection lib w).countP fun p => w'.statusOf p.id = some .applied,
      (request.selection lib w).countP fun p => w'.statusOf p.id = some .stale⟩ := by
  have hexact := plan_exact lib request w
  have happlied : (request.plan lib w).appliedIDs.length =
      (request.selection lib w).countP fun p => w'.statusOf p.id = some .applied := by
    rw [hexact.applied, List.length_map, ← filter_applied hland, List.countP_eq_length_filter]
  have hsplit := List.length_eq_countP_add_countP
    (fun p : Proposal => decide (w'.statusOf p.id = some .applied)) (l := request.selection lib w)
  have hstale : ((request.selection lib w).countP fun p =>
        ¬ decide (w'.statusOf p.id = some .applied) = true) =
      (request.selection lib w).countP fun p => w'.statusOf p.id = some .stale := by
    refine List.countP_congr fun p hp => ?_
    simp only [decide_eq_true_eq]
    rcases statusOf_landed hland hp with ⟨-, hstatus⟩ | ⟨-, -, hstatus⟩ <;> simp [hstatus]
  have hall := hexact.decided.length_eq
  rw [List.length_append, List.length_map] at hall
  rw [hland.result, happlied]
  congr 1
  omega

theorem appliedExactly_of_landed (hlisted : w.Listed) (hland : Landed lib request w w' result) :
    AppliedExactly lib request w w' result where
  decided p hp := by
    rcases statusOf_landed hland hp with ⟨-, hstatus⟩ | ⟨-, -, hstatus⟩
    · exact .inl hstatus
    · exact .inr hstatus
  counted := counted_of_landed hland
  others p hp h := landed_of_not_selected hland hp h
  owned p hp happlied := by
    obtain ⟨-, product, -, hfind, -⟩ :=
      (plan_exact lib request w).admitted p ((applied_iff_taken hland hp).1 happlied)
    exact ⟨product, find_proposedIn hfind⟩
  retagged product hproduct := by
    obtain ⟨updatedAt, hproducts⟩ := hland.products
    obtain ⟨product', hwritten⟩ := written_isSome hlisted hproduct
    exact ⟨product', (hproducts _).2 ⟨product, hproduct, hwritten⟩,
      retagged_of_written hlisted hland hproduct hwritten⟩
  same product' hproduct' := by
    obtain ⟨updatedAt, hproducts⟩ := hland.products
    obtain ⟨product, hproduct, hwritten⟩ := (hproducts _).1 hproduct'
    exact ⟨product, hproduct, (written_id hwritten).symm⟩

/-! ## The same application again -/

theorem open_of_selects {query : ProposalQuery} (h : query.selects p = true) :
    p.status = .proposed ∨ p.status = .approved := by
  cases query with
  | reviewable ids => exact (of_decide_eq_true h).2
  | autoEligible minimum => exact .inl (of_decide_eq_true h).1
  | approved minimum => exact .inr (of_decide_eq_true h).1

/-- If all that matched was selected, nothing matches any more. -/
theorem selection_eq_nil (hland : Landed lib request w w' result) (huncut : request.Uncut lib w) :
    request.selection lib w' = [] := by
  refine List.eq_nil_iff_forall_not_mem.2 fun q' hq' => ?_
  obtain ⟨hmem, query, hquery, hselects⟩ := mem_selection hq'
  obtain ⟨now, hproposals⟩ := hland.proposals
  obtain ⟨q, hq, heq⟩ := (hproposals q').1 hmem
  by_cases hselected : q ∈ request.selection lib w
  · have hid : q'.id = q.id := by rw [← heq, Proposal.droppedFor_id, Proposal.appliedFor_id]
    have hstatus := statusOf_eq hmem
    rw [hid] at hstatus
    rcases statusOf_landed hland hselected with ⟨-, hdecided⟩ | ⟨-, -, hdecided⟩ <;>
    · rw [hdecided] at hstatus
      rcases open_of_selects hselects with hopen | hopen <;>
      · rw [hopen] at hstatus
        cases hstatus
  · have hsame : q' = q := by
      refine Collection.eq_of_id_eq hmem (landed_of_not_selected hland hq hselected) ?_
      rw [← heq, Proposal.droppedFor_id, Proposal.appliedFor_id]
    refine hselected ?_
    rw [ApplyRequest.selection, hquery]
    exact (mem_sortLimit_of_length_le (huncut query hquery)).2
      (List.mem_filter.2 ⟨hq, hsame ▸ hselects⟩)

/-- An application that selects nothing leaves the products alone. -/
theorem applyRetagProposals_idle (h : request.selection lib w = []) :
    Prog.wp (Cmd.exec lib.forbiddenText) (fun _ w' => w'.products = w.products)
      (applyRetagProposals lib request) w := by
  have hnow : Raise.Preserves (Cmd.exec lib.forbiddenText) (fun w' => w'.products = w.products)
      (Raise.ask Cmd.now : Py Time) :=
    Raise.preserves_ask fun o r s s' hs hexec => ((exec_frame hexec).products nofun).trans hs
  refine Raise.wp_ask_bind.2 fun o r w₁ hexec => ?_
  obtain rfl := (respond_eq hexec).1
  cases r with
  | error e => rfl
  | ok fields =>
  refine Raise.wp_bind.2 (Raise.wp_lift.2 ?_)
  cases hquery : request.query lib with
  | error e => rfl
  | ok query =>
  refine Raise.wp_ask_bind.2 fun o r w₂ hexec => ?_
  obtain rfl := (respond_eq hexec).1
  cases r with
  | error e => rfl
  | ok proposals =>
  obtain rfl : proposals = [] := by
    rw [ApplyRequest.selection, hquery] at h
    exact (Except.ok.inj (respond_ok hexec)).symm.trans h
  -- the plan of an empty selection writes nothing
  refine Raise.preserves_bind hnow (fun updatedAt => ?_) _ rfl
  refine Raise.preserves_bind Raise.preserves_pure fun _ => ?_
  refine Raise.preserves_bind hnow fun now => ?_
  refine Raise.preserves_bind Raise.preserves_pure fun _ => ?_
  refine Raise.preserves_bind Raise.preserves_pure fun _ => ?_
  exact Raise.preserves_bind Raise.preserves_pure fun _ => Raise.preserves_pure

/-! ## The application returns -/

/-- Requests that do not fail. -/
abbrev faultlessExec (lib : Library) (cmd : Cmd) (o : Oracle) (w : World) : Option (Resp cmd × World) :=
  allowedExec lib.forbiddenText (·.fault.isNone) cmd o w

/-- The command is answered in every store, if it does not fail. -/
def Answered (lib : Library) (cmd : Cmd) : Prop :=
  ∀ w, ∃ x, cmd.exec lib.forbiddenText {} w = some x

theorem answered_addMetadata {write : ProductWrite} : Answered lib (.addMetadata write) := by
  intro w
  simp only [Cmd.exec]
  split
  · exact ⟨_, rfl⟩
  · split
    · exact ⟨_, rfl⟩
    · exact ⟨_, rfl⟩

theorem applyRetagProposals_answered :
    Keeps (fun _ cmd => Answered lib cmd) Anything (applyRetagProposals lib request) := by
  have hcommand : ∀ {cmd : Cmd}, Answered lib cmd →
      Keeps (fun _ cmd => Answered lib cmd) Anything (Raise.ask cmd) := fun h =>
    keeps_command fun _ => h
  refine keeps_bind (hcommand fun w => ⟨_, rfl⟩) fun fields => ?_
  refine keeps_bind (fun l hl => Raise.conforms_lift ?_) fun query => ?_
  · cases hquery : request.query lib with
    | error e => exact hl.raises (query_isException hquery)
    | ok query => exact hl.ends
  refine keeps_bind (hcommand fun w => ⟨_, rfl⟩) fun proposals => ?_
  refine keeps_bind ?_ fun products => ?_
  · unfold proposedProducts
    split
    · exact hcommand fun w => ⟨_, rfl⟩
    · exact keeps_pure
  refine keeps_bind (hcommand fun w => ⟨_, rfl⟩) fun updatedAt => ?_
  refine keeps_bind (keeps_forAll fun write _ => hcommand answered_addMetadata) fun _ => ?_
  refine keeps_bind (hcommand fun w => ⟨_, rfl⟩) fun now => ?_
  refine keeps_bind (keeps_when fun _ => ?_) fun _ => ?_
  · exact keeps_bind (hcommand fun w => ⟨_, rfl⟩) fun _ => hcommand fun w => ⟨_, rfl⟩
  refine keeps_bind (keeps_when fun _ => hcommand fun w => ⟨_, rfl⟩) fun _ => ?_
  refine keeps_bind (keeps_when fun _ => ?_) fun _ => keeps_pure
  exact keeps_bind (hcommand fun w => ⟨_, rfl⟩) fun _ => hcommand fun w => ⟨_, rfl⟩

/-- An application whose identifiers are valid has a run without faults. -/
theorem applyRetagProposals_ends :
    ∃ r w', Prog.Ends (faultlessExec lib) (applyRetagProposals lib request) w r w' := by
  refine (applyRetagProposals_answered {} ⟨rfl, trivial⟩).exists_end fun _ cmd s h => ?_
  obtain ⟨x, hexec⟩ := h s
  exact ⟨{}, x, allowedExec_iff.2 ⟨rfl, hexec⟩⟩

/-- An application that returns has done exactly what it decided, and a second one with the same
arguments changes no product unless the limit cut the selection; without faults and with valid
identifiers it returns. -/
theorem applyRetagProposals_exact (hlisted : w.Listed) :
    (∀ result w', Prog.Ends (Cmd.exec lib.forbiddenText) (applyRetagProposals lib request) w
        (.ok result) w' →
      AppliedExactly lib request w w' result ∧
      (request.Uncut lib w → ∀ r w'', Prog.Ends (Cmd.exec lib.forbiddenText)
        (applyRetagProposals lib request) w' r w'' → w''.products = w'.products)) ∧
    (∀ query, request.query lib = .ok query →
      (∃ r w', Prog.Ends (faultlessExec lib) (applyRetagProposals lib request) w r w') ∧
      ∀ r w', Prog.Ends (faultlessExec lib) (applyRetagProposals lib request) w r w' →
        ∃ result, r = .ok result) := by
  constructor
  · intro result w' hend
    have hwp := @applyRetagProposals_wp lib w (fun _ => true) True (fun _ _ _ => trivial) hlisted
      request fun _ => trivial
    have hland : Landed lib request w w' result := hend.wp
      (Prog.wp_of_le (fun c o s x h => allowedExec_iff.2 ⟨rfl, h⟩) hwp)
    refine ⟨appliedExactly_of_landed hlisted hland, fun huncut r w'' hagain => ?_⟩
    exact hagain.wp (applyRetagProposals_idle (selection_eq_nil hland huncut))
  · intro query hquery
    refine ⟨applyRetagProposals_ends, fun r w' hend => ?_⟩
    have hfault : ∀ o : Oracle, o.fault.isNone = true → o.fault.isSome → False := by
      intro o hnone hsome
      rw [Option.isNone_iff_eq_none.1 hnone] at hsome
      cases hsome
    have hpost := hend.wp (applyRetagProposals_wp hfault hlisted fun hno => hno query hquery)
    cases r with
    | error e => exact hpost.elim
    | ok result => exact ⟨result, rfl⟩

theorem listed_sample : Sample.Reconciler.world.Listed := by
  intro p hp x hx
  obtain rfl := List.mem_singleton.1 hp
  obtain rfl := List.mem_singleton.1 hx
  exact ⟨_, rfl⟩

open Sample.Reconciler in
theorem applyRetagProposals_exact_linen :
    (∀ result w', Prog.Ends (Cmd.exec library.forbiddenText)
        (applyRetagProposals library ⟨["linen"], 0, 500, false, none, none⟩) world (.ok result) w' →
      AppliedExactly library ⟨["linen"], 0, 500, false, none, none⟩ world w' result ∧
      (ApplyRequest.Uncut library ⟨["linen"], 0, 500, false, none, none⟩ world →
        ∀ r w'', Prog.Ends (Cmd.exec library.forbiddenText)
          (applyRetagProposals library ⟨["linen"], 0, 500, false, none, none⟩) w' r w'' →
          w''.products = w'.products)) ∧
    (∀ query, ApplyRequest.query library ⟨["linen"], 0, 500, false, none, none⟩ = .ok query →
      (∃ r w', Prog.Ends (faultlessExec library)
        (applyRetagProposals library ⟨["linen"], 0, 500, false, none, none⟩) world r w') ∧
      ∀ r w', Prog.Ends (faultlessExec library)
          (applyRetagProposals library ⟨["linen"], 0, 500, false, none, none⟩) world r w' →
        ∃ result, r = .ok result) :=
  applyRetagProposals_exact listed_sample

end Reconciler

end Stylme
