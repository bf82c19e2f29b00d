-- SUMMARY: What a plan for selected proposals contains: where its values come from and how many fit.
import Stylme.Domain.Dictionary
import Stylme.Reconciler.Retags

/-!
# Plans

The loop of `apply_retag_proposals` decides every selected proposal against the
products it has read and against what it has accepted before.
-/

namespace Stylme

open Conc Backend

namespace Reconciler

/-! ## Dictionaries -/

section SetItem

variable {κ α : Type} [DecidableEq κ] {k : κ} {v : α} {d : List (κ × α)}

theorem mem_of_setItem {x : κ × α} (h : x ∈ setItem k v d) : x = (k, v) ∨ x ∈ d := by
  induction d with
  | nil => exact .inl (List.mem_singleton.1 h)
  | cons y d ih =>
    obtain ⟨k', v'⟩ := y
    simp only [setItem] at h
    split at h
    · rcases List.mem_cons.1 h with h | h
      · exact .inl h
      · exact .inr (List.mem_cons_of_mem _ h)
    · rcases List.mem_cons.1 h with h | h
      · exact .inr (h ▸ List.mem_cons_self)
      · exact (ih h).imp_right (List.mem_cons_of_mem _)

theorem keys_setItem :
    (setItem k v d).map (·.1) = if k ∈ d.map (·.1) then d.map (·.1) else d.map (·.1) ++ [k] := by
  induction d with
  | nil => simp [setItem]
  | cons y d ih =>
    obtain ⟨k', v'⟩ := y
    simp only [setItem]
    by_cases hk : k' = k
    · simp [hk]
    · rw [if_neg hk, List.map_cons, ih]
      by_cases hmem : k ∈ d.map (·.1)
      · simp [hmem]
      · simp only [List.map_cons, List.mem_cons, hmem, or_false, Ne.symm hk, if_false,
          List.cons_append]

theorem nodup_keys_setItem (h : (d.map (·.1)).Nodup) : ((setItem k v d).map (·.1)).Nodup := by
  rw [keys_setItem]
  split
  · exact h
  · rename_i hk
    refine List.nodup_append.2 ⟨h, List.nodup_singleton _, ?_⟩
    intro a ha b hb hab
    exact hk (List.mem_singleton.1 hb ▸ hab ▸ ha)

theorem lookup_setItem {k' : κ} :
    (setItem k v d).lookup k' = if k' = k then some v else d.lookup k' := by
  induction d with
  | nil => rw [setItem, lookup_cons_item]
  | cons y d ih =>
    obtain ⟨k₀, v₀⟩ := y
    simp only [setItem]
    by_cases h₀ : k₀ = k
    · by_cases hk : k' = k <;> simp [lookup_cons_item, h₀, hk]
    · rw [if_neg h₀, lookup_cons_item, lookup_cons_item, ih]
      by_cases hk : k' = k₀
      · simp [hk, h₀]
      · simp [hk]

end SetItem

/-! ## The loop -/

namespace RetagPlan

variable {fields : List TaxonomyField} {products : List Product} {ps : List Proposal}
variable {plan : RetagPlan} {p : Proposal}

/-- The values pending for a field of a product. -/
def Pending (plan : RetagPlan) (productID : ObjectId) (field : String) (values : List String) :
    Prop :=
  ∃ additions, (productID, additions) ∈ plan.pending ∧ (field, values) ∈ additions

theorem pending_of_mem_values {pid : ObjectId} {field v : String} (h : v ∈ plan.values pid field) :
    ∃ values, plan.Pending pid field values ∧ v ∈ values := by
  unfold values at h
  cases hpid : plan.pending.lookup pid with
  | none => simp [hpid] at h
  | some additions =>
    cases hfield : additions.lookup field with
    | none => simp [hpid, hfield] at h
    | some values =>
      rw [hpid, Option.bind_some, hfield, Option.getD_some] at h
      exact ⟨values, ⟨additions, mem_of_lookup hpid, mem_of_lookup hfield⟩, h⟩

theorem accept_pending {pid : ObjectId} {field : String} {values : List String}
    (h : (plan.accept p).Pending pid field values) : plan.Pending pid field values ∨
      (pid = p.productID ∧ field = p.field ∧
        values = plan.values p.productID p.field ++ [p.value]) := by
  obtain ⟨additions, hmem, hfield⟩ := h
  rcases mem_of_setItem hmem with heq | hmem
  · obtain ⟨rfl, rfl⟩ := Prod.mk.inj heq
    rcases mem_of_setItem hfield with heq | hfield
    · obtain ⟨rfl, rfl⟩ := Prod.mk.inj heq
      exact .inr ⟨rfl, rfl, rfl⟩
    · left
      cases hlookup : plan.pending.lookup p.productID with
      | none => simp [hlookup] at hfield
      | some additions => exact ⟨additions, mem_of_lookup hlookup, by simpa [hlookup] using hfield⟩
  · exact .inl ⟨additions, hmem, hfield⟩

/-- The values of a field fit beside those the product was read with. -/
def Fits (fields : List TaxonomyField) (products : List Product) (pid : ObjectId) (field : String)
    (values : List String) : Prop :=
  ∃ document product, lookupField fields field = some document ∧
    products.find? (·.id = pid) = some product ∧
    ((currentValues (product.metadata.lookup field)).length + values.length : Int) ≤ document.limit

/-- What holds of the plan after the proposals `ps`. -/
structure Sound (fields : List TaxonomyField) (products : List Product) (ps : List Proposal)
    (plan : RetagPlan) : Prop where
  productKeys : (plan.pending.map (·.1)).Nodup
  fieldKeys : ∀ x ∈ plan.pending, (x.2.map (·.1)).Nodup
  fits : ∀ {pid field values}, plan.Pending pid field values → Fits fields products pid field values
  origin : ∀ {pid field values v}, plan.Pending pid field values → v ∈ values →
    ∃ p ∈ ps, p.productID = pid ∧ p.field = field ∧ p.value = v
  decided : ∀ id, id ∈ plan.appliedIDs ∨ id ∈ plan.staleIDs → ∃ p ∈ ps, p.id = id

theorem Sound.values_of_pending {pid : ObjectId} {field : String} {values : List String}
    (h : plan.Sound fields products ps) (hpending : plan.Pending pid field values) :
    plan.values pid field = values := by
  obtain ⟨additions, hadditions, hfield⟩ := hpending
  have hpid : plan.pending.lookup pid = some additions := lookup_of_mem h.productKeys hadditions
  have hvalues : additions.lookup field = some values := lookup_of_mem (h.fieldKeys _ hadditions) hfield
  rw [RetagPlan.values, hpid, Option.bind_some, hvalues, Option.getD_some]

theorem admits_fits (h : plan.admits fields products p) :
    Fits fields products p.productID p.field (plan.values p.productID p.field ++ [p.value]) := by
  unfold admits at h
  split at h
  · rename_i document product hdocument hproduct
    simp only [decide_eq_true_eq, Bool.decide_and, Bool.and_eq_true] at h
    refine ⟨document, product, hdocument, hproduct, ?_⟩
    rw [List.length_append, List.length_singleton]
    omega
  · cases h

theorem Sound.step (h : plan.Sound fields products ps) :
    (plan.step fields products p).Sound fields products (ps ++ [p]) := by
  have hold : ∀ q ∈ ps, q ∈ ps ++ [p] := fun q hq => List.mem_append_left _ hq
  have hnew : p ∈ ps ++ [p] := List.mem_append_right _ (List.mem_singleton_self _)
  have horigin : ∀ {pid field values v}, plan.Pending pid field values → v ∈ values →
      ∃ q ∈ ps ++ [p], q.productID = pid ∧ q.field = field ∧ q.value = v := by
    intro pid field values v hpending hv
    obtain ⟨q, hq, heq⟩ := h.origin hpending hv
    exact ⟨q, hold q hq, heq⟩
  have hdecided : ∀ id, id ∈ plan.appliedIDs ∨ id ∈ plan.staleIDs → ∃ q ∈ ps ++ [p], q.id = id := by
    intro id hid
    obtain ⟨q, hq, heq⟩ := h.decided id hid
    exact ⟨q, hold q hq, heq⟩
  unfold RetagPlan.step
  split
  · rename_i hadmits
    refine ⟨nodup_keys_setItem h.productKeys, ?_, ?_, ?_, ?_⟩
    · intro x hx
      rcases mem_of_setItem hx with rfl | hx
      · apply nodup_keys_setItem
        cases hlookup : plan.pending.lookup p.productID with
        | none => exact .nil
        | some additions => exact h.fieldKeys _ (mem_of_lookup hlookup)
      · exact h.fieldKeys x hx
    · intro pid field values hpending
      rcases accept_pending hpending with hpending | ⟨rfl, rfl, rfl⟩
      · exact h.fits hpending
      · exact admits_fits hadmits
    · intro pid field values v hpending hv
      rcases accept_pending hpending with hpending | ⟨rfl, rfl, rfl⟩
      · exact horigin hpending hv
      · rcases List.mem_append.1 hv with hv | hv
        · obtain ⟨values, hpending, hv⟩ := pending_of_mem_values hv
          exact horigin hpending hv
        · exact ⟨p, hnew, rfl, rfl, (List.mem_singleton.1 hv).symm⟩
    · intro id hid
      rcases hid with hid | hid
      · rcases List.mem_append.1 hid with hid | hid
        · exact hdecided id (.inl hid)
        · exact ⟨p, hnew, (List.mem_singleton.1 hid).symm⟩
      · exact hdecided id (.inr hid)
  · refine ⟨h.productKeys, h.fieldKeys, h.fits, horigin, fun id hid => ?_⟩
    rcases hid with hid | hid
    · exact hdecided id (.inl hid)
    · rcases List.mem_append.1 hid with hid | hid
      · exact hdecided id (.inr hid)
      · exact ⟨p, hnew, (List.mem_singleton.1 hid).symm⟩

theorem Sound.foldl {rest : List Proposal} (h : plan.Sound fields products ps) :
    (rest.foldl (RetagPlan.step fields products) plan).Sound fields products (ps ++ rest) := by
  induction rest generalizing plan ps with
  | nil => rwa [List.append_nil]
  | cons p rest ih =>
    rw [List.foldl_cons, ← List.singleton_append, ← List.append_assoc]
    exact ih h.step

theorem planRetags_sound : (planRetags fields products ps).Sound fields products ps := by
  have hempty : (⟨[], [], [], []⟩ : RetagPlan).Sound fields products [] :=
    ⟨.nil, fun _ hx => absurd hx List.not_mem_nil, fun ⟨_, hmem, _⟩ => absurd hmem List.not_mem_nil,
      fun ⟨_, hmem, _⟩ => absurd hmem List.not_mem_nil,
      fun _ hid => hid.elim (absurd · List.not_mem_nil) (absurd · List.not_mem_nil)⟩
  exact hempty.foldl

theorem mem_writes {runID : Option String} {updatedAt : Time} {write : ProductWrite}
    (h : write ∈ plan.writes runID updatedAt) :
    (write.productID, write.additions) ∈ plan.pending := by
  obtain ⟨⟨pid, additions⟩, hmem, heq⟩ := List.mem_filterMap.1 h
  dsimp only at heq
  split at heq
  · cases heq
  · obtain rfl := Option.some.inj heq
    exact hmem

theorem writes_productIDs_sublist {runID : Option String} {updatedAt : Time} :
    List.Sublist ((plan.writes runID updatedAt).map (·.productID)) (plan.pending.map (·.1)) := by
  unfold writes
  induction plan.pending with
  | nil => exact .slnil
  | cons x pending ih =>
    rw [List.filterMap_cons]
    dsimp only
    split
    · exact ih.cons _
    · rename_i write hwrite
      split at hwrite
      · cases hwrite
      · obtain rfl := Option.some.inj hwrite
        exact ih.cons_cons _

/-! ## What is accepted -/

/-- The accepted proposals, in the order of the selection. -/
def taken (plan : RetagPlan) : List Proposal := plan.accepted.map (·.2)

/-- The proposal is for an allowed value of a metadata field that its product lacks. -/
def Admitted (fields : List TaxonomyField) (products : List Product) (p : Proposal) : Prop :=
  ∃ document product, lookupField fields p.field = some document ∧
    products.find? (·.id = p.productID) = some product ∧
    document.storage = some "product_metadata" ∧ p.value ∈ document.options.map (·.key) ∧
    ¬ (currentValues (product.metadata.lookup p.field)).any (isStr p.value)

theorem values_accept {pid : ObjectId} {field : String} :
    (plan.accept p).values pid field =
      if p.productID = pid ∧ p.field = field then plan.values pid field ++ [p.value]
      else plan.values pid field := by
  unfold values accept
  dsimp only
  rw [lookup_setItem]
  by_cases hpid : pid = p.productID
  · subst hpid
    rw [if_pos rfl, Option.bind_some, lookup_setItem]
    by_cases hfield : field = p.field
    · subst hfield
      rw [if_pos rfl, if_pos ⟨rfl, rfl⟩, Option.getD_some]
      rfl
    · rw [if_neg hfield, if_neg fun h => hfield h.2.symm]
      cases plan.pending.lookup p.productID <;> rfl
  · rw [if_neg hpid, if_neg fun h => hpid h.1.symm]

/-- What the plan after the proposals `ps` has accepted and dropped. -/
structure Exact (fields : List TaxonomyField) (products : List Product) (ps : List Proposal)
    (plan : RetagPlan) : Prop where
  decided : (plan.appliedIDs ++ plan.staleIDs).Perm (ps.map (·.id))
  applied : plan.appliedIDs = plan.taken.map (·.id)
  owners : ∀ x ∈ plan.accepted, x.1 = x.2.productID
  sublist : List.Sublist plan.taken ps
  values : ∀ pid field, plan.values pid field =
    (plan.taken.filter fun p => p.productID = pid ∧ p.field = field).map (·.value)
  distinct : ∀ pid field, (plan.values pid field).Nodup
  admitted : ∀ p ∈ plan.taken, Admitted fields products p
  nonempty : ∀ x ∈ plan.pending, ∃ p ∈ plan.taken, p.productID = x.1
  filled : ∀ {pid field values}, plan.Pending pid field values →
    ∃ p ∈ plan.taken, p.productID = pid ∧ p.field = field

theorem admits_admitted (h : plan.admits fields products p) :
    Admitted fields products p ∧ p.value ∉ plan.values p.productID p.field := by
  unfold admits at h
  split at h
  · rename_i document product hdocument hproduct
    obtain ⟨hstorage, hvalue, habsent, hnew, -⟩ := of_decide_eq_true h
    exact ⟨⟨document, product, hdocument, hproduct, hstorage, hvalue, habsent⟩, hnew⟩
  · cases h

theorem taken_accept : (plan.accept p).taken = plan.taken ++ [p] := by
  simp [taken, accept]

theorem Exact.accept (h : plan.Exact fields products ps) (hadmits : plan.admits fields products p) :
    (plan.accept p).Exact fields products (ps ++ [p]) where
  decided := by
    rw [List.map_append]
    have hmove : (plan.appliedIDs ++ [p.id] ++ plan.staleIDs).Perm
        (plan.appliedIDs ++ plan.staleIDs ++ [p.id]) := by
      rw [List.append_assoc, List.append_assoc]
      exact List.perm_append_comm.append_left _
    exact hmove.trans (h.decided.append_right _)
  applied := by
    rw [taken_accept, List.map_append, ← h.applied]
    rfl
  owners x hx := by
    rcases List.mem_append.1 hx with hx | hx
    · exact h.owners x hx
    · rw [List.mem_singleton.1 hx]
  sublist := by
    rw [taken_accept]
    exact h.sublist.append (List.Sublist.refl _)
  values pid field := by
    rw [values_accept, taken_accept, List.filter_append, List.map_append, h.values]
    by_cases hp : p.productID = pid ∧ p.field = field
    · rw [if_pos hp, List.filter_singleton, decide_eq_true hp]
      rfl
    · rw [if_neg hp, List.filter_singleton, decide_eq_false hp]
      exact (List.append_nil _).symm
  distinct pid field := by
    rw [values_accept]
    split
    · rename_i hp
      obtain ⟨rfl, rfl⟩ := hp
      exact List.nodup_append.2 ⟨h.distinct _ _, List.nodup_singleton _, fun a ha b hb hab =>
        (admits_admitted hadmits).2 (List.mem_singleton.1 hb ▸ hab ▸ ha)⟩
    · exact h.distinct pid field
  admitted q hq := by
    rw [taken_accept] at hq
    rcases List.mem_append.1 hq with hq | hq
    · exact h.admitted q hq
    · exact List.mem_singleton.1 hq ▸ (admits_admitted hadmits).1
  nonempty x hx := by
    rw [taken_accept]
    rcases mem_of_setItem hx with rfl | hx
    · exact ⟨p, List.mem_append_right _ (List.mem_singleton_self _), rfl⟩
    · obtain ⟨q, hq, heq⟩ := h.nonempty x hx
      exact ⟨q, List.mem_append_left _ hq, heq⟩
  filled hpending := by
    rw [taken_accept]
    rcases accept_pending hpending with hpending | ⟨rfl, rfl, -⟩
    · obtain ⟨q, hq, heq⟩ := h.filled hpending
      exact ⟨q, List.mem_append_left _ hq, heq⟩
    · exact ⟨p, List.mem_append_right _ (List.mem_singleton_self _), rfl, rfl⟩

theorem Exact.drop (h : plan.Exact fields products ps) :
    (plan.drop p).Exact fields products (ps ++ [p]) where
  decided := by
    rw [List.map_append]
    exact (List.append_assoc .. ▸ h.decided.append_right [p.id] : _)
  applied := h.applied
  owners := h.owners
  sublist := h.sublist.trans (List.sublist_append_left _ _)
  values := h.values
  distinct := h.distinct
  admitted := h.admitted
  nonempty := h.nonempty
  filled := h.filled

theorem Exact.foldl {rest : List Proposal} (h : plan.Exact fields products ps) :
    (rest.foldl (RetagPlan.step fields products) plan).Exact fields products (ps ++ rest) := by
  induction rest generalizing plan ps with
  | nil => rwa [List.append_nil]
  | cons p rest ih =>
    rw [List.foldl_cons, ← List.singleton_append, ← List.append_assoc]
    refine ih ?_
    unfold RetagPlan.step
    split
    · rename_i hadmits
      exact h.accept hadmits
    · exact h.drop

theorem planRetags_exact : (planRetags fields products ps).Exact fields products ps := by
  have hempty : (⟨[], [], [], []⟩ : RetagPlan).Exact fields products [] :=
    ⟨.nil, rfl, fun _ hx => absurd hx List.not_mem_nil, .slnil, fun _ _ => rfl, fun _ _ => .nil,
      fun _ hp => absurd hp List.not_mem_nil, fun _ hx => absurd hx List.not_mem_nil,
      fun ⟨_, hmem, _⟩ => absurd hmem List.not_mem_nil⟩
  exact hempty.foldl

/-- Every product with pending values gets one write with all of them. -/
theorem writes_eq (h : plan.Exact fields products ps) {runID : Option String} {updatedAt : Time} :
    (plan.writes runID updatedAt).map (fun write => (write.productID, write.additions)) =
      plan.pending := by
  have hall : ∀ pending : List (ObjectId × List (String × List String)), (∀ x ∈ pending, x ∈ plan.pending) →
      (pending.filterMap fun x =>
        let versions := (plan.accepted.filter (·.1 = x.1)).map (·.2.graphVersion)
        if versions = [] then none
        else some (⟨x.1, x.2, runID, versions.foldl max (versions.headD 0), updatedAt⟩ :
          ProductWrite)).map (fun write => (write.productID, write.additions)) = pending := by
    intro pending
    induction pending with
    | nil => exact fun _ => rfl
    | cons x pending ih =>
      intro hpending
      have hrest := ih fun y hy => hpending y (List.mem_cons_of_mem _ hy)
      obtain ⟨q, hq, hx⟩ := h.nonempty x (hpending x List.mem_cons_self)
      obtain ⟨y, hy, rfl⟩ := List.mem_map.1 hq
      have hmem : y ∈ plan.accepted.filter (·.1 = x.1) :=
        List.mem_filter.2 ⟨hy, decide_eq_true ((h.owners y hy).trans hx)⟩
      have hversions : (plan.accepted.filter (·.1 = x.1)).map (·.2.graphVersion) ≠ [] :=
        List.ne_nil_of_mem (List.mem_map_of_mem hmem)
      rw [List.filterMap_cons]
      dsimp only
      rw [if_neg hversions]
      dsimp only
      rw [List.map_cons]
      exact congrArg (x :: ·) hrest
  exact hall plan.pending fun _ hx => hx

end RetagPlan

end Reconciler

end Stylme
