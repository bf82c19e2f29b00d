-- SUMMARY: Applications whose reads are current keep every metadata field within its selection limit.
import Stylme.Reconciler.Metadata
import Stylme.Reconciler.Plans
import Stylme.Reconciler.System

/-!
# The selection limit

`apply_retag_proposals` checks the limit of a field against the products it has
read and then adds its values to whatever is stored by then. No product exceeds
a limit as long as no field has gained values since the application that writes
to it read them. Two applications that read the same product first break the
limit together.
-/

namespace Stylme

open Conc Backend

namespace Reconciler

/-! ## Counting values -/

/-- How many values a metadata field holds. -/
def valueCount : Option Json → ℕ
  | none | some .null => 0
  | some (.arr items) => items.length
  | some _ => 1

/-- No taxonomy field of a product holds more values than may be selected. -/
def Within (w : World) : Prop :=
  ∀ p ∈ w.products, ∀ field ∈ w.taxonomy, (valueCount (p.metadata.lookup field.key) : Int) ≤ field.limit

theorem length_addToSet {items : List Json} {values : List String} :
    (addToSet items values).length ≤ items.length + values.length := by
  induction values generalizing items with
  | nil => exact Nat.le_refl _
  | cons value values ih =>
    refine ih.trans ?_
    dsimp only
    split
    · rw [List.length_cons]
      omega
    · rw [List.length_append, List.length_singleton, List.length_cons]
      omega

section AddField

variable {metadata metadata' : Document} {field field' : String} {values : List String}

theorem valueCount_addField (h : addField metadata field values = some metadata') :
    valueCount (metadata'.lookup field) ≤ valueCount (metadata.lookup field) + values.length := by
  unfold addField at h
  split at h
  · obtain rfl := Option.some.inj h
    rw [lookup_setKey, if_pos rfl]
    exact length_addToSet.trans (by rw [List.length_nil]; omega)
  · rename_i items hitems
    obtain rfl := Option.some.inj h
    rw [lookup_setKey, if_pos rfl, hitems]
    exact length_addToSet
  · cases h

theorem valueCount_addFields {additions : List (String × List String)}
    (h : addFields metadata additions = some metadata') (hnodup : (additions.map (·.1)).Nodup)
    (hmem : (field, values) ∈ additions) :
    valueCount (metadata'.lookup field) ≤ valueCount (metadata.lookup field) + values.length := by
  induction additions generalizing metadata with
  | nil => exact absurd hmem List.not_mem_nil
  | cons addition additions ih =>
    obtain ⟨field', values'⟩ := addition
    rw [List.map_cons, List.nodup_cons] at hnodup
    simp only [addFields] at h
    split at h
    · rename_i metadata₁ hadd
      rcases List.mem_cons.1 hmem with heq | hmem
      · obtain ⟨rfl, rfl⟩ := Prod.mk.inj heq
        rw [addFields_lookup_of_not_mem h hnodup.1]
        exact valueCount_addField hadd
      · -- the first addition is to another field
        have hne : field ≠ field' := fun heq =>
          hnodup.1 (heq ▸ List.mem_map_of_mem (f := fun x => x.1) hmem)
        rw [← addField_lookup_of_ne hadd hne]
        exact ih h hnodup.2 hmem
    · cases h

end AddField

/-! ## Runs -/

variable (lib : Library)

/-- How many values the store has for a field of a product. -/
def storedCount (w : World) (productID : ObjectId) (field : String) : ℕ :=
  valueCount ((w.products.get productID).bind (·.metadata.lookup field))

/-- How many values an operation has read for a field of a product. -/
def readCount (l : Phase) (productID : ObjectId) (field : String) : ℕ :=
  (currentValues ((l.products.find? (·.id = productID)).bind (·.metadata.lookup field))).length

/-- No field that the step adds values to has gained values since they were read. -/
def current (σ : State) : Step → Bool
  | .exec t _ =>
    match σ.next t, (view lib σ).view t with
    | some (_, .addMetadata write), some v => write.additions.all fun (field, _) =>
        storedCount σ.shared write.productID field ≤ readCount v.phase write.productID field
    | _, _ => true
  | _ => true

/-- The products are within the limits of a taxonomy that everybody has read. -/
structure Limited (taxonomy : Collection TaxonomyField TaxonomyField.key TaxonomyField.key)
    (cfg : View) : Prop where
  unchanged : cfg.shared.taxonomy = taxonomy
  within : Within cfg.shared
  fields : ∀ {t op l b}, cfg.view t = some ⟨op, l, b⟩ → l.fields = [] ∨ l.fields = taxonomy.docs

variable {lib} {w₀ : World} {σ : State}

theorem Idle.taxonomy {cfg cfg' : View} (h : Idle cfg cfg') :
    cfg'.shared.taxonomy = cfg.shared.taxonomy := by
  rcases h.shared with h | ⟨e, h⟩
  · rw [h]
  · rw [h, Env.apply_taxonomy]

theorem Idle.products {cfg cfg' : View} (h : Idle cfg cfg') :
    cfg'.shared.products = cfg.shared.products := by
  rcases h.shared with h | ⟨e, h⟩
  · rw [h]
  · rw [h, Env.apply_products]

theorem Within.of_eq {w w' : World} (h : Within w) (htaxonomy : w'.taxonomy = w.taxonomy)
    (hproducts : w'.products = w.products) : Within w' := by
  intro p hp field hfield
  rw [hproducts] at hp
  rw [htaxonomy] at hfield
  exact h p hp field hfield

theorem Limited.idle {taxonomy : Collection TaxonomyField TaxonomyField.key TaxonomyField.key}
    {cfg cfg' : View} (h : Limited taxonomy cfg) (hidle : Idle cfg cfg') : Limited taxonomy cfg' where
  unchanged := hidle.taxonomy.trans h.unchanged
  within := h.within.of_eq hidle.taxonomy hidle.products
  fields {t op l b} ht := by
    rcases hidle.view ht with rfl | ⟨b', ht⟩
    · exact .inl rfl
    · exact h.fields ht

section Exec

variable {taxonomy : Collection TaxonomyField TaxonomyField.key TaxonomyField.key}
variable {t : ℕ} {op : Op} {l : Phase} {cmd : Cmd} {r : Resp cmd} {o : Oracle} {w : World}

/-- Only a read of the taxonomy changes the fields an operation knows. -/
theorem next_fields (hexec : cmd.exec lib.forbiddenText o σ.shared = some (r, w)) :
    (next l cmd r).fields = l.fields ∨ (next l cmd r).fields = σ.shared.taxonomy.docs := by
  cases r with
  | error e => exact .inl (by rw [next_error])
  | ok a =>
    cases cmd with
    | taxonomySnapshot =>
      right
      exact (Except.ok.inj (respond_ok hexec)).symm
    | _ => exact .inl rfl

/-- A write whose reads are current keeps the product within its limits. -/
theorem within_addMetadata {write : ProductWrite} {p p' : Product} {runID : Option String}
    {updatedAt : Time} (h : Limited taxonomy (view lib σ))
    (ht : (view lib σ).view t = some ⟨op, l, true⟩) (hwrite : write ∈ l.plan.writes runID updatedAt)
    (hget : σ.shared.products.get write.productID = some p) (hadded : p.added write = some p')
    (hcurrent : ∀ addition ∈ write.additions, storedCount σ.shared write.productID addition.1 ≤
      readCount l write.productID addition.1)
    {field : TaxonomyField} (hfield : field ∈ taxonomy) :
    (valueCount (p'.metadata.lookup field.key) : Int) ≤ field.limit := by
  obtain ⟨metadata, hadd, rfl⟩ := Option.map_eq_some_iff.1 hadded
  have hsound : l.plan.Sound l.fields l.products l.selected := RetagPlan.planRetags_sound
  have hpending := RetagPlan.mem_writes hwrite
  by_cases hmem : field.key ∈ write.additions.map (·.1)
  · obtain ⟨⟨key, values⟩, haddition, hkey⟩ := List.mem_map.1 hmem
    dsimp only at hkey
    subst hkey
    obtain ⟨document, product, hdocument, hproduct, hfits⟩ := hsound.fits ⟨_, hpending, haddition⟩
    -- the application has read this very field
    have hfields : l.fields = taxonomy.docs := by
      rcases h.fields ht with hnil | hdocs
      · rw [hnil] at hdocument
        cases hdocument
      · exact hdocs
    obtain rfl : document = field := by
      rw [lookupField, hfields] at hdocument
      have hkey := List.find?_some hdocument
      exact Collection.eq_of_key_eq (List.mem_of_find?_eq_some hdocument) hfield (of_decide_eq_true hkey)
    have hadded := valueCount_addFields hadd (hsound.fieldKeys _ hpending) haddition
    have hstored := hcurrent _ haddition
    rw [storedCount, readCount, hget, hproduct] at hstored
    simp only [Option.bind_some] at hstored
    change (valueCount (metadata.lookup document.key) : Int) ≤ _
    omega
  · have hp := h.within p (Collection.get_eq_some_iff.1 hget).1 field (h.unchanged ▸ hfield)
    rwa [addFields_lookup_of_not_mem hadd hmem]

theorem Limited.exec (h : Limited taxonomy (view lib σ)) (hcurrent : current lib σ (.exec t o))
    (hnext : σ.next t = some (op, cmd)) (ht : (view lib σ).view t = some ⟨op, l, true⟩)
    (hpermits : Permits lib op l cmd)
    (hexec : cmd.exec lib.forbiddenText o σ.shared = some (r, w)) :
    Limited taxonomy ⟨w, Function.update (view lib σ).view t (some ⟨op, next l cmd r, true⟩),
      ⟨t, cmd, r, w⟩ :: σ.log⟩ where
  unchanged := (exec_frame hexec).taxonomy.trans h.unchanged
  within := by
    have htaxonomy := (exec_frame hexec).taxonomy
    by_cases htarget : cmd.target = .products
    · cases cmd with
      | addMetadata write =>
        rcases exec_addMetadata hexec with rfl | ⟨p, p', hget, hadded, rfl⟩
        · exact h.within
        · have hwrite : ∃ runID updatedAt, write ∈ l.plan.writes runID updatedAt := by
            rcases hpermits with hinner | houter
            · exact hinner.2
            · exact houter.elim
          obtain ⟨runID, updatedAt, hwrite⟩ := hwrite
          have hreads : ∀ addition ∈ write.additions,
              storedCount σ.shared write.productID addition.1 ≤
                readCount l write.productID addition.1 := by
            simpa [current, hnext, ht] using hcurrent
          have hid : p'.id = p.id := by
            obtain ⟨metadata, -, rfl⟩ := Option.map_eq_some_iff.1 hadded
            rfl
          intro q hq field hfield
          rcases (mem_put (Collection.get_eq_some_iff.1 hget).1 hid hid).1 hq with rfl | ⟨hq, -⟩
          · exact within_addMetadata h ht hwrite hget hadded hreads (h.unchanged ▸ hfield)
          · exact h.within q hq field hfield
      | _ => cases htarget
    · exact h.within.of_eq htaxonomy ((exec_frame hexec).products htarget)
  fields {u op' l' b} hu := by
    rcases View.of_update hu with ⟨rfl, rfl, rfl, -⟩ | ⟨-, hv⟩
    · rcases next_fields hexec with hfields | hfields
      · rw [hfields]
        exact h.fields ht
      · exact .inr (hfields.trans (congrArg _ h.unchanged))
    · exact h.fields hv

end Exec

/-- In every run in which applications write only to fields that have not gained
values since they read them, no product exceeds a limit. -/
theorem keepsLimits (hw₀ : Within w₀)
    (h : (backend lib).Reach (fun σ l => current lib σ l) (Pool.init w₀) σ) : Within σ.shared := by
  have hlimited : Limited w₀.taxonomy (view lib σ) := by
    refine invariant (I := Limited w₀.taxonomy) ⟨rfl, hw₀, fun ht => by cases ht⟩
      (fun _ _ hI hidle => hI.idle hidle) ?_ h
    intro ρ t o op l cmd r w hok hI hnext ht hpermits hexec
    exact hI.exec hok hnext ht hpermits hexec
  exact hlimited.within

/-- A step of applications and runs. -/
def applies : Step → Bool
  | .spawn _ (.applyRetagProposals _) | .spawn _ (.runReconciler _ _ _) => true
  | .spawn _ _ => false
  | _ => true

end Reconciler

/-! ## Two applications at once -/

namespace Sample

namespace Reconciler

/-- Two applications, the second of which reads the product before the first writes to it. -/
def overlap : List Stylme.Reconciler.Step :=
  [.spawn 0 (application "linen"), .spawn 1 (application "silk")] ++ execs 0 3 ++ execs 1 3 ++
    execs 0 7 ++ execs 1 7

/-- The same two applications, one after the other. -/
def inTurn : List Stylme.Reconciler.Step :=
  [.spawn 0 (application "linen"), .spawn 1 (application "silk")] ++ execs 0 10 ++ execs 1 8

end Reconciler

end Sample

namespace Reconciler

theorem within_sample : Within Sample.Reconciler.world := by
  intro p hp field hfield
  obtain rfl := List.mem_singleton.1 hp
  obtain rfl := List.mem_singleton.1 hfield
  decide

/-- Both applications return, and the limit is kept. -/
theorem keepsLimits_inTurn :
    ∃ σ, (backend Sample.Reconciler.library).Reach
        (fun σ l => current Sample.Reconciler.library σ l) (Pool.init Sample.Reconciler.world) σ ∧
      (σ.result 0).isSome ∧ (σ.result 1).isSome ∧ Within σ.shared := by
  have hrun : ((backend Sample.Reconciler.library).runWhere
      (fun σ l => current Sample.Reconciler.library σ l) Sample.Reconciler.inTurn
      (Pool.init Sample.Reconciler.world)).any
        fun σ => (σ.result 0).isSome && (σ.result 1).isSome := by
    decide +kernel
  obtain ⟨σ, hreach, hdone⟩ := System.Reach.exists_of_any hrun
  simp only [Bool.and_eq_true] at hdone
  exact ⟨σ, hreach, hdone.1, hdone.2, keepsLimits within_sample hreach⟩

/-- The second application fills the field beyond its limit. -/
theorem not_keepsLimits :
    ¬ ∀ (w₀ : World) (σ : State), Within w₀ →
      (backend Sample.Reconciler.library).Reach (fun _ l => applies l) (Pool.init w₀) σ →
      Within σ.shared := by
  intro h
  have hrun : ((backend Sample.Reconciler.library).runWhere (fun _ l => applies l)
      Sample.Reconciler.overlap (Pool.init Sample.Reconciler.world)).any fun σ =>
        (σ.shared.products.docs.any fun p => valueCount (p.metadata.lookup "fabric") = 4) &&
        (σ.shared.taxonomy.docs.any fun field => field.key = "fabric" ∧ field.limit = 3) := by
    decide +kernel
  obtain ⟨σ, hreach, hstored⟩ := System.Reach.exists_of_any hrun
  rw [Bool.and_eq_true] at hstored
  obtain ⟨p, hp, hcount⟩ := List.any_eq_true.1 hstored.1
  obtain ⟨field, hfield, hlimit⟩ := List.any_eq_true.1 hstored.2
  obtain ⟨hkey, hlimit⟩ := of_decide_eq_true hlimit
  have hwithin := h Sample.Reconciler.world σ within_sample hreach p hp field hfield
  rw [hkey, of_decide_eq_true hcount, hlimit] at hwithin
  exact absurd hwithin (by decide)

end Reconciler

end Stylme
