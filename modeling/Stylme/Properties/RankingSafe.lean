-- SUMMARY: When the score pipeline evaluates on every matching product with valid metadata.
import Stylme.Catalogue.Metadata
import Stylme.Catalogue.Rows
import Stylme.Properties.VectorScores

/-!
# Ranking without errors

The pipeline tests membership in the stored value of every ranked metadata field,
and fails on a value that is no array. What validation lets a product store there
depends on the data type of the field.
-/

namespace Stylme

open Conc Backend

namespace Catalogue

/-! ## Stored shapes -/

/-- The data types whose values are checked and are no lists. -/
def scalarTypes : List String := ["enum", "text", "number", "boolean"]

/-- Nothing or a list. -/
def listOrNull : Json → Bool
  | .null | .arr _ => true
  | _ => false

/-- Of an admitted value, the data type decides whether it is a list. -/
theorem MetadataField.Admits.listOrNull_iff {field : MetadataField} {value : Json}
    (h : field.Admits value) : listOrNull value ↔ field.dataType = some "multi_enum" ∨
      (∀ dataType ∈ field.dataType, dataType ∉ scalarTypes) ∧ listOrNull value := by
  unfold MetadataField.Admits at h
  split_ifs at h with hmulti henum htext hnumber hboolean
  · obtain ⟨items, rfl, -⟩ := h
    exact iff_of_true rfl (.inl hmulti)
  · obtain ⟨s, rfl, -⟩ := h
    simp [listOrNull, henum]
  · obtain ⟨s, rfl⟩ := h
    simp [listOrNull, htext]
  · have hlist : ¬ listOrNull value := by cases value <;> simp_all [listOrNull, isNumeric]
    simp [hlist, hnumber]
  · have hlist : ¬ listOrNull value := by cases value <;> simp_all [listOrNull, isBoolean]
    simp [hlist, hboolean]
  · refine ⟨fun hlist => .inr ⟨fun dataType hdata hscalar => ?_, hlist⟩, fun h => ?_⟩
    · simp only [scalarTypes, List.mem_cons, List.not_mem_nil, or_false] at hscalar
      rw [Option.mem_def] at hdata
      rcases hscalar with rfl | rfl | rfl | rfl <;> contradiction
    · exact h.elim (absurd · hmulti) (·.2)

/-- A product can be scored if each ranked metadata field that it has holds a list or nothing. -/
theorem scorable_iff {terms : List Term} {p : Product} : Scorable terms p ↔
    ∀ t ∈ terms, ∀ key, t.source = .metadata key → ∀ value, p.metadata.lookup key = some value →
      listOrNull value := by
  refine forall_congr' fun t => imp_congr_right fun _ => ?_
  cases t.source with
  | metadata key =>
    simp only [ValueSource.metadata.injEq, forall_eq', ValueSource.values]
    rcases Option.eq_none_or_eq_some (p.metadata.lookup key) with hlookup | ⟨value, hlookup⟩
    · simp [hlookup]
    · cases value <;> simp [hlookup, listOrNull]
  | _ => simp [ValueSource.values]

/-! ## Ranking requests -/

section Safe

variable {K : Type} [Field K] [LinearOrder K]

/-- The score pipeline evaluates on every matching product. -/
def RankingSafe (lib : Library K) (store : Store) (plan : Plan) : Prop :=
  ∀ p ∈ matchedProducts lib store plan, ∃ row, scoreRow lib plan p = .ok row

/-- The request ranks products by this metadata field. -/
def Plan.Ranks (plan : Plan) (key : String) : Prop :=
  ∃ t ∈ vectorTerms plan.fields plan.weights, t.source = .metadata key

/-- Where the product has a value of a ranked metadata field, the field holds lists. -/
def RanksLists (store : Store) (plan : Plan) (p : Product) : Prop :=
  ∀ key, plan.Ranks key → ∀ value, p.metadata.lookup key = some value →
    ∀ field, fieldOf store.activeFields key = some field →
      field.dataType = some "multi_enum" ∨
        (∀ dataType ∈ field.dataType, dataType ∉ scalarTypes) ∧ listOrNull value

/-- On products with valid metadata, the score pipeline of an accepted request evaluates exactly if
the ranked metadata fields that they have hold lists. -/
theorem rankingSafe_iff {lib : Library K} (jsonSize : Document → ℕ) {store : Store} {request : Request} {plan : Plan} (hsqrt : ∀ q, 0 < q → lib.sqrt q ≠ 0)
    (hvalid : ∀ p ∈ store.products, Validated jsonSize store.activeFields p)
    (hplan : resolveRequest lib store request = .ok plan) :
    RankingSafe lib store plan ↔ ∀ p ∈ matchedProducts lib store plan, RanksLists store plan p := by
  have hweights : CleanWeights plan.weights :=
    (resolveRequest_planOf hplan).weights ▸ rankingWeights_clean request
  refine forall_congr' fun p => imp_congr_right fun hp => ?_
  have hadmitted := (validated_iff.1 (hvalid p (mem_matchedProducts hp).1)).2.1
  rw [scoreRow_isOk_iff hsqrt hweights, scorable_iff]
  constructor
  · rintro h key ⟨t, ht, hsource⟩ value hlookup field hfield
    obtain ⟨-, -, field', hfield', -, hadmits⟩ := hadmitted _ (mem_of_lookup hlookup)
    obtain rfl := Option.some.inj (hfield.symm.trans hfield')
    exact hadmits.listOrNull_iff.1 (h t ht key hsource value hlookup)
  · intro h t ht key hsource value hlookup
    obtain ⟨-, -, field, hfield, -, hadmits⟩ := hadmitted _ (mem_of_lookup hlookup)
    exact hadmits.listOrNull_iff.2 (h key ⟨t, ht, hsource⟩ value hlookup field hfield)

end Safe

namespace Sample

/-- A taxonomy with one fit. -/
def fitTaxonomy (dataType : String) : List MetadataField :=
  [coreField "category" "enum" "accessories", coreField "product_type" "enum" "shawl",
    coreField "gender" "multi_enum" "women", metadataField "fit" dataType "loose"]

def fitShawl (fit : Json) : Product :=
  { shawl 1 10 ⟨4, 2⟩ (some 90000) with metadata := [("fit", fit)] }

/-- A shop with a shawl of that fit. -/
def fitShop (dataType : String) (fit : Json) : Store :=
  have hkeys : (["category", "product_type", "gender", "fit"] : List String).Nodup := by decide
  { shop ⟨[fitShawl fit], List.nodup_singleton _, List.nodup_singleton _⟩
      oneOffer with
    fields := ⟨fitTaxonomy dataType, hkeys, hkeys⟩ }

theorem fitShop_validated {dataType : String} {fit : Json} {jsonSize : Document → ℕ}
    (h : (validateProductMetadata jsonSize (fitShop dataType fit).activeFields
      ⟨some "accessories", some "shawl", some []⟩ [("fit", fit)] false false).toOption.any fun _ => true) :
    ∀ p ∈ (fitShop dataType fit).products, Validated jsonSize (fitShop dataType fit).activeFields p := by
  intro p hp
  obtain rfl := List.mem_singleton.1 hp
  obtain ⟨clean, hclean, -⟩ := exists_ok_of_any _ _ h
  exact ⟨clean, hclean⟩

/-- A request that prefers loose fits. -/
def looseRequest : Request :=
  { sortBy := "relevance", order := "desc", radiusKm := 100,
    softFilterWeights := [("fit", [("loose", 1)])] }

end Sample

/-- A shawl with a list of fits is ranked. -/
theorem rankingSafe_iff_fitShop : ∃ plan,
    resolveRequest (Sample.library realSqrt) (Sample.fitShop "multi_enum" (.arr [.str "loose"]))
      Sample.looseRequest = .ok plan ∧
    (RankingSafe (Sample.library realSqrt) (Sample.fitShop "multi_enum" (.arr [.str "loose"])) plan ↔
      ∀ p ∈ matchedProducts (Sample.library realSqrt)
          (Sample.fitShop "multi_enum" (.arr [.str "loose"])) plan,
        RanksLists (Sample.fitShop "multi_enum" (.arr [.str "loose"])) plan p) := by
  obtain ⟨plan, hplan, -⟩ := exists_ok_of_any (resolveRequest (Sample.library realSqrt)
    (Sample.fitShop "multi_enum" (.arr [.str "loose"])) Sample.looseRequest) (fun _ => true)
    (by decide +kernel)
  exact ⟨plan, hplan, rankingSafe_iff (fun _ => 17) (fun _ => realSqrt_ne_zero)
    (Sample.fitShop_validated (by decide +kernel)) hplan⟩

/-- A field with a single value cannot be ranked: its values are no lists. -/
theorem not_rankingSafe : ¬ ∀ (lib : Library ℝ) (jsonSize : Document → ℕ) (store : Store)
    (request : Request) (plan : Plan), (∀ q, 0 < q → lib.sqrt q ≠ 0) →
      (∀ p ∈ store.products, Validated jsonSize store.activeFields p) →
      resolveRequest lib store request = .ok plan → RankingSafe lib store plan := by
  intro h
  set store := Sample.fitShop "enum" (.str "loose") with hstore
  obtain ⟨plan, hplan, htest⟩ := exists_ok_of_any
    (resolveRequest (Sample.library realSqrt) store Sample.looseRequest)
    (fun plan => matchedProducts (Sample.library realSqrt) store plan ≠ [] ∧
      (vectorTerms plan.fields plan.weights).any (·.source = .metadata "fit")) (by decide +kernel)
  obtain ⟨hmatched, hterm⟩ := of_decide_eq_true htest
  obtain ⟨p, hp⟩ := List.exists_mem_of_ne_nil _ hmatched
  obtain ⟨t, ht, hsource⟩ := List.any_eq_true.1 hterm
  have hsafe := h (Sample.library realSqrt) (fun _ => 15) store Sample.looseRequest plan
    (fun _ => realSqrt_ne_zero) (Sample.fitShop_validated (by decide +kernel)) hplan p hp
  have hweights : CleanWeights plan.weights :=
    (resolveRequest_planOf hplan).weights ▸ rankingWeights_clean Sample.looseRequest
  rw [scoreRow_isOk_iff (fun _ => realSqrt_ne_zero) hweights, scorable_iff] at hsafe
  have hshawl : p = Sample.fitShawl (.str "loose") :=
    List.mem_singleton.1 (mem_matchedProducts hp).1
  exact Bool.false_ne_true (hsafe t ht "fit" (of_decide_eq_true hsource) (.str "loose")
    (hshawl ▸ rfl))

end Catalogue

end Stylme
