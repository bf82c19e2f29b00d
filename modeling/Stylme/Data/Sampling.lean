-- SUMMARY: The two passes over the large source: the counts of the eligible rows, and the stratified sample.
import Stylme.Data.Policy
import Stylme.Data.Quotas
import Stylme.Domain.Dictionary
import Stylme.Lib.BoundedHeap

/-!
# Sampling

A first pass counts the rows of each category that pass the filters. A second one keeps, for each
category, a heap with the rows of the smallest scores, as many as its quota, and another heap for
all of them to fall back on. A heap is a list whose head is its first element; how the
source orders the others is not observed.
-/

namespace Stylme

open Conc

namespace Data

variable {ρ : Type}

/-- A row as `csv.DictReader` yields it; what the passes do not read is in `rest`. -/
structure Row (ρ : Type) where
  purl : Option String
  name : Option String
  img : Option String
  rest : ρ
  deriving DecidableEq

/-- The flags of a build, without allowed categories if there are none. -/
structure Filters where
  excludedIds : List String
  allowedCategories : List String
  requireImage : Bool
  curatedPolicy : Bool

variable (lib : Library) (filters : Filters)

/-- `int(product_id)` -/
def numericId (productId : String) : ℕ := Numeral.digitsValue productId.toList

/-! ## The counting pass -/

structure Counting where
  counts : List (String × ℕ)
  seen : List ℕ

/-- `counts[product_type] += 1` -/
def increment (productType : String) (counts : List (String × ℕ)) : List (String × ℕ) :=
  setKey productType ((counts.lookup productType).getD 0 + 1) counts

def countRow (s : Counting) (row : Row ρ) : Counting :=
  match extractProductId row.purl with
  | none => s
  | some productId =>
    if productId ∈ filters.excludedIds then s
    else
      let productType := categoryFromUrl lib row.purl
      if filters.allowedCategories ≠ [] ∧
          categoryGroup lib productType [row.name] ∉ filters.allowedCategories then s
      else if filters.curatedPolicy ∧ isPolicyExcluded lib productType [row.name, row.purl] then s
      else if filters.requireImage ∧ canonicalImages lib row.img = [] then s
      else if numericId productId ∈ s.seen then s
      else ⟨increment productType s.counts, numericId productId :: s.seen⟩

/-- `count_large_candidates` -/
def countLargeCandidates (rows : List (Row ρ)) : List (String × ℕ) :=
  (rows.foldl (countRow lib filters) ⟨[], []⟩).counts

/-! ## The sampling pass -/

/-- What the heaps hold. -/
structure Item (ρ : Type) where
  negativeScore : ℤ
  productId : String
  row : Row ρ
  deriving DecidableEq

/-- The order of the triples; no two of them have the same product id. -/
def Item.Precedes (a b : Item ρ) : Prop :=
  a.negativeScore < b.negativeScore ∨ (a.negativeScore = b.negativeScore ∧ a.productId ≤ b.productId)

instance (a b : Item ρ) : Decidable (a.Precedes b) := inferInstanceAs (Decidable (_ ∨ _))

def Item.score (item : Item ρ) : ℤ := -item.negativeScore

/-- `int(stable_hash(product_id, seed) / multiplier)` -/
def scoreOf (seed productId category : String) (name : Option String) : ℤ :=
  let multiplier := if filters.curatedPolicy then priorityMultiplier lib category [name] else 1
  ⌊Binary64.round (Binary64.round (stableHash lib productId seed) / multiplier)⌋

structure Sampling (ρ : Type) where
  heaps : List (String × List (Item ρ))
  globalHeap : List (Item ρ)
  seen : List ℕ

/-- What the heap of a category holds. -/
def heapOf (heaps : List (String × List (Item ρ))) (category : String) : List (Item ρ) :=
  (heaps.lookup category).getD []

/-- `heap[0]` raises if the heap is empty. -/
def offerOrRaise (limit : ℕ) (heap : List (Item ρ)) (item : Item ρ) : Except Raised (List (Item ρ)) :=
  match offer Item.Precedes Item.score limit heap item with
  | some heap => .ok heap
  | none => .error .indexError

/-- `quotas.get(category, 0)` -/
def quotaOf (quotas : List (String × ℕ)) (category : String) : ℕ := (quotas.lookup category).getD 0

/-- Put an item into the heap of its category, unless the quota is zero. -/
def placeInCategory (quotas : List (String × ℕ)) (category : String)
    (heaps : List (String × List (Item ρ))) (item : Item ρ) : Except Raised (List (String × List (Item ρ))) :=
  if quotaOf quotas category ≠ 0 then
    (offerOrRaise (quotaOf quotas category) (heapOf heaps category) item).map (setKey category · heaps)
  else .ok heaps

/-- Put an item into the heap of its category and into the one for all. -/
def place (quotas : List (String × ℕ)) (target : ℕ) (category : String) (s : Sampling ρ) (item : Item ρ) :
    Except Raised (Sampling ρ) := do
  let heaps ← placeInCategory quotas category s.heaps item
  let globalHeap ← offerOrRaise target s.globalHeap item
  return { s with heaps, globalHeap }

def sampleRow (seed : String) (quotas : List (String × ℕ)) (target : ℕ) (s : Sampling ρ) (row : Row ρ) :
    Except Raised (Sampling ρ) :=
  match extractProductId row.purl with
  | none => .ok s
  | some productId =>
    if productId ∈ filters.excludedIds then .ok s
    else
      let category := categoryFromUrl lib row.purl
      if category ∉ quotas.map (·.1) then .ok s
      else if filters.curatedPolicy ∧ isPolicyExcluded lib category [row.name, row.purl] then .ok s
      else if filters.allowedCategories ≠ [] ∧
          categoryGroup lib category [row.name] ∉ filters.allowedCategories then .ok s
      else if filters.requireImage ∧ canonicalImages lib row.img = [] then .ok s
      else if numericId productId ∈ s.seen then .ok s
      else
        let score := scoreOf lib filters seed productId category row.name
        place quotas target category { s with seen := numericId productId :: s.seen } ⟨-score, productId, row⟩

/-- The rows selected so far, by product id, with their scores. -/
abbrev Selected (ρ : Type) : Type := List (String × ℤ × Row ρ)

/-- `selected[product_id] = (-negative_score, row)`, for the items of the heaps -/
def select (items : List (Item ρ)) : Selected ρ :=
  items.foldl (fun selected item => setKey item.productId (item.score, item.row) selected) []

/-- Fill up from the heap for all, up to the target. -/
def fallBack (target : ℕ) : List (Item ρ) → Selected ρ → Selected ρ
  | [], selected => selected
  | item :: items, selected =>
    let selected :=
      if item.productId ∈ selected.map (·.1) then selected
      else selected ++ [(item.productId, item.score, item.row)]
    if selected.length = target then selected else fallBack target items selected

/-- The rows that were selected, in the order of their scores. -/
def finish (target : ℕ) (s : Sampling ρ) : Except Raised (List (Row ρ)) :=
  let selected := select (s.heaps.flatMap (·.2))
  let selected :=
    if selected.length < target then
      fallBack target (s.globalHeap.insertionSort fun a b => b.Precedes a) selected
    else selected
  if selected.length ≠ target then
    .error (.runtimeError ("Selected " ++ toString selected.length ++ " large rows; expected " ++ toString target))
  else .ok (((selected.map (·.2)).insertionSort fun a b => a.1 ≤ b.1).map (·.2))

section Sample

variable {K : Type*} [One K] [Sub K] [Mul K] [Div K] [NatCast K] [LT K] [DecidableLT K]
variable (arithmetic : Arithmetic K)

/-- The multipliers of the categories; without the policy there are none. -/
def typeMultipliers (counts : List (String × ℕ)) : List (String × K) :=
  if filters.curatedPolicy then
    counts.map fun (productType, _) => (productType, arithmetic.float (priorityMultiplier lib productType []))
  else []

/-- `sample_large`, none if `allocate_quotas` does not end within the number of rounds -/
def sampleLarge (fuel : ℕ) (rows : List (Row ρ)) (target : ℕ) (categoryCounts : List (String × ℕ))
    (seed : String) : Option (Except Raised (List (Row ρ))) :=
  (allocateQuotas arithmetic (typeMultipliers lib filters arithmetic categoryCounts) fuel categoryCounts
      target).map fun quotas => do
    let quotas ← quotas
    let s ← rows.foldlM (sampleRow lib filters seed quotas target) ⟨[], [], []⟩
    finish target s

end Sample

end Data

end Stylme
