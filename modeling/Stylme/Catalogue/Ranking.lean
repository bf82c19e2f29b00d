-- SUMMARY: How well a product matches weighted taxonomy values, in the pipeline, for SwoopStyl and in the reference.
import Stylme.Lib.Cosine
import Stylme.Catalogue.Query

/-!
# Ranking

A request may weigh values of taxonomy fields. The score of a product is the
cosine between these weights and the values that it has. It is computed three
times: by the aggregation pipeline of the listing, by the SwoopStyl listing, and by
`sparse_cosine_score`, which calls itself the reference. Scores are computed in
`K` with the square root of `sqrt`; weights are exact.
-/

namespace Stylme

open Conc Backend

namespace Catalogue

variable {K : Type} [Field K] [LinearOrder K] (sqrt : ℚ → K)

/-- The cosine, given the weights that match and `query_norm_squared`. -/
def similarity (matched : List ℚ) (normSquared : ℚ) : K :=
  (matched.sum : K) / (sqrt normSquared * sqrt matched.length)

/-! ## The pipeline -/

/-- Where the pipeline finds the values of a field: `product_values` -/
inductive ValueSource where
  | categoryKey
  | productTypeKey
  | genderKeys
  | paletteFamilies
  | metadata (field : String)
  deriving DecidableEq

/-- The source of a ranked field, if the field is scored. -/
def MetadataField.source (field : MetadataField) : Option ValueSource :=
  if field.key = "category" then some .categoryKey
  else if field.key = "product_type" then some .productTypeKey
  else if field.key = "gender" then some .genderKeys
  else if field.storage = some "product_metadata" then some (.metadata field.key)
  else if field.key = "color_family" then some .paletteFamilies
  else none

/-- The second argument of `$in`. -/
def ValueSource.values (p : Product) : ValueSource → Json
  | categoryKey => .arr [p.categoryKey.elim .null .str]
  | productTypeKey => .arr [p.productTypeKey.elim .null .str]
  | genderKeys => .arr ((p.genderKeys.getD []).map .str)
  | paletteFamilies => .arr (p.colorPalette.flatten.eraseDups.map .str)
  | metadata field =>
    match p.metadata.lookup field with
    | none | some .null => .arr []
    | some v => v

/-- `{"$in": [value, array]}` -/
def inOperator (value : String) : Json → Except PyErr Bool
  | .arr items => .ok (items.any (isText value))
  | _ => .error (.exception "OperationFailure" "$in requires an array as a second argument")

/-- `{"$divide": [a, b]}` -/
def divideOperator (a b : K) : Except PyErr K :=
  if b = 0 then .error (.exception "OperationFailure" "can't $divide by zero") else .ok (a / b)

/-- A value of a scored field: one element of `vector_dot_terms`. -/
structure Term where
  value : String
  source : ValueSource
  weight : ℚ

/-- The terms of one ranked field. -/
def fieldTerms (fields : List MetadataField) (key : String) (values : List (String × ℚ)) :
    List Term :=
  match (fieldOf fields key).bind (·.source) with
  | some source => (knownWeights fields key values).map fun (value, weight) =>
      ⟨value, source, weight⟩
  | none => []

def vectorTerms (fields : List MetadataField) (weights : Weights) : List Term :=
  weights.flatMap fun (key, values) => fieldTerms fields key values

/-- The weights of the terms that a product matches. -/
def matchedTerms (p : Product) : List Term → Except PyErr (List ℚ)
  | [] => .ok []
  | t :: ts => do
    let isMatch ← inOperator t.value (t.source.values p)
    let rest ← matchedTerms p ts
    return if isMatch then t.weight :: rest else rest

/-- `_vectorMatches` and `_vectorScore` -/
structure VectorScore (K : Type) where
  matchCount : ℕ
  score : K

/-- The score stages of the pipeline. -/
def vectorScore (terms : List Term) (p : Product) : Except PyErr (VectorScore K) := do
  let matched ← matchedTerms p terms
  if 0 < matched.length then
    let score ← divideOperator (matched.sum : K)
      (sqrt (squares (terms.map (·.weight))) * sqrt matched.length)
    return ⟨matched.length, score⟩
  else return ⟨0, 0⟩

/-- `_hybridScore`: the vector score, the text score, or a blend of them. -/
def hybridScore (vector text : Option K) : Option K :=
  match vector, text with
  | none, none => none
  | some v, none => some v
  | none, some t => some (min 1 (t / 10))
  | some v, some t => some (v * (78 / 100) + min 1 (t / 10) * (22 / 100))

/-! ## SwoopStyl -/

/-- A value that a set may hold. -/
def hashable : Json → Bool
  | .arr _ | .obj _ => false
  | _ => true

/-- `set(v or [])` -/
def setOf : Option Json → Except Raised (List Json)
  | none => .ok []
  | some v =>
    if truthy v then
      match v with
      | .arr items =>
        if items.all hashable then .ok items else .error ⟨"TypeError", "unhashable type"⟩
      | .str s => .ok (s.toList.map fun c => .str (String.ofList [c]))
      | .obj fields => .ok (fields.map fun field => .str field.1)
      | _ => .error ⟨"TypeError", "object is not iterable"⟩
    else .ok []

/-- `product_values` -/
def productValues (p : Product) (field : String) : Except Raised (List Json) :=
  if field = "category" then .ok [.str (p.categoryKey.getD "")]
  else if field = "product_type" then .ok [.str (p.productTypeKey.getD "")]
  else if field = "gender" then .ok ((p.genderKeys.getD []).map .str)
  else if field = "color_family" then .ok (p.colorPalette.flatten.map .str)
  else setOf (p.metadata.lookup field)

/-- `semantic_weights` -/
def semanticWeights (weights : Weights) : Weights :=
  (weights.filter fun entry => !entry.2.isEmpty).foldl
    (fun d (field, values) => setKey field (clampedWeights values) d) []

/-- The weights of the values that a product matches. -/
def matchedValues (p : Product) : Weights → Except Raised (List ℚ)
  | [] => .ok []
  | (field, values) :: weights => do
    let items ← productValues p field
    let rest ← matchedValues p weights
    return (values.filter fun (value, _) => items.any (isText value)).map (·.2) ++ rest

/-- The weights of all values of all fields. -/
def allWeights (weights : Weights) : List ℚ := weights.flatMap fun (_, values) => values.map (·.2)

/-- `matchedVectorDimensions` and `semanticScore`, given `semantic_weights` -/
def semanticScore (weights : Weights) (p : Product) : Except Raised (VectorScore K) := do
  let matched ← matchedValues p weights
  let norm := squares (allWeights weights)
  let score := if norm ≠ 0 ∧ matched ≠ [] then similarity sqrt matched norm else 0
  return ⟨matched.length, max 0 (min 1 score)⟩

/-! ## The reference -/

/-- `sparse_cosine_score` before it is rounded, for keys of any type. -/
def sparseCosineScore {κ : Type} [DecidableEq κ] (queryVector : List (κ × ℚ)) (features : List κ) :
    K :=
  let matched := (queryVector.filter (·.1 ∈ features)).map (·.2)
  if matched = [] then 0
  else if sqrt (squares (queryVector.map (·.2))) ≠ 0 then
    similarity sqrt matched (squares (queryVector.map (·.2)))
  else 0

end Catalogue

end Stylme
