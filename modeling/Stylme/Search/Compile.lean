-- SUMMARY: compile_search_intent: what of the candidates is selected, the filters, and the words that are left over.
import Stylme.Search.Candidates
import Stylme.Search.Numbers
import Stylme.Lib.Extrema
import Mathlib.Data.Prod.Lex

/-!
# Compiling a query

The candidates with enough evidence become filters and a ranking vector. What no filter accounts
for stays in the lexical query.
-/

namespace Stylme

open Conc Backend Catalogue Reconciler

namespace Search

variable (lib : Library) (k : Knowledge) (visit : Visits)

/-! ## Selection -/

/-- `items[:n]` -/
def slice {α : Type} (n : ℤ) (items : List α) : List α :=
  if 0 ≤ n then items.take n.toNat else items.take (items.length - n.natAbs)

/-- The candidates with a score of at least 0.68. -/
def scored (candidates : Candidates) : Candidates := candidates.filter (68 / 100 ≤ ·.2.score)

/-- `selected[field]` before the sort -/
def itemsOf (candidates : Candidates) (field : String) : List (String × Candidate) :=
  ((scored candidates).filter (·.1.1 = field)).map fun x => (x.1.2, x.2)

/-- `int((fields.get(field, {}).get("validation") or {}).get("maxSelections") or 3)` -/
def Knowledge.maxSelections (k : Knowledge) (field : String) : ℤ :=
  let n := ((fieldOf k.fields field).bind (·.maxSelections)).getD 0
  if n = 0 then 3 else n

/-- The key of the sort, of which the greatest comes first. -/
def rank (item : String × Candidate) : ℚ ×ₗ ℤ := toLex (item.2.score, item.2.support)

def ranked (items : List (String × Candidate)) : List (String × Candidate) :=
  items.insertionSort fun a b => rank b ≤ rank a

/-- The fields of which one value is selected at most. -/
def singleFields : List String := ["category", "product_type"]

/-- `selected[field]` -/
def selectedOf (candidates : Candidates) (field : String) : List (String × Candidate) :=
  let items := itemsOf candidates field
  let explicit := items.filter (·.2.hardEligible)
  if explicit ≠ [] then
    slice (if field ∈ singleFields then 1 else k.maxSelections field) (ranked explicit)
  else slice 1 (ranked items)

/-- The keys of `selected` -/
def selectedFields (candidates : Candidates) : List String :=
  ((scored candidates).map (·.1.1)).eraseDups

/-- `selected` -/
def selected (candidates : Candidates) : List (String × List (String × Candidate)) :=
  (selectedFields candidates).map fun field => (field, selectedOf k candidates field)

/-- The selected candidates, field by field. -/
def selectedItems (candidates : Candidates) : List (Tag × Candidate) :=
  (selected k candidates).flatMap fun x => x.2.map fun item => ((x.1, item.1), item.2)

/-- `selected_values(field, hard_only=True)` -/
def hardValues (candidates : Candidates) (field : String) : List String :=
  ((((selected k candidates).lookup field).getD []).filter (·.2.hardEligible)).map (·.1)

/-! ## Brands -/

/-- The first phrase of a brand that the query contains. -/
def brandPhrase (query : String) (brand : Brand) : Option String :=
  ((brand.name :: brand.aliases).map lib.normalizeQuery).find? fun phrase =>
    3 ≤ phrase.length ∧ lib.containsPhrase query phrase

/-- `brand_matches`: the name and the phrase of a brand. -/
def brandMatches (query : String) : List (String × String) :=
  k.brands.filterMap fun brand => (brandPhrase lib query brand).map fun phrase => (brand.name, phrase)

/-- The tuple that is compared. -/
def brandKey (x : String × String) : ℕ ×ₗ String ×ₗ String := toLex (x.2.length, toLex (x.1, x.2))

/-- `matched_brands` -/
def matchedBrands (query : String) : List String :=
  ((firstMax brandKey (brandMatches lib k query)).map (·.1)).toList

/-! ## The result -/

/-- `direct` -/
structure DirectFilters where
  brand : List String
  category : List String
  productType : List String
  gender : List String
  size : List String
  colour : List String
  deriving DecidableEq

/-- `hard_filters` -/
structure HardFilters where
  direct : DirectFilters
  metadata : List (String × List String)
  minPrice : Option ℤ
  maxPrice : Option ℤ
  age : Option (ℚ × ℚ)
  height : Option (ℚ × ℚ)
  weight : Option (ℚ × ℚ)
  pincode : Option String
  swoopstyl : Bool
  sort : String
  deriving DecidableEq

/-- An element of `nodes`. -/
structure ScoredNode where
  field : String
  value : String
  score : ℚ
  support : ℤ
  hardEligible : Bool
  evidence : List Evidence
  deriving DecidableEq

/-- An element of `rankingVector`. -/
structure RankingEntry where
  field : String
  value : String
  weight : ℚ
  deriving DecidableEq

/-- An element of `graphSignals`. -/
structure GraphSignal where
  source : String
  target : String
  boost : ℚ
  depth : Option ℕ
  support : Option ℤ

structure SearchIntent where
  normalizedQuery : String
  lexicalQuery : String
  hardFilters : HardFilters
  confidence : ℚ
  nodes : List ScoredNode
  rankingVector : List RankingEntry
  corrections : List Correction
  graphSignals : List GraphSignal

def directFilters (query : String) (candidates : Candidates) : DirectFilters where
  brand := matchedBrands lib k query
  category := hardValues k candidates "category"
  productType := hardValues k candidates "product_type"
  gender := hardValues k candidates "gender"
  size := hardValues k candidates "size"
  colour := (hardValues k candidates "color" ++ hardValues k candidates "color_family").eraseDups

/-- `metadata` -/
def metadataFilters (candidates : Candidates) : List (String × List String) :=
  ((selected k candidates).filter fun x =>
    (fieldOf k.fields x.1).bind (·.storage) = some "product_metadata").map
      fun x => (x.1, x.2.map (·.1))

/-- `any(direct.values())` -/
def DirectFilters.nonempty (d : DirectFilters) : Bool :=
  [d.brand, d.category, d.productType, d.gender, d.size, d.colour].any (· ≠ [])

/-- `has_structured` -/
def HardFilters.structured (f : HardFilters) : Bool :=
  f.direct.nonempty ∨ f.metadata ≠ [] ∨ f.swoopstyl ∨ f.minPrice.isSome ∨ f.maxPrice.isSome ∨
    f.age.isSome ∨ f.height.isSome ∨ f.weight.isSome

/-! ## The words that are left over -/

/-- The phrases that account for words of the query. -/
def recognizedPhrases (query : String) (candidates : Candidates) : List String :=
  ((selectedItems k candidates).flatMap fun x => x.2.evidence.map (·.phrase)) ++
    (brandMatches lib k query).map (·.2) ++
    (oneDayTerms ++ sortPhrases.map (·.1)).filter (lib.containsPhrase query)

/-- `recognized_tokens` -/
def recognizedTokens (query : String) (candidates : Candidates) : List String :=
  (recognizedPhrases lib k query candidates).flatMap lib.tokenize

/-- `str.isdigit` -/
def Library.isNumeral (lib : Library) (token : String) : Bool :=
  token ≠ "" ∧ token.toList.all lib.isDigit

/-- The word has the length of a pincode and does not begin with a zero. -/
def pincodeShaped (word : String) : Bool := word.length = 6 ∧ word.toList.head? ≠ some '0'

/-- The token is left out of `residual`. -/
def Dropped (recognized : List String) (token word : String) : Prop :=
  token ∈ recognized ∨ word ∈ recognized ∨ token ∈ stopWords ∨ word ∈ stopWords ∨
    token ∈ controlWords ∨ word ∈ controlWords ∨ lib.isNumeral word ∨ pincodeShaped word

instance (recognized : List String) (token word : String) :
    Decidable (Dropped lib recognized token word) :=
  inferInstanceAs (Decidable (_ ∨ _))

/-- `residual` -/
def residual (r : Reading) (candidates : Candidates) : List String :=
  (r.tokens.filter fun token =>
    ¬ Dropped lib (recognizedTokens lib k r.query candidates) token (correct r.corrections token)).map
      (correct r.corrections)

/-- `text[:n]` -/
def cut (n : ℕ) (text : String) : String := String.ofList (text.toList.take n)

/-- `lexical_query` -/
def lexicalQuery (r : Reading) (candidates : Candidates) (structured : Bool) : String :=
  let lexical := cut 100 (" ".intercalate (residual lib k r candidates).eraseDups)
  if ¬ structured ∧ lexical = "" then cut 100 r.query else lexical

/-! ## The whole -/

def scoredNode (x : Tag × Candidate) : ScoredNode where
  field := x.1.1
  value := x.1.2
  score := roundFour x.2.score
  support := x.2.support
  hardEligible := x.2.hardEligible
  evidence := x.2.evidence

def rankingVector (nodes : List ScoredNode) : List RankingEntry :=
  (nodes.filter (1 / 2 ≤ ·.score)).map fun n => ⟨n.field, n.value, n.score⟩

def confidence (nodes : List ScoredNode) (lexicalQuery : String) : ℚ :=
  if nodes = [] then if lexicalQuery = "" then 0 else 55 / 100
  else roundFour ((nodes.map (·.score)).sum / nodes.length)

/-- `graph_signals` -/
def graphSignals (r : Reading) (candidates : Candidates) : List GraphSignal :=
  (strongestSignals lib k r.correctedQuery).map (fun x =>
    ⟨"query-context", tagText x.1, roundFour x.2.score, some x.2.depth, none⟩) ++
  candidates.flatMap fun x =>
    (((k.model.correlations.lookup (tagText x.1)).getD []).filter fun e =>
      (candidates.lookup (e.field, e.value)).isSome).map fun e =>
        ⟨tagText x.1, tagText (e.field, e.value), roundFour e.boost, none, some e.support⟩

/-- `candidate_pincode` -/
def candidatePincode (r : Reading) (suppliedPincode : Option String) : Option String :=
  if suppliedPincode.getD "" ≠ "" then suppliedPincode else pincodeOf lib r.correctedQuery

/-- `swoopstyl` -/
def swoopstylOf (r : Reading) (suppliedPincode : Option String) (suppliedSwoopstyl : Bool) : Bool :=
  (suppliedSwoopstyl ∨ oneDayTerms.any (lib.containsPhrase r.correctedQuery)) ∧
    (candidatePincode lib r suppliedPincode).getD "" ≠ ""

/-- `inferred_sort` -/
def inferredSort (r : Reading) : String :=
  ((sortPhrases.find? fun x => lib.containsPhrase r.correctedQuery x.1).map (·.2)).getD "recommended"

def hardFilters (r : Reading) (candidates : Candidates) (suppliedPincode : Option String)
    (suppliedSwoopstyl : Bool) (prices : Option ℤ × Option ℤ) : HardFilters where
  direct := directFilters lib k r.query candidates
  metadata := metadataFilters k candidates
  minPrice := prices.1
  maxPrice := prices.2
  age := ageRange lib r.correctedQuery
  height := heightRange lib r.correctedQuery
  weight := weightRange lib r.correctedQuery
  pincode :=
    if swoopstylOf lib r suppliedPincode suppliedSwoopstyl then candidatePincode lib r suppliedPincode
    else none
  swoopstyl := swoopstylOf lib r suppliedPincode suppliedSwoopstyl
  sort := inferredSort lib r

/-- The candidates of a query, with their correlations. -/
def Reading.finalCandidates (r : Reading) : Candidates :=
  boosted k.model (r.candidates lib k visit)

/-- The intent of a query whose prices are known. -/
def intentOf (r : Reading) (suppliedPincode : Option String) (suppliedSwoopstyl : Bool)
    (prices : Option ℤ × Option ℤ) : SearchIntent :=
  let candidates := r.finalCandidates lib k visit
  let filters := hardFilters lib k r candidates suppliedPincode suppliedSwoopstyl prices
  let lexical := lexicalQuery lib k r candidates filters.structured
  let nodes := (selectedItems k candidates).map scoredNode
  { normalizedQuery := r.query
    lexicalQuery := lexical
    hardFilters := filters
    confidence := confidence nodes lexical
    nodes := nodes
    rankingVector := rankingVector nodes
    corrections := r.corrections
    graphSignals := (graphSignals lib k r (r.candidates lib k visit)).take 40 }

/-- `compile_search_intent`, with what the four caches hold. -/
def compileSearchIntent (rawQuery : String) (suppliedPincode : Option String)
    (suppliedSwoopstyl : Bool) : Except Raised SearchIntent :=
  let r := reading lib k visit rawQuery
  (prices lib r.correctedQuery).map (intentOf lib k visit r suppliedPincode suppliedSwoopstyl)

variable {lib k visit} {rawQuery : String} {suppliedPincode : Option String} {suppliedSwoopstyl : Bool}
  {intent : SearchIntent}

/-- A query compiles unless one of its prices is too large. -/
theorem compileSearchIntent_eq_ok_iff :
    compileSearchIntent lib k visit rawQuery suppliedPincode suppliedSwoopstyl = .ok intent ↔
      ∃ found, prices lib (reading lib k visit rawQuery).correctedQuery = .ok found ∧
        intentOf lib k visit (reading lib k visit rawQuery) suppliedPincode suppliedSwoopstyl found = intent := by
  simp only [compileSearchIntent]
  exact map_eq_ok

variable {r : Reading} {found : Option ℤ × Option ℤ}

@[simp] theorem intentOf_hardFilters :
    (intentOf lib k visit r suppliedPincode suppliedSwoopstyl found).hardFilters =
      hardFilters lib k r (r.finalCandidates lib k visit) suppliedPincode suppliedSwoopstyl found := rfl

@[simp] theorem intentOf_normalizedQuery :
    (intentOf lib k visit r suppliedPincode suppliedSwoopstyl found).normalizedQuery = r.query := rfl

@[simp] theorem intentOf_corrections :
    (intentOf lib k visit r suppliedPincode suppliedSwoopstyl found).corrections = r.corrections := rfl

@[simp] theorem intentOf_nodes : (intentOf lib k visit r suppliedPincode suppliedSwoopstyl found).nodes =
    (selectedItems k (r.finalCandidates lib k visit)).map scoredNode := by
  simp only [intentOf]

@[simp] theorem intentOf_rankingVector :
    (intentOf lib k visit r suppliedPincode suppliedSwoopstyl found).rankingVector =
      rankingVector ((selectedItems k (r.finalCandidates lib k visit)).map scoredNode) := by
  simp only [intentOf]

theorem intentOf_lexicalQuery :
    (intentOf lib k visit r suppliedPincode suppliedSwoopstyl found).lexicalQuery =
      lexicalQuery lib k r (r.finalCandidates lib k visit)
        (intentOf lib k visit r suppliedPincode suppliedSwoopstyl found).hardFilters.structured := rfl

@[simp] theorem hardFilters_direct {candidates : Candidates} :
    (hardFilters lib k r candidates suppliedPincode suppliedSwoopstyl found).direct =
      directFilters lib k r.query candidates := rfl

@[simp] theorem hardFilters_metadata {candidates : Candidates} :
    (hardFilters lib k r candidates suppliedPincode suppliedSwoopstyl found).metadata =
      metadataFilters k candidates := rfl

end Search

end Stylme

/-! ## A small taxonomy -/

namespace Stylme

namespace Sample

namespace Search

open Conc Stylme.Search Catalogue

/-- A library for texts in ASCII. -/
def library : Library where
  fold text := String.ofList (text.toList.map Char.toLower)
  isSpace c := c = ' '
  wordChar c := c.isAlphanum ∨ c = '_'
  isDigit := Char.isDigit
  redactQuery := id
  digest := id

/-- A field whose options are labelled by their keys. -/
def field (key : String) (values : List String) (storage : String) : MetadataField where
  key := key
  label := none
  status := "active"
  filterable := true
  searchable := true
  geminiAllowed := true
  storage := some storage
  storagePath := none
  dataType := none
  maxSelections := some 3
  options := values.map fun value => .doc (some value) (some value) [] none

def fields : List MetadataField :=
  [field "product_type" ["kurtas", "kurta-sets", "dresses", "dress-material"] "product_core",
    field "color_family" ["red", "purple"] "product_metadata",
    field "season" ["winter", "summer"] "product_metadata"]

/-- A service that has learned these edges. -/
def knowledge (nodes : List (String × List LearnedEdge)) : Knowledge where
  fields := fields
  distinct := by decide +kernel
  brands := []
  model := ⟨nodes, [], none⟩
  graph := none

/-- Sets that are visited in the order of insertion. -/
def visits : Visits := ⟨id, id, fun _ => .refl _, fun _ => .refl _⟩

/-- The only price of the query is its maximum. -/
theorem prices_redMax :
    prices library (reading library (knowledge []) visits "red max 500").correctedQuery = .ok (none, some 500) :=
  eq_ok_of_toOption (by decide +kernel)

theorem compiles_redMax : ∃ intent,
    compileSearchIntent library (knowledge []) visits "red max 500" none false = .ok intent :=
  ⟨_, compileSearchIntent_eq_ok_iff.2 ⟨_, prices_redMax, rfl⟩⟩

end Search

end Sample

end Stylme
