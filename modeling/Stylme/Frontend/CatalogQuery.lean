-- SUMMARY: The catalogue query that a URL stands for, and the URL of a query.
import Stylme.Frontend.Values
import Stylme.Lib.Distinct
import Stylme.Lib.Fallible

/-!
# Catalogue URLs

`parseCatalogQuery` reads a query from the search parameters of a URL, and `queryRecord`
gives the parameters of a query, all but its page.
-/

namespace Stylme

open Conc

namespace Frontend

/-! ## Search parameters -/

/-- The value of a search parameter. -/
inductive Param where
  | absent
  | one (s : String)
  | many (items : List String)

/-- `StorefrontSearchParams` -/
abbrev SearchParams := List (String × Param)

/-- `params[key]` -/
def SearchParams.get (params : SearchParams) (key : String) : Param :=
  (params.lookup key).getD .absent

/-- `one` -/
def one : Param → Option String
  | .absent => none
  | .one s => some s
  | .many items => items.head?

/-- `many` -/
def many (value : Param) : List String :=
  let items := match value with
    | .many items => items
    | .one s => if s ≠ "" then [s] else []
    | .absent => []
  (items.map trim).filter (· ≠ "")

def positiveNumber (value : Option String) : Option Binary64 :=
  match value with
  | none => none
  | some s =>
    if s = "" then none
    else match toNumber s with
      | .finite parsed => if 0 ≤ parsed.value then some parsed else none
      | _ => none

/-! ## Facets -/

/-- `[...value]` of a value that cannot be iterated over. -/
structure TypeError where
  key : String

/-- The key and the value of an entry, split at the first colon, which is not to be first. -/
def entryParts (entry : String) : Option (String × String) :=
  match entry.toList.span (· ≠ ':') with
  | (c :: key, _ :: value) => some (String.ofList (c :: key), String.ofList value)
  | _ => none

/-- One turn of the loops over `meta` and `softMeta`. -/
def addEntry (result : PlainObject (List String)) (entry : String) :
    Except TypeError (PlainObject (List String)) :=
  match entryParts entry with
  | none => .ok result
  | some (key, value) =>
    if value = "" then .ok result
    else match result.lookup key with
      | some values => .ok (setProperty key (values ++ [value]).eraseDups result)
      | none =>
        if key ∈ objectPrototype then .error ⟨key⟩ else .ok (setProperty key [value] result)

def parseEntries (value : Param) : Except TypeError (PlainObject (List String)) :=
  (many value).foldlM addEntry []

/-- `Object.entries(facets).flatMap(...)` -/
def entriesOf (facets : PlainObject (List String)) : List String :=
  facets.flatMap fun (key, values) => values.map fun value => key ++ ":" ++ value

/-! ## Queries -/

inductive CatalogSort where
  | recommended
  | newest
  | priceLow
  | priceHigh
  | rating
  deriving DecidableEq

def CatalogSort.text : CatalogSort → String
  | recommended => "recommended"
  | newest => "newest"
  | priceLow => "price-low"
  | priceHigh => "price-high"
  | rating => "rating"

/-- `sorts` -/
def sorts : List CatalogSort := [.recommended, .newest, .priceLow, .priceHigh, .rating]

/-- The sort of this name, or the recommended one. -/
def parseSort (rawSort : Option String) : CatalogSort :=
  (sorts.find? fun sort => rawSort = some sort.text).getD .recommended

@[ext]
structure CatalogQuery where
  page : ℚ
  pageSize : ℕ := 12
  query : Option String
  lexicalQuery : Option String
  brand : List String
  category : List String
  productType : List String
  colour : List String
  size : List String
  gender : List String
  profileGender : List String
  profileAge : Option Binary64
  profileHeightCm : Option Binary64
  profileWeightKg : Option Binary64
  metadata : PlainObject (List String)
  softMetadata : PlainObject (List String)
  minPrice : Option Binary64
  maxPrice : Option Binary64
  minAge : Option Binary64
  maxAge : Option Binary64
  minHeightCm : Option Binary64
  maxHeightCm : Option Binary64
  minWeightKg : Option Binary64
  maxWeightKg : Option Binary64
  sort : CatalogSort
  pincode : Option String
  swoopStyl : Bool
  intentParsed : Bool
  intentSource : Option String
  deriving DecidableEq

/-- `pincode.replace(/\D/g, "").slice(0, 6)` -/
def cleanPincode (pincode : String) : String :=
  String.ofList ((pincode.toList.filter Char.isDigit).take 6)

def parseCatalogQuery (params : SearchParams) : Except TypeError CatalogQuery := do
  let number := fun key => positiveNumber (one (params.get key))
  let metadata ← parseEntries (params.get "meta")
  let softMetadata ← parseEntries (params.get "softMeta")
  return {
    page := max 1 ((number "page").elim 1 (·.value))
    query := one (params.get "q")
    lexicalQuery := one (params.get "lexical")
    brand := many (params.get "brand")
    category := many (params.get "category")
    productType := many (params.get "productType")
    colour := many (params.get "colour")
    size := many (params.get "size")
    gender := many (params.get "gender")
    profileGender := many (params.get "profileGender")
    profileAge := number "profileAge"
    profileHeightCm := number "profileHeightCm"
    profileWeightKg := number "profileWeightKg"
    metadata
    softMetadata
    minPrice := number "minPrice"
    maxPrice := number "maxPrice"
    minAge := number "minAge"
    maxAge := number "maxAge"
    minHeightCm := number "minHeightCm"
    maxHeightCm := number "maxHeightCm"
    minWeightKg := number "minWeightKg"
    maxWeightKg := number "maxWeightKg"
    sort := parseSort (one (params.get "sort"))
    pincode := (one (params.get "pincode")).map cleanPincode
    swoopStyl := one (params.get "swoopstyl") = some "true"
    intentParsed := one (params.get "intent") = some "1"
    intentSource := one (params.get "intentSource") }

def textParam (text : Option String) : Param := text.elim .absent .one

/-- `number === undefined ? undefined : String(number)` -/
def numberParam (number : Option Binary64) : Param := textParam (number.map numberToString)

def queryRecord (query : CatalogQuery) : SearchParams :=
  [("q", textParam query.query), ("lexical", textParam query.lexicalQuery),
    ("brand", .many query.brand), ("category", .many query.category),
    ("productType", .many query.productType), ("colour", .many query.colour),
    ("size", .many query.size), ("gender", .many query.gender),
    ("profileGender", .many query.profileGender), ("profileAge", numberParam query.profileAge),
    ("profileHeightCm", numberParam query.profileHeightCm),
    ("profileWeightKg", numberParam query.profileWeightKg),
    ("meta", .many (entriesOf query.metadata)), ("softMeta", .many (entriesOf query.softMetadata)),
    ("minPrice", numberParam query.minPrice), ("maxPrice", numberParam query.maxPrice),
    ("minAge", numberParam query.minAge), ("maxAge", numberParam query.maxAge),
    ("minHeightCm", numberParam query.minHeightCm), ("maxHeightCm", numberParam query.maxHeightCm),
    ("minWeightKg", numberParam query.minWeightKg), ("maxWeightKg", numberParam query.maxWeightKg),
    ("sort", .one query.sort.text), ("pincode", textParam query.pincode),
    ("swoopstyl", if query.swoopStyl then .one "true" else .absent),
    ("intent", if query.intentParsed then .one "1" else .absent),
    ("intentSource", textParam query.intentSource)]

end Frontend

end Stylme
