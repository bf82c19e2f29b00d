-- SUMMARY: The search request that the assistant posts to the catalogue for a plan and a shopper's profile.
import Stylme.Chat.Reply

/-!
# The catalogue client

`CatalogClient.Search` sends what the plan asks for, and what it finds about the shopper
at the top level of the profile.
-/

namespace Stylme

namespace Chat

/-- An optional number, `null` if there is none -/
def jsonNumber (x : Option Rat) : Json := x.elim .null .num

/-- `copyProfileNumber` -/
def copyProfileNumber (target profile : Document) (sourceKey targetKey : String) : Document :=
  match profile.lookup sourceKey with
  | none | some .null => target
  | some value => setKey targetKey value target

/-- What `Search` sends whoever the shopper is. -/
def planPayload (query : String) (plan : SearchPlan) : Document :=
  [("query", .str query), ("lexicalQuery", .str plan.lexicalQuery), ("page", .num 1),
    ("pageSize", .num 8), ("brand", jsonStrings plan.brand), ("category", jsonStrings plan.category),
    ("productType", jsonStrings plan.productType), ("colour", jsonStrings plan.colour),
    ("size", jsonStrings plan.size), ("gender", jsonStrings plan.gender),
    ("metadata", .obj (plan.metadata.map fun (key, values) => (key, jsonStrings values))),
    ("minPrice", jsonNumber plan.minPrice), ("maxPrice", jsonNumber plan.maxPrice),
    ("sort", .str plan.sort), ("swoopstyl", .bool plan.swoopstyl)]

/-- The body of the request of `Search` -/
def searchPayload (query : String) (plan : SearchPlan) (profile : Document) : Document :=
  let payload := planPayload query plan
  let payload :=
    if plan.pincode ≠ "" then setKey "pincode" (.str plan.pincode) payload else payload
  let payload := copyProfileNumber payload profile "age" "profileAge"
  let payload := copyProfileNumber payload profile "heightCm" "profileHeightCm"
  let payload := copyProfileNumber payload profile "weightKg" "profileWeightKg"
  match profile.lookup "genderKeys" with
  | some (.arr genders) => setKey "profileGender" (.arr genders) payload
  | _ => payload

/-! ## Profiles without the keys -/

section Absent

variable {query : String} {plan : SearchPlan} {profile : Document}

theorem copyProfileNumber_of_absent {target : Document} {sourceKey targetKey : String}
    (h : profile.lookup sourceKey = none) :
    copyProfileNumber target profile sourceKey targetKey = target := by
  simp only [copyProfileNumber, h]

/-- The keys at which `Search` looks into a profile. -/
def profileSources : List String := ["age", "heightCm", "weightKg", "genderKeys"]

/-- The keys of the request that tell of the shopper. -/
def profileTargets : List String :=
  ["profileAge", "profileHeightCm", "profileWeightKg", "profileGender"]

theorem ne_pincode {target : String} (ht : target ∈ profileTargets) : target ≠ "pincode" := by
  rintro rfl
  exact absurd ht (by decide)

/-- The keys of what is sent for a plan. -/
def planKeys : List String :=
  ["query", "lexicalQuery", "page", "pageSize", "brand", "category", "productType", "colour", "size",
    "gender", "metadata", "minPrice", "maxPrice", "sort", "swoopstyl"]

theorem lookup_planPayload_of_target {target : String} (ht : target ∈ profileTargets) :
    (planPayload query plan).lookup target = none := by
  have hdisjoint : ∀ key ∈ planKeys, key ∉ profileTargets := by decide
  rw [List.lookup_eq_none_iff]
  intro field hfield
  have hkey : field.1 ∈ planKeys := List.mem_map_of_mem hfield
  rw [bne_iff_ne]
  rintro rfl
  exact hdisjoint _ hkey ht

/-- A profile without the keys leaves no trace in the request. -/
theorem lookup_searchPayload_of_absent (h : ∀ key ∈ profileSources, profile.lookup key = none)
    {target : String} (ht : target ∈ profileTargets) :
    (searchPayload query plan profile).lookup target = none := by
  have hage := h "age" (by decide)
  have hheight := h "heightCm" (by decide)
  have hweight := h "weightKg" (by decide)
  have hgender := h "genderKeys" (by decide)
  simp only [searchPayload, copyProfileNumber_of_absent hage, copyProfileNumber_of_absent hheight,
    copyProfileNumber_of_absent hweight, hgender]
  have hplan : (planPayload query plan).lookup target = none :=
    lookup_planPayload_of_target ht
  split
  · rw [lookup_setKey, if_neg (ne_pincode ht), hplan]
  · exact hplan

end Absent

/-! ## What the search accepts of a shopper -/

section Schema

-- pydantic reads a number from a string, too
variable (parse : String → Option Rat)

/-- An `Optional[float]` field with bounds, the field absent or not. -/
def floatField (low high : Rat) : Option Json → Bool
  | none | some .null => true
  | some (.num x) => low ≤ x ∧ x ≤ high
  | some (.bool b) => low ≤ (if b then 1 else 0) ∧ (if b then 1 else 0) ≤ high
  | some (.str s) => (parse s).any fun x => low ≤ x ∧ x ≤ high
  | some _ => false

/-- A `List[str]` field with at most `maxLength` items. -/
def stringsField (maxLength : ℕ) : Option Json → Bool
  | none => true
  | some (.arr items) => items.length ≤ maxLength ∧ items.all fun
    | .str _ => true
    | _ => false
  | some _ => false

/-- `AdvancedSearchRequest`, of the four fields that tell of the shopper. -/
def acceptsProfile (payload : Document) : Bool :=
  floatField parse 0 110 (payload.lookup "profileAge") &&
    floatField parse 40 260 (payload.lookup "profileHeightCm") &&
    floatField parse 2 400 (payload.lookup "profileWeightKg") &&
    stringsField 3 (payload.lookup "profileGender")

end Schema

end Chat

end Stylme
