-- SUMMARY: The profile that a shopper and the assistant are shown, computed from the stored user document.
import Stylme.Backend.Store

/-!
# Public profiles

`profile_public` nests what it computes from the body profile and the preferences, and
`mongo_json` turns the stored values into JSON.
-/

namespace Stylme

open Backend

namespace Shopper

/-! ## Stored values -/

/-- A `datetime` in UTC, as the driver decodes it. -/
structure Moment where
  year : ℕ
  month : ℕ
  day : ℕ
  hour : ℕ := 0
  minute : ℕ := 0
  second : ℕ := 0
  microsecond : ℕ := 0

/-- The decimal digits of `n`, at least `width` of them. -/
def padded (width n : ℕ) : String :=
  String.ofList (List.replicate (width - (toString n).length) '0') ++ toString n

/-- `value.isoformat()` -/
def Moment.isoformat (m : Moment) : String :=
  padded 4 m.year ++ "-" ++ padded 2 m.month ++ "-" ++ padded 2 m.day ++ "T" ++
    padded 2 m.hour ++ ":" ++ padded 2 m.minute ++ ":" ++ padded 2 m.second ++
    (if m.microsecond = 0 then "" else "." ++ padded 6 m.microsecond) ++ "+00:00"

/-- A value of a stored document. -/
inductive Bson where
  | null
  | bool (b : Bool)
  | int (i : ℤ)
  | float (x : ℚ)
  | str (s : String)
  | objectId (hex : String)
  | date (m : Moment)
  | list (items : List Bson)
  | dict (fields : List (String × Bson))

namespace Bson

def typeName : Bson → String
  | null => "NoneType"
  | bool _ => "bool"
  | int _ => "int"
  | float _ => "float"
  | str _ => "str"
  | objectId _ => "ObjectId"
  | date _ => "datetime.datetime"
  | list _ => "list"
  | dict _ => "dict"

/-- `bool(v)` -/
def truthy : Bson → Bool
  | null => false
  | bool b => b
  | int i => i ≠ 0
  | float x => x ≠ 0
  | str s => s ≠ ""
  | objectId _ | date _ => true
  | list items => !items.isEmpty
  | dict fields => !fields.isEmpty

/-- `v or d` -/
def orElse (v d : Bson) : Bson := if v.truthy then v else d

def attributeError (v : Bson) (name : String) : Raised :=
  ⟨"AttributeError", "'" ++ v.typeName ++ "' object has no attribute '" ++ name ++ "'"⟩

/-- The items of a value whose method `name` is called, which only a `dict` has. -/
def fields (v : Bson) (name : String) : Except Raised (List (String × Bson)) :=
  match v with
  | dict fields => .ok fields
  | v => .error (v.attributeError name)

end Bson

/-- `fields.get(key)` -/
def getField (fields : List (String × Bson)) (key : String) : Bson :=
  (fields.lookup key).getD .null

/-- `fields.setdefault(key, value)` -/
def setDefault (fields : List (String × Bson)) (key : String) (value : Bson) :
    List (String × Bson) :=
  if (fields.lookup key).isSome then fields else fields ++ [(key, value)]

mutual

/-- `mongo_json` -/
def mongoJson : Bson → Json
  | .null => .null
  | .bool b => .bool b
  | .int i => .num i
  | .float x => .num x
  | .str s => .str s
  | .objectId hex => .str hex
  | .date m => .str m.isoformat
  | .list items => .arr (mongoJsonList items)
  | .dict fields => .obj (mongoJsonFields fields)

def mongoJsonList : List Bson → List Json
  | [] => []
  | item :: items => mongoJson item :: mongoJsonList items

def mongoJsonFields : List (String × Bson) → Document
  | [] => []
  | (key, item) :: fields => (key, mongoJson item) :: mongoJsonFields fields

end

theorem keys_mongoJsonFields {fields : List (String × Bson)} :
    (mongoJsonFields fields).map (·.1) = fields.map (·.1) := by
  induction fields with
  | nil => rfl
  | cons field fields ih => simp only [mongoJsonFields, List.map_cons, ih]

/-! ## The profile -/

/-- What the age of a shopper takes from the `datetime` module. -/
structure Calendar where
  /-- `date.today()` -/
  today : Moment
  /-- `date.fromisoformat`, `none` for a `ValueError` -/
  fromisoformat : String → Option Moment

variable (calendar : Calendar)

/-- How many birthdays of someone born on this day there have been. -/
def Calendar.yearsSince (born : Moment) : ℤ :=
  let today := calendar.today
  today.year - born.year -
    (if today.month < born.month ∨ (today.month = born.month ∧ today.day < born.day) then 1 else 0)

/-- `_age` -/
def age (dateOfBirth : Bson) : Except Raised Bson :=
  if ¬ dateOfBirth.truthy then .ok .null
  else match dateOfBirth with
    | .str text =>
      match calendar.fromisoformat (String.ofList (text.toList.take 10)) with
      | some born => .ok (.int (calendar.yearsSince born))
      | none => .ok .null
    | .date born => .ok (.int (calendar.yearsSince born))
    | v => .error (v.attributeError "year")

/-- The preferences that a profile always has. -/
def preferenceKeys : List String :=
  ["styleKeys", "sizeKeys", "generationKeys", "genderKeys", "aestheticKeys", "occasionKeys",
    "festivalKeys", "personalizationSegmentKeys"]

/-- `profile_public` -/
def profilePublic (user : List (String × Bson)) : Except Raised Document := do
  let get := getField user
  let body ← ((get "body_profile").orElse (.dict [])).fields "get"
  let dateOfBirth := (getField body "dateOfBirth").orElse (getField body "date_of_birth")
  let stored ← ((get "preferences").orElse (.dict [])).fields "items"
  let preferences := preferenceKeys.foldl (fun preferences key => setDefault preferences key (.list []))
    (stored.filter (·.1 ≠ "colorFamilyKeys"))
  let age ← age calendar dateOfBirth
  return mongoJsonFields
    [("id", get "_id"), ("email", get "email"), ("fullName", get "full_name"),
      ("phone", get "phone_e164"), ("avatarUrl", get "avatar_url"),
      ("roles", (get "roles").orElse (.list [])), ("status", get "status"),
      ("onboardingCompleted", .bool (get "onboarding_completed").truthy),
      ("defaultPincode", get "default_pincode"), ("addresses", (get "addresses").orElse (.list [])),
      ("preferences", .dict preferences),
      ("bodyProfile", .dict
        [("dateOfBirth", dateOfBirth), ("age", age), ("heightCm", getField body "heightCm"),
          ("weightKg", getField body "weightKg"), ("consent", .bool (getField body "consent").truthy),
          ("updatedAt", getField body "updatedAt")]),
      ("appearanceProfile", get "appearance_profile"),
      ("metadata", (get "metadata").orElse (.dict [])), ("createdAt", get "created_at"),
      ("updatedAt", get "updated_at")]

/-- The keys of a public profile, in order. -/
def profileKeys : List String :=
  ["id", "email", "fullName", "phone", "avatarUrl", "roles", "status", "onboardingCompleted",
    "defaultPincode", "addresses", "preferences", "bodyProfile", "appearanceProfile", "metadata",
    "createdAt", "updatedAt"]

variable {calendar} in
theorem keys_profilePublic {user : List (String × Bson)} {profile : Document}
    (h : profilePublic calendar user = .ok profile) : profile.map (·.1) = profileKeys := by
  simp only [profilePublic, bind, Except.bind] at h
  split at h
  · cases h
  split at h
  · cases h
  split at h
  · cases h
  cases h
  exact keys_mongoJsonFields

end Shopper

end Stylme
