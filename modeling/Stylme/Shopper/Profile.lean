-- SUMMARY: The update of a shopper's profile, computed from the user document that the request was authenticated with.
import Stylme.Shopper.Commands

/-!
# Profiles

`update_profile` builds the new preferences and the new body profile from the copy of
the user that was read at authentication, and writes them whole.
-/

namespace Stylme

open Conc Backend

namespace Shopper

variable (lib : Library)

/-! ## Requests -/

/-- `UserProfileUpdate`; a field that is not set is `none`, one that is set to null `some none`. -/
structure ProfileUpdate where
  fullName : Option (Option String) := none
  phone : Option (Option String) := none
  dateOfBirth : Option (Option String) := none
  heightCm : Option (Option ℚ) := none
  weightKg : Option (Option ℚ) := none
  consent : Option (Option Bool) := none
  /-- The preference fields that are set, by the names of the request -/
  preferences : List (String × Option (List String)) := []
  metadata : Option (Option Document) := none

/-- `measurements_require_consent` -/
def ProfileUpdate.valid (values : ProfileUpdate) : Bool :=
  ¬ (values.consent = some (some false) ∧
    ((values.heightCm.getD none).isSome ∨ (values.weightKg.getD none).isSome))

/-! ## Body profiles -/

/-- `values.get("body_profile_consent", body.get("consent"))`, as a condition -/
def ProfileUpdate.mayMeasure (values : ProfileUpdate) (body : BodyProfile) : Bool :=
  values.consent.elim body.consent (·.getD false)

/-- The body profile after the consent of the request. -/
def BodyProfile.withConsent (body : BodyProfile) (consent : Option (Option Bool)) : BodyProfile :=
  match consent with
  | none => body
  | some (some true) => { body with consent := true }
  | some _ => { body with consent := false, heightCm := none, weightKg := none }

/-- `body`, unless a measurement lacks consent -/
def ProfileUpdate.body (values : ProfileUpdate) (now : Time) (stored : BodyProfile) :
    Except PyErr BodyProfile :=
  let body := stored.withConsent values.consent
  let body := { body with dateOfBirth := values.dateOfBirth.getD body.dateOfBirth }
  if values.heightCm.isSome ∧ ¬ values.mayMeasure body then
    .error (.httpException 422 "Height requires body-profile consent")
  else
    let body := { body with heightCm := values.heightCm.getD body.heightCm }
    if values.weightKg.isSome ∧ ¬ values.mayMeasure body then
      .error (.httpException 422 "Weight requires body-profile consent")
    else
      let body := { body with weightKg := values.weightKg.getD body.weightKg }
      if values.dateOfBirth.isSome ∨ values.heightCm.isSome ∨ values.weightKg.isSome ∨
        values.consent.isSome then .ok { body with updatedAt := some now }
      else .ok body

/-! ## Preferences -/

/-- `preference_fields`: the name in the request, the field, and the name in the document. -/
def preferenceFields : List (String × String × String) :=
  [("style_keys", "style", "styleKeys"), ("size_keys", "size", "sizeKeys"),
    ("generation_keys", "generation", "generationKeys"), ("gender_keys", "gender", "genderKeys"),
    ("aesthetic_keys", "aesthetic", "aestheticKeys"), ("occasion_keys", "occasion", "occasionKeys"),
    ("festival_keys", "festival", "festivalKeys"),
    ("personalization_segment_keys", "personalization_segment", "personalizationSegmentKeys")]

/-- `_validate_options` -/
def validateOptions (fieldKey : String) (values : List String) : Py (List String) := do
  match ← Raise.ask (Cmd.activeField fieldKey) with
  | none => throw (.httpException 503 ("Controlled field " ++ fieldKey ++ " is unavailable"))
  | some allowed =>
    if values.eraseDups.all (· ∈ allowed) then return values.eraseDups
    else throw (.httpException 422 ("Unknown " ++ fieldKey ++ " options"))

/-- The loop over the preference fields. -/
def setPreferences (values : ProfileUpdate) :
    List (String × String × String) → List (String × List String) → Py (List (String × List String))
  | [], preferences => return preferences
  | (requestKey, fieldKey, storageKey) :: fields, preferences =>
    match values.preferences.lookup requestKey with
    | none => setPreferences values fields preferences
    | some keys => do
      let clean ← validateOptions fieldKey (keys.getD [])
      setPreferences values fields (setKey storageKey clean preferences)

/-! ## Updates -/

/-- `PROFILE_CORE_KEYS` -/
def profileCoreKeys : List String :=
  ["email", "roles", "status", "password", "passwordHash", "bodyProfile", "preferences",
    "appearanceProfile", "addresses", "defaultPincode"]

/-- `{**stored, **metadata}`, unless a key is one of the profile. -/
def mergeMetadata (stored : Document) (metadata : Option (Option Document)) :
    Except PyErr (Option Document) :=
  match metadata.getD none with
  | none => .ok none
  | some metadata =>
    if metadata.any (·.1 ∈ profileCoreKeys) then
      .error (.httpException 422 "Metadata cannot override profile fields")
    else .ok (some (metadata.foldl (fun document x => setKey x.1 x.2 document) stored))

/-- `normalize_e164(values["phone"])`, if the request has a phone. -/
def phoneUpdate (phone : Option (Option String)) : Except PyErr (Option String) :=
  match phone with
  | none => .ok none
  | some value =>
    match Recovery.normalizeE164 lib.toLibrary value with
    | some normalized => .ok (some normalized)
    | none => .error (.httpException 422 "Enter a valid phone number with country code")

/-- `sorted(values)` -/
def ProfileUpdate.fieldNames (values : ProfileUpdate) : List String :=
  let named {α : Type} (name : String) (value : Option α) := if value.isSome then [name] else []
  (named "full_name" values.fullName ++ named "phone" values.phone ++
    named "date_of_birth" values.dateOfBirth ++ named "height_cm" values.heightCm ++
    named "weight_kg" values.weightKg ++ named "body_profile_consent" values.consent ++
    values.preferences.map (·.1) ++ named "metadata" values.metadata).insertionSort (· ≤ ·)

/-- `update_profile`; the answer is the user that `profile_public` shows. -/
def updateProfile (user : User) (values : ProfileUpdate) (completeOnboarding : Bool) : Py User := do
  let now ← Raise.ask Cmd.now
  let phone ← Raise.lift (phoneUpdate lib values.phone)
  let preferences ← setPreferences values preferenceFields user.preferences
  let body ← Raise.lift (values.body now user.body)
  let metadata ← Raise.lift (mergeMetadata user.metadata values.metadata)
  let updates : UserUpdates := {
    fullName := values.fullName
    phone
    preferences := preferences.filter (·.1 ≠ "colorFamilyKeys")
    body
    metadata
    completeOnboarding
    reviewed := completeOnboarding && user.reviewRequired.isSome
    updatedAt := now }
  let updated ← Raise.tryExcept (· = .duplicateKey) (Raise.ask (Cmd.updateUser user.id updates))
    fun _ => throw (.httpException 409 "This phone number is already in use")
  let action := if completeOnboarding then "customer_onboarding_completed" else "profile_updated"
  Raise.ask (Cmd.insertAudit ⟨action, user.id, values.fieldNames⟩)
  match updated with
  | some user => return user
  | none => throw (.exception "AttributeError" "'NoneType' object has no attribute 'get'")

end Shopper

end Stylme
