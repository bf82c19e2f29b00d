-- SUMMARY: A search never carries what the shopper's profile tells of age, measurements and gender.
import Stylme.Chat.Catalog
import Stylme.Shopper.PublicProfile

/-!
# Profiles and searches

`profile_public` puts the age and the measurements under `bodyProfile` and the gender keys
under `preferences`, while `CatalogClient.Search` looks for them at the top level.
-/

namespace Stylme

open Backend Chat Shopper

namespace ProfileSearch

/-! ## What a profile tells -/

/-- A member of an object. -/
def member (key : String) : Json → Option Json
  | .obj fields => fields.lookup key
  | _ => none

/-- What a public profile tells of the body under a key, `null` if unknown. -/
def bodyValue (profile : Document) (key : String) : Json :=
  ((profile.lookup "bodyProfile").bind (member key)).getD .null

/-- The gender keys of a public profile. -/
def genderKeys (profile : Document) : List Json :=
  match (profile.lookup "preferences").bind (member "genderKeys") with
  | some (.arr keys) => keys
  | _ => []

/-- The measures of a body profile, with the fields of the search request meant for them. -/
def measures : List (String × String) :=
  [("age", "profileAge"), ("heightCm", "profileHeightCm"), ("weightKg", "profileWeightKg")]

/-- The profile has an age, a height, a weight or gender keys. -/
def Known (profile : Document) : Prop :=
  (∃ measure ∈ measures, bodyValue profile measure.1 ≠ .null) ∨ genderKeys profile ≠ []

/-- The request carries all that the profile tells, and the search accepts it. -/
structure Reaches (parse : String → Option Rat) (profile payload : Document) : Prop where
  measures : ∀ measure ∈ measures, bodyValue profile measure.1 ≠ .null →
    payload.lookup measure.2 = some (bodyValue profile measure.1)
  genders : genderKeys profile ≠ [] →
    payload.lookup "profileGender" = some (.arr (genderKeys profile))
  accepted : acceptsProfile parse payload

/-! ## What a search carries -/

section Carried

variable {calendar : Calendar} {user : List (String × Bson)} {profile : Document} {query : String}
  {plan : SearchPlan} {parse : String → Option Rat}

/-- None of the keys that a search looks for is one of a public profile. -/
theorem lookup_profilePublic_of_source (h : profilePublic calendar user = .ok profile) :
    ∀ key ∈ profileSources, profile.lookup key = none := by
  have hdisjoint : ∀ key ∈ profileKeys, key ∉ profileSources := by decide
  intro key hkey
  rw [List.lookup_eq_none_iff]
  intro field hfield
  have hmem : field.1 ∈ profileKeys := keys_profilePublic h ▸ List.mem_map_of_mem hfield
  rw [bne_iff_ne]
  rintro rfl
  exact hdisjoint _ hmem hkey

theorem lookup_searchPayload_profilePublic (h : profilePublic calendar user = .ok profile)
    {target : String} (ht : target ∈ profileTargets) :
    (searchPayload query plan profile).lookup target = none :=
  lookup_searchPayload_of_absent (lookup_profilePublic_of_source h) ht

/-- A search for a public profile is about an unknown shopper. -/
theorem not_known_of_reaches (h : profilePublic calendar user = .ok profile)
    (hr : Reaches parse profile (searchPayload query plan profile)) : ¬ Known profile := by
  rintro (⟨measure, hmeasure, hknown⟩ | hknown)
  · have htarget : ∀ measure ∈ measures, measure.2 ∈ profileTargets := by decide
    have hcarried := hr.measures measure hmeasure hknown
    rw [lookup_searchPayload_profilePublic h (htarget measure hmeasure)] at hcarried
    cases hcarried
  · have hcarried := hr.genders hknown
    rw [lookup_searchPayload_profilePublic h (by decide)] at hcarried
    cases hcarried

theorem reaches_of_not_known (h : profilePublic calendar user = .ok profile)
    (hunknown : ¬ Known profile) : Reaches parse profile (searchPayload query plan profile) where
  measures measure hmeasure hknown := (hunknown (.inl ⟨measure, hmeasure, hknown⟩)).elim
  genders hknown := (hunknown (.inr hknown)).elim
  accepted := by
    have hnone : ∀ target ∈ profileTargets,
        (searchPayload query plan profile).lookup target = none := fun _ =>
      lookup_searchPayload_profilePublic h
    simp only [acceptsProfile, hnone "profileAge" (by decide),
      hnone "profileHeightCm" (by decide), hnone "profileWeightKg" (by decide),
      hnone "profileGender" (by decide)]
    rfl

end Carried

/-- What a public profile tells of the shopper reaches the search exactly when it tells
nothing. -/
theorem search_carries_profile_iff (calendar : Calendar) (parse : String → Option Rat)
    (user : List (String × Bson)) (profile : Document) (query : String) (plan : SearchPlan)
    (h : profilePublic calendar user = .ok profile) :
    Reaches parse profile (searchPayload query plan profile) ↔ ¬ Known profile :=
  ⟨not_known_of_reaches h, reaches_of_not_known h⟩

/-! ## A shopper with a height -/

section Sample

/-- A day on which no date is ever read. -/
def sampleCalendar : Calendar := ⟨{ year := 2026, month := 5, day := 4 }, fun _ => none⟩

/-- A shopper who has told the height and a gender key. -/
def sampleUser : List (String × Bson) :=
  [("_id", .objectId "65a1b2c3d4e5f60718293a4b"),
    ("body_profile", .dict [("consent", .bool true), ("heightCm", .float 170)]),
    ("preferences", .dict [("genderKeys", .list [.str "women"])])]

def sampleProfile : Document := (profilePublic sampleCalendar sampleUser).toOption.getD []

theorem profilePublic_sampleUser :
    profilePublic sampleCalendar sampleUser = .ok sampleProfile := rfl

theorem bodyValue_sampleProfile : bodyValue sampleProfile "heightCm" = .num 170 := rfl

theorem known_sampleProfile : Known sampleProfile :=
  .inl ⟨("heightCm", "profileHeightCm"), by decide, by rw [bodyValue_sampleProfile]; exact nofun⟩

/-- The theorem at the shopper with a height. -/
theorem search_carries_profile_sample :
    ¬ Reaches (fun _ => none) sampleProfile (searchPayload "kurta" {} sampleProfile) := fun h =>
  (search_carries_profile_iff sampleCalendar (fun _ => none) sampleUser sampleProfile "kurta" {}
    profilePublic_sampleUser).1 h known_sampleProfile

/-- The height of the shopper is in the profile, and not in the request. -/
theorem not_reaches_sampleProfile :
    profilePublic sampleCalendar sampleUser = .ok sampleProfile ∧
      bodyValue sampleProfile "heightCm" = .num 170 ∧
      ¬ Reaches (fun _ => none) sampleProfile (searchPayload "kurta" {} sampleProfile) := by
  refine ⟨profilePublic_sampleUser, bodyValue_sampleProfile, fun h => ?_⟩
  exact not_known_of_reaches profilePublic_sampleUser h known_sampleProfile

end Sample

end ProfileSearch

end Stylme
