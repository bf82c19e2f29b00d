-- SUMMARY: Which secrets a sequence of saved configurations keeps: those whose section no later request has left out.
import Stylme.Recovery.Settings

/-!
# The secrets of the recovery configuration

Of the three secrets two stand in sections that every request has. The delivery token
stands in a section that a request may leave out, and what carries the token over runs
only when the section is there.
-/

namespace Stylme

open Conc Backend

namespace Recovery

namespace Settings

/-! ## Secrets -/

inductive Secret where
  | orgAPIKey
  | cronSecret
  | apiToken
  deriving DecidableEq

/-- The stored secret, encrypted. -/
def stored (config : Config) : Secret → Option String
  | .orgAPIKey => config.samora.orgAPIKeyEncrypted
  | .cronSecret => config.cronSecretEncrypted
  | .apiToken => config.delivery.provider.bind (·.apiTokenEncrypted)

def World.stored (w : World) (secret : Secret) : Option String := w.config.bind (Settings.stored · secret)

/-- The value that a request submits for the secret, unless it is empty. -/
def ConfigUpdate.submitted (u : ConfigUpdate) : Secret → Option String
  | .orgAPIKey => u.samora.orgAPIKey.filter (· ≠ "")
  | .cronSecret => u.cronSecret.filter (· ≠ "")
  | .apiToken => (u.delivery.providerConfig.bind (·.apiToken)).filter (· ≠ "")

/-- The request has the section of the secret. -/
def ConfigUpdate.hasSection (u : ConfigUpdate) : Secret → Bool
  | .apiToken => u.delivery.providerConfig.isSome
  | _ => true

/-- Requests with their outcomes, newest first. -/
abbrev History := List (Op × Except PyErr PublicConfig)

/-- The last value that an accepted request has submitted for the secret. -/
def lastSubmitted (secret : Secret) : History → Option String
  | [] => none
  | (op, .ok _) :: h => (op.update.submitted secret).or (lastSubmitted secret h)
  | (_, .error _) :: h => lastSubmitted secret h

/-- Since that value was submitted, an accepted request has left out the section of the secret. -/
def leftOut (secret : Secret) : History → Bool
  | [] => false
  | (op, .ok _) :: h =>
    (op.update.submitted secret).isNone ∧
      (leftOut secret h ∨ ¬ op.update.hasSection secret ∧ (lastSubmitted secret h).isSome)
  | (_, .error _) :: h => leftOut secret h

/-- Each stored secret decrypts to the last value submitted for it. -/
def SecretsKept (lib : Library) (h : History) (w : World) : Prop :=
  ∀ secret v, lastSubmitted secret h = some v →
    decryptSecret lib (w.stored secret) = .ok (some v)

/-- The request was accepted, or refused by a check. -/
def settled : Except PyErr PublicConfig → Bool
  | .ok _ | .error (.httpException _ _) => true
  | .error _ => false

/-- What was encrypted is decrypted again. -/
def Inverse (lib : Library) : Prop :=
  ∀ random v, decryptSecret lib (some (lib.encrypt random v)) = .ok (some v)

/-! ## One request -/

section Request

variable {lib : Library} {w : World} {α : Type}

/-- What is stored for a secret when this value is submitted and that text is carried over. -/
def Stores (lib : Library) (submitted current new : Option String) : Prop :=
  match submitted with
  | some v => ∃ random, new = some (lib.encrypt random v)
  | none => new = current

/-- A command fails without one of the exceptions that a check raises. -/
theorem cause_unsettled (f : Mishap) : settled (.error f.cause.error) = false := by
  obtain ⟨cause, applied⟩ := f
  cases cause <;> rfl

/-- The coroutine ends with a value in `Q`, or with an exception that no check raises. -/
abbrev Yields (lib : Library) (Q : α → World → Prop) (p : Py α) (w : World) : Prop :=
  Prog.wp (Cmd.exec lib) (Raise.Post Q fun e _ => settled (.error e) = false) p w

theorem yields_bind {β : Type} {Q : α → World → Prop} {Q' : β → World → Prop} {p : Py α} {f : α → Py β}
    (h : Yields lib Q p w) (hf : ∀ a w', Q a w' → Yields lib Q' (f a) w') :
    Yields lib Q' (p >>= f) w := by
  refine Raise.wp_bind.2 (Prog.wp_mono (fun r w' hr => ?_) h)
  cases r with
  | ok a => exact hf a w' hr
  | error e => exact hr

theorem getConfig_yields :
    Yields lib (fun config w' => ∀ secret, w'.stored secret = w.stored secret ∧
      w.stored secret = stored config secret) getConfig w := by
  refine Raise.wp_ask_bind.2 fun o r w' hexec => ?_
  obtain ⟨rfl, hr | ⟨f, -, rfl⟩⟩ := respond_eq hexec
  · subst hr
    cases hconfig : w'.config with
    | some config =>
      intro secret
      rw [World.stored, hconfig]
      exact ⟨rfl, rfl⟩
    | none =>
      refine Raise.wp_ask.2 fun o r w₁ hexec => ?_
      simp only [Cmd.exec, hconfig] at hexec
      rcases perform_eq hexec with ⟨-, rfl, rfl⟩ | ⟨f, -, rfl, -⟩
      · intro secret
        rw [World.stored, World.stored, hconfig]
        cases secret <;> exact ⟨rfl, rfl⟩
      · exact cause_unsettled f
  · exact cause_unsettled f

/-- A secret is encrypted when it is submitted, and else the stored one. -/
theorem keepSecret_yields {incoming current : Option String} :
    Yields lib (fun s w' => w' = w ∧ Stores lib (incoming.filter (· ≠ "")) current s)
      (keepSecret incoming current) w := by
  unfold keepSecret
  cases incoming.filter (· ≠ "") with
  | some v =>
    refine Raise.wp_ask_bind.2 fun o r w' hexec => ?_
    simp only [Cmd.exec] at hexec
    split at hexec
    · obtain ⟨rfl, rfl⟩ := Prod.mk.inj (Option.some.inj hexec)
      rfl
    · obtain ⟨rfl, rfl⟩ := Prod.mk.inj (Option.some.inj hexec)
      exact ⟨rfl, o.random, rfl⟩
  | none => exact ⟨rfl, rfl⟩

theorem keepProvider_yields {existing : Config} {provider : Option ProviderInput} :
    Yields lib (fun p w' => w' = w ∧ Stores lib ((provider.bind (·.apiToken)).filter (· ≠ ""))
      (if provider.isSome then stored existing .apiToken else none) (p.bind (·.apiTokenEncrypted)))
      (keepProvider existing provider) w := by
  cases provider with
  | none => exact ⟨rfl, rfl⟩
  | some p => exact yields_bind keepSecret_yields fun token w' h => h

/-- What a request that is settled leaves of the secrets. -/
def Outcome (lib : Library) (u : ConfigUpdate) (w : World) (r : Except PyErr PublicConfig) (w' : World) :
    Prop :=
  settled r → ∀ secret, match r with
    | .ok _ => Stores lib (u.submitted secret) (if u.hasSection secret then w.stored secret else none)
        (w'.stored secret)
    | .error _ => w'.stored secret = w.stored secret

theorem outcome_bind {u : ConfigUpdate} {w₀ : World} {Q : α → World → Prop} {p : Py α}
    {f : α → Py PublicConfig} (h : Yields lib Q p w)
    (hf : ∀ a w', Q a w' → Prog.wp (Cmd.exec lib) (Outcome lib u w₀) (f a) w') :
    Prog.wp (Cmd.exec lib) (Outcome lib u w₀) (p >>= f : Py PublicConfig) w := by
  refine Raise.wp_bind.2 (Prog.wp_mono (fun r w' hr => ?_) h)
  cases r with
  | ok a => exact hf a w' hr
  | error e =>
    intro hsettled
    rw [hr] at hsettled
    cases hsettled

/-- A save that is accepted encrypts what is submitted and carries over what has a section; one that
is refused leaves the secrets. -/
theorem saveConfig_wp {actor : ObjectId} {u : ConfigUpdate} :
    Prog.wp (Cmd.exec lib) (Outcome lib u w) (saveConfig lib actor u) w := by
  refine outcome_bind getConfig_yields fun existing w₁ hexisting => ?_
  refine outcome_bind keepSecret_yields fun orgAPIKey w₂ horg => ?_
  obtain ⟨rfl, horg⟩ := horg
  refine outcome_bind keepSecret_yields fun cronSecret w₂ hcron => ?_
  obtain ⟨rfl, hcron⟩ := hcron
  refine outcome_bind keepProvider_yields fun provider w₂ hprovider => ?_
  obtain ⟨rfl, hprovider⟩ := hprovider
  dsimp only
  split
  · exact fun _ secret => (hexisting secret).1
  refine outcome_bind (Q := fun _ w' => w' = w₂) (Raise.wp_ask.2 fun o r w' hexec => ?_) fun now w' hw => ?_
  · obtain ⟨rfl, rfl⟩ := Prod.mk.inj (Option.some.inj hexec)
    rfl
  subst hw
  have hstored : ∀ secret, Stores lib (u.submitted secret)
      (if u.hasSection secret then w.stored secret else none) (match secret with
        | .orgAPIKey => orgAPIKey
        | .cronSecret => cronSecret
        | .apiToken => provider.bind (·.apiTokenEncrypted)) := by
    intro secret
    rw [(hexisting secret).2]
    cases secret with
    | orgAPIKey => exact horg
    | cronSecret => exact hcron
    | apiToken => exact hprovider
  refine outcome_bind (Q := fun _ w' => ∀ secret, Stores lib (u.submitted secret)
      (if u.hasSection secret then w.stored secret else none) (w'.stored secret))
    (Raise.wp_ask.2 fun o r w' hexec => ?_) fun updated w₃ hw₃ => ?_
  · rcases perform_eq hexec with ⟨-, rfl, rfl⟩ | ⟨f, -, rfl, -⟩
    · intro secret
      cases secret with
      | orgAPIKey => exact hstored .orgAPIKey
      | cronSecret => exact hstored .cronSecret
      | apiToken => exact hstored .apiToken
    · exact cause_unsettled f
  refine outcome_bind (Q := fun _ w' => w'.config = w₃.config)
    (Raise.wp_ask.2 fun o r w' hexec => ?_) fun _ w₄ hw₄ => ?_
  · rcases perform_eq hexec with ⟨-, rfl, rfl⟩ | ⟨f, -, rfl, -⟩
    · rfl
    · exact cause_unsettled f
  refine Raise.wp_lift.2 fun hsettled secret => ?_
  have hconfig : w₄.stored secret = w₃.stored secret := by rw [World.stored, hw₄, World.stored]
  cases hpublic : publicConfig lib updated with
  | ok shown =>
    change Stores _ _ _ (w₄.stored secret)
    rw [hconfig]
    exact hw₃ secret
  | error e =>
    rw [hpublic] at hsettled
    cases hsettled

end Request

/-! ## Sequences of requests -/

section Sequence

variable {lib : Library} {h : History} {w w₀ w' : World} {secret : Secret} {v : String}

/-- Where the last submitted value of a secret is. -/
def Held (lib : Library) (h : History) (w : World) (secret : Secret) (v : String) : Prop :=
  if leftOut secret h then w.stored secret = none
  else ∃ random, w.stored secret = some (lib.encrypt random v)

/-- An accepted request moves every secret as its submissions and its sections say. -/
theorem held_cons {op : Op} {shown : PublicConfig} (hheld : ∀ v, lastSubmitted secret h = some v →
      Held lib h w secret v)
    (hstores : Stores lib (op.update.submitted secret)
      (if op.update.hasSection secret then w.stored secret else none) (w'.stored secret))
    (hlast : lastSubmitted secret ((op, .ok shown) :: h) = some v) :
    Held lib ((op, .ok shown) :: h) w' secret v := by
  unfold Held leftOut
  unfold lastSubmitted at hlast
  cases hsubmitted : op.update.submitted secret with
  | some v' =>
    rw [hsubmitted] at hlast hstores
    obtain rfl := Option.some.inj hlast
    rw [if_neg (by simp)]
    exact hstores
  | none =>
    rw [hsubmitted] at hlast hstores
    have hlast : lastSubmitted secret h = some v := hlast
    have hstores : w'.stored secret = _ := hstores
    have hbefore := hheld v hlast
    unfold Held at hbefore
    cases hsection : op.update.hasSection secret with
    | true =>
      rw [hsection] at hstores
      rw [hstores]
      simpa using hbefore
    | false =>
      rw [hsection] at hstores
      rw [hstores]
      simp [hlast]

theorem held_of_sequence (hs : (settings lib).Sequence (fun _ op => op.update.valid) w₀ h w)
    (hsettled : ∀ x ∈ h, settled x.2) (hlast : lastSubmitted secret h = some v) :
    Held lib h w secret v := by
  refine System.Sequence.invariant (I := fun h w => (∀ x ∈ h, settled x.2) →
    ∀ secret v, lastSubmitted secret h = some v → Held lib h w secret v) ?_ ?_ ?_ hs hsettled secret v hlast
  · intro _ secret v hlast
    cases hlast
  · intro h w passed hI hsettled secret v hlast
    exact hI hsettled secret v hlast
  · intro h w op hI _
    refine Prog.wp_mono (fun r w' houtcome hsettled secret v hlast => ?_) saveConfig_wp
    have hbefore := hI (fun x hx => hsettled x (List.mem_cons_of_mem _ hx)) secret
    have hafter := houtcome (hsettled _ List.mem_cons_self) secret
    cases r with
    | ok shown => exact held_cons hbefore hafter hlast
    | error e =>
      have hheld := hbefore v hlast
      have hsame : w'.stored secret = w.stored secret := hafter
      unfold Held leftOut
      rw [hsame]
      exact hheld

/-- Every request has a section for each of the other secrets. -/
theorem leftOut_eq_false (h : History) (hsecret : secret ≠ .apiToken) : leftOut secret h = false := by
  induction h with
  | nil => rfl
  | cons x h ih =>
    obtain ⟨op, r⟩ := x
    cases r with
    | error e => exact ih
    | ok shown => cases secret <;> simp_all [leftOut, ConfigUpdate.hasSection]

theorem isSome_of_leftOut {h : History} (hleft : leftOut secret h) : (lastSubmitted secret h).isSome := by
  induction h with
  | nil => cases hleft
  | cons x h ih =>
    obtain ⟨op, r⟩ := x
    cases r with
    | error e => exact ih hleft
    | ok shown =>
      obtain ⟨hnone, hbefore⟩ := of_decide_eq_true hleft
      rw [lastSubmitted, Option.isNone_iff_eq_none.1 hnone, Option.none_or]
      exact hbefore.elim ih (·.2)

/-- The stored secrets are the last submitted ones, unless a request has left out the section of the
delivery token since the token was submitted. -/
theorem secretsKept_iff (hinverse : Inverse lib)
    (hs : (settings lib).Sequence (fun _ op => op.update.valid) w₀ h w)
    (hsettled : ∀ x ∈ h, settled x.2) : SecretsKept lib h w ↔ leftOut .apiToken h = false := by
  constructor
  · intro hkept
    cases hleft : leftOut .apiToken h with
    | false => rfl
    | true =>
      obtain ⟨v, hlast⟩ := Option.isSome_iff_exists.1 (isSome_of_leftOut hleft)
      have hheld := held_of_sequence hs hsettled hlast
      have hdecrypted := hkept .apiToken v hlast
      rw [Held, hleft] at hheld
      rw [show w.stored .apiToken = none from hheld] at hdecrypted
      cases hdecrypted
  · intro hleft secret v hlast
    have hheld := held_of_sequence hs hsettled hlast
    have hfalse : leftOut secret h = false := by
      by_cases hsecret : secret = .apiToken
      · exact hsecret ▸ hleft
      · exact leftOut_eq_false h hsecret
    rw [Held, hfalse] at hheld
    obtain ⟨random, hstored⟩ := hheld
    rw [hstored]
    exact hinverse random v

end Sequence

end Settings

end Recovery

namespace Sample

namespace Settings

open Stylme.Recovery Stylme.Recovery.Settings

/-- A request whose delivery section is disabled. -/
def update (providerConfig : Option ProviderInput) : ConfigUpdate where
  enabled := false
  cronSecret := none
  pageSize := 500
  samora := ⟨"stage", "https://api.stage.samora.ai", none, none, none, "stylme",
    "stylme-abandoned-checkout-v1", ["DRAFT", "IN_PROGRESS"]⟩
  calling := (defaultConfig 0 0).calling
  multilingual := (defaultConfig 0 0).multilingual
  delivery := ⟨false, "zepic", some "send_checkout_link", "yes", ["CALL_FINISHED"], providerConfig⟩
  metadata := .dict []

/-- The provider section with this token. -/
def provider (apiToken : Option String) : ProviderInput :=
  ⟨"record_sync", "https://shop.myzepic.com", apiToken, "mobile_number", "Samora-Checkout", "custom",
    "samora_checkout", .dict []⟩

/-- Requests with these provider sections, one after another. -/
def requests (sections : List (Option ProviderInput)) : List (Op × List Settings.Oracle) :=
  sections.map fun providerConfig => (⟨1, update providerConfig⟩, List.replicate 8 {})

end Settings

end Sample

namespace Recovery

namespace Settings

theorem inverse_sample : Inverse Sample.recoveryLibrary := by
  intro random v
  unfold decryptSecret
  split
  · rename_i h
    cases h
  · rename_i h
    have hlist := congrArg String.toList (Option.some.inj h)
    simp [Sample.recoveryLibrary] at hlist
  · rename_i h
    obtain rfl := Option.some.inj h
    have hkey : ¬ Sample.recoveryLibrary.keyMaterial.length < 32 := by decide
    rw [if_neg hkey]
    simp [Sample.recoveryLibrary]

/-- A token is submitted, and a later request has the section without a token. -/
theorem secretsKept_resubmitted : ∃ h w,
    (settings Sample.recoveryLibrary).Sequence (fun _ op => op.update.valid) ⟨0, none, []⟩ h w ∧
    h.length = 2 ∧ lastSubmitted .apiToken h = some "token-12" ∧
    SecretsKept Sample.recoveryLibrary h w := by
  have hrun : ((settings Sample.recoveryLibrary).sequence (fun _ op => op.update.valid = true)
      (Sample.Settings.requests
        [some (Sample.Settings.provider (some "token-12")), some (Sample.Settings.provider none)])
      [] ⟨0, none, []⟩).any fun x => x.1.length = 2 ∧ lastSubmitted .apiToken x.1 = some "token-12" ∧
        leftOut .apiToken x.1 = false ∧ x.1.all fun y => settled y.2 := by decide +kernel
  obtain ⟨h, w, hs, hcheck⟩ := System.Sequence.exists_of_any hrun
  obtain ⟨hlength, hlast, hleft, hsettled⟩ := of_decide_eq_true hcheck
  exact ⟨h, w, hs, hlength, hlast,
    (secretsKept_iff inverse_sample hs fun x hx => List.all_eq_true.1 hsettled x hx).2 hleft⟩

/-- A later request leaves the section out, and the token is lost. -/
theorem not_secretsKept : ∃ h w,
    (settings Sample.recoveryLibrary).Sequence (fun _ op => op.update.valid) ⟨0, none, []⟩ h w ∧
    (∀ x ∈ h, ∃ shown, x.2 = .ok shown) ∧ ¬ SecretsKept Sample.recoveryLibrary h w := by
  have hrun : ((settings Sample.recoveryLibrary).sequence (fun _ op => op.update.valid = true)
      (Sample.Settings.requests [some (Sample.Settings.provider (some "token-12")), none])
      [] ⟨0, none, []⟩).any fun x => lastSubmitted .apiToken x.1 = some "token-12" ∧
        (x.2.stored .apiToken).isNone ∧ x.1.all fun y => y.2.toOption.isSome := by decide +kernel
  obtain ⟨h, w, hs, hcheck⟩ := System.Sequence.exists_of_any hrun
  obtain ⟨hlast, hstored, haccepted⟩ := of_decide_eq_true hcheck
  refine ⟨h, w, hs, fun x hx => ?_, fun hkept => ?_⟩
  · have hx := List.all_eq_true.1 haccepted x hx
    cases hr : x.2 with
    | ok shown => exact ⟨shown, rfl⟩
    | error e =>
      rw [hr] at hx
      cases hx
  · have hdecrypted := hkept .apiToken "token-12" hlast
    rw [Option.isNone_iff_eq_none.1 hstored] at hdecrypted
    cases hdecrypted

end Settings

end Recovery

end Stylme
