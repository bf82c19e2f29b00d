-- SUMMARY: The vault of provider keys as programs over its store, with the effect of each command.
import Stylme.Lib.Pool
import Stylme.Service.Agents

/-!
# Provider keys

`internal/service/credentials.go` keeps one key for each of three AI providers, encrypted in the
collection `provider_credentials`. The key of a provider is the newest active credential there that
has not expired, or else the one that the deployment has in its environment. The store keeps times
in milliseconds.
-/

namespace Stylme

open Conc

namespace Vault

/-! ## Text and bytes -/

abbrev Bytes := List UInt8

/-- `[]byte(value)` -/
def utf8 (value : String) : Bytes := value.toList.flatMap String.utf8EncodeChar

/-- `gcm.NonceSize()` -/
def nonceSize : ℕ := 12

/-- What `io.ReadFull` fills with random bytes. -/
structure Nonce where
  bytes : Bytes
  length_eq : bytes.length = nonceSize

/-- Packages of Go: the letters of `strings`, AES-GCM under the key of the vault, and the encoding of
its texts. -/
structure Library where
  /-- `unicode.ToLower` -/
  lower : Char → Char
  /-- `gcm.Seal`, without the nonce in front -/
  sealed : Bytes → String → Bytes
  /-- `gcm.Open` -/
  opened : Bytes → Bytes → Except String String
  /-- `base64.RawURLEncoding` -/
  encodeToString : Bytes → String
  decodeString : String → Except String Bytes
  lower_of_isLower : ∀ c : Char, c.isLower → lower c = c
  opened_sealed : ∀ (nonce : Nonce) value, opened nonce.bytes (sealed nonce.bytes value) = .ok value
  decode_encode : ∀ bytes, decodeString (encodeToString bytes) = .ok bytes

/-- The milliseconds that the store keeps of a time. -/
def milli (t : Time) : Time := t / 1000000 * 1000000

/-! ## Credentials -/

/-- The order of `credentialProviderPriority`; `supportedCredentialProviders` has the same providers. -/
def credentialProviderPriority : List String := ["openai", "deepgram", "sarvam"]

/-- `domain.ProviderCredential` -/
structure Credential where
  id : String
  provider : String
  label : String
  ciphertext : String
  keyHint : Bytes
  status : String
  expiresAt : Option Time
  createdBy : String
  updatedBy : String
  createdAt : Time
  updatedAt : Time

structure CredentialInput where
  provider : String
  label : String
  apiKey : String
  expiresAt : Option Time

structure CredentialStatus where
  provider : String
  configured : Bool
  source : String
  keyHint : Bytes
  status : String
  expiresAt : Option Time
  updatedAt : Option Time

/-- The keys in the environment of a deployment, by provider. -/
abbrev Fallback := List (String × String)

/-- `strings.TrimSpace(v.fallback[provider])` -/
def Fallback.key (fallback : Fallback) (provider : String) : String :=
  trimSpace ((fallback.lookup provider).getD "")

/-- `strings.ToLower(strings.TrimSpace(provider))` -/
def normal (lib : Library) (provider : String) : String := toLower lib.lower (trimSpace provider)

def providerCredentialID (lib : Library) (provider : String) : String := "credential_" ++ normal lib provider

def maskHint (value : String) : Bytes :=
  let bytes := utf8 (trimSpace value)
  if bytes.length ≤ 4 then utf8 "••••" else utf8 "••••" ++ bytes.drop (bytes.length - 4)

def statusFromCredential (value : Credential) : CredentialStatus where
  provider := value.provider
  configured := true
  source := "database"
  keyHint := value.keyHint
  status := value.status
  expiresAt := value.expiresAt
  updatedAt := some value.updatedAt

@[simp] theorem statusFromCredential_provider {value : Credential} :
    (statusFromCredential value).provider = value.provider := rfl

/-- The credential is active, and has not expired at `now`. -/
def Credential.live (c : Credential) (now : Time) : Bool :=
  c.status = "active" ∧ c.expiresAt.all (now < ·)

/-! ## Commands -/

inductive Cmd where
  | now
  | nonce
  | listCredentials
  | getActiveCredential (provider : String) (now : Time)
  | upsertCredential (credential : Credential)
  | deactivateProviderCredentials (provider exceptID : String)

@[reducible] def Resp : Cmd → Type
  | .now => Time
  | .nonce => Except Err Nonce
  | .listCredentials => Except Err (List Credential)
  | .getActiveCredential _ _ => Except Err Credential
  | .upsertCredential _ | .deactivateProviderCredentials _ _ => Except Err Unit

abbrev Program (α : Type) := Prog Cmd Resp α

/-! ## The vault -/

section Programs

variable (lib : Library)

def encrypt (value : String) : Program (Except Err String) := do
  match ← Prog.call Cmd.nonce with
  | .error e => return .error e
  | .ok nonce => return .ok (lib.encodeToString (nonce.bytes ++ lib.sealed nonce.bytes value))

def decrypt (value : String) : Except Err String :=
  match lib.decodeString value with
  | .error m => .error (.message m)
  | .ok sealed =>
    if sealed.length < nonceSize then .error (.message "encrypted credential is truncated")
    else
      match lib.opened (sealed.take nonceSize) (sealed.drop nonceSize) with
      | .error m => .error (.message m)
      | .ok plain => .ok plain

/-- `input.ExpiresAt != nil && !input.ExpiresAt.After(time.Now().UTC())` -/
def expired : Option Time → Program Bool
  | none => pure false
  | some t => do return ¬ (← Prog.call Cmd.now) < t

/-- The credential that `Save` writes. -/
def CredentialInput.credential (input : CredentialInput) (actor ciphertext : String) (now : Time) : Credential :=
  let provider := normal lib input.provider
  let label := trimSpace input.label
  { id := providerCredentialID lib provider
    provider := provider
    label := if label = "" then provider.capitalize ++ " runtime key" else label
    ciphertext := ciphertext
    keyHint := maskHint (trimSpace input.apiKey)
    status := "active"
    expiresAt := input.expiresAt
    createdBy := actor
    updatedBy := actor
    createdAt := now
    updatedAt := now }

def save (input : CredentialInput) (actor : String) : Program (Except Err CredentialStatus) := do
  let provider := normal lib input.provider
  let secret := trimSpace input.apiKey
  if provider ∉ credentialProviderPriority then
    return .error (.message "provider must be openai, deepgram, or sarvam")
  else if (utf8 secret).length < 8 ∨ 4096 < (utf8 secret).length then
    return .error (.message "apiKey must contain 8 to 4096 characters")
  else if ← expired input.expiresAt then return .error (.message "expiresAt must be in the future")
  else
    match ← encrypt lib secret with
    | .error e => return .error e
    | .ok ciphertext =>
      let now ← Prog.call Cmd.now
      let credential := input.credential lib actor ciphertext now
      match ← Prog.call (Cmd.upsertCredential credential) with
      | .error e => return .error e
      | .ok () =>
        match ← Prog.call (Cmd.deactivateProviderCredentials provider credential.id) with
        | .error e => return .error e
        | .ok () => return .ok (statusFromCredential credential)

/-- What `EnsureFallbacks` saves for a provider. -/
def Fallback.input (fallback : Fallback) (provider : String) : CredentialInput where
  provider := provider
  label := provider.capitalize ++ " deployment key"
  apiKey := fallback.key provider
  expiresAt := none

/-- The loop of `EnsureFallbacks`. -/
def ensureEach (fallback : Fallback) : List String → Program (Option Err)
  | [] => pure none
  | provider :: rest => do
    if fallback.key provider = "" then ensureEach fallback rest
    else
      let now ← Prog.call Cmd.now
      match ← Prog.call (Cmd.getActiveCredential provider now) with
      | .ok _ => ensureEach fallback rest
      | .error e =>
        if ¬ e.isNotFound then return some (.wrapped ("check " ++ provider ++ " credential") e)
        else
          match ← save lib (fallback.input provider) "environment-bootstrap" with
          | .error e => return some (.wrapped ("bootstrap " ++ provider ++ " credential") e)
          | .ok _ => ensureEach fallback rest

def ensureFallbacks (fallback : Fallback) : Program (Option Err) :=
  ensureEach lib fallback credentialProviderPriority

/-- One credential in the loop of `List`. -/
def recordLive (now : Time) (byProvider : List (String × Credential)) (item : Credential) :
    List (String × Credential) :=
  if (byProvider.lookup item.provider).isNone ∧ item.live now then byProvider ++ [(item.provider, item)]
  else byProvider

/-- The status of one provider. -/
def Fallback.status (fallback : Fallback) (byProvider : List (String × Credential)) (provider : String) :
    CredentialStatus :=
  match byProvider.lookup provider with
  | some item => statusFromCredential item
  | none =>
    let key := fallback.key provider
    if key ≠ "" then ⟨provider, true, "environment", maskHint key, "active", none, none⟩
    else ⟨provider, false, "none", [], "missing", none, none⟩

def list (fallback : Fallback) : Program (Except Err (List CredentialStatus)) := do
  match ← Prog.call Cmd.listCredentials with
  | .error e => return .error e
  | .ok stored =>
    let now ← Prog.call Cmd.now
    return .ok (credentialProviderPriority.map (fallback.status (stored.foldl (recordLive now) [])))

/-- The key of a provider and where it comes from. -/
structure Resolved where
  secret : String
  source : String
  deriving DecidableEq

/-- The key of a provider without a credential. -/
def Fallback.resolved (fallback : Fallback) (provider : String) : Resolved :=
  if fallback.key provider ≠ "" then ⟨fallback.key provider, "environment"⟩ else ⟨"", "none"⟩

def resolve (fallback : Fallback) (provider : String) : Program (Except Err Resolved) := do
  let provider := normal lib provider
  if provider ∉ credentialProviderPriority then return .error (.message "unsupported credential provider")
  else
    let now ← Prog.call Cmd.now
    match ← Prog.call (Cmd.getActiveCredential provider now) with
    | .ok credential =>
      match decrypt lib credential.ciphertext with
      | .error e => return .error (.wrapped ("decrypt " ++ provider ++ " credential") e)
      | .ok secret => return .ok ⟨secret, "database"⟩
    | .error e => return if e.isNotFound then .ok (fallback.resolved provider) else .error e

/-- The loop of `Runtime`. -/
def runtimeEach (fallback : Fallback) :
    List String → List (String × String) → Program (Except Err (List (String × String)))
  | [], result => pure (.ok result)
  | provider :: rest, result => do
    match ← resolve lib fallback provider with
    | .error e => return .error e
    | .ok resolved =>
      runtimeEach fallback rest (if resolved.secret ≠ "" then result ++ [(provider, resolved.secret)] else result)

def runtime (fallback : Fallback) : Program (Except Err (List (String × String))) :=
  runtimeEach lib fallback credentialProviderPriority []

end Programs

/-! ## Requests -/

inductive Op where
  | save (input : CredentialInput) (actor : String)
  | ensureFallbacks (fallback : Fallback)
  | list (fallback : Fallback)
  | resolve (fallback : Fallback) (provider : String)
  | runtime (fallback : Fallback)

/-- What a request answers. -/
inductive Reply where
  | saved (status : Except Err CredentialStatus)
  | ensured (error : Option Err)
  | listed (statuses : Except Err (List CredentialStatus))
  | resolved (answer : Except Err Resolved)
  | runtime (keys : Except Err (List (String × String)))

def Op.prog (lib : Library) : Op → Program Reply
  | .save input actor => do return .saved (← Vault.save lib input actor)
  | .ensureFallbacks fallback => do return .ensured (← Vault.ensureFallbacks lib fallback)
  | .list fallback => do return .listed (← Vault.list fallback)
  | .resolve fallback provider => do return .resolved (← Vault.resolve lib fallback provider)
  | .runtime fallback => do return .runtime (← Vault.runtime lib fallback)

/-! ## Effects -/

structure World where
  clock : Time
  credentials : Collection Credential Credential.id Credential.id

/-- How a request to the store or to the random generator goes wrong, random bytes, and the order of
equally ranked documents. -/
structure Oracle where
  fault : Fault := .none
  nonce : Nonce := ⟨List.replicate nonceSize 0, List.length_replicate⟩
  pick : ℕ := 0
  rank : String → ℕ := fun _ => 0

/-- The order of `ListCredentials`. -/
def listLe (rank : String → ℕ) (a b : Credential) : Bool :=
  a.provider < b.provider ∨ a.provider = b.provider ∧
    (b.updatedAt < a.updatedAt ∨ a.updatedAt = b.updatedAt ∧ rank a.id ≤ rank b.id)

/-- The order of `GetActiveCredential`. -/
def newerLe (a b : Credential) : Bool := b.updatedAt ≤ a.updatedAt

/-- What `UpsertCredential` stores where `old` was. -/
def Credential.stored (c : Credential) (old : Option Credential) : Credential :=
  { c with
    expiresAt := c.expiresAt.map milli
    updatedAt := milli c.updatedAt
    createdBy := (old.map Credential.createdBy).getD c.createdBy
    createdAt := (old.map Credential.createdAt).getD (milli c.createdAt) }

/-- The update of `DeactivateProviderCredentials`. -/
def Credential.supersede (provider exceptID : String) (now : Time) (c : Credential) : Credential :=
  if c.provider = provider ∧ c.status = "active" ∧ c.id ≠ exceptID then
    { c with status := "superseded", updatedAt := milli now }
  else c

@[simp] theorem Credential.supersede_id {provider exceptID : String} {now : Time} {c : Credential} :
    (c.supersede provider exceptID now).id = c.id := by
  unfold supersede
  split <;> rfl

/-- Answer `r`, with the world that a request leaves. -/
def reply {α : Type} (fault : Fault) (r : Except Err α) (w w' : World) : Option (Except Err α × World) :=
  match fault with
  | .none => some (r, w')
  | .lost m => some (.error (.unavailable m), w)
  | .unacked m => some (.error (.unavailable m), w')

/-- The credentials that `GetActiveCredential` chooses from. -/
def World.candidates (w : World) (provider : String) (now : Time) : List Credential :=
  w.credentials.docs.filter fun c => c.provider = provider ∧ c.live (milli now)

def Cmd.exec : (cmd : Cmd) → Oracle → World → Option (Resp cmd × World)
  | .now, _, w => some (w.clock, w)
  | .nonce, o, w => reply o.fault (.ok o.nonce) w w
  | .listCredentials, o, w => reply o.fault (.ok (w.credentials.docs.mergeSort (listLe o.rank))) w w
  | .getActiveCredential provider time, o, w =>
    reply o.fault (found (findOneSorted newerLe o.pick (w.candidates provider time))) w w
  | .upsertCredential c, o, w =>
    match w.credentials.replaceOne (c.stored (w.credentials.get c.id)) with
    | some credentials => reply o.fault (.ok ()) w { w with credentials }
    | none => reply o.fault (.error .duplicateKey) w w
  | .deactivateProviderCredentials provider exceptID, o, w =>
    reply o.fault (.ok ()) w { w with
      credentials := w.credentials.updateAll (Credential.supersede provider exceptID w.clock)
        (fun _ => Credential.supersede_id) fun _ => Credential.supersede_id }

/-- Any number of requests on one vault; outside them, time passes. -/
def service (lib : Library) : System Op Cmd Resp Reply World Oracle ℕ where
  prog := Op.prog lib
  exec := Cmd.exec
  env passed w := { w with clock := w.clock + passed }

abbrev State := Pool Op Cmd Resp Reply World

abbrev Step := Label Op Oracle ℕ

end Vault

end Stylme
