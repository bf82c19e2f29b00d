-- SUMMARY: In every run a saved key replaces the older ones, the list of providers agrees with what is resolved, and keys of the environment move into the vault unchanged.
import Stylme.Lib.Trimming
import Stylme.Service.Credentials

/-!
# Rotated keys

`Save` always writes under the identifier of the provider, and nothing supersedes a credential there. So
once a request has superseded the others, the last credential written is the only active one, however the
requests interleave. Every credential holds the key of its provider and its hint, which is why the list
can show hints without decrypting anything.
-/

namespace Stylme

open Conc

namespace Vault

variable {lib : Library} {fallback : Fallback} {w w' w'' : World} {o : Oracle} {p : String}

/-! ## Texts -/

theorem trimSpace_trimSpace (s : String) : trimSpace (trimSpace s) = trimSpace s := by
  have htoList : ∀ t, (trimSpace t).toList = trim isSpace t.toList := fun t => by
    simp only [trimSpace, trim, List.rdropWhile, String.toList_ofList]
  apply String.toList_injective
  rw [htoList, htoList, trim_of_tight (tight_trim _ _)]

theorem trimSpace_of_mem (hp : p ∈ credentialProviderPriority) : trimSpace p = p := by
  simp only [credentialProviderPriority, List.mem_cons, List.not_mem_nil, or_false] at hp
  rcases hp with rfl | rfl | rfl <;> decide

theorem isLower_of_mem (hp : p ∈ credentialProviderPriority) : p.toList.all Char.isLower := by
  simp only [credentialProviderPriority, List.mem_cons, List.not_mem_nil, or_false] at hp
  rcases hp with rfl | rfl | rfl <;> decide

/-- The names of the providers are as `Save` normalises them. -/
theorem normal_of_mem (hp : p ∈ credentialProviderPriority) : normal lib p = p := by
  have hmap : p.toList.map lib.lower = p.toList :=
    (List.map_congr_left fun c hc =>
      lib.lower_of_isLower c (List.all_eq_true.1 (isLower_of_mem hp) c hc)).trans (List.map_id _)
  rw [normal, trimSpace_of_mem hp, toLower, hmap, String.ofList_toList]

theorem providerCredentialID_inj {q : String} (hp : p ∈ credentialProviderPriority)
    (hq : q ∈ credentialProviderPriority) (h : providerCredentialID lib p = providerCredentialID lib q) : p = q := by
  rw [providerCredentialID, providerCredentialID, normal_of_mem hp, normal_of_mem hq] at h
  exact (String.append_right_inj _).1 h

theorem decrypt_sealed (nonce : Nonce) (value : String) :
    decrypt lib (lib.encodeToString (nonce.bytes ++ lib.sealed nonce.bytes value)) = .ok value := by
  have hlength : ¬ (nonce.bytes ++ lib.sealed nonce.bytes value).length < nonceSize := by
    rw [List.length_append, nonce.length_eq]
    omega
  rw [decrypt, lib.decode_encode]
  dsimp only
  rw [if_neg hlength, List.take_left' nonce.length_eq, List.drop_left' nonce.length_eq, lib.opened_sealed]

/-! ## One command -/

theorem reply_some {α : Type} {fault : Fault} {r r' : Except Err α} (h : reply fault r w w' = some (r', w'')) :
    (w'' = w ∧ ∃ m, r' = .error (.unavailable m)) ∨ (w'' = w' ∧ (r' = r ∨ ∃ m, r' = .error (.unavailable m))) := by
  cases fault with
  | none =>
    obtain ⟨rfl, rfl⟩ := Prod.mk.inj (Option.some.inj h)
    exact .inr ⟨rfl, .inl rfl⟩
  | lost m =>
    obtain ⟨rfl, rfl⟩ := Prod.mk.inj (Option.some.inj h)
    exact .inl ⟨rfl, m, rfl⟩
  | unacked m =>
    obtain ⟨rfl, rfl⟩ := Prod.mk.inj (Option.some.inj h)
    exact .inr ⟨rfl, .inr ⟨m, rfl⟩⟩

/-- The credential is stored in place of the one with its identifier. -/
structure Upserts (c : Credential) (w w' : World) : Prop where
  clock : w'.clock = w.clock
  mem : ∀ d, d ∈ w'.credentials ↔ d = c.stored (w.credentials.get c.id) ∨ d ∈ w.credentials ∧ d.id ≠ c.id

/-- The other active credentials of the provider are superseded. -/
structure Deactivates (provider exceptID : String) (w w' : World) : Prop where
  clock : w'.clock = w.clock
  mem : ∀ d, d ∈ w'.credentials ↔ ∃ c ∈ w.credentials, c.supersede provider exceptID w.clock = d

theorem exec_upsertCredential {c : Credential} {r : Except Err Unit}
    (h : Cmd.exec (.upsertCredential c) o w = some (r, w')) : (w' = w ∧ r ≠ .ok ()) ∨ Upserts c w w' := by
  obtain ⟨credentials, hreplace⟩ :=
    Collection.replaceOne_of_id (t := w.credentials) (d := c.stored (w.credentials.get c.id))
  simp only [Cmd.exec, hreplace] at h
  rcases reply_some h with ⟨rfl, m, rfl⟩ | ⟨rfl, -⟩
  · exact .inl ⟨rfl, by simp⟩
  · exact .inr ⟨rfl, fun d => Collection.mem_replaceOne hreplace⟩

theorem exec_deactivate {provider exceptID : String} {r : Except Err Unit}
    (h : Cmd.exec (.deactivateProviderCredentials provider exceptID) o w = some (r, w')) :
    (w' = w ∧ r ≠ .ok ()) ∨ Deactivates provider exceptID w w' := by
  simp only [Cmd.exec] at h
  rcases reply_some h with ⟨rfl, m, rfl⟩ | ⟨rfl, -⟩
  · exact .inl ⟨rfl, by simp⟩
  · exact .inr ⟨rfl, fun d => by simp only [Collection.mem_updateAll]⟩

/-- What a command does to the vault. -/
theorem exec_effect {cmd : Cmd} {r : Resp cmd} (h : cmd.exec o w = some (r, w')) :
    w' = w ∨ (∃ c, cmd = .upsertCredential c ∧ Upserts c w w') ∨
      ∃ provider exceptID, cmd = .deactivateProviderCredentials provider exceptID ∧
        Deactivates provider exceptID w w' := by
  cases cmd with
  | now => exact .inl (Prod.mk.inj (Option.some.inj h)).2.symm
  | nonce | listCredentials | getActiveCredential =>
    rcases reply_some h with ⟨hw, -⟩ | ⟨hw, -⟩ <;> exact .inl hw
  | upsertCredential c =>
    rcases exec_upsertCredential h with ⟨hw, -⟩ | hupsert
    · exact .inl hw
    · exact .inr (.inl ⟨c, rfl, hupsert⟩)
  | deactivateProviderCredentials provider exceptID =>
    rcases exec_deactivate h with ⟨hw, -⟩ | hdeactivate
    · exact .inl hw
    · exact .inr (.inr ⟨provider, exceptID, rfl, hdeactivate⟩)

theorem Credential.supersede_cases (provider exceptID : String) (now : Time) (c : Credential) :
    c.supersede provider exceptID now = c ∨
      (c.provider = provider ∧ c.id ≠ exceptID ∧
        c.supersede provider exceptID now = { c with status := "superseded", updatedAt := milli now }) := by
  unfold supersede
  split
  · rename_i h
    exact .inr ⟨h.1, h.2.2, rfl⟩
  · exact .inl rfl

/-- A credential that is active afterwards was not superseded. -/
theorem Credential.eq_of_supersede_active {provider exceptID : String} {now : Time} {c : Credential}
    (h : (c.supersede provider exceptID now).status = "active") :
    c.supersede provider exceptID now = c ∧ (c.provider = provider → c.id = exceptID) := by
  unfold supersede at h ⊢
  by_cases hcond : c.provider = provider ∧ c.status = "active" ∧ c.id ≠ exceptID
  · rw [if_pos hcond] at h
    have hne : "superseded" ≠ "active" := by decide
    exact absurd h hne
  · rw [if_neg hcond] at h ⊢
    exact ⟨rfl, fun hprovider => by_contra fun hid => hcond ⟨hprovider, h, hid⟩⟩

/-! ## What is stored -/

/-- The credential holds this key of its provider. -/
structure Credential.Holds (lib : Library) (c : Credential) (key : String) : Prop where
  provider : c.provider ∈ credentialProviderPriority
  id : c.id = providerCredentialID lib c.provider
  ciphertext : decrypt lib c.ciphertext = .ok key
  keyHint : c.keyHint = maskHint key
  length : 8 ≤ (utf8 key).length

theorem Credential.Holds.ne_empty {c : Credential} {key : String} (h : c.Holds lib key) : key ≠ "" := by
  rintro rfl
  exact absurd h.length (by decide)

/-- Every credential is as `Save` writes it and the store keeps it. -/
def World.Vaulted (lib : Library) (w : World) : Prop :=
  ∀ c ∈ w.credentials, (∃ key, c.Holds lib key) ∧ ∀ t ∈ c.expiresAt, milli t = t

theorem milli_milli (t : Time) : milli (milli t) = milli t := by
  unfold milli
  rw [Int.mul_ediv_cancel _ (by decide)]

/-- For times that the store keeps it is the same to compare with a time or with its milliseconds. -/
theorem milli_lt_iff {s t : Time} (ht : milli t = t) : milli s < t ↔ s < t := by
  unfold milli at ht ⊢
  unfold Time at *
  omega

theorem Upserts.vaulted {c : Credential} {key : String} (h : Upserts c w w') (hc : c.Holds lib key)
    (hw : w.Vaulted lib) : w'.Vaulted lib := by
  intro d hd
  rcases (h.mem d).1 hd with rfl | ⟨hold, -⟩
  · refine ⟨⟨key, hc.provider, hc.id, hc.ciphertext, hc.keyHint, hc.length⟩, fun t ht => ?_⟩
    obtain ⟨s, -, rfl⟩ := Option.map_eq_some_iff.1 ht
    exact milli_milli s
  · exact hw d hold

theorem Deactivates.vaulted {provider exceptID : String} (h : Deactivates provider exceptID w w')
    (hw : w.Vaulted lib) : w'.Vaulted lib := by
  intro d hd
  obtain ⟨c, hc, rfl⟩ := (h.mem d).1 hd
  rcases c.supersede_cases provider exceptID w.clock with heq | ⟨-, -, heq⟩
  · rw [heq]
    exact hw c hc
  · rw [heq]
    obtain ⟨⟨key, hkey⟩, hexpires⟩ := hw c hc
    exact ⟨⟨key, hkey.provider, hkey.id, hkey.ciphertext, hkey.keyHint, hkey.length⟩, hexpires⟩

/-! ## What can be resolved -/

theorem mem_candidates {c : Credential} {now : Time} :
    c ∈ w.candidates p now ↔ c ∈ w.credentials ∧ c.provider = p ∧ c.live (milli now) := by
  simp only [World.candidates, List.mem_filter, decide_eq_true_eq]
  exact Iff.rfl

/-- The candidates of a request now. -/
abbrev World.serving (w : World) (p : String) : List Credential := w.candidates p w.clock

theorem newerLe_total (a b : Credential) : newerLe a b ∨ newerLe b a := by
  simp only [newerLe, decide_eq_true_eq]
  exact Int.le_total b.updatedAt a.updatedAt

theorem newerLe_trans (a b c : Credential) (hab : newerLe a b) (hbc : newerLe b c) : newerLe a c := by
  simp only [newerLe, decide_eq_true_eq] at *
  exact Int.le_trans hbc hab

/-- The answer to a request for a key, by the credential that is found. -/
def answerFrom (lib : Library) (fallback : Fallback) (p : String) : Option Credential → Except Err Resolved
  | some c =>
    match decrypt lib c.ciphertext with
    | .error e => .error (.wrapped ("decrypt " ++ p ++ " credential") e)
    | .ok secret => .ok ⟨secret, "database"⟩
  | none => .ok (fallback.resolved p)

/-- The answer of `Resolve`, by that of the store. -/
def answerTo (lib : Library) (fallback : Fallback) (p : String) : Except Err Credential → Except Err Resolved
  | .ok c => answerFrom lib fallback p (some c)
  | .error e => if e.isNotFound then answerFrom lib fallback p none else .error e

theorem resolve_eq {provider : String} (hnormal : normal lib provider = p) (hp : p ∈ credentialProviderPriority) :
    resolve lib fallback provider = (do
      let now ← Prog.call Cmd.now
      let r ← Prog.call (Cmd.getActiveCredential p now)
      pure (answerTo lib fallback p r)) := by
  unfold resolve
  rw [hnormal]
  dsimp only
  rw [if_neg (not_not.2 hp)]
  refine congrArg _ (funext fun now => congrArg _ (funext fun r => ?_))
  cases r with
  | error e => rfl
  | ok c =>
    dsimp only [answerTo, answerFrom]
    cases decrypt lib c.ciphertext <;> rfl

/-- Every end of `Resolve` for a supported provider. -/
theorem ends_resolve {provider : String} {answer : Except Err Resolved} (hnormal : normal lib provider = p)
    (hp : p ∈ credentialProviderPriority) :
    (resolve lib fallback provider).Ends Cmd.exec w answer w' ↔
      w' = w ∧ ((∃ m, answer = .error (.unavailable m)) ∨
        ∃ pick, answer = answerFrom lib fallback p (findOneSorted newerLe pick (w.serving p))) := by
  have hfound : ∀ pick, answerTo lib fallback p (found (findOneSorted newerLe pick (w.serving p))) =
      answerFrom lib fallback p (findOneSorted newerLe pick (w.serving p)) := by
    intro pick
    cases findOneSorted newerLe pick (w.serving p) <;> rfl
  rw [resolve_eq hnormal hp]
  constructor
  · intro h
    obtain ⟨o', now, w₁, hnow, h⟩ := Prog.ends_op.1 h
    obtain ⟨rfl, rfl⟩ : w.clock = now ∧ w = w₁ := Prod.mk.inj (Option.some.inj hnow)
    obtain ⟨o, r, w₂, hget, h⟩ := Prog.ends_op.1 h
    obtain ⟨rfl, rfl⟩ := Prog.ends_pure.1 h
    rcases reply_some hget with ⟨rfl, m, rfl⟩ | ⟨rfl, rfl | ⟨m, rfl⟩⟩
    · exact ⟨rfl, .inl ⟨m, rfl⟩⟩
    · exact ⟨rfl, .inr ⟨o.pick, hfound o.pick⟩⟩
    · exact ⟨rfl, .inl ⟨m, rfl⟩⟩
  · rintro ⟨rfl, ⟨m, rfl⟩ | ⟨pick, rfl⟩⟩
    · refine Prog.Ends.call {} rfl (Prog.Ends.call { fault := .lost m } rfl ?_)
      exact Prog.ends_pure.2 ⟨rfl, rfl⟩
    · refine Prog.Ends.call {} rfl (Prog.Ends.call { pick } rfl ?_)
      exact Prog.ends_pure.2 ⟨hfound pick, rfl⟩

/-- Every credential can be chosen that no candidate is newer than. -/
theorem exists_findOneSorted {α : Type} {le : α → α → Bool} {l : List α} {a : α} (ha : a ∈ l)
    (hle : ∀ b ∈ l, le a b) : ∃ pick, findOneSorted le pick l = some a := by
  have hbest : a ∈ l.filter fun a => l.all (le a) := List.mem_filter.2 ⟨ha, List.all_eq_true.2 hle⟩
  obtain ⟨i, hi, hget⟩ := List.getElem_of_mem hbest
  exact ⟨i, by rw [findOneSorted, Nat.mod_eq_of_lt hi, List.getElem?_eq_getElem hi, hget]⟩

/-- If there is one candidate, `Resolve` finds it. -/
theorem findOneSorted_of_forall {c : Credential} {l : List Credential} {pick : ℕ} (hc : c ∈ l)
    (hall : ∀ d ∈ l, d = c) : findOneSorted newerLe pick l = some c := by
  cases h : findOneSorted newerLe pick l with
  | none =>
    rw [eq_nil_of_findOneSorted newerLe_total newerLe_trans h] at hc
    cases hc
  | some d => rw [hall d (mem_of_findOneSorted h)]

theorem findOneSorted_nil {pick : ℕ} : findOneSorted newerLe pick ([] : List Credential) = none := rfl

/-! ## Requests that save -/

/-- The key that a request saves for a provider, and when it expires. -/
def Op.saves (lib : Library) (p : String) : Op → Option (String × Option Time)
  | .save input _ => if normal lib input.provider = p then some (trimSpace input.apiKey, input.expiresAt) else none
  | .ensureFallbacks fallback => some (fallback.key p, none)
  | _ => none

/-- What a request has done to the vault. -/
structure Phase where
  /-- The credential that it has stored -/
  upserted : Option Credential := none
  /-- It has superseded the others since. -/
  deactivated : Bool := false

def Op.isSave : Op → Bool
  | .save _ _ => true
  | _ => false

/-- The commands of a request in a phase. -/
def Permits (lib : Library) (op : Op) (l : Phase) : Cmd → Prop
  | .upsertCredential c => (op.isSave → l.upserted = none) ∧ c.status = "active" ∧
      ∃ key, op.saves lib c.provider = some (key, c.expiresAt) ∧ c.Holds lib key
  | .deactivateProviderCredentials provider exceptID =>
    provider ∈ credentialProviderPriority ∧ exceptID = providerCredentialID lib provider ∧
      (op.isSave → ∀ c ∈ l.upserted, c.provider = provider)
  | _ => True

def next (l : Phase) : (cmd : Cmd) → Resp cmd → Phase
  | .upsertCredential c, .ok () => ⟨some c, false⟩
  | .deactivateProviderCredentials _ _, .ok () => { l with deactivated := true }
  | _, _ => l

def protocol (lib : Library) (op : Op) : Protocol Cmd Resp Phase := ⟨Permits lib op, next⟩

/-- How a request ends: one that answers with a status has stored a credential and superseded the others. -/
def Returns (_op : Op) (l : Phase) : Reply → Prop
  | .saved (.ok status) => ∃ c, l = ⟨some c, true⟩ ∧ status = statusFromCredential c
  | _ => True

section Conforms

variable {op : Op} {l : Phase} {α : Type}

theorem CredentialInput.credential_holds {input : CredentialInput} {actor ciphertext : String} {now : Time}
    (hprovider : normal lib input.provider ∈ credentialProviderPriority)
    (hlength : 8 ≤ (utf8 (trimSpace input.apiKey)).length)
    (hcipher : decrypt lib ciphertext = .ok (trimSpace input.apiKey)) :
    (input.credential lib actor ciphertext now).Holds lib (trimSpace input.apiKey) := by
  unfold credential
  exact ⟨hprovider, by dsimp only, hcipher, by dsimp only, hlength⟩

/-- `Save` stores at most one credential, and answers with its status. -/
theorem conforms_save {input : CredentialInput} {actor : String} (hl : op.isSave → l = {})
    (hsaves : normal lib input.provider ∈ credentialProviderPriority →
      op.saves lib (normal lib input.provider) = some (trimSpace input.apiKey, input.expiresAt)) :
    Prog.Conforms (protocol lib op)
      (fun l' r => ∀ status, r = .ok status → ∃ c, l' = ⟨some c, true⟩ ∧ status = statusFromCredential c) l
      (save lib input actor) := by
  unfold save
  dsimp only
  split
  · exact Prog.conforms_pure.2 fun status h => by cases h
  rename_i hprovider
  rw [not_not] at hprovider
  split
  · exact Prog.conforms_pure.2 fun status h => by cases h
  rename_i hlength
  rw [not_or, Nat.not_lt] at hlength
  refine Prog.Conforms.bind (Q := fun l' _ => l' = l) ?_ ?_
  · cases input.expiresAt with
    | none => exact Prog.conforms_pure.2 rfl
    | some t => exact Prog.Conforms.call trivial fun now => Prog.conforms_pure.2 rfl
  rintro l' refused rfl
  split
  · exact Prog.conforms_pure.2 fun status h => by cases h
  refine Prog.Conforms.bind (Q := fun l₁ r => l₁ = l' ∧
    ∀ ciphertext, r = .ok ciphertext → decrypt lib ciphertext = .ok (trimSpace input.apiKey)) ?_ ?_
  · refine Prog.Conforms.call trivial fun r => ?_
    cases r with
    | error e => exact Prog.conforms_pure.2 ⟨rfl, fun ciphertext h => by cases h⟩
    | ok nonce => exact Prog.conforms_pure.2 ⟨rfl, fun ciphertext h => Except.ok.inj h ▸ decrypt_sealed nonce _⟩
  rintro l₁ r ⟨rfl, hcipher⟩
  cases r with
  | error e => exact Prog.conforms_pure.2 fun status h => by cases h
  | ok ciphertext =>
    refine Prog.Conforms.call trivial fun now => ?_
    have hholds : (input.credential lib actor ciphertext now).Holds lib (trimSpace input.apiKey) :=
      CredentialInput.credential_holds hprovider hlength.1 (hcipher ciphertext rfl)
    refine Prog.Conforms.call ⟨fun h => by rw [hl h]; rfl, rfl, _, hsaves hprovider, hholds⟩ fun r => ?_
    cases r with
    | error e => exact Prog.conforms_pure.2 fun status h => by cases h
    | ok u =>
      refine Prog.Conforms.call ⟨hprovider, hholds.id, fun _ c hc => ?_⟩ fun r => ?_
      · exact Option.some.inj hc ▸ rfl
      cases r with
      | error e => exact Prog.conforms_pure.2 fun status h => by cases h
      | ok u => exact Prog.conforms_pure.2 fun status h => ⟨_, rfl, (Except.ok.inj h).symm⟩

theorem Fallback.trimSpace_key (fallback : Fallback) (p : String) : trimSpace (fallback.key p) = fallback.key p :=
  trimSpace_trimSpace _

theorem conforms_ensureEach {fallback : Fallback} (hop : op = .ensureFallbacks fallback) :
    ∀ {providers : List String}, (∀ p ∈ providers, p ∈ credentialProviderPriority) → ∀ l,
      Prog.Conforms (protocol lib op) (fun _ _ => True) l (ensureEach lib fallback providers)
  | [], _, _ => Prog.conforms_pure.2 trivial
  | provider :: rest, hall, l => by
    have hrest : ∀ l, Prog.Conforms (protocol lib op) (fun _ _ => True) l (ensureEach lib fallback rest) :=
      conforms_ensureEach hop fun p hp => hall p (.tail _ hp)
    unfold ensureEach
    split
    · exact hrest l
    refine Prog.Conforms.call trivial fun now => Prog.Conforms.call trivial fun r => ?_
    cases r with
    | ok c => exact hrest _
    | error e =>
      dsimp only
      split
      · exact Prog.conforms_pure.2 trivial
      have hp : provider ∈ credentialProviderPriority := hall provider (.head _)
      have hsaves : op.saves lib (normal lib (fallback.input provider).provider) =
          some (trimSpace (fallback.input provider).apiKey, (fallback.input provider).expiresAt) := by
        rw [hop, Fallback.input, normal_of_mem hp]
        exact congrArg (fun key => some (key, none)) (fallback.trimSpace_key provider).symm
      refine Prog.Conforms.bind (conforms_save (by rw [hop]; exact fun h => by cases h) fun _ => hsaves) fun l' r _ => ?_
      cases r with
      | error e => exact Prog.conforms_pure.2 trivial
      | ok status => exact hrest _

theorem conforms_resolve {provider : String} :
    Prog.Conforms (protocol lib op) (fun _ _ => True) l (resolve lib fallback provider) := by
  unfold resolve
  dsimp only
  split
  · exact Prog.conforms_pure.2 trivial
  refine Prog.Conforms.call trivial fun now => Prog.Conforms.call trivial fun r => ?_
  cases r with
  | error e => exact Prog.conforms_pure.2 trivial
  | ok c =>
    dsimp only
    split <;> exact Prog.conforms_pure.2 trivial

theorem conforms_runtimeEach : ∀ {providers : List String} {result : List (String × String)} {l : Phase},
    Prog.Conforms (protocol lib op) (fun _ _ => True) l (runtimeEach lib fallback providers result)
  | [], _, _ => Prog.conforms_pure.2 trivial
  | provider :: rest, _, _ => by
    refine Prog.Conforms.bind conforms_resolve fun l' r _ => ?_
    cases r with
    | error e => exact Prog.conforms_pure.2 trivial
    | ok resolved => exact conforms_runtimeEach

theorem conforms_list : Prog.Conforms (protocol lib op) (fun _ _ => True) l (list fallback) := by
  refine Prog.Conforms.call trivial fun r => ?_
  cases r with
  | error e => exact Prog.conforms_pure.2 trivial
  | ok stored => exact Prog.Conforms.call trivial fun now => Prog.conforms_pure.2 trivial

/-- Every request keeps to its protocol. -/
theorem Op.conforms (op : Op) : Prog.Conforms (protocol lib op) (Returns op) {} (op.prog lib) := by
  cases op with
  | save input actor =>
    have hsaves : (Op.save input actor).saves lib (normal lib input.provider) =
        some (trimSpace input.apiKey, input.expiresAt) := by
      dsimp only [saves]
      rw [if_pos rfl]
    refine Prog.Conforms.bind (conforms_save (fun _ => rfl) fun _ => hsaves) fun l r hr => ?_
    cases r with
    | error e => exact Prog.conforms_pure.2 trivial
    | ok status => exact Prog.conforms_pure.2 (hr status rfl)
  | ensureFallbacks fallback =>
    exact Prog.Conforms.bind (conforms_ensureEach rfl (fun _ hp => hp) _) fun _ _ _ => Prog.conforms_pure.2 trivial
  | list fallback => exact Prog.Conforms.bind conforms_list fun _ _ _ => Prog.conforms_pure.2 trivial
  | resolve fallback provider =>
    exact Prog.Conforms.bind conforms_resolve fun _ _ _ => Prog.conforms_pure.2 trivial
  | runtime fallback => exact Prog.Conforms.bind conforms_runtimeEach fun _ _ _ => Prog.conforms_pure.2 trivial

end Conforms

/-! ## The key that was saved last -/

/-- The entry stores a credential of the provider. -/
def Stores (p : String) (e : Entry Cmd Resp World) : Prop := ∃ c, e.cmd = .upsertCredential c ∧ c.provider = p

/-- The entry `e` stores the credential `c` of the provider, no earlier than thread `t` has stored one, and
`c` is in the vault. -/
structure Current (lib : Library) (p : String) (t : ℕ) (log : List (Entry Cmd Resp World)) (w : World)
    (e : Entry Cmd Resp World) (c : Credential) : Prop where
  cmd : e.cmd = .upsertCredential c
  provider : c.provider = p
  since : ∃ later earlier, log = later ++ e :: earlier ∧ ∃ f ∈ e :: earlier, f.tid = t ∧ Stores p f
  stored : ∃ d ∈ w.credentials, d.id = providerCredentialID lib p ∧ d.provider = p ∧ d.status = "active" ∧
    d.ciphertext = c.ciphertext ∧ d.expiresAt = c.expiresAt.map milli

/-- The only active credential of the provider is the one with the identifier that `Save` gives it. -/
def World.Settled (lib : Library) (p : String) (w : World) : Prop :=
  ∀ d ∈ w.credentials, d.provider = p → d.status = "active" → d.id = providerCredentialID lib p

theorem Upserts.current {t : ℕ} {log : List (Entry Cmd Resp World)} {e : Entry Cmd Resp World} {c : Credential}
    {key : String} (h : Upserts c w w') (hc : c.Holds lib key) (hactive : c.status = "active")
    (he : e.cmd = .upsertCredential c) (hf : ∃ f ∈ e :: log, f.tid = t ∧ Stores c.provider f) :
    Current lib c.provider t (e :: log) w' e c where
  cmd := he
  provider := rfl
  since := ⟨[], log, rfl, hf⟩
  stored := ⟨_, (h.mem _).2 (.inl rfl), hc.id, rfl, hactive, rfl, rfl⟩

/-- A thread with a current credential has stored one. -/
theorem Current.exists_stores {t : ℕ} {log : List (Entry Cmd Resp World)} {e : Entry Cmd Resp World}
    {c : Credential} (h : Current lib p t log w e c) : ∃ f ∈ log, f.tid = t ∧ Stores p f := by
  obtain ⟨later, earlier, rfl, f, hf, hrest⟩ := h.since
  exact ⟨f, List.mem_append_right _ hf, hrest⟩

/-- The credential is current as long as it stays in the vault. -/
theorem Current.of_stored {t : ℕ} {log : List (Entry Cmd Resp World)} {e f : Entry Cmd Resp World} {c : Credential}
    (h : Current lib p t log w e c)
    (hkept : ∀ d ∈ w.credentials, d.id = providerCredentialID lib p → d.provider = p → d ∈ w'.credentials) :
    Current lib p t (f :: log) w' e c where
  cmd := h.cmd
  provider := h.provider
  since := by
    obtain ⟨later, earlier, rfl, hf⟩ := h.since
    exact ⟨f :: later, earlier, rfl, hf⟩
  stored := by
    obtain ⟨d, hd, hid, hprovider, hrest⟩ := h.stored
    exact ⟨d, hkept d hd hid hprovider, hid, hprovider, hrest⟩

/-- Where the credential of another provider is stored, this one stays. -/
theorem Upserts.kept {c d : Credential} {key : String} (h : Upserts c w w') (hc : c.Holds lib key)
    (hp : p ∈ credentialProviderPriority) (hne : c.provider ≠ p) (hd : d ∈ w.credentials)
    (hid : d.id = providerCredentialID lib p) : d ∈ w'.credentials :=
  (h.mem d).2 (.inr ⟨hd, fun heq =>
    hne (providerCredentialID_inj hc.provider hp (hc.id.symm.trans (heq.symm.trans hid)))⟩)

/-- A credential with the identifier of its provider is never superseded. -/
theorem Deactivates.kept {provider : String} {d : Credential}
    (h : Deactivates provider (providerCredentialID lib provider) w w') (hd : d ∈ w.credentials)
    (hid : d.id = providerCredentialID lib d.provider) : d ∈ w'.credentials := by
  refine (h.mem d).2 ⟨d, hd, ?_⟩
  rcases d.supersede_cases provider (providerCredentialID lib provider) w.clock with heq | ⟨hprovider, hne, -⟩
  · exact heq
  · exact absurd (hprovider ▸ hid) hne

theorem Upserts.settled {c : Credential} {key : String} (h : Upserts c w w') (hc : c.Holds lib key)
    (hw : w.Settled lib p) : w'.Settled lib p := by
  intro d hd hprovider hactive
  rcases (h.mem d).1 hd with rfl | ⟨hold, -⟩
  · exact hprovider ▸ hc.id
  · exact hw d hold hprovider hactive

theorem Deactivates.settled_mono {provider exceptID : String} (h : Deactivates provider exceptID w w')
    (hw : w.Settled lib p) : w'.Settled lib p := by
  intro d hd hprovider hactive
  obtain ⟨c, hc, rfl⟩ := (h.mem d).1 hd
  obtain ⟨heq, -⟩ := Credential.eq_of_supersede_active hactive
  rw [heq] at hprovider hactive ⊢
  exact hw c hc hprovider hactive

theorem Deactivates.settled (h : Deactivates p (providerCredentialID lib p) w w') : w'.Settled lib p := by
  intro d hd hprovider hactive
  obtain ⟨c, -, rfl⟩ := (h.mem d).1 hd
  obtain ⟨heq, hid⟩ := Credential.eq_of_supersede_active hactive
  rw [heq] at hprovider ⊢
  exact hid hprovider

section Exec

variable {op : Op} {l : Phase} {cmd : Cmd} {r : Resp cmd}

/-- After every command some credential is current. -/
theorem current_exec {t u : ℕ} {log : List (Entry Cmd Resp World)} {e : Entry Cmd Resp World} {c : Credential}
    (hp : p ∈ credentialProviderPriority) (hpermits : Permits lib op l cmd) (hexec : cmd.exec o w = some (r, w'))
    (h : Current lib p t log w e c) : ∃ e' c', Current lib p t (⟨u, cmd, r, w'⟩ :: log) w' e' c' := by
  rcases exec_effect hexec with rfl | ⟨c', rfl, hupsert⟩ | ⟨provider, exceptID, rfl, hdeactivate⟩
  · exact ⟨e, c, h.of_stored fun d hd _ _ => hd⟩
  · obtain ⟨-, hactive, key, -, hholds⟩ := hpermits
    by_cases heq : c'.provider = p
    · subst heq
      obtain ⟨f, hf, hstores⟩ := h.exists_stores
      exact ⟨_, c', hupsert.current hholds hactive rfl ⟨f, .tail _ hf, hstores⟩⟩
    · exact ⟨e, c, h.of_stored fun d hd hid _ => hupsert.kept hholds hp heq hd hid⟩
  · obtain ⟨-, rfl, -⟩ := hpermits
    exact ⟨e, c, h.of_stored fun d hd hid hprovider => hdeactivate.kept hd (hprovider.symm ▸ hid)⟩

theorem settled_exec (hpermits : Permits lib op l cmd) (hexec : cmd.exec o w = some (r, w'))
    (h : w.Settled lib p) : w'.Settled lib p := by
  rcases exec_effect hexec with rfl | ⟨c', rfl, hupsert⟩ | ⟨provider, exceptID, rfl, hdeactivate⟩
  · exact h
  · obtain ⟨-, -, key, -, hholds⟩ := hpermits
    exact hupsert.settled hholds h
  · exact hdeactivate.settled_mono h

theorem vaulted_exec (hpermits : Permits lib op l cmd) (hexec : cmd.exec o w = some (r, w'))
    (h : w.Vaulted lib) : w'.Vaulted lib := by
  rcases exec_effect hexec with rfl | ⟨c', rfl, hupsert⟩ | ⟨provider, exceptID, rfl, hdeactivate⟩
  · exact h
  · obtain ⟨-, -, key, -, hholds⟩ := hpermits
    exact hupsert.vaulted hholds h
  · exact hdeactivate.vaulted h

end Exec

/-- What holds of a thread that has stored a credential. -/
structure Saved (lib : Library) (log : List (Entry Cmd Resp World)) (w : World) (t : ℕ) (l : Phase)
    (c : Credential) : Prop where
  provider : c.provider ∈ credentialProviderPriority
  current : ∃ e c', Current lib c.provider t log w e c'
  settled : l.deactivated → w.Settled lib c.provider

/-- The thread that takes a step has stored a credential before or does so now. -/
theorem saved_next {t : ℕ} {op : Op} {l : Phase} {cmd : Cmd} {r : Resp cmd} {c : Credential}
    {log : List (Entry Cmd Resp World)} (hsave : op.isSave) (hpermits : Permits lib op l cmd)
    (hexec : cmd.exec o w = some (r, w')) (h : ∀ c, l.upserted = some c → Saved lib log w t l c)
    (hc : (next l cmd r).upserted = some c) : Saved lib (⟨t, cmd, r, w'⟩ :: log) w' t (next l cmd r) c := by
  by_cases hold : l.upserted = some c
  · obtain ⟨hprovider, ⟨e, c', hcurrent⟩, hsettled⟩ := h c hold
    have hown : ∀ c', cmd ≠ .upsertCredential c' := by
      rintro c' rfl
      rw [hpermits.1 hsave] at hold
      cases hold
    refine ⟨hprovider, current_exec hprovider hpermits hexec hcurrent, fun hdeactivated => ?_⟩
    by_cases hbefore : l.deactivated
    · exact settled_exec hpermits hexec (hsettled hbefore)
    cases cmd with
    | deactivateProviderCredentials provider exceptID =>
      cases r with
      | error e => exact absurd hdeactivated hbefore
      | ok u =>
        rcases exec_deactivate hexec with ⟨-, hne⟩ | hdeactivate
        · exact absurd rfl hne
        · obtain ⟨-, rfl, hthis⟩ := hpermits
          rw [hthis hsave c hold]
          exact hdeactivate.settled
    | upsertCredential c' => exact absurd rfl (hown c')
    | now | nonce | listCredentials | getActiveCredential => exact absurd hdeactivated hbefore
  · cases cmd with
    | upsertCredential c' =>
      cases r with
      | error e => exact absurd hc hold
      | ok u =>
        obtain rfl : c' = c := Option.some.inj hc
        rcases exec_upsertCredential hexec with ⟨-, hne⟩ | hupsert
        · exact absurd rfl hne
        · obtain ⟨-, hactive, key, -, hholds⟩ := hpermits
          refine ⟨hholds.provider, ⟨_, c', hupsert.current hholds hactive rfl ?_⟩,
            fun hdeactivated => by cases hdeactivated⟩
          exact ⟨_, .head _, rfl, c', rfl, rfl⟩
    | deactivateProviderCredentials provider exceptID => cases r <;> exact absurd hc hold
    | now | nonce | listCredentials | getActiveCredential => exact absurd hc hold

/-- Every credential in the log comes from a request, and what holds of the threads that save. -/
structure Logged (lib : Library) (cfg : Config Op Cmd Resp World Phase) : Prop where
  source : ∀ e ∈ cfg.log, ∀ c, e.cmd = .upsertCredential c → ∃ op l b key,
    cfg.view e.tid = some ⟨op, l, b⟩ ∧ op.saves lib c.provider = some (key, c.expiresAt) ∧ c.Holds lib key
  saved : ∀ t op l b c, cfg.view t = some ⟨op, l, b⟩ → op.isSave → l.upserted = some c →
    Saved lib cfg.log cfg.shared t l c

theorem logged_of_reach {w₀ : World} {σ : State} {ok : State → Step → Prop}
    (h : System.Reach (service lib) ok (Pool.init w₀) σ) : Logged lib (σ.config (protocol lib) fun _ => {}) := by
  refine h.invariant (fun op => op.conforms) .init ⟨fun e he => absurd he List.not_mem_nil, fun t op l b c ht => ?_⟩ ?_
  · cases ht
  rintro ρ label cfg - - ⟨hsource, hsaved⟩ hstep
  cases hstep with
  | @spawn t op ht =>
    refine ⟨fun e he c hcmd => ?_, fun u op' l b c hu hsave hc => ?_⟩
    · obtain ⟨op', l, b, key, hview, hrest⟩ := hsource e he c hcmd
      have hne : e.tid ≠ t := fun heq => by
        rw [heq, ht] at hview
        cases hview
      exact ⟨op', l, b, key, (Function.update_of_ne hne _ _).trans hview, hrest⟩
    · rcases View.of_update hu with ⟨-, -, rfl, -⟩ | ⟨-, hu⟩
      · cases hc
      · exact hsaved u op' l b c hu hsave hc
  | @exec t o op l cmd r w' hnext ht hpermits hexec =>
    refine ⟨fun e he c hcmd => ?_, fun u op' l' b c hu hsave hc => ?_⟩
    · rcases List.mem_cons.1 he with rfl | he
      · obtain rfl : cmd = .upsertCredential c := hcmd
        obtain ⟨-, -, key, hkey⟩ := hpermits
        exact ⟨op, _, true, key, Function.update_self .., hkey⟩
      · obtain ⟨op', l', b, key, hview, hrest⟩ := hsource e he c hcmd
        by_cases heq : e.tid = t
        · rw [heq, ht] at hview
          obtain ⟨rfl, -, -⟩ := View.mk.inj (Option.some.inj hview)
          exact ⟨op, _, true, key, by rw [heq]; exact Function.update_self .., hrest⟩
        · exact ⟨op', l', b, key, (Function.update_of_ne heq _ _).trans hview, hrest⟩
    · rcases View.of_update hu with ⟨rfl, rfl, rfl, -⟩ | ⟨-, hu⟩
      · exact saved_next hsave hpermits hexec (fun c hc => hsaved u op l true c ht hsave hc) hc
      · obtain ⟨hprovider, ⟨e, c', hcurrent⟩, hsettled⟩ := hsaved u op' l' b c hu hsave hc
        exact ⟨hprovider, current_exec hprovider hpermits hexec hcurrent,
          fun hdeactivated => settled_exec hpermits hexec (hsettled hdeactivated)⟩
  | @crash t op l b ht =>
    refine ⟨fun e he c hcmd => ?_, fun u op' l' b' c hu hsave hc => ?_⟩
    · obtain ⟨op', l', b', key, hview, hrest⟩ := hsource e he c hcmd
      by_cases heq : e.tid = t
      · rw [heq, ht] at hview
        obtain ⟨rfl, rfl, -⟩ := View.mk.inj (Option.some.inj hview)
        exact ⟨op, l, false, key, by rw [heq]; exact Function.update_self .., hrest⟩
      · exact ⟨op', l', b', key, (Function.update_of_ne heq _ _).trans hview, hrest⟩
    · rcases View.of_update hu with ⟨rfl, rfl, rfl, -⟩ | ⟨-, hu⟩
      · exact hsaved u op l b c ht hsave hc
      · exact hsaved u op' l' b' c hu hsave hc
  | @env passed =>
    refine ⟨hsource, fun u op l b c hu hsave hc => ?_⟩
    obtain ⟨hprovider, ⟨e, c', hcmd, hc', hsince, hstored⟩, hsettled⟩ := hsaved u op l b c hu hsave hc
    exact ⟨hprovider, ⟨e, c', hcmd, hc', hsince, hstored⟩, hsettled⟩

/-- What `Resolve` alone answers, where the key has this expiry. -/
def servedNow (fallback : Fallback) (p : String) (now : Time) (key : String) (expiresAt : Option Time) : Resolved :=
  if expiresAt.all (milli now < milli ·) then ⟨key, "database"⟩ else fallback.resolved p

/-- The request behind the entry `e` has saved this key, no earlier than thread `t` has saved one, and `Resolve`
alone answers with it until it expires. -/
structure Served (lib : Library) (σ : State) (t : ℕ) (p : String) (e : Entry Cmd Resp World) (key : String)
    (expiresAt : Option Time) : Prop where
  since : ∃ later earlier, σ.log = later ++ e :: earlier ∧ ∃ f ∈ e :: earlier, f.tid = t ∧ Stores p f
  source : ∃ th, σ.threads e.tid = some th ∧ th.op.saves lib p = some (key, expiresAt)
  answers : ∀ fallback provider answer w, normal lib provider = p →
    (resolve lib fallback provider).Ends Cmd.exec σ.shared answer w →
      (∃ m, answer = .error (.unavailable m)) ∨ answer = .ok (servedNow fallback p σ.shared.clock key expiresAt)

/-- In every run in which `Save` has answered, `Resolve` alone answers with a key that was saved since, in
milliseconds before it expires, and never again with an older one. -/
theorem resolves_saved {w₀ : World} {σ : State} {t : ℕ} {input : CredentialInput} {actor : String}
    {status : CredentialStatus} (hreach : System.Reach (service lib) (fun _ _ => True) (Pool.init w₀) σ)
    (hsaved : σ.result t = some (.save input actor, .saved (.ok status))) :
    ∃ e key expiresAt, Served lib σ t status.provider e key expiresAt := by
  have hlogged := logged_of_reach hreach
  have hconforming := hreach.conforming (fun op => op.conforms) .init
  obtain ⟨l, b, hview, c₀, rfl, rfl⟩ := hconforming.result hsaved
  obtain ⟨hp, ⟨e, c, hcurrent⟩, hsettled⟩ := hlogged.saved t _ _ b c₀ hview rfl rfl
  obtain ⟨hcmd, hprovider, ⟨later, earlier, hlog, hown⟩, d, hd, hid, hdp, hactive, hcipher, hexpires⟩ := hcurrent
  have he : e ∈ σ.log := by
    rw [show σ.log = later ++ e :: earlier from hlog]
    exact List.mem_append_right _ (.head _)
  obtain ⟨op, l, b, key, hthread, hsaves, hholds⟩ := hlogged.source e he c hcmd
  obtain ⟨th, hth, hmk⟩ := Option.map_eq_some_iff.1 hthread
  obtain ⟨rfl, -, -⟩ := View.mk.inj hmk
  rw [hprovider] at hsaves
  refine ⟨e, key, c.expiresAt, ⟨later, earlier, hlog, hown⟩, ⟨th, hth, hsaves⟩, ?_⟩
  intro fallback provider answer w hnormal hend
  obtain ⟨-, hm | ⟨pick, rfl⟩⟩ := (ends_resolve hnormal hp).1 hend
  · exact .inl hm
  refine .inr ?_
  simp only [statusFromCredential_provider]
  -- the credential under the identifier of the provider is the only one that can be found
  have hall : ∀ d' ∈ σ.shared.serving c₀.provider, d' = d := by
    intro d' hd'
    obtain ⟨hmem, hp', hlive⟩ := mem_candidates.1 hd'
    exact σ.shared.credentials.eq_of_id_eq hmem hd
      ((hsettled rfl d' hmem hp' (of_decide_eq_true hlive).1).trans hid.symm)
  have hlive : d.live (milli σ.shared.clock) ↔ c.expiresAt.all (milli σ.shared.clock < milli ·) := by
    rw [Credential.live, decide_eq_true_eq, hexpires]
    cases c.expiresAt <;> simp [hactive]
  unfold servedNow
  split
  · rename_i hnow
    have hserving : d ∈ σ.shared.serving c₀.provider := mem_candidates.2 ⟨hd, hdp, hlive.2 hnow⟩
    rw [findOneSorted_of_forall hserving hall, answerFrom, hcipher, hholds.ciphertext]
  · rename_i hnow
    have hserving : σ.shared.serving c₀.provider = [] := by
      refine List.eq_nil_iff_forall_not_mem.2 fun d' hd' => hnow (hlive.1 ?_)
      rw [← hall d' hd']
      exact (mem_candidates.1 hd').2.2
    rw [hserving]
    rfl

/-! ## The list of providers -/

theorem lookup_recordLive {now : Time} {byProvider : List (String × Credential)} {item : Credential} :
    (recordLive now byProvider item).lookup p =
      (byProvider.lookup p).or (if item.provider = p ∧ item.live now then some item else none) := by
  unfold recordLive
  by_cases heq : item.provider = p
  · subst heq
    cases hlookup : byProvider.lookup item.provider with
    | none =>
      by_cases hlive : item.live now
      · rw [if_pos ⟨rfl, hlive⟩, if_pos ⟨rfl, hlive⟩, List.lookup_append, hlookup, List.lookup_cons_self]
      · rw [if_neg fun h => hlive h.2, if_neg fun h => hlive h.2, hlookup]
        rfl
    | some c =>
      rw [if_neg fun h => (by cases h.1), hlookup]
      rfl
  · have hnot : ¬ (item.provider = p ∧ item.live now) := fun h => heq h.1
    rw [if_neg hnot, Option.or_none]
    split
    · rw [List.lookup_append, List.lookup_cons, beq_false_of_ne (Ne.symm heq), List.lookup_nil]
      exact Option.or_none
    · rfl

/-- `List` keeps the first live credential of each provider. -/
theorem lookup_foldl_recordLive {now : Time} {stored : List Credential} {byProvider : List (String × Credential)} :
    (stored.foldl (recordLive now) byProvider).lookup p =
      (byProvider.lookup p).or (stored.find? fun c => c.provider = p ∧ c.live now) := by
  induction stored generalizing byProvider with
  | nil => exact Option.or_none.symm
  | cons item rest ih =>
    rw [List.foldl_cons, ih, lookup_recordLive, Option.or_assoc, List.find?_cons]
    by_cases hitem : item.provider = p ∧ item.live now
    · rw [if_pos hitem, decide_eq_true hitem]
      rfl
    · rw [if_neg hitem, decide_eq_false hitem]
      rfl

/-- Without faults `List` answers. -/
theorem exists_ends_list : ∃ statuses, (list fallback).Ends Cmd.exec w (.ok statuses) w :=
  ⟨_, Prog.Ends.call {} rfl (Prog.Ends.call {} rfl (Prog.ends_pure.2 ⟨rfl, rfl⟩))⟩

theorem ends_list {statuses : List CredentialStatus} (h : (list fallback).Ends Cmd.exec w (.ok statuses) w') :
    ∃ rank, statuses = credentialProviderPriority.map
      (fallback.status ((w.credentials.docs.mergeSort (listLe rank)).foldl (recordLive w.clock) [])) := by
  obtain ⟨o, r, w₁, hlist, h⟩ := Prog.ends_op.1 h
  rcases reply_some hlist with ⟨rfl, m, rfl⟩ | ⟨rfl, rfl | ⟨m, rfl⟩⟩
  · cases (Prog.ends_pure.1 h).1
  · obtain ⟨o', now, w₂, hnow, h⟩ := Prog.ends_op.1 h
    obtain ⟨rfl, -⟩ : w₁.clock = now ∧ w₁ = w₂ := Prod.mk.inj (Option.some.inj hnow)
    exact ⟨o.rank, (Except.ok.inj (Prog.ends_pure.1 h).1).symm⟩
  · cases (Prog.ends_pure.1 h).1

theorem Fallback.status_provider (fallback : Fallback) {stored : List Credential} {now : Time} :
    (fallback.status (stored.foldl (recordLive now) []) p).provider = p := by
  unfold status
  rw [lookup_foldl_recordLive, List.lookup_nil, Option.none_or]
  split
  · rename_i c hfind
    have hfound := List.find?_some hfind
    exact (of_decide_eq_true hfound).1
  · dsimp only
    split <;> rfl

/-- What `List` says of a provider is what `Resolve` answers. -/
structure Agrees (status : CredentialStatus) (answer : Resolved) : Prop where
  source : status.source = answer.source
  configured : status.configured ↔ answer.secret ≠ ""
  keyHint : answer.secret ≠ "" → status.keyHint = maskHint answer.secret

theorem Fallback.agrees (fallback : Fallback) (p : String) {byProvider : List (String × Credential)}
    (h : byProvider.lookup p = none) : Agrees (fallback.status byProvider p) (fallback.resolved p) := by
  unfold status resolved
  rw [h]
  dsimp only
  split
  · rename_i hkey
    exact { source := rfl, configured := ⟨fun _ => hkey, fun _ => rfl⟩, keyHint := fun _ => by dsimp only }
  · exact { source := rfl, configured := ⟨fun h => (by cases h), fun h => absurd rfl h⟩,
            keyHint := fun h => absurd rfl h }

/-- In a vault as `Save` leaves it, the list and the keys agree. -/
theorem World.Vaulted.agrees (hw : w.Vaulted lib) {stored : List Credential}
    (hstored : ∀ c, c ∈ stored ↔ c ∈ w.credentials) {pick : ℕ} {answer : Resolved}
    (h : answerFrom lib fallback p (findOneSorted newerLe pick (w.serving p)) = .ok answer) :
    Agrees (fallback.status (stored.foldl (recordLive w.clock) []) p) answer := by
  have hlive : ∀ c ∈ w.credentials, c.live (milli w.clock) ↔ c.live w.clock := by
    intro c hc
    have hexpires := (hw c hc).2
    unfold Credential.live
    cases htime : c.expiresAt with
    | none => simp
    | some t => simp [milli_lt_iff (hexpires t htime)]
  cases hfind : stored.find? fun c => c.provider = p ∧ c.live w.clock with
  | some c =>
    have hfound := List.find?_some hfind
    obtain ⟨hprovider, hnow⟩ := of_decide_eq_true hfound
    have hc : c ∈ w.credentials := (hstored c).1 (List.mem_of_find?_eq_some hfind)
    obtain ⟨⟨key, hholds⟩, -⟩ := hw c hc
    have hserving : c ∈ w.serving p := mem_candidates.2 ⟨hc, hprovider, (hlive c hc).2 hnow⟩
    have hall : ∀ d ∈ w.serving p, d = c := by
      intro d hd
      obtain ⟨hmem, hd, -⟩ := mem_candidates.1 hd
      obtain ⟨⟨key', hholds'⟩, -⟩ := hw d hmem
      refine w.credentials.eq_of_id_eq hmem hc ?_
      rw [hholds'.id, hholds.id, hd, hprovider]
    rw [findOneSorted_of_forall hserving hall, answerFrom, hholds.ciphertext] at h
    obtain rfl := Except.ok.inj h
    have hstatus : fallback.status (stored.foldl (recordLive w.clock) []) p = statusFromCredential c := by
      rw [Fallback.status, lookup_foldl_recordLive, hfind]
      rfl
    rw [hstatus]
    exact ⟨rfl, by simp [statusFromCredential, hholds.ne_empty], fun _ => hholds.keyHint⟩
  | none =>
    have hserving : w.serving p = [] := by
      refine List.eq_nil_iff_forall_not_mem.2 fun d hd => ?_
      obtain ⟨hmem, hd, hnow⟩ := mem_candidates.1 hd
      have hnone := List.find?_eq_none.1 hfind d ((hstored d).2 hmem)
      exact hnone (decide_eq_true ⟨hd, (hlive d hmem).1 hnow⟩)
    rw [hserving] at h
    obtain rfl := Except.ok.inj h
    exact fallback.agrees p (by rw [lookup_foldl_recordLive, hfind]; rfl)

theorem vaulted_of_reach {w₀ : World} {σ : State} {ok : State → Step → Prop} (hw : w₀.Vaulted lib)
    (h : System.Reach (service lib) ok (Pool.init w₀) σ) : σ.shared.Vaulted lib := by
  refine h.invariant (I := fun cfg => cfg.shared.Vaulted lib) (Op.conforms) .init hw ?_
  rintro ρ label cfg - - hvaulted hstep
  cases hstep with
  | spawn ht => exact hvaulted
  | exec hnext ht hpermits hexec => exact vaulted_exec hpermits hexec hvaulted
  | crash ht => exact hvaulted
  | env => exact hvaulted

/-- The statuses name the providers in their order and say of each what `Resolve` alone answers. -/
structure Lists (lib : Library) (fallback : Fallback) (w : World) (statuses : List CredentialStatus) : Prop where
  providers : statuses.map CredentialStatus.provider = credentialProviderPriority
  agrees : ∀ status ∈ statuses, ∀ answer w',
    (resolve lib fallback status.provider).Ends Cmd.exec w (.ok answer) w' → Agrees status answer

/-- In every run of requests on a vault as `Save` writes it, `List` and `Resolve` agree. -/
theorem list_agrees {w₀ : World} {σ : State} {statuses : List CredentialStatus} (hw : w₀.Vaulted lib)
    (hreach : System.Reach (service lib) (fun _ _ => True) (Pool.init w₀) σ)
    (hlist : (list fallback).Ends Cmd.exec σ.shared (.ok statuses) w') : Lists lib fallback σ.shared statuses := by
  have hvaulted := vaulted_of_reach hw hreach
  obtain ⟨rank, rfl⟩ := ends_list hlist
  constructor
  · rw [List.map_map]
    exact (List.map_congr_left fun p _ => fallback.status_provider).trans (List.map_id _)
  · intro status hstatus answer w₁ hresolve
    obtain ⟨p, hp, rfl⟩ := List.mem_map.1 hstatus
    rw [fallback.status_provider] at hresolve
    obtain ⟨-, ⟨m, hm⟩ | ⟨pick, hanswer⟩⟩ := (ends_resolve (normal_of_mem hp) hp).1 hresolve
    · cases hm
    · exact hvaulted.agrees (fun c => List.mem_mergeSort) hanswer.symm

/-! ## The keys of the environment -/

/-- What is stored under the identifier of a provider is its credential. -/
def World.Filed (lib : Library) (w : World) : Prop :=
  ∀ d ∈ w.credentials, ∀ p ∈ credentialProviderPriority, d.id = providerCredentialID lib p → d.provider = p

/-- `Resolve` alone can answer with this key of the provider. -/
def Serves (lib : Library) (fallback : Fallback) (w : World) (p key : String) : Prop :=
  ∃ source pick, answerFrom lib fallback p (findOneSorted newerLe pick (w.serving p)) = .ok ⟨key, source⟩

/-- What one request can find depends only on which credentials there are. -/
theorem exists_findOneSorted_congr {l l' : List Credential} (h : ∀ d, d ∈ l ↔ d ∈ l') {r : Option Credential}
    {pick : ℕ} (hr : findOneSorted newerLe pick l = r) : ∃ pick', findOneSorted newerLe pick' l' = r := by
  cases r with
  | some d =>
    exact exists_findOneSorted ((h d).1 (mem_of_findOneSorted hr)) fun b hb => le_of_findOneSorted hr ((h b).2 hb)
  | none =>
    have hnil : l' = [] := by
      refine List.eq_nil_iff_forall_not_mem.2 fun d hd => ?_
      have hd := (h d).2 hd
      rw [eq_nil_of_findOneSorted newerLe_total newerLe_trans hr] at hd
      cases hd
    exact ⟨0, by rw [hnil]; rfl⟩

theorem Serves.congr {key : String} (h : ∀ d, d ∈ w.serving p ↔ d ∈ w'.serving p)
    (hserves : Serves lib fallback w p key) : Serves lib fallback w' p key := by
  obtain ⟨source, pick, hanswer⟩ := hserves
  obtain ⟨pick', hpick⟩ := exists_findOneSorted_congr h (r := findOneSorted newerLe pick (w.serving p)) rfl
  exact ⟨source, pick', by rw [hpick]; exact hanswer⟩

/-- The vault serves the same keys, and none from the environment that it served before. -/
structure Keeps (lib : Library) (fallback : Fallback) (w w' : World) : Prop where
  clock : w'.clock = w.clock
  filed : w'.Filed lib
  serves : ∀ p ∈ credentialProviderPriority, ∀ key, Serves lib fallback w p key ↔ Serves lib fallback w' p key
  serving : ∀ p ∈ credentialProviderPriority, w.serving p ≠ [] → w'.serving p ≠ []

theorem Keeps.refl (hfiled : w.Filed lib) : Keeps lib fallback w w :=
  ⟨rfl, hfiled, fun _ _ _ => Iff.rfl, fun _ _ h => h⟩

theorem Keeps.trans (h : Keeps lib fallback w w') (h' : Keeps lib fallback w' w'') : Keeps lib fallback w w'' where
  clock := h'.clock.trans h.clock
  filed := h'.filed
  serves p hp key := (h.serves p hp key).trans (h'.serves p hp key)
  serving p hp hne := h'.serving p hp (h.serving p hp hne)

theorem keeps_of_mem (hclock : w'.clock = w.clock) (hfiled : w'.Filed lib)
    (h : ∀ p ∈ credentialProviderPriority, ∀ d, d ∈ w.serving p ↔ d ∈ w'.serving p) : Keeps lib fallback w w' where
  clock := hclock
  filed := hfiled
  serves p hp key := ⟨Serves.congr (h p hp), Serves.congr fun d => (h p hp d).symm⟩
  serving p hp hne hnil := by
    refine hne (List.eq_nil_iff_forall_not_mem.2 fun d hd => ?_)
    have hd := (h p hp d).1 hd
    rw [hnil] at hd
    cases hd

/-- The key of the environment moves into the vault. -/
theorem Upserts.keeps {c : Credential} (h : Upserts c w w') (hfiled : w.Filed lib)
    (hc : c.Holds lib (fallback.key c.provider)) (hactive : c.status = "active") (hexpires : c.expiresAt = none)
    (hnone : w.serving c.provider = []) : Keeps lib fallback w w' ∧ w'.serving c.provider ≠ [] ∧
      ∀ d ∈ w'.serving c.provider, d.id = providerCredentialID lib c.provider := by
  have hnewLive : ∀ now, (c.stored (w.credentials.get c.id)).live now := by
    intro now
    refine decide_eq_true ⟨hactive, ?_⟩
    rw [Credential.stored, hexpires]
    rfl
  have hserving : ∀ {p d}, d ∈ w'.serving p ↔
      (d = c.stored (w.credentials.get c.id) ∧ c.provider = p) ∨ d ∈ w.serving p ∧ d.id ≠ c.id := by
    intro p d
    rw [mem_candidates, mem_candidates, h.mem d, h.clock]
    constructor
    · rintro ⟨rfl | ⟨hold, hid⟩, hp, hlive⟩
      · exact .inl ⟨rfl, hp⟩
      · exact .inr ⟨⟨hold, hp, hlive⟩, hid⟩
    · rintro (⟨rfl, hp⟩ | ⟨⟨hold, hp, hlive⟩, hid⟩)
      · exact ⟨.inl rfl, hp, hnewLive _⟩
      · exact ⟨.inr ⟨hold, hid⟩, hp, hlive⟩
  have hnew : ∀ d, d ∈ w'.serving c.provider ↔ d = c.stored (w.credentials.get c.id) := by
    intro d
    rw [hserving, hnone]
    simp
  have hothers : ∀ p ∈ credentialProviderPriority, p ≠ c.provider → ∀ d, d ∈ w.serving p ↔ d ∈ w'.serving p := by
    intro p _ hne d
    rw [hserving]
    refine ⟨fun hd => .inr ⟨hd, fun hid => hne ?_⟩, ?_⟩
    · obtain ⟨hmem, hp, -⟩ := mem_candidates.1 hd
      exact hp.symm.trans (hfiled d hmem c.provider hc.provider (hid.trans hc.id))
    · rintro (⟨-, hp⟩ | ⟨hd, -⟩)
      · exact absurd hp.symm hne
      · exact hd
  have hself : c.stored (w.credentials.get c.id) ∈ w'.serving c.provider := (hnew _).2 rfl
  have hfiled' : w'.Filed lib := by
    intro d hd p hp hid
    rcases (h.mem d).1 hd with rfl | ⟨hold, -⟩
    · exact providerCredentialID_inj hc.provider hp (hc.id.symm.trans hid)
    · exact hfiled d hold p hp hid
  refine ⟨⟨h.clock, hfiled', fun p hp key => ?_, fun p hp hne => ?_⟩, fun hnil => ?_, fun d hd => ?_⟩
  · by_cases heq : p = c.provider
    · subst heq
      have hfound : ∀ pick, answerFrom lib fallback c.provider (findOneSorted newerLe pick (w'.serving c.provider)) =
          .ok ⟨fallback.key c.provider, "database"⟩ := by
        intro pick
        rw [findOneSorted_of_forall hself fun d hd => (hnew d).1 hd, answerFrom]
        have hcipher : (c.stored (w.credentials.get c.id)).ciphertext = c.ciphertext := rfl
        rw [hcipher, hc.ciphertext]
      have hbefore : ∀ pick, answerFrom lib fallback c.provider (findOneSorted newerLe pick (w.serving c.provider)) =
          .ok ⟨fallback.key c.provider, "environment"⟩ := by
        intro pick
        rw [hnone, findOneSorted_nil, answerFrom, Fallback.resolved, if_pos hc.ne_empty]
      constructor
      · rintro ⟨source, pick, hanswer⟩
        rw [hbefore pick] at hanswer
        obtain ⟨rfl, -⟩ := Resolved.mk.inj (Except.ok.inj hanswer)
        exact ⟨_, 0, hfound 0⟩
      · rintro ⟨source, pick, hanswer⟩
        rw [hfound pick] at hanswer
        obtain ⟨rfl, -⟩ := Resolved.mk.inj (Except.ok.inj hanswer)
        exact ⟨_, 0, hbefore 0⟩
    · exact ⟨Serves.congr (hothers p hp heq), Serves.congr fun d => (hothers p hp heq d).symm⟩
  · by_cases heq : p = c.provider
    · exact absurd (heq ▸ hnone) hne
    · obtain ⟨d, hd⟩ := List.exists_mem_of_ne_nil _ hne
      exact List.ne_nil_of_mem ((hothers p hp heq d).1 hd)
  · rw [hnil] at hself
    cases hself
  · rw [(hnew d).1 hd]
    exact hc.id

/-- Where the current credential alone is live, nothing live is superseded. -/
theorem Deactivates.keeps (h : Deactivates p (providerCredentialID lib p) w w') (hfiled : w.Filed lib)
    (hids : ∀ d ∈ w.serving p, d.id = providerCredentialID lib p) : Keeps lib fallback w w' := by
  refine keeps_of_mem h.clock (fun d hd q hq hid => ?_) fun q _ d => ?_
  · obtain ⟨c, hc, rfl⟩ := (h.mem d).1 hd
    rw [Credential.supersede_id] at hid
    rcases c.supersede_cases p (providerCredentialID lib p) w.clock with heq | ⟨-, -, heq⟩
    · rw [heq]
      exact hfiled c hc q hq hid
    · rw [heq]
      exact hfiled c hc q hq hid
  · rw [mem_candidates, mem_candidates, h.mem d, h.clock]
    constructor
    · rintro ⟨hd, hq, hlive⟩
      refine ⟨⟨d, hd, ?_⟩, hq, hlive⟩
      rcases d.supersede_cases p (providerCredentialID lib p) w.clock with heq | ⟨hp, hne, -⟩
      · exact heq
      · exact absurd (hids d (mem_candidates.2 ⟨hd, hp, hlive⟩)) hne
    · rintro ⟨⟨c, hc, rfl⟩, hq, hlive⟩
      obtain ⟨heq, -⟩ := Credential.eq_of_supersede_active (of_decide_eq_true hlive).1
      rw [heq] at hq hlive ⊢
      exact ⟨hc, hq, hlive⟩

theorem ends_encrypt {value : String} {r : Except Err String} (h : (encrypt lib value).Ends Cmd.exec w r w') :
    w' = w ∧ ∀ ciphertext, r = .ok ciphertext → decrypt lib ciphertext = .ok value := by
  obtain ⟨o, r', w₁, hnonce, h⟩ := Prog.ends_call_bind.1 h
  obtain rfl : w₁ = w := by rcases reply_some hnonce with ⟨hw, -⟩ | ⟨hw, -⟩ <;> exact hw
  cases r' with
  | error e =>
    obtain ⟨rfl, rfl⟩ := Prog.ends_pure.1 h
    exact ⟨rfl, fun ciphertext h => by cases h⟩
  | ok nonce =>
    obtain ⟨rfl, rfl⟩ := Prog.ends_pure.1 h
    exact ⟨rfl, fun ciphertext h => Except.ok.inj h ▸ decrypt_sealed nonce _⟩

/-- `Save` of a key of the environment, where the vault has none. -/
theorem ends_save {input : CredentialInput} {actor : String} {r : Except Err CredentialStatus}
    (hprovider : normal lib input.provider = p) (hkey : trimSpace input.apiKey = fallback.key p)
    (hexpires : input.expiresAt = none) (hfiled : w.Filed lib) (hnone : w.serving p = [])
    (h : (save lib input actor).Ends Cmd.exec w r w') :
    Keeps lib fallback w w' ∧ ∀ status, r = .ok status → w'.serving p ≠ [] := by
  have hrefused : ∀ {e : Err}, Prog.Ends Cmd.exec (pure (.error e)) w r w' →
      Keeps lib fallback w w' ∧ ∀ status, r = .ok status → w'.serving p ≠ [] := by
    intro e h
    obtain ⟨rfl, rfl⟩ := Prog.ends_pure.1 h
    exact ⟨.refl hfiled, fun status h => by cases h⟩
  unfold save at h
  dsimp only at h
  by_cases hsupported : normal lib input.provider ∈ credentialProviderPriority
  case neg =>
    rw [if_pos hsupported] at h
    exact hrefused h
  rw [if_neg (not_not.2 hsupported)] at h
  by_cases hlength : (utf8 (trimSpace input.apiKey)).length < 8 ∨ 4096 < (utf8 (trimSpace input.apiKey)).length
  · rw [if_pos hlength] at h
    exact hrefused h
  rw [if_neg hlength, hexpires, show expired none = pure false from rfl, pure_bind,
    if_neg Bool.false_ne_true] at h
  rw [not_or, Nat.not_lt] at hlength
  obtain ⟨r', w₁, hencrypt, h⟩ := Prog.ends_bind.1 h
  obtain ⟨rfl, hcipher⟩ := ends_encrypt hencrypt
  cases r' with
  | error e => exact hrefused h
  | ok ciphertext =>
    obtain ⟨o, now, w₂, hnow, h⟩ := Prog.ends_call_bind.1 h
    obtain ⟨-, rfl⟩ : w₁.clock = now ∧ w₁ = w₂ := Prod.mk.inj (Option.some.inj hnow)
    have hholds : (input.credential lib actor ciphertext now).Holds lib (trimSpace input.apiKey) :=
      CredentialInput.credential_holds hsupported hlength.1 (hcipher ciphertext rfl)
    have hactive : (input.credential lib actor ciphertext now).status = "active" := rfl
    have hforever : (input.credential lib actor ciphertext now).expiresAt = none := hexpires
    have hcp : (input.credential lib actor ciphertext now).provider = p := hprovider
    generalize input.credential lib actor ciphertext now = c at h hholds hactive hforever hcp
    rw [hprovider] at h
    subst hcp
    rw [hkey] at hholds
    obtain ⟨o', r', w₂, hupsert, h⟩ := Prog.ends_call_bind.1 h
    rcases exec_upsertCredential hupsert with ⟨rfl, hne⟩ | hupserts
    · cases r' with
      | error e => exact hrefused h
      | ok u => exact absurd rfl hne
    obtain ⟨hkeeps, hserving, hids⟩ := hupserts.keeps hfiled hholds hactive hforever hnone
    cases r' with
    | error e =>
      obtain ⟨rfl, rfl⟩ := Prog.ends_pure.1 h
      exact ⟨hkeeps, fun status h => by cases h⟩
    | ok u =>
      rw [hholds.id] at h
      obtain ⟨o'', r'', w₃, hdeactivate, h⟩ := Prog.ends_call_bind.1 h
      have hkeeps' : Keeps lib fallback w₁ w₃ := by
        rcases exec_deactivate hdeactivate with ⟨rfl, -⟩ | hdeactivates
        · exact hkeeps
        · exact hkeeps.trans (hdeactivates.keeps hkeeps.filed hids)
      have hserving' : w₃.serving c.provider ≠ [] := by
        rcases exec_deactivate hdeactivate with ⟨rfl, -⟩ | hdeactivates
        · exact hserving
        · have hkeeps'' : Keeps lib fallback w₂ w₃ := hdeactivates.keeps hkeeps.filed hids
          exact hkeeps''.serving _ hholds.provider hserving
      cases r'' with
      | error e =>
        obtain ⟨rfl, rfl⟩ := Prog.ends_pure.1 h
        exact ⟨hkeeps', fun status h => by cases h⟩
      | ok u =>
        obtain ⟨rfl, rfl⟩ := Prog.ends_pure.1 h
        exact ⟨hkeeps', fun status h => hserving'⟩

/-- The loop of `EnsureFallbacks`. -/
theorem ends_ensureEach {providers : List String} {error : Option Err}
    (hall : ∀ p ∈ providers, p ∈ credentialProviderPriority) (hfiled : w.Filed lib)
    (h : (ensureEach lib fallback providers).Ends Cmd.exec w error w') :
    Keeps lib fallback w w' ∧ (error = none → ∀ p ∈ providers, fallback.key p ≠ "" → w'.serving p ≠ []) := by
  induction providers generalizing w with
  | nil =>
    obtain ⟨rfl, rfl⟩ := Prog.ends_pure.1 h
    exact ⟨.refl hfiled, fun _ p hp => absurd hp List.not_mem_nil⟩
  | cons provider rest ih =>
    have hp : provider ∈ credentialProviderPriority := hall provider (.head _)
    have hrest : ∀ p ∈ rest, p ∈ credentialProviderPriority := fun p hp => hall p (.tail _ hp)
    -- the rest of the loop, from a vault that serves this provider if its key is not blank
    have hnext : ∀ {w₁ : World}, Keeps lib fallback w w₁ → (fallback.key provider ≠ "" → w₁.serving provider ≠ []) →
        (ensureEach lib fallback rest).Ends Cmd.exec w₁ error w' → Keeps lib fallback w w' ∧
          (error = none → ∀ p ∈ provider :: rest, fallback.key p ≠ "" → w'.serving p ≠ []) := by
      intro w₁ hkeeps hserving h
      obtain ⟨hkeeps', hserving'⟩ := ih hrest hkeeps.filed h
      refine ⟨hkeeps.trans hkeeps', fun herror p hmem hkey => ?_⟩
      rcases List.mem_cons.1 hmem with rfl | hmem
      · exact hkeeps'.serving p hp (hserving hkey)
      · exact hserving' herror p hmem hkey
    unfold ensureEach at h
    split at h
    · rename_i hblank
      exact hnext (.refl hfiled) (fun hkey => absurd hblank hkey) h
    rename_i hkey
    obtain ⟨o, now, w₁, hnow, h⟩ := Prog.ends_call_bind.1 h
    obtain ⟨rfl, rfl⟩ : w.clock = now ∧ w = w₁ := Prod.mk.inj (Option.some.inj hnow)
    obtain ⟨o', r, w₁, hget, h⟩ := Prog.ends_call_bind.1 h
    have hresult : w₁ = w ∧
        (r = found (findOneSorted newerLe o'.pick (w.serving provider)) ∨ ∃ m, r = .error (.unavailable m)) := by
      rcases reply_some hget with ⟨rfl, hm⟩ | ⟨rfl, hr⟩
      · exact ⟨rfl, .inr hm⟩
      · exact ⟨rfl, hr⟩
    obtain ⟨rfl, hr⟩ := hresult
    cases r with
    | ok c =>
      refine hnext (.refl hfiled) (fun _ hnil => ?_) h
      rcases hr with hr | ⟨m, hm⟩
      · rw [hnil, findOneSorted_nil] at hr
        cases hr
      · cases hm
    | error e =>
      dsimp only at h
      by_cases hnotFound : e.isNotFound
      case neg =>
        rw [if_pos hnotFound] at h
        obtain ⟨rfl, rfl⟩ := Prog.ends_pure.1 h
        exact ⟨.refl hfiled, fun herror => by cases herror⟩
      rw [if_neg (not_not.2 hnotFound)] at h
      have hnone : w₁.serving provider = [] := by
        rcases hr with hr | ⟨m, hm⟩
        · cases hfind : findOneSorted newerLe o'.pick (w₁.serving provider) with
          | none => exact eq_nil_of_findOneSorted newerLe_total newerLe_trans hfind
          | some c =>
            rw [hfind] at hr
            cases hr
        · obtain rfl := Except.error.inj hm
          cases hnotFound
      obtain ⟨r', w₂, hsave, h⟩ := Prog.ends_bind.1 h
      have hprovider : normal lib (fallback.input provider).provider = provider := normal_of_mem hp
      have hkey : trimSpace (fallback.input provider).apiKey = fallback.key provider := fallback.trimSpace_key provider
      obtain ⟨hkeeps, hserving⟩ := ends_save hprovider hkey rfl hfiled hnone hsave
      cases r' with
      | error e' =>
        obtain ⟨rfl, rfl⟩ := Prog.ends_pure.1 h
        exact ⟨hkeeps, fun herror => by cases herror⟩
      | ok status => exact hnext hkeeps (fun _ => hserving status rfl) h

/-- The keys that `Resolve` answers with. -/
theorem serves_iff {key : String} (hp : p ∈ credentialProviderPriority) :
    (∃ source w₁, (resolve lib fallback p).Ends Cmd.exec w (.ok ⟨key, source⟩) w₁) ↔ Serves lib fallback w p key := by
  constructor
  · rintro ⟨source, w₁, hend⟩
    obtain ⟨-, ⟨m, hm⟩ | ⟨pick, hanswer⟩⟩ := (ends_resolve (normal_of_mem hp) hp).1 hend
    · cases hm
    · exact ⟨source, pick, hanswer.symm⟩
  · rintro ⟨source, pick, hanswer⟩
    exact ⟨source, w, (ends_resolve (normal_of_mem hp) hp).2 ⟨rfl, .inr ⟨pick, hanswer.symm⟩⟩⟩

/-- `Resolve` alone answers for the provider with the same keys in both, and after a success with none from the
environment. -/
structure Bootstraps (lib : Library) (fallback : Fallback) (p : String) (w : World) (error : Option Err)
    (w' : World) : Prop where
  keys : ∀ key, (∃ source w₁, (resolve lib fallback p).Ends Cmd.exec w (.ok ⟨key, source⟩) w₁) ↔
    ∃ source w₁, (resolve lib fallback p).Ends Cmd.exec w' (.ok ⟨key, source⟩) w₁
  source : error = none → ∀ key w₁, ¬ (resolve lib fallback p).Ends Cmd.exec w' (.ok ⟨key, "environment"⟩) w₁

/-- `EnsureFallbacks` alone changes no key that `Resolve` answers with, whatever goes wrong. -/
theorem ensureFallbacks_keeps {error : Option Err} (hfiled : w.Filed lib) (hp : p ∈ credentialProviderPriority)
    (h : (ensureFallbacks lib fallback).Ends Cmd.exec w error w') : Bootstraps lib fallback p w error w' := by
  obtain ⟨hkeeps, hserving⟩ := ends_ensureEach (fun p hp => hp) hfiled h
  refine ⟨fun key => ?_, fun herror key w₁ hend => ?_⟩
  · rw [serves_iff hp, serves_iff hp]
    exact hkeeps.serves p hp key
  · have hne := hserving herror p hp
    obtain ⟨-, ⟨m, hm⟩ | ⟨pick, hanswer⟩⟩ := (ends_resolve (normal_of_mem hp) hp).1 hend
    · cases hm
    cases hfind : findOneSorted newerLe pick (w'.serving p) with
    | none =>
      rw [hfind, answerFrom, Fallback.resolved] at hanswer
      have hsource := congrArg Resolved.source (Except.ok.inj hanswer)
      split at hsource
      · rename_i hkey
        exact hne hkey (eq_nil_of_findOneSorted newerLe_total newerLe_trans hfind)
      · have hne : "environment" ≠ "none" := by decide
        exact absurd hsource hne
    | some c =>
      rw [hfind, answerFrom] at hanswer
      split at hanswer
      · cases hanswer
      · have hsource := congrArg Resolved.source (Except.ok.inj hanswer)
        have hne : "environment" ≠ "database" := by decide
        exact absurd hsource hne

/-! ## A key in an empty vault -/

namespace Sample

def nonce : Nonce := ⟨List.replicate nonceSize 0, List.length_replicate⟩

/-- The key that is saved. -/
def apiKey : String := "first-secret-key"

/-- What AES-GCM makes of it for the encryption key `a-test-only-encryption-key`, with that nonce. -/
def sealedKey : Bytes :=
  [187, 203, 252, 98, 98, 22, 115, 245, 158, 90, 81, 96, 151, 0, 162, 143, 249, 226, 73, 230, 215, 40, 7, 129, 27,
   43, 169, 137, 142, 19, 108, 0]

/-- The text of the nonce and the sealed key. -/
def ciphertext : String := "AAAAAAAAAAAAAAAAu8v8YmIWc_WeWlFglwCij_niSebXKAeBGyupiY4TbAA"

/-! Encryption and encoding are as they are for the sample, and some other ones elsewhere. -/

def sealed (n : Bytes) (value : String) : Bytes :=
  if n = nonce.bytes ∧ value = apiKey then sealedKey else 255 :: value.toByteArray.data.toList

def opened (n bytes : Bytes) : Except String String :=
  if n = nonce.bytes ∧ bytes = sealedKey then .ok apiKey
  else
    match String.fromUTF8? ⟨bytes.tail.toArray⟩ with
    | some value => .ok value
    | none => .error "cipher: message authentication failed"

def encodeToString (bytes : Bytes) : String :=
  if bytes = nonce.bytes ++ sealedKey then ciphertext
  else String.ofList ('=' :: bytes.map fun byte => Char.ofNat byte.toNat)

def decodeString (text : String) : Except String Bytes :=
  if text = ciphertext then .ok (nonce.bytes ++ sealedKey)
  else .ok (text.toList.tail.map fun c => UInt8.ofNat c.toNat)

theorem toLower_of_isLower (c : Char) (hc : c.isLower) : c.toLower = c := by
  have hlow : 'a'.val ≤ c.val := of_decide_eq_true (Bool.and_eq_true_iff.1 hc).1
  have hupper : ¬ (c.val ≥ 'A'.val ∧ c.val ≤ 'Z'.val) := by
    rintro ⟨-, hhigh⟩
    exact absurd (UInt32.le_trans hlow hhigh) (by decide)
  exact dif_neg hupper

theorem opened_sealed (n : Nonce) (value : String) : opened n.bytes (sealed n.bytes value) = .ok value := by
  unfold opened sealed
  by_cases hsample : n.bytes = nonce.bytes ∧ value = apiKey
  · rw [if_pos hsample, if_pos ⟨hsample.1, rfl⟩, hsample.2]
  · have hother : ¬ (n.bytes = nonce.bytes ∧ 255 :: value.toByteArray.data.toList = sealedKey) :=
      fun h => absurd (List.cons.inj h.2).1 (by decide)
    have hvalid : String.fromUTF8? ⟨value.toByteArray.data.toList.toArray⟩ = some value := by
      rw [Array.toArray_toList]
      exact dif_pos value.isValidUTF8
    rw [if_neg hsample, if_neg hother, List.tail_cons, hvalid]

theorem decode_encode (bytes : Bytes) : decodeString (encodeToString bytes) = .ok bytes := by
  unfold decodeString encodeToString
  by_cases hsample : bytes = nonce.bytes ++ sealedKey
  · rw [if_pos hsample, if_pos rfl, hsample]
  · have hother : String.ofList ('=' :: bytes.map fun byte => Char.ofNat byte.toNat) ≠ ciphertext := by
      intro h
      have hhead := congrArg (fun s => s.toList.head?) h
      rw [String.toList_ofList] at hhead
      exact absurd (Option.some.inj hhead) (by decide)
    have hbyte : ∀ byte : UInt8, UInt8.ofNat (Char.ofNat byte.toNat).toNat = byte := by
      intro byte
      have hlt := byte.toNat_lt
      have hvalid : byte.toNat.isValidChar := .inl (by omega)
      rw [Char.ofNat, dif_pos hvalid]
      exact UInt8.ofNat_toNat
    rw [if_neg hsample, if_neg hother, String.toList_ofList, List.tail_cons, List.map_map]
    exact congrArg Except.ok ((List.map_congr_left fun byte _ => hbyte byte).trans (List.map_id _))

def library : Library where
  lower := Char.toLower
  sealed := sealed
  opened := opened
  encodeToString := encodeToString
  decodeString := decodeString
  lower_of_isLower := toLower_of_isLower
  opened_sealed := opened_sealed
  decode_encode := decode_encode

def world : World := ⟨0, ∅⟩

theorem vaulted_world : world.Vaulted library := fun _ hc => absurd hc List.not_mem_nil

/-- One request saves the key. -/
def steps : List Step :=
  .spawn 0 (.save ⟨" OpenAI", "", apiKey, none⟩ "owner") :: List.replicate 4 (.exec 0 {})

/-- The status that a thread has answered with. -/
def saved? (σ : State) (t : ℕ) : Option (CredentialInput × String × CredentialStatus) :=
  match σ.result t with
  | some (.save input actor, .saved (.ok status)) => some (input, actor, status)
  | _ => none

theorem result_of_saved? {σ : State} {t : ℕ} {input : CredentialInput} {actor : String} {status : CredentialStatus}
    (h : saved? σ t = some (input, actor, status)) : σ.result t = some (.save input actor, .saved (.ok status)) := by
  unfold saved? at h
  split at h
  · rename_i hresult
    obtain ⟨rfl, hrest⟩ := Prod.mk.inj (Option.some.inj h)
    obtain ⟨rfl, rfl⟩ := Prod.mk.inj hrest
    exact hresult
  · cases h

/-- The steps save the key of OpenAI. -/
theorem exists_steps : ∃ σ, (service library).Reach (fun _ _ => True) (Pool.init world) σ ∧
    ∃ input actor status, σ.result 0 = some (.save input actor, .saved (.ok status)) ∧ status.provider = "openai" := by
  have hrun : ((service library).runWhere (fun _ _ => True) steps (Pool.init world)).any fun σ =>
      (saved? σ 0).any (fun x => x.2.2.provider = "openai") := by
    decide +kernel
  obtain ⟨σ, hreach, hsaved⟩ := System.Reach.exists_of_any hrun
  obtain ⟨⟨input, actor, status⟩, hx, hprovider⟩ := (Option.any_eq_true ..).1 hsaved
  exact ⟨σ, hreach, input, actor, status, result_of_saved? hx, of_decide_eq_true hprovider⟩

/-- A deployment that has the key in its environment starts. -/
def started : Option (Option Err × World) :=
  Prog.run Cmd.exec (ensureFallbacks library [("openai", apiKey)]) (List.replicate 6 {}) world

end Sample

theorem resolves_saved_openai : ∃ σ e key expiresAt,
    (service Sample.library).Reach (fun _ _ => True) (Pool.init Sample.world) σ ∧
    Served Sample.library σ 0 "openai" e key expiresAt := by
  obtain ⟨σ, hreach, input, actor, status, hresult, hprovider⟩ := Sample.exists_steps
  obtain ⟨e, key, expiresAt, hserved⟩ := resolves_saved hreach hresult
  exact ⟨σ, e, key, expiresAt, hreach, hprovider ▸ hserved⟩

theorem list_agrees_openai : ∃ σ statuses,
    (service Sample.library).Reach (fun _ _ => True) (Pool.init Sample.world) σ ∧
    Lists Sample.library [] σ.shared statuses := by
  obtain ⟨σ, hreach, -⟩ := Sample.exists_steps
  obtain ⟨statuses, hlist⟩ : ∃ statuses, (list []).Ends Cmd.exec σ.shared (.ok statuses) σ.shared := exists_ends_list
  exact ⟨σ, statuses, hreach, list_agrees Sample.vaulted_world hreach hlist⟩

theorem ensureFallbacks_keeps_openai : ∃ error w', Sample.started = some (error, w') ∧
    Bootstraps Sample.library [("openai", Sample.apiKey)] "openai" Sample.world error w' := by
  have hsome : Sample.started.isSome := by decide +kernel
  obtain ⟨⟨error, w'⟩, hrun⟩ := Option.isSome_iff_exists.1 hsome
  have hfiled : Sample.world.Filed Sample.library := fun d hd => absurd hd List.not_mem_nil
  exact ⟨error, w', hrun, ensureFallbacks_keeps hfiled (.head _) ⟨_, hrun⟩⟩

end Vault

end Stylme
