-- SUMMARY: A shopper's measurements are stored only with consent, and a consent that was withdrawn comes back only by a request that grants it or one that overlapped.
import Stylme.Shopper.Protocol

/-!
# Consent

`update_profile` computes the body profile from the user that the request was authenticated as and
writes it whole. Whatever overlaps, a profile without consent has no measurements: both come from
one copy. But a request that read the profile before the consent was withdrawn writes it back.
-/

namespace Stylme

open Conc Backend

namespace Shopper

/-- A profile without consent has no measurements. -/
def BodyProfile.Guarded (body : BodyProfile) : Prop :=
  body.consent = false → body.heightCm = none ∧ body.weightKg = none

/-- The profiles of all users are guarded. -/
def World.Guarded (w : World) : Prop := ∀ user ∈ w.users, user.body.Guarded

/-- The request gives consent. -/
def ProfileUpdate.grants (values : ProfileUpdate) : Bool := values.consent = some (some true)

/-- The request is on the profile of the user, and gives no consent. -/
def Op.withholds (userID : ObjectId) : Op → Bool
  | .updateProfile id values _ => id = userID → values.grants = false
  | _ => true

/-- The user has given no consent. -/
def World.Withheld (userID : ObjectId) (w : World) : Prop :=
  ∀ user ∈ w.users, user.id = userID → user.body.consent = false

variable {lib : Library} {w w' : World} {op : Op} {l : Phase} {cmd : Cmd} {o : Oracle} {r : Resp cmd}

/-! ## Profiles -/

section Body

variable {values : ProfileUpdate} {now : Time} {stored body : BodyProfile}

theorem guarded_withConsent {consent : Option (Option Bool)} (h : stored.Guarded) :
    (stored.withConsent consent).Guarded := by
  unfold BodyProfile.withConsent
  split
  · exact h
  · exact fun hconsent => by cases hconsent
  · exact fun _ => ⟨rfl, rfl⟩

/-- What an update makes of a profile: the consent, and each measurement only with consent. -/
structure UpdatedBody (values : ProfileUpdate) (stored body : BodyProfile) : Prop where
  consent : body.consent = (stored.withConsent values.consent).consent
  height : body.heightCm = (stored.withConsent values.consent).heightCm ∨ values.mayMeasure body
  weight : body.weightKg = (stored.withConsent values.consent).weightKg ∨ values.mayMeasure body

theorem updatedBody (h : values.body now stored = .ok body) : UpdatedBody values stored body := by
  have hmeasure : ∀ {b b' : BodyProfile}, b.consent = b'.consent → values.mayMeasure b = values.mayMeasure b' :=
    fun hconsent => by rw [ProfileUpdate.mayMeasure, ProfileUpdate.mayMeasure, hconsent]
  unfold ProfileUpdate.body at h
  dsimp only at h
  split at h
  · cases h
  rename_i hheight
  split at h
  · cases h
  rename_i hweight
  -- a measurement of the request has passed its check
  have hset : ∀ {α : Type} {value : Option (Option α)} {old : Option α} {b : BodyProfile},
      ¬ (value.isSome ∧ ¬ values.mayMeasure b) → value.getD old = old ∨ values.mayMeasure b := by
    intro α value old b hchecked
    cases value with
    | none => exact .inl rfl
    | some value => exact .inr (not_not.1 fun hno => hchecked ⟨rfl, hno⟩)
  have hbody : body.consent = (stored.withConsent values.consent).consent ∧
      body.heightCm = values.heightCm.getD (stored.withConsent values.consent).heightCm ∧
      body.weightKg = values.weightKg.getD (stored.withConsent values.consent).weightKg := by
    split at h <;> obtain rfl := Except.ok.inj h <;> exact ⟨rfl, rfl, rfl⟩
  obtain ⟨hconsent, hheightCm, hweightKg⟩ := hbody
  refine ⟨hconsent, ?_, ?_⟩
  · rw [hheightCm]
    exact (hset hheight).imp_right fun hmay => by rwa [hmeasure hconsent]
  · rw [hweightKg]
    exact (hset hweight).imp_right fun hmay => by rwa [hmeasure hconsent]

/-- A measurement that the request may set has consent. -/
theorem consent_of_mayMeasure (h : UpdatedBody values stored body) (hmay : values.mayMeasure body) :
    body.consent = true := by
  unfold ProfileUpdate.mayMeasure at hmay
  cases hvalue : values.consent with
  | none =>
    rw [hvalue] at hmay
    exact hmay
  | some value =>
    rw [hvalue] at hmay
    obtain rfl : value = some true := by
      rcases value with _ | _ | _
      · cases hmay
      · cases hmay
      · rfl
    rw [h.consent, hvalue]
    rfl

/-- An update keeps a profile guarded. -/
theorem guarded_body (hstored : stored.Guarded) (h : values.body now stored = .ok body) : body.Guarded := by
  have hupdated := updatedBody h
  intro hconsent
  have hno : ¬ values.mayMeasure body := fun hmay => by
    rw [consent_of_mayMeasure hupdated hmay] at hconsent
    cases hconsent
  obtain ⟨hheight, hweight⟩ := guarded_withConsent hstored (hupdated.consent.symm.trans hconsent)
  exact ⟨(hupdated.height.resolve_right hno).trans hheight, (hupdated.weight.resolve_right hno).trans hweight⟩

/-- An update that gives no consent leaves a profile without it. -/
theorem withheld_body (hstored : stored.consent = false) (hgrants : values.grants = false)
    (h : values.body now stored = .ok body) : body.consent = false := by
  rw [(updatedBody h).consent]
  unfold BodyProfile.withConsent
  split
  · exact hstored
  · rename_i hvalue
    rw [ProfileUpdate.grants, hvalue] at hgrants
    cases hgrants
  · rfl

end Body

/-! ## Steps -/

/-- What a command leaves of the users: all as they were, or one with the update of a request. -/
theorem exec_users (hexec : cmd.exec lib o w = some (r, w')) :
    w'.users = w.users ∨ ∃ id updates user, cmd = .updateUser id updates ∧ user ∈ w.users ∧ user.id = id ∧
      ∀ u ∈ w'.users, u = user.set updates ∨ u ∈ w.users := by
  have hrespond : ∀ {α : Type} {a : Except PyErr α} {r' : Except PyErr α},
      respond o.fault a w = some (r', w') → w'.users = w.users := fun h => by rw [(respond_eq h).1]
  have hperform : ∀ {α : Type} {a : Except PyErr α} {r' : Except PyErr α} {w₁ : World},
      w₁.users = w.users → perform o.fault a w w₁ = some (r', w') → w'.users = w.users := by
    intro α a r' w₁ husers h
    rcases perform_state h with rfl | rfl
    · exact husers
    · rfl
  cases cmd with
  | updateUser id updates =>
    simp only [Cmd.exec] at hexec
    split at hexec
    · exact .inl (hrespond hexec)
    · rename_i user hfound
      split at hexec
      · exact .inl (hrespond hexec)
      · rename_i users hreplace
        obtain ⟨hget, -⟩ := Option.filter_eq_some_iff.1 hfound
        obtain ⟨hmem, hid⟩ := Collection.get_eq_some_iff.1 hget
        rcases perform_state hexec with rfl | rfl
        · refine .inr ⟨id, updates, user, rfl, hmem, hid, fun u hu => ?_⟩
          exact ((Collection.mem_replaceOne hreplace).1 hu).imp_right fun hu => hu.1
        · exact .inl rfl
  | now =>
    obtain ⟨-, rfl⟩ := Prod.mk.inj (Option.some.inj hexec)
    exact .inl rfl
  | uuid | token =>
    simp only [Cmd.exec, World.draw] at hexec
    split at hexec
    · cases hexec
    · obtain ⟨-, rfl⟩ := Prod.mk.inj (Option.some.inj hexec)
      exact .inl rfl
  | encrypt value =>
    simp only [Cmd.exec] at hexec
    split at hexec <;> obtain ⟨-, rfl⟩ := Prod.mk.inj (Option.some.inj hexec) <;> exact .inl rfl
  | insertAudit entry => exact .inl (hperform (by rfl) hexec)
  | pushItem userID item time => exact .inl (hperform (by rfl) hexec)
  | setItem _ _ _ _ _ | setQuantity _ _ _ _ _ _ | pullItem _ _ _ _ | createConfig | writeCheckout _ _ _
  | resolveToken _ _ =>
    simp only [Cmd.exec] at hexec
    split at hexec
    · exact .inl (hrespond hexec)
    · exact .inl (hperform (by rfl) hexec)
  | _ => exact .inl (hrespond hexec)

/-! ## The threads -/

/-- A request has read its own user. -/
def ReadsOwn (op : Op) (l : Phase) : Prop := ∀ user, l.user = some user → op.userID = some user.id

/-- What a command adds to what a request has read. -/
theorem user_next {user : User} (hpermits : Permits lib op l cmd) (hexec : cmd.exec lib o w = some (r, w'))
    (h : (next l cmd r).user = some user) :
    l.user = some user ∨ user ∈ w.users ∧ op.userID = some user.id := by
  cases cmd with
  | findUser id =>
    cases r with
    | error e => exact .inl h
    | ok found =>
      obtain rfl : found = some user := h
      have hget := Except.ok.inj (respond_ok hexec)
      obtain ⟨hget, -⟩ := Option.filter_eq_some_iff.1 hget
      obtain ⟨hmem, rfl⟩ := Collection.get_eq_some_iff.1 hget
      exact .inr ⟨hmem, hpermits⟩
  | findActiveOffer id =>
    refine .inl ?_
    cases r with
    | error e => exact h
    | ok offer =>
      simp only [next] at h
      split at h <;> exact h
  | _ => cases r <;> exact .inl h

/-! ## Runs -/

variable {ok ok₀ : State → Step → Prop} {w₀ : World} {σ₀ σ : State}

/-- The user that a thread was authenticated as. -/
def authenticatedAs (σ : State) (t : ℕ) : Option User :=
  ((σ.trace t).foldr (fun e l => next l e.1 e.2) {}).user

theorem user_of_view {t : ℕ} {b : Bool}
    (h : (σ.config (Op.protocol lib) fun _ => {}).view t = some ⟨op, l, b⟩) : l.user = authenticatedAs σ t :=
  congrArg Phase.user (Pool.phase_of_view h)

/-- In every reachable pool the stored profiles are guarded, and a request has read its own user only,
with a guarded profile. -/
theorem known_of_reach (h₀ : w₀.Guarded) (h : (service lib).Reach ok (Pool.init w₀) σ) :
    σ.shared.Guarded ∧ ∀ t op l b, (σ.config (Op.protocol lib) fun _ => {}).view t = some ⟨op, l, b⟩ →
      ReadsOwn op l ∧ ∀ user, l.user = some user → user.body.Guarded := by
  refine System.Reach.known (G := fun _ _ => True) (J := fun _ _ (op : Op) (l : Phase) =>
    ReadsOwn op l ∧ ∀ user, l.user = some user → user.body.Guarded) Op.conforms .init h₀
    (fun t op l b hview => by cases hview) (fun _ _ _ => ?_) (fun _ _ _ _ _ _ hread => hread) ?_ ?_ h
  · exact ⟨fun user huser => (by cases huser), fun user huser => (by cases huser)⟩
  · rintro w t op l cmd o r w' hw ⟨hown, hread⟩ hpermits hexec
    refine ⟨trivial, ?_, fun user huser => ?_, fun user huser => ?_⟩
    · rcases exec_users hexec with husers | ⟨id, updates, old, rfl, -, -, hnew⟩
      · intro user huser
        rw [husers] at huser
        exact hw user huser
      · intro user huser
        rcases hnew user huser with rfl | hold
        · obtain ⟨-, read, _, _, _, _, huser, -, -, hbody⟩ := hpermits
          exact guarded_body (hread read huser) hbody
        · exact hw user hold
    · rcases user_next hpermits hexec huser with hold | ⟨-, hself⟩
      · exact hown user hold
      · exact hself
    · rcases user_next hpermits hexec huser with hold | ⟨hstored, -⟩
      · exact hread user hold
      · exact hw user hstored
  · intro w move hw
    cases move <;> exact ⟨trivial, hw⟩

/-- In every reachable pool a stored profile without consent has no measurements. -/
theorem measured_only_with_consent (h₀ : w₀.Guarded) (h : (service lib).Reach ok (Pool.init w₀) σ) :
    σ.shared.Guarded := (known_of_reach h₀ h).1

/-- The consent of the user is withdrawn: no stored profile has it, and no request in flight gives it or
was authenticated with it. -/
structure Withdrawn (userID : ObjectId) (σ : State) : Prop where
  stored : σ.shared.Withheld userID
  withholds : ∀ t op cmd, σ.next t = some (op, cmd) → op.withholds userID
  read : ∀ t op cmd user, σ.next t = some (op, cmd) → authenticatedAs σ t = some user → user.id = userID →
    user.body.consent = false

/-- What a thread that can still write knows. -/
def Harmless (userID : ObjectId) (op : Op) (l : Phase) : Prop :=
  op.withholds userID ∧ ∀ user, l.user = some user → user.id = userID → user.body.consent = false

/-- The write of a harmless request. -/
theorem withheld_exec {userID : ObjectId} (hw : w.Withheld userID) (hown : ReadsOwn op l)
    (hharmless : Harmless userID op l) (hpermits : Permits lib op l cmd)
    (hexec : cmd.exec lib o w = some (r, w')) : w'.Withheld userID := by
  rcases exec_users hexec with husers | ⟨id, updates, old, rfl, -, hold, hnew⟩
  · intro user huser
    rw [husers] at huser
    exact hw user huser
  · intro user huser hid
    rcases hnew user huser with rfl | hstored
    · obtain ⟨-, read, _, values, _, _, hread, hreadID, rfl, hbody⟩ := hpermits
      have huserID : read.id = userID := hreadID.trans (hold.symm.trans hid)
      have hop := of_decide_eq_true hharmless.1 ((Option.some.inj (hown read hread)).trans huserID)
      exact withheld_body (hharmless.2 read hread huserID) hop hbody
    · exact hw user hstored hid

/-- Once the consent of a user is withdrawn, and until a request is started that gives it, no pool that
is reached stores consent or a measurement of the user, whatever else happens. -/
theorem withdrawn_of_reach (userID : ObjectId) (h₀ : w₀.Guarded)
    (hinit : (service lib).Reach ok₀ (Pool.init w₀) σ₀) (hwithdrawn : Withdrawn userID σ₀)
    (hspawn : ∀ σ t op, ok σ (.spawn t op) → op.withholds userID) (h : (service lib).Reach ok σ₀ σ) :
    ∀ user ∈ σ.shared.users, user.id = userID →
      user.body.consent = false ∧ user.body.heightCm = none ∧ user.body.weightKg = none := by
  have hfrom : ∀ {ρ : State}, (service lib).Reach ok σ₀ ρ → (service lib).Reach (fun _ _ => True) (Pool.init w₀) ρ :=
    fun hρ => (hinit.mono fun _ _ _ => trivial).trans (hρ.mono fun _ _ _ => trivial)
  suffices hkept : σ.shared.Withheld userID by
    intro user huser hid
    have hconsent := hkept user huser hid
    exact ⟨hconsent, (known_of_reach h₀ (hfrom h)).1 user huser hconsent⟩
  -- a thread without a command at the start never writes, any other is harmless
  refine (System.Reach.invariant (I := fun cfg => cfg.shared.Withheld userID ∧ ∀ t op l,
      cfg.view t = some ⟨op, l, true⟩ →
        (σ₀.next t = none ∧ ∃ th, σ₀.threads t = some th) ∨ Harmless userID op l)
    Op.conforms (hinit.conforming Op.conforms .init) ⟨hwithdrawn.stored, ?_⟩ ?_ h).1
  · intro t op l hview
    cases hnext : σ₀.next t with
    | none =>
      obtain ⟨th, hth, -⟩ := Option.map_eq_some_iff.1 hview
      exact .inl ⟨rfl, th, hth⟩
    | some x =>
      obtain ⟨op', cmd⟩ := x
      obtain ⟨l', hview', -⟩ := (hinit.conforming Op.conforms .init).permits hnext
      obtain ⟨rfl, rfl, -⟩ := View.mk.inj (Option.some.inj (hview.symm.trans hview'))
      refine .inr ⟨hwithdrawn.withholds t op cmd hnext, fun user huser => ?_⟩
      exact hwithdrawn.read t op cmd user hnext (user_of_view hview ▸ huser)
  · rintro ρ l cfg hρ hok ⟨hstored, hthreads⟩ hstep
    have hupdate : ∀ {t : ℕ} {op : Op} {ph : Phase} {b : Bool}, (b = true →
          (σ₀.next t = none ∧ ∃ th, σ₀.threads t = some th) ∨ Harmless userID op ph) →
        ∀ u op' l', Function.update (ρ.config (Op.protocol lib) fun _ => {}).view t (some ⟨op, ph, b⟩) u =
          some ⟨op', l', true⟩ → (σ₀.next u = none ∧ ∃ th, σ₀.threads u = some th) ∨ Harmless userID op' l' := by
      intro t op ph b hnew u op' l' hu
      rcases View.of_update hu with ⟨rfl, rfl, rfl, rfl⟩ | ⟨-, hu⟩
      · exact hnew rfl
      · exact hthreads u op' l' hu
    cases hstep with
    | @spawn t op ht =>
      exact ⟨hstored, hupdate fun _ => .inr ⟨hspawn _ _ _ hok, fun user huser => by cases huser⟩⟩
    | @exec t o op ph cmd r w' hnext ht hpermits hexec =>
      have hharmless : Harmless userID op ph := by
        refine (hthreads t op ph ht).resolve_left fun hidle => ?_
        obtain ⟨hnone, th, hth⟩ := hidle
        rw [(System.Reach.next_eq_none hth hnone hρ).2] at hnext
        cases hnext
      refine ⟨withheld_exec hstored ((known_of_reach h₀ (hfrom hρ)).2 t op ph true ht).1 hharmless hpermits hexec,
        hupdate fun _ => .inr ⟨hharmless.1, fun user huser hid => ?_⟩⟩
      rcases user_next hpermits hexec huser with hold | ⟨hmem, -⟩
      · exact hharmless.2 user hold hid
      · exact hstored user hmem hid
    | @crash t op ph b ht => exact ⟨hstored, hupdate fun hfalse => by cases hfalse⟩
    | @env move => cases move <;> exact ⟨hstored, hthreads⟩

end Shopper

/-! ## A shopper who withdraws the consent -/

namespace Sample

namespace Shopper

open Stylme.Shopper

/-- A user with consent and measurements. -/
def measuredUser : Users :=
  ⟨[{ user 1 none with body := ⟨true, none, some 170, some 60, none⟩ }], List.nodup_singleton _, List.nodup_singleton _⟩

theorem guarded_measuredUser : (world measuredUser).Guarded := by
  intro user huser hconsent
  obtain rfl := List.mem_singleton.1 huser
  cases hconsent

/-- Only this thread starts. -/
def starts (t : ℕ) : Step → Bool
  | .spawn u _ => u = t
  | _ => true

/-- No request gives the consent of the first user. -/
def withholding : Step → Bool
  | .spawn _ op => op.withholds 1
  | _ => true

/-- The consent is withdrawn. -/
def withdrawal : List Step := .spawn 0 (.updateProfile 1 { consent := some (some false) } false) :: execs 0 (quiet 4)

/-- A request without consent asks to store a height, and another to store a name. -/
def afterWithdrawal : List Step :=
  .spawn 1 (.updateProfile 1 { heightCm := some (some 180) } false) ::
    .spawn 2 (.updateProfile 1 { fullName := some (some "Asha") } false) :: execs 1 (quiet 2) ++ execs 2 (quiet 4)

end Shopper

end Sample

namespace Shopper

theorem measured_only_with_consent_withdrawal : ∃ σ,
    (service Sample.Shopper.library).Reach (fun _ _ => True) (Pool.init (Sample.Shopper.world Sample.Shopper.measuredUser)) σ ∧
    (σ.shared.users.docs.any fun user => user.body.consent = false ∧ user.body.updatedAt.isSome) ∧ σ.shared.Guarded := by
  have hrun : ((service Sample.Shopper.library).runWhere (fun _ _ => True) Sample.Shopper.withdrawal
      (Pool.init (Sample.Shopper.world Sample.Shopper.measuredUser))).any fun σ => σ.shared.users.docs.any fun user =>
        user.body.consent = false ∧ user.body.updatedAt.isSome := by decide +kernel
  obtain ⟨σ, hreach, hcheck⟩ := System.Reach.exists_of_any hrun
  exact ⟨σ, hreach, hcheck, measured_only_with_consent Sample.Shopper.guarded_measuredUser hreach⟩

theorem withdrawn_of_reach_withdrawal : ∃ σ₀ σ,
    (service Sample.Shopper.library).Reach (fun _ l => Sample.Shopper.starts 0 l)
      (Pool.init (Sample.Shopper.world Sample.Shopper.measuredUser)) σ₀ ∧
    (service Sample.Shopper.library).Reach (fun _ l => Sample.Shopper.withholding l) σ₀ σ ∧
    (∀ user ∈ σ.shared.users, user.id = 1 →
      user.body.consent = false ∧ user.body.heightCm = none ∧ user.body.weightKg = none) := by
  have hrun : ((service Sample.Shopper.library).runWhere (fun _ l => Sample.Shopper.starts 0 l)
      Sample.Shopper.withdrawal (Pool.init (Sample.Shopper.world Sample.Shopper.measuredUser))).any fun σ₀ =>
        (σ₀.shared.users.docs.all fun user => user.body.consent = false) && (σ₀.next 0).isNone &&
          ((service Sample.Shopper.library).runWhere (fun _ l => Sample.Shopper.withholding l)
            Sample.Shopper.afterWithdrawal σ₀).isSome := by decide +kernel
  obtain ⟨σ₀, hreach, hcheck⟩ := System.Reach.exists_of_any hrun
  obtain ⟨hfirst, hrest⟩ := Bool.and_eq_true_iff.1 hcheck
  obtain ⟨hconsent, hdone⟩ := Bool.and_eq_true_iff.1 hfirst
  obtain ⟨σ, hσ⟩ := Option.isSome_iff_exists.1 hrest
  have hnext : ∀ t, σ₀.next t = none := fun t => by
    by_cases ht : t = 0
    · subst ht
      exact Option.isNone_iff_eq_none.1 hdone
    · exact Pool.next_eq_none (hreach.threads_eq_none fun _ _ hok => ht (of_decide_eq_true hok))
  have hwithdrawn : Withdrawn 1 σ₀ := by
    refine ⟨fun user huser _ => of_decide_eq_true (List.all_eq_true.1 hconsent user huser), ?_, ?_⟩
    · intro t op cmd hsome
      rw [hnext t] at hsome
      cases hsome
    · intro t op cmd user hsome
      rw [hnext t] at hsome
      cases hsome
  have hafter := System.Reach.of_runWhere .refl hσ
  exact ⟨σ₀, σ, hreach, hafter, withdrawn_of_reach 1 Sample.Shopper.guarded_measuredUser hreach hwithdrawn
    (fun _ _ _ hok => hok) hafter⟩

end Shopper

end Stylme
