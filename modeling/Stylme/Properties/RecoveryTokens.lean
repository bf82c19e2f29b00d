-- SUMMARY: When a recovery token that is resolved is a fresh one: exactly when no later change of the cart has extended the life of an older token.
import Stylme.Lib.Distinct
import Mathlib.Data.List.Nodup
import Mathlib.Data.List.TakeDrop
import Stylme.Shopper.Runs

/-!
# Recovery tokens

A checkout keeps the hashes of its last five tokens and one time of expiry, seven days
after the last change of the cart. An older token therefore lives as long as the newest
one, however long ago it was minted.
-/

namespace Stylme

open Conc Backend

namespace Shopper

variable {lib : Library}

/-- The tokens of the user's checkout, newest first. -/
def World.tokensOf (w : World) (userID : ObjectId) : List Minted := w.minted.filter (·.userID = userID)

/-! ## The rotating list -/

/-- The last of a reversed list are the first of the list. -/
theorem drop_reverse {α : Type} {l : List α} {n : ℕ} :
    l.reverse.drop (l.reverse.length - n) = (l.take n).reverse := by
  rw [List.drop_reverse, List.length_reverse]
  rcases Nat.le_total n l.length with hle | hle
  · rw [Nat.sub_sub_self hle]
  · rw [Nat.sub_eq_zero_of_le hle, Nat.sub_zero, List.take_length, List.take_of_length_le hle]

/-- The list of a checkout after a new token. -/
theorem lastDistinct_append {n : ℕ} {tokens more : List String} {a : String} (hnodup : tokens.Nodup)
    (hmore : ∀ b ∈ more, b ∈ tokens.take n) (hnew : a ∉ tokens.take n) :
    lastDistinct n (((tokens.take n).reverse ++ more) ++ [a]) = ((a :: tokens).take n).reverse := by
  have hdistinct : ((tokens.take n).reverse ++ more ++ [a]).eraseDups = (a :: tokens.take n).reverse := by
    rw [eraseDups_append_new (List.nodup_reverse.2 (hnodup.sublist (List.take_sublist ..)))
      (fun b hb => List.mem_reverse.2 (hmore b hb)) (fun h => hnew (List.mem_reverse.1 h)), List.reverse_cons]
  rw [lastDistinct, hdistinct, drop_reverse]
  cases n with
  | zero => rfl
  | succ n => rw [List.take_succ_cons, List.take_succ_cons, List.take_take, Nat.min_eq_left (Nat.le_succ n)]

/-! ## Tracked tokens -/

/-- The checkouts have the tokens that they were written with: the hashes of the last five, and the time
of expiry of the newest. -/
structure Tracked (lib : Library) (w : World) : Prop where
  issued : ∀ m ∈ w.minted, m.token ∈ w.issued
  distinct : (w.minted.map (·.token)).Nodup
  owned : ∀ m ∈ w.minted, (w.checkouts.get m.userID).isSome
  hashes : ∀ c ∈ w.checkouts, c.snapshot.recoveryTokenHashes =
    (((w.tokensOf c.userID).map fun m => lib.sha256 m.token).take 5).reverse
  newest : ∀ c ∈ w.checkouts, ∃ m, (w.tokensOf c.userID).head? = some m ∧
    c.snapshot.recoveryTokenHash = lib.sha256 m.token ∧
    c.snapshot.recoveryTokenExpiresAt = m.time + tokenLifetime

section Tracked

variable {w w' : World} {c : Checkout} {m m' : Minted}

theorem mem_tokensOf {userID : ObjectId} : m ∈ w.tokensOf userID ↔ m ∈ w.minted ∧ m.userID = userID := by
  rw [World.tokensOf, List.mem_filter, decide_eq_true_iff]

theorem Tracked.eq_of_token (h : Tracked lib w) (hm : m ∈ w.minted) (hm' : m' ∈ w.minted)
    (heq : m.token = m'.token) : m = m' := List.inj_on_of_nodup_map h.distinct hm hm' heq

theorem Tracked.nodup_hashes (h : Tracked lib w) (hinj : Function.Injective lib.sha256) (userID : ObjectId) :
    ((w.tokensOf userID).map fun m => lib.sha256 m.token).Nodup := by
  have htokens : ((w.tokensOf userID).map (·.token)).Nodup :=
    h.distinct.sublist (List.filter_sublist.map _)
  have hmap := htokens.map hinj
  rwa [List.map_map] at hmap

/-- The current hash is in the list. -/
theorem Tracked.hash_mem (h : Tracked lib w) (hc : c ∈ w.checkouts) :
    c.snapshot.recoveryTokenHash ∈ ((w.tokensOf c.userID).map fun m => lib.sha256 m.token).take 5 := by
  obtain ⟨m, hm, hhash, -⟩ := h.newest c hc
  obtain ⟨rest, hrest⟩ := List.head?_eq_some_iff.1 hm
  rw [hhash, hrest, List.map_cons, List.take_succ_cons]
  exact List.mem_cons_self

theorem tracked_of_kept (h : Tracked lib w) (hminted : w'.minted = w.minted)
    (hissued : ∀ text ∈ w.issued, text ∈ w'.issued)
    (howned : ∀ userID, (w.checkouts.get userID).isSome → (w'.checkouts.get userID).isSome)
    (hcheckouts : ∀ c' ∈ w'.checkouts, ∃ c ∈ w.checkouts, c'.userID = c.userID ∧ c'.snapshot = c.snapshot) :
    Tracked lib w' := by
  have htokens : ∀ userID, w'.tokensOf userID = w.tokensOf userID := fun userID => by
    rw [World.tokensOf, hminted, World.tokensOf]
  refine ⟨fun m hm => hissued _ (h.issued m (hminted ▸ hm)), hminted ▸ h.distinct, fun m hm =>
    howned _ (h.owned m (hminted ▸ hm)), fun c' hc' => ?_, fun c' hc' => ?_⟩
  · obtain ⟨c, hc, hid, hsnapshot⟩ := hcheckouts c' hc'
    rw [hid, hsnapshot, htokens]
    exact h.hashes c hc
  · obtain ⟨c, hc, hid, hsnapshot⟩ := hcheckouts c' hc'
    rw [hid, hsnapshot, htokens]
    exact h.newest c hc

/-- The list of a checkout that is written with a new token. -/
theorem Tracked.validHashes (h : Tracked lib w) (hinj : Function.Injective lib.sha256) {userID : ObjectId}
    {token : String} (hfresh : token ∉ w.issued) :
    validHashes (w.checkouts.get userID) (lib.sha256 token) =
      ((lib.sha256 token :: (w.tokensOf userID).map fun m => lib.sha256 m.token).take 5).reverse := by
  have hnew : lib.sha256 token ∉ ((w.tokensOf userID).map fun m => lib.sha256 m.token).take 5 := by
    intro hmem
    obtain ⟨m, hm, heq⟩ := List.mem_map.1 (List.mem_of_mem_take hmem)
    exact hfresh (hinj heq ▸ h.issued m (mem_tokensOf.1 hm).1)
  cases hget : w.checkouts.get userID with
  | none =>
    have hnone : w.tokensOf userID = [] := by
      refine List.filter_eq_nil_iff.2 fun m hm hid => ?_
      have howned := h.owned m hm
      rw [of_decide_eq_true hid, hget] at howned
      cases howned
    rw [hnone]
    rfl
  | some c =>
    obtain ⟨hc, rfl⟩ := Collection.get_eq_some_iff.1 hget
    rw [← lastDistinct_append (h.nodup_hashes hinj c.userID) _ hnew]
    · rw [Shopper.validHashes, Option.elim_some, h.hashes c hc]
    · intro b hb
      split at hb
      · obtain rfl := List.mem_singleton.1 hb
        exact h.hash_mem hc
      · cases hb

theorem tracked_of_renewed (h : Tracked lib w) (hinj : Function.Injective lib.sha256)
    (hrenewed : Renewed lib w w') : Tracked lib w' := by
  obtain ⟨userID, snapshot, token, -, hissued, hfresh, htoken, hreplace, hminted, hrenews⟩ := hrenewed
  have hid : (w.captured userID snapshot).userID = userID := captured_userID
  have hself : w'.tokensOf userID = ⟨userID, token, w.clock⟩ :: w.tokensOf userID := by
    rw [World.tokensOf, hminted]
    exact List.filter_cons_of_pos (by simp)
  have hother : ∀ {id : ObjectId}, id ≠ userID → w'.tokensOf id = w.tokensOf id := fun hne => by
    rw [World.tokensOf, hminted]
    exact List.filter_cons_of_neg (by simpa using hne.symm)
  have hmem : ∀ c ∈ w'.checkouts, c = w.captured userID snapshot ∨ (c ∈ w.checkouts ∧ c.userID ≠ userID) :=
    fun c hc => by simpa only [hid] using (Collection.mem_replaceOne hreplace).1 hc
  refine ⟨fun m hm => ?_, ?_, fun m hm => ?_, fun c hc => ?_, fun c hc => ?_⟩
  · rw [hminted] at hm
    rcases List.mem_cons.1 hm with rfl | hm
    · exact htoken
    · exact hissued _ (h.issued m hm)
  · rw [hminted, List.map_cons]
    refine List.nodup_cons.2 ⟨fun hmem => ?_, h.distinct⟩
    obtain ⟨m, hm, heq⟩ := List.mem_map.1 hmem
    have hissued := h.issued m hm
    rw [heq] at hissued
    exact hfresh hissued
  · rw [hminted] at hm
    rcases List.mem_cons.1 hm with rfl | hm
    · have hget := Collection.get_replaceOne_self hreplace
      rw [hid] at hget
      rw [hget]
      rfl
    · exact Collection.isSome_get_replaceOne hreplace (h.owned m hm)
  · rcases hmem c hc with rfl | ⟨hc, hne⟩
    · rw [captured_snapshot, hid, hself, hrenews.hashes, h.validHashes hinj hfresh, List.map_cons]
    · rw [hother hne]
      exact h.hashes c hc
  · rcases hmem c hc with rfl | ⟨hc, hne⟩
    · rw [captured_snapshot, hid, hself]
      exact ⟨_, rfl, hrenews.hash, hrenews.expiresAt⟩
    · rw [hother hne]
      exact h.newest c hc

end Tracked

/-! ## Resolving -/

/-- The checkout as it is answered. -/
def Checkout.clicked (time : Time) (c : Checkout) : Checkout := { c with recoveryClickedAt := some time }

section Resolve

variable {w : World} {token : String}

/-- What a resolution does: it finds a checkout by the hash, and marks it. -/
theorem resolveRecoveryToken_wp : Prog.wp (Cmd.exec lib) (fun r w' =>
      (w' = w ∨ ∃ c ∈ w.checkouts, ∃ checkouts, w.checkouts.replaceOne (c.clicked w.clock) = some checkouts ∧
        w' = { w with checkouts }) ∧
      ∀ found, r = .ok found →
        found = (w.checkouts.find? (·.resolves (lib.sha256 token) w.clock)).map (·.clicked w.clock))
      (resolveRecoveryToken lib token) w := by
  refine Raise.wp_ask_bind.2 fun o r w₁ hexec => ?_
  obtain ⟨rfl, rfl⟩ := Prod.mk.inj (Option.some.inj hexec)
  refine Raise.wp_ask.2 fun o r w' hexec => ?_
  simp only [Cmd.exec] at hexec
  split at hexec
  · rename_i hnone
    rw [hnone]
    obtain ⟨rfl, rfl | ⟨f, -, rfl⟩⟩ := respond_eq hexec
    · exact ⟨.inl rfl, fun found hfound => (Except.ok.inj hfound).symm⟩
    · exact ⟨.inl rfl, fun found hfound => by cases hfound⟩
  · rename_i c hsome
    obtain ⟨hc, -⟩ := Collection.find?_some hsome
    obtain ⟨checkouts, hreplace⟩ : ∃ checkouts, w.checkouts.replaceOne (c.clicked w.clock) = some checkouts :=
      Collection.replaceOne_of_mem hc rfl rfl
    have hw' : { w with checkouts :=
        (w.checkouts.replaceOne { c with recoveryClickedAt := some w.clock }).getD w.checkouts } =
        { w with checkouts } := by
      have hreplace' : w.checkouts.replaceOne { c with recoveryClickedAt := some w.clock } = some checkouts :=
        hreplace
      rw [hreplace']
      rfl
    rw [hsome]
    rcases perform_eq hexec with ⟨-, rfl, rfl⟩ | ⟨f, -, rfl, rfl⟩
    · exact ⟨.inr ⟨c, hc, checkouts, hreplace, hw'⟩, fun found hfound => (Except.ok.inj hfound).symm⟩
    · split
      · exact ⟨.inr ⟨c, hc, checkouts, hreplace, hw'⟩, fun found hfound => by cases hfound⟩
      · exact ⟨.inl rfl, fun found hfound => by cases hfound⟩

theorem tracked_of_clicked {w' : World} {c : Checkout} {time : Time} {checkouts : Checkouts}
    (h : Tracked lib w) (hc : c ∈ w.checkouts) (hreplace : w.checkouts.replaceOne (c.clicked time) = some checkouts)
    (hw' : w' = { w with checkouts }) : Tracked lib w' := by
  subst hw'
  refine tracked_of_kept h rfl (fun _ ht => ht) (fun userID hsome => ?_) fun c' hc' => ?_
  · exact Collection.isSome_get_replaceOne hreplace hsome
  · rcases (Collection.mem_replaceOne hreplace).1 hc' with rfl | ⟨hc', -⟩
    · exact ⟨c, hc, rfl, rfl⟩
    · exact ⟨c', hc', rfl, rfl⟩

end Resolve

/-! ## Histories -/

section History

variable {w w' w₀ : World} {h : List (Turn Op Oracle Reply World)}

theorem tracked_of_tokens (hinj : Function.Injective lib.sha256) (htracked : Tracked lib w)
    (htokens : Tokens lib w w') : Tracked lib w' := by
  rcases htokens with hkept | hrenewed
  · refine tracked_of_kept htracked hkept.minted hkept.issued (fun _ hsome => hkept.checkouts ▸ hsome) ?_
    exact fun c hc => ⟨c, hkept.checkouts ▸ hc, rfl, rfl⟩
  · exact tracked_of_renewed htracked hinj hrenewed

/-- A request without a cart for an answer resolves a token or writes no checkout. -/
theorem tracked_of_run (hinj : Function.Injective lib.sha256) (htracked : Tracked lib w) {op : Op}
    {os : List Oracle} {reply : Reply} (hrun : (op.prog lib).run (Cmd.exec lib) os w = some (reply, w')) :
    Tracked lib w' := by
  cases op with
  | resolveRecoveryToken token =>
    have hwp : Prog.wp (Cmd.exec lib) (fun _ w' => Tracked lib w') ((Op.resolveRecoveryToken token).prog lib) w := by
      refine Prog.wp_bind.2 (Prog.wp_mono (fun r w' hr => ?_) resolveRecoveryToken_wp)
      rcases hr.1 with rfl | ⟨c, hc, checkouts, hreplace, hw'⟩
      · exact htracked
      · exact tracked_of_clicked htracked hc hreplace hw'
    exact Prog.wp_sound (Q := fun _ w' => Tracked lib w') hwp hrun
  | updateProfile userID values completeOnboarding =>
    have hleaves : Leaves lib (authenticated userID (Shopper.updateProfile lib · values completeOnboarding)) := by
      refine leaves_bind (leaves_respond fun o w => ⟨_, rfl⟩) fun user => ?_
      cases user with
      | none => exact leaves_of_done rfl
      | some user => exact updateProfile_leaves
    have hwp : Prog.wp (Cmd.exec lib) (fun _ w' => TokensKept w w')
        ((Op.updateProfile userID values completeOnboarding).prog lib) w :=
      Prog.wp_bind.2 (Prog.wp_mono (fun _ _ hr => hr) (hleaves w))
    exact tracked_of_tokens hinj htracked
      (.inl (Prog.wp_sound (Q := fun _ w' => TokensKept w w') hwp hrun))
  | _ =>
    obtain ⟨r, rfl⟩ := exists_cart_of_run rfl hrun
    have houtcome : ∃ k, Op.CartOutcome lib (fun _ _ => True) w _ r (k, w') :=
      cartOutcome_of_run (fun _ _ _ => trivial) hrun
    obtain ⟨k, ⟨-, rfl⟩ | ⟨user, -, -, htokens, -⟩⟩ := houtcome
    · exact htracked
    · exact tracked_of_tokens hinj htracked htokens

/-- Every history tracks the tokens. -/
theorem tracked_of_history (hinj : Function.Injective lib.sha256) (hinit : Tracked lib w₀)
    (hs : (service lib).History w₀ h w) : Tracked lib w := by
  refine System.History.invariant (I := fun _ w => Tracked lib w) hinit ?_ ?_ hs
  · intro h w move htracked
    cases move with
    | tick passed => exact ⟨htracked.issued, htracked.distinct, htracked.owned, htracked.hashes, htracked.newest⟩
    | restock catalogue =>
      exact ⟨htracked.issued, htracked.distinct, htracked.owned, htracked.hashes, htracked.newest⟩
  · intro h w op os reply w' htracked hrun
    exact tracked_of_run hinj htracked hrun

/-! ## Main results -/

/-- The token was minted for the checkout at most seven days ago, and at most four have been since. -/
def Fresh (w : World) (token : String) (c : Checkout) : Prop :=
  ∃ m ∈ (w.tokensOf c.userID).take 5, m.token = token ∧ w.clock ≤ m.time + tokenLifetime

/-- The token was minted more than seven days ago, and the checkout still takes it: at most four tokens
have been minted since, the last of them less than seven days ago, and there is something to pay for. -/
def Overdue (w : World) (token : String) : Prop :=
  ∃ c ∈ w.checkouts, ∃ m ∈ (w.tokensOf c.userID).take 5, m.token = token ∧
    m.time + tokenLifetime < w.clock ∧
    (∃ newest, (w.tokensOf c.userID).head? = some newest ∧ w.clock < newest.time + tokenLifetime) ∧
    c.snapshot.paymentStatus = "unpaid" ∧ 0 < c.snapshot.itemCount

/-- The query for a token finds the checkouts that have it among their last five. -/
theorem resolves_iff {c : Checkout} {token : String} (hinj : Function.Injective lib.sha256)
    (htracked : Tracked lib w) (hc : c ∈ w.checkouts) : c.resolves (lib.sha256 token) w.clock ↔
      (∃ m ∈ (w.tokensOf c.userID).take 5, m.token = token) ∧
        (∃ newest, (w.tokensOf c.userID).head? = some newest ∧ w.clock < newest.time + tokenLifetime) ∧
        c.snapshot.paymentStatus = "unpaid" ∧ 0 < c.snapshot.itemCount := by
  have hmem : (c.snapshot.recoveryTokenHash = lib.sha256 token ∨
      lib.sha256 token ∈ c.snapshot.recoveryTokenHashes) ↔
        ∃ m ∈ (w.tokensOf c.userID).take 5, m.token = token := by
    have hlist : lib.sha256 token ∈ c.snapshot.recoveryTokenHashes ↔
        ∃ m ∈ (w.tokensOf c.userID).take 5, m.token = token := by
      rw [htracked.hashes c hc, List.mem_reverse, ← List.map_take, List.mem_map]
      exact exists_congr fun m => and_congr_right fun _ => hinj.eq_iff
    have hcurrent : c.snapshot.recoveryTokenHash ∈ c.snapshot.recoveryTokenHashes := by
      rw [htracked.hashes c hc, List.mem_reverse]
      exact htracked.hash_mem hc
    rw [← hlist]
    exact ⟨fun h => h.elim (fun heq => heq ▸ hcurrent) id, .inr⟩
  have hexpires : w.clock < c.snapshot.recoveryTokenExpiresAt ↔
      ∃ newest, (w.tokensOf c.userID).head? = some newest ∧ w.clock < newest.time + tokenLifetime := by
    obtain ⟨m, hm, -, hexpires⟩ := htracked.newest c hc
    rw [hexpires, hm]
    simp
  rw [Checkout.resolves, decide_eq_true_iff, hmem, hexpires]

/-- After every history, a resolution answers only with a checkout for which the token is fresh, exactly
when the token is not overdue. -/
theorem resolves_fresh_iff {os : List Oracle} {token : String} {found : Option Checkout}
    (hinj : Function.Injective lib.sha256) (hempty : w₀.checkouts.docs = []) (hnone : w₀.minted = [])
    (hs : (service lib).History w₀ h w)
    (hrun : ((Op.resolveRecoveryToken token).prog lib).run (Cmd.exec lib) os w =
      some (.checkout (.ok found), w')) :
    (∀ c, found = some c → Fresh w token c) ↔ ¬ Overdue w token := by
  have hinit : Tracked lib w₀ := by
    refine ⟨?_, ?_, ?_, ?_, ?_⟩
    · rw [hnone]
      exact fun m hm => absurd hm List.not_mem_nil
    · rw [hnone]
      exact List.nodup_nil
    · rw [hnone]
      exact fun m hm => absurd hm List.not_mem_nil
    · exact fun c hc => absurd (hempty ▸ hc : c ∈ []) List.not_mem_nil
    · exact fun c hc => absurd (hempty ▸ hc : c ∈ []) List.not_mem_nil
  have htracked := tracked_of_history hinj hinit hs
  have hfound : found = (w.checkouts.find? (·.resolves (lib.sha256 token) w.clock)).map (·.clicked w.clock) := by
    have hwp : Prog.wp (Cmd.exec lib) (fun reply _ => ∀ found, reply = .checkout (.ok found) →
        found = (w.checkouts.find? (·.resolves (lib.sha256 token) w.clock)).map (·.clicked w.clock))
        ((Op.resolveRecoveryToken token).prog lib) w :=
      Prog.wp_bind.2 (Prog.wp_mono (fun r w' hr found heq => hr.2 found (Reply.checkout.inj heq))
        resolveRecoveryToken_wp)
    exact Prog.wp_sound hwp hrun found rfl
  have hunique : ∀ {c c' : Checkout} {m m' : Minted}, m ∈ (w.tokensOf c.userID).take 5 →
      m' ∈ (w.tokensOf c'.userID).take 5 → m.token = token → m'.token = token → m = m' := fun hm hm' h h' =>
    htracked.eq_of_token (mem_tokensOf.1 (List.mem_of_mem_take hm)).1
      (mem_tokensOf.1 (List.mem_of_mem_take hm')).1 (h.trans h'.symm)
  constructor
  · rintro hfresh ⟨c, hc, m, hm, htoken, hold, hnewest, hunpaid, hitems⟩
    have hresolves := (resolves_iff hinj htracked hc).2 ⟨⟨m, hm, htoken⟩, hnewest, hunpaid, hitems⟩
    cases hfind : w.checkouts.find? (·.resolves (lib.sha256 token) w.clock) with
    | none => exact Collection.find?_none hfind hc hresolves
    | some c' =>
      rw [hfind] at hfound
      obtain ⟨m', hm', htoken', hyoung⟩ := hfresh _ hfound
      obtain rfl : m = m' := @hunique c c' _ _ hm hm' htoken htoken'
      exact absurd hyoung (not_le.2 hold)
  · intro hyoung c hsome
    rw [hfound] at hsome
    obtain ⟨c', hfind, rfl⟩ := Option.map_eq_some_iff.1 hsome
    obtain ⟨hc', hresolves⟩ := Collection.find?_some hfind
    obtain ⟨⟨m, hm, htoken⟩, hnewest, hunpaid, hitems⟩ := (resolves_iff hinj htracked hc').1 hresolves
    exact ⟨m, hm, htoken, not_lt.1 fun hold =>
      hyoung ⟨c', hc', m, hm, htoken, hold, hnewest, hunpaid, hitems⟩⟩

/-- The checkout that a resolution in which nothing fails answers with. -/
def World.resolution (lib : Library) (w : World) (token : String) : Option Checkout :=
  match ((Op.resolveRecoveryToken token).prog lib).run (Cmd.exec lib) (Sample.Shopper.quiet 2) w with
  | some (.checkout (.ok found), _) => found
  | _ => none

theorem run_of_resolution {token : String} {c : Checkout} (h : w.resolution lib token = some c) :
    ∃ w', ((Op.resolveRecoveryToken token).prog lib).run (Cmd.exec lib) (Sample.Shopper.quiet 2) w =
      some (.checkout (.ok (some c)), w') := by
  rw [World.resolution] at h
  split at h
  · rename_i found w' hrun
    exact ⟨w', hrun.trans (by rw [h])⟩
  · cases h

/-- The token of an addition resolves on the same day. -/
theorem resolves_fresh_added : ∃ h w c,
    (service Sample.Shopper.library).History (Sample.Shopper.world Sample.Shopper.oneUser) h w ∧
    w.resolution Sample.Shopper.library "1" = some c ∧ Fresh w "1" c := by
  have hrun : ((service Sample.Shopper.library).history
      [.inr (Sample.Shopper.add 1 Sample.Shopper.one, Sample.Shopper.adding 1 0), .inl (.tick (60 * minute).toNat)]
      [] (Sample.Shopper.world Sample.Shopper.oneUser)).any fun x =>
        (x.2.resolution Sample.Shopper.library "1").isSome ∧
          x.2.minted.all fun m => x.2.clock ≤ m.time + tokenLifetime := by decide +kernel
  obtain ⟨h, w, hs, hcheck⟩ := System.History.exists_of_any hrun
  obtain ⟨hsome, hyoung⟩ := of_decide_eq_true hcheck
  obtain ⟨c, hc⟩ := Option.isSome_iff_exists.1 hsome
  obtain ⟨w', hresolve⟩ := run_of_resolution hc
  have hnot : ¬ Overdue w "1" := by
    rintro ⟨c, -, m, hm, -, hold, -⟩
    have hle := List.all_eq_true.1 hyoung m (mem_tokensOf.1 (List.mem_of_mem_take hm)).1
    exact absurd (of_decide_eq_true hle) (not_le.2 hold)
  exact ⟨h, w, c, hs, hc,
    (resolves_fresh_iff Function.injective_id rfl rfl hs hresolve).2 hnot c rfl⟩

/-- A token of twelve days ago resolves, because the cart was changed six days ago. -/
theorem not_resolves_fresh : ∃ h w c,
    (service Sample.Shopper.library).History (Sample.Shopper.world Sample.Shopper.oneUser) h w ∧
    w.resolution Sample.Shopper.library "1" = some c ∧ ¬ Fresh w "1" c := by
  have hrun : ((service Sample.Shopper.library).history
      [.inr (Sample.Shopper.add 1 Sample.Shopper.one, Sample.Shopper.adding 1 0),
        .inl (.tick (6 * 24 * 60 * minute).toNat),
        .inr (Sample.Shopper.add 1 Sample.Shopper.one, Sample.Shopper.adding 1 2),
        .inl (.tick (6 * 24 * 60 * minute).toNat)]
      [] (Sample.Shopper.world Sample.Shopper.oneUser)).any fun x =>
        (x.2.resolution Sample.Shopper.library "1").isSome ∧
          x.2.minted.all fun m => m.token = "1" → m.time + tokenLifetime < x.2.clock := by decide +kernel
  obtain ⟨h, w, hs, hcheck⟩ := System.History.exists_of_any hrun
  obtain ⟨hsome, hold⟩ := of_decide_eq_true hcheck
  obtain ⟨c, hc⟩ := Option.isSome_iff_exists.1 hsome
  refine ⟨h, w, c, hs, hc, ?_⟩
  rintro ⟨m, hm, htoken, hyoung⟩
  have hlt := List.all_eq_true.1 hold m (mem_tokensOf.1 (List.mem_of_mem_take hm)).1
  exact absurd hyoung (not_le.2 (of_decide_eq_true hlt htoken))

end History

end Shopper

end Stylme
