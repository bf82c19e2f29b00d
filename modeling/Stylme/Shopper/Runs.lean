-- SUMMARY: What the requests on a cart do when each runs alone: what they read, what they write, and how the rest may fail.
import Stylme.Lib.Numbered
import Stylme.Shopper.System

/-!
# Cart requests alone

Up to its write a request only reads: it comes out as a function of the store, or fails
with a command. After the write the cart is shown and the checkout is captured, which
can fail on a command, on the encryption, and on the phone number of another checkout.
-/

namespace Stylme

open Conc Backend

namespace Shopper

/-! ## Reading -/

/-- No command from number `k` on fails. -/
def Reliable (allow : ℕ → Oracle → Prop) (k : ℕ) : Prop := ∀ j, k ≤ j → ∀ o, allow j o → o.fault = none

theorem Reliable.mono {allow : ℕ → Oracle → Prop} {k j : ℕ} (h : Reliable allow k) (hle : k ≤ j) :
    Reliable allow j := fun i hi => h i (hle.trans hi)

section Reads

variable (lib : Library) (allow : ℕ → Oracle → Prop) [∀ k o, Decidable (allow k o)]
variable {α β : Type}

/-- From command `k` on, the coroutine leaves the store and comes out as `r`, unless a command fails.
What is said of the number of the command after it is said for a value only. -/
def Reads (k : ℕ) (w : World) (after : ℕ → Prop) (p : Py α) (r : Except PyErr α) : Prop :=
  Prog.wp (numbered allow (Cmd.exec lib)) (fun r' s => s.2 = w ∧
    (r' = r ∧ (∀ a, r = .ok a → after s.1) ∨ ¬ Reliable allow k ∧ ∃ e, r' = .error e)) p (k, w)

variable {lib allow} {k : ℕ} {w : World} {after after' : ℕ → Prop}

theorem reads_pure {a : α} (h : after k) : Reads lib allow k w after (pure a : Py α) (.ok a) :=
  ⟨rfl, .inl ⟨rfl, fun _ _ => h⟩⟩

theorem reads_throw {e : PyErr} : Reads lib allow k w after (throw e : Py α) (.error e) :=
  ⟨rfl, .inl ⟨rfl, nofun⟩⟩

theorem Reads.mono {p : Py α} {r : Except PyErr α} (h : Reads lib allow k w after p r)
    (hafter : ∀ j, after j → after' j) : Reads lib allow k w after' p r :=
  Prog.wp_mono (fun _ _ ⟨hw, hr⟩ =>
    ⟨hw, hr.imp_left fun ⟨hr, hj⟩ => ⟨hr, fun a ha => hafter _ (hj a ha)⟩⟩) h

theorem reads_ask {cmd : Cmd} {a : Answer cmd} (h : ∀ o, cmd.exec lib o w = respond o.fault (.ok a) w) :
    Reads lib allow k w (· = k + 1) (Raise.ask cmd) (.ok a) := by
  refine Raise.wp_ask.2 fun o r s hrun => ?_
  obtain ⟨hallow, w', hexec, rfl⟩ := numbered_eq_some_iff.1 hrun
  rw [h] at hexec
  obtain ⟨rfl, hr | ⟨f, hf, rfl⟩⟩ := respond_eq hexec
  · exact ⟨rfl, .inl ⟨hr, fun _ _ => rfl⟩⟩
  · refine ⟨rfl, .inr ⟨fun hreliable => ?_, _, rfl⟩⟩
    rw [hreliable k le_rfl o hallow] at hf
    cases hf

theorem reads_now : Reads lib allow k w (· = k + 1) (Raise.ask Cmd.now) (.ok w.clock) := by
  refine Raise.wp_ask.2 fun o r s hrun => ?_
  obtain ⟨-, w', hexec, rfl⟩ := numbered_eq_some_iff.1 hrun
  obtain ⟨rfl, rfl⟩ := Prod.mk.inj (Option.some.inj hexec)
  exact ⟨rfl, .inl ⟨rfl, fun _ _ => rfl⟩⟩

/-- What follows a coroutine that reads. -/
theorem wp_of_reads {p : Py α} {r : Except PyErr α} {f : α → Py β}
    {Q : Except PyErr β → ℕ × World → Prop} (h : Reads lib allow k w after p r)
    (hok : ∀ a j, r = .ok a → after j → Prog.wp (numbered allow (Cmd.exec lib)) Q (f a) (j, w))
    (herror : ∀ e j, r = .error e ∨ ¬ Reliable allow k → Q (.error e) (j, w)) :
    Prog.wp (numbered allow (Cmd.exec lib)) Q (p >>= f : Py β) (k, w) := by
  refine Raise.wp_bind.2 (Prog.wp_mono ?_ h)
  rintro r' ⟨j, w'⟩ ⟨rfl, ⟨rfl, hj⟩ | ⟨hfails, e, rfl⟩⟩
  · cases r' with
    | ok a => exact hok a j rfl (hj a rfl)
    | error e => exact herror e j (.inl rfl)
  · exact herror e j (.inr hfails)

theorem reads_bind {p : Py α} {a : α} {f : α → Py β} {r : Except PyErr β}
    (h : Reads lib allow k w after p (.ok a)) (hle : ∀ j, after j → k ≤ j)
    (hf : ∀ j, after j → Reads lib allow j w after' (f a) r) : Reads lib allow k w after' (p >>= f) r := by
  refine wp_of_reads h (fun a' j ha hj => ?_) fun e j he => ?_
  · obtain rfl := Except.ok.inj ha
    exact Prog.wp_mono (fun _ _ ⟨hw, hr⟩ =>
      ⟨hw, hr.imp_right fun ⟨hfails, he⟩ => ⟨fun h => hfails (h.mono (hle j hj)), he⟩⟩) (hf j hj)
  · exact ⟨rfl, .inr ⟨he.resolve_left nofun, e, rfl⟩⟩

theorem reads_bind_error {p : Py α} {e : PyErr} {f : α → Py β}
    (h : Reads lib allow k w after p (.error e)) : Reads lib allow k w after' (p >>= f) (.error e) := by
  refine wp_of_reads h (fun a j ha => nomatch ha) fun e' j he => ?_
  rcases he with he | hfails
  · exact ⟨rfl, .inl ⟨congrArg Except.error (Except.error.inj he).symm, nofun⟩⟩
  · exact ⟨rfl, .inr ⟨hfails, e', rfl⟩⟩

theorem reads_pure_bind {a : α} {f : α → Py β} {r : Except PyErr β}
    (h : Reads lib allow k w after (f a) r) : Reads lib allow k w after (pure a >>= f : Py β) r :=
  Raise.wp_bind.2 h

theorem reads_ask_bind {cmd : Cmd} {a : Answer cmd} {f : Answer cmd → Py β} {r : Except PyErr β}
    (h : ∀ o, cmd.exec lib o w = respond o.fault (.ok a) w)
    (hf : Reads lib allow (k + 1) w after' (f a) r) :
    Reads lib allow k w after' (Raise.ask cmd >>= f) r :=
  reads_bind (reads_ask h) (fun _ hj => hj ▸ Nat.le_succ k) fun _ hj => hj ▸ hf

end Reads

/-! ## What the store shows -/

namespace Catalogue

variable (lib : Library) (catalogue : Catalogue)

/-- The offer if it is active. -/
def offer? (id : ObjectId) : Option Offer := (catalogue.offers.get id).filter (·.status = "active")

/-- The product if it is active. -/
def product? (id : ObjectId) : Option Product := (catalogue.products.get id).filter (·.status = "active")

/-- The selection that `_validated_selection` makes in one store. -/
def selection (offerID variantID : String) : Except PyErr (Offer × Variant) :=
  match lib.parseID offerID with
  | none => .error (.httpException 422 ("Invalid " ++ "offerId"))
  | some id =>
    match catalogue.offer? id with
    | none => .error (.httpException 404 "Offer is unavailable")
    | some offer =>
      match offer.variant? variantID with
      | none => .error (.httpException 422 "The selected variant does not belong to this offer")
      | some variant =>
        if offer.stock variantID < 1 then .error (.httpException 409 "The selected variant is out of stock")
        else if ((catalogue.products.get offer.productID).filter fun p =>
              p.status = "active" ∧ p.visibility = "public").isNone ∨
            ((catalogue.sellers.get offer.sellerID).filter (·.status = "approved")).isNone then
          .error (.httpException 409 "This product is no longer purchasable")
        else .ok (offer, variant)

/-- The line of an entry, if it is still sold. -/
def line? (item : CartItem) : Option PublicItem :=
  match catalogue.offer? item.offerID with
  | none => none
  | some offer =>
    match offer.variant? item.variantID, catalogue.product? offer.productID with
    | some variant, some product =>
      some (publicItem lib item offer variant product (variant.colorID.bind catalogue.colors.get))
    | _, _ => none

/-- What is shown of a cart. -/
def shown (cart : Option Cart) : PublicCart :=
  let items := (cart.elim [] (·.items)).filterMap (catalogue.line? lib)
  { items
    itemCount := (items.map (·.quantity)).sum
    subtotalPaise := (items.map (·.lineTotalPaise)).sum
    updatedAt := cart.map (·.updatedAt) }

end Catalogue

section Shown

variable {lib : Library} {allow : ℕ → Oracle → Prop} [∀ k o, Decidable (allow k o)]
variable {k : ℕ} {w : World}

theorem validatedSelection_reads {offerID variantID : String} :
    Reads lib allow k w (· = k + 3) (validatedSelection lib offerID variantID)
      (w.catalogue.selection lib offerID variantID) := by
  unfold validatedSelection Catalogue.selection oid
  cases lib.parseID offerID with
  | none =>
    have hthrow : ∀ {e : PyErr}, Reads lib allow k w (· = k) (throw e : Py ObjectId) (.error e) := reads_throw
    exact reads_bind_error hthrow
  | some id =>
    refine reads_pure_bind (reads_ask_bind (a := w.catalogue.offer? id) (fun _ => rfl) ?_)
    dsimp only
    cases w.catalogue.offer? id with
    | none => exact reads_throw
    | some offer =>
      dsimp only
      cases offer.variant? variantID with
      | none => exact reads_throw
      | some variant =>
        dsimp only
        split
        · exact reads_throw
        · refine reads_ask_bind (fun _ => rfl) (reads_ask_bind (fun _ => rfl) ?_)
          split
          · exact reads_throw
          · exact reads_pure rfl

theorem publicItem?_reads {item : CartItem} :
    Reads lib allow k w (k ≤ ·) (publicItem? lib item) (.ok (w.catalogue.line? lib item)) := by
  unfold publicItem? Catalogue.line?
  refine reads_ask_bind (a := w.catalogue.offer? item.offerID) (fun _ => rfl) ?_
  cases w.catalogue.offer? item.offerID with
  | none => exact reads_pure (Nat.le_succ k)
  | some offer =>
    refine reads_ask_bind (a := w.catalogue.product? offer.productID) (fun _ => rfl) ?_
    dsimp only
    cases offer.variant? item.variantID with
    | none => exact reads_pure (Nat.le_add_right k 2)
    | some variant =>
      cases w.catalogue.product? offer.productID with
      | none => exact reads_pure (Nat.le_add_right k 2)
      | some product => exact reads_ask_bind (fun _ => rfl) (reads_pure (Nat.le_add_right k 3))

theorem publicItems_reads {items : List CartItem} :
    Reads lib allow k w (k ≤ ·) (publicItems lib items) (.ok (items.filterMap (w.catalogue.line? lib))) := by
  induction items generalizing k with
  | nil => exact reads_pure le_rfl
  | cons item items ih =>
    refine reads_bind publicItem?_reads (fun _ hj => hj) fun j hj => ?_
    refine reads_bind ih (fun _ hi => hi) fun i hi => ?_
    rw [List.filterMap_cons]
    cases w.catalogue.line? lib item with
    | none => exact reads_pure (hj.trans hi)
    | some line => exact reads_pure (hj.trans hi)

theorem getCart_reads {userID : ObjectId} :
    Reads lib allow k w (k ≤ ·) (getCart lib userID) (.ok (w.catalogue.shown lib (w.carts.get userID))) := by
  refine reads_ask_bind (fun _ => rfl) ?_
  exact reads_bind publicItems_reads (fun _ hj => hj) fun j hj => reads_pure (Nat.le_of_succ_le hj)

end Shown

/-! ## Capturing the checkout -/

/-- The checkout of another user has the phone number of the user. -/
def World.phoneTaken (lib : Library) (w : World) (user : User) : Prop :=
  ∃ c ∈ w.checkouts, c.userID ≠ user.id ∧ ∃ phone,
    Recovery.normalizeE164 lib.toLibrary user.phone = some phone ∧ c.snapshot.contactPhone = some phone

/-- The snapshot is of what is shown of the cart. -/
structure Snapshot.Captures (snapshot : Snapshot) (shown : PublicCart) : Prop where
  items : snapshot.items = shown.items.map itemSnapshot
  itemCount : snapshot.itemCount = (snapshot.items.map (·.quantity)).sum
  value : snapshot.cartValuePaise = max 0 (intOr shown.subtotalPaise 0)
  status : snapshot.status = "empty" ↔ snapshot.items = []

/-- The checkout of the user is a snapshot of what is shown. -/
def World.Captured (w : World) (user : User) (shown : PublicCart) : Prop :=
  ∃ checkout, w.checkouts.get user.id = some checkout ∧ checkout.snapshot.Captures shown

/-- Nothing goes wrong from command `k` on: no command, not the encryption, not the phone number. -/
structure Secure (lib : Library) (allow : ℕ → Oracle → Prop) (k : ℕ) (w : World) (user : User) : Prop where
  reliable : Reliable allow k
  key : 32 ≤ lib.keyMaterial.length
  phone : ¬ w.phoneTaken lib user

/-! ## What a request leaves of the store -/

/-- The checkouts and their tokens are as before; random texts may have been drawn. -/
structure TokensKept (w w' : World) : Prop where
  clock : w'.clock = w.clock
  checkouts : w'.checkouts = w.checkouts
  minted : w'.minted = w.minted
  issued : ∀ text ∈ w.issued, text ∈ w'.issued

theorem TokensKept.rfl {w : World} : TokensKept w w := ⟨Eq.refl _, Eq.refl _, Eq.refl _, fun _ h => h⟩

theorem TokensKept.trans {w w₁ w' : World} (h : TokensKept w w₁) (h' : TokensKept w₁ w') : TokensKept w w' :=
  ⟨h'.clock.trans h.clock, h'.checkouts.trans h.checkouts, h'.minted.trans h.minted,
    fun text htext => h'.issued text (h.issued text htext)⟩

theorem TokensKept.captured {w w' : World} {userID : ObjectId} {snapshot : Snapshot} (h : TokensKept w w') :
    w'.captured userID snapshot = w.captured userID snapshot := by
  rw [World.captured, h.checkouts, World.captured]

/-- What a snapshot says of its token, after a checkout with the previous tokens. -/
structure Snapshot.Renews (lib : Library) (snapshot : Snapshot) (previous : Option Checkout) (token : String)
    (time : Time) : Prop where
  hash : snapshot.recoveryTokenHash = lib.sha256 token
  hashes : snapshot.recoveryTokenHashes = validHashes previous (lib.sha256 token)
  expiresAt : snapshot.recoveryTokenExpiresAt = time + tokenLifetime

/-- One checkout has been written, with a token that had not been issued before. -/
def Renewed (lib : Library) (w w' : World) : Prop := ∃ userID snapshot token,
  w'.clock = w.clock ∧ (∀ text ∈ w.issued, text ∈ w'.issued) ∧ token ∉ w.issued ∧ token ∈ w'.issued ∧
    w.checkouts.replaceOne (w.captured userID snapshot) = some w'.checkouts ∧
    w'.minted = ⟨userID, token, w.clock⟩ :: w.minted ∧
    snapshot.Renews lib (w.checkouts.get userID) token w.clock

/-- A request writes at most one checkout. -/
def Tokens (lib : Library) (w w' : World) : Prop := TokensKept w w' ∨ Renewed lib w w'

theorem TokensKept.tokens {lib : Library} {w w₁ w' : World} (h : TokensKept w w₁) (h' : Tokens lib w₁ w') :
    Tokens lib w w' := by
  refine h'.imp h.trans ?_
  rintro ⟨userID, snapshot, token, hclock, hissued, hfresh, htoken, hreplace, hminted, hrenews⟩
  rw [h.captured, h.checkouts] at hreplace
  rw [h.clock, h.minted] at hminted
  rw [h.clock, h.checkouts] at hrenews
  exact ⟨userID, snapshot, token, hclock.trans h.clock, fun text ht => hissued text (h.issued text ht),
    fun ht => hfresh (h.issued token ht), htoken, hreplace, hminted, hrenews⟩

/-- The carts are as before, too. -/
structure Idle (w w' : World) : Prop extends TokensKept w w' where
  carts : w'.carts = w.carts

theorem Idle.rfl {w : World} : Idle w w := ⟨.rfl, Eq.refl _⟩

theorem Idle.trans {w w₁ w' : World} (h : Idle w w₁) (h' : Idle w₁ w') : Idle w w' :=
  ⟨h.toTokensKept.trans h'.toTokensKept, h'.carts.trans h.carts⟩

section Capture

variable {lib : Library} {allow : ℕ → Oracle → Prop} [∀ k o, Decidable (allow k o)]
variable {k : ℕ} {w : World} {α β : Type} {user : User}

/-- The coroutine leaves the carts and the checkouts, and fails only with a command or the encryption. -/
def Prepares (lib : Library) (allow : ℕ → Oracle → Prop) [∀ k o, Decidable (allow k o)] (k : ℕ) (w : World)
    (p : Py α) : Prop :=
  Prog.wp (numbered allow (Cmd.exec lib)) (fun r s => Idle w s.2 ∧
    Raise.Post (fun _ s => k ≤ s.1) (fun _ _ => ¬ (Reliable allow k ∧ 32 ≤ lib.keyMaterial.length)) r s) p (k, w)

theorem prepares_ask {cmd : Cmd} (h : ∀ o r w', cmd.exec lib o w = some (r, w') →
      Idle w w' ∧ ∀ e, r = .error e → o.fault ≠ none ∨ lib.keyMaterial.length < 32) :
    Prepares lib allow k w (Raise.ask cmd) := by
  refine Raise.wp_ask.2 fun o r s hrun => ?_
  obtain ⟨hallow, w', hexec, rfl⟩ := numbered_eq_some_iff.1 hrun
  obtain ⟨hidle, herror⟩ := h o r w' hexec
  refine ⟨hidle, ?_⟩
  cases r with
  | ok a => exact Nat.le_succ k
  | error e =>
    rintro ⟨hreliable, hkey⟩
    rcases herror e rfl with hfault | hshort
    · exact hfault (hreliable k le_rfl o hallow)
    · exact absurd hkey (not_le.2 hshort)

theorem wp_of_prepares {p : Py α} {f : α → Py β} {Q : Except PyErr β → ℕ × World → Prop}
    (h : Prepares lib allow k w p)
    (hok : ∀ a j w', Idle w w' → k ≤ j → Prog.wp (numbered allow (Cmd.exec lib)) Q (f a) (j, w'))
    (herror : ∀ e s, Idle w s.2 → ¬ (Reliable allow k ∧ 32 ≤ lib.keyMaterial.length) → Q (.error e) s) :
    Prog.wp (numbered allow (Cmd.exec lib)) Q (p >>= f : Py β) (k, w) := by
  refine Raise.wp_bind.2 (Prog.wp_mono (fun r s hr => ?_) h)
  cases r with
  | ok a => exact hok a s.1 s.2 hr.1 hr.2
  | error e => exact herror e s hr.1 hr.2

/-- A random text is new, and drawing it does not fail. -/
theorem draw_eq {random : String} {w' : World} {r : Except PyErr String}
    (h : w.draw random = some (r, w')) :
    Idle w w' ∧ ∃ text, r = .ok text ∧ text ∉ w.issued ∧ text ∈ w'.issued := by
  unfold World.draw at h
  split at h
  · cases h
  · rename_i hnew
    obtain ⟨rfl, rfl⟩ := Prod.mk.inj (Option.some.inj h)
    exact ⟨⟨⟨rfl, rfl, rfl, fun _ ht => List.mem_cons_of_mem _ ht⟩, rfl⟩, random, rfl, hnew,
      List.mem_cons_self⟩

theorem uuid_prepares : Prepares lib allow k w (Raise.ask Cmd.uuid) := by
  refine prepares_ask fun o r w' h => ?_
  obtain ⟨hidle, text, rfl, -⟩ := draw_eq h
  exact ⟨hidle, nofun⟩

/-- A token is new when it is drawn. -/
theorem wp_token_bind {f : String → Py β} {Q : Except PyErr β → ℕ × World → Prop}
    (h : ∀ token w', Idle w w' → token ∉ w.issued → token ∈ w'.issued →
      Prog.wp (numbered allow (Cmd.exec lib)) Q (f token) (k + 1, w')) :
    Prog.wp (numbered allow (Cmd.exec lib)) Q (Raise.ask Cmd.token >>= f : Py β) (k, w) := by
  refine Raise.wp_ask_bind.2 fun o r s hrun => ?_
  obtain ⟨-, w', hexec, rfl⟩ := numbered_eq_some_iff.1 hrun
  obtain ⟨hidle, token, rfl, hfresh, htoken⟩ := draw_eq hexec
  exact h token w' hidle hfresh htoken

theorem encrypt_prepares {value : String} : Prepares lib allow k w (Raise.ask (Cmd.encrypt value)) := by
  refine prepares_ask fun o r w' hexec => ?_
  simp only [Cmd.exec] at hexec
  split at hexec
  · rename_i hshort
    obtain ⟨rfl, rfl⟩ := Prod.mk.inj (Option.some.inj hexec)
    exact ⟨.rfl, fun _ _ => .inr hshort⟩
  · obtain ⟨rfl, rfl⟩ := Prod.mk.inj (Option.some.inj hexec)
    exact ⟨.rfl, nofun⟩

theorem getConfig_prepares : Prepares lib allow k w getConfig := by
  refine wp_of_reads (reads_ask (a := w.config) fun _ => rfl) ?_ ?_
  · rintro config _ hconfig rfl
    cases config with
    | some config => exact ⟨.rfl, Nat.le_succ k⟩
    | none =>
      have hnone : w.config = none := Except.ok.inj hconfig
      have hcreate : Prepares lib allow (k + 1) w (Raise.ask Cmd.createConfig) := by
        refine prepares_ask fun o r w' hexec => ?_
        simp only [Cmd.exec, hnone] at hexec
        have hidle : Idle w { w with config := some (Recovery.defaultConfig o.objectID w.clock) } :=
          ⟨⟨rfl, rfl, rfl, fun _ h => h⟩, rfl⟩
        rcases perform_eq hexec with ⟨-, rfl, rfl⟩ | ⟨f, hf, rfl, rfl⟩
        · exact ⟨hidle, nofun⟩
        · refine ⟨?_, fun _ _ => .inl (by rw [hf]; nofun)⟩
          split
          · exact hidle
          · exact .rfl
      refine Prog.wp_mono (fun r s hr => ⟨hr.1, ?_⟩) hcreate
      cases r with
      | ok a => exact Nat.le_of_succ_le hr.2
      | error e => exact fun h => hr.2 ⟨h.1.mono (Nat.le_succ k), h.2⟩
  · intro e j he
    exact ⟨.rfl, fun h => (he.resolve_left nofun) h.1⟩

theorem captured_userID {userID : ObjectId} {snapshot : Snapshot} :
    (w.captured userID snapshot).userID = userID := by
  unfold World.captured
  split
  · rename_i checkout hget
    exact (Collection.get_eq_some_iff.1 hget).2
  · rfl

theorem captured_snapshot {userID : ObjectId} {snapshot : Snapshot} :
    (w.captured userID snapshot).snapshot = snapshot := by
  unfold World.captured
  split <;> rfl

theorem get_captured {snapshot : Snapshot} {checkouts : Checkouts}
    (h : w.checkouts.replaceOne (w.captured user.id snapshot) = some checkouts) :
    checkouts.get user.id = some (w.captured user.id snapshot) := by
  have hget := Collection.get_replaceOne_self h
  rwa [captured_userID] at hget

theorem status_eq_empty_iff {items : List SnapshotItem} {phone : Option String} :
    (if items.isEmpty then "empty" else if phone.isSome then "active" else "missing_phone") = "empty" ↔
      items = [] := by
  cases items with
  | nil => simp
  | cons item items => cases phone <;> simp

/-- Only the phone number of another checkout keeps a checkout from being written. -/
theorem phoneTaken_of_replaceOne {snapshot : Snapshot}
    (hphone : snapshot.contactPhone = Recovery.normalizeE164 lib.toLibrary user.phone)
    (h : w.checkouts.replaceOne (w.captured user.id snapshot) = none) : w.phoneTaken lib user := by
  obtain ⟨c, hc, hid, hkey⟩ := Collection.replaceOne_eq_none_iff.1 h
  rw [captured_userID] at hid
  refine ⟨c, hc, hid, ?_⟩
  rw [Checkout.key, Checkout.key, captured_userID, captured_snapshot, hphone] at hkey
  cases hnormal : Recovery.normalizeE164 lib.toLibrary user.phone with
  | none =>
    rw [hnormal] at hkey
    cases hcontact : c.snapshot.contactPhone with
    | none =>
      rw [hcontact] at hkey
      exact absurd (Sum.inl.inj hkey) hid
    | some phone =>
      rw [hcontact] at hkey
      cases hkey
  | some phone =>
    rw [hnormal] at hkey
    cases hcontact : c.snapshot.contactPhone with
    | none =>
      rw [hcontact] at hkey
      cases hkey
    | some phone' =>
      rw [hcontact] at hkey
      exact ⟨phone, rfl, congrArg some (Sum.inr.inj hkey)⟩

/-- The checkout is written with a new token, unless something goes wrong. -/
theorem captureCartActivity_wp {shown : PublicCart} {event : String} :
    Prog.wp (numbered allow (Cmd.exec lib)) (fun r s => Tokens lib w s.2 ∧ s.2.carts = w.carts ∧
      Raise.Post (fun _ s => s.2.Captured user shown) (fun _ _ => ¬ Secure lib allow k w user) r s)
      (captureCartActivity lib user shown event) (k, w) := by
  have hfail : ∀ {j : ℕ}, k ≤ j → ¬ (Reliable allow j ∧ 32 ≤ lib.keyMaterial.length) →
      ¬ Secure lib allow k w user := fun hj h hsecure => h ⟨hsecure.reliable.mono hj, hsecure.key⟩
  refine wp_of_reads reads_now ?_ fun e j he => ⟨.inl .rfl, rfl, fun hs => (he.resolve_left nofun) hs.reliable⟩
  rintro now _ hnow rfl
  obtain rfl : w.clock = now := Except.ok.inj hnow
  refine wp_of_prepares getConfig_prepares (fun config j₂ w₂ hidle₂ h₂ => ?_)
    fun e s hidle h => ⟨.inl hidle.toTokensKept, hidle.carts, hfail (Nat.le_succ k) h⟩
  replace h₂ := Nat.le_of_succ_le h₂
  refine wp_of_prepares uuid_prepares (fun hex j₃ w₃ hidle₃ h₃ => ?_) fun e s hidle h =>
    ⟨.inl (hidle₂.trans hidle).toTokensKept, (hidle₂.trans hidle).carts, hfail h₂ h⟩
  replace hidle₃ := hidle₂.trans hidle₃
  replace h₃ := h₂.trans h₃
  refine wp_token_bind fun token w₄ hidle₄ hfresh htoken => ?_
  replace hidle₄ := hidle₃.trans hidle₄
  refine wp_of_reads (reads_ask (a := w₄.checkouts.get user.id) fun _ => rfl) ?_ fun e j he =>
    ⟨.inl hidle₄.toTokensKept, hidle₄.carts, fun hs =>
      (he.resolve_left nofun) (hs.reliable.mono (h₃.trans (Nat.le_succ j₃)))⟩
  rintro previous _ hprevious rfl
  obtain rfl : w₄.checkouts.get user.id = previous := Except.ok.inj hprevious
  refine wp_of_prepares encrypt_prepares (fun encrypted j₆ w₆ hidle₆ h₆ => ?_) fun e s hidle h =>
    ⟨.inl (hidle₄.trans hidle).toTokensKept, (hidle₄.trans hidle).carts,
      hfail (h₃.trans (Nat.le_add_right j₃ 2)) h⟩
  have htoken₆ := hidle₆.issued token htoken
  replace hidle₆ := hidle₄.trans hidle₆
  replace h₆ := (h₃.trans (Nat.le_add_right j₃ 2)).trans h₆
  have htaken : w₆.phoneTaken lib user → w.phoneTaken lib user := by
    unfold World.phoneTaken
    rw [hidle₆.checkouts]
    exact id
  refine Raise.wp_ask.2 fun o r s hrun => ?_
  obtain ⟨hallow, w₇, hexec, rfl⟩ := numbered_eq_some_iff.1 hrun
  simp only [Cmd.exec] at hexec
  split at hexec
  · rename_i hnone
    have hinsecure : ¬ Secure lib allow k w user := fun hsecure =>
      hsecure.phone (htaken (phoneTaken_of_replaceOne rfl hnone))
    obtain ⟨rfl, rfl | ⟨f, -, rfl⟩⟩ := respond_eq hexec
    · exact ⟨.inl hidle₆.toTokensKept, hidle₆.carts, hinsecure⟩
    · exact ⟨.inl hidle₆.toTokensKept, hidle₆.carts, hinsecure⟩
  · rename_i checkouts hreplace
    have hreplaced := hreplace
    rw [hidle₆.captured, hidle₆.checkouts] at hreplaced
    have hrenewed : ∀ {w' : World}, w' = { w₆ with
          checkouts, minted := ⟨user.id, token, w.clock⟩ :: w₆.minted } → Tokens lib w w' := by
      rintro w' rfl
      refine .inr ⟨user.id, _, token, hidle₆.clock, hidle₆.issued, fun ht => hfresh (hidle₃.issued token ht),
        htoken₆, hreplaced, congrArg _ hidle₆.minted, rfl, ?_, rfl⟩
      rw [← hidle₄.checkouts]
    rcases perform_eq hexec with ⟨-, rfl, rfl⟩ | ⟨f, hf, rfl, rfl⟩
    · refine ⟨hrenewed rfl, hidle₆.carts, _, get_captured hreplace, ?_⟩
      rw [captured_snapshot]
      exact ⟨rfl, rfl, rfl, status_eq_empty_iff⟩
    · have hfails : ¬ Secure lib allow k w user := fun hsecure => by
        rw [hsecure.reliable j₆ h₆ o hallow] at hf
        cases hf
      split
      · exact ⟨hrenewed rfl, hidle₆.carts, hfails⟩
      · exact ⟨.inl hidle₆.toTokensKept, hidle₆.carts, hfails⟩

/-- The cart is shown as it is stored, and captured, unless something goes wrong. -/
theorem showAndCapture_wp {event : String} {w₁ : World} {cart : Cart}
    (hget : w₁.carts.get user.id = some cart) (hkept : TokensKept w w₁)
    (hcatalogue : w₁.catalogue = w.catalogue) :
    Prog.wp (numbered allow (Cmd.exec lib)) (fun r s => Tokens lib w s.2 ∧ Raise.Post
      (fun shown s => shown = w.catalogue.shown lib (some cart) ∧ s.2.carts.get user.id = some cart ∧
        s.2.Captured user shown) (fun _ _ => ¬ Secure lib allow k w user) r s)
      (showAndCapture lib user event) (k, w₁) := by
  refine wp_of_reads getCart_reads (fun shown j hshown hj => ?_) fun e j he =>
    ⟨.inl hkept, fun hsecure => (he.resolve_left nofun) hsecure.reliable⟩
  obtain rfl := Except.ok.inj hshown
  refine Raise.wp_bind.2 (Prog.wp_mono (fun r s hr => ?_) captureCartActivity_wp)
  obtain ⟨htokens, hcarts, hr⟩ := hr
  cases r with
  | ok checkout =>
    have hshown : w₁.catalogue.shown lib (w₁.carts.get user.id) = w.catalogue.shown lib (some cart) := by
      rw [hget, hcatalogue]
    refine ⟨hkept.tokens htokens, hshown, ?_, hr⟩
    rw [hcarts]
    exact hget
  | error e =>
    refine ⟨hkept.tokens htokens, fun hsecure =>
      hr ⟨hsecure.reliable.mono hj, hsecure.key, fun htaken => hsecure.phone ?_⟩⟩
    unfold World.phoneTaken at htaken ⊢
    rw [← hkept.checkouts]
    exact htaken

end Capture

/-! ## Mutations -/

/-- The cart that `add_cart_item` writes into this store, or what it raises before. -/
def World.adding (lib : Library) (w : World) (userID : ObjectId) (offerID variantID : String)
    (quantity : Quantity) : Except PyErr Cart :=
  match w.catalogue.selection lib offerID variantID with
  | .error e => .error e
  | .ok (offer, variant) =>
    let nextQuantity := quantity.value + w.quantity userID offer.id variant.id
    if 10 < nextQuantity then .error (.httpException 422 "A cart variant is limited to 10 units")
    else if offer.stock variant.id < nextQuantity then
      .error (.httpException 409 "Requested quantity exceeds live variant stock")
    else
      match w.cartWith? userID offer.id variant.id with
      | some cart => .ok (cart.setQuantity offer.id variant.id nextQuantity w.clock w.clock)
      | none => .ok (((w.carts.get userID).getD ⟨userID, [], w.clock, w.clock⟩).push
          ⟨offer.id, offer.productID, variant.id, quantity.value, w.clock, w.clock⟩ w.clock)

/-- The cart that `set_cart_quantity` writes into this store, or what it raises before. -/
def World.setting (lib : Library) (w : World) (userID : ObjectId) (offerID variantID : String)
    (quantity : Quantity) : Except PyErr Cart :=
  match w.catalogue.selection lib offerID variantID with
  | .error e => .error e
  | .ok (offer, variant) =>
    if offer.stock variantID < quantity.value then
      .error (.httpException 409 "Requested quantity exceeds live variant stock")
    else
      match w.cartWith? userID offer.id variant.id with
      | some cart => .ok (cart.setQuantity offer.id variant.id quantity.value w.clock w.clock)
      | none => .error (.httpException 404 "Cart item not found")

/-- The cart that `remove_cart_item` writes into this store, or what it raises before. -/
def World.removing (lib : Library) (w : World) (userID : ObjectId) (offerID variantID : String) :
    Except PyErr Cart :=
  match lib.parseID offerID with
  | none => .error (.httpException 422 ("Invalid " ++ "offerId"))
  | some id =>
    match w.carts.get userID with
    | some cart => .ok (cart.pull id variantID w.clock)
    | none => .error (.httpException 404 "Cart not found")

/-- The cart that a request writes into this store after it has been authenticated. -/
def Op.edit (lib : Library) (w : World) : Op → Except PyErr Cart
  | .addCartItem userID offerID variantID quantity => w.adding lib userID offerID variantID quantity
  | .setCartQuantity userID offerID variantID quantity => w.setting lib userID offerID variantID quantity
  | .removeCartItem userID offerID variantID => w.removing lib userID offerID variantID
  | _ => .error (.httpException 405 "Method Not Allowed")

/-- The number of the command that writes the cart. -/
def Op.writeAt : Op → ℕ
  | .removeCartItem _ _ _ => 2
  | _ => 6

section Mutations

variable {lib : Library} {allow : ℕ → Oracle → Prop} [∀ k o, Decidable (allow k o)]
variable {k n : ℕ} {w : World} {user : User}

/-- If command `n` fails, it has not been applied. -/
def Unapplied (allow : ℕ → Oracle → Prop) (n : ℕ) : Prop :=
  ∀ o, allow n o → ∀ f, o.fault = some f → f.applied = false

/-- How a request comes out whose command `n` writes the cart `edit`: with what is shown of the cart,
which is stored and captured, or with an error, and then with the carts as they were unless something
has gone wrong from the write on. -/
def Mutates (lib : Library) (allow : ℕ → Oracle → Prop) (n : ℕ) (w : World) (user : User)
    (edit : Except PyErr Cart) (r : Except PyErr PublicCart) (s : ℕ × World) : Prop :=
  Tokens lib w s.2 ∧ Raise.Post
    (fun shown s => ∃ cart, edit = .ok cart ∧ shown = w.catalogue.shown lib (some cart) ∧
      s.2.carts.get user.id = some cart ∧ s.2.Captured user shown)
    (fun _ s => s.2.carts = w.carts ∨
      (∃ cart, edit = .ok cart) ∧ ¬ (Unapplied allow n ∧ Secure lib allow (n + 1) w user)) r s

/-- The write of the cart, and what follows it. -/
theorem mutates_write {cmd : Cmd} {a : Answer cmd} {cart : Cart} {event : String}
    {f : Answer cmd → Py PublicCart}
    (hexec : ∀ o, cmd.exec lib o w = perform o.fault (.ok a) w (w.putCart cart))
    (hid : cart.userID = user.id) (hf : f a = showAndCapture lib user event) :
    Prog.wp (numbered allow (Cmd.exec lib)) (Mutates lib allow n w user (.ok cart))
      (Raise.ask cmd >>= f : Py PublicCart) (n, w) := by
  refine Raise.wp_ask_bind.2 fun o r s hrun => ?_
  obtain ⟨hallow, w', hwrite, rfl⟩ := numbered_eq_some_iff.1 hrun
  rw [hexec] at hwrite
  have hkept : TokensKept w (w.putCart cart) := ⟨rfl, rfl, rfl, fun _ h => h⟩
  rcases perform_eq hwrite with ⟨-, rfl, rfl⟩ | ⟨fault, hfault, rfl, rfl⟩
  · have hget : (w.putCart cart).carts.get user.id = some cart :=
      hid ▸ Collection.get_replaceOne_self World.replaceOne_putCart
    change Prog.wp _ _ (f a) _
    rw [hf]
    refine Prog.wp_mono (fun r s hr => ⟨hr.1, ?_⟩) (showAndCapture_wp (w := w) hget hkept rfl)
    cases r with
    | ok shown => exact ⟨cart, rfl, hr.2⟩
    | error e => exact .inr ⟨⟨cart, rfl⟩, fun h => hr.2 h.2⟩
  · cases happlied : fault.applied with
    | true =>
      refine ⟨.inl hkept, .inr ⟨⟨cart, rfl⟩, fun h => ?_⟩⟩
      rw [h.1 o hallow fault hfault] at happlied
      cases happlied
    | false => exact ⟨.inl .rfl, .inl rfl⟩

theorem mutates_of_reads {α : Type} {after : ℕ → Prop} {p : Py α} {r : Except PyErr α}
    {f : α → Py PublicCart} {edit : Except PyErr Cart} (h : Reads lib allow k w after p r)
    (hf : ∀ a j, r = .ok a → after j →
      Prog.wp (numbered allow (Cmd.exec lib)) (Mutates lib allow n w user edit) (f a) (j, w)) :
    Prog.wp (numbered allow (Cmd.exec lib)) (Mutates lib allow n w user edit)
      (p >>= f : Py PublicCart) (k, w) :=
  wp_of_reads h hf fun _ _ _ => ⟨.inl .rfl, .inl rfl⟩

theorem mutates_ask {cmd : Cmd} {a : Answer cmd} {f : Answer cmd → Py PublicCart}
    {edit : Except PyErr Cart} (h : ∀ o, cmd.exec lib o w = respond o.fault (.ok a) w)
    (hf : Prog.wp (numbered allow (Cmd.exec lib)) (Mutates lib allow n w user edit) (f a) (k + 1, w)) :
    Prog.wp (numbered allow (Cmd.exec lib)) (Mutates lib allow n w user edit)
      (Raise.ask cmd >>= f : Py PublicCart) (k, w) := by
  refine mutates_of_reads (reads_ask h) fun a' j ha hj => ?_
  obtain rfl := Except.ok.inj ha
  exact hj ▸ hf

theorem mutates_now {f : Time → Py PublicCart} {edit : Except PyErr Cart}
    (hf : Prog.wp (numbered allow (Cmd.exec lib)) (Mutates lib allow n w user edit) (f w.clock) (k + 1, w)) :
    Prog.wp (numbered allow (Cmd.exec lib)) (Mutates lib allow n w user edit)
      (Raise.ask Cmd.now >>= f : Py PublicCart) (k, w) := by
  refine mutates_of_reads reads_now fun a' j ha hj => ?_
  obtain rfl := Except.ok.inj ha
  exact hj ▸ hf

theorem mutates_throw {e : PyErr} {edit : Except PyErr Cart} :
    Prog.wp (numbered allow (Cmd.exec lib)) (Mutates lib allow n w user edit)
      (throw e : Py PublicCart) (k, w) := ⟨.inl .rfl, .inl rfl⟩

theorem findItem?_eq_some_iff {userID offerID : ObjectId} {variantID : String} {entry : CartItem} :
    w.findItem? userID offerID variantID = some entry ↔
      ∃ cart, w.cartWith? userID offerID variantID = some cart ∧ cart.findItem? offerID variantID = some entry := by
  constructor
  · intro h
    obtain ⟨cart, hget, hentry⟩ := Option.bind_eq_some_iff.1 h
    exact ⟨cart, Option.filter_eq_some_iff.2 ⟨hget, by rw [hentry]; rfl⟩, hentry⟩
  · rintro ⟨cart, hcart, hentry⟩
    exact Option.bind_eq_some_iff.2 ⟨cart, (World.cartWith?_eq_some hcart).1, hentry⟩

theorem cartWith?_eq_none {userID offerID : ObjectId} {variantID : String}
    (h : w.findItem? userID offerID variantID = none) : w.cartWith? userID offerID variantID = none := by
  cases hcart : w.cartWith? userID offerID variantID with
  | none => rfl
  | some cart =>
    obtain ⟨-, entry, hentry⟩ := World.cartWith?_eq_some hcart
    rw [findItem?_eq_some_iff.2 ⟨cart, hcart, hentry⟩] at h
    cases h

theorem userID_of_get {userID : ObjectId} {cart : Cart} (h : w.carts.get userID = some cart) :
    cart.userID = userID := (Collection.get_eq_some_iff.1 h).2

theorem addCartItem_wp {offerID variantID : String} {quantity : Quantity} :
    Prog.wp (numbered allow (Cmd.exec lib))
      (Mutates lib allow 6 w user (w.adding lib user.id offerID variantID quantity))
      (addCartItem lib user offerID variantID quantity) (1, w) := by
  unfold World.adding
  refine mutates_of_reads validatedSelection_reads fun selected j hselected hj => ?_
  obtain ⟨offer, variant⟩ := selected
  subst hj
  rw [hselected]
  refine mutates_now (mutates_ask (a := w.carts.get user.id) (fun _ => rfl) ?_)
  have hquantity : quantity.value + w.quantity user.id offer.id variant.id = quantity.value +
      ((w.carts.get user.id).bind (·.findItem? offer.id variant.id)).elim 0 (·.quantity) := rfl
  dsimp only
  rw [hquantity]
  split
  · exact mutates_throw
  · split
    · exact mutates_throw
    · cases hentry : (w.carts.get user.id).bind (·.findItem? offer.id variant.id) with
      | some entry =>
        obtain ⟨cart, hcart, -⟩ := findItem?_eq_some_iff.1 hentry
        have hid : cart.userID = user.id := userID_of_get (World.cartWith?_eq_some hcart).1
        rw [hcart]
        refine mutates_write (a := ()) (fun o => ?_) hid rfl
        simp only [Cmd.exec, hcart]
      | none =>
        rw [cartWith?_eq_none hentry]
        refine mutates_write (a := ()) (fun o => rfl) ?_ rfl
        cases hget : w.carts.get user.id with
        | none => rfl
        | some cart =>
          have hid : cart.userID = user.id := userID_of_get hget
          exact hid

theorem setCartQuantity_wp {offerID variantID : String} {quantity : Quantity} :
    Prog.wp (numbered allow (Cmd.exec lib))
      (Mutates lib allow 6 w user (w.setting lib user.id offerID variantID quantity))
      (setCartQuantity lib user offerID variantID quantity) (1, w) := by
  unfold World.setting
  refine mutates_of_reads validatedSelection_reads fun selected j hselected hj => ?_
  obtain ⟨offer, variant⟩ := selected
  subst hj
  rw [hselected]
  dsimp only
  split
  · exact mutates_throw
  · refine mutates_now (mutates_now ?_)
    cases hcart : w.cartWith? user.id offer.id variant.id with
    | none =>
      refine mutates_ask (a := none) (fun o => ?_) mutates_throw
      simp only [Cmd.exec, hcart]
    | some cart =>
      have hid : cart.userID = user.id := userID_of_get (World.cartWith?_eq_some hcart).1
      refine mutates_write (a := some (cart.setQuantity offer.id variant.id quantity.value w.clock w.clock))
        (fun o => ?_) hid rfl
      simp only [Cmd.exec, hcart]

theorem removeCartItem_wp {offerID variantID : String} :
    Prog.wp (numbered allow (Cmd.exec lib))
      (Mutates lib allow 2 w user (w.removing lib user.id offerID variantID))
      (removeCartItem lib user offerID variantID) (1, w) := by
  unfold World.removing removeCartItem oid
  cases lib.parseID offerID with
  | none => exact Raise.wp_bind.2 ⟨.inl .rfl, .inl rfl⟩
  | some id =>
    refine Raise.wp_bind.2 (mutates_now ?_)
    cases hget : w.carts.get user.id with
    | none =>
      refine mutates_ask (a := none) (fun o => ?_) mutates_throw
      simp only [Cmd.exec, hget]
    | some cart =>
      have hid : cart.userID = user.id := userID_of_get hget
      refine mutates_write (a := some (cart.pull id variantID w.clock)) (fun o => ?_) hid rfl
      simp only [Cmd.exec, hget]

end Mutations

/-! ## Requests -/

/-- The user if active, as requests are authenticated. -/
def World.active? (w : World) (id : ObjectId) : Option User := (w.users.get id).filter (·.status = "active")

section Requests

variable {lib : Library} {allow : ℕ → Oracle → Prop} [∀ k o, Decidable (allow k o)] {w : World}

/-- How a request on a cart comes out: it is refused for its user, or it mutates the cart. -/
def Op.CartOutcome (lib : Library) (allow : ℕ → Oracle → Prop) (w : World) (op : Op)
    (r : Except PyErr PublicCart) (s : ℕ × World) : Prop :=
  ((∃ e, r = .error e) ∧ s.2 = w) ∨ ∃ user, op.userID = some user.id ∧ w.active? user.id = some user ∧
    Mutates lib allow op.writeAt w user (op.edit lib w) r s

theorem authenticated_wp {op : Op} {userID : ObjectId} {f : User → Py PublicCart}
    (hop : op.userID = some userID) (hf : ∀ user, user.id = userID → w.active? user.id = some user →
      Prog.wp (numbered allow (Cmd.exec lib)) (Mutates lib allow op.writeAt w user (op.edit lib w))
        (f user) (1, w)) :
    Prog.wp (numbered allow (Cmd.exec lib)) (op.CartOutcome lib allow w) (authenticated userID f) (0, w) := by
  refine wp_of_reads (reads_ask (a := w.active? userID) fun _ => rfl) (fun user j huser hj => ?_)
    fun e j _ => .inl ⟨⟨e, rfl⟩, rfl⟩
  subst hj
  cases user with
  | none => exact .inl ⟨⟨_, rfl⟩, rfl⟩
  | some user =>
    have hactive : w.active? userID = some user := Except.ok.inj huser
    have hid : user.id = userID := (Collection.get_eq_some_iff.1 (Option.filter_eq_some_iff.1 hactive).1).2
    subst hid
    exact Prog.wp_mono (fun r s h => .inr ⟨user, hop, hactive, h⟩) (hf user rfl hactive)

/-- The requests that mutate a cart. -/
def Op.mutates : Op → Bool
  | .addCartItem _ _ _ _ | .setCartQuantity _ _ _ _ | .removeCartItem _ _ _ => true
  | _ => false

/-- A request that mutates a cart has a cart for an answer. -/
theorem exists_cart_of_run {op : Op} {os : List Oracle} {w' : World} {reply : Reply} (hop : op.mutates)
    (hrun : (op.prog lib).run (Cmd.exec lib) os w = some (reply, w')) : ∃ r, reply = .cart r := by
  have hcart : ∀ {p : Py PublicCart}, op.prog lib = outcome .cart p → ∃ r, reply = .cart r := by
    intro p hp
    rw [hp] at hrun
    have hwp : Prog.wp (Cmd.exec lib) (fun reply _ => ∃ r, reply = .cart r) (outcome .cart p) w :=
      Prog.wp_bind.2 (Prog.wp_mono (fun r _ _ => ⟨r, rfl⟩) Prog.wp_true)
    exact Prog.wp_sound (Q := fun reply _ => ∃ r, reply = .cart r) hwp hrun
  cases op with
  | addCartItem userID offerID variantID quantity => exact hcart rfl
  | setCartQuantity userID offerID variantID quantity => exact hcart rfl
  | removeCartItem userID offerID variantID => exact hcart rfl
  | updateProfile userID values completeOnboarding => cases hop
  | resolveRecoveryToken token => cases hop

/-- A request with a cart for an answer runs as its outcome says. -/
theorem cartOutcome_of_run {op : Op} {os : List Oracle} {w' : World} {r : Except PyErr PublicCart}
    (hallow : ∀ j o, os[j]? = some o → allow j o)
    (hrun : (op.prog lib).run (Cmd.exec lib) os w = some (.cart r, w')) :
    ∃ k, op.CartOutcome lib allow w r (k, w') := by
  obtain ⟨k, hnumbered⟩ := Prog.run_numbered (k := 0) (fun j o h => (Nat.zero_add j).symm ▸ hallow j o h) hrun
  refine ⟨k, ?_⟩
  have hcart : ∀ {p : Py PublicCart}, op.prog lib = outcome .cart p →
      Prog.wp (numbered allow (Cmd.exec lib)) (op.CartOutcome lib allow w) p (0, w) →
      op.CartOutcome lib allow w r (k, w') := by
    intro p hp h
    rw [hp] at hnumbered
    have hwp : Prog.wp (numbered allow (Cmd.exec lib))
        (fun reply s => ∀ r, reply = .cart r → op.CartOutcome lib allow w r s) (outcome .cart p) (0, w) :=
      Prog.wp_bind.2 (Prog.wp_mono (fun r s hr r' heq => Reply.cart.inj heq ▸ hr) h)
    exact Prog.wp_sound hwp hnumbered r rfl
  have hother : ∀ {α : Type} {f : Except PyErr α → Reply} {p : Py α}, op.prog lib = outcome f p →
      (∀ r r', f r ≠ .cart r') → op.CartOutcome lib allow w r (k, w') := by
    intro α f p hp hf
    rw [hp] at hnumbered
    have hwp : Prog.wp (numbered allow (Cmd.exec lib)) (fun reply _ => ∃ r, reply = f r) (outcome f p) (0, w) :=
      Prog.wp_bind.2 (Prog.wp_mono (fun r _ _ => ⟨r, rfl⟩) Prog.wp_true)
    obtain ⟨r', hr'⟩ := Prog.wp_sound (Q := fun reply _ => ∃ r, reply = f r) hwp hnumbered
    exact absurd hr'.symm (hf r' r)
  cases op with
  | addCartItem userID offerID variantID quantity =>
    refine hcart rfl (authenticated_wp rfl fun user hid hactive => ?_)
    subst hid
    exact addCartItem_wp
  | setCartQuantity userID offerID variantID quantity =>
    refine hcart rfl (authenticated_wp rfl fun user hid hactive => ?_)
    subst hid
    exact setCartQuantity_wp
  | removeCartItem userID offerID variantID =>
    refine hcart rfl (authenticated_wp rfl fun user hid hactive => ?_)
    subst hid
    exact removeCartItem_wp
  | updateProfile userID values completeOnboarding =>
    refine hother rfl fun r r' heq => ?_
    cases heq
  | resolveRecoveryToken token =>
    refine hother rfl fun r r' heq => ?_
    cases heq

/-! ## Other requests -/

/-- The coroutine writes no cart and no checkout. -/
def Leaves (lib : Library) {α : Type} (p : Py α) : Prop :=
  ∀ w, Prog.wp (Cmd.exec lib) (fun _ w' => TokensKept w w') p w

section Leaves

variable {α β : Type}

theorem leaves_of_done {p : Py α} {r : Except PyErr α} (h : p = ExceptT.mk (.ret r)) : Leaves lib p := by
  subst h
  exact fun w => .rfl

theorem leaves_bind {p : Py α} {f : α → Py β} (hp : Leaves lib p) (hf : ∀ a, Leaves lib (f a)) :
    Leaves lib (p >>= f) := by
  intro w
  refine Raise.wp_bind.2 (Prog.wp_mono (fun r w₁ hkept => ?_) (hp w))
  cases r with
  | ok a => exact Prog.wp_mono (fun _ _ h => hkept.trans h) (hf a w₁)
  | error e => exact hkept

theorem leaves_ask {cmd : Cmd} (h : ∀ o w r w', cmd.exec lib o w = some (r, w') → TokensKept w w') :
    Leaves lib (Raise.ask cmd) := fun _ => Raise.wp_ask.2 fun o r w' hexec => h o _ r w' hexec

theorem leaves_respond {cmd : Cmd} (h : ∀ o w, ∃ a, cmd.exec lib o w = respond o.fault a w) :
    Leaves lib (Raise.ask cmd) := by
  refine leaves_ask fun o w r w' hexec => ?_
  obtain ⟨a, ha⟩ := h o w
  rw [ha] at hexec
  rw [(respond_eq hexec).1]
  exact .rfl

theorem leaves_perform {fault : Option Mishap} {r r' : Except PyErr α} {w₁ w' : World}
    (h : perform fault r w w₁ = some (r', w')) (hkept : TokensKept w w₁) : TokensKept w w' := by
  rcases perform_state h with rfl | rfl
  · exact hkept
  · exact .rfl

theorem now_leaves : Leaves lib (Raise.ask Cmd.now) := by
  refine leaves_ask fun o w r w' hexec => ?_
  obtain ⟨-, rfl⟩ := Prod.mk.inj (Option.some.inj hexec)
  exact .rfl

theorem setPreferences_leaves {values : ProfileUpdate} {fields : List (String × String × String)}
    {preferences : List (String × List String)} : Leaves lib (setPreferences values fields preferences) := by
  induction fields generalizing preferences with
  | nil => exact leaves_of_done rfl
  | cons field fields ih =>
    obtain ⟨requestKey, fieldKey, storageKey⟩ := field
    unfold setPreferences
    split
    · exact ih
    · refine leaves_bind ?_ fun clean => ih
      refine leaves_bind (leaves_respond fun o w => ⟨_, rfl⟩) fun allowed => ?_
      cases allowed with
      | none => exact leaves_of_done rfl
      | some allowed =>
        dsimp only
        split
        · exact leaves_of_done rfl
        · exact leaves_of_done rfl

theorem updateUser_leaves {id : ObjectId} {updates : UserUpdates} :
    Leaves lib (Raise.ask (Cmd.updateUser id updates)) := by
  refine leaves_ask fun o w r w' hexec => ?_
  simp only [Cmd.exec] at hexec
  split at hexec
  · rw [(respond_eq hexec).1]
    exact .rfl
  · split at hexec
    · rw [(respond_eq hexec).1]
      exact .rfl
    · exact leaves_perform hexec ⟨rfl, rfl, rfl, fun _ h => h⟩

theorem updateProfile_leaves {user : User} {values : ProfileUpdate} {completeOnboarding : Bool} :
    Leaves lib (updateProfile lib user values completeOnboarding) := by
  refine leaves_bind now_leaves fun now => ?_
  refine leaves_bind (leaves_of_done rfl) fun phone => ?_
  refine leaves_bind setPreferences_leaves fun preferences => ?_
  refine leaves_bind (leaves_of_done rfl) fun body => ?_
  refine leaves_bind (leaves_of_done rfl) fun metadata => ?_
  refine leaves_bind (fun w => ?_) fun updated => ?_
  · refine Raise.wp_tryExcept (Prog.wp_mono (fun r w' hkept => ?_) (updateUser_leaves w))
    cases r with
    | ok a => exact hkept
    | error e =>
      change if _ then _ else _
      split
      · exact hkept
      · exact hkept
  · refine leaves_bind (leaves_ask fun o w r w' hexec =>
      leaves_perform hexec ⟨rfl, rfl, rfl, fun _ h => h⟩) fun _ => ?_
    cases updated with
    | none => exact leaves_of_done rfl
    | some user => exact leaves_of_done rfl

end Leaves

end Requests

end Shopper

end Stylme
