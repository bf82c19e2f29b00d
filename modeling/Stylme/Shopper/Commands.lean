-- SUMMARY: The database requests of a shopper's requests, and what each does to the store.
import Stylme.Shopper.Store

/-!
# The commands of the shopper's service

Every function awaits one command after another. A command is atomic; whether it fails,
the random texts and the identifiers of new documents come from an oracle.
-/

namespace Stylme

open Conc Backend

namespace Shopper

/-- What `update_profile` sets in a user. -/
structure UserUpdates where
  fullName : Option (Option String)
  phone : Option String
  preferences : List (String × List String)
  body : BodyProfile
  metadata : Option Document
  completeOnboarding : Bool
  /-- Set `appearance_profile.reviewRequired` to `False`. -/
  reviewed : Bool
  updatedAt : Time

inductive Cmd where
  | now
  /-- The user of an access token, if active -/
  | findUser (id : ObjectId)
  /-- The keys of the active options of a field -/
  | activeField (key : String)
  | updateUser (id : ObjectId) (updates : UserUpdates)
  | insertAudit (entry : Audit)
  | findActiveOffer (id : ObjectId)
  | findPublicProduct (id : ObjectId)
  | findApprovedSeller (id : ObjectId)
  | findActiveProduct (id : ObjectId)
  | findColor (id : Option ObjectId)
  | findCart (userID : ObjectId)
  /-- The update of `add_cart_item` for an entry that it has found. -/
  | setItem (userID offerID : ObjectId) (variantID : String) (quantity : ℤ) (now : Time)
  /-- The upsert of `add_cart_item` for a new entry. -/
  | pushItem (userID : ObjectId) (item : CartItem) (now : Time)
  | setQuantity (userID offerID : ObjectId) (variantID : String) (quantity : ℤ) (itemTime now : Time)
  | pullItem (userID offerID : ObjectId) (variantID : String) (now : Time)
  | findConfig
  /-- Insert the default configuration, unless there is one by now. -/
  | createConfig
  /-- `uuid.uuid4().hex` -/
  | uuid
  /-- `secrets.token_urlsafe(32)` -/
  | token
  /-- `encrypt_secret`, under a random initialisation vector -/
  | encrypt (value : String)
  | findCheckout (userID : ObjectId)
  /-- The upsert of `capture_cart_activity`; the token is only recorded as minted. -/
  | writeCheckout (userID : ObjectId) (snapshot : Snapshot) (token : String)
  | resolveToken (tokenHash : String) (now : Time)

@[reducible] def Answer : Cmd → Type
  | .now => Time
  | .findUser _ | .updateUser _ _ => Option User
  | .activeField _ => Option (List String)
  | .findActiveOffer _ => Option Offer
  | .findPublicProduct _ | .findActiveProduct _ => Option Product
  | .findApprovedSeller _ => Option Seller
  | .findColor _ => Option Color
  | .findCart _ | .setQuantity _ _ _ _ _ _ | .pullItem _ _ _ _ => Option Cart
  | .findConfig => Option Recovery.Config
  | .createConfig => Recovery.Config
  | .uuid | .token | .encrypt _ => String
  | .findCheckout _ | .resolveToken _ _ => Option Checkout
  | .writeCheckout _ _ _ => Checkout
  | .insertAudit _ | .setItem _ _ _ _ _ | .pushItem _ _ _ => Unit

abbrev Resp := Raising PyErr Answer

abbrev Py := Raise Cmd Answer PyErr

/-! ## Updates -/

/-- `{"$set": updates}` -/
def User.set (updates : UserUpdates) (user : User) : User :=
  { user with
    fullName := updates.fullName.getD user.fullName
    phone := updates.phone.or user.phone
    preferences := updates.preferences
    body := updates.body
    metadata := updates.metadata.getD user.metadata
    onboardingCompleted := updates.completeOnboarding || user.onboardingCompleted
    reviewRequired := if updates.reviewed then some false else user.reviewRequired
    updatedAt := updates.updatedAt }

namespace World

/-- Store the cart that `f` makes of the user's. -/
def putCart (w : World) (cart : Cart) : World := { w with carts := (w.carts.replaceOne cart).getD w.carts }

/-- The user's cart if it has an entry about the variant. -/
def cartWith? (w : World) (userID offerID : ObjectId) (variantID : String) : Option Cart :=
  (w.carts.get userID).filter fun cart => (cart.findItem? offerID variantID).isSome

/-- The entries of the stored cart of a user. -/
def items (w : World) (userID : ObjectId) : List CartItem := (w.carts.get userID).elim [] (·.items)

/-- The first entry about a variant in the stored cart of a user. -/
def findItem? (w : World) (userID offerID : ObjectId) (variantID : String) : Option CartItem :=
  (w.carts.get userID).bind (·.findItem? offerID variantID)

/-- The quantity of a variant in the stored cart of a user. -/
def quantity (w : World) (userID offerID : ObjectId) (variantID : String) : ℤ :=
  (w.findItem? userID offerID variantID).elim 0 (·.quantity)

theorem replaceOne_putCart {w : World} {cart : Cart} : w.carts.replaceOne cart = some (w.putCart cart).carts := by
  obtain ⟨carts, h⟩ := Collection.replaceOne_of_id (t := w.carts) (d := cart)
  rw [h, putCart, h]
  rfl

theorem cartWith?_eq_some {w : World} {cart : Cart} {userID offerID : ObjectId} {variantID : String}
    (h : w.cartWith? userID offerID variantID = some cart) :
    w.carts.get userID = some cart ∧ ∃ entry, cart.findItem? offerID variantID = some entry := by
  obtain ⟨hget, hentry⟩ := Option.filter_eq_some_iff.1 h
  exact ⟨hget, Option.isSome_iff_exists.1 hentry⟩

/-- The checkout after a change of the cart. -/
def captured (w : World) (userID : ObjectId) (snapshot : Snapshot) : Checkout :=
  match w.checkouts.get userID with
  | some checkout => { checkout with snapshot, eventVersion := checkout.eventVersion + 1 }
  | none => ⟨userID, snapshot, 1, snapshot.updatedAt, none⟩

end World

/-! ## Effects -/

/-- How a request goes wrong, random texts, and the identifier of a new document. -/
structure Oracle where
  fault : Option Mishap := none
  random : String := ""
  objectID : ObjectId := 0

/-- A random text is new. -/
def World.draw (w : World) (random : String) : Option (Except PyErr String × World) :=
  if random ∈ w.issued then none else some (.ok random, { w with issued := random :: w.issued })

variable (lib : Library)

def Cmd.exec : (cmd : Cmd) → Oracle → World → Option (Resp cmd × World)
  | .now, _, w => some (.ok w.clock, w)
  | .findUser id, o, w => respond o.fault (.ok ((w.users.get id).filter (·.status = "active"))) w
  | .activeField key, o, w => respond o.fault (.ok (w.catalogue.fields.lookup key)) w
  | .updateUser id updates, o, w =>
    match (w.users.get id).filter (·.status = "active") with
    | none => respond o.fault (.ok none) w
    | some user =>
      match w.users.replaceOne (user.set updates) with
      | none => respond o.fault (.error .duplicateKey) w
      | some users => perform o.fault (.ok (some (user.set updates))) w { w with users }
  | .insertAudit entry, o, w => perform o.fault (.ok ()) w { w with audits := entry :: w.audits }
  | .findActiveOffer id, o, w =>
    respond o.fault (.ok ((w.catalogue.offers.get id).filter (·.status = "active"))) w
  | .findPublicProduct id, o, w =>
    respond o.fault (.ok ((w.catalogue.products.get id).filter fun p =>
      p.status = "active" ∧ p.visibility = "public")) w
  | .findApprovedSeller id, o, w =>
    respond o.fault (.ok ((w.catalogue.sellers.get id).filter (·.status = "approved"))) w
  | .findActiveProduct id, o, w =>
    respond o.fault (.ok ((w.catalogue.products.get id).filter (·.status = "active"))) w
  | .findColor id, o, w => respond o.fault (.ok (id.bind w.catalogue.colors.get)) w
  | .findCart userID, o, w => respond o.fault (.ok (w.carts.get userID)) w
  | .setItem userID offerID variantID quantity time, o, w =>
    match w.cartWith? userID offerID variantID with
    | none => respond o.fault (.ok ()) w
    | some cart =>
      perform o.fault (.ok ()) w (w.putCart (cart.setQuantity offerID variantID quantity time time))
  | .pushItem userID item time, o, w =>
    let cart := (w.carts.get userID).getD ⟨userID, [], time, time⟩
    perform o.fault (.ok ()) w (w.putCart (cart.push item time))
  | .setQuantity userID offerID variantID quantity itemTime time, o, w =>
    match w.cartWith? userID offerID variantID with
    | none => respond o.fault (.ok none) w
    | some cart =>
      let cart := cart.setQuantity offerID variantID quantity itemTime time
      perform o.fault (.ok (some cart)) w (w.putCart cart)
  | .pullItem userID offerID variantID time, o, w =>
    match w.carts.get userID with
    | none => respond o.fault (.ok none) w
    | some cart =>
      let cart := cart.pull offerID variantID time
      perform o.fault (.ok (some cart)) w (w.putCart cart)
  | .findConfig, o, w => respond o.fault (.ok w.config) w
  | .createConfig, o, w =>
    match w.config with
    | some config => respond o.fault (.ok config) w
    | none => perform o.fault (.ok (Recovery.defaultConfig o.objectID w.clock)) w
        { w with config := some (Recovery.defaultConfig o.objectID w.clock) }
  | .uuid, o, w => w.draw o.random
  | .token, o, w => w.draw o.random
  | .encrypt value, o, w =>
    if lib.keyMaterial.length < 32 then
      some (.error (.exception "RuntimeError" "Checkout-recovery secret encryption is not configured"), w)
    else some (.ok (lib.encrypt o.random value), w)
  | .findCheckout userID, o, w => respond o.fault (.ok (w.checkouts.get userID)) w
  | .writeCheckout userID snapshot secret, o, w =>
    let checkout := w.captured userID snapshot
    match w.checkouts.replaceOne checkout with
    | none => respond o.fault (.error .duplicateKey) w
    | some checkouts =>
      perform o.fault (.ok checkout) w { w with
        checkouts
        minted := ⟨userID, secret, snapshot.lastCartActivityAt⟩ :: w.minted }
  | .resolveToken tokenHash time, o, w =>
    match w.checkouts.find? (·.resolves tokenHash time) with
    | none => respond o.fault (.ok none) w
    | some checkout =>
      let checkout := { checkout with recoveryClickedAt := some time }
      perform o.fault (.ok (some checkout)) w
        { w with checkouts := (w.checkouts.replaceOne checkout).getD w.checkouts }

end Shopper

end Stylme
