-- SUMMARY: The documents behind a shopper's account, cart and checkout, the queries on them and the updates of them.
import Mathlib.Algebra.Ring.Int.Defs
import Stylme.Lib.Sequence
import Stylme.Recovery.Source

/-!
# The shopper's store

A cart holds what a shopper wants to buy; prices and stock are read from the live
offers whenever it is shown. Every change of a cart also writes the shopper's checkout:
a snapshot of the cart under a new identity and a new recovery token, from which the
recovery of abandoned checkouts works.
-/

namespace Stylme

open Conc Backend

namespace Shopper

/-- The settings, and what the standard library and the packages provide. -/
structure Library extends Recovery.Library where
  idText : ObjectId → String
  /-- `ObjectId(value)`, where it is valid -/
  parseID : String → Option ObjectId
  /-- `hashlib.sha256(value.encode("utf-8")).hexdigest()` -/
  sha256 : String → String

/-! ## Offers -/

/-- An element of `variants` -/
structure Variant where
  id : String
  sizeKey : Option String
  colorID : Option ObjectId

/-- An element of `inventory` -/
structure InventoryItem where
  variantID : String
  availableQty : ℤ
  active : Bool

/-- A document of `seller_offers`. -/
structure Offer where
  id : ObjectId
  productID : ObjectId
  sellerID : ObjectId
  status : String
  variants : List Variant
  inventory : List InventoryItem
  salePricePaise : ℤ

/-- A document of `products`. -/
structure Product where
  id : ObjectId
  status : String
  visibility : String
  slug : Option String
  title : Option String
  coverImageURL : Option String

/-- A document of `sellers`. -/
structure Seller where
  id : ObjectId
  status : String

/-- A document of `colors`. -/
structure Color where
  id : ObjectId
  name : Option String
  hex : Option String
  familyKeys : List String

/-- `_stock_for_variant` -/
def Offer.stock (offer : Offer) (variantID : String) : ℤ :=
  ((offer.inventory.filter fun item => item.variantID = variantID ∧ item.active).map
    fun item => max 0 item.availableQty).sum

/-- The variant with this identifier. -/
def Offer.variant? (offer : Offer) (variantID : String) : Option Variant :=
  offer.variants.find? (·.id = variantID)

/-- The collections that the shoppers' requests only read. -/
structure Catalogue where
  offers : Collection Offer Offer.id Offer.id
  products : Collection Product Product.id Product.id
  sellers : Collection Seller Seller.id Seller.id
  colors : Collection Color Color.id Color.id
  /-- Of each active field the keys of its active options -/
  fields : List (String × List String)

/-! ## Users -/

/-- `body_profile` -/
structure BodyProfile where
  /-- Absent is `false`. -/
  consent : Bool
  dateOfBirth : Option String
  heightCm : Option ℚ
  weightKg : Option ℚ
  updatedAt : Option Time

/-- A document of `users`. -/
structure User where
  id : ObjectId
  status : String
  email : Option String
  fullName : Option String
  phone : Option String
  preferences : List (String × List String)
  body : BodyProfile
  /-- `appearance_profile.reviewRequired`, if there is an appearance profile -/
  reviewRequired : Option Bool
  metadata : Document
  onboardingCompleted : Bool
  updatedAt : Time

/-- The key of the unique index on a phone number, which has no entry for a document without one. -/
def phoneKey (id : ObjectId) : Option String → ObjectId ⊕ String
  | some phone => .inr phone
  | none => .inl id

def User.key (user : User) : ObjectId ⊕ String := phoneKey user.id user.phone

abbrev Users := Collection User User.id User.key

/-! ## Carts -/

/-- An element of `items` -/
structure CartItem where
  offerID : ObjectId
  productID : ObjectId
  variantID : String
  quantity : ℤ
  addedAt : Time
  updatedAt : Time

/-- A document of `carts`. -/
structure Cart where
  userID : ObjectId
  items : List CartItem
  createdAt : Time
  updatedAt : Time

/-- One cart for each user, by the unique index. -/
abbrev Carts := Collection Cart Cart.userID Cart.userID

/-- The entry is about this variant of this offer. -/
def CartItem.is (offerID : ObjectId) (variantID : String) (item : CartItem) : Bool :=
  item.offerID = offerID ∧ item.variantID = variantID

/-- `items.$`, an update of the first entry about a variant. -/
def updateFirst (offerID : ObjectId) (variantID : String) (quantity : ℤ) (now : Time) :
    List CartItem → List CartItem
  | [] => []
  | item :: items =>
    if item.is offerID variantID then { item with quantity, updatedAt := now } :: items
    else item :: updateFirst offerID variantID quantity now items

namespace Cart

/-- The first entry about a variant. -/
def findItem? (cart : Cart) (offerID : ObjectId) (variantID : String) : Option CartItem :=
  cart.items.find? (·.is offerID variantID)

def setQuantity (offerID : ObjectId) (variantID : String) (quantity : ℤ) (itemTime now : Time)
    (cart : Cart) : Cart :=
  { cart with items := updateFirst offerID variantID quantity itemTime cart.items, updatedAt := now }

def push (item : CartItem) (now : Time) (cart : Cart) : Cart :=
  { cart with items := cart.items ++ [item], updatedAt := now }

def pull (offerID : ObjectId) (variantID : String) (now : Time) (cart : Cart) : Cart :=
  { cart with items := cart.items.filter (¬ ·.is offerID variantID), updatedAt := now }

end Cart

/-! ## Checkouts -/

/-- An element of the `items` of a checkout. -/
structure SnapshotItem where
  offerID : String
  variantID : String
  productID : String
  title : String
  quantity : ℤ
  pricePaise : ℤ

/-- What a change of the cart sets in the checkout. -/
structure Snapshot where
  checkoutID : String
  externalID : String
  contactPhone : Option String
  customerEmail : Option String
  customerName : Option String
  status : String
  paymentStatus : String
  items : List SnapshotItem
  itemCount : ℤ
  cartValuePaise : ℤ
  currency : String
  topItem : Option String
  productTitles : List String
  lastCartEvent : String
  lastCartActivityAt : Time
  eligibleAt : Time
  recoveryTokenHash : String
  recoveryTokenHashes : List String
  recoveryTokenEncrypted : String
  recoveryTokenExpiresAt : Time
  inactivityMinutes : ℕ
  updatedAt : Time

/-- A document of `checkouts`. -/
structure Checkout where
  userID : ObjectId
  snapshot : Snapshot
  eventVersion : ℕ
  createdAt : Time
  recoveryClickedAt : Option Time

def Checkout.key (checkout : Checkout) : ObjectId ⊕ String :=
  phoneKey checkout.userID checkout.snapshot.contactPhone

/-- One checkout for each user and for each phone number. Identities are random, so that the unique
index on them never refuses a write. -/
abbrev Checkouts := Collection Checkout Checkout.userID Checkout.key

/-- The query of `resolve_recovery_token` -/
def Checkout.resolves (tokenHash : String) (now : Time) (checkout : Checkout) : Bool :=
  (checkout.snapshot.recoveryTokenHash = tokenHash ∨
      tokenHash ∈ checkout.snapshot.recoveryTokenHashes) ∧
    now < checkout.snapshot.recoveryTokenExpiresAt ∧ checkout.snapshot.paymentStatus = "unpaid" ∧
    0 < checkout.snapshot.itemCount

/-! ## The world -/

/-- An entry of `audit_logs` about a user, without its actor and its time. -/
structure Audit where
  action : String
  userID : ObjectId
  fields : List String

/-- A recovery token that a checkout was written with. -/
structure Minted where
  userID : ObjectId
  token : String
  time : Time

structure World where
  clock : Time
  catalogue : Catalogue
  users : Users
  carts : Carts
  checkouts : Checkouts
  config : Option Recovery.Config
  audits : List Audit
  /-- Every text that the random generators have handed out. -/
  issued : List String
  /-- The tokens that checkouts were written with, newest first; no request reads them. -/
  minted : List Minted

end Shopper

end Stylme
