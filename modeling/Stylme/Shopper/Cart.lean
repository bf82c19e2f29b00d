-- SUMMARY: The requests on a cart: its three mutations, how it is shown, and the checkout snapshot that follows a mutation.
import Stylme.Shopper.Commands

/-!
# Carts

A mutation checks the selection against the live offer, writes the cart, reads it back
for the answer, and only then writes the checkout. A quantity is shown clamped to the
live stock.
-/

namespace Stylme

open Conc Backend

namespace Shopper

variable (lib : Library)

/-! ## Selections -/

/-- A quantity that the schema accepts. -/
structure Quantity where
  value : ℤ
  one_le : 1 ≤ value
  le_ten : value ≤ 10

/-- `_oid` -/
def oid (value label : String) : Py ObjectId :=
  match lib.parseID value with
  | some id => pure id
  | none => throw (.httpException 422 ("Invalid " ++ label))

/-- `_validated_selection`: the offer and its variant -/
def validatedSelection (offerID variantID : String) : Py (Offer × Variant) := do
  let id ← oid lib offerID "offerId"
  match ← Raise.ask (Cmd.findActiveOffer id) with
  | none => throw (.httpException 404 "Offer is unavailable")
  | some offer =>
    match offer.variant? variantID with
    | none => throw (.httpException 422 "The selected variant does not belong to this offer")
    | some variant =>
      if offer.stock variantID < 1 then
        throw (.httpException 409 "The selected variant is out of stock")
      else
        let product ← Raise.ask (Cmd.findPublicProduct offer.productID)
        let seller ← Raise.ask (Cmd.findApprovedSeller offer.sellerID)
        if product.isNone ∨ seller.isNone then
          throw (.httpException 409 "This product is no longer purchasable")
        else return (offer, variant)

/-! ## The public cart -/

/-- An item of the public cart. -/
structure PublicItem where
  key : String
  offerID : String
  productID : String
  variantID : String
  slug : Option String
  title : Option String
  imageURL : Option String
  sizeKey : Option String
  colorName : Option String
  colorHex : Option String
  colorFamilyKeys : List String
  quantity : ℤ
  availableQty : ℤ
  pricePaise : ℤ
  lineTotalPaise : ℤ

/-- What `get_cart` returns. -/
structure PublicCart where
  items : List PublicItem
  itemCount : ℤ
  subtotalPaise : ℤ
  updatedAt : Option Time

/-- `quantity`, clamped to the live stock -/
def CartItem.shown (item : CartItem) (offer : Offer) : ℤ :=
  min item.quantity (max 0 (offer.stock item.variantID))

/-- The dictionary of an item. -/
def publicItem (item : CartItem) (offer : Offer) (variant : Variant) (product : Product)
    (color : Option Color) : PublicItem where
  key := lib.idText offer.id ++ ":" ++ variant.id
  offerID := lib.idText offer.id
  productID := lib.idText product.id
  variantID := variant.id
  slug := product.slug
  title := product.title
  imageURL := product.coverImageURL
  sizeKey := variant.sizeKey
  colorName := color.bind (·.name)
  colorHex := color.bind (·.hex)
  colorFamilyKeys := color.elim [] (·.familyKeys)
  quantity := item.shown offer
  availableQty := offer.stock variant.id
  pricePaise := offer.salePricePaise
  lineTotalPaise := offer.salePricePaise * item.shown offer

/-- A round of the loop of `get_cart`; an item that is no longer sold is passed over. -/
def publicItem? (item : CartItem) : Py (Option PublicItem) := do
  match ← Raise.ask (Cmd.findActiveOffer item.offerID) with
  | none => return none
  | some offer =>
    match offer.variant? item.variantID, ← Raise.ask (Cmd.findActiveProduct offer.productID) with
    | some variant, some product =>
      let color ← Raise.ask (Cmd.findColor variant.colorID)
      return some (publicItem lib item offer variant product color)
    | _, _ => return none

/-- The loop of `get_cart` -/
def publicItems : List CartItem → Py (List PublicItem)
  | [] => return []
  | item :: items => do
    let shown ← publicItem? lib item
    let rest ← publicItems items
    return shown.toList ++ rest

def getCart (userID : ObjectId) : Py PublicCart := do
  let cart ← Raise.ask (Cmd.findCart userID)
  let items ← publicItems lib (cart.elim [] (·.items))
  return {
    items
    itemCount := (items.map (·.quantity)).sum
    subtotalPaise := (items.map (·.lineTotalPaise)).sum
    updatedAt := cart.map (·.updatedAt) }

/-! ## The checkout snapshot -/

/-- `v or default` of a number -/
def intOr (v default : ℤ) : ℤ := if v ≠ 0 then v else default

/-- `_item_snapshot` -/
def itemSnapshot (item : PublicItem) : SnapshotItem where
  offerID := item.offerID
  variantID := item.variantID
  productID := item.productID
  title := String.ofList ((item.title.getD "").toList.take 200)
  quantity := max 1 (intOr item.quantity 1)
  pricePaise := max 0 (intOr item.pricePaise 0)

/-- `list(dict.fromkeys(values))[-n:]` -/
def lastDistinct (n : ℕ) (values : List String) : List String :=
  values.eraseDups.drop (values.eraseDups.length - n)

/-- `valid_hashes` -/
def validHashes (previous : Option Checkout) (tokenHash : String) : List String :=
  let hashes := previous.elim [] fun checkout => checkout.snapshot.recoveryTokenHashes ++
    if checkout.snapshot.recoveryTokenHash ≠ "" then [checkout.snapshot.recoveryTokenHash] else []
  lastDistinct 5 (hashes ++ [tokenHash])

/-- Seven days -/
def tokenLifetime : Duration := 7 * 24 * 60 * minute

/-- `get_config` -/
def getConfig : Py Recovery.Config := do
  match ← Raise.ask Cmd.findConfig with
  | some config => return config
  | none => Raise.ask Cmd.createConfig

/-- `capture_cart_activity` -/
def captureCartActivity (user : User) (cart : PublicCart) (event : String) : Py Checkout := do
  let now ← Raise.ask Cmd.now
  let config ← getConfig
  let hex ← Raise.ask Cmd.uuid
  let token ← Raise.ask Cmd.token
  let previous ← Raise.ask (Cmd.findCheckout user.id)
  let items := cart.items.map itemSnapshot
  let phone := Recovery.normalizeE164 lib.toLibrary user.phone
  let encrypted ← Raise.ask (Cmd.encrypt token)
  let snapshot : Snapshot := {
    checkoutID := "checkout_" ++ hex
    externalID := "checkout_" ++ hex
    contactPhone := phone
    customerEmail := user.email
    customerName := user.fullName
    status := if items.isEmpty then "empty" else if phone.isSome then "active" else "missing_phone"
    paymentStatus := "unpaid"
    items
    itemCount := (items.map (·.quantity)).sum
    cartValuePaise := max 0 (intOr cart.subtotalPaise 0)
    currency := "INR"
    topItem := items.head?.map (·.title)
    productTitles := (items.take 20).map (·.title)
    lastCartEvent := event
    lastCartActivityAt := now
    eligibleAt := now + config.calling.inactivityMinutes * minute
    recoveryTokenHash := lib.sha256 token
    recoveryTokenHashes := validHashes previous (lib.sha256 token)
    recoveryTokenEncrypted := encrypted
    recoveryTokenExpiresAt := now + tokenLifetime
    inactivityMinutes := config.calling.inactivityMinutes
    updatedAt := now }
  Raise.ask (Cmd.writeCheckout user.id snapshot token)

/-- `resolve_recovery_token` -/
def resolveRecoveryToken (token : String) : Py (Option Checkout) := do
  let now ← Raise.ask Cmd.now
  Raise.ask (Cmd.resolveToken (lib.sha256 token) now)

/-! ## Mutations -/

/-- Show the cart, and write the checkout of what is shown. -/
def showAndCapture (user : User) (event : String) : Py PublicCart := do
  let publicCart ← getCart lib user.id
  let _ ← captureCartActivity lib user publicCart event
  return publicCart

def addCartItem (user : User) (offerID variantID : String) (quantity : Quantity) : Py PublicCart := do
  let (offer, variant) ← validatedSelection lib offerID variantID
  let now ← Raise.ask Cmd.now
  let cart ← Raise.ask (Cmd.findCart user.id)
  let existing := cart.bind (·.findItem? offer.id variant.id)
  let nextQuantity := quantity.value + existing.elim 0 (·.quantity)
  if 10 < nextQuantity then throw (.httpException 422 "A cart variant is limited to 10 units")
  else if offer.stock variant.id < nextQuantity then
    throw (.httpException 409 "Requested quantity exceeds live variant stock")
  else
    match existing with
    | some _ => Raise.ask (Cmd.setItem user.id offer.id variant.id nextQuantity now)
    | none =>
      let item : CartItem := ⟨offer.id, offer.productID, variant.id, quantity.value, now, now⟩
      Raise.ask (Cmd.pushItem user.id item now)
    showAndCapture lib user "item_added"

def setCartQuantity (user : User) (offerID variantID : String) (quantity : Quantity) :
    Py PublicCart := do
  let (offer, variant) ← validatedSelection lib offerID variantID
  if offer.stock variantID < quantity.value then
    throw (.httpException 409 "Requested quantity exceeds live variant stock")
  else
    let itemTime ← Raise.ask Cmd.now
    let now ← Raise.ask Cmd.now
    match ← Raise.ask (Cmd.setQuantity user.id offer.id variant.id quantity.value itemTime now) with
    | none => throw (.httpException 404 "Cart item not found")
    | some _ => showAndCapture lib user "quantity_changed"

def removeCartItem (user : User) (offerID variantID : String) : Py PublicCart := do
  let id ← oid lib offerID "offerId"
  let now ← Raise.ask Cmd.now
  match ← Raise.ask (Cmd.pullItem user.id id variantID now) with
  | none => throw (.httpException 404 "Cart not found")
  | some _ => showAndCapture lib user "item_removed"

end Shopper

end Stylme
