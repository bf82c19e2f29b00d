-- SUMMARY: The shoppers' requests as one system: operations, the moves of the environment, and the protocol of a request.
import Stylme.Shopper.Cart
import Stylme.Shopper.Profile

/-!
# The shopper's service

Any number of requests on the same store, one command at a time. A phase holds the
documents that a request has read and decides on: the user it was authenticated as, the
offer it selects, the cart it has read, and whether it has written.
-/

namespace Stylme

open Conc Backend

namespace Shopper

variable (lib : Library)

/-! ## Operations -/

inductive Op where
  | addCartItem (userID : ObjectId) (offerID variantID : String) (quantity : Quantity)
  | setCartQuantity (userID : ObjectId) (offerID variantID : String) (quantity : Quantity)
  | removeCartItem (userID : ObjectId) (offerID variantID : String)
  | updateProfile (userID : ObjectId) (values : ProfileUpdate) (completeOnboarding : Bool)
  | resolveRecoveryToken (token : String)

inductive Reply where
  | cart (r : Except PyErr PublicCart)
  | profile (r : Except PyErr User)
  | checkout (r : Except PyErr (Option Checkout))

/-- `get_current_user`, and what follows with the user. -/
def authenticated {α : Type} (userID : ObjectId) (f : User → Py α) : Py α := do
  match ← Raise.ask (Cmd.findUser userID) with
  | none => throw (.httpException 401 "User is unavailable")
  | some user => f user

/-- Run a coroutine to its value or exception. -/
def outcome {α : Type} (f : Except PyErr α → Reply) (p : Py α) : Prog Cmd Resp Reply :=
  Prog.bind p fun r => .ret (f r)

def Op.prog : Op → Prog Cmd Resp Reply
  | .addCartItem userID offerID variantID quantity =>
    outcome .cart (authenticated userID (Shopper.addCartItem lib · offerID variantID quantity))
  | .setCartQuantity userID offerID variantID quantity =>
    outcome .cart (authenticated userID (Shopper.setCartQuantity lib · offerID variantID quantity))
  | .removeCartItem userID offerID variantID =>
    outcome .cart (authenticated userID (Shopper.removeCartItem lib · offerID variantID))
  | .updateProfile userID values completeOnboarding =>
    outcome .profile (authenticated userID (Shopper.updateProfile lib · values completeOnboarding))
  | .resolveRecoveryToken token => outcome .checkout (Shopper.resolveRecoveryToken lib token)

/-- What happens outside the requests: time passes, and sellers and administrators change what is
sold. -/
inductive Move where
  | tick (passed : ℕ)
  | restock (catalogue : Catalogue)

def World.move (w : World) : Move → World
  | .tick passed => { w with clock := w.clock + passed }
  | .restock catalogue => { w with catalogue }

def service : System Op Cmd Resp Reply World Oracle Move where
  prog := Op.prog lib
  exec := Cmd.exec lib
  env move w := w.move move

abbrev State := Pool Op Cmd Resp Reply World

abbrev Step := Label Op Oracle Move

/-! ## The protocol -/

/-- What a request has read, and whether it has written. -/
structure Phase where
  user : Option User := none
  /-- The selected offer -/
  offer : Option Offer := none
  cart : Option Cart := none
  wrote : Bool := false

namespace Op

/-- The user of a request. -/
def userID : Op → Option ObjectId
  | .addCartItem id _ _ _ | .setCartQuantity id _ _ _ | .removeCartItem id _ _ | .updateProfile id _ _ =>
    some id
  | .resolveRecoveryToken _ => none

/-- The offer that a request selects. -/
def offerID : Op → Option ObjectId
  | .addCartItem _ id _ _ | .setCartQuantity _ id _ _ | .removeCartItem _ id _ => lib.parseID id
  | _ => none

/-- The variant that a request selects. -/
def variantID : Op → Option String
  | .addCartItem _ _ id _ | .setCartQuantity _ _ id _ | .removeCartItem _ _ id => some id
  | _ => none

/-- The quantity that an addition adds. -/
def added : Op → Option Quantity
  | .addCartItem _ _ _ quantity => some quantity
  | _ => none

end Op

namespace Phase

variable (l : Phase)

/-- The entry about a variant in the cart that was read. -/
def findItem? (offerID : ObjectId) (variantID : String) : Option CartItem :=
  l.cart.bind (·.findItem? offerID variantID)

/-- The request has not written yet, and its user and offer are these. -/
structure Selects (op : Op) (userID offerID : ObjectId) (variantID : String) : Prop where
  wrote : l.wrote = false
  user : l.user.map (·.id) = some userID
  offer : l.offer.map (·.id) = some offerID
  variant : op.variantID = some variantID

end Phase

/-- The commands of a request in a phase. -/
def Permits (op : Op) (l : Phase) : Cmd → Prop
  | .findUser id => op.userID = some id
  | .findActiveOffer id => l.wrote ∨ op.offerID lib = some id
  | .findCart userID => l.user.map (·.id) = some userID
  | .setItem userID offerID variantID quantity _ => l.Selects op userID offerID variantID ∧
      ∃ added entry, op.added = some added ∧ l.findItem? offerID variantID = some entry ∧
        quantity = added.value + entry.quantity ∧ quantity ≤ 10
  | .pushItem userID item _ => l.Selects op userID item.offerID item.variantID ∧
      ∃ added, op.added = some added ∧ l.findItem? item.offerID item.variantID = none ∧
        item.quantity = added.value
  | .setQuantity userID offerID variantID quantity _ _ => l.Selects op userID offerID variantID ∧
      op.added = none ∧ 1 ≤ quantity ∧ quantity ≤ 10
  | .pullItem userID offerID variantID _ => l.user.map (·.id) = some userID ∧
      op.offerID lib = some offerID ∧ op.variantID = some variantID ∧ op.added = none
  | .updateUser id updates => l.wrote = false ∧ ∃ user userID values completeOnboarding now,
      l.user = some user ∧ user.id = id ∧ op = .updateProfile userID values completeOnboarding ∧
        values.body now user.body = .ok updates.body
  | _ => True

def next (l : Phase) : (cmd : Cmd) → Resp cmd → Phase
  | .findUser _, .ok user => { l with user }
  | .findActiveOffer _, .ok offer => if l.wrote then l else { l with offer }
  | .findCart _, .ok cart => { l with cart }
  | .setItem _ _ _ _ _, .ok _ | .pushItem _ _ _, .ok _ | .updateUser _ _, .ok _ => { l with wrote := true }
  | .setQuantity _ _ _ _ _ _, .ok _ | .pullItem _ _ _ _, .ok _ => { l with wrote := true }
  | _, _ => l

def Op.protocol (op : Op) : Protocol Cmd Resp Phase := ⟨Permits lib op, next⟩

/-- A reply that reports no error. -/
def Reply.isOk : Reply → Bool
  | .cart (.ok _) | .profile (.ok _) | .checkout (.ok _) => true
  | _ => false

/-- An acknowledged request of a user has written. -/
def Acknowledged (op : Op) (l : Phase) (reply : Reply) : Prop :=
  reply.isOk → op.userID.isSome → l.wrote

end Shopper

/-! ## A small shop -/

namespace Sample

namespace Shopper

open Stylme.Shopper

/-- A library whose hash is the text itself. -/
def library : Library where
  toLibrary := recoveryLibrary
  idText _ := "1"
  parseID
    | "offer" => some 1
    | _ => none
  sha256 := id

def offer : Offer where
  id := 1
  productID := 1
  sellerID := 1
  status := "active"
  variants := [⟨"m", some "m", none⟩]
  inventory := [⟨"m", 8, true⟩]
  salePricePaise := 100000

/-- One offer of one product. -/
def catalogue (offer : Offer) : Catalogue where
  offers := ⟨[offer], List.nodup_singleton _, List.nodup_singleton _⟩
  products := ⟨[⟨1, "active", "public", none, some "Shawl", none⟩], by decide, by decide⟩
  sellers := ⟨[⟨1, "approved"⟩], by decide, by decide⟩
  colors := ∅
  fields := []

def user (id : ObjectId) (phone : Option String) : User where
  id := id
  status := "active"
  email := none
  fullName := none
  phone := phone
  preferences := []
  body := ⟨false, none, none, none, none⟩
  reviewRequired := none
  metadata := []
  onboardingCompleted := true
  updatedAt := 0

/-- A shop with these users, and no carts. -/
def world (users : Users) : World where
  clock := 0
  catalogue := catalogue offer
  users := users
  carts := ∅
  checkouts := ∅
  config := some (Stylme.Recovery.defaultConfig 1 0)
  audits := []
  issued := []
  minted := []

/-- One user without a phone number. -/
def oneUser : Users := ⟨[user 1 none], List.nodup_singleton _, List.nodup_singleton _⟩

/-- Add this many of the variant. -/
def add (userID : ObjectId) (quantity : Quantity) : Op := .addCartItem userID "offer" "m" quantity

def one : Quantity := ⟨1, by decide, by decide⟩

/-- Commands that do not fail. -/
def quiet (n : ℕ) : List Oracle := List.replicate n {}

/-- The texts that a change of the cart draws, one after another from this number. -/
def capturing (n : ℕ) : List Oracle :=
  [{}, {}, { random := toString n }, { random := toString (n + 1) }, {}, {}, {}]

/-- The oracles of an addition to a cart that has this many entries afterwards. -/
def adding (entries n : ℕ) : List Oracle := quiet (8 + 3 * entries) ++ capturing n

/-- The commands of a thread. -/
def execs (t : ℕ) (oracles : List Oracle) : List Step := oracles.map (.exec t)

end Shopper

end Sample

end Stylme
