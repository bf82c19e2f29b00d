-- SUMMARY: Recovery runs side by side, while the shoppers go on changing their checkouts.
import Stylme.Lib.Pool
import Stylme.Recovery.Run

/-!
# Recovery runs side by side

Any number of recovery runs work over one store. Between two commands of a run, shoppers may
do anything to the checkouts: every change of a cart gives its checkout a new identity.
-/

namespace Stylme

open Conc Backend

namespace Recovery

/-- What else happens to the store. -/
inductive Move where
  | tick (passed : ℕ)
  /-- Shoppers change their carts. -/
  | shop (checkouts : Collection Checkout Checkout.id Checkout.externalID)
  /-- An administrator changes the settings. -/
  | configure (config : Option Config)

def World.move (w : World) : Move → World
  | .tick passed => { w with clock := w.clock + passed }
  | .shop checkouts => { w with checkouts }
  | .configure config => { w with config }

/-- Runs, each by whom it was requested. -/
def service (lib : Library) :
    System String Cmd Resp (Except PyErr Summary) World Oracle Move where
  prog := executeRecovery lib
  exec := Cmd.exec
  env e w := w.move e

abbrev State : Type := Pool String Cmd Resp (Except PyErr Summary) World

end Recovery

/-! ## A small store -/

namespace Sample

namespace Recovery

def library : Stylme.Recovery.Library :=
  { recoveryLibrary with
    encrypt := fun nonce value => nonce ++ value
    decrypt := fun
      | "sealed" => some "secret"
      | _ => none
    localTime := fun _ _ => .ok (12 * 3600 * 1000000) }

/-- The default configuration, enabled and with a key. -/
def config : Stylme.Recovery.Config :=
  { Stylme.Recovery.defaultConfig 1 0 with
    enabled := true
    samora := { (Stylme.Recovery.defaultConfig 1 0).samora with orgAPIKeyEncrypted := some "sealed" } }

/-- An abandoned checkout with an encrypted recovery token. -/
def checkout (token : String) : Stylme.Recovery.Checkout where
  id := 1
  checkoutID := "checkout_1"
  externalID := "checkout_1"
  contactPhone := some "+919876543210"
  customerEmail := none
  customerName := some "A B"
  status := "active"
  paymentStatus := "unpaid"
  items := [⟨"Kurta", 1, 99900⟩]
  itemCount := 1
  cartValuePaise := 99900
  currency := "INR"
  topItem := some "Kurta"
  productTitles := ["Kurta"]
  eligibleAt := 0
  recoveryTokenEncrypted := some token
  samora := none
  updatedAt := 0

def world (token : String) : Stylme.Recovery.World where
  clock := 0
  config := some config
  checkouts := ⟨[checkout token], by simp, by simp⟩
  runs := ∅
  locks := ∅
  issued := []

end Recovery

end Sample

end Stylme
