-- SUMMARY: When a cart request that raises has left the cart alone: nothing goes wrong from its write on.
import Stylme.Shopper.Runs

/-!
# Failed cart requests

A request writes the cart before it writes the checkout. What is raised up to the write
of the cart changes nothing. What is raised later, by the encryption, by a command, or by
the unique index on the phone numbers of checkouts, finds the cart changed.
-/

namespace Stylme

open Conc Backend

namespace Shopper

variable {lib : Library}

/-- The stored cart of the user of the request. -/
def World.cartOf (w : World) (op : Op) : Option Cart := op.userID.bind w.carts.get

/-- A request on a cart has raised. -/
def Reply.isCartError : Reply → Bool
  | .cart (.error _) => true
  | _ => false

/-- The oracle may answer a command with this number of the request: one that is issued before the
write, the write if it fails without being applied, or one that does not fail. -/
def Op.Tolerates (op : Op) (k : ℕ) (o : Oracle) : Prop :=
  k < op.writeAt ∨ k = op.writeAt ∧ o.fault.all (¬ ·.applied) ∨ o.fault.isNone

instance {op : Op} (k : ℕ) (o : Oracle) : Decidable (op.Tolerates k o) :=
  inferInstanceAs (Decidable (_ ∨ _ ∧ _ ∨ _))

/-- If the request comes to write the cart, nothing goes wrong from then on: no command fails, except
that the write may fail without being applied, the encryption is configured, and no other checkout has
the phone number of the user. -/
def Op.Secured (lib : Library) (w : World) (op : Op) (os : List Oracle) : Prop :=
  ∀ userID user cart, op.userID = some userID → w.active? userID = some user → op.edit lib w = .ok cart →
    (∀ k o, os[k]? = some o → op.Tolerates k o) ∧ 32 ≤ lib.keyMaterial.length ∧ ¬ w.phoneTaken lib user

theorem unapplied_tolerates {op : Op} : Unapplied op.Tolerates op.writeAt := by
  intro o htolerates f hf
  rcases htolerates with hlt | ⟨-, hunapplied⟩ | hnone
  · exact absurd hlt (lt_irrefl _)
  · rw [hf] at hunapplied
    simpa using hunapplied
  · rw [hf] at hnone
    cases hnone

theorem reliable_tolerates {op : Op} : Reliable op.Tolerates (op.writeAt + 1) := by
  intro j hj o htolerates
  rcases htolerates with hlt | ⟨heq, -⟩ | hnone
  · omega
  · omega
  · exact Option.isNone_iff_eq_none.1 hnone

/-- A request that raises leaves the cart, if nothing goes wrong once it comes to write it. -/
theorem cartOf_of_error {w w' : World} {op : Op} {os : List Oracle} {reply : Reply}
    (hrun : (op.prog lib).run (Cmd.exec lib) os w = some (reply, w')) (hraised : reply.isCartError)
    (hsecured : op.Secured lib w os) : w'.cartOf op = w.cartOf op := by
  obtain ⟨e, rfl⟩ : ∃ e, reply = .cart (.error e) := by
    cases reply with
    | cart r =>
      cases r with
      | ok shown => cases hraised
      | error e => exact ⟨e, rfl⟩
    | profile r => cases hraised
    | checkout r => cases hraised
  have hcarts : w'.carts = w.carts → w'.cartOf op = w.cartOf op := fun h => by
    rw [World.cartOf, h, World.cartOf]
  by_cases hwrites : ∃ userID user cart,
      op.userID = some userID ∧ w.active? userID = some user ∧ op.edit lib w = .ok cart
  · obtain ⟨userID, user, cart, hop, hactive, hedit⟩ := hwrites
    obtain ⟨htolerates, hkey, hphone⟩ := hsecured userID user cart hop hactive hedit
    have houtcome : ∃ k, op.CartOutcome lib op.Tolerates w (.error e) (k, w') :=
      cartOutcome_of_run htolerates hrun
    obtain ⟨k, ⟨-, rfl⟩ | ⟨user', hop', hactive', -, hsame | ⟨-, hinsecure⟩⟩⟩ := houtcome
    · rfl
    · exact hcarts hsame
    · obtain rfl := Option.some.inj (hop.symm.trans hop')
      obtain rfl := Option.some.inj (hactive.symm.trans hactive')
      exact absurd ⟨unapplied_tolerates, reliable_tolerates, hkey, hphone⟩ hinsecure
  · have houtcome : ∃ k, op.CartOutcome lib (fun _ _ => True) w (.error e) (k, w') :=
      cartOutcome_of_run (fun _ _ _ => trivial) hrun
    obtain ⟨k, ⟨-, rfl⟩ | ⟨user, hop, hactive, -, hsame | ⟨⟨cart, hedit⟩, -⟩⟩⟩ := houtcome
    · rfl
    · exact hcarts hsame
    · exact absurd ⟨user.id, user, cart, hop, hactive, hedit⟩ hwrites

/-! ## Histories -/

abbrev Request := Turn Op Oracle Reply World

/-- In every history in which nothing goes wrong in a request once it comes to write the cart, each
request on a cart that raises has left the stored cart of its user as it was. -/
theorem failed_mutations_change_nothing {w₀ w : World} {h : List Request}
    (hs : (service lib).History w₀ h w) (hsecured : ∀ x ∈ h, x.op.Secured lib x.before x.oracles) :
    ∀ x ∈ h, x.result.isCartError → x.after.cartOf x.op = x.before.cartOf x.op :=
  fun x hx hraised => cartOf_of_error (hs.run hx) hraised (hsecured x hx)

/-- More units than there are in stock. -/
def nine : Quantity := ⟨9, by decide +kernel, by decide +kernel⟩

/-- Two requests for more than there is in stock. -/
theorem failed_mutations_change_nothing_refused : ∃ h w,
    (service Sample.Shopper.library).History (Sample.Shopper.world Sample.Shopper.oneUser) h w ∧
    h.length = 2 ∧ ∀ x ∈ h, x.result.isCartError ∧ x.after.cartOf x.op = x.before.cartOf x.op := by
  have hrun : ((service Sample.Shopper.library).history
      [.inr (Sample.Shopper.add 1 nine, Sample.Shopper.quiet 6), .inl (.tick 60),
        .inr (Sample.Shopper.add 1 nine, Sample.Shopper.quiet 6)]
      [] (Sample.Shopper.world Sample.Shopper.oneUser)).any fun x => x.1.length = 2 ∧
        x.1.all fun y => y.result.isCartError ∧ y.before.checkouts.docs.isEmpty ∧
          y.oracles.all fun o => o.fault.isNone := by decide +kernel
  obtain ⟨h, w, hs, hcheck⟩ := System.History.exists_of_any hrun
  obtain ⟨hlength, hall⟩ := of_decide_eq_true hcheck
  have hcalm : ∀ x ∈ h, x.result.isCartError ∧ x.before.checkouts.docs.isEmpty ∧
      x.oracles.all fun o => o.fault.isNone := fun x hx => of_decide_eq_true (List.all_eq_true.1 hall x hx)
  refine ⟨h, w, hs, hlength, fun x hx => ⟨(hcalm x hx).1, ?_⟩⟩
  refine failed_mutations_change_nothing hs (fun y hy _ _ _ _ _ _ => ⟨fun k o ho => ?_, by decide, ?_⟩)
    x hx (hcalm x hx).1
  · exact .inr (.inr (List.all_eq_true.1 (hcalm y hy).2.2 o (List.mem_of_getElem? ho)))
  · rintro ⟨c, hc, -⟩
    have hempty := List.isEmpty_iff.1 (hcalm y hy).2.1
    rw [Collection.mem_def, hempty] at hc
    exact absurd hc List.not_mem_nil

/-- Two users, of whom the first has a phone number. -/
def twoUsers : Users :=
  ⟨[Sample.Shopper.user 1 (some "+919876543210"), Sample.Shopper.user 2 none], by decide, by decide⟩

/-- Set the phone number of a user. -/
def setPhone (userID : ObjectId) (phone : String) : Move ⊕ Op × List Oracle :=
  .inr (.updateProfile userID { phone := some (some phone) } false, Sample.Shopper.quiet 4)

/-- No command fails, and a user takes over a phone number that another has given up since the other's
last change of the cart: the next addition is stored, and then the checkout is refused. -/
theorem not_failed_mutations_change_nothing : ∃ h w,
    (service Sample.Shopper.library).History (Sample.Shopper.world twoUsers) h w ∧
    (∀ x ∈ h, ∀ o ∈ x.oracles, o.fault.isNone) ∧
    ¬ ∀ x ∈ h, x.result.isCartError → x.after.cartOf x.op = x.before.cartOf x.op := by
  have hrun : ((service Sample.Shopper.library).history
      [.inr (Sample.Shopper.add 1 Sample.Shopper.one, Sample.Shopper.adding 1 0),
        setPhone 1 "+919876543211", setPhone 2 "+919876543210",
        .inr (Sample.Shopper.add 2 Sample.Shopper.one, Sample.Shopper.adding 1 2)]
      [] (Sample.Shopper.world twoUsers)).any fun x =>
        (x.1.all fun y => y.oracles.all fun o => o.fault.isNone) ∧ x.1.any fun y =>
          y.result.isCartError ∧ (y.before.cartOf y.op).isNone ∧ (y.after.cartOf y.op).isSome := by
    decide +kernel
  obtain ⟨h, w, hs, hcheck⟩ := System.History.exists_of_any hrun
  obtain ⟨hcalm, hfails⟩ := of_decide_eq_true hcheck
  obtain ⟨x, hx, hfails⟩ := List.any_eq_true.1 hfails
  obtain ⟨hraised, hnone, hsome⟩ := of_decide_eq_true hfails
  refine ⟨h, w, hs, fun y hy o ho => List.all_eq_true.1 (List.all_eq_true.1 hcalm y hy) o ho, fun hsame => ?_⟩
  rw [hsame x hx hraised, Option.isNone_iff_eq_none.1 hnone] at hsome
  cases hsome

end Shopper

end Stylme
