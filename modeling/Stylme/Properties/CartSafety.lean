-- SUMMARY: When concurrent requests keep carts safe: no addition writes over what another has changed since it read the cart.
import Mathlib.Algebra.Order.BigOperators.Group.Finset
import Mathlib.Algebra.Order.Ring.Int
import Stylme.Shopper.Protocol

/-!
# Carts under concurrency

An addition reads the cart, decides whether the variant is new, and writes a value
computed from what it has read. Quantities stay within their bounds whatever happens
between. That no variant has two entries and that no addition is lost needs the write to
find what was read.
-/

namespace Stylme

open Conc Backend

namespace Shopper

/-! ## Safe carts -/

/-- No variant has two entries, and every quantity is between 1 and 10. -/
structure Cart.Safe (cart : Cart) : Prop where
  distinct : cart.items.Pairwise fun a b => ¬ a.is b.offerID b.variantID
  quantities : ∀ item ∈ cart.items, 1 ≤ item.quantity ∧ item.quantity ≤ 10

section Items

variable {offerID : ObjectId} {variantID : String} {quantity : ℤ} {time : Time}
variable {items : List CartItem} {item : CartItem} {cart : Cart}

theorem is_iff : item.is offerID variantID ↔ item.offerID = offerID ∧ item.variantID = variantID :=
  decide_eq_true_iff

/-- An entry after the update of the first one is one from before, perhaps with the new quantity. -/
theorem mem_updateFirst (h : item ∈ updateFirst offerID variantID quantity time items) :
    ∃ old ∈ items, item.offerID = old.offerID ∧ item.variantID = old.variantID ∧
      (item = old ∨ item.quantity = quantity) := by
  induction items with
  | nil => exact absurd h List.not_mem_nil
  | cons first items ih =>
    unfold updateFirst at h
    split at h
    · rcases List.mem_cons.1 h with rfl | h
      · exact ⟨first, List.mem_cons_self, rfl, rfl, .inr rfl⟩
      · exact ⟨item, List.mem_cons_of_mem _ h, rfl, rfl, .inl rfl⟩
    · rcases List.mem_cons.1 h with rfl | h
      · exact ⟨item, List.mem_cons_self, rfl, rfl, .inl rfl⟩
      · obtain ⟨old, hold, hsame⟩ := ih h
        exact ⟨old, List.mem_cons_of_mem _ hold, hsame⟩

theorem pairwise_updateFirst (h : items.Pairwise fun a b => ¬ a.is b.offerID b.variantID) :
    (updateFirst offerID variantID quantity time items).Pairwise
      fun a b => ¬ a.is b.offerID b.variantID := by
  induction items with
  | nil => exact .nil
  | cons first items ih =>
    obtain ⟨hfirst, hrest⟩ := List.pairwise_cons.1 h
    unfold updateFirst
    split
    · exact List.pairwise_cons.2 ⟨hfirst, hrest⟩
    · refine List.pairwise_cons.2 ⟨fun item hitem => ?_, ih hrest⟩
      obtain ⟨old, hold, hoffer, hvariant, -⟩ := mem_updateFirst hitem
      rw [hoffer, hvariant]
      exact hfirst old hold

theorem Cart.Safe.setQuantity {itemTime : Time} (h : cart.Safe) (hone : 1 ≤ quantity) (hten : quantity ≤ 10) :
    (cart.setQuantity offerID variantID quantity itemTime time).Safe := by
  refine ⟨pairwise_updateFirst h.distinct, fun item hitem => ?_⟩
  obtain ⟨old, hold, -, -, rfl | rfl⟩ := mem_updateFirst hitem
  · exact h.quantities item hold
  · exact ⟨hone, hten⟩

theorem Cart.Safe.push (h : cart.Safe) (hnew : cart.findItem? item.offerID item.variantID = none)
    (hone : 1 ≤ item.quantity) (hten : item.quantity ≤ 10) : (cart.push item time).Safe := by
  constructor
  · refine List.pairwise_append.2 ⟨h.distinct, List.pairwise_singleton .., fun a ha b hb => ?_⟩
    obtain rfl := List.mem_singleton.1 hb
    exact List.find?_eq_none.1 hnew a ha
  · intro e he
    rcases List.mem_append.1 he with he | he
    · exact h.quantities e he
    · obtain rfl := List.mem_singleton.1 he
      exact ⟨hone, hten⟩

theorem Cart.Safe.pull (h : cart.Safe) : (cart.pull offerID variantID time).Safe where
  distinct := h.distinct.sublist List.filter_sublist
  quantities item hitem := h.quantities item (List.mem_of_mem_filter hitem)

theorem safe_empty {userID : ObjectId} : (Cart.mk userID [] time time).Safe := ⟨.nil, nofun⟩

theorem find?_updateFirst {entry : CartItem} (h : items.find? (·.is offerID variantID) = some entry) :
    (updateFirst offerID variantID quantity time items).find? (·.is offerID variantID) =
      some { entry with quantity, updatedAt := time } := by
  induction items with
  | nil => cases h
  | cons first items ih =>
    unfold updateFirst
    by_cases his : first.is offerID variantID
    · rw [List.find?_cons_of_pos his] at h
      obtain rfl := Option.some.inj h
      have his' : ({ first with quantity, updatedAt := time } : CartItem).is offerID variantID := his
      rw [if_pos his, List.find?_cons_of_pos his']
    · rw [List.find?_cons_of_neg his] at h
      rw [if_neg his, List.find?_cons_of_neg his]
      exact ih h

/-- A cart has the same entry about every variant but the one that is written. -/
theorem findItem?_setQuantity_of_ne {o : ObjectId} {v : String} {itemTime : Time}
    (h : ¬ (offerID = o ∧ variantID = v)) :
    (cart.setQuantity offerID variantID quantity itemTime time).findItem? o v = cart.findItem? o v := by
  unfold Cart.findItem? Cart.setQuantity
  dsimp only
  induction cart.items with
  | nil => rfl
  | cons first items ih =>
    unfold updateFirst
    split
    · rename_i his
      obtain ⟨rfl, rfl⟩ := is_iff.1 his
      have hfirst : ¬ first.is o v := fun hov => h (is_iff.1 hov)
      have hnew : ¬ ({ first with quantity, updatedAt := itemTime } : CartItem).is o v := hfirst
      rw [List.find?_cons_of_neg hfirst, List.find?_cons_of_neg hnew]
    · rw [List.find?_cons, List.find?_cons, ih]

theorem findItem?_push_of_ne {o : ObjectId} {v : String} (h : ¬ (item.offerID = o ∧ item.variantID = v)) :
    (cart.push item time).findItem? o v = cart.findItem? o v := by
  have hnew : [item].find? (·.is o v) = none := by
    rw [List.find?_cons_of_neg fun his => h (is_iff.1 his), List.find?_nil]
  unfold Cart.findItem? Cart.push
  rw [List.find?_append, hnew, Option.or_none]

theorem findItem?_push_self (h : cart.findItem? item.offerID item.variantID = none) :
    (cart.push item time).findItem? item.offerID item.variantID = some item := by
  have hself : [item].find? (·.is item.offerID item.variantID) = some item :=
    List.find?_cons_of_pos (is_iff.2 ⟨rfl, rfl⟩)
  unfold Cart.findItem? at h
  unfold Cart.findItem? Cart.push
  rw [List.find?_append, h, hself, Option.none_or]

theorem findItem?_pull_of_ne {o : ObjectId} {v : String} (h : ¬ (offerID = o ∧ variantID = v)) :
    (cart.pull offerID variantID time).findItem? o v = cart.findItem? o v := by
  unfold Cart.findItem? Cart.pull
  rw [List.find?_filter]
  congr 1
  funext item
  by_cases hov : item.is o v
  · have hne : ¬ item.is offerID variantID := fun his => h <| by
      obtain ⟨rfl, rfl⟩ := is_iff.1 hov
      obtain ⟨rfl, rfl⟩ := is_iff.1 his
      exact ⟨rfl, rfl⟩
    simp [hov, hne]
  · simp [hov]

end Items

/-! ## Writes -/

namespace World

variable {w w' : World} {cart : Cart} {userID offerID : ObjectId} {variantID : String}

theorem mem_putCart {c : Cart} (h : c ∈ (w.putCart cart).carts) : c = cart ∨ c ∈ w.carts :=
  ((Collection.mem_replaceOne replaceOne_putCart).1 h).imp_right (·.1)

theorem findItem?_of_carts (h : w'.carts = (w.putCart cart).carts) :
    w'.findItem? cart.userID offerID variantID = cart.findItem? offerID variantID := by
  unfold findItem?
  rw [h, Collection.get_replaceOne_self replaceOne_putCart]
  rfl

theorem findItem?_of_carts_of_ne (h : w'.carts = (w.putCart cart).carts) (hne : userID ≠ cart.userID) :
    w'.findItem? userID offerID variantID = w.findItem? userID offerID variantID := by
  unfold findItem?
  rw [h, Collection.get_replaceOne_of_ne replaceOne_putCart hne]

end World

namespace Cmd

/-- The cart that a command stores, if it does not fail. -/
def cartWrite (w : World) : Cmd → Option Cart
  | .setItem userID offerID variantID quantity time =>
    (w.cartWith? userID offerID variantID).map (·.setQuantity offerID variantID quantity time time)
  | .pushItem userID item time =>
    some (((w.carts.get userID).getD ⟨userID, [], time, time⟩).push item time)
  | .setQuantity userID offerID variantID quantity itemTime time =>
    (w.cartWith? userID offerID variantID).map (·.setQuantity offerID variantID quantity itemTime time)
  | .pullItem userID offerID variantID time => (w.carts.get userID).map (·.pull offerID variantID time)
  | _ => none

/-- The user, the offer and the variant whose entry a command writes. -/
def target : Cmd → Option (ObjectId × ObjectId × String)
  | .setItem userID offerID variantID _ _ | .setQuantity userID offerID variantID _ _ _ =>
    some (userID, offerID, variantID)
  | .pushItem userID item _ => some (userID, item.offerID, item.variantID)
  | .pullItem userID offerID variantID _ => some (userID, offerID, variantID)
  | _ => none

end Cmd

variable {lib : Library} {op : Op} {l : Phase} {cmd : Cmd} {o : Oracle} {w w' : World} {cart : Cart}

/-- A write of the carts takes effect, or fails without an answer, or finds no cart to write. -/
theorem exec_carts {r : Resp cmd} (h : cmd.exec lib o w = some (r, w')) :
    (w'.carts = w.carts ∧ ∀ a, r = .ok a → cmd.cartWrite w = none) ∨
      ∃ cart, cmd.cartWrite w = some cart ∧ w'.carts = (w.putCart cart).carts := by
  have hperform : ∀ {a : Except PyErr (Answer cmd)} {cart : Cart}, cmd.cartWrite w = some cart →
      perform o.fault a w (w.putCart cart) = some (r, w') → (w'.carts = w.carts ∧
        ∀ a, r = .ok a → cmd.cartWrite w = none) ∨
        ∃ cart, cmd.cartWrite w = some cart ∧ w'.carts = (w.putCart cart).carts := by
    intro a cart hcart h
    rcases perform_eq h with ⟨-, -, rfl⟩ | ⟨f, -, rfl, rfl⟩
    · exact .inr ⟨cart, hcart, rfl⟩
    · cases f.applied with
      | true => exact .inr ⟨cart, hcart, rfl⟩
      | false => exact .inl ⟨rfl, nofun⟩
  have hother : ∀ {a : Except PyErr (Answer cmd)} {w₁ : World},
      perform o.fault a w w₁ = some (r, w') → w₁.carts = w.carts → cmd.cartWrite w = none →
      (w'.carts = w.carts ∧ ∀ a, r = .ok a → cmd.cartWrite w = none) ∨
        ∃ cart, cmd.cartWrite w = some cart ∧ w'.carts = (w.putCart cart).carts := by
    intro a w₁ h hcarts hnone
    rcases perform_state h with rfl | rfl
    · exact .inl ⟨hcarts, fun _ _ => hnone⟩
    · exact .inl ⟨rfl, fun _ _ => hnone⟩
  have hrespond : ∀ {a : Except PyErr (Answer cmd)}, cmd.cartWrite w = none →
      respond o.fault a w = some (r, w') → (w'.carts = w.carts ∧
        ∀ a, r = .ok a → cmd.cartWrite w = none) ∨
        ∃ cart, cmd.cartWrite w = some cart ∧ w'.carts = (w.putCart cart).carts :=
    fun hnone h => .inl ⟨(respond_eq h).1 ▸ rfl, fun _ _ => hnone⟩
  cases cmd with
  | pushItem userID item time => exact hperform rfl h
  | setItem userID offerID variantID quantity time =>
    simp only [Cmd.exec] at h
    split at h
    · rename_i hnone
      exact hrespond (by rw [Cmd.cartWrite, hnone]; rfl) h
    · rename_i cart hcart
      exact hperform (by rw [Cmd.cartWrite, hcart]; rfl) h
  | setQuantity userID offerID variantID quantity itemTime time =>
    simp only [Cmd.exec] at h
    split at h
    · rename_i hnone
      exact hrespond (by rw [Cmd.cartWrite, hnone]; rfl) h
    · rename_i cart hcart
      exact hperform (by rw [Cmd.cartWrite, hcart]; rfl) h
  | pullItem userID offerID variantID time =>
    simp only [Cmd.exec] at h
    split at h
    · rename_i hnone
      exact hrespond (by rw [Cmd.cartWrite, hnone]; rfl) h
    · rename_i cart hcart
      exact hperform (by rw [Cmd.cartWrite, hcart]; rfl) h
  | insertAudit entry => exact hother h rfl rfl
  | updateUser id updates =>
    simp only [Cmd.exec] at h
    split at h
    · exact hrespond rfl h
    · split at h
      · exact hrespond rfl h
      · exact hother h rfl rfl
  | createConfig =>
    simp only [Cmd.exec] at h
    split at h
    · exact hrespond rfl h
    · exact hother h rfl rfl
  | writeCheckout userID snapshot secret =>
    simp only [Cmd.exec] at h
    split at h
    · exact hrespond rfl h
    · exact hother h rfl rfl
  | resolveToken tokenHash time =>
    simp only [Cmd.exec] at h
    split at h
    · exact hrespond rfl h
    · exact hother h rfl rfl
  | uuid | token =>
    simp only [Cmd.exec, World.draw] at h
    split at h
    · cases h
    · obtain ⟨-, rfl⟩ := Prod.mk.inj (Option.some.inj h)
      exact .inl ⟨rfl, fun _ _ => rfl⟩
  | encrypt value =>
    simp only [Cmd.exec] at h
    split at h <;>
    · obtain ⟨-, rfl⟩ := Prod.mk.inj (Option.some.inj h)
      exact .inl ⟨rfl, fun _ _ => rfl⟩
  | now =>
    obtain ⟨-, rfl⟩ := Prod.mk.inj (Option.some.inj h)
    exact .inl ⟨rfl, fun _ _ => rfl⟩
  | _ => exact hrespond rfl h

/-! ## What a request writes -/

/-- A request is about this variant in the cart of this user. -/
def Op.Targets (lib : Library) (op : Op) (userID offerID : ObjectId) (variantID : String) : Prop :=
  op.userID = some userID ∧ op.offerID lib = some offerID ∧ op.variantID = some variantID

instance {userID offerID : ObjectId} {variantID : String} :
    Decidable (op.Targets lib userID offerID variantID) := inferInstanceAs (Decidable (_ ∧ _ ∧ _))

/-- What a request has read is what it asked for, and a cart that it has read is safe. -/
structure Phase.Sound (lib : Library) (op : Op) (l : Phase) : Prop where
  user : ∀ user, l.user = some user → op.userID = some user.id
  offer : ∀ offer, l.offer = some offer → op.offerID lib = some offer.id
  cart : ∀ cart, l.cart = some cart → cart.Safe

theorem sound_start : Phase.Sound lib op {} := by
  constructor
  all_goals
    intro _ h
    cases h

theorem Phase.Sound.next {r : Resp cmd} (h : l.Sound lib op) (hpermits : Permits lib op l cmd)
    (hstored : ∀ cart ∈ w.carts, cart.Safe) (hexec : cmd.exec lib o w = some (r, w')) :
    (next l cmd r).Sound lib op := by
  cases r with
  | error e => cases cmd <;> exact h
  | ok a =>
    cases cmd with
    | findUser id =>
      refine ⟨fun user huser => ?_, h.offer, h.cart⟩
      obtain rfl : a = some user := huser
      have hget := (Option.filter_eq_some_iff.1 (Except.ok.inj (respond_ok hexec))).1
      rw [(Collection.get_eq_some_iff.1 hget).2]
      exact hpermits
    | findActiveOffer id =>
      simp only [Shopper.next]
      split
      · exact h
      · rename_i hwrote
        refine ⟨h.user, fun offer hoffer => ?_, h.cart⟩
        obtain rfl : a = some offer := hoffer
        have hget := (Option.filter_eq_some_iff.1 (Except.ok.inj (respond_ok hexec))).1
        rw [(Collection.get_eq_some_iff.1 hget).2]
        exact hpermits.resolve_left hwrote
    | findCart id =>
      refine ⟨h.user, h.offer, fun cart hcart => ?_⟩
      obtain rfl : a = some cart := hcart
      exact hstored cart (Collection.get_eq_some_iff.1 (Except.ok.inj (respond_ok hexec))).1
    | _ => exact ⟨h.user, h.offer, h.cart⟩

theorem Phase.Selects.targets {userID offerID : ObjectId} {variantID : String}
    (hselects : l.Selects op userID offerID variantID) (h : l.Sound lib op) :
    op.Targets lib userID offerID variantID := by
  obtain ⟨user, huser, rfl⟩ := Option.map_eq_some_iff.1 hselects.user
  obtain ⟨offer, hoffer, rfl⟩ := Option.map_eq_some_iff.1 hselects.offer
  exact ⟨h.user user huser, h.offer offer hoffer, hselects.variant⟩

/-- A request writes only the entry that it is about. -/
theorem targets_of_target {userID offerID : ObjectId} {variantID : String} (h : l.Sound lib op)
    (hpermits : Permits lib op l cmd) (htarget : cmd.target = some (userID, offerID, variantID)) :
    op.Targets lib userID offerID variantID := by
  cases cmd with
  | setItem _ _ _ _ _ | pushItem _ _ _ | setQuantity _ _ _ _ _ _ =>
    obtain ⟨rfl, rfl, rfl⟩ := by simpa only [Cmd.target, Option.some.injEq, Prod.mk.injEq] using htarget
    exact hpermits.1.targets h
  | pullItem id _ _ _ =>
    obtain ⟨rfl, rfl, rfl⟩ := by simpa only [Cmd.target, Option.some.injEq, Prod.mk.injEq] using htarget
    obtain ⟨hid, hoffer, hvariant, -⟩ := hpermits
    obtain ⟨user, huser, rfl⟩ := Option.map_eq_some_iff.1 hid
    exact ⟨h.user user huser, hoffer, hvariant⟩
  | _ => cases htarget

theorem targets_unique {userID userID' offerID offerID' : ObjectId} {variantID variantID' : String}
    (h : op.Targets lib userID offerID variantID) (h' : op.Targets lib userID' offerID' variantID') :
    userID = userID' ∧ offerID = offerID' ∧ variantID = variantID' :=
  ⟨Option.some.inj (h.1.symm.trans h'.1), Option.some.inj (h.2.1.symm.trans h'.2.1),
    Option.some.inj (h.2.2.symm.trans h'.2.2)⟩

theorem World.findItem?_of_get {userID offerID : ObjectId} {variantID : String}
    (h : w.carts.get userID = some cart) :
    w.findItem? userID offerID variantID = cart.findItem? offerID variantID := by
  rw [World.findItem?, h]
  rfl

/-- What is stored differs from the user's cart in one entry only. -/
theorem cartWrite_eq (h : cmd.cartWrite w = some cart) : ∃ offerID variantID,
    cmd.target = some (cart.userID, offerID, variantID) ∧
      ∀ o v, ¬ (offerID = o ∧ variantID = v) → cart.findItem? o v = w.findItem? cart.userID o v := by
  cases cmd with
  | setItem id offerID variantID quantity time | setQuantity id offerID variantID quantity itemTime time =>
    obtain ⟨old, hold, rfl⟩ := Option.map_eq_some_iff.1 h
    have hget := (World.cartWith?_eq_some hold).1
    obtain rfl : old.userID = id := (Collection.get_eq_some_iff.1 hget).2
    refine ⟨offerID, variantID, rfl, fun o v hne => ?_⟩
    exact (findItem?_setQuantity_of_ne hne).trans (World.findItem?_of_get hget).symm
  | pullItem id offerID variantID time =>
    obtain ⟨old, hget, rfl⟩ := Option.map_eq_some_iff.1 h
    obtain rfl : old.userID = id := (Collection.get_eq_some_iff.1 hget).2
    refine ⟨offerID, variantID, rfl, fun o v hne => ?_⟩
    exact (findItem?_pull_of_ne hne).trans (World.findItem?_of_get hget).symm
  | pushItem id item time =>
    obtain rfl := Option.some.inj h
    cases hget : w.carts.get id with
    | some old =>
      obtain rfl : old.userID = id := (Collection.get_eq_some_iff.1 hget).2
      refine ⟨item.offerID, item.variantID, rfl, fun o v hne => ?_⟩
      exact (findItem?_push_of_ne hne).trans (World.findItem?_of_get hget).symm
    | none =>
      refine ⟨item.offerID, item.variantID, rfl, fun o v hne => ?_⟩
      have hnone : w.findItem? id o v = none := by
        rw [World.findItem?, hget]
        rfl
      exact (findItem?_push_of_ne hne).trans hnone.symm
  | _ => cases h

/-- A write of the carts leaves every entry but its target. -/
theorem findItem?_of_target_ne {userID offerID : ObjectId} {variantID : String}
    (hcart : cmd.cartWrite w = some cart) (hw' : w'.carts = (w.putCart cart).carts)
    (hne : cmd.target ≠ some (userID, offerID, variantID)) :
    w'.findItem? userID offerID variantID = w.findItem? userID offerID variantID := by
  obtain ⟨o, v, htarget, hrest⟩ := cartWrite_eq hcart
  by_cases huser : userID = cart.userID
  · subst huser
    rw [World.findItem?_of_carts hw']
    refine hrest _ _ fun heq => hne ?_
    rw [htarget, heq.1, heq.2]
  · exact World.findItem?_of_carts_of_ne hw' huser

/-! ## Undisturbed additions -/

section Views

variable (lib)

/-- Every request for the variant in the cart of the user is an addition. -/
def OnlyAdds (views : ℕ → Option (View Op Phase)) (userID offerID : ObjectId) (variantID : String) :
    Prop :=
  ∀ t view, views t = some view → view.op.Targets lib userID offerID variantID → view.op.added.isSome

/-- The protocols' view of the requests. -/
def views (σ : State) : ℕ → Option (View Op Phase) := (σ.config (Op.protocol lib) fun _ => {}).view

/-- The write of an addition finds what the request has read: no entry where it appends one, and,
when the variant is only ever added, the quantity to which it adds. -/
def FindsRead (views : ℕ → Option (View Op Phase)) (l : Phase) (w : World) : Cmd → Prop
  | .pushItem userID item _ => w.findItem? userID item.offerID item.variantID = none
  | .setItem userID offerID variantID _ _ => OnlyAdds lib views userID offerID variantID →
    (w.findItem? userID offerID variantID).map (·.quantity) =
      (l.findItem? offerID variantID).map (·.quantity)
  | _ => True

/-- No addition writes over what has changed since it read the cart. -/
def Undisturbed (σ : State) : Step → Prop
  | .exec t _ => ∀ op cmd, σ.next t = some (op, cmd) →
    FindsRead lib (views lib σ) ((op.protocol lib).phase {} (σ.trace t)) σ.shared cmd
  | _ => True

/-- The quantity of the variant that a request has added, if it has written. -/
def Op.wroteTo (op : Op) (l : Phase) (userID offerID : ObjectId) (variantID : String) : ℤ :=
  if l.wrote ∧ op.Targets lib userID offerID variantID then op.added.elim 0 (·.value) else 0

end Views

variable {views : ℕ → Option (View Op Phase)} {userID offerID : ObjectId} {variantID : String}

theorem added_nonneg : 0 ≤ op.added.elim 0 (·.value) := by
  cases op.added with
  | none => exact le_rfl
  | some quantity => exact zero_le_one.trans quantity.one_le

theorem findItem?_safe {entry : CartItem} (h : l.Sound lib op) (hentry : l.findItem? offerID variantID = some entry) :
    1 ≤ entry.quantity ∧ entry.quantity ≤ 10 := by
  obtain ⟨cart, hcart, hentry⟩ := Option.bind_eq_some_iff.1 hentry
  exact (h.cart cart hcart).quantities entry (List.mem_of_find?_eq_some hentry)

/-- Every cart that is stored is safe. -/
theorem safe_of_cartWrite (hstored : ∀ cart ∈ w.carts, cart.Safe) (h : l.Sound lib op)
    (hpermits : Permits lib op l cmd) (hfinds : FindsRead lib views l w cmd)
    (hcart : cmd.cartWrite w = some cart) : cart.Safe := by
  have hget : ∀ {id : ObjectId} {c : Cart}, w.carts.get id = some c → c.Safe := fun hget =>
    hstored _ (Collection.get_eq_some_iff.1 hget).1
  cases cmd with
  | setItem id o v quantity time =>
    obtain ⟨old, hold, rfl⟩ := Option.map_eq_some_iff.1 hcart
    obtain ⟨-, added, entry, -, hentry, rfl, hten⟩ := hpermits
    have hone := add_le_add added.one_le (findItem?_safe h hentry).1
    exact (hget (World.cartWith?_eq_some hold).1).setQuantity (le_trans (by decide) hone) hten
  | setQuantity id o v quantity itemTime time =>
    obtain ⟨old, hold, rfl⟩ := Option.map_eq_some_iff.1 hcart
    exact (hget (World.cartWith?_eq_some hold).1).setQuantity hpermits.2.2.1 hpermits.2.2.2
  | pullItem id o v time =>
    obtain ⟨old, hold, rfl⟩ := Option.map_eq_some_iff.1 hcart
    exact (hget hold).pull
  | pushItem id item time =>
    obtain rfl := Option.some.inj hcart
    obtain ⟨-, added, -, -, hquantity⟩ := hpermits
    have hbounds : 1 ≤ item.quantity ∧ item.quantity ≤ 10 := hquantity ▸ ⟨added.one_le, added.le_ten⟩
    cases hold : w.carts.get id with
    | none => exact safe_empty.push rfl hbounds.1 hbounds.2
    | some old => exact (hget hold).push ((World.findItem?_of_get hold).symm.trans hfinds) hbounds.1 hbounds.2
  | _ => cases hcart

theorem next_error {e : PyErr} : next l cmd (.error e) = l := by
  cases cmd <;> rfl

/-- A request that has written by this command has written its target, or its user's profile. -/
theorem next_wrote {r : Resp cmd} (h : (next l cmd r).wrote) : l.wrote ∨ (∃ a, r = .ok a) ∧
    (cmd.target.isSome ∨ ∃ id updates, cmd = .updateUser id updates) := by
  cases r with
  | error e => exact .inl (next_error (l := l) ▸ h)
  | ok a =>
    cases cmd with
    | setItem _ _ _ _ _ | pushItem _ _ _ | setQuantity _ _ _ _ _ _ | pullItem _ _ _ _ =>
      exact .inr ⟨⟨a, rfl⟩, .inl rfl⟩
    | updateUser id updates => exact .inr ⟨⟨a, rfl⟩, .inr ⟨id, updates, rfl⟩⟩
    | findActiveOffer id =>
      refine .inl ?_
      simp only [next] at h
      split at h
      · assumption
      · exact h
    | _ => exact .inl h

/-- A command that writes another entry adds nothing to this one. -/
theorem wroteTo_of_target_ne {r : Resp cmd} (h : l.Sound lib op) (hpermits : Permits lib op l cmd)
    (hne : cmd.target ≠ some (userID, offerID, variantID)) :
    op.wroteTo lib (next l cmd r) userID offerID variantID ≤ op.wroteTo lib l userID offerID variantID := by
  unfold Op.wroteTo
  split
  · rename_i hnext
    obtain ⟨hwrote, htargets⟩ := hnext
    rcases next_wrote hwrote with hwrote | ⟨-, htarget | ⟨id, updates, rfl⟩⟩
    · rw [if_pos ⟨hwrote, htargets⟩]
    · obtain ⟨⟨id, o, v⟩, htarget⟩ := Option.isSome_iff_exists.1 htarget
      obtain ⟨rfl, rfl, rfl⟩ := targets_unique (targets_of_target h hpermits htarget) htargets
      exact absurd htarget hne
    · obtain ⟨-, user, id', values, complete, time, -, -, rfl, -⟩ := hpermits
      cases htargets.2.2
  · split
    · exact added_nonneg
    · exact le_rfl

theorem wroteTo_nonneg : 0 ≤ op.wroteTo lib l userID offerID variantID := by
  unfold Op.wroteTo
  split
  · exact added_nonneg
  · exact le_rfl

theorem wroteTo_le_added : op.wroteTo lib l userID offerID variantID ≤ op.added.elim 0 (·.value) := by
  unfold Op.wroteTo
  split
  · exact le_rfl
  · exact added_nonneg

/-- The write of an addition adds to the stored quantity, or it fails and changes nothing. -/
theorem quantity_of_addition {r : Resp cmd} (hpermits : Permits lib op l cmd)
    (hfinds : FindsRead lib views l w cmd) (honly : OnlyAdds lib views userID offerID variantID)
    (hadds : op.added.isSome) (htarget : cmd.target = some (userID, offerID, variantID))
    (hexec : cmd.exec lib o w = some (r, w')) :
    (next l cmd r = l ∧ w'.carts = w.carts) ∨ w'.quantity userID offerID variantID =
      w.quantity userID offerID variantID + op.added.elim 0 (·.value) := by
  have hunwritten : w'.carts = w.carts ∧ (∀ a, r = .ok a → cmd.cartWrite w = none) →
      (∃ cart, cmd.cartWrite w = some cart) → next l cmd r = l ∧ w'.carts = w.carts := by
    rintro ⟨hcarts, hnone⟩ ⟨cart, hcart⟩
    cases r with
    | error e => exact ⟨next_error, hcarts⟩
    | ok a =>
      rw [hnone a rfl] at hcart
      cases hcart
  cases cmd with
  | setItem id offer variant quantity time =>
    obtain ⟨rfl, rfl, rfl⟩ := by simpa only [Cmd.target, Option.some.injEq, Prod.mk.injEq] using htarget
    obtain ⟨-, added, entry, hadded, hentry, rfl, -⟩ := hpermits
    have hmap := hfinds honly
    rw [hentry, Option.map_some] at hmap
    obtain ⟨stored, hstored, hquantity⟩ := Option.map_eq_some_iff.1 hmap
    have hold : w.quantity id offer variant = entry.quantity := by
      rw [World.quantity, hstored, ← hquantity]
      rfl
    rcases exec_carts hexec with hsame | ⟨cart, hcart, hcarts⟩
    · obtain ⟨c, hget, hc⟩ := Option.bind_eq_some_iff.1 hstored
      have hwith : w.cartWith? id offer variant = some c :=
        Option.filter_eq_some_iff.2 ⟨hget, by rw [hc]; rfl⟩
      exact .inl (hunwritten hsame ⟨_, by rw [Cmd.cartWrite, hwith]; rfl⟩)
    · obtain ⟨c, hwith, rfl⟩ := Option.map_eq_some_iff.1 hcart
      obtain ⟨hget, e, he⟩ := World.cartWith?_eq_some hwith
      obtain rfl : c.userID = id := (Collection.get_eq_some_iff.1 hget).2
      refine .inr ?_
      have hnew : w'.findItem? c.userID offer variant = _ :=
        (World.findItem?_of_carts hcarts).trans (find?_updateFirst he)
      rw [hold, hadded, World.quantity, hnew]
      exact add_comm ..
  | pushItem id item time =>
    obtain ⟨rfl, rfl, rfl⟩ := by simpa only [Cmd.target, Option.some.injEq, Prod.mk.injEq] using htarget
    obtain ⟨-, added, hadded, -, hquantity⟩ := hpermits
    have hold : w.quantity id item.offerID item.variantID = 0 := by
      rw [World.quantity, hfinds]
      rfl
    rcases exec_carts hexec with hsame | ⟨cart, hcart, hcarts⟩
    · exact .inl (hunwritten hsame ⟨_, rfl⟩)
    · obtain rfl := Option.some.inj hcart
      refine .inr ?_
      have hnew : w'.findItem? id item.offerID item.variantID = some item := by
        cases hget : w.carts.get id with
        | none =>
          rw [hget] at hcarts
          exact (World.findItem?_of_carts hcarts).trans (findItem?_push_self rfl)
        | some c =>
          rw [hget] at hcarts
          obtain rfl : c.userID = id := (Collection.get_eq_some_iff.1 hget).2
          exact (World.findItem?_of_carts hcarts).trans
            (findItem?_push_self ((World.findItem?_of_get hget).symm.trans hfinds))
      rw [hold, hadded, World.quantity, hnew, zero_add]
      exact hquantity
  | setQuantity id offer variant quantity itemTime time =>
    rw [hpermits.2.1] at hadds
    cases hadds
  | pullItem id offer variant time =>
    rw [hpermits.2.2.2] at hadds
    cases hadds
  | _ => cases htarget

/-- What a command adds to what its request has added, it adds to the stored quantity. -/
theorem wroteTo_le {r : Resp cmd} (h : l.Sound lib op) (hpermits : Permits lib op l cmd)
    (hfinds : FindsRead lib views l w cmd) (honly : OnlyAdds lib views userID offerID variantID)
    (hadds : op.Targets lib userID offerID variantID → op.added.isSome)
    (hexec : cmd.exec lib o w = some (r, w')) :
    w.quantity userID offerID variantID ≤ w'.quantity userID offerID variantID ∧
      op.wroteTo lib (next l cmd r) userID offerID variantID + w.quantity userID offerID variantID ≤
        op.wroteTo lib l userID offerID variantID + w'.quantity userID offerID variantID := by
  have hsame : w'.findItem? userID offerID variantID = w.findItem? userID offerID variantID →
      w'.quantity userID offerID variantID = w.quantity userID offerID variantID :=
    congrArg fun entry : Option CartItem => entry.elim 0 (·.quantity)
  by_cases htarget : cmd.target = some (userID, offerID, variantID)
  · rcases quantity_of_addition hpermits hfinds honly (hadds (targets_of_target h hpermits htarget)) htarget
      hexec with ⟨hnext, hcarts⟩ | hquantity
    · rw [hnext, hsame (by rw [World.findItem?, hcarts, World.findItem?])]
      exact ⟨le_rfl, le_rfl⟩
    · rw [hquantity]
      refine ⟨le_add_of_nonneg_right added_nonneg, ?_⟩
      have hle : op.wroteTo lib (next l cmd r) userID offerID variantID ≤ _ := wroteTo_le_added
      have hnonneg : 0 ≤ op.wroteTo lib l userID offerID variantID := wroteTo_nonneg
      omega
  · have hquantity : w'.quantity userID offerID variantID = w.quantity userID offerID variantID := by
      rcases exec_carts hexec with ⟨hcarts, -⟩ | ⟨cart, hcart, hcarts⟩
      · exact hsame (by rw [World.findItem?, hcarts, World.findItem?])
      · exact hsame (findItem?_of_target_ne hcart hcarts htarget)
    rw [hquantity]
    exact ⟨le_rfl, add_le_add_left (wroteTo_of_target_ne h hpermits htarget) _⟩

/-! ## Runs -/

/-- What a thread has added to the entry, as its protocol sees it. -/
def wroteBy (lib : Library) (views : ℕ → Option (View Op Phase)) (userID offerID : ObjectId)
    (variantID : String) (t : ℕ) : ℤ :=
  (views t).elim 0 fun view => view.op.wroteTo lib view.phase userID offerID variantID

/-- What the addition of a thread has added to the entry, once it is acknowledged without error. -/
def acknowledged (lib : Library) (σ : State) (userID offerID : ObjectId) (variantID : String) (t : ℕ) : ℤ :=
  (σ.result t).elim 0 fun (op, reply) =>
    if reply.isOk ∧ op.Targets lib userID offerID variantID then op.added.elim 0 (·.value) else 0

/-- The carts are safe, requests have read safe carts, and no addition to a variant that is only
added has been lost. -/
structure Kept (lib : Library) (w₀ : World) (cfg : Config Op Cmd Resp World Phase) : Prop where
  stored : ∀ cart ∈ cfg.shared.carts, cart.Safe
  sound : ∀ t op l b, cfg.view t = some ⟨op, l, b⟩ → l.Sound lib op
  total : ∀ userID offerID variantID, OnlyAdds lib cfg.view userID offerID variantID → ∀ T : Finset ℕ,
    w₀.quantity userID offerID variantID + ∑ t ∈ T, wroteBy lib cfg.view userID offerID variantID t ≤
      cfg.shared.quantity userID offerID variantID

theorem OnlyAdds.of_update {t : ℕ} {l' : Phase} {b b' : Bool}
    (h : OnlyAdds lib (Function.update views t (some ⟨op, l', b'⟩)) userID offerID variantID)
    (ht : ∀ view, views t = some view → view = ⟨op, l, b⟩) : OnlyAdds lib views userID offerID variantID := by
  intro u view hview htargets
  by_cases hut : u = t
  · subst hut
    obtain rfl := ht view hview
    exact h u ⟨op, l', b'⟩ (Function.update_self ..) htargets
  · exact h u view (by rwa [Function.update_of_ne hut]) htargets

theorem wroteBy_update {t u : ℕ} {b : Bool} : wroteBy lib (Function.update views t (some ⟨op, l, b⟩))
      userID offerID variantID u =
    if u = t then op.wroteTo lib l userID offerID variantID
    else wroteBy lib views userID offerID variantID u := by
  unfold wroteBy
  rw [Function.update_apply]
  split <;> rfl

/-- When one term of a sum grows by at most `d`, so does the sum. -/
theorem sum_le_sum_add {f g : ℕ → ℤ} {t : ℕ} {d : ℤ} (hrest : ∀ u, u ≠ t → g u = f u)
    (ht : g t ≤ f t + d) (hd : 0 ≤ d) (T : Finset ℕ) : ∑ u ∈ T, g u ≤ ∑ u ∈ T, f u + d := by
  by_cases hmem : t ∈ T
  · have herase : ∑ u ∈ T.erase t, g u = ∑ u ∈ T.erase t, f u :=
      Finset.sum_congr rfl fun u hu => hrest u (Finset.ne_of_mem_erase hu)
    have hg := Finset.add_sum_erase T g hmem
    have hf := Finset.add_sum_erase T f hmem
    omega
  · have hsame : ∑ u ∈ T, g u = ∑ u ∈ T, f u :=
      Finset.sum_congr rfl fun u hu => hrest u fun heq => hmem (heq ▸ hu)
    omega

section Steps

variable {w₀ : World} {σ σ' : State} {step : Step} {cfg : Config Op Cmd Resp World Phase}

theorem kept_step (hok : Undisturbed lib σ step)
    (h : Kept lib w₀ (σ.config (Op.protocol lib) fun _ => {}))
    (hstep : (service lib).Steps (Op.protocol lib) (fun _ => {}) σ step cfg) : Kept lib w₀ cfg := by
  cases hstep with
  | spawn ht =>
    rename_i t op
    refine ⟨h.stored, fun u op' l b hview => ?_, fun userID offerID variantID honly T => ?_⟩
    · rcases View.of_update hview with ⟨-, rfl, rfl, -⟩ | ⟨-, hview⟩
      · exact sound_start
      · exact h.sound u op' l b hview
    · have hviews := honly.of_update (l := {}) (b := true) fun view hview => by
        rw [ht] at hview
        cases hview
      refine le_of_eq_of_le (congrArg _ (Finset.sum_congr rfl fun u _ => ?_))
        (h.total userID offerID variantID hviews T)
      rw [wroteBy_update]
      split
      · rename_i hut
        rw [hut, wroteBy, ht]
        rfl
      · rfl
  | @exec t o op l cmd r w' hnext ht hpermits hexec =>
    have hsound := h.sound t op l true ht
    have hfinds : FindsRead lib (Shopper.views lib σ) l σ.shared cmd := by
      rw [Pool.phase_of_view ht]
      exact hok op cmd hnext
    refine ⟨?_, fun u op' l' b hview => ?_, fun userID offerID variantID honly T => ?_⟩
    · intro cart hcart
      rcases exec_carts hexec with ⟨hcarts, -⟩ | ⟨c, hwrite, hcarts⟩
      · exact h.stored cart (hcarts ▸ hcart)
      · rcases World.mem_putCart (hcarts ▸ hcart) with rfl | hcart
        · exact safe_of_cartWrite h.stored hsound hpermits hfinds hwrite
        · exact h.stored cart hcart
    · rcases View.of_update hview with ⟨-, rfl, rfl, -⟩ | ⟨-, hview⟩
      · exact hsound.next hpermits h.stored hexec
      · exact h.sound u op' l' b hview
    · have hviews := honly.of_update fun view hview => Option.some.inj (hview.symm.trans ht)
      obtain ⟨hgrows, hadds⟩ := wroteTo_le hsound hpermits hfinds hviews
        (hviews t _ ht) hexec
      have hself : wroteBy lib (Shopper.views lib σ) userID offerID variantID t =
          op.wroteTo lib l userID offerID variantID := by
        rw [wroteBy, Shopper.views, ht]
        rfl
      have hbefore : w₀.quantity userID offerID variantID +
          ∑ u ∈ T, wroteBy lib (Shopper.views lib σ) userID offerID variantID u ≤
            σ.shared.quantity userID offerID variantID := h.total userID offerID variantID hviews T
      have hsum : ∑ u ∈ T, wroteBy lib (Function.update (Shopper.views lib σ) t
            (some ⟨op, next l cmd r, true⟩)) userID offerID variantID u ≤
          ∑ u ∈ T, wroteBy lib (Shopper.views lib σ) userID offerID variantID u +
            (w'.quantity userID offerID variantID - σ.shared.quantity userID offerID variantID) := by
        refine sum_le_sum_add (t := t) (fun u hut => ?_) ?_ (sub_nonneg.2 hgrows) T
        · rw [wroteBy_update, if_neg hut]
        · rw [wroteBy_update, if_pos rfl, hself]
          omega
      calc
        _ ≤ _ := add_le_add_right hsum (w₀.quantity userID offerID variantID)
        _ = (w₀.quantity userID offerID variantID +
              ∑ u ∈ T, wroteBy lib (Shopper.views lib σ) userID offerID variantID u) +
            (w'.quantity userID offerID variantID - σ.shared.quantity userID offerID variantID) :=
          (add_assoc ..).symm
        _ ≤ σ.shared.quantity userID offerID variantID +
            (w'.quantity userID offerID variantID - σ.shared.quantity userID offerID variantID) :=
          add_le_add_left hbefore _
        _ = w'.quantity userID offerID variantID := add_sub_cancel ..
  | crash ht =>
    rename_i t op l b
    refine ⟨h.stored, fun u op' l' b' hview => ?_, fun userID offerID variantID honly T => ?_⟩
    · rcases View.of_update hview with ⟨-, rfl, rfl, -⟩ | ⟨-, hview⟩
      · exact h.sound t _ _ b ht
      · exact h.sound u op' l' b' hview
    · have hviews := honly.of_update fun view hview => Option.some.inj (hview.symm.trans ht)
      refine le_of_eq_of_le (congrArg _ (Finset.sum_congr rfl fun u _ => ?_))
        (h.total userID offerID variantID hviews T)
      rw [wroteBy_update]
      split
      · rename_i hut
        rw [hut, wroteBy, ht]
        rfl
      · rfl
  | env =>
    rename_i move
    cases move with
    | tick passed => exact ⟨h.stored, h.sound, h.total⟩
    | restock catalogue => exact ⟨h.stored, h.sound, h.total⟩

theorem acknowledged_le (h : σ.Conforming (Op.protocol lib) (fun _ => {}) Acknowledged) (t : ℕ) :
    acknowledged lib σ userID offerID variantID t ≤
      wroteBy lib (Shopper.views lib σ) userID offerID variantID t := by
  unfold acknowledged
  cases hresult : σ.result t with
  | none =>
    unfold wroteBy
    cases hview : Shopper.views lib σ t with
    | none => exact le_rfl
    | some view => exact wroteTo_nonneg
  | some result =>
    obtain ⟨op, reply⟩ := result
    obtain ⟨l, b, hview, hwrote⟩ := h.result hresult
    have hself : wroteBy lib (Shopper.views lib σ) userID offerID variantID t =
        op.wroteTo lib l userID offerID variantID := by
      rw [wroteBy, Shopper.views, hview]
      rfl
    rw [hself]
    simp only [Option.elim]
    split
    · rename_i hok
      rw [Op.wroteTo, if_pos ⟨hwrote hok.1 (by rw [hok.2.1]; rfl), hok.2⟩]
      exact le_rfl
    · exact wroteTo_nonneg

end Steps

/-! ## Main results -/

/-- While no addition writes over what has changed since it read the cart, no variant has two entries
in a cart, every quantity is between 1 and 10, and the quantity of a variant that is only added is at
least what it was initially and what has been added and acknowledged. -/
theorem carts_safe {w₀ : World} {σ : State} (hinit : ∀ cart ∈ w₀.carts, cart.Safe)
    (h : (service lib).Reach (Undisturbed lib) (Pool.init w₀) σ) :
    (∀ cart ∈ σ.shared.carts, cart.Safe) ∧
      ∀ userID offerID variantID, OnlyAdds lib (Shopper.views lib σ) userID offerID variantID →
        ∀ T : Finset ℕ,
          w₀.quantity userID offerID variantID +
              ∑ t ∈ T, acknowledged lib σ userID offerID variantID t ≤
            σ.shared.quantity userID offerID variantID := by
  have hstart : Kept lib w₀ ((Pool.init w₀ : State).config (Op.protocol lib) fun _ => {}) := by
    refine ⟨hinit, fun t op l b hview => (by cases hview), fun userID offerID variantID _ T => ?_⟩
    have hzero : ∑ t ∈ T, wroteBy lib ((Pool.init w₀ : State).config (Op.protocol lib) fun _ => {}).view
        userID offerID variantID t = 0 := Finset.sum_eq_zero fun t _ => rfl
    rw [hzero, add_zero]
    exact le_rfl
  have hkept := h.invariant Op.conforms Pool.Conforming.init hstart
    fun σ step cfg _ hok hI hstep => kept_step hok hI hstep
  refine ⟨hkept.stored, fun userID offerID variantID honly T => ?_⟩
  refine le_trans (add_le_add_right (Finset.sum_le_sum fun t _ => ?_) _)
    (hkept.total userID offerID variantID honly T)
  exact acknowledged_le (h.conforming Op.conforms Pool.Conforming.init) t

/-- Additions only, none of whose commands fails. -/
def Adding (_ : State) : Step → Prop
  | .spawn _ op => op.added.isSome
  | .exec _ o => o.fault.isNone
  | .crash _ | .env _ => False

instance {σ : State} : ∀ step, Decidable (Adding σ step)
  | .spawn _ _ => inferInstanceAs (Decidable (_ = _))
  | .exec _ _ => inferInstanceAs (Decidable (_ = _))
  | .crash _ | .env _ => inferInstanceAs (Decidable False)

/-- The entry that an addition writes is as it has read it. -/
def Cmd.findsRead (l : Phase) (w : World) : Cmd → Bool
  | .pushItem userID item _ => (w.findItem? userID item.offerID item.variantID).isNone
  | .setItem userID offerID variantID _ _ => (w.findItem? userID offerID variantID).map (·.quantity) =
      (l.findItem? offerID variantID).map (·.quantity)
  | _ => true

/-- Additions one after the other. -/
def AddingInTurn (lib : Library) (σ : State) : Step → Prop
  | .exec t o => o.fault.isNone ∧ (σ.next t).all fun (op, cmd) =>
      cmd.findsRead ((op.protocol lib).phase {} (σ.trace t)) σ.shared
  | step => Adding σ step

instance {σ : State} : ∀ step, Decidable (AddingInTurn lib σ step)
  | .exec _ _ => inferInstanceAs (Decidable (_ ∧ _))
  | .spawn t op => inferInstanceAs (Decidable (Adding σ (.spawn t op)))
  | .crash t => inferInstanceAs (Decidable (Adding σ (.crash t)))
  | .env move => inferInstanceAs (Decidable (Adding σ (.env move)))

theorem undisturbed_of_adding {σ : State} {step : Step} (h : AddingInTurn lib σ step) :
    Undisturbed lib σ step := by
  cases step with
  | exec t o =>
    intro op cmd hnext
    have hfinds := h.2
    rw [hnext] at hfinds
    cases cmd with
    | pushItem userID item time => exact Option.isNone_iff_eq_none.1 hfinds
    | setItem userID offerID variantID quantity time => exact fun _ => of_decide_eq_true hfinds
    | _ => trivial
  | _ => trivial

theorem onlyAdds_of_reach {ok : State → Step → Prop} {w₀ : World} {σ : State}
    (hok : ∀ σ t op, ok σ (.spawn t op) → op.added.isSome)
    (h : (service lib).Reach ok (Pool.init w₀) σ) :
    OnlyAdds lib (Shopper.views lib σ) userID offerID variantID := by
  intro t view hview _
  obtain ⟨th, hth, rfl⟩ := Option.map_eq_some_iff.1 hview
  exact h.ops hok hth

/-- Two units are added, one after the other. -/
theorem carts_safe_in_turn : ∃ σ,
    (service Sample.Shopper.library).Reach (Undisturbed Sample.Shopper.library)
      (Pool.init (Sample.Shopper.world Sample.Shopper.oneUser)) σ ∧
    (∀ cart ∈ σ.shared.carts, cart.Safe) ∧ 2 ≤ σ.shared.quantity 1 1 "m" := by
  have hrun : ((service Sample.Shopper.library).runWhere (AddingInTurn Sample.Shopper.library)
      (.spawn 0 (Sample.Shopper.add 1 Sample.Shopper.one) ::
        Sample.Shopper.execs 0 (Sample.Shopper.adding 1 0) ++
        .spawn 1 (Sample.Shopper.add 1 Sample.Shopper.one) ::
        Sample.Shopper.execs 1 (Sample.Shopper.adding 1 2))
      (Pool.init (Sample.Shopper.world Sample.Shopper.oneUser))).any fun σ =>
        ∑ t ∈ {0, 1}, acknowledged Sample.Shopper.library σ 1 1 "m" t = 2 := by decide +kernel
  obtain ⟨σ, hreach, hcheck⟩ := System.Reach.exists_of_any hrun
  have hsafe := hreach.mono fun _ _ hok => undisturbed_of_adding hok
  obtain ⟨hcarts, htotal⟩ := carts_safe (fun cart hcart => absurd hcart List.not_mem_nil) hsafe
  refine ⟨σ, hsafe, hcarts, ?_⟩
  have honly : OnlyAdds Sample.Shopper.library (Shopper.views _ σ) 1 1 "m" :=
    onlyAdds_of_reach (fun _ _ _ hok => hok) hreach
  have hle := htotal 1 1 "m" honly {0, 1}
  rw [of_decide_eq_true hcheck] at hle
  exact hle

/-- Two additions read a cart without the variant, and both append an entry. -/
theorem not_carts_safe : ∃ σ,
    (service Sample.Shopper.library).Reach Adding
      (Pool.init (Sample.Shopper.world Sample.Shopper.oneUser)) σ ∧
    ¬ ∀ cart ∈ σ.shared.carts, cart.Safe := by
  have hrun : ((service Sample.Shopper.library).runWhere Adding
      ([.spawn 0 (Sample.Shopper.add 1 Sample.Shopper.one), .spawn 1 (Sample.Shopper.add 1 Sample.Shopper.one)] ++
        Sample.Shopper.execs 0 (Sample.Shopper.quiet 6) ++ Sample.Shopper.execs 1 (Sample.Shopper.quiet 7) ++
        Sample.Shopper.execs 0 (Sample.Shopper.quiet 1))
      (Pool.init (Sample.Shopper.world Sample.Shopper.oneUser))).any fun σ =>
        σ.shared.carts.docs.any fun cart => ¬ cart.items.Pairwise fun a b =>
          ¬ a.is b.offerID b.variantID := by decide +kernel
  obtain ⟨σ, hreach, hcheck⟩ := System.Reach.exists_of_any hrun
  obtain ⟨cart, hcart, htwo⟩ := List.any_eq_true.1 hcheck
  exact ⟨σ, hreach, fun hsafe => of_decide_eq_true htwo (hsafe cart hcart).distinct⟩

end Shopper

end Stylme
