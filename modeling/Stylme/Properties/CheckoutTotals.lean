-- SUMMARY: When a checkout agrees with the cart it is a snapshot of: exactly when every line of the cart can be bought.
import Mathlib.Algebra.Order.BigOperators.Group.List
import Mathlib.Algebra.Order.Ring.Int
import Stylme.Shopper.Runs

/-!
# The totals of a checkout

The cart shows a line with a quantity that the live stock may clamp to 0, while the
snapshot of the line has a quantity of at least 1. The two agree on the totals exactly
when no line is clamped to 0 and no price is negative.
-/

namespace Stylme

open Conc Backend

namespace Shopper

/-- The checkout agrees with the cart that was returned. -/
structure Checkout.Agrees (checkout : Checkout) (shown : PublicCart) : Prop where
  itemCount : checkout.snapshot.itemCount = shown.itemCount
  value : checkout.snapshot.cartValuePaise =
    (checkout.snapshot.items.map fun item => item.quantity * item.pricePaise).sum
  subtotal : checkout.snapshot.cartValuePaise = shown.subtotalPaise
  status : checkout.snapshot.status = "empty" ↔ shown.itemCount = 0

/-! ## Snapshots -/

/-- A line that the snapshot shows as it is. -/
def PublicItem.Sold (line : PublicItem) : Prop := 1 ≤ line.quantity ∧ 0 ≤ line.pricePaise

section Snapshots

variable {line : PublicItem} {lines : List PublicItem}

theorem intOr_zero {v : ℤ} : intOr v 0 = v := by
  unfold intOr
  split
  · rfl
  · rename_i h
    exact (not_not.1 h).symm

theorem le_snapshot_quantity : line.quantity ≤ (itemSnapshot line).quantity := by
  unfold itemSnapshot intOr
  dsimp only
  split <;> omega

theorem snapshot_quantity_eq_iff : line.quantity = (itemSnapshot line).quantity ↔ 1 ≤ line.quantity := by
  unfold itemSnapshot intOr
  dsimp only
  split <;> omega

theorem snapshot_price : (itemSnapshot line).pricePaise = max 0 line.pricePaise := by
  rw [itemSnapshot, intOr_zero]

/-- Sums of terms each at most the other's are equal only when the terms are. -/
theorem eq_of_sum_eq {α : Type} {l : List α} {f g : α → ℤ} (hle : ∀ a ∈ l, f a ≤ g a)
    (h : (l.map f).sum = (l.map g).sum) : ∀ a ∈ l, f a = g a := by
  intro a ha
  by_contra hne
  exact absurd h (List.sum_lt_sum f g hle ⟨a, ha, lt_of_le_of_ne (hle a ha) hne⟩).ne

theorem sum_pos_of_ne_nil (hone : ∀ line ∈ lines, 1 ≤ line.quantity) (hne : lines ≠ []) :
    0 < (lines.map (·.quantity)).sum := by
  refine List.sum_pos _ (fun q hq => ?_) (by simpa using hne)
  obtain ⟨line, hline, rfl⟩ := List.mem_map.1 hq
  exact zero_lt_one.trans_le (hone line hline)

/-- A snapshot agrees with what is shown exactly when it shows every line as it is. -/
theorem agrees_iff_sold {checkout : Checkout} {shown : PublicCart}
    (h : checkout.snapshot.Captures shown) (hcount : shown.itemCount = (shown.items.map (·.quantity)).sum)
    (hsubtotal : shown.subtotalPaise = (shown.items.map fun line => line.quantity * line.pricePaise).sum) :
    checkout.Agrees shown ↔ ∀ line ∈ shown.items, line.Sold := by
  have hitemCount : checkout.snapshot.itemCount =
      (shown.items.map fun line => (itemSnapshot line).quantity).sum := by
    rw [h.itemCount, h.items, List.map_map]
    rfl
  have hvalue : (checkout.snapshot.items.map fun item => item.quantity * item.pricePaise).sum =
      (shown.items.map fun line => (itemSnapshot line).quantity * max 0 line.pricePaise).sum := by
    rw [h.items, List.map_map]
    exact congrArg List.sum (List.map_congr_left fun line _ => congrArg _ snapshot_price)
  have hpaise : checkout.snapshot.cartValuePaise = max 0 shown.subtotalPaise := by
    rw [h.value, intOr_zero]
  constructor
  · intro hagrees
    have hquantities : ∀ line ∈ shown.items, line.quantity = (itemSnapshot line).quantity :=
      eq_of_sum_eq (fun line _ => le_snapshot_quantity)
        (hcount.symm.trans (hagrees.itemCount.symm.trans hitemCount))
    have hone : ∀ line ∈ shown.items, 1 ≤ line.quantity := fun line hline =>
      snapshot_quantity_eq_iff.1 (hquantities line hline)
    have hprices : ∀ line ∈ shown.items,
        line.quantity * line.pricePaise = (itemSnapshot line).quantity * max 0 line.pricePaise := by
      refine eq_of_sum_eq (fun line hline => ?_) ?_
      · rw [← hquantities line hline]
        exact mul_le_mul_of_nonneg_left (le_max_right ..) (zero_le_one.trans (hone line hline))
      · rw [← hsubtotal, ← hagrees.subtotal, hagrees.value, hvalue]
    refine fun line hline => ⟨hone line hline, ?_⟩
    have hprice := hprices line hline
    rw [← hquantities line hline] at hprice
    have hpos : line.quantity ≠ 0 := (zero_lt_one.trans_le (hone line hline)).ne'
    rw [mul_left_cancel₀ hpos hprice]
    exact le_max_left ..
  · intro hsold
    have hquantities : ∀ line ∈ shown.items, (itemSnapshot line).quantity = line.quantity :=
      fun line hline => (snapshot_quantity_eq_iff.2 (hsold line hline).1).symm
    have hnonneg : 0 ≤ shown.subtotalPaise := by
      rw [hsubtotal]
      refine List.sum_nonneg fun total htotal => ?_
      obtain ⟨line, hline, rfl⟩ := List.mem_map.1 htotal
      exact mul_nonneg (zero_le_one.trans (hsold line hline).1) (hsold line hline).2
    have hsubtotal' : checkout.snapshot.cartValuePaise = shown.subtotalPaise :=
      hpaise.trans (max_eq_right hnonneg)
    refine ⟨?_, ?_, hsubtotal', ?_⟩
    · rw [hitemCount, hcount]
      exact congrArg List.sum (List.map_congr_left hquantities)
    · rw [hsubtotal', hvalue, hsubtotal]
      refine congrArg List.sum (List.map_congr_left fun line hline => ?_)
      rw [hquantities line hline, max_eq_right (hsold line hline).2]
    · rw [h.status, h.items, List.map_eq_nil_iff, hcount]
      constructor
      · intro hnil
        rw [hnil]
        rfl
      · intro hzero
        by_contra hne
        exact (sum_pos_of_ne_nil (fun line hline => (hsold line hline).1) hne).ne' hzero

end Snapshots

/-! ## Lines and entries -/

/-- The offer of an entry that is shown: it is active and has the variant, and the product is active. -/
def Catalogue.live? (catalogue : Catalogue) (offerID : ObjectId) (variantID : String) : Option Offer :=
  (catalogue.offer? offerID).filter fun offer => (offer.variant? variantID).isSome ∧
    (catalogue.product? offer.productID).isSome

/-- If the entry is shown, it has at least one unit, of at least one in stock, at a price. -/
def Catalogue.Sells (catalogue : Catalogue) (item : CartItem) : Prop :=
  ∀ offer, catalogue.live? item.offerID item.variantID = some offer →
    1 ≤ item.quantity ∧ 1 ≤ offer.stock item.variantID ∧ 0 ≤ offer.salePricePaise

section Lines

variable {lib : Library} {catalogue : Catalogue} {item : CartItem} {items : List CartItem} {cart : Cart}

variable (lib catalogue item) in
/-- An entry is shown exactly when its offer is live. -/
theorem line?_cases : catalogue.line? lib item = none ∧ catalogue.live? item.offerID item.variantID = none ∨
    ∃ offer variant product color, catalogue.live? item.offerID item.variantID = some offer ∧
      catalogue.line? lib item = some (publicItem lib item offer variant product color) := by
  unfold Catalogue.line? Catalogue.live?
  cases catalogue.offer? item.offerID with
  | none => exact .inl ⟨rfl, rfl⟩
  | some offer =>
    dsimp only
    cases hvariant : offer.variant? item.variantID with
    | none => exact .inl ⟨rfl, by simp [Option.filter_some, hvariant]⟩
    | some variant =>
      cases hproduct : catalogue.product? offer.productID with
      | none => exact .inl ⟨rfl, by simp [Option.filter_some, hvariant, hproduct]⟩
      | some product =>
        exact .inr ⟨offer, variant, product, _, by simp [Option.filter_some, hvariant, hproduct], rfl⟩

theorem sold_iff {offer : Offer} {variant : Variant} {product : Product} {color : Option Color} :
    (publicItem lib item offer variant product color).Sold ↔
      1 ≤ item.quantity ∧ 1 ≤ offer.stock item.variantID ∧ 0 ≤ offer.salePricePaise := by
  unfold PublicItem.Sold publicItem CartItem.shown
  dsimp only
  omega

/-- Every line of a cart is sold exactly when its entries are. -/
theorem forall_sold_iff : (∀ line ∈ items.filterMap (catalogue.line? lib), line.Sold) ↔
    ∀ item ∈ items, catalogue.Sells item := by
  rw [List.forall_mem_filterMap]
  refine forall₂_congr fun item _ => ?_
  unfold Catalogue.Sells
  rcases line?_cases lib catalogue item with
    ⟨hline, hlive⟩ | ⟨offer, variant, product, color, hlive, hline⟩
  · rw [hline, hlive]
    exact ⟨fun _ _ h => (nomatch h), fun _ _ h => (nomatch h)⟩
  · rw [hline, hlive]
    simp only [Option.some.injEq, forall_eq']
    exact sold_iff

theorem subtotal_shown : (catalogue.shown lib (some cart)).subtotalPaise =
    ((catalogue.shown lib (some cart)).items.map fun line => line.quantity * line.pricePaise).sum := by
  refine congrArg List.sum (List.map_congr_left fun line hline => ?_)
  obtain ⟨item, -, hitem⟩ := List.mem_filterMap.1 hline
  rcases line?_cases lib catalogue item with
    ⟨hnone, -⟩ | ⟨offer, variant, product, color, -, hsome⟩
  · rw [hnone] at hitem
    cases hitem
  · obtain rfl := Option.some.inj (hsome.symm.trans hitem)
    exact mul_comm ..

end Lines

/-! ## The entries after a request -/

/-- Every line that the cart shows after the request can be bought: the entry that the request writes,
and the entries that it leaves. -/
def Op.SellsCart (lib : Library) (w : World) : Op → Prop
  | .addCartItem userID offerID variantID quantity => ∀ offer variant,
    w.catalogue.selection lib offerID variantID = .ok (offer, variant) →
      0 ≤ offer.salePricePaise ∧ 1 ≤ quantity.value + w.quantity userID offer.id variant.id ∧
        ∀ item ∈ (w.items userID).eraseP (·.is offer.id variant.id), w.catalogue.Sells item
  | .setCartQuantity userID offerID variantID _ => ∀ offer variant,
    w.catalogue.selection lib offerID variantID = .ok (offer, variant) → 0 ≤ offer.salePricePaise ∧
      ∀ item ∈ (w.items userID).eraseP (·.is offer.id variant.id), w.catalogue.Sells item
  | .removeCartItem userID offerID variantID => ∀ id, lib.parseID offerID = some id →
    ∀ item ∈ w.items userID, ¬ item.is id variantID → w.catalogue.Sells item
  | _ => True

section Entries

variable {lib : Library} {w : World} {catalogue : Catalogue} {offerID : ObjectId} {variantID : String}
variable {items : List CartItem} {cart : Cart} {quantity : ℤ} {time : Time} {P : CartItem → Prop}

/-- The entries after an update of the first one: the others, and that one with its new quantity. -/
theorem forall_updateFirst_iff {entry : CartItem} (h : items.find? (·.is offerID variantID) = some entry) :
    (∀ item ∈ updateFirst offerID variantID quantity time items, P item) ↔
      P { entry with quantity, updatedAt := time } ∧ ∀ item ∈ items.eraseP (·.is offerID variantID), P item := by
  induction items with
  | nil => cases h
  | cons first items ih =>
    unfold updateFirst
    by_cases his : first.is offerID variantID
    · rw [List.find?_cons_of_pos his] at h
      obtain rfl := Option.some.inj h
      rw [if_pos his, List.eraseP_cons_of_pos his, List.forall_mem_cons]
    · rw [List.find?_cons_of_neg his] at h
      rw [if_neg his, List.eraseP_cons_of_neg his, List.forall_mem_cons, List.forall_mem_cons, ih h]
      exact and_left_comm

theorem selection_eq_ok {offerText : String} {offer : Offer} {variant : Variant}
    (h : catalogue.selection lib offerText variantID = .ok (offer, variant)) :
    variant.id = variantID ∧ 1 ≤ offer.stock variantID ∧ catalogue.live? offer.id variantID = some offer := by
  unfold Catalogue.selection at h
  split at h
  · cases h
  · rename_i id hid
    split at h
    · cases h
    · rename_i offer' hoffer
      split at h
      · cases h
      · rename_i variant' hvariant
        split at h
        · cases h
        · rename_i hstock
          split at h
          · cases h
          · rename_i hsold
            obtain ⟨rfl, rfl⟩ := Prod.mk.inj (Except.ok.inj h)
            have hofferID : offer'.id = id :=
              (Collection.get_eq_some_iff.1 (Option.filter_eq_some_iff.1 hoffer).1).2
            obtain ⟨product, hproduct⟩ := Option.ne_none_iff_exists'.1 fun hnone =>
              hsold (.inl (Option.isNone_iff_eq_none.2 hnone))
            obtain ⟨hget, hactive⟩ := Option.filter_eq_some_iff.1 hproduct
            have hlive : catalogue.product? offer'.productID = some product :=
              Option.filter_eq_some_iff.2 ⟨hget, decide_eq_true (of_decide_eq_true hactive).1⟩
            refine ⟨by simpa using List.find?_some hvariant, not_lt.1 hstock, ?_⟩
            rw [Catalogue.live?, hofferID, hoffer]
            simp [Option.filter_some, hvariant, hlive]

/-- The entry that a request writes of its selection is sold at its price, if it has a unit. -/
theorem sells_selection {offerText : String} {offer : Offer} {variant : Variant} {item : CartItem}
    (h : catalogue.selection lib offerText variantID = .ok (offer, variant))
    (hitem : item.is offer.id variant.id) :
    catalogue.Sells item ↔ 1 ≤ item.quantity ∧ 0 ≤ offer.salePricePaise := by
  obtain ⟨hvariant, hstock, hlive⟩ := selection_eq_ok h
  obtain ⟨hoffer, hid⟩ := of_decide_eq_true hitem
  rw [hvariant] at hid
  unfold Catalogue.Sells
  rw [hoffer, hid, hlive]
  simp only [Option.some.injEq, forall_eq']
  exact ⟨fun h => ⟨h.1, h.2.2⟩, fun h => ⟨h.1, hstock, h.2⟩⟩

theorem items_of_get {userID : ObjectId} (h : w.carts.get userID = some cart) :
    w.items userID = cart.items := by
  rw [World.items, h]
  rfl

theorem setQuantity_sells {userID : ObjectId} {offerText : String} {offer : Offer} {variant : Variant}
    (h : w.catalogue.selection lib offerText variantID = .ok (offer, variant))
    (hcart : w.cartWith? userID offer.id variant.id = some cart) :
    (∀ item ∈ (cart.setQuantity offer.id variant.id quantity time time).items, w.catalogue.Sells item) ↔
      (1 ≤ quantity ∧ 0 ≤ offer.salePricePaise) ∧
        ∀ item ∈ (w.items userID).eraseP (·.is offer.id variant.id), w.catalogue.Sells item := by
  obtain ⟨hget, entry, hentry⟩ := World.cartWith?_eq_some hcart
  have his : entry.is offer.id variant.id := List.find?_some hentry
  have hitem : ({ entry with quantity, updatedAt := time } : CartItem).is offer.id variant.id := his
  rw [items_of_get hget, ← sells_selection h hitem]
  exact forall_updateFirst_iff hentry

theorem findItem?_eq_find? {userID offerID : ObjectId} :
    w.findItem? userID offerID variantID = (w.items userID).find? (·.is offerID variantID) := by
  unfold World.findItem? World.items
  cases w.carts.get userID <;> rfl

theorem push_sells {userID : ObjectId} {offerText : String} {offer : Offer} {variant : Variant} {item : CartItem}
    (h : w.catalogue.selection lib offerText variantID = .ok (offer, variant))
    (hcart : w.cartWith? userID offer.id variant.id = none) (hitem : item.is offer.id variant.id) :
    (∀ e ∈ (((w.carts.get userID).getD ⟨userID, [], time, time⟩).push item time).items,
      w.catalogue.Sells e) ↔
      (1 ≤ item.quantity + w.quantity userID offer.id variant.id ∧ 0 ≤ offer.salePricePaise) ∧
        ∀ e ∈ (w.items userID).eraseP (·.is offer.id variant.id), w.catalogue.Sells e := by
  have hnone : w.findItem? userID offer.id variant.id = none := by
    by_contra hne
    obtain ⟨entry, hentry⟩ := Option.ne_none_iff_exists'.1 hne
    obtain ⟨cart, hsome, -⟩ := findItem?_eq_some_iff.1 hentry
    rw [hcart] at hsome
    cases hsome
  have hquantity : w.quantity userID offer.id variant.id = 0 := by
    rw [World.quantity, hnone]
    rfl
  have hitems : ((w.carts.get userID).getD ⟨userID, [], time, time⟩).items = w.items userID := by
    unfold World.items
    cases w.carts.get userID <;> rfl
  rw [findItem?_eq_find?, List.find?_eq_none] at hnone
  have hpush : (((w.carts.get userID).getD ⟨userID, [], time, time⟩).push item time).items =
      w.items userID ++ [item] := congrArg (· ++ [item]) hitems
  rw [hquantity, add_zero, ← sells_selection h hitem, List.eraseP_of_forall_not hnone, hpush,
    List.forall_mem_append, List.forall_mem_singleton]
  exact and_comm

theorem edit_sells {op : Op} (hedit : op.edit lib w = .ok cart) :
    (∀ item ∈ cart.items, w.catalogue.Sells item) ↔ op.SellsCart lib w := by
  cases op with
  | addCartItem userID offerText variantID quantity =>
    simp only [Op.edit, World.adding] at hedit
    split at hedit
    · cases hedit
    · rename_i offer variant hselection
      have hop : (Op.addCartItem userID offerText variantID quantity).SellsCart lib w ↔
          (1 ≤ quantity.value + w.quantity userID offer.id variant.id ∧ 0 ≤ offer.salePricePaise) ∧
            ∀ item ∈ (w.items userID).eraseP (·.is offer.id variant.id), w.catalogue.Sells item := by
        constructor
        · intro h
          obtain ⟨hprice, hquantity, hrest⟩ := h offer variant hselection
          exact ⟨⟨hquantity, hprice⟩, hrest⟩
        · intro h offer' variant' hselection'
          obtain ⟨rfl, rfl⟩ := Prod.mk.inj (Except.ok.inj (hselection.symm.trans hselection'))
          exact ⟨h.1.2, h.1.1, h.2⟩
      rw [hop]
      split at hedit
      · cases hedit
      · split at hedit
        · cases hedit
        · split at hedit
          · rename_i old hold
            obtain rfl := Except.ok.inj hedit
            exact setQuantity_sells hselection hold
          · rename_i hnone
            obtain rfl := Except.ok.inj hedit
            refine push_sells hselection hnone ?_
            exact decide_eq_true ⟨rfl, rfl⟩
  | setCartQuantity userID offerText variantID quantity =>
    simp only [Op.edit, World.setting] at hedit
    split at hedit
    · cases hedit
    · rename_i offer variant hselection
      split at hedit
      · cases hedit
      · split at hedit
        · rename_i old hold
          obtain rfl := Except.ok.inj hedit
          rw [setQuantity_sells hselection hold]
          constructor
          · intro h offer' variant' hselection'
            obtain ⟨rfl, rfl⟩ := Prod.mk.inj (Except.ok.inj (hselection.symm.trans hselection'))
            exact ⟨h.1.2, h.2⟩
          · intro h
            obtain ⟨hprice, hrest⟩ := h offer variant hselection
            exact ⟨⟨quantity.one_le, hprice⟩, hrest⟩
        · cases hedit
  | removeCartItem userID offerText variantID =>
    simp only [Op.edit, World.removing] at hedit
    split at hedit
    · cases hedit
    · rename_i id hid
      split at hedit
      · rename_i old hget
        obtain rfl := Except.ok.inj hedit
        simp only [Op.SellsCart, hid, items_of_get hget, Cart.pull, List.mem_filter, Option.some.injEq,
          forall_eq', decide_eq_true_eq, and_imp]
      · cases hedit
  | _ => cases hedit

/-- The checkout that a successful request leaves agrees with the cart that it returns exactly when
every line of that cart can be bought. -/
theorem checkout_agrees_iff {op : Op} {os : List Oracle} {w' : World} {shown : PublicCart}
    (h : (op.prog lib).run (Cmd.exec lib) os w = some (.cart (.ok shown), w')) :
    ∃ userID checkout, op.userID = some userID ∧ w'.checkouts.get userID = some checkout ∧
      (checkout.Agrees shown ↔ op.SellsCart lib w) := by
  have houtcome : ∃ k, op.CartOutcome lib (fun _ _ => True) w (.ok shown) (k, w') :=
    cartOutcome_of_run (fun _ _ _ => trivial) h
  obtain ⟨k, ⟨⟨e, he⟩, -⟩ | ⟨user, hop, -, -, cart, hedit, hshown, -, checkout, hget, hcaptures⟩⟩ := houtcome
  · cases he
  · refine ⟨user.id, checkout, hop, hget, ?_⟩
    subst hshown
    rw [agrees_iff_sold hcaptures rfl subtotal_shown, ← edit_sells hedit]
    exact forall_sold_iff

end Entries

/-- What a run of a request returns, with the checkout that it leaves of the first user. -/
def captureOf (x : Reply × World) : Option (PublicCart × Checkout) :=
  match x.1, x.2.checkouts.get 1 with
  | .cart (.ok shown), some checkout => some (shown, checkout)
  | _, _ => none

theorem captureOf_eq_some {x : Reply × World} {shown : PublicCart} {checkout : Checkout}
    (h : captureOf x = some (shown, checkout)) :
    x.1 = .cart (.ok shown) ∧ x.2.checkouts.get 1 = some checkout := by
  unfold captureOf at h
  split at h
  · rename_i hreply hget
    obtain ⟨rfl, rfl⟩ := Prod.mk.inj (Option.some.inj h)
    exact ⟨hreply, hget⟩
  · cases h

/-- A unit is added to an empty cart, from a stock of eight. -/
theorem checkout_agrees_added : ∃ w' shown checkout,
    ((Sample.Shopper.add 1 Sample.Shopper.one).prog Sample.Shopper.library).run
      (Cmd.exec Sample.Shopper.library) (Sample.Shopper.adding 1 0)
      (Sample.Shopper.world Sample.Shopper.oneUser) = some (.cart (.ok shown), w') ∧
    w'.checkouts.get 1 = some checkout ∧ checkout.Agrees shown ∧
    (Sample.Shopper.add 1 Sample.Shopper.one).SellsCart Sample.Shopper.library
      (Sample.Shopper.world Sample.Shopper.oneUser) := by
  have hrun : (((Sample.Shopper.add 1 Sample.Shopper.one).prog Sample.Shopper.library).run
      (Cmd.exec Sample.Shopper.library) (Sample.Shopper.adding 1 0)
      (Sample.Shopper.world Sample.Shopper.oneUser)).any fun x => (captureOf x).any fun y =>
        y.2.snapshot.itemCount = y.1.itemCount ∧ y.2.snapshot.cartValuePaise = y.1.subtotalPaise ∧
          y.2.snapshot.cartValuePaise = (y.2.snapshot.items.map fun i => i.quantity * i.pricePaise).sum ∧
          y.2.snapshot.status ≠ "empty" ∧ y.1.itemCount ≠ 0 := by decide +kernel
  obtain ⟨⟨reply, w'⟩, hsome, hcapture⟩ := (Option.any_eq_true ..).1 hrun
  obtain ⟨⟨shown, checkout⟩, hcapture, hcheck⟩ := (Option.any_eq_true ..).1 hcapture
  obtain ⟨rfl, hget⟩ := captureOf_eq_some hcapture
  obtain ⟨hcount, hsubtotal, hvalue, hstatus, hsome'⟩ := of_decide_eq_true hcheck
  have hagrees : checkout.Agrees shown :=
    ⟨hcount, hvalue, hsubtotal, ⟨fun h => absurd h hstatus, fun h => absurd h hsome'⟩⟩
  obtain ⟨userID, checkout', huser, hget', hiff⟩ := checkout_agrees_iff hsome
  obtain rfl := Option.some.inj huser
  obtain rfl := Option.some.inj (hget.symm.trans hget')
  exact ⟨w', shown, checkout, hsome, hget, hagrees, hiff.1 hagrees⟩

/-- A shop whose stock has run out since two units were put into the cart. -/
def soldOut : World :=
  { Sample.Shopper.world Sample.Shopper.oneUser with
    catalogue := Sample.Shopper.catalogue { Sample.Shopper.offer with inventory := [] }
    carts := ⟨[⟨1, [⟨1, 1, "m", 2, 0, 0⟩], 0, 0⟩], List.nodup_singleton _, List.nodup_singleton _⟩ }

/-- A request that leaves the entry in the cart returns no units, and writes a checkout of one. -/
theorem not_checkout_agrees : ∃ w' shown checkout,
    ((Op.removeCartItem 1 "offer" "l").prog Sample.Shopper.library).run (Cmd.exec Sample.Shopper.library)
      (Sample.Shopper.quiet 7 ++ Sample.Shopper.capturing 0) soldOut = some (.cart (.ok shown), w') ∧
    w'.checkouts.get 1 = some checkout ∧ ¬ checkout.Agrees shown := by
  have hrun : (((Op.removeCartItem 1 "offer" "l").prog Sample.Shopper.library).run
      (Cmd.exec Sample.Shopper.library) (Sample.Shopper.quiet 7 ++ Sample.Shopper.capturing 0) soldOut).any
        fun x => (captureOf x).any fun y => y.2.snapshot.itemCount ≠ y.1.itemCount := by decide +kernel
  obtain ⟨⟨reply, w'⟩, hsome, hcapture⟩ := (Option.any_eq_true ..).1 hrun
  obtain ⟨⟨shown, checkout⟩, hcapture, hcheck⟩ := (Option.any_eq_true ..).1 hcapture
  obtain ⟨rfl, hget⟩ := captureOf_eq_some hcapture
  exact ⟨w', shown, checkout, hsome, hget, fun hagrees => of_decide_eq_true hcheck hagrees.itemCount⟩

end Shopper

end Stylme
