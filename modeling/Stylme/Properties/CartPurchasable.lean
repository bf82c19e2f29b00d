-- SUMMARY: The lines of a shown cart against the check of a selection: what of them can be bought.
import Stylme.Shopper.Runs
import Stylme.Lib.Numeral
import Mathlib.Algebra.Order.BigOperators.Group.List

/-!
# What the cart counts

`get_cart` and `_validated_selection` each decide on their own whether a selection is still sold.
The second also asks for the visibility of the product and for the seller.
-/

namespace Stylme

open Conc Backend

namespace Shopper

variable (lib : Library)

/-- `_validated_selection` accepts the selection. -/
def Accepts (w : World) (offerID variantID : String) (offer : Offer) (variant : Variant) : Prop :=
  Prog.Ends (Cmd.exec lib) (validatedSelection lib offerID variantID) w (.ok (offer, variant)) w

/-- A line that can be bought, in the quantity it has. -/
def World.CanBuy (w : World) (line : PublicItem) : Prop :=
  ∃ offer variant, Accepts lib w line.offerID line.variantID offer variant ∧
    variant ∈ offer.variants ∧ line.quantity ≤ offer.stock line.variantID

/-- The product of the offer is shown to everyone, and its seller is approved. -/
def World.OnSale (w : World) (offer : Offer) : Prop :=
  (∃ p, w.catalogue.products.get offer.productID = some p ∧ p.visibility = "public") ∧
    ∃ s, w.catalogue.sellers.get offer.sellerID = some s ∧ s.status = "approved"

/-- Whatever of the cart is of an active offer of an active product and in stock is on sale. -/
def World.CartOnSale (w : World) (userID : ObjectId) : Prop :=
  ∀ cart, w.carts.get userID = some cart → ∀ item ∈ cart.items, 0 < item.quantity →
    ∀ offer, w.catalogue.offers.get item.offerID = some offer → offer.status = "active" →
      (offer.variant? item.variantID).isSome → 0 < offer.stock item.variantID →
      (∃ p, w.catalogue.products.get offer.productID = some p ∧ p.status = "active") → w.OnSale offer

section Lines

variable {lib} {w w' : World} {userID : ObjectId}

/-! ## Runs that only read -/

theorem ends_ask_bind {cmd : Cmd} {a : Answer cmd} {β : Type} {f : Answer cmd → Py β} {w₁ : World}
    {r : Except PyErr β} (h : cmd.exec lib {} w = some (.ok a, w₁))
    (hf : Prog.Ends (Cmd.exec lib) (f a) w₁ r w') :
    Prog.Ends (Cmd.exec lib) (Raise.ask cmd >>= f : Py β) w r w' :=
  Prog.ends_op.2 ⟨{}, .ok a, w₁, h, hf⟩

/-- A run that returns returns what is read. -/
theorem eq_of_reads {α : Type} {p : Py α} {after : ℕ → Prop} {r : Except PyErr α} {a : α}
    (h : Reads lib (fun _ _ => True) 0 w after p r) (hend : Prog.Ends (Cmd.exec lib) p w (.ok a) w') :
    r = .ok a ∧ w' = w := by
  obtain ⟨os, hrun⟩ := hend
  obtain ⟨k, hrun⟩ := @Prog.run_numbered _ _ _ _ _ (fun _ _ => True) _ _ _ _ 0 _ _ _ (fun _ _ _ => trivial) hrun
  obtain ⟨hw, ⟨hr, -⟩ | ⟨-, e, he⟩⟩ := Prog.wp_sound h hrun
  · exact ⟨hr.symm, hw⟩
  · cases he

theorem accepts_iff {offerID variantID : String} {offer : Offer} {variant : Variant} :
    Accepts lib w offerID variantID offer variant ↔
      w.catalogue.selection lib offerID variantID = .ok (offer, variant) := by
  constructor
  · exact fun h => (eq_of_reads validatedSelection_reads h).1
  · intro h
    unfold Catalogue.selection at h
    unfold Accepts validatedSelection oid
    cases hid : lib.parseID offerID with
    | none => rw [hid] at h; cases h
    | some id =>
      rw [hid] at h
      refine ends_ask_bind (a := w.catalogue.offer? id) rfl ?_
      dsimp only at h ⊢
      cases hoffer : w.catalogue.offer? id with
      | none => rw [hoffer] at h; cases h
      | some offer =>
        rw [hoffer] at h
        dsimp only at h ⊢
        cases hvariant : offer.variant? variantID with
        | none => rw [hvariant] at h; cases h
        | some variant =>
          rw [hvariant] at h
          dsimp only at h ⊢
          split at h
          · cases h
          · rename_i hstock
            rw [if_neg hstock]
            refine ends_ask_bind rfl (ends_ask_bind rfl ?_)
            split at h
            · cases h
            · rename_i hsold
              rw [if_neg hsold]
              exact Prog.ends_ret.2 ⟨h, rfl⟩

theorem ends_publicItem? (item : CartItem) :
    Prog.Ends (Cmd.exec lib) (publicItem? lib item) w (.ok (w.catalogue.line? lib item)) w := by
  unfold publicItem? Catalogue.line?
  refine ends_ask_bind (a := w.catalogue.offer? item.offerID) rfl ?_
  cases w.catalogue.offer? item.offerID with
  | none => exact Prog.ends_ret.2 ⟨rfl, rfl⟩
  | some offer =>
    refine ends_ask_bind (a := w.catalogue.product? offer.productID) rfl ?_
    dsimp only
    cases offer.variant? item.variantID with
    | none => exact Prog.ends_ret.2 ⟨rfl, rfl⟩
    | some variant =>
      cases w.catalogue.product? offer.productID with
      | none => exact Prog.ends_ret.2 ⟨rfl, rfl⟩
      | some product => exact ends_ask_bind rfl (Prog.ends_ret.2 ⟨rfl, rfl⟩)

theorem ends_publicItems (items : List CartItem) : Prog.Ends (Cmd.exec lib) (publicItems lib items) w
    (.ok (items.filterMap (w.catalogue.line? lib))) w := by
  induction items with
  | nil => exact Prog.ends_ret.2 ⟨rfl, rfl⟩
  | cons item items ih =>
    refine Prog.ends_bind.2 ⟨_, w, ends_publicItem? item, Prog.ends_bind.2 ⟨_, w, ih, ?_⟩⟩
    refine Prog.ends_ret.2 ⟨?_, rfl⟩
    rw [List.filterMap_cons]
    cases w.catalogue.line? lib item <;> rfl

theorem ends_getCart : Prog.Ends (Cmd.exec lib) (getCart lib userID) w
    (.ok (w.catalogue.shown lib (w.carts.get userID))) w :=
  ends_ask_bind (a := w.carts.get userID) rfl
    (Prog.ends_bind.2 ⟨_, w, ends_publicItems _, Prog.ends_ret.2 ⟨rfl, rfl⟩⟩)

/-! ## Lines -/

/-- What the line of an entry is made of. -/
structure World.LineOf (lib : Library) (w : World) (item : CartItem) (line : PublicItem) (offer : Offer)
    (variant : Variant) : Prop where
  stored : w.catalogue.offers.get item.offerID = some offer
  active : offer.status = "active"
  chosen : offer.variant? item.variantID = some variant
  product : ∃ p, w.catalogue.products.get offer.productID = some p ∧ p.status = "active"
  offerID : line.offerID = lib.idText item.offerID
  variantID : line.variantID = item.variantID
  quantity : line.quantity = item.shown offer

theorem find?_variant {offer : Offer} {variantID : String} {variant : Variant}
    (h : offer.variant? variantID = some variant) : variant ∈ offer.variants ∧ variant.id = variantID := by
  have hid := List.find?_some h
  exact ⟨List.mem_of_find?_eq_some h, by simpa using hid⟩

theorem lineOf_of_line? {item : CartItem} {line : PublicItem}
    (h : w.catalogue.line? lib item = some line) : ∃ offer variant, w.LineOf lib item line offer variant := by
  unfold Catalogue.line? at h
  cases hoffer : w.catalogue.offer? item.offerID with
  | none => rw [hoffer] at h; cases h
  | some offer =>
    rw [hoffer] at h
    dsimp only at h
    obtain ⟨hget, hactive⟩ := Option.filter_eq_some_iff.1 hoffer
    split at h
    · rename_i variant product hvariant hproduct
      obtain ⟨hproduct, hsold⟩ := Option.filter_eq_some_iff.1 hproduct
      obtain rfl := Option.some.inj h
      have hid : offer.id = item.offerID := (Collection.get_eq_some_iff.1 hget).2
      have hvariantID : variant.id = item.variantID := (find?_variant hvariant).2
      exact ⟨offer, variant, hget, of_decide_eq_true hactive, hvariant,
        ⟨product, hproduct, of_decide_eq_true hsold⟩, congrArg lib.idText hid, hvariantID, rfl⟩
    · cases h

theorem exists_line? {item : CartItem} {offer : Offer}
    (hget : w.catalogue.offers.get item.offerID = some offer) (hactive : offer.status = "active")
    (hvariant : (offer.variant? item.variantID).isSome)
    (hproduct : ∃ p, w.catalogue.products.get offer.productID = some p ∧ p.status = "active") :
    ∃ line, w.catalogue.line? lib item = some line := by
  obtain ⟨variant, hvariant⟩ := Option.isSome_iff_exists.1 hvariant
  obtain ⟨p, hp, hsold⟩ := hproduct
  have hoffer : w.catalogue.offer? item.offerID = some offer :=
    Option.filter_eq_some_iff.2 ⟨hget, decide_eq_true hactive⟩
  have hproduct : w.catalogue.product? offer.productID = some p :=
    Option.filter_eq_some_iff.2 ⟨hp, decide_eq_true hsold⟩
  unfold Catalogue.line?
  rw [hoffer]
  dsimp only
  rw [hvariant, hproduct]
  exact ⟨_, rfl⟩

theorem stock_nonneg {offer : Offer} {variantID : String} : 0 ≤ offer.stock variantID := by
  unfold Offer.stock
  refine List.sum_nonneg fun n hn => ?_
  obtain ⟨item, -, rfl⟩ := List.mem_map.1 hn
  exact le_max_left 0 _

theorem World.LineOf.quantity_le {item : CartItem} {line : PublicItem} {offer : Offer} {variant : Variant}
    (h : w.LineOf lib item line offer variant) :
    line.quantity ≤ item.quantity ∧ line.quantity ≤ offer.stock line.variantID := by
  rw [h.quantity, h.variantID, CartItem.shown, max_eq_right stock_nonneg]
  exact ⟨min_le_left .., min_le_right ..⟩

/-- A line that counts can be bought exactly when its offer is on sale. -/
theorem World.LineOf.canBuy_iff (hid : ∀ id, lib.parseID (lib.idText id) = some id) {item : CartItem}
    {line : PublicItem} {offer : Offer} {variant : Variant} (h : w.LineOf lib item line offer variant)
    (hpos : 0 < line.quantity) : w.CanBuy lib line ↔ w.OnSale offer := by
  have hoffer : w.catalogue.offer? item.offerID = some offer :=
    Option.filter_eq_some_iff.2 ⟨h.stored, decide_eq_true h.active⟩
  have hstock : ¬ offer.stock item.variantID < 1 := by
    have hle := h.quantity_le.2
    rw [h.variantID] at hle
    exact not_lt.2 (hpos.trans_le hle)
  have hselection : w.catalogue.selection lib line.offerID line.variantID =
      if ((w.catalogue.products.get offer.productID).filter fun p =>
            p.status = "active" ∧ p.visibility = "public").isNone ∨
          ((w.catalogue.sellers.get offer.sellerID).filter (·.status = "approved")).isNone then
        .error (.httpException 409 "This product is no longer purchasable")
      else .ok (offer, variant) := by
    unfold Catalogue.selection
    rw [h.offerID, h.variantID, hid]
    dsimp only
    rw [hoffer]
    dsimp only
    rw [h.chosen]
    dsimp only
    rw [if_neg hstock]
  obtain ⟨p, hp, hpactive⟩ := h.product
  unfold World.CanBuy World.OnSale
  simp only [accepts_iff, hselection]
  constructor
  · rintro ⟨offer', variant', haccepts, -, -⟩
    split at haccepts
    · cases haccepts
    · rename_i hsold
      obtain ⟨hproduct, hseller⟩ := not_or.1 hsold
      obtain ⟨p', hp'⟩ := Option.ne_none_iff_exists'.1 fun hnone => hproduct (Option.isNone_iff_eq_none.2 hnone)
      obtain ⟨s', hs'⟩ := Option.ne_none_iff_exists'.1 fun hnone => hseller (Option.isNone_iff_eq_none.2 hnone)
      obtain ⟨hp', hpublic⟩ := Option.filter_eq_some_iff.1 hp'
      obtain ⟨hs', happroved⟩ := Option.filter_eq_some_iff.1 hs'
      exact ⟨⟨p', hp', (of_decide_eq_true hpublic).2⟩, s', hs', of_decide_eq_true happroved⟩
  · rintro ⟨⟨p', hp', hpublic⟩, s', hs', happroved⟩
    obtain rfl : p' = p := Option.some.inj (hp'.symm.trans hp)
    refine ⟨offer, variant, ?_, (find?_variant h.chosen).1, h.quantity_le.2⟩
    rw [hp, hs', Option.filter_some, Option.filter_some, if_pos (decide_eq_true ⟨hpactive, hpublic⟩),
      if_pos (decide_eq_true happroved), if_neg (by simp)]

/-! ## The cart -/

/-- `get_cart` returns a cart whose sums are over its lines and whose quantities are in stock, and
whatever it counts can be bought exactly when what the cart holds of active offers is on sale. -/
theorem getCart_canBuy_iff (hid : ∀ id, lib.parseID (lib.idText id) = some id) (w : World)
    (userID : ObjectId) : ∃ shown,
      Prog.Ends (Cmd.exec lib) (getCart lib userID) w (.ok shown) w ∧
      (∀ shown' w', Prog.Ends (Cmd.exec lib) (getCart lib userID) w (.ok shown') w' →
        shown' = shown ∧ w' = w) ∧
      shown.itemCount = (shown.items.map (·.quantity)).sum ∧
      shown.subtotalPaise = (shown.items.map (·.lineTotalPaise)).sum ∧
      (∀ line ∈ shown.items, ∃ offer ∈ w.catalogue.offers, lib.idText offer.id = line.offerID ∧
        line.quantity ≤ offer.stock line.variantID) ∧
      ((∀ line ∈ shown.items, 0 < line.quantity → w.CanBuy lib line) ↔ w.CartOnSale userID) := by
  refine ⟨_, ends_getCart, fun shown' w' hend => ?_, rfl, rfl, fun line hline => ?_, ?_⟩
  · obtain ⟨hshown, hw⟩ := eq_of_reads getCart_reads hend
    exact ⟨(Except.ok.inj hshown).symm, hw⟩
  · obtain ⟨item, -, hitem⟩ := List.mem_filterMap.1 hline
    obtain ⟨offer, variant, hof⟩ := lineOf_of_line? hitem
    obtain ⟨hmem, hofferID⟩ := Collection.get_eq_some_iff.1 hof.stored
    exact ⟨offer, hmem, by rw [hof.offerID, hofferID], hof.quantity_le.2⟩
  · constructor
    · intro hbuy cart hcart item hitem hpos offer hget hactive hvariant hstock hproduct
      obtain ⟨line, hline⟩ : ∃ line, w.catalogue.line? lib item = some line :=
        exists_line? hget hactive hvariant hproduct
      obtain ⟨offer', variant, hof⟩ := lineOf_of_line? hline
      obtain rfl : offer' = offer := Option.some.inj (hof.stored.symm.trans hget)
      have hquantity : 0 < line.quantity := by
        rw [hof.quantity, CartItem.shown, max_eq_right stock_nonneg]
        exact lt_min hpos hstock
      have hmem : line ∈ (w.catalogue.shown lib (w.carts.get userID)).items := by
        rw [hcart]
        exact List.mem_filterMap.2 ⟨item, hitem, hline⟩
      exact (hof.canBuy_iff hid hquantity).1 (hbuy line hmem hquantity)
    · intro hsale line hline hpos
      obtain ⟨item, hitem, hline⟩ := List.mem_filterMap.1 hline
      cases hcart : w.carts.get userID with
      | none => rw [hcart] at hitem; exact absurd hitem List.not_mem_nil
      | some cart =>
        rw [hcart] at hitem
        obtain ⟨offer, variant, hof⟩ := lineOf_of_line? hline
        obtain ⟨hquantity, hstock⟩ := hof.quantity_le
        rw [hof.variantID] at hstock
        exact (hof.canBuy_iff hid hpos).2 (hsale cart hcart item hitem (hpos.trans_le hquantity) offer
          hof.stored hof.active (by rw [hof.chosen]; rfl) (hpos.trans_le hstock) hof.product)

end Lines

end Shopper

namespace Sample

namespace Kept

open Stylme.Shopper Sample.Shopper

/-- A library whose identifiers are written in decimal. -/
def library : Library where
  toLibrary := recoveryLibrary
  idText id := String.ofList (Nat.toDigits 10 id)
  parseID text := Numeral.wholeNumber text.toList
  sha256 := id

theorem parseID_idText (id : ObjectId) : library.parseID (library.idText id) = some id := by
  simp only [library, String.toList_ofList, Numeral.wholeNumber_toDigits]

/-- A shop where the first user keeps three of the variant in the cart. -/
def world (visibility sellerStatus : String) : World :=
  { Sample.Shopper.world oneUser with
    catalogue :=
      { Sample.Shopper.catalogue offer with
        products := ⟨[⟨1, "active", visibility, none, some "Shawl", none⟩], List.nodup_singleton _,
          List.nodup_singleton _⟩
        sellers := ⟨[⟨1, sellerStatus⟩], List.nodup_singleton _, List.nodup_singleton _⟩ }
    carts := ⟨[⟨1, [⟨1, 1, "m", 3, 0, 0⟩], 0, 0⟩], List.nodup_singleton _, List.nodup_singleton _⟩ }

end Kept

end Sample

namespace Shopper

open Sample.Kept in
/-- While the seller is approved and the product public, the three can be bought. -/
theorem getCart_canBuy_iff_approved : ∃ shown,
    Prog.Ends (Cmd.exec library) (getCart library 1) (world "public" "approved") (.ok shown)
      (world "public" "approved") ∧
    shown.itemCount = 3 ∧
    ∀ line ∈ shown.items, 0 < line.quantity → (world "public" "approved").CanBuy library line := by
  have hsale : (world "public" "approved").CartOnSale 1 := by
    intro cart hcart item hitem _ offer hoffer _ _ _ _
    have hcart : cart = ⟨1, [⟨1, 1, "m", 3, 0, 0⟩], 0, 0⟩ := (Option.some.inj hcart).symm
    subst hcart
    have hitem : item = ⟨1, 1, "m", 3, 0, 0⟩ := List.mem_singleton.1 hitem
    subst hitem
    have hoffer : offer = Sample.Shopper.offer := (Option.some.inj hoffer).symm
    subst hoffer
    exact ⟨⟨_, rfl, rfl⟩, _, rfl, rfl⟩
  obtain ⟨shown, hends, hunique, -, -, -, hbuy⟩ :=
    getCart_canBuy_iff parseID_idText (world "public" "approved") 1
  refine ⟨shown, hends, ?_, hbuy.2 hsale⟩
  rw [← (hunique _ _ ends_getCart).1]
  rfl

open Sample.Kept in
/-- Once the seller is suspended, the cart still counts three that no check of a selection accepts. -/
theorem not_getCart_canBuy : ∃ shown,
    Prog.Ends (Cmd.exec library) (getCart library 1) (world "public" "suspended") (.ok shown)
      (world "public" "suspended") ∧
    shown.itemCount = 3 ∧ ∃ line ∈ shown.items, line.quantity = 3 ∧
      ¬ (world "public" "suspended").CanBuy library line := by
  obtain ⟨line, hline⟩ : ∃ line, (world "public" "suspended").catalogue.line? library
      ⟨1, 1, "m", 3, 0, 0⟩ = some line := ⟨_, rfl⟩
  obtain ⟨offer, variant, hof⟩ := lineOf_of_line? hline
  obtain rfl : offer = Sample.Shopper.offer := (Option.some.inj hof.stored).symm
  have hquantity : line.quantity = 3 := hof.quantity.trans (by decide)
  refine ⟨_, ends_getCart, rfl, line, List.mem_filterMap.2 ⟨_, List.mem_singleton.2 rfl, hline⟩,
    hquantity, fun hbuy => ?_⟩
  obtain ⟨-, s, hs, happroved⟩ := (hof.canBuy_iff parseID_idText (by omega)).1 hbuy
  obtain rfl : ⟨1, "suspended"⟩ = s := Option.some.inj hs
  exact absurd happroved (by decide)

end Shopper

end Stylme
