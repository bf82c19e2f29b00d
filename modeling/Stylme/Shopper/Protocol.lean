-- SUMMARY: Every request follows its protocol: what it writes is what its own reads allow.
import Stylme.Shopper.System

/-!
# Conformance of the shoppers' requests

Up to its write a request is followed command by command. What comes after the write,
the cart that is shown and the checkout that is captured, only has to keep the user.
-/

namespace Stylme

open Conc Backend

namespace Shopper

variable {lib : Library} {op : Op} {l l' : Phase} {user : User} {α β : Type}

/-! ## After the write -/

/-- The request has written as this user. -/
structure Done (user : User) (l : Phase) : Prop where
  wrote : l.wrote
  user : l.user = some user

theorem Done.next {cmd : Cmd} (h : Done user l) (hcmd : ∀ id, cmd ≠ .findUser id) (r : Resp cmd) :
    Done user (next l cmd r) := by
  obtain ⟨hwrote, huser⟩ := h
  cases r with
  | error e => cases cmd <;> exact ⟨hwrote, huser⟩
  | ok a =>
    cases cmd with
    | findUser id => exact absurd rfl (hcmd id)
    | findActiveOffer id =>
      simp only [Shopper.next, if_pos hwrote]
      exact ⟨hwrote, huser⟩
    | setItem _ _ _ _ _ | pushItem _ _ _ | updateUser _ _ => exact ⟨rfl, huser⟩
    | setQuantity _ _ _ _ _ _ | pullItem _ _ _ _ => exact ⟨rfl, huser⟩
    | _ => exact ⟨hwrote, huser⟩

/-- The coroutine ends in a phase that has written as this user. -/
abbrev Finishes (lib : Library) (op : Op) (user : User) (l : Phase) (p : Py α) : Prop :=
  Prog.Conforms (op.protocol lib) (fun l' _ => Done user l') l p

theorem finishes_ask {cmd : Cmd} (h : Done user l) (hcmd : ∀ id, cmd ≠ .findUser id)
    (hpermits : Permits lib op l cmd) : Finishes lib op user l (Raise.ask cmd) :=
  Raise.conforms_ask hpermits fun r => h.next hcmd r

theorem finishes_bind {p : Py α} {f : α → Py β} (hp : Finishes lib op user l p)
    (hf : ∀ l' a, Done user l' → Finishes lib op user l' (f a)) : Finishes lib op user l (p >>= f) :=
  Raise.conforms_bind hp hf fun _ _ h => h

theorem finishes_ask_bind {cmd : Cmd} {f : Answer cmd → Py β} (h : Done user l)
    (hcmd : ∀ id, cmd ≠ .findUser id) (hpermits : Permits lib op l cmd)
    (hf : ∀ l' a, Done user l' → Finishes lib op user l' (f a)) :
    Finishes lib op user l (Raise.ask cmd >>= f) :=
  finishes_bind (finishes_ask h hcmd hpermits) hf

theorem finishes_pure {a : α} (h : Done user l) : Finishes lib op user l (pure a : Py α) :=
  Raise.conforms_pure h

theorem publicItem?_finishes {item : CartItem} (h : Done user l) :
    Finishes lib op user l (publicItem? lib item) := by
  refine finishes_ask_bind h nofun (.inl h.wrote) fun l₁ offer h₁ => ?_
  cases offer with
  | none => exact finishes_pure h₁
  | some offer =>
    refine finishes_ask_bind h₁ nofun trivial fun l₂ product h₂ => ?_
    split
    · exact finishes_ask_bind h₂ nofun trivial fun l₃ color h₃ => finishes_pure h₃
    · exact finishes_pure h₂

theorem publicItems_finishes {items : List CartItem} (h : Done user l) :
    Finishes lib op user l (publicItems lib items) := by
  induction items generalizing l with
  | nil => exact finishes_pure h
  | cons item items ih =>
    refine finishes_bind (publicItem?_finishes h) fun l₁ shown h₁ => ?_
    exact finishes_bind (ih h₁) fun l₂ rest h₂ => finishes_pure h₂

theorem getCart_finishes (h : Done user l) : Finishes lib op user l (getCart lib user.id) := by
  refine finishes_ask_bind h nofun (congrArg (Option.map _) h.user) fun l₁ cart h₁ => ?_
  exact finishes_bind (publicItems_finishes h₁) fun l₂ items h₂ => finishes_pure h₂

theorem getConfig_finishes (h : Done user l) : Finishes lib op user l getConfig := by
  refine finishes_ask_bind h nofun trivial fun l₁ config h₁ => ?_
  cases config with
  | some config => exact finishes_pure h₁
  | none => exact finishes_ask h₁ nofun trivial

theorem captureCartActivity_finishes {cart : PublicCart} {event : String} (h : Done user l) :
    Finishes lib op user l (captureCartActivity lib user cart event) := by
  refine finishes_ask_bind h nofun trivial fun l₁ now h₁ => ?_
  refine finishes_bind (getConfig_finishes h₁) fun l₂ config h₂ => ?_
  refine finishes_ask_bind h₂ nofun trivial fun l₃ hex h₃ => ?_
  refine finishes_ask_bind h₃ nofun trivial fun l₄ token h₄ => ?_
  refine finishes_ask_bind h₄ nofun trivial fun l₅ previous h₅ => ?_
  refine finishes_ask_bind h₅ nofun trivial fun l₆ encrypted h₆ => ?_
  exact finishes_ask h₆ nofun trivial

theorem showAndCapture_finishes {event : String} (h : Done user l) :
    Finishes lib op user l (showAndCapture lib user event) := by
  refine finishes_bind (getCart_finishes h) fun l₁ cart h₁ => ?_
  exact finishes_bind (captureCartActivity_finishes h₁) fun l₂ _ h₂ => finishes_pure h₂

/-! ## Up to the write -/

/-- The coroutine has written when it ends with a value. -/
abbrev Writes (lib : Library) (op : Op) (l : Phase) (p : Py α) : Prop :=
  Prog.Conforms (op.protocol lib) (fun l' r => (∃ a, r = .ok a) → l'.wrote) l p

theorem writes_throw {e : PyErr} : Writes lib op l (throw e : Py α) :=
  Raise.conforms_throw fun ⟨_, h⟩ => nomatch h

theorem writes_ask_bind {cmd : Cmd} {f : Answer cmd → Py β} (hpermits : Permits lib op l cmd)
    (hf : ∀ a, Writes lib op (next l cmd (.ok a)) (f a)) : Writes lib op l (Raise.ask cmd >>= f) :=
  Raise.conforms_ask_bind hpermits hf fun _ ⟨_, h⟩ => nomatch h

theorem writes_of_finishes {p : Py α} (h : Finishes lib op user l p) : Writes lib op l p :=
  h.mono fun _ _ hdone _ => hdone.wrote

/-- The request has been authenticated as this user. -/
structure Reading (user : User) (l : Phase) : Prop where
  wrote : l.wrote = false
  user : l.user = some user

theorem Reading.userID (h : Reading user l) : l.user.map (·.id) = some user.id := by
  rw [h.user, Option.map_some]

theorem Reading.done (h : Reading user l) : Done user { l with wrote := true } := ⟨rfl, h.user⟩

theorem authenticated_writes {userID : ObjectId} {f : User → Py α} (hop : op.userID = some userID)
    (hf : ∀ user l, Reading user l → Writes lib op l (f user)) :
    Writes lib op {} (authenticated userID f) := by
  refine writes_ask_bind hop fun user => ?_
  cases user with
  | none => exact writes_throw
  | some user => exact hf user _ ⟨rfl, rfl⟩

theorem oid_conforms {value label : String} : Prog.Conforms (op.protocol lib)
    (fun l' r => l' = l ∧ ∀ id, r = .ok id → lib.parseID value = some id) l (oid lib value label) := by
  unfold oid
  split
  · rename_i id hid
    exact Raise.conforms_pure ⟨rfl, fun id' heq => Except.ok.inj heq ▸ hid⟩
  · exact Raise.conforms_throw ⟨rfl, nofun⟩

theorem variant?_id {offer : Offer} {variantID : String} {variant : Variant}
    (h : offer.variant? variantID = some variant) : variant.id = variantID := by
  have hid := List.find?_some h
  simpa using hid

/-- What a selection that succeeds has read: the offer, with the variant that the request names. -/
structure Selected (user : User) (variantID : String) (l : Phase) (r : Except PyErr (Offer × Variant)) :
    Prop where
  reading : Reading user l
  offer : ∀ offer variant, r = .ok (offer, variant) → l.offer = some offer ∧ variant.id = variantID

theorem validatedSelection_conforms {offerID variantID : String} (hop : op.offerID lib = lib.parseID offerID)
    (h : Reading user l) : Prog.Conforms (op.protocol lib) (Selected user variantID) l
      (validatedSelection lib offerID variantID) := by
  have herror : ∀ {l : Phase} {e : PyErr}, Reading user l → Selected user variantID l (.error e) :=
    fun h => ⟨h, nofun⟩
  refine Raise.conforms_bind oid_conforms ?_ ?_
  · rintro l id ⟨rfl, hid⟩
    refine Raise.conforms_ask_bind (.inr (hop.trans (hid id rfl))) (fun offer => ?_) fun e => herror h
    have hnext : next l (.findActiveOffer id) (.ok offer) = { l with offer } := by
      simp [next, h.wrote]
    dsimp only [Op.protocol]
    rw [hnext]
    have hreading : Reading user { l with offer } := ⟨h.wrote, h.user⟩
    cases offer with
    | none => exact Raise.conforms_throw (herror hreading)
    | some offer =>
      dsimp only
      split
      · exact Raise.conforms_throw (herror hreading)
      · rename_i variant hvariant
        split
        · exact Raise.conforms_throw (herror hreading)
        · refine Raise.conforms_ask_bind trivial (fun product => ?_) fun e => herror hreading
          refine Raise.conforms_ask_bind trivial (fun seller => ?_) fun e => herror hreading
          split
          · exact Raise.conforms_throw (herror hreading)
          · refine Raise.conforms_pure ⟨hreading, fun offer' variant' heq => ?_⟩
            obtain ⟨rfl, rfl⟩ := Prod.mk.inj (Except.ok.inj heq)
            exact ⟨rfl, variant?_id hvariant⟩
  · rintro l e ⟨rfl, -⟩
    exact herror h

theorem writes_of_selection {offerID variantID : String} {f : Offer × Variant → Py β}
    (hop : op.offerID lib = lib.parseID offerID) (h : Reading user l)
    (hf : ∀ l offer variant, Reading user l → l.offer = some offer → variant.id = variantID →
      Writes lib op l (f (offer, variant))) :
    Writes lib op l (validatedSelection lib offerID variantID >>= f) := by
  refine Raise.conforms_bind (validatedSelection_conforms hop h) ?_ fun _ _ _ ⟨_, h⟩ => nomatch h
  rintro l ⟨offer, variant⟩ hselected
  obtain ⟨hoffer, hvariant⟩ := hselected.offer offer variant rfl
  exact hf l offer variant hselected.reading hoffer hvariant

/-! ## The requests -/

theorem addCartItem_writes {userID : ObjectId} {offerID variantID : String} {quantity : Quantity}
    (hop : op = .addCartItem userID offerID variantID quantity) (h : Reading user l) :
    Writes lib op l (addCartItem lib user offerID variantID quantity) := by
  subst hop
  refine writes_of_selection rfl h fun l offer variant h hoffer hvariant => ?_
  refine writes_ask_bind trivial fun now => writes_ask_bind h.userID fun cart => ?_
  have hreading : Reading user { l with cart } := ⟨h.wrote, h.user⟩
  have hselects : Phase.Selects { l with cart } (.addCartItem userID offerID variantID quantity)
      user.id offer.id variant.id :=
    ⟨h.wrote, hreading.userID, by rw [hoffer]; rfl, by rw [hvariant]; rfl⟩
  dsimp only
  split
  · exact writes_throw
  · rename_i hten
    split
    · exact writes_throw
    · cases hentry : cart.bind (·.findItem? offer.id variant.id) with
      | some entry =>
        rw [hentry] at hten
        refine writes_ask_bind ⟨hselects, quantity, entry, rfl, hentry, rfl, not_lt.1 hten⟩ fun _ => ?_
        exact writes_of_finishes (showAndCapture_finishes hreading.done)
      | none =>
        refine writes_ask_bind ⟨hselects, quantity, rfl, hentry, rfl⟩ fun _ => ?_
        exact writes_of_finishes (showAndCapture_finishes hreading.done)

theorem setCartQuantity_writes {userID : ObjectId} {offerID variantID : String} {quantity : Quantity}
    (hop : op = .setCartQuantity userID offerID variantID quantity) (h : Reading user l) :
    Writes lib op l (setCartQuantity lib user offerID variantID quantity) := by
  subst hop
  refine writes_of_selection rfl h fun l offer variant h hoffer hvariant => ?_
  dsimp only
  split
  · exact writes_throw
  · refine writes_ask_bind trivial fun itemTime => writes_ask_bind trivial fun now => ?_
    have hselects : l.Selects (.setCartQuantity userID offerID variantID quantity) user.id offer.id
        variant.id :=
      ⟨h.wrote, h.userID, by rw [hoffer]; rfl, by rw [hvariant]; rfl⟩
    refine writes_ask_bind ⟨hselects, rfl, quantity.one_le, quantity.le_ten⟩ fun updated => ?_
    cases updated with
    | none => exact writes_throw
    | some cart => exact writes_of_finishes (showAndCapture_finishes h.done)

theorem removeCartItem_writes {userID : ObjectId} {offerID variantID : String}
    (hop : op = .removeCartItem userID offerID variantID) (h : Reading user l) :
    Writes lib op l (removeCartItem lib user offerID variantID) := by
  subst hop
  refine Raise.conforms_bind oid_conforms ?_ fun _ _ _ ⟨_, h⟩ => nomatch h
  rintro l id ⟨rfl, hid⟩
  refine writes_ask_bind trivial fun now =>
    writes_ask_bind ⟨h.userID, hid id rfl, rfl, rfl⟩ fun updated => ?_
  cases updated with
  | none => exact writes_throw
  | some cart => exact writes_of_finishes (showAndCapture_finishes h.done)

/-- The loop over the preferences reads fields only. -/
theorem setPreferences_conforms {values : ProfileUpdate} {fields : List (String × String × String)}
    {preferences : List (String × List String)} : Prog.Conforms (op.protocol lib) (fun l' _ => l' = l) l
      (setPreferences values fields preferences) := by
  induction fields generalizing preferences with
  | nil => exact Raise.conforms_pure rfl
  | cons field fields ih =>
    obtain ⟨requestKey, fieldKey, storageKey⟩ := field
    unfold setPreferences
    split
    · exact ih
    · refine Raise.conforms_bind (Q := fun l' _ => l' = l) ?_ ?_ fun _ _ h => h
      · refine Raise.conforms_ask_bind trivial (fun allowed => ?_) fun e => rfl
        cases allowed with
        | none => exact Raise.conforms_throw rfl
        | some allowed =>
          dsimp only
          split
          · exact Raise.conforms_pure rfl
          · exact Raise.conforms_throw rfl
      · rintro _ clean rfl
        exact ih

theorem updateProfile_writes {userID : ObjectId} {values : ProfileUpdate} {completeOnboarding : Bool}
    (hop : op = .updateProfile userID values completeOnboarding) (h : Reading user l) :
    Writes lib op l (updateProfile lib user values completeOnboarding) := by
  subst hop
  have hlift : ∀ {γ : Type} {r : Except PyErr γ} {f : γ → Py User},
      (∀ a, r = .ok a → Writes lib (.updateProfile userID values completeOnboarding) l (f a)) →
      Writes lib (.updateProfile userID values completeOnboarding) l (Raise.lift r >>= f) := by
    intro γ r f hf
    refine Raise.conforms_bind (Q := fun l' r' => l' = l ∧ r' = r) (Raise.conforms_lift ⟨rfl, rfl⟩) ?_
      fun _ _ _ ⟨_, h⟩ => nomatch h
    rintro _ a ⟨rfl, hr⟩
    exact hf a hr.symm
  refine writes_ask_bind trivial fun now => hlift fun phone hphone => ?_
  refine Raise.conforms_bind setPreferences_conforms ?_ fun _ _ _ ⟨_, h⟩ => nomatch h
  rintro l preferences rfl
  refine hlift fun body hbody => hlift fun metadata hmetadata => ?_
  refine Raise.conforms_bind (Q := fun l' r => (∃ a, r = .ok a) → Done user l') ?_ ?_
    fun _ _ _ ⟨_, h⟩ => nomatch h
  · have hupdate : ∀ {updates : UserUpdates}, updates.body = body →
        Prog.Conforms ((Op.updateProfile userID values completeOnboarding).protocol lib)
          (fun l' r => (∃ a, r = .ok a) → Done user l') l (Raise.ask (Cmd.updateUser user.id updates)) := by
      rintro updates rfl
      refine Raise.conforms_ask ⟨h.wrote, user, _, _, _, now, h.user, rfl, rfl, hbody⟩ fun r => ?_
      rintro ⟨a, rfl⟩
      exact h.done
    exact Raise.conforms_tryExcept (hupdate rfl) (fun _ _ h => h)
      (fun l' e _ _ => Raise.conforms_throw fun ⟨_, h⟩ => nomatch h) fun _ _ h => h
  · intro l' updated hdone
    have hwrote := (hdone ⟨updated, rfl⟩).wrote
    refine writes_ask_bind trivial fun _ => ?_
    cases updated with
    | none => exact writes_throw
    | some user => exact Raise.conforms_pure fun _ => hwrote

/-! ## Operations -/

theorem conforms_outcome {f : Except PyErr α → Reply} {p : Py α}
    (hf : ∀ r, (f r).isOk → ∃ a, r = .ok a) (h : Writes lib op {} p) :
    Prog.Conforms (op.protocol lib) (Acknowledged op) {} (outcome f p) :=
  Prog.Conforms.bind h fun _ r hwrites => Prog.Conforms.pure fun hok _ => hwrites (hf r hok)

theorem Op.conforms (op : Op) : Prog.Conforms (op.protocol lib) (Acknowledged op) {} (op.prog lib) := by
  have hcart : ∀ r, (Reply.cart r).isOk → ∃ a, r = .ok a := fun r h => by
    cases r with
    | ok a => exact ⟨a, rfl⟩
    | error e => cases h
  cases op with
  | addCartItem userID offerID variantID quantity =>
    exact conforms_outcome hcart (authenticated_writes rfl fun user l h => addCartItem_writes rfl h)
  | setCartQuantity userID offerID variantID quantity =>
    exact conforms_outcome hcart (authenticated_writes rfl fun user l h => setCartQuantity_writes rfl h)
  | removeCartItem userID offerID variantID =>
    exact conforms_outcome hcart (authenticated_writes rfl fun user l h => removeCartItem_writes rfl h)
  | updateProfile userID values completeOnboarding =>
    refine conforms_outcome (fun r h => ?_)
      (authenticated_writes rfl fun user l h => updateProfile_writes rfl h)
    cases r with
    | ok a => exact ⟨a, rfl⟩
    | error e => cases h
  | resolveRecoveryToken token =>
    have hresolve : Prog.Conforms ((Op.resolveRecoveryToken token).protocol lib) (fun _ _ => True) {}
        (Shopper.resolveRecoveryToken lib token) :=
      Raise.conforms_ask_bind trivial (fun now => Raise.conforms_ask (c := Cmd.resolveToken _ now) trivial
        fun _ => trivial) fun _ => trivial
    exact Prog.Conforms.bind hresolve fun _ _ _ => Prog.Conforms.pure fun _ h => nomatch h

end Shopper

end Stylme
