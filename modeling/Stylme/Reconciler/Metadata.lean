-- SUMMARY: Adding values to the metadata of a product: which fields change, and to what.
import Stylme.Reconciler.Store

/-!
# Metadata

`$addToSet` appends the values that a list lacks, field by field.
-/

namespace Stylme

open Conc Backend

namespace Reconciler

/-- The values of a metadata field that holds a list. -/
def Product.items (p : Product) (field : String) : List Json :=
  match p.metadata.lookup field with
  | some (.arr items) => items
  | _ => []

variable {metadata metadata' : Document} {field field' : String} {values : List String}
variable {items : List Json}

theorem isStr_iff {value : String} {v : Json} : isStr value v = true ↔ v = .str value := by
  cases v with
  | str s => simp [isStr]
  | _ => simp [isStr]

theorem any_isStr_iff {value : String} : items.any (isStr value) = true ↔ .str value ∈ items := by
  rw [List.any_eq_true]
  constructor
  · rintro ⟨v, hv, hstr⟩
    exact isStr_iff.1 hstr ▸ hv
  · intro h
    exact ⟨.str value, h, isStr_iff.2 rfl⟩

/-- Values that are new and distinct are appended in their order. -/
theorem addToSet_of_new (hnodup : values.Nodup) (hnew : ∀ v ∈ values, .str v ∉ items) :
    addToSet items values = items ++ values.map .str := by
  induction values generalizing items with
  | nil => rw [List.map_nil, List.append_nil]; rfl
  | cons v values ih =>
    obtain ⟨hv, hnodup⟩ := List.nodup_cons.1 hnodup
    have hstep : addToSet items (v :: values) = addToSet (items ++ [.str v]) values := by
      have hany : ¬ items.any (isStr v) = true := fun h => hnew v List.mem_cons_self (any_isStr_iff.1 h)
      rw [addToSet, List.foldl_cons, if_neg hany]
      rfl
    rw [hstep, ih hnodup, List.map_cons, List.append_assoc]
    · rfl
    · intro u hu hmem
      rcases List.mem_append.1 hmem with hmem | hmem
      · exact hnew u (List.mem_cons_of_mem _ hu) hmem
      · obtain rfl := Json.str.inj (List.mem_singleton.1 hmem)
        exact hv hu

theorem addField_lookup_of_ne (h : addField metadata field values = some metadata')
    (hne : field' ≠ field) : metadata'.lookup field' = metadata.lookup field' := by
  unfold addField at h
  split at h
  · obtain rfl := Option.some.inj h
    rw [lookup_setKey, if_neg hne]
  · obtain rfl := Option.some.inj h
    rw [lookup_setKey, if_neg hne]
  · cases h

/-- A field that is a list or absent takes the values. -/
theorem addField_of_list (hlist : ∀ v, metadata.lookup field = some v → ∃ items, v = .arr items) :
    addField metadata field values = some (setKey field
      (.arr (addToSet (match metadata.lookup field with | some (.arr items) => items | _ => [])
        values)) metadata) := by
  unfold addField
  cases hlookup : metadata.lookup field with
  | none => rfl
  | some v =>
    obtain ⟨items, rfl⟩ := hlist v hlookup
    rfl

theorem addFields_lookup_of_not_mem {additions : List (String × List String)}
    (h : addFields metadata additions = some metadata') (hfield : field ∉ additions.map (·.1)) :
    metadata'.lookup field = metadata.lookup field := by
  induction additions generalizing metadata with
  | nil => exact Option.some.inj h ▸ rfl
  | cons addition additions ih =>
    obtain ⟨field', values⟩ := addition
    rw [List.map_cons, List.mem_cons, not_or] at hfield
    simp only [addFields] at h
    split at h
    · rename_i metadata₁ hadd
      exact (ih h hfield.2).trans (addField_lookup_of_ne hadd hfield.1)
    · cases h

theorem addFields_lookup_of_mem {additions : List (String × List String)}
    (h : addFields metadata additions = some metadata') (hnodup : (additions.map (·.1)).Nodup)
    (hmem : (field, values) ∈ additions) :
    ∃ items, (metadata.lookup field = some (.arr items) ∨ metadata.lookup field = none ∧ items = []) ∧
      metadata'.lookup field = some (.arr (addToSet items values)) := by
  induction additions generalizing metadata with
  | nil => exact absurd hmem List.not_mem_nil
  | cons addition additions ih =>
    obtain ⟨field', values'⟩ := addition
    rw [List.map_cons, List.nodup_cons] at hnodup
    simp only [addFields] at h
    split at h
    · rename_i metadata₁ hadd
      rcases List.mem_cons.1 hmem with heq | hmem
      · obtain ⟨rfl, rfl⟩ := Prod.mk.inj heq
        rw [addFields_lookup_of_not_mem h hnodup.1]
        unfold addField at hadd
        split at hadd
        · rename_i hnone
          obtain rfl := Option.some.inj hadd
          exact ⟨[], .inr ⟨hnone, rfl⟩, by rw [lookup_setKey, if_pos rfl]⟩
        · rename_i items hitems
          obtain rfl := Option.some.inj hadd
          exact ⟨items, .inl hitems, by rw [lookup_setKey, if_pos rfl]⟩
        · cases hadd
      · -- the first addition is to another field
        have hne : field ≠ field' := fun heq =>
          hnodup.1 (heq ▸ List.mem_map_of_mem (f := fun x => x.1) hmem)
        rw [← addField_lookup_of_ne hadd hne]
        exact ih h hnodup.2 hmem
    · cases h

/-- Additions to lists are never refused. -/
theorem addFields_isSome {additions : List (String × List String)}
    (hlists : ∀ field v, metadata.lookup field = some v → ∃ items, v = .arr items) :
    (addFields metadata additions).isSome := by
  induction additions generalizing metadata with
  | nil => rfl
  | cons addition additions ih =>
    obtain ⟨field, values⟩ := addition
    rw [addFields, addField_of_list (hlists field)]
    refine ih fun field' v hlookup => ?_
    rw [lookup_setKey] at hlookup
    split at hlookup
    · exact ⟨_, (Option.some.inj hlookup).symm⟩
    · exact hlists field' v hlookup

end Reconciler

end Stylme
