-- SUMMARY: The sample has its quota of each category, the rows of the smallest scores, unless nothing is asked for.
import Stylme.Data.Sampling
import Stylme.Lib.Distinct
import Stylme.Lib.Fallible
import Stylme.Properties.ExactQuotas

/-!
# The stratified sample

Both passes see the same first occurrences of the eligible rows: the filters come in another order, and
a category without a quota has no first occurrence. The heap of a category keeps the
smallest scores among its first occurrences, and the fall-back heap is never used. It is filled all the
same, and a target of zero leaves it no head to compare with.
-/

namespace Stylme

open Conc

namespace Data

variable {ρ : Type} (lib : Library) (filters : Filters) (seed : String)

/-! ## First occurrences -/

/-- The row passes the filters. -/
def candidateOf (row : Row ρ) : Option (Item ρ) :=
  match extractProductId row.purl with
  | none => none
  | some productId =>
    let category := categoryFromUrl lib row.purl
    if productId ∉ filters.excludedIds ∧
        ¬ (filters.allowedCategories ≠ [] ∧
          categoryGroup lib category [row.name] ∉ filters.allowedCategories) ∧
        ¬ (filters.curatedPolicy ∧ isPolicyExcluded lib category [row.name, row.purl]) ∧
        ¬ (filters.requireImage ∧ canonicalImages lib row.img = []) then
      some ⟨-scoreOf lib filters seed productId category row.name, productId, row⟩
    else none

def Item.category (item : Item ρ) : String := categoryFromUrl lib item.row.purl

def Item.id (item : Item ρ) : ℕ := numericId item.productId

/-- The first rows with their numeric ids among those that pass the filters. -/
def firstOccurrences : List ℕ → List (Row ρ) → List (Item ρ)
  | _, [] => []
  | seen, row :: rows =>
    match candidateOf lib filters seed row with
    | none => firstOccurrences seen rows
    | some item =>
      if item.id ∈ seen then firstOccurrences seen rows
      else item :: firstOccurrences (item.id :: seen) rows

variable {lib filters seed} in
theorem row_of_candidateOf {row : Row ρ} {item : Item ρ} (h : candidateOf lib filters seed row = some item) :
    item.row = row := by
  unfold candidateOf at h
  cases hid : extractProductId row.purl with
  | none =>
    rw [hid] at h
    cases h
  | some productId =>
    rw [hid] at h
    dsimp only at h
    split at h
    · rw [← Option.some.inj h]
    · cases h

variable {lib filters seed} in
theorem mem_firstOccurrences {seen : List ℕ} {rows : List (Row ρ)} {item : Item ρ}
    (h : item ∈ firstOccurrences lib filters seed seen rows) :
    (∃ row ∈ rows, candidateOf lib filters seed row = some item) ∧ item.id ∉ seen := by
  induction rows generalizing seen with
  | nil => cases h
  | cons row rows ih =>
    have htail : ∀ {seen'}, item ∈ firstOccurrences lib filters seed seen' rows →
        (∃ row' ∈ row :: rows, candidateOf lib filters seed row' = some item) ∧ item.id ∉ seen' := fun h => by
      obtain ⟨⟨row', hrow', heq⟩, hseen⟩ := ih h
      exact ⟨⟨row', List.mem_cons_of_mem _ hrow', heq⟩, hseen⟩
    rw [firstOccurrences] at h
    cases hcandidate : candidateOf lib filters seed row with
    | none =>
      rw [hcandidate] at h
      exact htail h
    | some first =>
      rw [hcandidate] at h
      dsimp only at h
      split at h
      case isTrue => exact htail h
      case isFalse hnew =>
        rcases List.mem_cons.1 h with rfl | h
        · exact ⟨⟨row, List.mem_cons_self, hcandidate⟩, hnew⟩
        · obtain ⟨hrow, hseen⟩ := htail h
          exact ⟨hrow, fun hmem => hseen (List.mem_cons_of_mem _ hmem)⟩

variable {lib filters seed} in
theorem nodup_firstOccurrences (seen : List ℕ) (rows : List (Row ρ)) :
    ((firstOccurrences lib filters seed seen rows).map Item.id).Nodup := by
  induction rows generalizing seen with
  | nil => exact .nil
  | cons row rows ih =>
    rw [firstOccurrences]
    cases candidateOf lib filters seed row with
    | none => exact ih _
    | some first =>
      dsimp only
      split
      case isTrue => exact ih _
      case isFalse =>
        refine List.nodup_cons.2 ⟨fun hmem => ?_, ih _⟩
        obtain ⟨item, hitem, heq⟩ := List.mem_map.1 hmem
        exact (mem_firstOccurrences hitem).2 (heq ▸ List.mem_cons_self)

variable {lib filters seed} in
theorem id_mem_of_firstOccurrences_eq_nil {seen : List ℕ} {rows : List (Row ρ)}
    (h : firstOccurrences lib filters seed seen rows = []) :
    ∀ row ∈ rows, ∀ item, candidateOf lib filters seed row = some item → item.id ∈ seen := by
  induction rows with
  | nil => exact fun row hrow => absurd hrow List.not_mem_nil
  | cons first rows ih =>
    rw [firstOccurrences] at h
    refine List.forall_mem_cons.2 ⟨fun item hitem => ?_, ?_⟩
    · rw [hitem] at h
      dsimp only at h
      by_contra hnew
      rw [if_neg hnew] at h
      cases h
    · refine ih ?_
      cases hfirst : candidateOf lib filters seed first with
      | none =>
        rw [hfirst] at h
        exact h
      | some item =>
        rw [hfirst] at h
        dsimp only at h
        split at h
        · exact h
        · cases h

variable {lib filters seed} in
/-- There are no first occurrences where no row passes the filters. -/
theorem firstOccurrences_eq_nil_iff {rows : List (Row ρ)} : firstOccurrences lib filters seed [] rows = [] ↔
    ∀ row ∈ rows, candidateOf lib filters seed row = none := by
  constructor
  · intro h row hrow
    cases hcandidate : candidateOf lib filters seed row with
    | none => rfl
    | some item => exact absurd (id_mem_of_firstOccurrences_eq_nil h row hrow item hcandidate) List.not_mem_nil
  · intro h
    refine List.eq_nil_iff_forall_not_mem.2 fun item hitem => ?_
    obtain ⟨⟨row, hrow, hcandidate⟩, -⟩ := mem_firstOccurrences hitem
    rw [h row hrow] at hcandidate
    cases hcandidate

/-! ## Both passes see the first occurrences -/

variable {lib filters seed}

theorem countRow_eq (s : Counting) (row : Row ρ) : countRow lib filters s row =
    match candidateOf lib filters seed row with
    | none => s
    | some item =>
      if item.id ∈ s.seen then s else ⟨increment (item.category lib) s.counts, item.id :: s.seen⟩ := by
  unfold countRow candidateOf
  cases extractProductId row.purl with
  | none => rfl
  | some productId =>
    dsimp only
    split_ifs <;> first | rfl | (simp_all; done) | simp_all [Item.id, Item.category]

variable {quotas : List (String × ℕ)} {target : ℕ}

theorem sampleRow_eq (s : Sampling ρ) (row : Row ρ) : sampleRow lib filters seed quotas target s row =
    match candidateOf lib filters seed row with
    | none => .ok s
    | some item =>
      if item.category lib ∉ quotas.map (·.1) then .ok s
      else if item.id ∈ s.seen then .ok s
      else place quotas target (item.category lib) { s with seen := item.id :: s.seen } item := by
  unfold sampleRow candidateOf
  cases extractProductId row.purl with
  | none => rfl
  | some productId =>
    dsimp only
    split_ifs <;> first | rfl | (simp_all; done) | simp_all [Item.id, Item.category]

/-! ## The counts -/

/-- How many items belong to a category. -/
def countIn (lib : Library) (items : List (Item ρ)) (category : String) : ℕ :=
  (items.filter (·.category lib = category)).length

theorem counts_foldl (s : Counting) (rows : List (Row ρ)) :
    (rows.foldl (countRow lib filters) s).counts =
      (firstOccurrences lib filters seed s.seen rows).foldl
        (fun counts item => increment (item.category lib) counts) s.counts := by
  induction rows generalizing s with
  | nil => rfl
  | cons row rows ih =>
    rw [List.foldl_cons, ih, @countRow_eq ρ lib filters seed, firstOccurrences]
    cases candidateOf lib filters seed row with
    | none => rfl
    | some item =>
      dsimp only
      split
      · rfl
      · rfl

theorem lookup_increment {category c : String} {counts : List (String × ℕ)} :
    ((increment category counts).lookup c).getD 0 =
      (counts.lookup c).getD 0 + if category = c then 1 else 0 := by
  rw [increment, lookup_setKey]
  by_cases h : c = category
  · rw [if_pos h, if_pos h.symm, h]
    rfl
  · rw [if_neg h, if_neg (Ne.symm h), Nat.add_zero]

theorem lookup_counts (items : List (Item ρ)) (counts : List (String × ℕ)) (c : String) :
    ((items.foldl (fun counts item => increment (item.category lib) counts) counts).lookup c).getD 0 =
      (counts.lookup c).getD 0 + countIn lib items c := by
  induction items generalizing counts with
  | nil => rfl
  | cons item items ih =>
    rw [List.foldl_cons, ih, lookup_increment, countIn, countIn, List.filter_cons]
    by_cases h : item.category lib = c
    · rw [if_pos h, if_pos (decide_eq_true h), List.length_cons]
      omega
    · rw [if_neg h, if_neg (by simpa using h), Nat.add_zero]

/-- The counts of a pass are a dictionary of positive numbers. -/
structure Counted (counts : List (String × ℕ)) : Prop where
  keys : (counts.map (·.1)).Nodup
  pos : ∀ entry ∈ counts, 0 < entry.2

theorem counted_foldl (items : List (Item ρ)) {counts : List (String × ℕ)} (h : Counted counts) :
    Counted (items.foldl (fun counts item => increment (item.category lib) counts) counts) := by
  induction items generalizing counts with
  | nil => exact h
  | cons item items ih =>
    refine ih ⟨nodup_keys_setKey h.keys, fun entry hentry => ?_⟩
    rcases mem_of_mem_setKey hentry with rfl | hentry
    · exact Nat.succ_pos _
    · exact h.pos entry hentry

variable {rows : List (Row ρ)}

theorem countLargeCandidates_eq : countLargeCandidates lib filters rows =
    (firstOccurrences lib filters seed [] rows).foldl
      (fun counts item => increment (item.category lib) counts) [] :=
  counts_foldl ⟨[], []⟩ rows

theorem counted_countLargeCandidates (seed : String) : Counted (countLargeCandidates lib filters rows) := by
  rw [@countLargeCandidates_eq ρ lib filters seed]
  exact counted_foldl _ ⟨.nil, fun _ h => absurd h List.not_mem_nil⟩

theorem lookup_countLargeCandidates (c : String) :
    ((countLargeCandidates lib filters rows).lookup c).getD 0 =
      countIn lib (firstOccurrences lib filters seed [] rows) c := by
  rw [@countLargeCandidates_eq ρ lib filters seed, lookup_counts]
  exact Nat.zero_add _

/-! ## The heaps -/

theorem seen_of_place {category : String} {s s' : Sampling ρ} {item : Item ρ}
    (h : place quotas target category s item = .ok s') : s'.seen = s.seen := by
  unfold place at h
  obtain ⟨heaps, -, h⟩ := bind_eq_ok.1 h
  obtain ⟨globalHeap, -, h⟩ := bind_eq_ok.1 h
  rw [← Except.ok.inj h]

/-- Where the first occurrences have quotas, the second pass places them one after the other. -/
theorem foldlM_sampleRow {s : Sampling ρ}
    (h : ∀ item ∈ firstOccurrences lib filters seed s.seen rows, item.category lib ∈ quotas.map (·.1)) :
    rows.foldlM (sampleRow lib filters seed quotas target) s =
      (firstOccurrences lib filters seed s.seen rows).foldlM
        (fun s item => place quotas target (item.category lib) { s with seen := item.id :: s.seen } item) s := by
  induction rows generalizing s with
  | nil => rfl
  | cons row rows ih =>
    rw [firstOccurrences] at h ⊢
    rw [List.foldlM_cons, sampleRow_eq]
    cases hcandidate : candidateOf lib filters seed row with
    | none =>
      rw [hcandidate] at h
      exact ih h
    | some item =>
      rw [hcandidate] at h
      dsimp only at h ⊢
      by_cases hseen : item.id ∈ s.seen
      · rw [if_pos hseen] at h
        rw [if_pos hseen, if_pos hseen, ite_self]
        exact ih h
      · rw [if_neg hseen] at h
        obtain ⟨hkey, hrest⟩ := List.forall_mem_cons.1 h
        rw [if_neg hseen, if_neg hseen, if_neg (not_not.2 hkey), List.foldlM_cons]
        cases hplace : place quotas target (item.category lib) { s with seen := item.id :: s.seen } item with
        | error e => rfl
        | ok s' =>
          have hseen' : s'.seen = item.id :: s.seen := seen_of_place hplace
          rw [← hseen'] at hrest ⊢
          exact ih hrest

instance : Std.Total (@Item.Precedes ρ) := ⟨fun a b => by
  rcases lt_trichotomy a.negativeScore b.negativeScore with h | h | h
  · exact .inl (.inl h)
  · exact (String.le_total a.productId b.productId).imp (fun hle => .inr ⟨h, hle⟩) fun hle => .inr ⟨h.symm, hle⟩
  · exact .inr (.inl h)⟩

instance : IsTrans (Item ρ) Item.Precedes := ⟨by
  rintro a b c (hab | ⟨hab, hab'⟩) (hbc | ⟨hbc, hbc'⟩)
  · exact .inl (hab.trans hbc)
  · exact .inl (hbc ▸ hab)
  · exact .inl (hab ▸ hbc)
  · exact .inr ⟨hab.trans hbc, String.le_trans hab' hbc'⟩⟩

theorem Item.Precedes.score_le {a b : Item ρ} (h : a.Precedes b) : b.score ≤ a.score := by
  unfold Item.score
  rcases h with h | ⟨h, -⟩ <;> omega

theorem offerOrRaise_ok {limit : ℕ} {offered heap : List (Item ρ)} (hlimit : 0 < limit)
    (h : Keeps Item.Precedes Item.score limit offered heap) (item : Item ρ) :
    ∃ heap', offerOrRaise limit heap item = .ok heap' ∧
      Keeps Item.Precedes Item.score limit (item :: offered) heap' := by
  have hr : ∀ a b : Item ρ, a.Precedes b → b.score ≤ a.score := fun _ _ => Item.Precedes.score_le
  obtain ⟨heap', hoffer, hkeeps⟩ := h.offer hr hlimit item
  exact ⟨heap', by rw [offerOrRaise, hoffer], hkeeps⟩

/-- Each heap keeps the smallest of the items placed so far, that of a category those of the category. -/
structure Placed (lib : Library) (quotas : List (String × ℕ)) (target : ℕ) (items : List (Item ρ))
    (s : Sampling ρ) : Prop where
  keys : (s.heaps.map (·.1)).Nodup
  heap : ∀ c, Keeps Item.Precedes Item.score (quotaOf quotas c) (items.filter (·.category lib = c))
    (heapOf s.heaps c)
  all : Keeps Item.Precedes Item.score target items s.globalHeap

theorem placed_nil : Placed lib quotas target ([] : List (Item ρ)) ⟨[], [], []⟩ :=
  ⟨.nil, fun _ => keeps_nil, keeps_nil⟩

theorem Placed.of_perm {items items' : List (Item ρ)} {s : Sampling ρ} (hperm : items.Perm items')
    (h : Placed lib quotas target items s) : Placed lib quotas target items' s :=
  ⟨h.keys, fun c => (h.heap c).of_perm (hperm.filter _), h.all.of_perm hperm⟩

theorem heapOf_setKey {category c : String} {heap : List (Item ρ)} {heaps : List (String × List (Item ρ))} :
    heapOf (setKey category heap heaps) c = if c = category then heap else heapOf heaps c := by
  rw [heapOf, lookup_setKey]
  split <;> rfl

theorem placeInCategory_ok {items : List (Item ρ)} {s : Sampling ρ} (h : Placed lib quotas target items s)
    (item : Item ρ) : ∃ heaps, placeInCategory quotas (item.category lib) s.heaps item = .ok heaps ∧
      (heaps.map (·.1)).Nodup ∧ ∀ c, Keeps Item.Precedes Item.score (quotaOf quotas c)
        ((item :: items).filter (·.category lib = c)) (heapOf heaps c) := by
  have hother : ∀ c, c ≠ item.category lib →
      (item :: items).filter (·.category lib = c) = items.filter (·.category lib = c) := fun c hne =>
    List.filter_cons_of_neg (by simpa using Ne.symm hne)
  have hown : (item :: items).filter (·.category lib = item.category lib) =
      item :: items.filter (·.category lib = item.category lib) :=
    List.filter_cons_of_pos (decide_eq_true rfl)
  unfold placeInCategory
  rcases Nat.eq_zero_or_pos (quotaOf quotas (item.category lib)) with hzero | hpos
  · refine ⟨s.heaps, if_neg (not_not.2 hzero), h.keys, fun c => ?_⟩
    by_cases hc : c = item.category lib
    · have hempty : heapOf s.heaps c = [] := by
        have hlength := (h.heap c).length
        rw [hc, hzero, Nat.zero_min] at hlength
        exact hc ▸ List.length_eq_zero_iff.1 hlength
      rw [hempty, hc, hzero]
      exact keeps_zero _
    · rw [hother c hc]
      exact h.heap c
  · obtain ⟨heap, hoffer, hkeeps⟩ := offerOrRaise_ok hpos (h.heap _) item
    refine ⟨setKey (item.category lib) heap s.heaps, ?_, nodup_keys_setKey h.keys, fun c => ?_⟩
    · rw [if_pos hpos.ne', hoffer]
      rfl
    · rw [heapOf_setKey]
      split
      case isTrue hc =>
        subst hc
        rw [hown]
        exact hkeeps
      case isFalse hc =>
        rw [hother c hc]
        exact h.heap c

/-- A step: with a positive target an item is placed. -/
theorem place_ok {items : List (Item ρ)} {s : Sampling ρ} (htarget : 0 < target)
    (h : Placed lib quotas target items s) (item : Item ρ) :
    ∃ s', place quotas target (item.category lib) { s with seen := item.id :: s.seen } item = .ok s' ∧
      Placed lib quotas target (item :: items) s' := by
  obtain ⟨heaps, hheaps, hkeys, hkeeps⟩ := placeInCategory_ok h item
  obtain ⟨globalHeap, hglobal, hall⟩ := offerOrRaise_ok htarget h.all item
  refine ⟨⟨heaps, globalHeap, item.id :: s.seen⟩, ?_, hkeys, hkeeps, hall⟩
  unfold place
  dsimp only
  rw [hheaps, hglobal]
  rfl

/-- A run: with a positive target all items are placed. -/
theorem foldlM_place (htarget : 0 < target) (items : List (Item ρ)) {placed : List (Item ρ)} {s : Sampling ρ}
    (h : Placed lib quotas target placed s) :
    ∃ s', items.foldlM (fun s item => place quotas target (item.category lib)
        { s with seen := item.id :: s.seen } item) s = .ok s' ∧
      Placed lib quotas target (items.reverse ++ placed) s' := by
  induction items generalizing placed s with
  | nil => exact ⟨s, rfl, h⟩
  | cons item items ih =>
    obtain ⟨s₁, hplace, h₁⟩ := place_ok htarget h item
    obtain ⟨s₂, hrest, h₂⟩ := ih h₁
    refine ⟨s₂, ?_, ?_⟩
    · rw [List.foldlM_cons, hplace]
      exact hrest
    · rw [List.reverse_cons, List.append_assoc]
      exact h₂

/-! ## What was selected -/

/-- What the heaps hold of a category is its heap. -/
theorem filter_heaps {heaps : List (String × List (Item ρ))} (hkeys : (heaps.map (·.1)).Nodup)
    (hown : ∀ entry ∈ heaps, ∀ item ∈ entry.2, item.category lib = entry.1) (c : String) :
    (heaps.flatMap (·.2)).filter (·.category lib = c) = heapOf heaps c := by
  induction heaps with
  | nil => rfl
  | cons entry heaps ih =>
    obtain ⟨hnew, hrest⟩ := List.nodup_cons.1 hkeys
    obtain ⟨hentry, hheaps⟩ := List.forall_mem_cons.1 hown
    rw [List.flatMap_cons, List.filter_append, ih hrest hheaps, heapOf, heapOf, lookup_cons_item]
    by_cases hc : c = entry.1
    · have hall : entry.2.filter (·.category lib = c) = entry.2 :=
        List.filter_eq_self.2 fun item hitem => decide_eq_true ((hentry item hitem).trans hc.symm)
      have hnone : heaps.lookup c = none := List.lookup_eq_none_iff.2 fun other hother => by
        have hne : c ≠ other.1 := fun heq =>
          hnew (List.mem_map.2 ⟨other, hother, heq.symm.trans hc⟩)
        simpa using hne
      rw [if_pos hc, hall, hnone]
      exact List.append_nil _
    · have hempty : entry.2.filter (·.category lib = c) = [] :=
        List.filter_eq_nil_iff.2 fun item hitem => by
          rw [hentry item hitem]
          simpa using Ne.symm hc
      rw [if_neg hc, hempty]
      rfl

/-- A dictionary of distinct keys is filled in order. -/
theorem select_eq {items : List (Item ρ)} (h : (items.map (·.productId)).Nodup) :
    select items = items.map fun item => (item.productId, item.score, item.row) := by
  have hkeys : ((items.map fun item => (item.productId, item)).map (·.1)).Nodup := by
    rw [List.map_map]
    exact h
  have hfold := @foldl_setKey (Item ρ) _ (fun item => (item.score, item.row)) _ [] hkeys
    fun _ _ => List.not_mem_nil
  rw [List.foldl_map, List.nil_append, List.map_map] at hfold
  exact hfold

theorem Placed.category_eq {items : List (Item ρ)} {s : Sampling ρ} (h : Placed lib quotas target items s) :
    ∀ entry ∈ s.heaps, ∀ item ∈ entry.2, item ∈ items ∧ item.category lib = entry.1 := by
  intro entry hentry item hitem
  have hheap : heapOf s.heaps entry.1 = entry.2 := by
    rw [heapOf, lookup_of_mem h.keys hentry]
    rfl
  obtain ⟨hmem, hcategory⟩ := List.mem_filter.1 ((h.heap entry.1).mem (hheap.symm ▸ hitem))
  exact ⟨hmem, of_decide_eq_true hcategory⟩

/-- The items that the heaps of the categories hold. -/
def selectedItems (s : Sampling ρ) : List (Item ρ) := s.heaps.flatMap (·.2)

theorem nodup_selectedItems {items : List (Item ρ)} {s : Sampling ρ} (hitems : items.Nodup)
    (h : Placed lib quotas target items s) : (selectedItems s).Nodup := by
  refine List.nodup_flatMap.2 ⟨fun entry hentry => ?_, ?_⟩
  · have hheap : heapOf s.heaps entry.1 = entry.2 := by
      rw [heapOf, lookup_of_mem h.keys hentry]
      rfl
    obtain ⟨lost, hperm, -⟩ := (h.heap entry.1).smallest
    rw [hheap] at hperm
    exact (List.nodup_append.1 (hperm.nodup_iff.2 (hitems.filter _))).1
  · have hne : s.heaps.Pairwise fun a b => a.1 ≠ b.1 := List.pairwise_map.1 h.keys
    refine hne.imp_of_mem fun {a b} ha hb hab => ?_
    exact fun item hitem hitem' => hab
      ((h.category_eq a ha item hitem).2.symm.trans (h.category_eq b hb item hitem').2)

/-- Their ids are distinct, as those of the items placed. -/
theorem nodup_ids_selectedItems {items : List (Item ρ)} {s : Sampling ρ} (hids : (items.map Item.id).Nodup)
    (h : Placed lib quotas target items s) : ((selectedItems s).map Item.id).Nodup := by
  have hitems : items.Nodup := hids.of_map
  have hsubset : selectedItems s ⊆ items := fun item hitem => by
    obtain ⟨entry, hentry, hmem⟩ := List.mem_flatMap.1 hitem
    exact (h.category_eq entry hentry item hmem).1
  obtain ⟨l, hperm, hsublist⟩ := List.subperm_of_subset (nodup_selectedItems hitems h) hsubset
  exact (hperm.map _).nodup_iff.1 (hids.sublist (hsublist.map _))

theorem filter_selectedItems {items : List (Item ρ)} {s : Sampling ρ} (h : Placed lib quotas target items s)
    (c : String) : (selectedItems s).filter (·.category lib = c) = heapOf s.heaps c :=
  filter_heaps h.keys (fun entry hentry item hitem => (h.category_eq entry hentry item hitem).2) c

/-! ## The sample -/

/-- As many rows as asked for, with distinct ids, that pass the filters; of each category its quota, and of
its first occurrences those with the smallest scores. -/
structure Sampled (lib : Library) (filters : Filters) (seed : String) (rows : List (Row ρ))
    (quotas : List (String × ℕ)) (target : ℕ) (chosen : List (Item ρ)) : Prop where
  length : chosen.length = target
  ids : (chosen.map Item.id).Nodup
  eligible : ∀ item ∈ chosen, ∃ row ∈ rows, candidateOf lib filters seed row = some item
  share : ∀ c, (chosen.filter (·.category lib = c)).length = quotaOf quotas c
  smallest : ∀ c, ∃ lost, (chosen.filter (·.category lib = c) ++ lost).Perm
      ((firstOccurrences lib filters seed [] rows).filter (·.category lib = c)) ∧
    ∀ a ∈ chosen.filter (·.category lib = c), ∀ b ∈ lost, a.score ≤ b.score

/-- Every first occurrence has a category with a quota, and the quota is not above their number. -/
theorem Allocated.covers (h : Allocated (countLargeCandidates lib filters rows) target quotas) :
    (∀ item ∈ firstOccurrences lib filters seed [] rows, item.category lib ∈ quotas.map (·.1)) ∧
      ∀ c, quotaOf quotas c ≤ countIn lib (firstOccurrences lib filters seed [] rows) c := by
  have hcounted : Counted (countLargeCandidates lib filters rows) := counted_countLargeCandidates seed
  have hpos : (countLargeCandidates lib filters rows).filter (0 < ·.2) = countLargeCandidates lib filters rows :=
    List.filter_eq_self.2 fun entry hentry => decide_eq_true (hcounted.pos entry hentry)
  have hkeys := h.keys
  rw [hpos] at hkeys
  constructor
  · intro item hitem
    have hcount : 0 < countIn lib (firstOccurrences lib filters seed [] rows) (item.category lib) :=
      List.length_pos_of_mem (List.mem_filter.2 ⟨hitem, decide_eq_true rfl⟩)
    rw [← lookup_countLargeCandidates] at hcount
    rw [hkeys]
    cases hlookup : (countLargeCandidates lib filters rows).lookup (item.category lib) with
    | none =>
      rw [hlookup] at hcount
      exact absurd hcount (lt_irrefl _)
    | some count => exact List.mem_map_of_mem (mem_of_lookup hlookup)
  · intro c
    unfold quotaOf
    cases hlookup : quotas.lookup c with
    | none => exact Nat.zero_le _
    | some quota =>
      have hquota : (c, quota) ∈ quotas := mem_of_lookup hlookup
      have hmem : c ∈ quotas.map (·.1) := List.mem_map_of_mem hquota
      rw [hkeys] at hmem
      obtain ⟨⟨c', count⟩, hcount, rfl⟩ := List.mem_map.1 hmem
      rw [← lookup_countLargeCandidates, lookup_of_mem hcounted.keys hcount]
      exact h.within _ count quota hcount hquota

/-- The heaps hold the sample. -/
theorem Placed.sampled {s : Sampling ρ} (hquotas : Allocated (countLargeCandidates lib filters rows) target quotas)
    (h : Placed lib quotas target (firstOccurrences lib filters seed [] rows) s) :
    Sampled lib filters seed rows quotas target (selectedItems s) := by
  obtain ⟨hcategory, hquota⟩ := @Allocated.covers ρ lib filters seed quotas target rows hquotas
  have hshare : ∀ c, ((selectedItems s).filter (·.category lib = c)).length = quotaOf quotas c := fun c => by
    rw [filter_selectedItems h, (h.heap c).length]
    exact Nat.min_eq_left (hquota c)
  have hmem : ∀ item ∈ selectedItems s, item ∈ firstOccurrences lib filters seed [] rows := fun item hitem => by
    obtain ⟨entry, hentry, hitem⟩ := List.mem_flatMap.1 hitem
    exact (h.category_eq entry hentry item hitem).1
  exact {
    length := by
      have hkeys : (quotas.map (·.1)).Nodup := by
        rw [hquotas.keys]
        exact (counted_countLargeCandidates seed).keys.sublist ((List.filter_sublist).map _)
      have hquotaOf : ∀ entry ∈ quotas, quotaOf quotas entry.1 = entry.2 := fun entry hentry => by
        rw [quotaOf, lookup_of_mem hkeys hentry]
        rfl
      rw [length_eq_sum_filter hkeys fun item hitem => hcategory item (hmem item hitem), ← hquotas.total,
        List.map_map]
      exact congrArg List.sum (List.map_congr_left fun entry hentry =>
        (hshare entry.1).trans (hquotaOf entry hentry))
    ids := nodup_ids_selectedItems (nodup_firstOccurrences _ _) h
    eligible := fun item hitem => (mem_firstOccurrences (hmem item hitem)).1
    share := hshare
    smallest := fun c => by
      rw [filter_selectedItems h]
      exact (h.heap c).smallest }

theorem Sampled.of_perm {chosen chosen' : List (Item ρ)} (hperm : chosen.Perm chosen')
    (h : Sampled lib filters seed rows quotas target chosen) :
    Sampled lib filters seed rows quotas target chosen' where
  length := hperm.length_eq ▸ h.length
  ids := (hperm.map _).nodup_iff.1 h.ids
  eligible := fun item hitem => h.eligible item (hperm.mem_iff.2 hitem)
  share := fun c => ((hperm.filter _).length_eq).symm.trans (h.share c)
  smallest := fun c => by
    obtain ⟨lost, hlost, hle⟩ := h.smallest c
    exact ⟨lost, ((hperm.filter _).symm.append_right lost).trans hlost,
      fun a ha b hb => hle a ((hperm.filter _).mem_iff.2 ha) b hb⟩

/-- As many items with distinct ids as asked for are returned in the order of their scores. -/
theorem finish_ok {s : Sampling ρ} (hids : ((selectedItems s).map Item.id).Nodup)
    (hlength : (selectedItems s).length = target) :
    finish target s = .ok (((selectedItems s).insertionSort fun a b => a.score ≤ b.score).map (·.row)) := by
  have hselect : select (s.heaps.flatMap (·.2)) =
      (selectedItems s).map fun item => (item.productId, item.score, item.row) := by
    refine select_eq ?_
    have hnumeric : ((selectedItems s).map (·.productId)).map numericId = (selectedItems s).map Item.id :=
      List.map_map
    exact List.Nodup.of_map numericId (hnumeric ▸ hids)
  have hsort : ((selectedItems s).insertionSort fun a b => a.score ≤ b.score).map
      (fun item => (item.score, item.row)) =
      ((selectedItems s).map fun item => (item.score, item.row)).insertionSort fun a b => a.1 ≤ b.1 :=
    List.map_insertionSort _ _ _ _ fun _ _ _ _ => Iff.rfl
  unfold finish
  dsimp only
  have hselected : ((selectedItems s).map fun item => (item.productId, item.score, item.row)).length = target :=
    (List.length_map _).trans hlength
  rw [hselect, hselected, if_neg (lt_irrefl _), hselected, if_neg (not_not.2 rfl), List.map_map]
  have hpairs : (selectedItems s).map (Prod.snd ∘ fun item => (item.productId, item.score, item.row)) =
      (selectedItems s).map fun item => (item.score, item.row) := rfl
  rw [hpairs, ← hsort, List.map_map]
  rfl

theorem quotaOf_eq_zero (h : (quotas.map (·.2)).sum = 0) (c : String) : quotaOf quotas c = 0 := by
  unfold quotaOf
  cases hlookup : quotas.lookup c with
  | none => rfl
  | some quota =>
    have hmem : quota ∈ quotas.map (·.2) := List.mem_map_of_mem (mem_of_lookup hlookup)
    exact List.sum_eq_zero_iff.1 h quota hmem

/-- A target of zero leaves the heap for all without a head. -/
theorem foldlM_place_zero {items : List (Item ρ)} (hquotas : ∀ c, quotaOf quotas c = 0) (hne : items ≠ []) :
    items.foldlM (fun s item => place quotas 0 (item.category lib) { s with seen := item.id :: s.seen } item)
      (⟨[], [], []⟩ : Sampling ρ) = .error .indexError := by
  cases items with
  | nil => exact absurd rfl hne
  | cons item items =>
    have hplace : place quotas 0 (item.category lib) (⟨[], [], [item.id]⟩ : Sampling ρ) item =
        .error .indexError := by
      unfold place placeInCategory
      rw [hquotas, if_neg (not_not.2 rfl)]
      rfl
    rw [List.foldlM_cons, hplace]
    rfl

section Sample

variable {K : Type*} [One K] [Sub K] [Mul K] [Div K] [NatCast K] [LT K] [DecidableLT K]
variable {arithmetic : Arithmetic K} {fuel : ℕ}

/-- If the counts of the first pass are given quotas, the second one returns the sample that they ask for,
unless the target is zero and some row passes the filters. -/
theorem sampleLarge_iff (rows : List (Row ρ)) (seed : String)
    (hquotas : allocateQuotas arithmetic
      (typeMultipliers lib filters arithmetic (countLargeCandidates lib filters rows)) fuel
      (countLargeCandidates lib filters rows) target = some (.ok quotas)) :
    (∃ chosen, Sampled lib filters seed rows quotas target chosen ∧
      sampleLarge lib filters arithmetic fuel rows target (countLargeCandidates lib filters rows) seed =
        some (.ok (chosen.map (·.row)))) ↔
      0 < target ∨ ∀ row ∈ rows, candidateOf lib filters seed row = none := by
  have halloc : Allocated (countLargeCandidates lib filters rows) target quotas :=
    allocated_of_ok (counted_countLargeCandidates seed).keys hquotas
  obtain ⟨hcategory, -⟩ := @Allocated.covers ρ lib filters seed quotas target rows halloc
  have hsample : sampleLarge lib filters arithmetic fuel rows target (countLargeCandidates lib filters rows) seed =
      some (((firstOccurrences lib filters seed [] rows).foldlM (fun s item => place quotas target
        (item.category lib) { s with seen := item.id :: s.seen } item) ⟨[], [], []⟩).bind (finish target)) := by
    rw [sampleLarge, hquotas, ← @foldlM_sampleRow ρ lib filters seed quotas target rows ⟨[], [], []⟩ hcategory]
    rfl
  rw [hsample, ← firstOccurrences_eq_nil_iff]
  constructor
  · rintro ⟨chosen, -, hreturn⟩
    by_contra hnot
    obtain ⟨htarget, hne⟩ := not_or.1 hnot
    obtain rfl : target = 0 := Nat.eq_zero_of_not_pos htarget
    rw [foldlM_place_zero (quotaOf_eq_zero halloc.total) hne] at hreturn
    cases hreturn
  · intro h
    obtain ⟨s, hs, hplaced⟩ : ∃ s, (firstOccurrences lib filters seed [] rows).foldlM (fun s item =>
        place quotas target (item.category lib) { s with seen := item.id :: s.seen } item) ⟨[], [], []⟩ =
          .ok s ∧ Placed lib quotas target (firstOccurrences lib filters seed [] rows) s := by
      rcases h with htarget | hnil
      · obtain ⟨s, hs, hplaced⟩ := foldlM_place htarget (firstOccurrences lib filters seed [] rows)
          (@placed_nil ρ lib quotas target)
        rw [List.append_nil] at hplaced
        exact ⟨s, hs, Placed.of_perm (List.reverse_perm _) hplaced⟩
      · rw [hnil]
        exact ⟨_, rfl, placed_nil⟩
    have hsampled := hplaced.sampled halloc
    refine ⟨_, Sampled.of_perm (List.perm_insertionSort (fun a b => a.score ≤ b.score) _).symm hsampled, ?_⟩
    rw [hs]
    exact congrArg some (finish_ok hsampled.ids hsampled.length)

end Sample

/-! ## A file of four rows -/

def noFilters : Filters := ⟨[], [], false, false⟩

def rowOf (purl : String) : Row Unit := ⟨some purl, none, none, ()⟩

/-- Two shirts, one of them twice, and a pair of shoes. -/
def fourRows : List (Row Unit) :=
  [rowOf "/shirts/1234/buy", rowOf "/shirts/1235/buy", rowOf "/shirts/1234/buy", rowOf "/shoes/4321/buy"]

/-- The square roots do not matter here. -/
def rationals : Arithmetic ℚ := ⟨fun n => n, List.sum, Nat.floor, id⟩

/-- One shirt and the pair of shoes. -/
theorem sampleLarge_iff_fourRows :
    (∃ chosen, Sampled plainLibrary noFilters "seed" fourRows [("shirts", 1), ("shoes", 1)] 2 chosen ∧
      sampleLarge plainLibrary noFilters rationals 2 fourRows 2
          (countLargeCandidates plainLibrary noFilters fourRows) "seed" =
        some (.ok (chosen.map (·.row)))) ↔
      0 < 2 ∨ ∀ row ∈ fourRows, candidateOf plainLibrary noFilters "seed" row = none :=
  sampleLarge_iff fourRows "seed" (by decide +kernel)

/-- No row is asked for, and one passes the filters: the heap for all has no head. -/
theorem sampleLarge_zero_raises : ¬ ∀ (lib : Library) (filters : Filters) (rows : List (Row Unit))
    (seed : String) (target : ℕ) (quotas : List (String × ℕ)),
    allocateQuotas rationals (typeMultipliers lib filters rationals (countLargeCandidates lib filters rows)) 2
      (countLargeCandidates lib filters rows) target = some (.ok quotas) →
    ∃ chosen, Sampled lib filters seed rows quotas target chosen ∧
      sampleLarge lib filters rationals 2 rows target (countLargeCandidates lib filters rows) seed =
        some (.ok (chosen.map (·.row))) := by
  intro h
  have hquotas : allocateQuotas rationals (typeMultipliers plainLibrary noFilters rationals
      (countLargeCandidates plainLibrary noFilters fourRows)) 2
      (countLargeCandidates plainLibrary noFilters fourRows) 0 = some (.ok [("shirts", 0), ("shoes", 0)]) := by
    decide +kernel
  have hraises : sampleLarge plainLibrary noFilters rationals 2 fourRows 0
      (countLargeCandidates plainLibrary noFilters fourRows) "seed" = some (.error .indexError) := by
    decide +kernel
  obtain ⟨chosen, -, hreturn⟩ := h _ _ _ _ _ _ hquotas
  rw [hraises] at hreturn
  cases hreturn

end Data

end Stylme
