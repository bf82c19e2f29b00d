-- SUMMARY: Collections of documents with an identifier and one unique secondary index, and the document-store operations on them.
import Mathlib.Data.List.Nodup
import Mathlib.Data.List.Count

/-!
# Document collections

A collection is a list of documents in insertion order, together with the proof
that no two documents share an identifier or the value of the unique index `key`.
A write that would break the index is refused, so a `Collection` never holds
duplicates. Collections with no secondary index take `key := id`.
-/

namespace Conc

universe u v w

/-- Documents with distinct identifiers and distinct index keys. -/
structure Collection (α : Type u) {κ : Type v} {ι : Type w} (id : α → κ) (key : α → ι) where
  docs : List α
  ids_nodup : (docs.map id).Nodup
  keys_nodup : (docs.map key).Nodup

namespace Collection

variable {α : Type u} {κ : Type v} {ι : Type w} {id : α → κ} {key : α → ι}

instance : Membership α (Collection α id key) := ⟨fun s d => d ∈ s.docs⟩

theorem mem_def {s : Collection α id key} {d : α} : d ∈ s ↔ d ∈ s.docs := Iff.rfl

instance : EmptyCollection (Collection α id key) := ⟨⟨[], .nil, .nil⟩⟩

@[simp] theorem not_mem_empty {d : α} : d ∉ (∅ : Collection α id key) := List.not_mem_nil

variable {s s' : Collection α id key} {d e : α}

theorem docs_nodup (s : Collection α id key) : s.docs.Nodup := .of_map id s.ids_nodup

theorem eq_of_id_eq (hd : d ∈ s) (he : e ∈ s) (h : id d = id e) : d = e :=
  List.inj_on_of_nodup_map s.ids_nodup hd he h

/-- Stored documents are determined by their identifiers. -/
theorem eq_of_map_id_eq {l l' : List α} (hl : ∀ d ∈ l, d ∈ s) (hl' : ∀ d ∈ l', d ∈ s)
    (h : l.map id = l'.map id) : l = l' := by
  induction l generalizing l' with
  | nil => exact (List.map_eq_nil_iff.1 h.symm).symm
  | cons d l ih =>
    cases l' with
    | nil => cases h
    | cons e l' =>
      obtain ⟨hid, hrest⟩ := List.cons.inj h
      rw [eq_of_id_eq (hl d (.head _)) (hl' e (.head _)) hid,
        ih (fun d hd => hl d (.tail _ hd)) (fun d hd => hl' d (.tail _ hd)) hrest]

theorem eq_of_key_eq (hd : d ∈ s) (he : e ∈ s) (h : key d = key e) : d = e :=
  List.inj_on_of_nodup_map s.keys_nodup hd he h

/-- Distinct documents with distinct identifiers and keys form a collection. -/
def ofList (l : List α) (hl : l.Nodup) (hid : ∀ d ∈ l, ∀ e ∈ l, id d = id e → d = e)
    (hkey : ∀ d ∈ l, ∀ e ∈ l, key d = key e → d = e) : Collection α id key :=
  ⟨l, (List.nodup_map_iff_inj_on hl).2 hid, (List.nodup_map_iff_inj_on hl).2 hkey⟩

/-- Rewrite every document by an `f` that keeps identifiers and keys. -/
def updateAll (s : Collection α id key) (f : α → α) (hid : ∀ d, id (f d) = id d)
    (hkey : ∀ d, key (f d) = key d) : Collection α id key where
  docs := s.docs.map f
  ids_nodup := by simpa [List.map_map, Function.comp_def, hid] using s.ids_nodup
  keys_nodup := by simpa [List.map_map, Function.comp_def, hkey] using s.keys_nodup

theorem mem_updateAll {f : α → α} {hid : ∀ d, id (f d) = id d} {hkey : ∀ d, key (f d) = key d} :
    e ∈ s.updateAll f hid hkey ↔ ∃ d ∈ s, f d = e := by
  simp [updateAll, mem_def]

/-- Remove the documents that satisfy `p`. -/
def delete (s : Collection α id key) (p : α → Bool) : Collection α id key where
  docs := s.docs.filter fun d => ¬ p d
  ids_nodup := s.ids_nodup.sublist (List.filter_sublist.map id)
  keys_nodup := s.keys_nodup.sublist (List.filter_sublist.map key)

theorem mem_delete {p : α → Bool} : e ∈ s.delete p ↔ e ∈ s ∧ ¬ p e := by
  simp [delete, mem_def]

/-! ## Reads -/

section Reads

/-- The first document, in insertion order, that satisfies `p`. -/
def find? (s : Collection α id key) (p : α → Bool) : Option α := s.docs.find? p

def count (s : Collection α id key) (p : α → Bool) : ℕ := s.docs.countP p

theorem find?_some {p : α → Bool} (h : s.find? p = some d) : d ∈ s ∧ p d :=
  ⟨List.mem_of_find?_eq_some h, List.find?_some h⟩

theorem find?_none {p : α → Bool} (h : s.find? p = none) (hd : d ∈ s) : ¬ p d := by
  simpa using List.find?_eq_none.1 h d hd

theorem count_eq_zero {p : α → Bool} (h : ∀ e ∈ s, ¬ p e) : s.count p = 0 :=
  List.countP_eq_zero.2 h

variable [DecidableEq κ]

/-- The document with identifier `k`. -/
def get (s : Collection α id key) (k : κ) : Option α := s.find? (id · = k)

theorem get_eq_some_iff {k : κ} : s.get k = some d ↔ d ∈ s ∧ id d = k := by
  constructor
  · intro h
    simpa using find?_some h
  · rintro ⟨hd, rfl⟩
    cases hget : s.get (id d) with
    | none => simpa using find?_none hget hd
    | some e =>
      obtain ⟨he, hid⟩ := find?_some hget
      rw [eq_of_id_eq he hd (by simpa using hid)]

theorem get_eq_none_iff {k : κ} : s.get k = none ↔ ∀ d ∈ s, id d ≠ k := by
  simp [get, find?, List.find?_eq_none, mem_def]

omit [DecidableEq κ] in
/-- With a unique index at most one document carries a given key. -/
theorem find?_key_eq_some_iff [DecidableEq ι] {k : ι} :
    s.find? (key · = k) = some d ↔ d ∈ s ∧ key d = k := by
  constructor
  · intro h
    simpa using find?_some h
  · rintro ⟨hd, rfl⟩
    cases hfind : s.find? (fun e => key e = key d) with
    | none => simpa using find?_none hfind hd
    | some e =>
      obtain ⟨he, hkey⟩ := find?_some hfind
      rw [eq_of_key_eq he hd (by simpa using hkey)]

end Reads

/-! ## Writes -/

section Writes

variable [DecidableEq κ] [DecidableEq ι]

/-- Put `d` in the place of the document with its identifier, or at the end. -/
def upsert (id : α → κ) (d : α) (l : List α) : List α :=
  if l.any (id · = id d) then l.map (fun e => if id e = id d then d else e) else l ++ [d]

theorem mem_upsert {l : List α} : e ∈ upsert id d l ↔ e = d ∨ (e ∈ l ∧ id e ≠ id d) := by
  unfold upsert
  split
  · rename_i hany
    simp only [List.any_eq_true, decide_eq_true_eq] at hany
    obtain ⟨d₀, hd₀, hid⟩ := hany
    simp only [List.mem_map]
    constructor
    · rintro ⟨x, hx, rfl⟩
      by_cases h : id x = id d
      · simp [h]
      · simp [h, hx]
    · rintro (rfl | ⟨he, hne⟩)
      · exact ⟨d₀, hd₀, by simp [hid]⟩
      · exact ⟨e, he, by simp [hne]⟩
  · rename_i hany
    simp only [List.any_eq_true, decide_eq_true_eq, not_exists, not_and] at hany
    simp only [List.mem_append, List.mem_singleton]
    constructor
    · rintro (he | rfl)
      · exact .inr ⟨he, hany e he⟩
      · exact .inl rfl
    · rintro (rfl | ⟨he, -⟩)
      · exact .inr rfl
      · exact .inl he

theorem map_id_upsert {l : List α} :
    (upsert id d l).map id = if l.any (id · = id d) then l.map id else l.map id ++ [id d] := by
  unfold upsert
  split
  · simp only [List.map_map]
    refine List.map_congr_left fun e _ => ?_
    by_cases h : id e = id d <;> simp [h]
  · simp

theorem nodup_map_id_upsert {l : List α} (h : (l.map id).Nodup) : ((upsert id d l).map id).Nodup := by
  rw [map_id_upsert]
  split
  · exact h
  · rename_i hany
    simp only [List.any_eq_true, decide_eq_true_eq, not_exists, not_and] at hany
    rw [List.nodup_append]
    refine ⟨h, List.nodup_singleton _, ?_⟩
    intro k hk k' hk' heq
    obtain ⟨e, he, rfl⟩ := List.mem_map.1 hk
    exact hany e he (heq.trans (List.mem_singleton.1 hk'))

/-- Replace the document with `d`'s identifier by `d`, or insert `d` when there
is none. Refused when another document carries `d`'s key. -/
def replaceOne (s : Collection α id key) (d : α) : Option (Collection α id key) :=
  if h : ∃ e ∈ s.docs, id e ≠ id d ∧ key e = key d then none
  else some (ofList (upsert id d s.docs) (.of_map id (nodup_map_id_upsert s.ids_nodup))
    (List.inj_on_of_nodup_map (nodup_map_id_upsert s.ids_nodup)) (by
      simp only [not_exists, not_and] at h
      intro x hx y hy hkey
      rcases mem_upsert.1 hx with hxd | ⟨hx, hxd⟩ <;> rcases mem_upsert.1 hy with hyd | ⟨hy, hyd⟩
      · rw [hxd, hyd]
      · exact absurd (hkey.symm.trans (congrArg key hxd)) (h y hy hyd)
      · exact absurd (hkey.trans (congrArg key hyd)) (h x hx hxd)
      · exact eq_of_key_eq (s := s) hx hy hkey))

/-- Insert `d`. Refused when its identifier or its key is taken. -/
def insertOne (s : Collection α id key) (d : α) : Option (Collection α id key) :=
  if ∃ e ∈ s.docs, id e = id d then none else s.replaceOne d

/-- Insert documents one by one, passing over the refused ones, and count the
inserted ones. -/
def insertMany : List α → Collection α id key → Collection α id key × ℕ
  | [], s => (s, 0)
  | d :: ds, s =>
    match s.insertOne d with
    | some s' => let r := insertMany ds s'; (r.1, r.2 + 1)
    | none => insertMany ds s

theorem replaceOne_eq_none_iff : s.replaceOne d = none ↔ ∃ e ∈ s, id e ≠ id d ∧ key e = key d := by
  unfold replaceOne
  split <;> simp_all [mem_def]

/-- Rewriting documents frees no key and takes none. -/
theorem replaceOne_updateAll_eq_none_iff {f : α → α} (hid : ∀ d, id (f d) = id d)
    (hkey : ∀ d, key (f d) = key d) :
    (s.updateAll f hid hkey).replaceOne d = none ↔ s.replaceOne d = none := by
  simp only [replaceOne_eq_none_iff, mem_updateAll]
  constructor
  · rintro ⟨e, ⟨e₀, he₀, rfl⟩, hne, hk⟩
    exact ⟨e₀, he₀, hid e₀ ▸ hne, hkey e₀ ▸ hk⟩
  · rintro ⟨e, he, hne, hk⟩
    exact ⟨f e, ⟨e, he, rfl⟩, (hid e).symm ▸ hne, (hkey e).symm ▸ hk⟩

theorem replaceOne_docs (h : s.replaceOne d = some s') : s'.docs = upsert id d s.docs := by
  unfold replaceOne at h
  split at h
  · cases h
  · obtain rfl := Option.some.inj h
    rfl

theorem mem_replaceOne (h : s.replaceOne d = some s') :
    e ∈ s' ↔ e = d ∨ (e ∈ s ∧ id e ≠ id d) := by
  rw [mem_def, replaceOne_docs h, mem_upsert, mem_def]

theorem key_ne_of_replaceOne (h : s.replaceOne d = some s') (he : e ∈ s) (hne : id e ≠ id d) :
    key e ≠ key d := by
  intro hkey
  have : s.replaceOne d = none := replaceOne_eq_none_iff.2 ⟨e, he, hne, hkey⟩
  rw [this] at h
  cases h

theorem self_mem_replaceOne (h : s.replaceOne d = some s') : d ∈ s' :=
  (mem_replaceOne h).2 (.inl rfl)

theorem get_replaceOne_self (h : s.replaceOne d = some s') : s'.get (id d) = some d :=
  get_eq_some_iff.2 ⟨self_mem_replaceOne h, rfl⟩

theorem get_replaceOne_of_ne {k : κ} (h : s.replaceOne d = some s') (hk : k ≠ id d) :
    s'.get k = s.get k := by
  cases hget : s.get k with
  | none =>
    rw [get_eq_none_iff] at hget ⊢
    intro e he heq
    rcases (mem_replaceOne h).1 he with rfl | ⟨he, -⟩
    · exact hk heq.symm
    · exact hget e he heq
  | some e =>
    obtain ⟨he, rfl⟩ := get_eq_some_iff.1 hget
    exact get_eq_some_iff.2 ⟨(mem_replaceOne h).2 (.inr ⟨he, hk⟩), rfl⟩

/-- No document disappears. -/
theorem isSome_get_replaceOne {k : κ} (h : s.replaceOne d = some s') (hk : (s.get k).isSome) :
    (s'.get k).isSome := by
  by_cases hne : k = id d
  · rw [hne, get_replaceOne_self h]
    rfl
  · rw [get_replaceOne_of_ne h hne]
    exact hk

/-- Rewriting a stored document without touching its identifier or key succeeds. -/
theorem replaceOne_of_mem (he : e ∈ s) (hid : id d = id e) (hkey : key d = key e) :
    ∃ s', s.replaceOne d = some s' := by
  cases h : s.replaceOne d with
  | some s' => exact ⟨s', rfl⟩
  | none =>
    obtain ⟨x, hx, hne, hxkey⟩ := replaceOne_eq_none_iff.1 h
    exact absurd (hid ▸ congrArg id (eq_of_key_eq hx he (hxkey.trans hkey))) hne

theorem insertOne_some (h : s.insertOne d = some s') :
    (∀ e ∈ s, id e ≠ id d) ∧ s.replaceOne d = some s' := by
  unfold insertOne at h
  split at h
  · cases h
  · rename_i hne
    simp only [not_exists, not_and] at hne
    exact ⟨hne, h⟩

theorem mem_insertOne (h : s.insertOne d = some s') : e ∈ s' ↔ e = d ∨ e ∈ s := by
  obtain ⟨hne, hr⟩ := insertOne_some h
  rw [mem_replaceOne hr]
  constructor
  · rintro (rfl | ⟨he, -⟩)
    · exact .inl rfl
    · exact .inr he
  · rintro (rfl | he)
    · exact .inl rfl
    · exact .inr ⟨he, hne e he⟩

/-- Unordered insertion keeps what was stored and adds only given documents. -/
theorem mem_insertMany {ds : List α} {s : Collection α id key} :
    (e ∈ s → e ∈ (insertMany ds s).1) ∧
      (e ∈ (insertMany ds s).1 → e ∈ s ∨ (e ∈ ds ∧ ∀ x ∈ s, id x ≠ id e ∧ key x ≠ key e)) := by
  induction ds generalizing s with
  | nil => exact ⟨fun h => h, .inl⟩
  | cons d ds ih =>
    simp only [insertMany]
    split
    · rename_i s' hins
      obtain ⟨hne, hr⟩ := insertOne_some hins
      refine ⟨fun h => ih.1 ((mem_insertOne hins).2 (.inr h)), fun h => ?_⟩
      rcases ih.2 h with h | ⟨hds, hfresh⟩
      · rcases (mem_insertOne hins).1 h with rfl | h
        · exact .inr ⟨List.mem_cons_self, fun x hx =>
            ⟨hne x hx, key_ne_of_replaceOne hr hx (hne x hx)⟩⟩
        · exact .inl h
      · exact .inr ⟨List.mem_cons_of_mem _ hds, fun x hx =>
          hfresh x ((mem_insertOne hins).2 (.inr hx))⟩
    · refine ⟨ih.1, fun h => ?_⟩
      rcases ih.2 h with h | ⟨hds, hfresh⟩
      · exact .inl h
      · exact .inr ⟨List.mem_cons_of_mem _ hds, hfresh⟩

/-- Without a secondary index no write is refused. -/
theorem replaceOne_of_id {t : Collection α id id} : ∃ t', t.replaceOne d = some t' := by
  cases h : t.replaceOne d with
  | some t' => exact ⟨t', rfl⟩
  | none =>
    obtain ⟨e, -, hne, hid⟩ := replaceOne_eq_none_iff.1 h
    exact absurd hid hne

/-- A given document is passed over only when its identifier or its key is taken. -/
theorem exists_mem_insertMany {ds : List α} {s : Collection α id key} (hd : d ∈ ds) :
    ∃ e ∈ (insertMany ds s).1, id e = id d ∨ key e = key d := by
  induction ds generalizing s with
  | nil => exact absurd hd List.not_mem_nil
  | cons x ds ih =>
    simp only [insertMany]
    rcases List.mem_cons.1 hd with rfl | hd
    · split
      · rename_i s' hins
        exact ⟨d, mem_insertMany.1 ((mem_insertOne hins).2 (.inl rfl)), .inl rfl⟩
      · rename_i hins
        unfold insertOne at hins
        split at hins
        · rename_i htaken
          obtain ⟨e, he, hid⟩ := htaken
          exact ⟨e, mem_insertMany.1 he, .inl hid⟩
        · obtain ⟨e, he, -, hkey⟩ := replaceOne_eq_none_iff.1 hins
          exact ⟨e, mem_insertMany.1 he, .inr hkey⟩
    · split
      · exact ih hd
      · exact ih hd

/-! ## Counting -/

variable {p : α → Bool}

theorem count_replaceOne_of_new (h : s.replaceOne d = some s') (hnew : ∀ e ∈ s, id e ≠ id d) :
    s'.count p = s.count p + if p d then 1 else 0 := by
  have hany : ¬ s.docs.any (id · = id d) := by
    simp only [List.any_eq_true, decide_eq_true_eq, not_exists, not_and]
    exact hnew
  simp [count, replaceOne_docs h, upsert, hany, List.countP_append, List.countP_singleton]

/-- An upsert at a stored identifier changes exactly one place of the list. -/
theorem upsert_append {l₁ l₂ : List α} (hnd : ((l₁ ++ e :: l₂).map id).Nodup) (hid : id e = id d) :
    upsert id d (l₁ ++ e :: l₂) = l₁ ++ d :: l₂ := by
  have hany : (l₁ ++ e :: l₂).any (id · = id d) := by simp [hid]
  rw [List.map_append, List.map_cons, List.nodup_append, List.nodup_cons] at hnd
  obtain ⟨-, ⟨he₂, -⟩, he₁⟩ := hnd
  have hl : ∀ l : List α, (∀ x ∈ l, id x ≠ id e) →
      l.map (fun x => if id x = id d then d else x) = l := fun l hl =>
    (List.map_congr_left fun x hx => if_neg (hid ▸ hl x hx)).trans (List.map_id'' (fun _ => rfl) l)
  rw [upsert, if_pos hany, List.map_append, List.map_cons, if_pos hid,
    hl l₁ fun x hx => he₁ _ (List.mem_map_of_mem hx) _ List.mem_cons_self,
    hl l₂ fun x hx hxe => he₂ (hxe ▸ List.mem_map_of_mem hx)]

/-- Replacing `e` by `d` moves exactly one document in or out of `p`. -/
theorem count_replaceOne_of_mem (h : s.replaceOne d = some s') (he : e ∈ s) (hid : id e = id d) :
    s'.count p + (if p e then 1 else 0) = s.count p + if p d then 1 else 0 := by
  obtain ⟨l₁, l₂, hdocs⟩ := List.append_of_mem (mem_def.1 he)
  have hup := upsert_append (d := d) (hdocs ▸ s.ids_nodup) hid
  simp only [count, replaceOne_docs h, hdocs, hup, List.countP_append, List.countP_cons]
  omega

/-- Inserting documents that are alike changes the count by the inserted ones. -/
theorem count_insertMany {b : Bool} {ds : List α} {s : Collection α id key} (h : ∀ d ∈ ds, p d = b) :
    (insertMany ds s).1.count p = s.count p + if b then (insertMany ds s).2 else 0 := by
  induction ds generalizing s with
  | nil => simp [insertMany]
  | cons d ds ih =>
    have hds : ∀ e ∈ ds, p e = b := fun e he => h e (List.mem_cons_of_mem _ he)
    simp only [insertMany]
    split
    · rename_i s' hins
      obtain ⟨hnew, hr⟩ := insertOne_some hins
      rw [ih hds, count_replaceOne_of_new hr hnew, h d List.mem_cons_self]
      split <;> omega
    · exact ih hds

end Writes

end Collection

end Conc
