-- SUMMARY: When the registry's keys are stable, over whole runs; a form that was merged can meet a nearer record.
import Stylme.Data.Entities

/-!
# Stable keys

A form that was merged into a record gets no key of its own, so that it is compared again when it comes
again. A record that was added in between can then be nearer. And the key of a new record, with
a hash at its end, may be the key of another record, which it then replaces.
-/

namespace Stylme

open Conc

namespace Data

/-- The arguments of a registration. -/
structure Registration where
  name : Option String
  source : String
  metadata : Option Document

/-- What a registration returned. -/
structure Returned where
  normalized : String
  display : String
  key : String

/-- A registry, and what it has returned so far. -/
structure Registering where
  registry : Registry
  log : List Returned

variable (lib : EntityLibrary) (similarity : String → String → ℚ)

namespace Registering

variable (σ : Registering) (r : Registration)

def display : String := σ.registry.display lib r.name

def normalized : String := σ.registry.normalize lib (σ.display lib r)

def step : Option Registering :=
  (σ.registry.register lib similarity r.name r.source r.metadata).map fun (key, registry) =>
    ⟨registry, σ.log ++ [⟨σ.normalized lib r, σ.display lib r, key⟩]⟩

/-- The form is near enough to a nearest record to be merged into it. -/
def Merged : Prop :=
  ∃ candidates score key record, σ.registry.candidates similarity (σ.normalized lib r) = some candidates ∧
    firstMax Registry.candidateRank candidates = some (score, key) ∧
    σ.registry.records.lookup key = some record ∧
    Registry.merges score (σ.normalized lib r) record.normalizedName

/-- A form that was merged before meets no nearer record, and a key with a hash at its end is not taken. -/
structure Safe : Prop where
  nearest : ∀ e ∈ σ.log, e.normalized = σ.normalized lib r →
    σ.registry.normalizedToKey.lookup (σ.normalized lib r) = none →
    ∀ record, σ.registry.records.lookup e.key = some record →
    ∀ candidates, σ.registry.candidates similarity (σ.normalized lib r) = some candidates →
    ∀ x ∈ candidates, Registry.candidateRank x ≤
      Registry.candidateRank (similarity (σ.normalized lib r) record.normalizedName, e.key)
  fresh : σ.registry.normalizedToKey.lookup (σ.normalized lib r) = none → ¬ σ.Merged lib similarity r →
    σ.registry.baseKey lib (σ.display lib r) ∈ σ.registry.records.map (·.1) →
    σ.registry.suffixedKey lib (σ.display lib r) (σ.normalized lib r) ∉ σ.registry.records.map (·.1)

/-- A form has one key, and each key is that of a record with the name. -/
structure Consistent : Prop where
  stable : ∀ e ∈ σ.log, ∀ e' ∈ σ.log, e.normalized = e'.normalized → e.key = e'.key
  named : ∀ e ∈ σ.log, ∃ record, σ.registry.records.lookup e.key = some record ∧ record.key = e.key ∧
    (record.name = e.display ∨ e.display ∈ record.aliases)

/-- The records of the one are those of the other, which may have got more aliases. -/
def Keeps (σ τ : Registering) : Prop :=
  ∀ key record, σ.registry.records.lookup key = some record →
    ∃ record', τ.registry.records.lookup key = some record' ∧ record'.key = record.key ∧
      record'.name = record.name ∧ record'.normalizedName = record.normalizedName ∧
      record'.slug = record.slug

end Registering

/-- A run from a new registry, none if it raises. -/
def registerAll (kind : String) (removeLegalSuffixes : Bool) (calls : List Registration) : Option Registering :=
  calls.foldlM (fun σ r => σ.step lib similarity r) ⟨Registry.new kind removeLegalSuffixes, []⟩

/-- All states of a run are consistent, none of its steps raises, and none replaces a record. -/
def KeysStable (kind : String) (removeLegalSuffixes : Bool) (calls : List Registration) : Prop :=
  (∃ σ, registerAll lib similarity kind removeLegalSuffixes calls = some σ ∧ σ.Consistent) ∧
  ∀ before r after, calls = before ++ r :: after → ∃ σ τ,
    registerAll lib similarity kind removeLegalSuffixes before = some σ ∧
    registerAll lib similarity kind removeLegalSuffixes (before ++ [r]) = some τ ∧ σ.Keeps τ ∧ τ.Consistent

variable {lib : EntityLibrary} {similarity : String → String → ℚ} {s t : Registry}

/-! ## Candidates -/

/-- What the maps of a registry refer to exists. -/
structure Linked (s : Registry) : Prop where
  known : ∀ {normalized key}, s.normalizedToKey.lookup normalized = some key →
    ∃ record, s.records.lookup key = some record
  bucketed : ∀ {bucket keys}, s.buckets.lookup bucket = some keys →
    ∀ key ∈ keys, ∃ record, s.records.lookup key = some record
  keyed : ∀ {key record}, s.records.lookup key = some record → record.key = key

/-- The record with the key is a candidate for the form. -/
def Near (s : Registry) (normalized key : String) (record : EntityRecord) : Prop :=
  key ∈ s.neighbours normalized ∧ s.records.lookup key = some record ∧
    Registry.similarLength normalized record.normalizedName

theorem Linked.neighbours (h : Linked s) {normalized key : String} (hkey : key ∈ s.neighbours normalized) :
    ∃ record, s.records.lookup key = some record := by
  obtain ⟨third, -, hmem⟩ := List.mem_flatMap.1 hkey
  cases hlookup : s.buckets.lookup ⟨(bucketOf normalized).initial, third⟩ with
  | none =>
    rw [hlookup] at hmem
    exact absurd hmem List.not_mem_nil
  | some keys =>
    rw [hlookup] at hmem
    exact h.bucketed hlookup key hmem

theorem mapM_lookup {f : EntityRecord → String} {keys : List String}
    (h : ∀ key ∈ keys, ∃ record, s.records.lookup key = some record) :
    ∃ found, (keys.mapM fun key => (s.records.lookup key).map fun record => (f record, key)) = some found ∧
      ∀ x, x ∈ found ↔ x.2 ∈ keys ∧ ∃ record, s.records.lookup x.2 = some record ∧ x.1 = f record := by
  induction keys with
  | nil => exact ⟨[], rfl, fun x => iff_of_false List.not_mem_nil fun h => List.not_mem_nil h.1⟩
  | cons key keys ih =>
    obtain ⟨⟨record, hrecord⟩, h⟩ := List.forall_mem_cons.1 h
    obtain ⟨found, hfound, hmem⟩ := ih h
    refine ⟨(f record, key) :: found, ?_, fun x => ?_⟩
    · rw [List.mapM_cons, hrecord, hfound]
      rfl
    · rw [List.mem_cons, hmem, List.mem_cons, or_and_right]
      refine or_congr ⟨?_, ?_⟩ Iff.rfl
      · rintro rfl
        exact ⟨rfl, record, hrecord, rfl⟩
      · rintro ⟨hkey, record', hrecord', hname⟩
        obtain rfl := Option.some.inj (hrecord.symm.trans (hkey ▸ hrecord'))
        exact Prod.ext hname hkey

/-- The candidates are the records near the form. -/
theorem Linked.candidates (h : Linked s) (normalized : String) :
    ∃ candidates, s.candidates similarity normalized = some candidates ∧ ∀ x, x ∈ candidates ↔
      ∃ record, Near s normalized x.2 record ∧ x.1 = similarity normalized record.normalizedName := by
  obtain ⟨found, hfound, hmem⟩ := mapM_lookup (f := (·.normalizedName)) fun key hkey => h.neighbours hkey
  refine ⟨_, congrArg (Option.map _) hfound, fun x => ?_⟩
  rw [List.mem_map]
  constructor
  · rintro ⟨y, hy, rfl⟩
    obtain ⟨hy, hlength⟩ := List.mem_filter.1 hy
    obtain ⟨hkey, record, hrecord, hname⟩ := (hmem y).1 hy
    exact ⟨record, ⟨hkey, hrecord, hname ▸ hlength⟩, by rw [hname]⟩
  · rintro ⟨record, ⟨hkey, hrecord, hlength⟩, hscore⟩
    refine ⟨(record.normalizedName, x.2), List.mem_filter.2 ⟨?_, hlength⟩, Prod.ext hscore.symm rfl⟩
    exact (hmem _).2 ⟨hkey, record, hrecord, rfl⟩

/-- A candidate that no other exceeds is the greatest. -/
theorem firstMax_candidates {candidates : List (ℚ × String)} {x : ℚ × String} (hx : x ∈ candidates)
    (h : ∀ y ∈ candidates, Registry.candidateRank y ≤ Registry.candidateRank x) :
    firstMax Registry.candidateRank candidates = some x := by
  obtain ⟨y, hy⟩ := Option.isSome_iff_exists.1 (isSome_firstMax (f := Registry.candidateRank) hx)
  obtain ⟨before, after, hsplit, hbefore, hafter⟩ := firstMax_split hy
  have hle : Registry.candidateRank x ≤ Registry.candidateRank y := by
    rw [hsplit, List.mem_append, List.mem_cons] at hx
    rcases hx with hx | rfl | hx
    · exact (hbefore x hx).le
    · exact le_rfl
    · exact hafter x hx
  have heq : y = x := toLex.injective ((h y (mem_of_firstMax hy)).antisymm hle)
  rw [hy, heq]

/-! ## What a registration leaves -/

/-- The records of the one registry are those of the other, with more aliases, and so are its buckets. -/
structure Extends (s t : Registry) : Prop where
  records : ∀ {key record}, s.records.lookup key = some record →
    ∃ record', t.records.lookup key = some record' ∧ record'.key = record.key ∧ record'.name = record.name ∧
      record'.normalizedName = record.normalizedName ∧ record'.slug = record.slug ∧
      record.aliases ⊆ record'.aliases
  neighbours : ∀ {normalized key}, key ∈ s.neighbours normalized → key ∈ t.neighbours normalized

/-- The key is that of a record with the name. -/
def Named (s : Registry) (e : Returned) : Prop :=
  ∃ record, s.records.lookup e.key = some record ∧ record.key = e.key ∧
    (record.name = e.display ∨ e.display ∈ record.aliases)

/-- The record is near enough to take the form. -/
def Taken (similarity : String → String → ℚ) (s : Registry) (e : Returned) : Prop :=
  ∃ record, Near s e.normalized e.key record ∧
    Registry.merges (similarity e.normalized record.normalizedName) e.normalized record.normalizedName

theorem Extends.near {normalized key : String} {record : EntityRecord} (h : Extends s t)
    (hnear : Near s normalized key record) :
    ∃ record', Near t normalized key record' ∧ record'.normalizedName = record.normalizedName := by
  obtain ⟨hkey, hrecord, hlength⟩ := hnear
  obtain ⟨record', hrecord', -, -, hname, -⟩ := h.records hrecord
  exact ⟨record', ⟨h.neighbours hkey, hrecord', hname ▸ hlength⟩, hname⟩

theorem Extends.taken {e : Returned} (h : Extends s t) (htaken : Taken similarity s e) :
    Taken similarity t e := by
  obtain ⟨record, hnear, hmerges⟩ := htaken
  obtain ⟨record', hnear', hname⟩ := h.near hnear
  exact ⟨record', hnear', hname ▸ hmerges⟩

theorem Extends.named {e : Returned} (h : Extends s t) (hnamed : Named s e) : Named t e := by
  obtain ⟨record, hrecord, hkey, hdisplay⟩ := hnamed
  obtain ⟨record', hrecord', hkey', hname, -, -, haliases⟩ := h.records hrecord
  exact ⟨record', hrecord', hkey'.trans hkey, hdisplay.imp hname.trans fun hmem => haliases hmem⟩

/-- The maps of a registry whose record with a key is changed. -/
theorem lookup_update {key key' : String} {record : EntityRecord} :
    (setKey key record s.records).lookup key' =
      if key' = key then some record else s.records.lookup key' := lookup_setKey

section Update

variable {key : String} {record record' : EntityRecord}

/-- A record changed in its aliases. -/
theorem extends_update (hrecord : s.records.lookup key = some record) (hkey : record'.key = record.key)
    (hname : record'.name = record.name) (hnormalized : record'.normalizedName = record.normalizedName)
    (hslug : record'.slug = record.slug) (haliases : record.aliases ⊆ record'.aliases) :
    Extends s { s with records := setKey key record' s.records } := by
  refine ⟨fun {other found} hfound => ?_, fun h => h⟩
  by_cases heq : other = key
  · obtain rfl : record = found := Option.some.inj (hrecord.symm.trans (heq ▸ hfound))
    exact ⟨record', lookup_update.trans (if_pos heq), hkey, hname, hnormalized, hslug, haliases⟩
  · exact ⟨found, lookup_update.trans ((if_neg heq).trans hfound), rfl, rfl, rfl, rfl, fun _ h => h⟩

theorem Linked.update (h : Linked s) (hkey : record'.key = key) :
    Linked { s with records := setKey key record' s.records } := by
  have hfound : ∀ {other}, (∃ found, s.records.lookup other = some found) →
      ∃ found, (setKey key record' s.records).lookup other = some found := fun {other} ⟨found, hother⟩ => by
    by_cases heq : other = key
    · exact ⟨record', lookup_update.trans (if_pos heq)⟩
    · exact ⟨found, lookup_update.trans ((if_neg heq).trans hother)⟩
  refine ⟨fun hlookup => hfound (h.known hlookup), fun hlookup key hkey => hfound (h.bucketed hlookup key hkey),
    fun {other found} hlookup => ?_⟩
  rw [lookup_update] at hlookup
  split at hlookup
  · rename_i heq
    rw [← Option.some.inj hlookup, hkey, heq]
  · exact h.keyed hlookup

end Update

section Add

variable {display normalized source : String} {metadata : Option Document}

theorem lookup_eq_none {key : String} {records : List (String × EntityRecord)}
    (h : key ∉ records.map (·.1)) : records.lookup key = none := by
  cases hlookup : records.lookup key with
  | none => rfl
  | some record => exact absurd (List.mem_map_of_mem (mem_of_lookup hlookup)) h

/-- The key of a new record is new if the one with a hash at its end is. -/
theorem lookup_newKey (hfresh : s.baseKey lib display ∈ s.records.map (·.1) →
    s.suffixedKey lib display normalized ∉ s.records.map (·.1)) :
    s.records.lookup (s.newKey lib display normalized) = none := by
  rw [Registry.newKey]
  split
  · rename_i htaken
    exact lookup_eq_none (hfresh htaken)
  · rename_i hfree
    exact lookup_eq_none hfree

theorem subset_addTo {items : List String} {item : String} : items ⊆ addTo items item := by
  unfold addTo
  split
  · exact fun _ h => h
  · exact List.subset_append_left _ _

theorem mem_addTo {items : List String} {item other : String} :
    other ∈ addTo items item ↔ other ∈ items ∨ other = item := by
  unfold addTo
  split
  · rename_i hmem
    exact (or_iff_left_of_imp fun heq => heq ▸ hmem).symm
  · rw [List.mem_append, List.mem_singleton]

theorem extends_add (hnew : s.records.lookup (s.newKey lib display normalized) = none) :
    Extends s (s.add lib display normalized source metadata).2 := by
  refine ⟨fun {key record} hrecord => ⟨record, ?_, rfl, rfl, rfl, rfl, fun _ h => h⟩, fun {form key} hkey => ?_⟩
  · have hne : key ≠ s.newKey lib display normalized := fun heq => by
      rw [heq, hnew] at hrecord
      cases hrecord
    exact lookup_update.trans ((if_neg hne).trans hrecord)
  · obtain ⟨third, hthird, hmem⟩ := List.mem_flatMap.1 hkey
    refine List.mem_flatMap.2 ⟨third, hthird, ?_⟩
    simp only [Registry.add, lookup_amend]
    split
    · rename_i heq
      rw [heq] at hmem
      exact subset_addTo hmem
    · exact hmem

theorem Linked.add (h : Linked s) : Linked (s.add lib display normalized source metadata).2 := by
  have hfound : ∀ {other}, (∃ found, s.records.lookup other = some found) →
      ∃ found, (s.add lib display normalized source metadata).2.records.lookup other = some found :=
    fun {other} ⟨found, hother⟩ => by
      by_cases heq : other = s.newKey lib display normalized
      · exact ⟨_, lookup_update.trans (if_pos heq)⟩
      · exact ⟨found, lookup_update.trans ((if_neg heq).trans hother)⟩
  have hself : ∃ found, (s.add lib display normalized source metadata).2.records.lookup
      (s.newKey lib display normalized) = some found := ⟨_, lookup_update.trans (if_pos rfl)⟩
  refine ⟨fun {form key} hlookup => ?_, fun {bucket keys} hlookup key hkey => ?_,
    fun {key record} hlookup => ?_⟩
  · simp only [Registry.add, lookup_setKey] at hlookup
    split at hlookup
    · obtain rfl := Option.some.inj hlookup
      exact hself
    · exact hfound (h.known hlookup)
  · simp only [Registry.add, lookup_amend] at hlookup
    split at hlookup
    · obtain rfl := Option.some.inj hlookup
      rcases mem_addTo.1 hkey with hkey | rfl
      · cases hold : s.buckets.lookup (bucketOf normalized) with
        | none =>
          rw [hold] at hkey
          exact absurd hkey List.not_mem_nil
        | some keys =>
          rw [hold] at hkey
          exact hfound (h.bucketed hold key hkey)
      · exact hself
    · exact hfound (h.bucketed hlookup key hkey)
  · simp only [Registry.add, lookup_setKey] at hlookup
    split at hlookup
    · rename_i heq
      rw [← Option.some.inj hlookup, heq]
    · exact h.keyed hlookup

end Add

/-! ## Registering -/

variable (similarity) in
/-- What a run of safe steps keeps. -/
structure Inv (σ : Registering) : Prop where
  linked : Linked σ.registry
  named : ∀ e ∈ σ.log, Named σ.registry e
  exact : ∀ e ∈ σ.log, ∀ {key}, σ.registry.normalizedToKey.lookup e.normalized = some key → e.key = key
  taken : ∀ e ∈ σ.log, σ.registry.normalizedToKey.lookup e.normalized = none → Taken similarity σ.registry e
  stable : ∀ e ∈ σ.log, ∀ e' ∈ σ.log, e.normalized = e'.normalized → e.key = e'.key

variable {σ τ : Registering} {r : Registration}

/-- A returned key is added to the log. -/
theorem Inv.log {log : List Returned} {e : Returned} (h : Inv similarity ⟨s, log⟩) (hextends : Extends s t)
    (hlinked : Linked t)
    (hlookup : ∀ e' ∈ log, t.normalizedToKey.lookup e'.normalized = s.normalizedToKey.lookup e'.normalized)
    (hnamed : Named t e)
    (hexact : ∀ {key}, t.normalizedToKey.lookup e.normalized = some key → e.key = key)
    (htaken : t.normalizedToKey.lookup e.normalized = none → Taken similarity t e)
    (hstable : ∀ e' ∈ log, e'.normalized = e.normalized → e'.key = e.key) :
    Inv similarity ⟨t, log ++ [e]⟩ := by
  have hall : ∀ {p : Returned → Prop}, (∀ e' ∈ log, p e') → p e → ∀ e' ∈ log ++ [e], p e' :=
    fun hlog hlast e' he' => (List.mem_append.1 he').elim (hlog e') fun he' => List.mem_singleton.1 he' ▸ hlast
  refine ⟨hlinked, hall (fun e' he' => hextends.named (h.named e' he')) hnamed,
    hall (fun e' he' key hkey => h.exact e' he' (hlookup e' he' ▸ hkey)) hexact,
    hall (fun e' he' hnone => hextends.taken (h.taken e' he' (hlookup e' he' ▸ hnone))) htaken, ?_⟩
  refine hall (fun e' he' => hall (h.stable e' he') (hstable e' he')) (hall (fun e' he' heq => ?_) fun _ => rfl)
  exact (hstable e' he' heq.symm).symm

theorem display_mention {record : EntityRecord} {display source : String} :
    (record.mention display source).name = display ∨ display ∈ (record.mention display source).aliases := by
  by_cases hname : display = record.name
  · exact .inl hname.symm
  · refine .inr ?_
    unfold EntityRecord.mention
    dsimp only
    split
    · exact List.mem_append_right _ List.mem_cons_self
    · rename_i hold
      exact not_not.1 fun hmem => hold ⟨hname, hmem⟩

theorem aliases_mention {record : EntityRecord} {display source : String} :
    record.aliases ⊆ (record.mention display source).aliases := by
  unfold EntityRecord.mention
  dsimp only
  split
  · exact List.subset_append_left _ _
  · exact fun _ h => h

/-- A form with a key of its own. -/
theorem Inv.step_known (h : Inv similarity σ) {key : String}
    (hknown : σ.registry.normalizedToKey.lookup (σ.normalized lib r) = some key) :
    ∃ τ, σ.step lib similarity r = some τ ∧ Inv similarity τ ∧ Extends σ.registry τ.registry := by
  obtain ⟨record, hrecord⟩ := h.linked.known hknown
  have hregister : σ.registry.registerForm lib similarity (σ.display lib r) (σ.normalized lib r) r.source
      r.metadata = some (key,
      { σ.registry with
        records := setKey key (record.mention (σ.display lib r) r.source) σ.registry.records }) := by
    rw [Registry.registerForm, hknown]
    dsimp only
    rw [hrecord]
    rfl
  have hextends := @extends_update _ _ _ (record.mention (σ.display lib r) r.source) hrecord rfl rfl rfl
    rfl aliases_mention
  have hkey := h.linked.keyed hrecord
  refine ⟨_, congrArg (Option.map _) hregister, ?_, hextends⟩
  refine h.log hextends (h.linked.update hkey) (fun _ _ => rfl) ?_
    (fun hlookup => Option.some.inj (hknown.symm.trans hlookup))
    (fun hnone => nomatch hknown.symm.trans hnone) fun e he heq => h.exact e he (heq ▸ hknown)
  exact ⟨_, lookup_update.trans (if_pos rfl), hkey, display_mention⟩

/-- A form that is merged into the nearest record. -/
theorem Inv.step_merged (h : Inv similarity σ) (hsafe : σ.Safe lib similarity r)
    (hnone : σ.registry.normalizedToKey.lookup (σ.normalized lib r) = none)
    (hmerged : σ.Merged lib similarity r) :
    ∃ τ, σ.step lib similarity r = some τ ∧ Inv similarity τ ∧ Extends σ.registry τ.registry := by
  obtain ⟨candidates, score, key, record, hcandidates, hmax, hrecord, hmerges⟩ := hmerged
  obtain ⟨found, hfound, hmem⟩ := @Linked.candidates similarity _ h.linked (σ.normalized lib r)
  obtain rfl : found = candidates := Option.some.inj (hfound.symm.trans hcandidates)
  have hregister : σ.registry.registerForm lib similarity (σ.display lib r) (σ.normalized lib r) r.source
      r.metadata = some (key,
      { σ.registry with
        records := setKey key (record.absorb (σ.display lib r) r.source) σ.registry.records }) := by
    rw [Registry.registerForm, hnone]
    dsimp only
    rw [hcandidates, Option.bind_some, hmax]
    dsimp only
    rw [hrecord, Option.map_some, if_pos hmerges]
  have hextends := @extends_update _ _ _ (record.absorb (σ.display lib r) r.source) hrecord rfl rfl rfl
    rfl subset_addTo
  have hkey := h.linked.keyed hrecord
  obtain ⟨record', hnear, hscore⟩ := (hmem _).1 (mem_of_firstMax hmax)
  obtain rfl : record = record' := Option.some.inj (hrecord.symm.trans hnear.2.1)
  refine ⟨_, congrArg (Option.map _) hregister, ?_, hextends⟩
  refine h.log hextends (h.linked.update hkey) (fun _ _ => rfl) ?_
    (fun hlookup => nomatch hnone.symm.trans hlookup) (fun _ => ?_) fun e he heq => ?_
  · exact ⟨_, lookup_update.trans (if_pos rfl), hkey, .inr (mem_addTo.2 (.inr rfl))⟩
  · exact hextends.taken ⟨record, hnear, hscore ▸ hmerges⟩
  · -- the record that the form was merged into before is still the nearest
    obtain ⟨old, hold, -⟩ := h.taken e he (heq ▸ hnone)
    rw [heq] at hold
    have hgreatest := firstMax_candidates ((hmem (similarity (σ.normalized lib r) old.normalizedName, e.key)).2
      ⟨old, hold, rfl⟩) (hsafe.nearest e he heq hnone old hold.2.1 found hcandidates)
    exact congrArg Prod.snd (Option.some.inj (hgreatest.symm.trans hmax))

theorem Inv.review {log : List Returned} {display normalized key : String} {record : EntityRecord} {score : ℚ}
    (h : Inv similarity ⟨s, log⟩) : Inv similarity ⟨s.review display normalized key record score, log⟩ :=
  ⟨⟨h.linked.known, h.linked.bucketed, h.linked.keyed⟩, h.named, h.exact, h.taken, h.stable⟩

/-- A new record for a form that was not registered before. -/
theorem Inv.add {log : List Returned} {display normalized source : String} {metadata : Option Document}
    (h : Inv similarity ⟨s, log⟩)
    (hfresh : s.baseKey lib display ∈ s.records.map (·.1) →
      s.suffixedKey lib display normalized ∉ s.records.map (·.1))
    (hnew : ∀ e ∈ log, e.normalized ≠ normalized) :
    Inv similarity ⟨(s.add lib display normalized source metadata).2,
      log ++ [⟨normalized, display, (s.add lib display normalized source metadata).1⟩]⟩ := by
  have hlookup : ∀ form, (s.add lib display normalized source metadata).2.normalizedToKey.lookup form =
      if form = normalized then some (s.newKey lib display normalized)
      else s.normalizedToKey.lookup form := fun form => lookup_setKey
  refine h.log (extends_add (lookup_newKey hfresh)) h.linked.add
    (fun e he => (hlookup e.normalized).trans (if_neg (hnew e he))) ?_ (fun {key} hkey => ?_) (fun hnone => ?_)
    fun e he heq => absurd heq (hnew e he)
  · exact ⟨_, lookup_update.trans (if_pos rfl), rfl, .inl rfl⟩
  · exact Option.some.inj (((hlookup normalized).trans (if_pos rfl)).symm.trans hkey)
  · exact nomatch ((hlookup normalized).trans (if_pos rfl)).symm.trans hnone

/-- A form that gets a record of its own. -/
theorem Inv.step_new (h : Inv similarity σ) (hsafe : σ.Safe lib similarity r)
    (hnone : σ.registry.normalizedToKey.lookup (σ.normalized lib r) = none)
    (hmerged : ¬ σ.Merged lib similarity r) :
    ∃ τ, σ.step lib similarity r = some τ ∧ Inv similarity τ ∧ Extends σ.registry τ.registry := by
  obtain ⟨found, hfound, hmem⟩ := @Linked.candidates similarity _ h.linked (σ.normalized lib r)
  have hnew : ∀ e ∈ σ.log, e.normalized ≠ σ.normalized lib r := by
    intro e he heq
    obtain ⟨old, hold, hmerges⟩ := h.taken e he (heq ▸ hnone)
    rw [heq] at hold hmerges
    have hgreatest := firstMax_candidates ((hmem (similarity (σ.normalized lib r) old.normalizedName, e.key)).2
      ⟨old, hold, rfl⟩) (hsafe.nearest e he heq hnone old hold.2.1 found hfound)
    exact hmerged ⟨found, _, _, old, hfound, hgreatest, hold.2.1, hmerges⟩
  have hfresh := hsafe.fresh hnone hmerged
  have hregister : ∃ u, (u = σ.registry ∨ ∃ key record score,
        u = σ.registry.review (σ.display lib r) (σ.normalized lib r) key record score) ∧
      σ.registry.registerForm lib similarity (σ.display lib r) (σ.normalized lib r) r.source r.metadata =
        some (u.add lib (σ.display lib r) (σ.normalized lib r) r.source r.metadata) := by
    rw [Registry.registerForm, hnone]
    dsimp only
    rw [hfound, Option.bind_some]
    split
    · exact ⟨_, .inl rfl, rfl⟩
    · rename_i score key hmax
      obtain ⟨record, hnear, -⟩ := (hmem _).1 (mem_of_firstMax hmax)
      rw [hnear.2.1, Option.map_some, if_neg fun hmerges => hmerged
        ⟨found, score, key, record, hfound, hmax, hnear.2.1, hmerges⟩]
      split
      · exact ⟨_, .inr ⟨key, record, score, rfl⟩, rfl⟩
      · exact ⟨_, .inl rfl, rfl⟩
  obtain ⟨u, hu, hregister⟩ := hregister
  refine ⟨_, congrArg (Option.map _) hregister, ?_, ?_⟩
  · rcases hu with rfl | ⟨key, record, score, rfl⟩
    · exact Inv.add h hfresh hnew
    · exact Inv.add (Inv.review h) hfresh hnew
  · rcases hu with rfl | ⟨key, record, score, rfl⟩
    · exact extends_add (lookup_newKey hfresh)
    · let u := σ.registry.review (σ.display lib r) (σ.normalized lib r) key record score
      have hextends : Extends u (u.add lib (σ.display lib r) (σ.normalized lib r) r.source r.metadata).2 :=
        extends_add (lookup_newKey hfresh)
      exact ⟨hextends.records, hextends.neighbours⟩

/-- A safe step raises nothing and keeps the invariant. -/
theorem Inv.step (h : Inv similarity σ) (hsafe : σ.Safe lib similarity r) :
    ∃ τ, σ.step lib similarity r = some τ ∧ Inv similarity τ ∧ Extends σ.registry τ.registry := by
  cases hlookup : σ.registry.normalizedToKey.lookup (σ.normalized lib r) with
  | some key => exact h.step_known hlookup
  | none =>
    by_cases hmerged : σ.Merged lib similarity r
    · exact h.step_merged hsafe hlookup hmerged
    · exact h.step_new hsafe hlookup hmerged

/-! ## Runs -/

variable (lib similarity) in
/-- Every step of the run is safe. -/
def SafeRun : Registering → List Registration → Prop
  | _, [] => True
  | σ, r :: calls => σ.Safe lib similarity r ∧ ∀ τ, σ.step lib similarity r = some τ → SafeRun τ calls

theorem Inv.run {before after : List Registration} (h : Inv similarity σ)
    (hsafe : SafeRun lib similarity σ (before ++ after)) :
    ∃ τ, before.foldlM (fun σ r => σ.step lib similarity r) σ = some τ ∧ Inv similarity τ ∧
      SafeRun lib similarity τ after := by
  induction before generalizing σ with
  | nil => exact ⟨σ, rfl, h, hsafe⟩
  | cons r before ih =>
    obtain ⟨hfirst, hrest⟩ := hsafe
    obtain ⟨τ, hstep, hτ, -⟩ := h.step hfirst
    obtain ⟨υ, hrun, hυ, hsafe⟩ := ih hτ (hrest τ hstep)
    refine ⟨υ, ?_, hυ, hsafe⟩
    rw [List.foldlM_cons, hstep]
    exact hrun

theorem Inv.consistent (h : Inv similarity σ) : σ.Consistent := ⟨h.stable, h.named⟩

theorem Extends.keeps (h : Extends σ.registry τ.registry) : σ.Keeps τ := fun _ _ hrecord => by
  obtain ⟨record', hrecord', hkey, hname, hnormalized, hslug, -⟩ := h.records hrecord
  exact ⟨record', hrecord', hkey, hname, hnormalized, hslug⟩

theorem inv_new {kind : String} {removeLegalSuffixes : Bool} :
    Inv similarity ⟨Registry.new kind removeLegalSuffixes, []⟩ :=
  ⟨⟨nofun, nofun, nofun⟩, nofun, nofun, nofun, nofun⟩

/-- The keys are stable in every run whose steps are safe. -/
theorem keysStable_of_safeRun (lib : EntityLibrary) (similarity : String → String → ℚ) (kind : String)
    (removeLegalSuffixes : Bool) (calls : List Registration)
    (hsafe : SafeRun lib similarity ⟨Registry.new kind removeLegalSuffixes, []⟩ calls) :
    KeysStable lib similarity kind removeLegalSuffixes calls := by
  constructor
  · obtain ⟨σ, hrun, h, -⟩ := inv_new.run (calls.append_nil.symm ▸ hsafe)
    exact ⟨σ, hrun, h.consistent⟩
  · rintro before r after rfl
    obtain ⟨σ, hrun, h, hstep, -⟩ := inv_new.run hsafe
    obtain ⟨τ, hτ, hinv, hextends⟩ := h.step hstep
    refine ⟨σ, τ, hrun, ?_, hextends.keeps, hinv.consistent⟩
    rw [registerAll, List.foldlM_append, show before.foldlM _ _ = _ from hrun]
    exact (bind_pure _).trans hτ

/-! ## Two runs -/

def plainEntities : EntityLibrary := { plainLibrary with
  title := fun s => String.ofList (s.toList.modifyHead Char.toUpper)
  isWord := fun c => c.isAlphanum ∨ c = '_'
  sameLetter := fun a b => a.toLower = b.toLower }

def named (name : String) : Registration := ⟨some name, "myntra_csv", none⟩

/-- Texts are similar if they are equal. -/
def equality (left right : String) : ℚ := if left = right then 1 else 0

theorem keysStable_of_safeRun_sample :
    KeysStable plainEntities equality "brand" false [named "Roadster", named "ROADSTER"] := by
  refine keysStable_of_safeRun plainEntities equality "brand" false _ ⟨⟨nofun, fun _ _ h => nomatch h⟩, ?_⟩
  intro τ hτ
  have hknown : ((Registering.step plainEntities equality ⟨Registry.new "brand" false, []⟩ (named "Roadster")).bind
      fun τ => τ.registry.normalizedToKey.lookup (τ.normalized plainEntities (named "ROADSTER"))) ≠ none := by
    decide +kernel
  rw [hτ, Option.bind_some] at hknown
  exact ⟨⟨fun _ _ _ hnone => absurd hnone hknown, fun hnone => absurd hnone hknown⟩, fun _ _ => trivial⟩

/-- A measure by which `ba` is near all names. -/
def nearBa (left right : String) : ℚ :=
  if left = right then 1 else if left = "ba" ∨ right = "ba" then 99 / 100 else 0

/-- The forms and the keys of a run in which `ba` comes twice. -/
def baLog : {log : List (String × String) // (registerAll plainEntities nearBa "brand" false
    [named "bb", named "ba", named "bz", named "ba"]).map (fun σ => σ.log.map fun e => (e.normalized, e.key)) =
      some log} :=
  ⟨[("bb", "brand:bb"), ("ba", "brand:bb"), ("bz", "brand:bz"), ("ba", "brand:bz")], by decide +kernel⟩

theorem nearBa_key_moves : (∀ left right, 0 ≤ nearBa left right ∧ nearBa left right ≤ 1) ∧
    (∀ text, nearBa text text = 1) ∧
    ¬ KeysStable plainEntities nearBa "brand" false [named "bb", named "ba", named "bz", named "ba"] := by
  have hlog : (registerAll plainEntities nearBa "brand" false
      [named "bb", named "ba", named "bz", named "ba"]).map (fun σ => σ.log.map fun e => (e.normalized, e.key)) =
      some [("bb", "brand:bb"), ("ba", "brand:bb"), ("bz", "brand:bz"), ("ba", "brand:bz")] := baLog.2
  refine ⟨fun left right => ?_, fun text => if_pos rfl, fun h => ?_⟩
  · unfold nearBa
    split
    · norm_num
    · split <;> norm_num
  · obtain ⟨⟨σ, hrun, h⟩, -⟩ := h
    rw [hrun, Option.map_some, Option.some.injEq] at hlog
    have hmem : ∀ x ∈ [("bb", "brand:bb"), ("ba", "brand:bb"), ("bz", "brand:bz"), ("ba", "brand:bz")],
        ∃ e ∈ σ.log, (e.normalized, e.key) = x := fun x hx => List.mem_map.1 (hlog ▸ hx)
    obtain ⟨e, he, heq⟩ := hmem ("ba", "brand:bb") (by simp)
    obtain ⟨e', he', heq'⟩ := hmem ("ba", "brand:bz") (by simp)
    have hkey := h.stable e he e' he' ((congrArg Prod.fst heq).trans (congrArg Prod.fst heq').symm)
    rw [show e.key = _ from congrArg Prod.snd heq, show e'.key = _ from congrArg Prod.snd heq'] at hkey
    exact absurd hkey (by decide)

end Data

end Stylme
