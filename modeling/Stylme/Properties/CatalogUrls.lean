-- SUMMARY: When the URL of a catalogue query is read back as the same query.
import Stylme.Frontend.CatalogQuery

/-!
# Catalogue URLs

A query that has been read is in a normal form that its own URL is read back into. Reading
throws on an entry whose key is a property that every object inherits.
-/

namespace Stylme

open Conc Frontend

namespace CatalogUrls

/-! ## Lists of texts -/

section Many

variable {value : Param} {items : List String} {item : String}

theorem tight_of_mem_many (h : item ∈ many value) : Tight item.toList ∧ item ≠ "" := by
  obtain ⟨hmem, hne⟩ := List.mem_filter.1 h
  obtain ⟨raw, -, rfl⟩ := List.mem_map.1 hmem
  refine ⟨?_, of_decide_eq_true hne⟩
  rw [Frontend.trim, String.toList_ofList]
  exact tight_trimmed _

theorem trim_of_tight (h : Tight item.toList) : Frontend.trim item = item := by
  rw [Frontend.trim, trimmed_of_tight h, String.ofList_toList]

/-- Texts without outer blanks are kept. -/
theorem many_of_tight (h : ∀ item ∈ items, Tight item.toList ∧ item ≠ "") :
    many (.many items) = items := by
  have hmap : items.map Frontend.trim = items := by
    conv_rhs => rw [← List.map_id items]
    exact List.map_congr_left fun item hitem => trim_of_tight (h item hitem).1
  unfold many
  dsimp only
  rw [hmap, List.filter_eq_self]
  exact fun item hitem => decide_eq_true (h item hitem).2

theorem many_many : many (.many (many value)) = many value :=
  many_of_tight fun _ => tight_of_mem_many

end Many

/-! ## Numbers, sorts and pincodes -/

theorem positiveNumber_nonneg {value : Option String} {x : Binary64}
    (h : positiveNumber value = some x) : 0 ≤ x.value := by
  unfold positiveNumber at h
  split at h
  · cases h
  split_ifs at h
  split at h
  · split_ifs at h with hx
    exact Option.some.inj h ▸ hx
  · cases h

theorem one_textParam {text : Option String} : one (textParam text) = text := by
  cases text <;> rfl

/-- A number that has been read is read back. -/
theorem positiveNumber_numberParam {value : Option String} :
    positiveNumber (one (numberParam (positiveNumber value))) = positiveNumber value := by
  rw [numberParam, one_textParam]
  cases h : positiveNumber value with
  | none => rfl
  | some x =>
    have hx := positiveNumber_nonneg h
    rw [Option.map_some, positiveNumber, if_neg (numberToString_ne_empty x hx), toNumber_numberToString x hx]
    exact if_pos hx

theorem parseSort_text {sort : CatalogSort} : parseSort (some sort.text) = sort := by
  cases sort <;> decide

theorem cleanPincode_cleanPincode {pincode : String} :
    cleanPincode (cleanPincode pincode) = cleanPincode pincode := by
  unfold cleanPincode
  rw [String.toList_ofList]
  congr 1
  have hdigits : ((pincode.toList.filter Char.isDigit).take 6).filter Char.isDigit =
      (pincode.toList.filter Char.isDigit).take 6 :=
    List.filter_eq_self.2 fun c hc => (List.mem_filter.1 (List.mem_of_mem_take hc)).2
  rw [hdigits, List.take_take, min_self]

theorem map_cleanPincode {pincode : Option String} :
    (one (textParam (pincode.map cleanPincode))).map cleanPincode = pincode.map cleanPincode := by
  rw [one_textParam, Option.map_map]
  exact congrArg (pincode.map ·) (funext fun _ => cleanPincode_cleanPincode)

/-! ## Entries -/

section Entries

variable {key value entry : String}

theorem eq_of_entryParts (h : entryParts entry = some (key, value)) :
    entry = key ++ ":" ++ value ∧ key ≠ "" ∧ ':' ∉ key.toList := by
  unfold entryParts at h
  rw [List.span_eq_takeWhile_dropWhile] at h
  split at h
  case h_2 => cases h
  case h_1 c k colon v hspan =>
    obtain ⟨rfl, rfl⟩ := Prod.mk.inj (Option.some.inj h)
    obtain ⟨htake, hdrop⟩ := Prod.mk.inj hspan
    have hcolon : colon = ':' := by
      have hhead := List.head?_dropWhile_not (fun c : Char => decide (c ≠ ':')) entry.toList
      rw [hdrop] at hhead
      simpa using hhead
    have hentry : entry.toList = c :: k ++ colon :: v := by
      rw [← htake, ← hdrop, List.takeWhile_append_dropWhile]
    refine ⟨String.toList_injective ?_, ?_, ?_⟩
    · rw [hentry, hcolon]
      simp
    · intro hempty
      simpa using congrArg String.toList hempty
    · intro hmem
      rw [String.toList_ofList, ← htake] at hmem
      simpa using List.mem_takeWhile_imp hmem

theorem entryParts_append (hne : key ≠ "") (hcolon : ':' ∉ key.toList) :
    entryParts (key ++ ":" ++ value) = some (key, value) := by
  have hkey : ∀ c ∈ key.toList, decide (c ≠ ':') = true := fun c hc =>
    decide_eq_true fun h => hcolon (h ▸ hc)
  have hlist : (key ++ ":" ++ value).toList = key.toList ++ ':' :: value.toList := by simp
  have hspan : (key ++ ":" ++ value).toList.span (· ≠ ':') = (key.toList, ':' :: value.toList) := by
    rw [List.span_eq_takeWhile_dropWhile, hlist, List.takeWhile_append_of_pos hkey,
      List.dropWhile_append_of_pos hkey]
    simp
  unfold entryParts
  rw [hspan]
  cases hchars : key.toList with
  | nil => exact (hne (String.toList_injective hchars)).elim
  | cons c k =>
    dsimp only
    rw [← hchars, String.ofList_toList, String.ofList_toList]

end Entries

/-- A pair of a key and a value that is read back from its entry. -/
structure Entry (key value : String) : Prop where
  parts : entryParts (key ++ ":" ++ value) = some (key, value)
  value_ne : value ≠ ""
  tight : Tight (key ++ ":" ++ value).toList

/-- The entry is filed under a property that objects inherit. -/
def NamesInherited (entry : String) : Prop :=
  ∃ key value, entryParts entry = some (key, value) ∧ value ≠ "" ∧ key ∈ objectPrototype

/-! ## Facets -/

/-- Facets as they are read from entries. -/
structure Canonical (facets : PlainObject (List String)) : Prop where
  listed : Listed facets
  nodup : (facets.map (·.1)).Nodup
  own : ∀ facet ∈ facets, facet.1 ∉ objectPrototype
  values : ∀ facet ∈ facets, facet.2 ≠ [] ∧ facet.2.Nodup
  entries : ∀ facet ∈ facets, ∀ value ∈ facet.2, Entry facet.1 value

section Canonical

variable {facets facets' : PlainObject (List String)} {key value entry : String}

theorem canonical_nil : Canonical [] where
  listed := .nil
  nodup := .nil
  own := by simp
  values := by simp
  entries := by simp

/-- A further value of a key keeps the facets canonical. -/
theorem Canonical.extend {values : List String} (h : Canonical facets)
    (hlookup : facets.lookup key = some values) (hentry : Entry key value) :
    Canonical (setProperty key (values ++ [value]).eraseDups facets) := by
  have hmem := mem_of_lookup hlookup
  have hset : setProperty key (values ++ [value]).eraseDups facets =
      facets.map fun facet =>
        if facet.1 = key then (key, (values ++ [value]).eraseDups) else facet := by
    rw [setProperty, hlookup]
    rfl
  have hkey : ∀ facet : String × List String,
      (if facet.1 = key then (key, (values ++ [value]).eraseDups) else facet).1 = facet.1 := by
    intro facet
    split_ifs with heq
    · exact heq.symm
    · rfl
  have hnodup : (values ++ [value]).eraseDups.Nodup := by
    rw [eraseDups_append_singleton (h.values _ hmem).2]
    split_ifs with hold
    · exact (h.values _ hmem).2
    · exact List.nodup_append'.2 ⟨(h.values _ hmem).2, List.nodup_singleton _,
        List.disjoint_singleton.2 hold⟩
  rw [hset]
  constructor
  case listed =>
    refine List.pairwise_map.2 (h.listed.imp fun hle => ?_)
    rw [hkey, hkey]
    exact hle
  case nodup =>
    have hkeys : (facets.map fun facet =>
        if facet.1 = key then (key, (values ++ [value]).eraseDups) else facet).map (·.1) =
        facets.map (·.1) := by
      rw [List.map_map]
      exact List.map_congr_left fun facet _ => hkey facet
    rw [hkeys]
    exact h.nodup
  case own =>
    intro facet hfacet
    obtain ⟨old, hold, rfl⟩ := List.mem_map.1 hfacet
    rw [hkey]
    exact h.own old hold
  case values =>
    intro facet hfacet
    obtain ⟨old, hold, rfl⟩ := List.mem_map.1 hfacet
    split_ifs
    · exact ⟨List.ne_nil_of_mem (List.mem_eraseDups.2 (List.mem_append_right _
        (List.mem_singleton.2 rfl))), hnodup⟩
    · exact h.values old hold
  case entries =>
    intro facet hfacet v hv
    obtain ⟨old, hold, rfl⟩ := List.mem_map.1 hfacet
    split_ifs at hv ⊢
    · rcases List.mem_append.1 (List.mem_eraseDups.1 hv) with hv | hv
      · exact h.entries _ hmem v hv
      · exact List.mem_singleton.1 hv ▸ hentry
    · exact h.entries old hold v hv

/-- The first value of a key keeps the facets canonical. -/
theorem Canonical.add (h : Canonical facets) (hlookup : facets.lookup key = none)
    (hown : key ∉ objectPrototype) (hentry : Entry key value) :
    Canonical (setProperty key [value] facets) := by
  have hset : setProperty key [value] facets = addProperty key [value] facets := by
    rw [setProperty, hlookup]
    rfl
  have hperm : (addProperty key [value] facets).Perm ((key, [value]) :: facets) := perm_addProperty
  have hall : ∀ {P : String × List String → Prop}, P (key, [value]) → (∀ facet ∈ facets, P facet) →
      ∀ facet ∈ addProperty key [value] facets, P facet := by
    intro P hnew hold facet hfacet
    rcases List.mem_cons.1 (hperm.subset hfacet) with rfl | hfacet
    · exact hnew
    · exact hold facet hfacet
  rw [hset]
  constructor
  case listed => exact listed_addProperty h.listed
  case nodup =>
    have hnew : key ∉ facets.map (·.1) := by
      intro hmem
      obtain ⟨facet, hfacet, rfl⟩ := List.mem_map.1 hmem
      have hne := List.lookup_eq_none_iff.1 hlookup facet hfacet
      simp at hne
    exact ((hperm.map (·.1)).nodup_iff).2 (List.nodup_cons.2 ⟨hnew, h.nodup⟩)
  case own => exact hall hown h.own
  case values => exact hall ⟨List.cons_ne_nil _ _, List.nodup_singleton _⟩ h.values
  case entries =>
    exact hall (fun v hv => List.mem_singleton.1 hv ▸ hentry) h.entries

theorem Canonical.addEntry (h : Canonical facets) (htight : Tight entry.toList)
    (hok : addEntry facets entry = .ok facets') : Canonical facets' := by
  unfold Frontend.addEntry at hok
  cases hparts : entryParts entry with
  | none =>
    rw [hparts] at hok
    exact Except.ok.inj hok ▸ h
  | some part =>
    obtain ⟨key, value⟩ := part
    rw [hparts] at hok
    dsimp only at hok
    by_cases hvalue : value = ""
    · rw [if_pos hvalue] at hok
      exact Except.ok.inj hok ▸ h
    rw [if_neg hvalue] at hok
    obtain ⟨rfl, hne, hcolon⟩ := eq_of_entryParts hparts
    have hentry : Entry key value := ⟨hparts, hvalue, htight⟩
    cases hlookup : facets.lookup key with
    | some values =>
      rw [hlookup] at hok
      exact Except.ok.inj hok ▸ h.extend hlookup hentry
    | none =>
      rw [hlookup] at hok
      dsimp only at hok
      split_ifs at hok with hown
      exact Except.ok.inj hok ▸ h.add hlookup hown hentry

/-- An entry is taken into facets unless its key is inherited. -/
theorem addEntry_isOk_iff (h : Canonical facets) :
    (∃ facets', addEntry facets entry = .ok facets') ↔ ¬ NamesInherited entry := by
  unfold Frontend.addEntry NamesInherited
  cases hparts : entryParts entry with
  | none => simp
  | some part =>
    obtain ⟨key, value⟩ := part
    dsimp only
    by_cases hvalue : value = ""
    · simp [hvalue]
    rw [if_neg hvalue]
    cases hlookup : facets.lookup key with
    | some values => simpa [hvalue] using h.own _ (mem_of_lookup hlookup)
    | none =>
      dsimp only
      split_ifs with hown
      · simp [hvalue, hown]
      · simp [hvalue, hown]

theorem parseEntries_canonical {value : Param} (hok : parseEntries value = .ok facets) :
    Canonical facets :=
  foldlM_invariant (fun _ hentry _ _ h => h.addEntry (tight_of_mem_many hentry).1) canonical_nil hok

theorem parseEntries_isOk_iff {value : Param} :
    (∃ facets, parseEntries value = .ok facets) ↔ ∀ entry ∈ many value, ¬ NamesInherited entry :=
  exists_foldlM_eq_ok_iff canonical_nil
    (fun _ hentry _ _ h => h.addEntry (tight_of_mem_many hentry).1)
    fun _ _ h => addEntry_isOk_iff h

end Canonical

/-! ## Reading entries back -/

section ReadBack

variable {facets : PlainObject (List String)} {key value : String} {values : List String}

/-- The next value of the last key -/
theorem addEntry_last (hentry : Entry key value) (hkey : key ∉ facets.map (·.1))
    (hvalues : (values ++ [value]).Nodup) :
    addEntry (facets ++ [(key, values)]) (key ++ ":" ++ value) =
      .ok (facets ++ [(key, values ++ [value])]) := by
  have hfacets : facets.lookup key = none := by
    rw [List.lookup_eq_none_iff]
    intro facet hfacet
    have hne : key ≠ facet.1 := fun h => hkey (h ▸ List.mem_map_of_mem hfacet)
    simpa using hne
  have hlookup : (facets ++ [(key, values)]).lookup key = some values := by
    rw [List.lookup_append, hfacets]
    simp
  have hkeep : facets.map (fun facet =>
      if facet.1 = key then (key, values ++ [value]) else facet) = facets := by
    conv_rhs => rw [← List.map_id facets]
    refine List.map_congr_left fun facet hfacet => if_neg fun h => ?_
    exact hkey (h ▸ List.mem_map_of_mem hfacet)
  unfold addEntry
  rw [hentry.parts]
  dsimp only
  rw [if_neg hentry.value_ne, hlookup]
  dsimp only
  rw [eraseDups_of_nodup hvalues, setProperty, hlookup]
  simp [hkeep]

/-- The first value of a key that is listed last -/
theorem addEntry_first (hentry : Entry key value) (hkey : key ∉ facets.map (·.1))
    (hown : key ∉ objectPrototype)
    (hlast : ∀ facet ∈ facets, keyRank facet.1 ≤ keyRank key) :
    addEntry facets (key ++ ":" ++ value) = .ok (facets ++ [(key, [value])]) := by
  have hlookup : facets.lookup key = none := by
    rw [List.lookup_eq_none_iff]
    intro facet hfacet
    have hne : key ≠ facet.1 := fun h => hkey (h ▸ List.mem_map_of_mem hfacet)
    simpa using hne
  unfold addEntry
  rw [hentry.parts]
  dsimp only
  rw [if_neg hentry.value_ne, hlookup]
  dsimp only
  rw [if_neg hown, setProperty, hlookup]
  exact congrArg Except.ok (addProperty_last hlast)

/-- The further values of the last key -/
theorem foldlM_last {more : List String} (hkey : key ∉ facets.map (·.1))
    (hentry : ∀ value ∈ more, Entry key value) (hvalues : (values ++ more).Nodup) :
    (more.map fun value => key ++ ":" ++ value).foldlM addEntry (facets ++ [(key, values)]) =
      .ok (facets ++ [(key, values ++ more)]) := by
  induction more generalizing values with
  | nil => rw [List.append_nil]; rfl
  | cons value more ih =>
    rw [List.append_cons values] at hvalues ⊢
    have hfirst := addEntry_last (hentry value List.mem_cons_self) hkey
      (List.nodup_append'.1 hvalues).1
    rw [List.map_cons, List.foldlM_cons, hfirst]
    exact ih (fun v hv => hentry v (List.mem_cons_of_mem _ hv)) hvalues

/-- Facets are read back from their entries, one key after the other. -/
theorem foldlM_entriesOf {done rest : PlainObject (List String)} (h : Canonical (done ++ rest)) :
    (entriesOf rest).foldlM addEntry done = .ok (done ++ rest) := by
  induction rest generalizing done with
  | nil => rw [List.append_nil]; rfl
  | cons facet rest ih =>
    obtain ⟨key, values⟩ := facet
    have hmem : (key, values) ∈ done ++ (key, values) :: rest :=
      List.mem_append_right _ List.mem_cons_self
    have hkey : key ∉ done.map (·.1) := by
      have hnodup := h.nodup
      rw [List.map_append, List.nodup_append'] at hnodup
      exact fun hold => hnodup.2.2 hold List.mem_cons_self
    have hlast : ∀ facet ∈ done, keyRank facet.1 ≤ keyRank key := fun facet hfacet =>
      (List.pairwise_append.1 h.listed).2.2 facet hfacet _ List.mem_cons_self
    have hentry : ∀ value ∈ values, Entry key value := h.entries _ hmem
    obtain ⟨hne, hvalues⟩ := h.values _ hmem
    have hfacet : (values.map fun value => key ++ ":" ++ value).foldlM addEntry done =
        .ok (done ++ [(key, values)]) := by
      cases values with
      | nil => exact (hne rfl).elim
      | cons value more =>
        rw [List.map_cons, List.foldlM_cons,
          addEntry_first (hentry value List.mem_cons_self) hkey (h.own _ hmem) hlast]
        exact foldlM_last hkey (fun v hv => hentry v (List.mem_cons_of_mem _ hv)) hvalues
    rw [entriesOf, List.flatMap_cons, List.foldlM_append, hfacet, List.append_cons done _ rest]
    rw [List.append_cons done _ rest] at h
    exact ih h

theorem parseEntries_entriesOf (h : Canonical facets) :
    parseEntries (.many (entriesOf facets)) = .ok facets := by
  have hmany : many (.many (entriesOf facets)) = entriesOf facets := by
    refine many_of_tight fun entry hentry => ?_
    obtain ⟨facet, hfacet, hentry⟩ := List.mem_flatMap.1 hentry
    obtain ⟨value, hvalue, rfl⟩ := List.mem_map.1 hentry
    have hread := h.entries facet hfacet value hvalue
    refine ⟨hread.tight, fun hempty => ?_⟩
    have hchars := congrArg String.toList hempty
    simp at hchars
  rw [parseEntries, hmany]
  have hfrom : Canonical ([] ++ facets) := h
  exact foldlM_entriesOf hfrom

end ReadBack

/-! ## Queries -/

/-- The query that search parameters stand for is the one that its own URL stands for, but for
the page. -/
def RoundTrips (params : SearchParams) : Prop :=
  ∃ query, parseCatalogQuery params = .ok query ∧
    ∃ query', parseCatalogQuery (queryRecord query) = .ok query' ∧
      { query' with page := query.page } = query

/-- A flag that is only written when it is set. -/
theorem one_flag {flag : Bool} {text : String} :
    decide (one (if flag then .one text else .absent) = some text) = flag := by
  cases flag <;> simp [one]

theorem roundTrips_of_ok {params : SearchParams} {query : CatalogQuery}
    (h : parseCatalogQuery params = .ok query) : RoundTrips params := by
  refine ⟨query, h, ?_⟩
  obtain ⟨facets, hfacets, h⟩ := bind_eq_ok.1 h
  obtain ⟨softFacets, hsoft, h⟩ := bind_eq_ok.1 h
  obtain rfl := Except.ok.inj h
  refine ⟨_, bind_eq_ok.2 ⟨facets, parseEntries_entriesOf (parseEntries_canonical hfacets),
    bind_eq_ok.2 ⟨softFacets, parseEntries_entriesOf (parseEntries_canonical hsoft), rfl⟩⟩, ?_⟩
  apply CatalogQuery.ext
  case page | pageSize | metadata | softMetadata => rfl
  case sort => exact parseSort_text
  case pincode => exact map_cleanPincode
  case swoopStyl | intentParsed => exact one_flag
  case query | lexicalQuery | intentSource => exact one_textParam
  case brand | category | productType | colour | size | gender | profileGender => exact many_many
  all_goals exact positiveNumber_numberParam

/-- A URL round trips exactly when none of its entries is filed under an inherited property. -/
theorem catalogUrl_roundTrips_iff (params : SearchParams) :
    RoundTrips params ↔
      ∀ entry ∈ many (params.get "meta") ++ many (params.get "softMeta"),
        ¬ NamesInherited entry := by
  rw [List.forall_mem_append, ← parseEntries_isOk_iff, ← parseEntries_isOk_iff]
  constructor
  · rintro ⟨query, h, -⟩
    obtain ⟨facets, hfacets, h⟩ := bind_eq_ok.1 h
    obtain ⟨softFacets, hsoft, -⟩ := bind_eq_ok.1 h
    exact ⟨⟨facets, hfacets⟩, ⟨softFacets, hsoft⟩⟩
  · rintro ⟨⟨facets, hfacets⟩, ⟨softFacets, hsoft⟩⟩
    exact roundTrips_of_ok (bind_eq_ok.2 ⟨facets, hfacets, bind_eq_ok.2 ⟨softFacets, hsoft, rfl⟩⟩)

/-! ## An inherited property -/

/-- The parameters of a URL with the entry `constructor:x`. -/
def constructorParams : SearchParams := [("meta", .one "constructor:x")]

/-- The query of that URL cannot be read. -/
theorem not_roundTrips_constructor :
    parseCatalogQuery constructorParams = .error ⟨"constructor"⟩ ∧
      ¬ RoundTrips constructorParams := by
  have hthrows : parseCatalogQuery constructorParams = .error ⟨"constructor"⟩ := by rfl
  refine ⟨hthrows, ?_⟩
  rintro ⟨query, h, -⟩
  rw [hthrows] at h
  cases h

end CatalogUrls

end Stylme
