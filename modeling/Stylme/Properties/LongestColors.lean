-- SUMMARY: When the colours that are read stand outside longer terms, and the failure of a term that is repeated.
import Stylme.Data.Colors

/-!
# Longest colours

Longer terms are read first, but a term occupies the span of one match only, and none where its
colour was found before. A shorter term is then found inside another match of a longer one. The
first occurrence of a longer term does cover the shorter ones in it, where nothing that is read
earlier overlaps it or is for its colour.
-/

namespace Stylme

open Conc

namespace Data

/-- The term occurs in the text, as whole words, between `start` and `after`. -/
def OccursBetween (term : String) (text start after : List Char) : Prop :=
  text = start ++ term.toList ++ after ∧ ¬ start.getLast?.any isSlugChar ∧ ¬ after.head?.any isSlugChar

namespace ColorCatalog

variable (catalog : ColorCatalog) (text : List Char)

/-- What is between `start` and `after` is strictly inside an occurrence of a longer term. -/
def Inside (term : String) (start after : List Char) : Prop :=
  ∃ longer ∈ catalog.searchTerms, term.length < longer.length ∧ ∃ start' after',
    OccursBetween longer text start' after' ∧ start' <+: start ∧ after' <:+ after

/-- A term for the colour has an occurrence that is inside no longer one. -/
def StandsAlone (key : String) : Prop :=
  ∃ term, catalog.aliasToKey.lookup term = some key ∧ ∃ start after,
    OccursBetween term text start after ∧ ¬ catalog.Inside text term start after

/-- The state of the loop after some terms. -/
def readAll (terms : List String) : Reading := terms.foldl (catalog.readTerm text) ⟨[], []⟩

/-- No term for a colour that does not stand alone has a match that overlaps no occupied span when its turn
comes. -/
structure Covers (limit : ℤ) : Prop where
  allowed : 0 < limit ∨ limit = 0 ∧ ∀ term ∈ catalog.searchTerms.head?, spansOf term text = []
  covered : ∀ before term after, catalog.searchTerms = before ++ term :: after →
    ((catalog.readAll text before).found.length : ℤ) < limit →
    ∀ key, catalog.aliasToKey.lookup term = some key → ¬ catalog.StandsAlone text key →
    ∀ span ∈ spansOf term text, (catalog.readAll text before).occupied.any span.overlaps

end ColorCatalog

/-- The colours that are returned stand alone, at most `limit` of them, and none twice. -/
def ReadsLongest (lib : Library) (colors : List ColorRecord) (values : List (Option String)) (limit : ℤ) :
    Prop :=
  ∃ found, (catalogOf lib colors).extractFromText lib values limit = some found ∧
    (∀ color ∈ found, (catalogOf lib colors).StandsAlone (ColorCatalog.searchText lib values) color.key) ∧
    (found.length : ℤ) ≤ limit ∧ (found.map (·.key)).Nodup

/-! ## The catalogue -/

section Catalogue

variable {lib : Library} {colors : List ColorRecord} {records : List (String × ColorRecord)}

theorem key_of_mem_recordsOf : ∀ x ∈ recordsOf colors, x.2.key = x.1 := by
  have hrun : ∀ records : List (String × ColorRecord), (∀ x ∈ records, x.2.key = x.1) →
      ∀ x ∈ colors.foldl (fun records item => setKey item.key item records) records, x.2.key = x.1 := by
    induction colors with
    | nil => exact fun records h => h
    | cons item colors ih =>
      intro records h
      refine ih _ fun x hx => ?_
      rcases mem_of_mem_setKey hx with rfl | hx
      · rfl
      · exact h x hx
  exact hrun [] nofun

theorem nodup_recordsOf : ((recordsOf colors).map (·.1)).Nodup := by
  have hrun : ∀ records : List (String × ColorRecord), (records.map (·.1)).Nodup →
      ((colors.foldl (fun records item => setKey item.key item records) records).map (·.1)).Nodup := by
    induction colors with
    | nil => exact fun records h => h
    | cons item colors ih => exact fun records h => ih _ (nodup_keys_setKey h)
  exact hrun [] List.nodup_nil

theorem nodup_aliasesOf : ((aliasesOf lib records).map (·.1)).Nodup := by
  have hterms : ∀ (terms : List String) (key : String) (aliases : List (String × String)),
      (aliases.map (·.1)).Nodup →
      ((terms.foldl (fun aliases term => setKey term key aliases) aliases).map (·.1)).Nodup := by
    intro terms key
    induction terms with
    | nil => exact fun aliases h => h
    | cons term terms ih => exact fun aliases h => ih _ (nodup_keys_setKey h)
  have hrun : ∀ aliases : List (String × String), (aliases.map (·.1)).Nodup →
      ((records.foldl (fun aliases x =>
        (x.2.terms lib).foldl (fun aliases term => setKey term x.2.key aliases) aliases)
          aliases).map (·.1)).Nodup := by
    induction records with
    | nil => exact fun aliases h => h
    | cons x records ih => exact fun aliases h => ih _ (hterms _ _ _ h)
  exact hrun [] List.nodup_nil

/-- The terms are those of records, with their keys. -/
theorem exists_of_mem_aliasesOf {x : String × String} (h : x ∈ aliasesOf lib records) :
    ∃ y ∈ records, x.1 ∈ y.2.terms lib ∧ y.2.key = x.2 := by
  have hterms : ∀ (terms : List String) (key : String) (aliases : List (String × String)) (x : String × String),
      x ∈ terms.foldl (fun aliases term => setKey term key aliases) aliases →
      (x.1 ∈ terms ∧ key = x.2) ∨ x ∈ aliases := by
    intro terms key
    induction terms with
    | nil => exact fun aliases x h => .inr h
    | cons term terms ih =>
      intro aliases x h
      rcases ih _ x h with ⟨h, hkey⟩ | h
      · exact .inl ⟨List.mem_cons_of_mem _ h, hkey⟩
      · rcases mem_of_mem_setKey h with rfl | h
        · exact .inl ⟨List.mem_cons_self, rfl⟩
        · exact .inr h
  have hrun : ∀ aliases : List (String × String), ∀ x ∈ records.foldl (fun aliases y =>
      (y.2.terms lib).foldl (fun aliases term => setKey term y.2.key aliases) aliases) aliases,
      x ∈ aliases ∨ ∃ y ∈ records, x.1 ∈ y.2.terms lib ∧ y.2.key = x.2 := by
    clear h
    induction records with
    | nil => exact fun aliases x h => .inl h
    | cons y records ih =>
      intro aliases x h
      rcases ih _ x h with h | ⟨z, hz, hkey⟩
      · exact (hterms _ _ _ x h).symm.imp_right fun h => ⟨y, List.mem_cons_self, h⟩
      · exact .inr ⟨z, List.mem_cons_of_mem _ hz, hkey⟩
  exact (hrun [] x h).resolve_left List.not_mem_nil

theorem ne_empty_of_lookup {term key : String} (h : (catalogOf lib colors).aliasToKey.lookup term = some key) :
    term.toList ≠ [] := by
  obtain ⟨y, -, hterm, -⟩ := exists_of_mem_aliasesOf (mem_of_lookup h)
  intro hnil
  exact of_decide_eq_true (List.mem_filter.1 hterm).2 (String.toList_eq_nil_iff.1 hnil)

/-- A key that a term has is that of a colour. -/
theorem exists_get {term key : String} (source : String) (confidence : ℚ)
    (h : (catalogOf lib colors).aliasToKey.lookup term = some key) :
    ∃ color, (catalogOf lib colors).get key source confidence = some color ∧ color.key = key := by
  obtain ⟨⟨key', record⟩, hmem, -, hkey⟩ := exists_of_mem_aliasesOf (mem_of_lookup h)
  have hrecord : record.key = key' := key_of_mem_recordsOf _ hmem
  have hkey : key' = key := hrecord.symm.trans hkey
  have hlookup : (recordsOf colors).lookup key = some record := hkey ▸ lookup_of_mem nodup_recordsOf hmem
  exact ⟨_, congrArg (Option.map _) hlookup, hrecord.trans hkey⟩

theorem mem_searchTerms {term : String} (h : term ∈ (catalogOf lib colors).searchTerms) :
    ∃ key, (catalogOf lib colors).aliasToKey.lookup term = some key := by
  obtain ⟨⟨term', key⟩, hmem, rfl⟩ := List.mem_map.1 ((List.mem_insertionSort _).1 h)
  exact ⟨key, lookup_of_mem nodup_aliasesOf hmem⟩

end Catalogue

/-! ## The loop -/

section Loop

namespace ColorCatalog

variable {catalog : ColorCatalog} {text : List Char} {s : Reading} {term key : String} {limit : ℤ}

/-- A colour is found where one of its matches overlaps no occupied span. -/
theorem mem_readTerm : key ∈ (catalog.readTerm text s term).found ↔ key ∈ s.found ∨
    catalog.aliasToKey.lookup term = some key ∧
      ∃ span ∈ spansOf term text, ¬ s.occupied.any span.overlaps := by
  unfold readTerm
  cases hfind : (spansOf term text).find? fun span => ¬ s.occupied.any span.overlaps with
  | none =>
    have hnone : ¬ ∃ span ∈ spansOf term text, ¬ s.occupied.any span.overlaps := fun ⟨span, hmem, hspan⟩ =>
      absurd (decide_eq_true hspan) (List.find?_eq_none.1 hfind span hmem)
    exact (or_iff_left fun h => hnone h.2).symm
  | some span =>
    have hspan : ∃ span ∈ spansOf term text, ¬ s.occupied.any span.overlaps :=
      by
        have hfree := List.find?_some hfind
        exact ⟨span, List.mem_of_find?_eq_some hfind, of_decide_eq_true hfree⟩
    rw [and_iff_left hspan]
    cases hlookup : catalog.aliasToKey.lookup term with
    | none => exact (or_iff_left nofun).symm
    | some key' =>
      rw [Option.some.injEq]
      dsimp only
      split
      · rename_i hseen
        exact (or_iff_left_of_imp fun heq => heq ▸ hseen).symm
      · rw [List.mem_append, List.mem_singleton, eq_comm (a := key)]

theorem found_readTerm : (catalog.readTerm text s term).found = s.found ∨
    ∃ key, key ∉ s.found ∧ (catalog.readTerm text s term).found = s.found ++ [key] := by
  unfold readTerm
  split
  · split
    · exact .inl rfl
    · rename_i hnew
      exact .inr ⟨_, hnew, rfl⟩
  · exact .inl rfl

theorem length_readTerm : s.found.length ≤ (catalog.readTerm text s term).found.length ∧
    (catalog.readTerm text s term).found.length ≤ s.found.length + 1 := by
  rcases @found_readTerm catalog text s term with h | ⟨key, -, h⟩
  · rw [h]
    omega
  · rw [h, List.length_append]
    exact ⟨Nat.le_add_right _ _, le_rfl⟩

theorem length_foldl (terms : List String) :
    s.found.length ≤ (terms.foldl (catalog.readTerm text) s).found.length := by
  induction terms generalizing s with
  | nil => exact le_rfl
  | cons term terms ih => exact length_readTerm.1.trans ih

theorem nodup_readTerms (terms : List String) (h : s.found.Nodup) :
    (catalog.readTerms text limit s terms).found.Nodup := by
  induction terms generalizing s with
  | nil => exact h
  | cons term terms ih =>
    have hnext : (catalog.readTerm text s term).found.Nodup := by
      rcases @found_readTerm catalog text s term with heq | ⟨key, hnew, heq⟩
      · exact heq ▸ h
      · exact heq ▸ h.append (List.nodup_singleton _) (List.disjoint_singleton.2 hnew)
    rw [readTerms]
    split
    · exact hnext
    · exact ih hnext

theorem length_readTerms (terms : List String) (h : (s.found.length : ℤ) < limit) :
    ((catalog.readTerms text limit s terms).found.length : ℤ) ≤ limit := by
  induction terms generalizing s with
  | nil => exact h.le
  | cons term terms ih =>
    have hnext := (@length_readTerm catalog text s term).2
    rw [readTerms]
    split
    · omega
    · rename_i hmore
      exact ih (not_le.1 hmore)

theorem mem_readTerms_of_mem (terms : List String) (h : key ∈ s.found) :
    key ∈ (catalog.readTerms text limit s terms).found := by
  induction terms generalizing s with
  | nil => exact h
  | cons term terms ih =>
    rw [readTerms]
    split
    · exact mem_readTerm.2 (.inl h)
    · exact ih (mem_readTerm.2 (.inl h))

/-- What a round finds is found by the loop, if the loop comes to that round. -/
theorem mem_readTerms {before after : List String}
    (hlimit : ((before.foldl (catalog.readTerm text) s).found.length : ℤ) < limit)
    (h : key ∈ (catalog.readTerm text (before.foldl (catalog.readTerm text) s) term).found) :
    key ∈ (catalog.readTerms text limit s (before ++ term :: after)).found := by
  induction before generalizing s with
  | nil =>
    rw [List.nil_append, readTerms]
    split
    · exact h
    · exact mem_readTerms_of_mem after h
  | cons term' before ih =>
    have hlength := @length_foldl catalog text (catalog.readTerm text s term') before
    rw [List.foldl_cons] at hlimit
    rw [List.cons_append, readTerms, if_neg (by omega)]
    exact ih hlimit h

/-- What the loop finds is found by a round that it comes to. -/
theorem exists_of_mem_readTerms {terms : List String}
    (h : key ∈ (catalog.readTerms text limit s terms).found) (hnew : key ∉ s.found) :
    ∃ before term after, terms = before ++ term :: after ∧
      (before = [] ∨ ((before.foldl (catalog.readTerm text) s).found.length : ℤ) < limit) ∧
      catalog.aliasToKey.lookup term = some key ∧
      ∃ span ∈ spansOf term text, ¬ (before.foldl (catalog.readTerm text) s).occupied.any span.overlaps := by
  induction terms generalizing s with
  | nil => exact absurd h hnew
  | cons term terms ih =>
    by_cases hfirst : key ∈ (catalog.readTerm text s term).found
    · exact ⟨[], term, terms, rfl, .inl rfl, (mem_readTerm.1 hfirst).resolve_left hnew⟩
    · rw [readTerms] at h
      split at h
      · exact absurd h hfirst
      · rename_i hmore
        obtain ⟨before, term', after, rfl, hlimit, hfound⟩ := ih h hfirst
        refine ⟨term :: before, term', after, rfl, .inr ?_, hfound⟩
        rcases hlimit with rfl | hlimit
        · exact not_le.1 hmore
        · exact hlimit

end ColorCatalog

end Loop

/-! ## The result -/

section Result

variable {lib : Library} {colors : List ColorRecord} {values : List (Option String)} {limit : ℤ}

theorem mapM_get (source : String) (confidence : ℚ) {found : List String}
    (h : ∀ key ∈ found, ∃ term, (catalogOf lib colors).aliasToKey.lookup term = some key) :
    ∃ matched, (found.mapM fun key => (catalogOf lib colors).get key source confidence) = some matched ∧
      matched.map (·.key) = found := by
  induction found with
  | nil => exact ⟨[], rfl, rfl⟩
  | cons key found ih =>
    obtain ⟨⟨term, hterm⟩, h⟩ := List.forall_mem_cons.1 h
    obtain ⟨color, hget, hkey⟩ := exists_get source confidence hterm
    obtain ⟨matched, hmatched, hkeys⟩ := ih h
    refine ⟨color :: matched, ?_, by rw [List.map_cons, hkey, hkeys]⟩
    rw [List.mapM_cons, hget, hmatched]
    rfl

variable (lib colors values limit) in
/-- The keys that are found. -/
def foundKeys : List String :=
  ((catalogOf lib colors).readTerms (ColorCatalog.searchText lib values) limit ⟨[], []⟩
    (catalogOf lib colors).searchTerms).found

/-- The property, of the keys that are found. -/
theorem readsLongest_iff_keys : ReadsLongest lib colors values limit ↔
    (∀ key ∈ foundKeys lib colors values limit,
      (catalogOf lib colors).StandsAlone (ColorCatalog.searchText lib values) key) ∧
    ((foundKeys lib colors values limit).length : ℤ) ≤ limit := by
  have hterms : ∀ key ∈ foundKeys lib colors values limit,
      ∃ term, (catalogOf lib colors).aliasToKey.lookup term = some key := fun key hkey => by
    obtain ⟨-, term, -, -, -, hterm, -⟩ := ColorCatalog.exists_of_mem_readTerms hkey List.not_mem_nil
    exact ⟨term, hterm⟩
  obtain ⟨matched, hmatched, hkeys⟩ := mapM_get "source_text" (88 / 100) hterms
  have hlength : matched.length = (foundKeys lib colors values limit).length := by
    rw [← hkeys, List.length_map]
  constructor
  · rintro ⟨found, hfound, hcolors, hfew, -⟩
    obtain rfl : matched = found := Option.some.inj (hmatched.symm.trans hfound)
    refine ⟨fun key hkey => ?_, hlength ▸ hfew⟩
    obtain ⟨color, hcolor, rfl⟩ := List.mem_map.1 (hkeys.symm ▸ hkey)
    exact hcolors color hcolor
  · rintro ⟨halone, hfew⟩
    refine ⟨matched, hmatched, fun color hcolor => halone _ (hkeys ▸ List.mem_map_of_mem hcolor),
      hlength ▸ hfew, hkeys ▸ ?_⟩
    exact ColorCatalog.nodup_readTerms _ List.nodup_nil

/-- With a limit of zero, the loop ends after its first round. -/
theorem foundKeys_zero : foundKeys lib colors values 0 = [] ↔
    ∀ term ∈ (catalogOf lib colors).searchTerms.head?,
      spansOf term (ColorCatalog.searchText lib values) = [] := by
  unfold foundKeys
  cases hterms : (catalogOf lib colors).searchTerms with
  | nil => exact iff_of_true rfl nofun
  | cons first terms =>
    obtain ⟨key, hkey⟩ := mem_searchTerms (hterms ▸ List.mem_cons_self : first ∈ (catalogOf lib colors).searchTerms)
    rw [ColorCatalog.readTerms, if_pos (Int.natCast_nonneg _), List.eq_nil_iff_forall_not_mem]
    constructor
    · rintro hnone term hterm
      obtain rfl := Option.some.inj hterm
      refine List.eq_nil_iff_forall_not_mem.2 fun span hspan => ?_
      exact hnone key (ColorCatalog.mem_readTerm.2 (.inr ⟨hkey, span, hspan, Bool.false_ne_true⟩))
    · rintro hnone key' hkey'
      obtain ⟨-, span, hspan, -⟩ := (ColorCatalog.mem_readTerm.1 hkey').resolve_left List.not_mem_nil
      exact List.not_mem_nil (hnone first rfl ▸ hspan)

end Result

/-! ## Terms that cover -/

section Matches

variable {term text : List Char} {skip position : ℕ} {before : Option Char} {span : Span}

theorem spansFrom_sound (h : span ∈ spansFrom term skip before position text) :
    ∃ start after, text = start ++ term ++ after ∧ ¬ (lastOr before start).any isSlugChar ∧
      ¬ after.head?.any isSlugChar ∧
      span = ⟨position + start.length, position + start.length + term.length⟩ := by
  induction text generalizing skip position before with
  | nil =>
    rw [spansFrom] at h
    exact absurd h List.not_mem_nil
  | cons c text ih =>
    have hlater : ∀ {skip}, span ∈ spansFrom term skip (some c) (position + 1) text →
        ∃ start after, c :: text = start ++ term ++ after ∧ ¬ (lastOr before start).any isSlugChar ∧
          ¬ after.head?.any isSlugChar ∧
          span = ⟨position + start.length, position + start.length + term.length⟩ := fun h => by
      obtain ⟨start, after, rfl, hbefore, hafter, rfl⟩ := ih h
      refine ⟨c :: start, after, rfl, hbefore, hafter, ?_⟩
      rw [List.length_cons, Nat.add_assoc position 1, Nat.add_comm 1]
    cases skip with
    | succ skip =>
      rw [spansFrom] at h
      exact hlater h
    | zero =>
      rw [spansFrom] at h
      split at h
      · rename_i hbegins
        rcases List.mem_cons.1 h with rfl | h
        · obtain ⟨after, htext, hbefore, hafter⟩ := beginsWord_iff.1 hbegins
          exact ⟨[], after, htext, hbefore, hafter, rfl⟩
        · exact hlater h
      · exact hlater h

/-- The first match is the leftmost occurrence. -/
theorem head?_spansFrom {start after : List Char} (hterm : term ≠ []) (htext : text = start ++ term ++ after)
    (hbefore : ¬ (lastOr before start).any isSlugChar) (hafter : ¬ after.head?.any isSlugChar)
    (hfirst : ∀ start' after', text = start' ++ term ++ after' → ¬ (lastOr before start').any isSlugChar →
      ¬ after'.head?.any isSlugChar → start.length ≤ start'.length) :
    (spansFrom term 0 before position text).head? =
      some ⟨position + start.length, position + start.length + term.length⟩ := by
  induction start generalizing text before position with
  | nil =>
    have hbegins : beginsWord isSlugChar term before text = true :=
      beginsWord_iff.2 ⟨after, htext, hbefore, hafter⟩
    cases text with
    | nil => exact absurd (List.append_eq_nil_iff.1 htext.symm).1 hterm
    | cons c text =>
      rw [spansFrom, if_pos hbegins]
      rfl
  | cons c start ih =>
    subst htext
    rw [List.cons_append, List.cons_append, spansFrom, if_neg]
    · rw [ih rfl hbefore fun start' after' htext hbefore' hafter' => ?_]
      · rw [List.length_cons, Nat.add_assoc position 1, Nat.add_comm 1]
      · exact Nat.le_of_succ_le_succ (hfirst (c :: start') after' (congrArg (c :: ·) htext) hbefore' hafter')
    · intro hbegins
      obtain ⟨after', htext, hbefore', hafter'⟩ := beginsWord_iff.1 hbegins
      exact absurd (hfirst [] after' htext hbefore' hafter') (Nat.not_succ_le_zero _)

end Matches

/-- The matches of a term are occurrences of it. -/
theorem occurs_of_mem_spansOf {term : String} {text : List Char} {span : Span} (h : span ∈ spansOf term text) :
    ∃ start after, OccursBetween term text start after ∧
      span = ⟨start.length, start.length + term.toList.length⟩ := by
  obtain ⟨start, after, htext, hbefore, hafter, hspan⟩ := spansFrom_sound h
  rw [lastOr_none] at hbefore
  exact ⟨start, after, ⟨htext, hbefore, hafter⟩, by rw [hspan, Nat.zero_add]⟩

namespace ColorCatalog

variable (catalog : ColorCatalog) (text : List Char) in
/-- The occurrence of the term after `start` is its first, and no term that is read earlier overlaps it or is
for the same colour. -/
def ReadFirst (term : String) (start : List Char) : Prop :=
  (∀ start' after', OccursBetween term text start' after' → start.length ≤ start'.length) ∧
  ∀ earlier ∈ catalog.searchTerms, searchRank earlier < searchRank term →
    ∀ start' after', OccursBetween earlier text start' after' →
      catalog.aliasToKey.lookup earlier ≠ catalog.aliasToKey.lookup term ∧
      (start'.length + earlier.length ≤ start.length ∨ start.length + term.length ≤ start'.length)

variable {catalog : ColorCatalog} {text : List Char} {s : Reading} {term key : String} {limit : ℤ}

theorem mem_occupied_readTerm {span : Span} (h : span ∈ s.occupied) :
    span ∈ (catalog.readTerm text s term).occupied := by
  unfold readTerm
  split
  · split
    · exact h
    · exact List.mem_append_left _ h
  · exact h

theorem mem_occupied_foldl {span : Span} (terms : List String) (h : span ∈ s.occupied) :
    span ∈ (terms.foldl (catalog.readTerm text) s).occupied := by
  induction terms generalizing s with
  | nil => exact h
  | cons term terms ih => exact ih (mem_occupied_readTerm h)

/-- What is found and occupied comes from matches of the terms. -/
theorem exists_of_mem_readAll (terms : List String) :
    (∀ key ∈ (catalog.readAll text terms).found, ∃ term ∈ terms,
      catalog.aliasToKey.lookup term = some key ∧ spansOf term text ≠ []) ∧
    ∀ span ∈ (catalog.readAll text terms).occupied, ∃ term ∈ terms, span ∈ spansOf term text := by
  induction terms using List.reverseRecOn with
  | nil => exact ⟨nofun, nofun⟩
  | append_singleton terms term ih =>
    have hmore : ∀ {p : String → Prop}, (∃ t ∈ terms, p t) → ∃ t ∈ terms ++ [term], p t :=
      fun ⟨t, ht, hp⟩ => ⟨t, List.mem_append_left _ ht, hp⟩
    have hlast : term ∈ terms ++ [term] := List.mem_append_right _ List.mem_cons_self
    rw [readAll, List.foldl_append]
    refine ⟨fun key hkey => ?_, fun span hspan => ?_⟩
    · rcases mem_readTerm.1 hkey with hkey | ⟨hterm, span, hspan, -⟩
      · exact hmore (ih.1 key hkey)
      · exact ⟨term, hlast, hterm, List.ne_nil_of_mem hspan⟩
    · rw [List.foldl_cons, List.foldl_nil, readTerm] at hspan
      split at hspan
      · rename_i hfind _
        split at hspan
        · exact hmore (ih.2 span hspan)
        · rcases List.mem_append.1 hspan with hspan | hspan
          · exact hmore (ih.2 span hspan)
          · exact ⟨term, hlast, List.mem_singleton.1 hspan ▸ List.mem_of_find?_eq_some hfind⟩
      · exact hmore (ih.2 span hspan)

/-- A term's first match is occupied after its turn, where it overlaps no span and its colour is new. -/
theorem mem_occupied_of_head? {span : Span} (hfirst : (spansOf term text).head? = some span)
    (hfree : ¬ s.occupied.any span.overlaps) (hkey : catalog.aliasToKey.lookup term = some key)
    (hnew : key ∉ s.found) : span ∈ (catalog.readTerm text s term).occupied := by
  obtain ⟨rest, hspans⟩ := List.head?_eq_some_iff.1 hfirst
  have hfind : (spansOf term text).find? (fun span => ¬ s.occupied.any span.overlaps) = some span := by
    rw [hspans]
    exact List.find?_cons_of_pos (decide_eq_true hfree)
  rw [readTerm, hfind, hkey]
  dsimp only
  rw [if_neg hnew]
  exact List.mem_append_right _ List.mem_cons_self

end ColorCatalog

section Covering

variable {lib : Library} {colors : List ColorRecord} {text start after : List Char} {term : String}
  {front back : List String}

theorem sorted_searchTerms :
    (catalogOf lib colors).searchTerms.Pairwise fun a b => searchRank a ≤ searchRank b :=
  List.pairwise_insertionSort _ _

/-- A term of a smaller rank has its turn earlier. -/
theorem mem_of_searchRank_lt {before : List String} {longer : String}
    (hsplit : (catalogOf lib colors).searchTerms = before ++ term :: back)
    (hlonger : longer ∈ (catalogOf lib colors).searchTerms) (hrank : searchRank longer < searchRank term) :
    longer ∈ before := by
  have hsorted := @sorted_searchTerms lib colors
  rw [hsplit] at hsorted hlonger
  refine (List.mem_append.1 hlonger).resolve_right fun hlater => ?_
  rcases List.mem_cons.1 hlater with rfl | hlater
  · exact lt_irrefl _ hrank
  · have hle := (List.pairwise_cons.1 (List.pairwise_append.1 hsorted).2.1).1 longer hlater
    exact absurd hle (not_le.2 hrank)

/-- The occurrence that is read first is occupied after its term's turn. -/
theorem occupied_of_readFirst
    (hsplit : (catalogOf lib colors).searchTerms = front ++ term :: back) (hnew : term ∉ front)
    (hoccurs : OccursBetween term text start after)
    (hread : (catalogOf lib colors).ReadFirst text term start) :
    ⟨start.length, start.length + term.toList.length⟩ ∈
      ((catalogOf lib colors).readTerm text ((catalogOf lib colors).readAll text front) term).occupied := by
  obtain ⟨hfirst, hearlier⟩ := hread
  have hsorted := @sorted_searchTerms lib colors
  rw [hsplit] at hsorted
  have hfront : ∀ earlier ∈ front, ∀ {left right}, OccursBetween earlier text left right →
      (catalogOf lib colors).aliasToKey.lookup earlier ≠ (catalogOf lib colors).aliasToKey.lookup term ∧
      (left.length + earlier.length ≤ start.length ∨ start.length + term.length ≤ left.length) := by
    intro earlier hmem left right hbetween
    refine hearlier earlier (hsplit ▸ List.mem_append_left _ hmem) ?_ left right hbetween
    refine lt_of_le_of_ne ((List.pairwise_append.1 hsorted).2.2 earlier hmem term List.mem_cons_self) ?_
    exact fun heq => hnew ((congrArg (fun rank => (ofLex rank).2) heq : earlier = term) ▸ hmem)
  obtain ⟨key, hkey⟩ := mem_searchTerms
    (hsplit ▸ List.mem_append_right _ List.mem_cons_self : term ∈ (catalogOf lib colors).searchTerms)
  obtain ⟨hfound, hoccupied⟩ := @ColorCatalog.exists_of_mem_readAll (catalogOf lib colors) text front
  have hhead : (spansOf term text).head? =
      some ⟨0 + start.length, 0 + start.length + term.toList.length⟩ :=
    head?_spansFrom (ne_empty_of_lookup hkey) hoccurs.1 (by rw [lastOr_none]; exact hoccurs.2.1)
      hoccurs.2.2 fun start' after' htext hleft hright =>
        hfirst start' after' ⟨htext, by rwa [lastOr_none] at hleft, hright⟩
  rw [Nat.zero_add] at hhead
  refine ColorCatalog.mem_occupied_of_head? hhead (fun hany => ?_) hkey fun hmem => ?_
  · obtain ⟨span, hspan, hoverlaps⟩ := List.any_eq_true.1 hany
    obtain ⟨earlier, hmem, hspan⟩ := hoccupied span hspan
    obtain ⟨left, right, hbetween, rfl⟩ := occurs_of_mem_spansOf hspan
    have hapart := (hfront earlier hmem hbetween).2
    rw [← String.length_toList, ← String.length_toList] at hapart
    exact of_decide_eq_true hoverlaps hapart.symm
  · obtain ⟨earlier, hmem, hlookup, hspans⟩ := hfound key hmem
    obtain ⟨span, hspan⟩ := List.exists_mem_of_ne_nil _ hspans
    obtain ⟨left, right, hbetween, -⟩ := occurs_of_mem_spansOf hspan
    exact (hfront earlier hmem hbetween).1 (hlookup.trans hkey.symm)

/-- Longer terms cover the others in time where an occurrence that is read first covers each of them. -/
theorem covers_of_readFirst (lib : Library) (colors : List ColorRecord) (text : List Char) {limit : ℤ}
    (hlimit : 0 < limit)
    (h : ∀ key term, (catalogOf lib colors).aliasToKey.lookup term = some key →
      ¬ (catalogOf lib colors).StandsAlone text key → ∀ start after, OccursBetween term text start after →
      ∃ longer ∈ (catalogOf lib colors).searchTerms, term.length < longer.length ∧ ∃ start' after',
        OccursBetween longer text start' after' ∧ start' <+: start ∧ after' <:+ after ∧
        (catalogOf lib colors).ReadFirst text longer start') :
    (catalogOf lib colors).Covers text limit := by
  refine ⟨.inl hlimit, fun before term after hsplit _ key hkey hcovered span hspan => ?_⟩
  obtain ⟨start, rest, hterm, rfl⟩ := occurs_of_mem_spansOf hspan
  obtain ⟨longer, hlonger, hlength, start', rest', hoccurs, hstart, hrest, hread⟩ :=
    h key term hkey hcovered start rest hterm
  have hrank : searchRank longer < searchRank term :=
    Prod.Lex.toLex_lt_toLex.2 (.inl (by dsimp only; omega))
  obtain ⟨front, back, rfl, hnew⟩ := List.eq_append_cons_of_mem (mem_of_searchRank_lt hsplit hlonger hrank)
  have hturn : (catalogOf lib colors).searchTerms = front ++ longer :: (back ++ term :: after) := by
    rw [hsplit, List.append_assoc, List.cons_append]
  have hcover := @ColorCatalog.mem_occupied_foldl (catalogOf lib colors) text _ _ back
    (occupied_of_readFirst hturn hnew hoccurs hread)
  refine List.any_eq_true.2 ⟨⟨start'.length, start'.length + longer.toList.length⟩, ?_, ?_⟩
  · rw [ColorCatalog.readAll, List.foldl_append]
    exact hcover
  · -- the match of the term lies inside it
    have hleft := hstart.length_le
    have hright := hrest.length_le
    have htext : start.length + term.toList.length + rest.length =
        start'.length + longer.toList.length + rest'.length := by
      rw [← List.length_append, ← List.length_append, ← List.length_append, ← List.length_append,
        ← hterm.1, ← hoccurs.1]
    have hpos := List.length_pos_iff.2 (ne_empty_of_lookup hkey)
    exact decide_eq_true (by dsimp only; omega)

end Covering

/-! ## A term that is repeated -/

instance {term : String} {text start after : List Char} : Decidable (OccursBetween term text start after) :=
  inferInstanceAs (Decidable (_ ∧ _))

/-- An occurrence is determined by its start. -/
theorem OccursBetween.eq_take {term : String} {text start after : List Char}
    (h : OccursBetween term text start after) :
    start = text.take start.length ∧ after = text.drop (start.length + term.toList.length) := by
  rw [h.1]
  refine ⟨by rw [List.append_assoc, List.take_left], ?_⟩
  rw [← List.length_append, List.drop_left]

def seedColors : List ColorRecord :=
  [⟨"blue", "Blue", some "#1E88E5", "blue", ["blue"], []⟩,
    ⟨"navy-blue", "Navy Blue", some "#000080", "blue", ["blue", "indigo"], ["navy"]⟩]

def trimmedShirt : List (Option String) := [some "Navy blue shirt with navy blue trim"]

/-- What the loop finds in the text. -/
def trimmedKeys : {keys : List String // foundKeys plainLibrary seedColors trimmedShirt 4 = keys} :=
  ⟨["navy-blue", "blue"], by decide +kernel⟩

/-- In the text, `blue` occurs in `navy blue` only. -/
theorem blue_trimmedShirt :
    (∀ x ∈ (catalogOf plainLibrary seedColors).aliasToKey, x.2 = "blue" → x.1 = "blue") ∧
    "navy blue" ∈ (catalogOf plainLibrary seedColors).searchTerms ∧
    ∀ n ≤ (ColorCatalog.searchText plainLibrary trimmedShirt).length,
      OccursBetween "blue" (ColorCatalog.searchText plainLibrary trimmedShirt)
        ((ColorCatalog.searchText plainLibrary trimmedShirt).take n)
        ((ColorCatalog.searchText plainLibrary trimmedShirt).drop (n + 4)) →
      OccursBetween "navy blue" (ColorCatalog.searchText plainLibrary trimmedShirt)
        ((ColorCatalog.searchText plainLibrary trimmedShirt).take (n - 5))
        ((ColorCatalog.searchText plainLibrary trimmedShirt).drop (n + 4)) := by
  decide +kernel

end Data

end Stylme
