-- SUMMARY: The traversal of the search graph gives every taxonomy node the score of the best admissible walk to it.
import Stylme.Reconciler.Traversal

/-!
# Best walks

The search prunes a walk when one with a better score was queued for the same node. That walk is
not longer, so nothing is lost.
-/

namespace Stylme

open Conc Backend

namespace Reconciler

/-- An edge and the node it leads to. -/
abbrev Hop := GraphEdge × String

/-- The hops lead along edges of the graph, each from where the one before ends. -/
def SearchGraph.Follows (g : SearchGraph) : String → List Hop → Prop
  | _, [] => True
  | key, (e, next) :: hops => e ∈ g.edges ∧ e.Joins key next ∧ g.Follows next hops

def walkEnd (start : String) (hops : List Hop) : String := ((hops.map (·.2)).getLast?).getD start

/-- The product of the weights, damped for every hop after the first. -/
def walkScore (hops : List Hop) : ℚ :=
  (hops.map (·.1.weight)).prod * (94 / 100) ^ (hops.length - 1)

/-- A term or concept whose label is a part of the query, as words. -/
def SearchGraph.Mentioned (g : SearchGraph) (texts : Texts) (normalized key : String) : Prop :=
  ∃ n label words, g.node key = some n ∧ (n.kind = some .term ∨ n.kind = some .concept) ∧
    n.label = some label ∧ label ≠ "" ∧ texts.normalizeQuery label ≠ "" ∧
    words ≠ [] ∧ words <:+: texts.split normalized ∧
    texts.normalizeQuery label = " ".intercalate words

/-- A taxonomy node of a field that only counts when named, which the query does not name. -/
def SearchGraph.Barred (g : SearchGraph) (texts : Texts) (normalized key : String) : Prop :=
  ∃ n field, g.node key = some n ∧ n.kind = some .taxonomy ∧ n.field = some field ∧
    field ∈ explicitOnlyFields ∧ ¬ n.namedBy texts normalized

structure SearchGraph.Admissible (g : SearchGraph) (texts : Texts) (normalized : String) (maximum : ℕ)
    (start : String) (hops : List Hop) : Prop where
  mentioned : g.Mentioned texts normalized start
  follows : g.Follows start hops
  length_le : hops.length ≤ maximum
  score : ∀ k ≤ hops.length, minSignal ≤ walkScore (hops.take k)
  allowed : ∀ key ∈ start :: hops.map (·.2), ¬ g.Barred texts normalized key

/-- The scores of the admissible walks to a node that have a hop. -/
def SearchGraph.scores (g : SearchGraph) (texts : Texts) (normalized : String) (maximum : ℕ)
    (key : String) : Set ℚ :=
  {s | ∃ start hops, hops ≠ [] ∧ g.Admissible texts normalized maximum start hops ∧
    walkEnd start hops = key ∧ walkScore hops = s}

def SearchGraph.IsTaxonomy (g : SearchGraph) (key : String) : Prop :=
  ∃ n, g.node key = some n ∧ n.kind = some .taxonomy

section Walks

variable {texts : Texts} {g : SearchGraph} {normalized start key : String} {maximum : ℕ}
variable {hops : List Hop} {hop : Hop}

/-! ## Walks, hop by hop -/

theorem walkEnd_concat : walkEnd start (hops ++ [hop]) = hop.2 := by
  simp [walkEnd]

theorem walkScore_concat :
    walkScore (hops ++ [hop]) = walkScore hops * hop.1.weight * SearchGraph.damping hops.length := by
  unfold walkScore SearchGraph.damping hopDamping
  cases hops with
  | nil => simp
  | cons h hops =>
    have hne : (h :: hops).length ≠ 0 := Nat.succ_ne_zero _
    have hlength : (h :: hops ++ [hop]).length - 1 = (h :: hops).length - 1 + 1 := by simp
    rw [if_neg hne, hlength, pow_succ, List.map_append, List.prod_append, List.map_singleton,
      List.prod_singleton]
    ring

theorem follows_concat : g.Follows start (hops ++ [hop]) ↔
    g.Follows start hops ∧ hop.1 ∈ g.edges ∧ hop.1.Joins (walkEnd start hops) hop.2 := by
  induction hops generalizing start with
  | nil =>
    obtain ⟨e, next⟩ := hop
    simp [SearchGraph.Follows, walkEnd]
  | cons h hops ih =>
    obtain ⟨e, next⟩ := h
    have hend : walkEnd start ((e, next) :: hops) = walkEnd next hops := by
      simp [walkEnd, List.getLast?_cons]
    rw [List.cons_append, SearchGraph.Follows, SearchGraph.Follows, ih, hend, and_assoc, and_assoc]

/-! ## The starts -/

theorem mem_phrases {terms : List String} {phrase : String} : phrase ∈ phrases terms ↔
    ∃ words, words ≠ [] ∧ words <:+: terms ∧ phrase = " ".intercalate words := by
  unfold phrases
  simp only [List.mem_flatMap, List.mem_range, List.mem_map, List.mem_range'_1]
  constructor
  · rintro ⟨i, hi, j, ⟨hij, hj⟩, rfl⟩
    refine ⟨_, ?_, (List.drop_suffix i _).isInfix.trans (List.take_prefix j terms).isInfix, rfl⟩
    intro hnil
    have hlength := congrArg List.length hnil
    rw [List.length_drop, List.length_take, List.length_nil] at hlength
    omega
  · rintro ⟨words, hne, ⟨before, after, rfl⟩, rfl⟩
    have hpos : 0 < words.length := List.length_pos_iff.2 hne
    refine ⟨before.length, ?_, before.length + words.length, ⟨by omega, ?_⟩, ?_⟩
    · simp only [List.length_append]
      omega
    · simp only [List.length_append]
      omega
    · rw [← List.length_append, List.take_left, List.drop_left]

theorem nodeOf_of_node {n : GraphNode} (h : g.node key = some n) : g.nodeOf key = n := by
  rw [SearchGraph.nodeOf, h, Option.getD_some]

/-- A node with a kind is one of the graph's. -/
theorem node_of_kind {kind : NodeKind} (h : (g.nodeOf key).kind = some kind) :
    g.node key = some (g.nodeOf key) := by
  unfold SearchGraph.nodeOf at h ⊢
  cases hnode : g.node key with
  | none => rw [hnode] at h; cases h
  | some n => rfl

theorem mem_starts : key ∈ g.starts texts normalized ↔ g.Mentioned texts normalized key := by
  unfold SearchGraph.starts SearchGraph.labelled SearchGraph.Mentioned
  simp only [List.mem_eraseDups, List.mem_flatMap, List.mem_filter, decide_eq_true_eq, mem_phrases,
    Option.any_eq_true]
  constructor
  · rintro ⟨phrase, ⟨words, hne, hinfix, rfl⟩, -, hkind, label, hlabel, hset, hnorm, heq⟩
    have hnode : g.node key = some (g.nodeOf key) :=
      hkind.elim node_of_kind node_of_kind
    exact ⟨_, label, words, hnode, hkind, hlabel, hset, hnorm, hne, hinfix, heq⟩
  · rintro ⟨n, label, words, hnode, hkind, hlabel, hset, hnorm, hne, hinfix, heq⟩
    obtain ⟨hmem, hkey⟩ := SearchGraph.node_mem hnode
    rw [nodeOf_of_node hnode]
    refine ⟨_, ⟨words, hne, hinfix, rfl⟩, ?_, hkind, label, hlabel, hset, hnorm, heq⟩
    exact List.mem_eraseDups.2 (hkey ▸ List.mem_map_of_mem hmem)

theorem barred_iff : g.barred texts normalized key = true ↔ g.Barred texts normalized key := by
  unfold SearchGraph.barred SearchGraph.Barred
  simp only [decide_eq_true_eq, Option.any_eq_true]
  constructor
  · rintro ⟨hkind, ⟨field, hfield, hmem⟩, hnamed⟩
    exact ⟨_, field, node_of_kind hkind, hkind, hfield, hmem, hnamed⟩
  · rintro ⟨n, field, hnode, hkind, hfield, hmem, hnamed⟩
    rw [nodeOf_of_node hnode]
    exact ⟨hkind, ⟨field, hfield, hmem⟩, hnamed⟩

/-! ## Admissible walks and the walks of the search -/

theorem extend_of_open (hopen : ¬ g.Barred texts normalized key) {d : ℕ} (hd : d < maximum) {s : ℚ} :
    (g.growth texts normalized maximum).extend key d s = g.hopsFrom key d s := by
  have hopen' : g.barred texts normalized key ≠ true := fun h => hopen (barred_iff.1 h)
  change (if _ then _ else _) = _
  rw [if_neg (not_or.2 ⟨hopen', not_le.2 hd⟩)]

theorem mem_extend {d : ℕ} {s t : ℚ} {b : String} :
    (b, t) ∈ (g.growth texts normalized maximum).extend key d s ↔
      ¬ g.Barred texts normalized key ∧ d < maximum ∧ ∃ e ∈ g.edges, e.Joins key b ∧
        t = s * e.weight * SearchGraph.damping d ∧ minSignal ≤ t := by
  by_cases hopen : g.Barred texts normalized key
  · change (b, t) ∈ (if _ then _ else _) ↔ _
    rw [if_pos (.inl (barred_iff.2 hopen))]
    exact ⟨fun h => absurd h List.not_mem_nil, fun h => absurd hopen h.1⟩
  by_cases hd : d < maximum
  · rw [extend_of_open hopen hd, SearchGraph.hopsFrom, List.mem_filter, decide_eq_true_eq, List.mem_map]
    constructor
    · rintro ⟨⟨⟨b', e⟩, hmem, heq⟩, ht⟩
      obtain ⟨rfl, rfl⟩ := Prod.mk.inj heq
      obtain ⟨he, hjoins⟩ := SearchGraph.mem_adjacent.1 hmem
      exact ⟨hopen, hd, e, he, hjoins, rfl, ht⟩
    · rintro ⟨-, -, e, he, hjoins, rfl, ht⟩
      exact ⟨⟨(b, e), SearchGraph.mem_adjacent.2 ⟨he, hjoins⟩, rfl⟩, ht⟩
  · change (b, t) ∈ (if _ then _ else _) ↔ _
    rw [if_pos (.inr (not_lt.1 hd))]
    exact ⟨fun h => absurd h List.not_mem_nil, fun h => absurd h.2.1 hd⟩

theorem walkScore_nil : walkScore [] = 1 := by
  simp [walkScore]

theorem exists_admissible {d : ℕ} {s : ℚ}
    (h : (g.growth texts normalized maximum).Walk (g.starts texts normalized) 1 key d s)
    (hopen : ¬ g.Barred texts normalized key) :
    ∃ start hops, g.Admissible texts normalized maximum start hops ∧ hops.length = d ∧
      walkEnd start hops = key ∧ walkScore hops = s := by
  induction h with
  | @start key hstart =>
    refine ⟨key, [], ⟨mem_starts.1 hstart, trivial, Nat.zero_le _, fun k _ => ?_, ?_⟩, rfl, rfl,
      walkScore_nil⟩
    · rw [List.take_nil, walkScore_nil]
      norm_num [minSignal]
    · intro key' hkey'
      obtain rfl := List.mem_singleton.1 hkey'
      exact hopen
  | @hop key d s x _ hx ih =>
    obtain ⟨b, t⟩ := x
    obtain ⟨hkey, hd, e, he, hjoins, rfl, ht⟩ := mem_extend.1 hx
    obtain ⟨start, hops, hadm, rfl, rfl, rfl⟩ := ih hkey
    have hscore : walkScore (hops ++ [(e, b)]) =
        walkScore hops * e.weight * SearchGraph.damping hops.length := walkScore_concat
    refine ⟨start, hops ++ [(e, b)], ⟨hadm.mentioned, follows_concat.2 ⟨hadm.follows, he, hjoins⟩, ?_,
      fun k hk => ?_, ?_⟩, ?_, walkEnd_concat, hscore⟩
    · rw [List.length_append]
      exact hd
    · rcases Nat.lt_or_ge hops.length k with hlt | hle
      · rw [List.take_of_length_le (by rw [List.length_append]; exact hlt), hscore]
        exact ht
      · rw [List.take_append_of_le_length hle]
        exact hadm.score k hle
    · intro key' hkey'
      rw [List.map_append, ← List.cons_append, List.mem_append] at hkey'
      rcases hkey' with hkey' | hkey'
      · exact hadm.allowed key' hkey'
      · exact List.mem_singleton.1 hkey' ▸ hopen
    · rw [List.length_append, List.length_singleton]

/-- Leaving out the last hop leaves an admissible walk. -/
theorem SearchGraph.Admissible.of_concat
    (h : g.Admissible texts normalized maximum start (hops ++ [hop])) :
    g.Admissible texts normalized maximum start hops where
  mentioned := h.mentioned
  follows := (follows_concat.1 h.follows).1
  length_le := by
    have hlength := h.length_le
    rw [List.length_append] at hlength
    exact Nat.le_of_add_right_le hlength
  score k hk := by
    have hscore := h.score k (by rw [List.length_append]; exact Nat.le_add_right_of_le hk)
    rwa [List.take_append_of_le_length hk] at hscore
  allowed key hkey := h.allowed key (by
    rw [List.map_append, ← List.cons_append]
    exact List.mem_append_left _ hkey)

theorem walkEnd_mem : walkEnd start hops ∈ start :: hops.map (·.2) := by
  unfold walkEnd
  cases hlast : (hops.map (·.2)).getLast? with
  | none => exact List.mem_cons_self
  | some key => exact List.mem_cons_of_mem _ (List.mem_of_getLast? hlast)

theorem walk_of_admissible (h : g.Admissible texts normalized maximum start hops) :
    (g.growth texts normalized maximum).Walk (g.starts texts normalized) 1 (walkEnd start hops)
      hops.length (walkScore hops) := by
  induction hops using List.reverseRecOn with
  | nil =>
    rw [walkScore_nil]
    exact .start (mem_starts.2 h.mentioned)
  | append_singleton hops hop ih =>
    obtain ⟨e, b⟩ := hop
    obtain ⟨-, he, hjoins⟩ := follows_concat.1 h.follows
    have hlength := h.length_le
    have hscore := h.score (hops ++ [(e, b)]).length le_rfl
    rw [List.take_length] at hscore
    have hwalk := ih h.of_concat
    rw [walkEnd_concat]
    rw [walkScore_concat] at hscore ⊢
    rw [List.length_append] at hlength ⊢
    exact hwalk.hop (x := (b, _)) (mem_extend.2 ⟨h.of_concat.allowed _ walkEnd_mem, hlength, e, he,
      hjoins, rfl, hscore⟩)

/-! ## The law of the search -/

theorem damping_pos (d : ℕ) : 0 < SearchGraph.damping d := by
  unfold SearchGraph.damping hopDamping
  split <;> norm_num

theorem damping_anti {d d' : ℕ} (h : d' ≤ d) : SearchGraph.damping d ≤ SearchGraph.damping d' := by
  unfold SearchGraph.damping hopDamping
  split
  · rename_i hzero
    rw [if_pos (Nat.eq_zero_of_le_zero (hzero ▸ h))]
  · split <;> norm_num

theorem growth_monotone (hweights : ∀ e ∈ g.edges, 0 ≤ e.weight) : (g.growth texts normalized maximum).Monotone := by
  intro key d d' s s' b t hd hs ht
  obtain ⟨hopen, hlt, e, he, hjoins, rfl, hmin⟩ := mem_extend.1 ht
  have hdamping := damping_pos d
  have hweight := hweights e he
  have hpos : 0 < s * e.weight := by
    by_contra hneg
    have hle : s * e.weight * SearchGraph.damping d ≤ 0 :=
      mul_nonpos_of_nonpos_of_nonneg (not_lt.1 hneg) hdamping.le
    have hsignal : (0 : ℚ) < minSignal := by norm_num [minSignal]
    exact absurd (hmin.trans hle) (not_le.2 hsignal)
  have hgrow : s * e.weight * SearchGraph.damping d ≤ s' * e.weight * SearchGraph.damping d' :=
    mul_le_mul (mul_le_mul_of_nonneg_right hs hweight) (damping_anti hd) hdamping.le
      (hpos.le.trans (mul_le_mul_of_nonneg_right hs hweight))
  exact ⟨_, mem_extend.2 ⟨hopen, hd.trans_lt hlt, e, he, hjoins, rfl, hmin.trans hgrow⟩, hgrow⟩

theorem extend_pos {d : ℕ} {s : ℚ} :
    ∀ x ∈ (g.growth texts normalized maximum).extend key d s, 0 < x.2 := by
  rintro ⟨b, t⟩ hx
  obtain ⟨-, -, e, -, -, -, hmin⟩ := mem_extend.1 hx
  exact lt_of_lt_of_le (by norm_num [minSignal]) hmin

/-! ## What the loop records -/

theorem roundFour_roundFour (x : ℚ) : roundFour (roundFour x) = roundFour x := by
  unfold roundFour
  rw [div_mul_cancel₀ _ (by norm_num), Binary64.roundEven_intCast]

/-- Comparing with a rounded score keeps the rounded maximum. -/
theorem roundFour_max {m s : ℚ} :
    roundFour (max m s) = if roundFour m < s then roundFour s else roundFour m := by
  rcases le_total m s with hms | hsm
  · rw [max_eq_right hms]
    split_ifs with hlt
    · rfl
    · refine le_antisymm ?_ (roundFour_mono hms)
      rw [← roundFour_roundFour m]
      exact roundFour_mono (not_lt.1 hlt)
  · rw [max_eq_left hsm]
    split_ifs with hlt
    · refine le_antisymm ?_ (roundFour_mono hsm)
      rw [← roundFour_roundFour m]
      exact roundFour_mono hlt.le
    · rfl

/-- The loop takes the walk as a way to the taxonomy node. -/
structure SearchGraph.Hits (g : SearchGraph) (texts : Texts) (normalized : String)
    (i : Growth.Item String ℚ) (key : String) : Prop where
  node : i.node = key
  taxonomy : g.IsTaxonomy key
  allowed : ¬ g.Barred texts normalized key
  depth : 0 < i.depth

/-- The signals of the nodes that were hit, each with the best score so far. -/
structure SearchGraph.Recorded (g : SearchGraph) (texts : Texts) (normalized : String)
    (visited : List (Growth.Item String ℚ)) (results : List (String × Signal)) : Prop where
  nodup : (results.map (·.1)).Nodup
  absent : ∀ key, results.lookup key = none → ∀ i ∈ visited, ¬ g.Hits texts normalized i key
  present : ∀ key signal, results.lookup key = some signal → signal.node = key ∧
    ∃ best, IsGreatest {s | ∃ i ∈ visited, g.Hits texts normalized i key ∧ i.score = s} best ∧
      signal.score = roundFour best

section Record

variable {visited : List (Growth.Item String ℚ)} {results : List (String × Signal)}
variable {i : Growth.Item String ℚ}

/-- A walk that is no hit for a node changes nothing there. -/
theorem scores_concat_of_not_hits (h : ¬ g.Hits texts normalized i key) :
    {s | ∃ j ∈ visited ++ [i], g.Hits texts normalized j key ∧ j.score = s} =
      {s | ∃ j ∈ visited, g.Hits texts normalized j key ∧ j.score = s} := by
  ext s
  constructor
  · rintro ⟨j, hj, hhits, hs⟩
    rcases List.mem_append.1 hj with hj | hj
    · exact ⟨j, hj, hhits, hs⟩
    · exact absurd (List.mem_singleton.1 hj ▸ hhits) h
  · rintro ⟨j, hj, h⟩
    exact ⟨j, List.mem_append_left _ hj, h⟩

theorem SearchGraph.Recorded.skip (h : g.Recorded texts normalized visited results)
    (hmiss : ∀ key, ¬ g.Hits texts normalized i key) :
    g.Recorded texts normalized (visited ++ [i]) results where
  nodup := h.nodup
  absent key hkey j hj := by
    rcases List.mem_append.1 hj with hj | hj
    · exact h.absent key hkey j hj
    · exact List.mem_singleton.1 hj ▸ hmiss key
  present key signal hkey := by
    rw [scores_concat_of_not_hits (hmiss key)]
    exact h.present key signal hkey

theorem SearchGraph.Recorded.record (h : g.Recorded texts normalized visited results)
    (hscore : 0 < i.depth → 0 < i.score) :
    g.Recorded texts normalized (visited ++ [i]) (g.record texts normalized results i) := by
  unfold SearchGraph.record
  split
  · rename_i hbarred
    exact h.skip fun key hhits => hhits.allowed (hhits.node ▸ barred_iff.1 hbarred)
  rename_i hopen
  split
  · rename_i htaxonomy
    have hhits : g.Hits texts normalized i i.node := ⟨rfl, ⟨_, node_of_kind htaxonomy.1, htaxonomy.1⟩,
      fun hbarred => hopen (barred_iff.2 hbarred), htaxonomy.2⟩
    have hother : ∀ {key}, key ≠ i.node → ¬ g.Hits texts normalized i key := fun hne hhits =>
      hne hhits.node.symm
    have hnode := h.absent i.node
    have hstored := h.present i.node
    cases hlookup : results.lookup i.node with
    | none =>
      rw [Option.elim_none, if_pos (hscore htaxonomy.2)]
      refine ⟨nodup_keys_setKey h.nodup, fun key hkey j hj => ?_, fun key signal hkey => ?_⟩
      · rw [lookup_setKey] at hkey
        split at hkey
        · cases hkey
        · rename_i hne
          rcases List.mem_append.1 hj with hj | hj
          · exact h.absent key hkey j hj
          · exact List.mem_singleton.1 hj ▸ hother hne
      · rw [lookup_setKey] at hkey
        split at hkey
        · rename_i heq
          subst heq
          obtain rfl := Option.some.inj hkey
          refine ⟨rfl, i.score, ⟨⟨i, List.mem_append_right _ List.mem_cons_self, hhits, rfl⟩, ?_⟩, rfl⟩
          rintro s ⟨j, hj, hj', rfl⟩
          rcases List.mem_append.1 hj with hj | hj
          · exact absurd hj' (hnode hlookup j hj)
          · rw [List.mem_singleton.1 hj]
        · rename_i hne
          rw [scores_concat_of_not_hits (hother hne)]
          exact h.present key signal hkey
    | some stored =>
      obtain ⟨hstoredNode, best, hbest, hrounded⟩ := hstored stored hlookup
      have hgreatest : IsGreatest {s | ∃ j ∈ visited ++ [i], g.Hits texts normalized j i.node ∧
          j.score = s} (max best i.score) := by
        constructor
        · rcases max_choice best i.score with hmax | hmax
          · obtain ⟨j, hj, hj'⟩ := hbest.1
            exact ⟨j, List.mem_append_left _ hj, hj'.1, hj'.2.trans hmax.symm⟩
          · exact ⟨i, List.mem_append_right _ List.mem_cons_self, hhits, hmax.symm⟩
        · rintro s ⟨j, hj, hj', rfl⟩
          rcases List.mem_append.1 hj with hj | hj
          · exact (hbest.2 ⟨j, hj, hj', rfl⟩).trans (le_max_left ..)
          · rw [List.mem_singleton.1 hj]
            exact le_max_right ..
      rw [Option.elim_some, hrounded]
      have hmax := @roundFour_max best i.score
      split
      · rename_i hlt
        rw [if_pos hlt] at hmax
        refine ⟨nodup_keys_setKey h.nodup, fun key hkey j hj => ?_, fun key signal hkey => ?_⟩
        · rw [lookup_setKey] at hkey
          split at hkey
          · cases hkey
          · rename_i hne
            rcases List.mem_append.1 hj with hj | hj
            · exact h.absent key hkey j hj
            · exact List.mem_singleton.1 hj ▸ hother hne
        · rw [lookup_setKey] at hkey
          split at hkey
          · rename_i heq
            subst heq
            obtain rfl := Option.some.inj hkey
            exact ⟨rfl, _, hgreatest, hmax.symm⟩
          · rename_i hne
            rw [scores_concat_of_not_hits (hother hne)]
            exact h.present key signal hkey
      · rename_i hle
        rw [if_neg hle] at hmax
        refine ⟨h.nodup, fun key hkey j hj => ?_, fun key signal hkey => ?_⟩
        · rcases List.mem_append.1 hj with hj | hj
          · exact h.absent key hkey j hj
          · refine List.mem_singleton.1 hj ▸ hother ?_
            rintro rfl
            rw [hlookup] at hkey
            cases hkey
        · by_cases hne : key = i.node
          · subst hne
            rw [hlookup] at hkey
            obtain rfl := Option.some.inj hkey
            exact ⟨hstoredNode, _, hgreatest, hrounded.trans hmax.symm⟩
          · rw [scores_concat_of_not_hits (hother hne)]
            exact h.present key signal hkey
  · rename_i hother
    refine h.skip fun key hhits => hother ⟨?_, hhits.depth⟩
    obtain ⟨n, hn, hkind⟩ := hhits.taxonomy
    rw [hhits.node, nodeOf_of_node hn, hkind]

theorem recorded_foldl (hscore : ∀ i ∈ visited, 0 < i.depth → 0 < i.score) :
    g.Recorded texts normalized visited (visited.foldl (g.record texts normalized) []) := by
  induction visited using List.reverseRecOn with
  | nil => exact ⟨.nil, nofun, nofun⟩
  | append_singleton visited i ih =>
    rw [List.foldl_append, List.foldl_cons, List.foldl_nil]
    exact (ih fun j hj => hscore j (List.mem_append_left _ hj)).record
      (hscore i (List.mem_append_right _ List.mem_cons_self))

end Record

/-! ## The traversal -/

/-- A taxonomy node is not a start. -/
theorem not_mentioned_of_taxonomy (h : g.IsTaxonomy key) : ¬ g.Mentioned texts normalized key := by
  rintro ⟨n, -, -, hn, hkind, -⟩
  obtain ⟨n', hn', hkind'⟩ := h
  rw [hn] at hn'
  obtain rfl := Option.some.inj hn'
  rw [hkind'] at hkind
  rcases hkind with h | h <;> cases h

theorem depth_pos_of_taxonomy {d : ℕ} {s : ℚ} (h : g.IsTaxonomy key)
    (hwalk : (g.growth texts normalized maximum).Walk (g.starts texts normalized) 1 key d s) :
    0 < d := by
  cases hwalk with
  | start hstart => exact absurd (mem_starts.1 hstart) (not_mentioned_of_taxonomy h)
  | hop => exact Nat.succ_pos _

theorem score_pos_of_walk {d : ℕ} {s : ℚ}
    (h : (g.growth texts normalized maximum).Walk (g.starts texts normalized) 1 key d s) : 0 < s := by
  cases h with
  | start => exact one_pos
  | hop _ hx => exact extend_pos _ hx

theorem results_recorded : g.Recorded texts normalized
    ((g.growth texts normalized maximum).visited (Growth.startQueue (g.starts texts normalized) 1)
      (Growth.startBest (g.starts texts normalized) 1 0)) (g.results texts normalized maximum) := by
  unfold SearchGraph.results
  rw [Growth.search_eq]
  refine recorded_foldl fun i hi _ => ?_
  exact score_pos_of_walk (Growth.walk_of_visited hi)

/-- The best score of the walks taken is the best score of the admissible ones. -/
theorem isGreatest_scores (hweights : ∀ e ∈ g.edges, 0 ≤ e.weight) (htaxonomy : g.IsTaxonomy key)
    (hopen : ¬ g.Barred texts normalized key) {best : ℚ}
    (h : IsGreatest {s | ∃ i ∈ (g.growth texts normalized maximum).visited
        (Growth.startQueue (g.starts texts normalized) 1)
        (Growth.startBest (g.starts texts normalized) 1 0),
      g.Hits texts normalized i key ∧ i.score = s} best) :
    IsGreatest (g.scores texts normalized maximum key) best := by
  constructor
  · obtain ⟨i, hi, hhits, rfl⟩ := h.1
    have hwalk := Growth.walk_of_visited hi
    rw [hhits.node] at hwalk
    obtain ⟨start, hops, hadm, hlength, hend, hscore⟩ := exists_admissible hwalk hopen
    exact ⟨start, hops, List.ne_nil_of_length_pos (hlength ▸ hhits.depth), hadm, hend, hscore⟩
  · rintro s ⟨start, hops, -, hadm, rfl, rfl⟩
    obtain ⟨j, hj, hnode, -, hle⟩ := Growth.exists_visited (growth_monotone hweights)
      extend_pos (walk_of_admissible hadm)
    have hwalk := Growth.walk_of_visited hj
    rw [hnode] at hwalk
    exact hle.trans (h.2 ⟨j, hj, ⟨hnode, htaxonomy, hopen, depth_pos_of_taxonomy htaxonomy hwalk⟩, rfl⟩)

/-- Before the cut, the traversal has one signal for each taxonomy node that an admissible walk with
a hop reaches, with the rounded best score of these walks. -/
theorem traverseGraph_best (hweights : ∀ e ∈ g.edges, 0 ≤ e.weight) (rawQuery : String) (depth : ℤ) :
    ∃ signals : List Signal,
      (∀ limit, traverseGraph texts (some g) rawQuery depth limit = signals.take limit) ∧
      (signals.map (·.node)).Nodup ∧
      (∀ key, key ∈ signals.map (·.node) ↔ g.IsTaxonomy key ∧
        (g.scores texts (normalizedQuery texts rawQuery) (min (max depth 1) 4).toNat key).Nonempty) ∧
      ∀ s ∈ signals, ∃ best, IsGreatest
        (g.scores texts (normalizedQuery texts rawQuery) (min (max depth 1) 4).toNat s.node) best ∧
        s.score = roundFour best := by
  have hdepth : (min (max depth 1) 4).toNat = graphDepth depth := by
    unfold graphDepth maxGraphDepth
    omega
  rw [hdepth]
  have hrecorded := @results_recorded texts g (normalizedQuery texts rawQuery) (graphDepth depth)
  generalize hresults : g.results texts (normalizedQuery texts rawQuery) (graphDepth depth) = results
    at hrecorded
  have hperm := List.perm_insertionSort (fun a b => signalKey a ≤ signalKey b) (results.map (·.2))
  have hentry : ∀ x ∈ results, x.2.node = x.1 ∧ g.IsTaxonomy x.1 ∧ ∃ best,
      IsGreatest (g.scores texts (normalizedQuery texts rawQuery) (graphDepth depth) x.1) best ∧
        x.2.score = roundFour best := by
    intro x hx
    have hlookup : results.lookup x.1 = some x.2 := lookup_of_mem hrecorded.nodup hx
    obtain ⟨hnode, best, hbest, hscore⟩ := hrecorded.present x.1 x.2 hlookup
    obtain ⟨i, -, hhits, -⟩ := hbest.1
    exact ⟨hnode, hhits.taxonomy, best,
      isGreatest_scores hweights hhits.taxonomy hhits.allowed hbest, hscore⟩
  have hnodes : (results.map (·.2)).map (·.node) = results.map (·.1) := by
    rw [List.map_map]
    exact List.map_congr_left fun x hx => (hentry x hx).1
  refine ⟨(results.map (·.2)).insertionSort fun a b => signalKey a ≤ signalKey b, fun limit => ?_, ?_,
    fun key => ?_, fun s hs => ?_⟩
  · rw [traverseGraph, hresults]
  · rw [(hperm.map _).nodup_iff, hnodes]
    exact hrecorded.nodup
  · rw [(hperm.map _).mem_iff, hnodes]
    constructor
    · intro hkey
      obtain ⟨x, hx, rfl⟩ := List.mem_map.1 hkey
      obtain ⟨-, htaxonomy, best, hbest, -⟩ := hentry x hx
      exact ⟨htaxonomy, best, hbest.1⟩
    · rintro ⟨htaxonomy, s, start, hops, -, hadm, rfl, rfl⟩
      have hopen := hadm.allowed _ walkEnd_mem
      obtain ⟨j, hj, hnode, -, -⟩ := Growth.exists_visited (growth_monotone hweights)
        extend_pos (walk_of_admissible hadm)
      have hwalk := Growth.walk_of_visited hj
      rw [hnode] at hwalk
      have hhits : g.Hits texts (normalizedQuery texts rawQuery) j (walkEnd start hops) :=
        ⟨hnode, htaxonomy, hopen, depth_pos_of_taxonomy htaxonomy hwalk⟩
      cases hlookup : results.lookup (walkEnd start hops) with
      | none => exact absurd hhits (hrecorded.absent _ hlookup j hj)
      | some signal => exact List.mem_map_of_mem (mem_of_lookup hlookup)
  · obtain ⟨x, hx, rfl⟩ := List.mem_map.1 (hperm.mem_iff.1 hs)
    obtain ⟨hnode, -, best, hbest, hscore⟩ := hentry x hx
    exact ⟨best, hnode ▸ hbest, hscore⟩

end Walks

/-! ## A city and its styles -/

namespace WalkSample

def texts : Texts where
  normalizeQuery := id
  redactQuery := id
  wordChar := Char.isAlphanum
  split := fun text => text.splitOn " "
  digest := id

def graph : SearchGraph where
  nodes := [
    { key := "concept::udaipur", kind := some .concept, label := some "udaipur" },
    { key := taxonomyNode "style" "ethnic", kind := some .taxonomy, field := some "style",
      value := some "ethnic", label := some "Ethnic" }]
  edges := [
    { source := "concept::udaipur", target := taxonomyNode "style" "ethnic", weight := 9 / 10,
      relation := "context", evidenceSource := "india-context", support := 1 }]

theorem weights_nonneg : ∀ e ∈ graph.edges, 0 ≤ e.weight := by
  intro e he
  obtain rfl := List.mem_singleton.1 he
  norm_num

end WalkSample

open WalkSample in
theorem traverseGraph_best_udaipur :
    ∃ signals : List Signal,
      (∀ limit, traverseGraph texts (some graph) "clothes for udaipur" 4 limit = signals.take limit) ∧
      (signals.map (·.node)).Nodup ∧
      (∀ key, key ∈ signals.map (·.node) ↔ graph.IsTaxonomy key ∧
        (graph.scores texts (normalizedQuery texts "clothes for udaipur")
          (min (max 4 1) 4 : ℤ).toNat key).Nonempty) ∧
      ∀ s ∈ signals, ∃ best, IsGreatest
        (graph.scores texts (normalizedQuery texts "clothes for udaipur")
          (min (max 4 1) 4 : ℤ).toNat s.node) best ∧
        s.score = roundFour best :=
  traverseGraph_best weights_nonneg _ 4

end Reconciler

end Stylme
