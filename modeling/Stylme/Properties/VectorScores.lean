-- SUMMARY: When the three computations of the taxonomy vector score agree on every product.
import Stylme.Catalogue.Weights

/-!
# Vector scores

The pipeline scores only the values that the taxonomy allows, of fields whose
storage it knows, and it takes the other weights out of the norm. SwoopStyl and the
reference score whatever the request weighs.
-/

namespace Stylme

open Conc Backend

namespace Catalogue

/-! ## Features -/

/-- The strings of a stored list. -/
def texts : Option Json → List String
  | some (.arr items) => items.filterMap fun
    | .str s => some s
    | _ => none
  | _ => []

theorem mem_texts {v : String} {items : List Json} :
    v ∈ texts (some (.arr items)) ↔ items.any (isText v) := by
  simp only [texts, List.mem_filterMap, List.any_eq_true]
  refine exists_congr fun item => and_congr_right fun _ => ?_
  cases item <;> simp [isText, eq_comm]

/-- Where the values of a field belong. -/
def fieldSource (field : String) : ValueSource :=
  if field = "category" then .categoryKey
  else if field = "product_type" then .productTypeKey
  else if field = "gender" then .genderKeys
  else if field = "color_family" then .paletteFamilies
  else .metadata field

/-- The values that a product has at a source. -/
def ValueSource.features (p : Product) : ValueSource → List String
  | categoryKey => p.categoryKey.toList
  | productTypeKey => p.productTypeKey.toList
  | genderKeys => p.genderKeys.getD []
  | paletteFamilies => p.colorPalette.flatten
  | metadata field => texts (p.metadata.lookup field)

/-- The fields that a product may have values for. -/
def Product.fieldNames (p : Product) : List String :=
  ["category", "product_type", "gender", "color_family"] ++ p.metadata.map (·.1)

/-- The `field:value` features of a product. -/
def Product.features (p : Product) : List (String × String) :=
  p.fieldNames.flatMap fun field => ((fieldSource field).features p).map (field, ·)

theorem mem_features {p : Product} {field v : String} :
    (field, v) ∈ p.features ↔ v ∈ (fieldSource field).features p := by
  simp only [Product.features, List.mem_flatMap, List.mem_map, Prod.mk.injEq]
  constructor
  · rintro ⟨f, -, w, hw, rfl, rfl⟩
    exact hw
  · intro hv
    refine ⟨field, ?_, v, hv, rfl, rfl⟩
    simp only [Product.fieldNames, List.mem_append, List.mem_cons, List.not_mem_nil, or_false]
    by_contra hnone
    simp only [not_or] at hnone
    obtain ⟨⟨hc, ht, hg, hf⟩, hmeta⟩ := hnone
    rw [fieldSource, if_neg hc, if_neg ht, if_neg hg, if_neg hf] at hv
    cases hlookup : p.metadata.lookup field with
    | none => simp [ValueSource.features, hlookup, texts] at hv
    | some value =>
      obtain ⟨l₁, l₂, heq, -⟩ := List.lookup_eq_some_iff.1 hlookup
      exact hmeta (by simp [heq])

/-- Every metadata value of the product is a list that a set can be made of. -/
def ListValued (p : Product) : Prop :=
  ∀ field value, p.metadata.lookup field = some value →
    ∃ items, value = .arr items ∧ items.all hashable

section Match

variable {p : Product} {v : String}

theorem any_isText_map {l : List String} : (l.map Json.str).any (isText v) ↔ v ∈ l := by
  simp [List.any_eq_true, isText]

/-- The pipeline looks a value up among the features of its source. -/
theorem inOperator_values (h : ListValued p) (source : ValueSource) :
    inOperator v (source.values p) = .ok (decide (v ∈ source.features p)) := by
  have hoption : ∀ o : Option String, [o.elim Json.null Json.str].any (isText v) = decide (v ∈ o.toList) := by
    intro o
    cases o with
    | none => simp [isText]
    | some s => simp [isText, eq_comm]
  cases source with
  | categoryKey => exact congrArg Except.ok (hoption _)
  | productTypeKey => exact congrArg Except.ok (hoption _)
  | genderKeys => exact congrArg Except.ok (Bool.eq_iff_iff.2 (by rw [any_isText_map, decide_eq_true_eq]; rfl))
  | paletteFamilies =>
    refine congrArg Except.ok (Bool.eq_iff_iff.2 ?_)
    rw [any_isText_map, List.mem_eraseDups, decide_eq_true_eq]
    rfl
  | metadata field =>
    rcases Option.eq_none_or_eq_some (p.metadata.lookup field) with hlookup | ⟨value, hlookup⟩
    · simp [ValueSource.values, ValueSource.features, hlookup, inOperator, texts]
    · obtain ⟨items, rfl, -⟩ := h field value hlookup
      simp only [ValueSource.values, ValueSource.features, hlookup, inOperator]
      exact congrArg Except.ok (Bool.eq_iff_iff.2 (by rw [decide_eq_true_eq, mem_texts]))

/-- SwoopStyl finds a non-empty value among the features of its field. -/
theorem productValues_any (h : ListValued p) (field : String) : ∃ items,
    productValues p field = .ok items ∧
      ∀ v ≠ "", items.any (isText v) = decide ((field, v) ∈ p.features) := by
  have hoption : ∀ o : Option String, ∀ v ≠ "",
      [Json.str (o.getD "")].any (isText v) = decide (v ∈ o.toList) := by
    intro o v hv
    cases o with
    | none => simpa [isText] using Ne.symm hv
    | some s => simp [isText, eq_comm]
  simp only [mem_features, productValues, fieldSource]
  split
  · exact ⟨_, rfl, hoption _⟩
  · split
    · exact ⟨_, rfl, hoption _⟩
    · split
      · exact ⟨_, rfl, fun v _ => Bool.eq_iff_iff.2 (by rw [any_isText_map, decide_eq_true_eq]; rfl)⟩
      · split
        · exact ⟨_, rfl, fun v _ => Bool.eq_iff_iff.2 (by rw [any_isText_map, decide_eq_true_eq]; rfl)⟩
        · rcases Option.eq_none_or_eq_some (p.metadata.lookup field) with hlookup | ⟨value, hlookup⟩
          · simp only [ValueSource.features, hlookup]
            exact ⟨[], rfl, fun v _ => by simp [texts]⟩
          · obtain ⟨items, rfl, hitems⟩ := h field value hlookup
            simp only [ValueSource.features, hlookup]
            refine ⟨items, ?_, fun v _ =>
              Bool.eq_iff_iff.2 (by rw [decide_eq_true_eq, mem_texts])⟩
            cases items with
            | nil => rfl
            | cons item items => simp [setOf, truthy, hitems]

end Match

/-! ## Dimensions -/

/-- The weights of a request by field and value. -/
def queryVector (weights : Weights) : List ((String × String) × ℚ) :=
  weights.flatMap fun (field, values) => values.map fun (v, w) => ((field, v), w)

theorem mem_queryVector {weights : Weights} {field v : String} {w : ℚ} :
    ((field, v), w) ∈ queryVector weights ↔ ∃ values, (field, values) ∈ weights ∧ (v, w) ∈ values := by
  simp only [queryVector, List.mem_flatMap, List.mem_map, Prod.mk.injEq, Prod.exists]
  constructor
  · rintro ⟨f, values, hmem, v', w', hv, ⟨rfl, rfl⟩, rfl⟩
    exact ⟨values, hmem, hv⟩
  · rintro ⟨values, hmem, hv⟩
    exact ⟨field, values, hmem, v, w, hv, ⟨rfl, rfl⟩, rfl⟩

/-- The weights of the dimensions that a product has. -/
def matchedFeatures (weights : Weights) (p : Product) : List ℚ :=
  ((queryVector weights).filter (·.1 ∈ p.features)).map (·.2)

/-- The pipeline scores the value: the taxonomy allows it, and the field is stored where its values
belong. -/
def Scored (fields : List MetadataField) (field v : String) : Prop :=
  (fieldOf fields field).bind (·.source) = some (fieldSource field) ∧ v ∈ allowedValues fields field

/-- Every weighed value is non-empty and scored by the pipeline. -/
def AllScored (fields : List MetadataField) (weights : Weights) : Prop :=
  ∀ x ∈ queryVector weights, x.1.2 ≠ "" ∧ Scored fields x.1.1 x.1.2

/-! ## The scores by dimension -/

section Scores

variable {fields : List MetadataField} {weights : Weights} {p : Product}

theorem allWeights_eq : allWeights weights = (queryVector weights).map (·.2) := by
  simp only [allWeights, queryVector, List.map_flatMap, List.map_map]
  rfl

theorem matchedTerms_eq (h : ListValued p) (terms : List Term) : matchedTerms p terms =
    .ok ((terms.filter fun t => t.value ∈ t.source.features p).map (·.weight)) := by
  induction terms with
  | nil => rfl
  | cons t terms ih =>
    simp only [matchedTerms, inOperator_values h, ih, bind, Except.bind, pure, Except.pure]
    by_cases ht : t.value ∈ t.source.features p
    · rw [List.filter_cons_of_pos (by simpa using ht)]
      simp [ht]
    · rw [List.filter_cons_of_neg (by simpa using ht)]
      simp [ht]

/-- Where every value is scored, the terms are the dimensions. -/
theorem vectorTerms_eq (h : AllScored fields weights) : vectorTerms fields weights =
    (queryVector weights).map fun x => ⟨x.1.2, fieldSource x.1.1, x.2⟩ := by
  simp only [vectorTerms, queryVector, List.map_flatMap, List.map_map]
  refine List.flatMap_congr fun x hx => ?_
  obtain ⟨field, values⟩ := x
  cases values with
  | nil =>
    simp only [fieldTerms, knownWeights, List.filter_nil, List.map_nil]
    split <;> rfl
  | cons y ys =>
    have hscored : ∀ z ∈ y :: ys, z.1 ≠ "" ∧ Scored fields field z.1 := fun z hz =>
      h ((field, z.1), z.2) (mem_queryVector.2 ⟨_, hx, hz⟩)
    have hsource := (hscored y List.mem_cons_self).2.1
    have hknown : knownWeights fields field (y :: ys) = y :: ys := by
      refine List.filter_eq_self.2 fun z hz => ?_
      exact decide_eq_true (hscored z hz).2.2
    simp only [fieldTerms, hsource, hknown]
    rfl

theorem matchedValues_eq (h : ListValued p) (hvalues : ∀ x ∈ queryVector weights, x.1.2 ≠ "") :
    matchedValues p weights = .ok (matchedFeatures weights p) := by
  induction weights with
  | nil => rfl
  | cons x weights ih =>
    obtain ⟨field, values⟩ := x
    obtain ⟨items, hitems, hany⟩ := productValues_any h field
    have hrest := ih fun x hx => hvalues x (by
      rw [queryVector, List.flatMap_cons]
      exact List.mem_append_right _ hx)
    have hfield : ∀ z ∈ values, z.1 ≠ "" := fun z hz =>
      hvalues ((field, z.1), z.2) (mem_queryVector.2 ⟨_, List.mem_cons_self, hz⟩)
    have hfilter : (values.filter fun (v, _) => items.any (isText v)) =
        values.filter fun z => (field, z.1) ∈ p.features :=
      List.filter_congr fun z hz => hany z.1 (hfield z hz)
    simp only [matchedValues, hitems, hrest, bind, Except.bind, pure, Except.pure, hfilter]
    simp only [matchedFeatures, queryVector, List.flatMap_cons, List.filter_append,
      List.map_append, List.filter_map, List.map_map]
    rfl

/-- Dropping empty fields and values leaves the dimensions as they are, if no value is empty. -/
theorem queryVector_semanticWeights (hclean : CleanWeights weights)
    (hvalues : ∀ x ∈ queryVector weights, x.1.2 ≠ "") :
    queryVector (semanticWeights weights) = queryVector weights := by
  rw [semanticWeights_eq hclean]
  clear hclean
  induction weights with
  | nil => rfl
  | cons x weights ih =>
    obtain ⟨field, values⟩ := x
    have hrest := ih fun x hx => hvalues x (by
      rw [queryVector, List.flatMap_cons]
      exact List.mem_append_right _ hx)
    cases values with
    | nil => simpa [queryVector] using hrest
    | cons y ys =>
      have hfilter : (y :: ys).filter (·.1 ≠ "") = y :: ys := by
        refine List.filter_eq_self.2 fun z hz => ?_
        exact decide_eq_true (hvalues ((field, z.1), z.2)
          (mem_queryVector.2 ⟨_, List.mem_cons_self, hz⟩))
      rw [List.filter_cons_of_pos rfl, List.map_cons]
      simp only [queryVector, List.flatMap_cons] at hrest ⊢
      rw [hfilter, hrest]

end Scores

/-! ## The scores in exact arithmetic -/

section Exact

noncomputable def realSqrt (q : ℚ) : ℝ := √(q : ℝ)

/-- The score, given the weights that match and the square norm. -/
noncomputable def exactScore (matched : List ℚ) (n : ℚ) : ℝ :=
  if matched = [] then 0 else cosine matched n

theorem similarity_eq (matched : List ℚ) (n : ℚ) : similarity realSqrt matched n = cosine matched n := by
  simp [similarity, realSqrt, cosine]

theorem realSqrt_ne_zero {q : ℚ} (h : 0 < q) : realSqrt q ≠ 0 :=
  (Real.sqrt_pos.2 (by exact_mod_cast h)).ne'

theorem realSqrt_length_ne_zero {matched : List ℚ} (h : matched ≠ []) :
    realSqrt matched.length ≠ 0 :=
  realSqrt_ne_zero (by exact_mod_cast List.length_pos_iff.2 h)

/-- The square norm is positive as soon as one weight matches. -/
theorem squares_pos_of_sublist {matched all : List ℚ} (hsub : matched.Sublist all)
    (hpos : ∀ w ∈ all, 0 < w) (hne : matched ≠ []) : 0 < squares all :=
  squares_pos (fun h => hne (List.eq_nil_of_sublist_nil (h ▸ hsub))) hpos

theorem exactScore_pos {matched all : List ℚ} (hsub : matched.Sublist all)
    (hpos : ∀ w ∈ all, 0 < w) (hne : matched ≠ []) : 0 < exactScore matched (squares all) := by
  rw [exactScore, if_neg hne]
  exact cosine_pos (squares_pos_of_sublist hsub hpos hne) hne fun w hw => hpos w (hsub.subset hw)

variable {p : Product}

theorem vectorScore_eq (h : ListValued p) {terms : List Term} (hpos : ∀ t ∈ terms, 0 < t.weight) :
    ∃ matched, matchedTerms p terms = .ok matched ∧ matched.Sublist (terms.map (·.weight)) ∧
      vectorScore realSqrt terms p =
        .ok ⟨matched.length, exactScore matched (squares (terms.map (·.weight)))⟩ := by
  refine ⟨_, matchedTerms_eq h terms, List.filter_sublist.map _, ?_⟩
  set matched := (terms.filter fun t => t.value ∈ t.source.features p).map (·.weight) with hmatched
  have hsub : matched.Sublist (terms.map (·.weight)) := List.filter_sublist.map _
  have hpos' : ∀ w ∈ terms.map (·.weight), 0 < w := by simpa using hpos
  simp only [vectorScore, matchedTerms_eq h, ← hmatched, bind, Except.bind, pure, Except.pure]
  by_cases hne : matched = []
  · simp [hne, exactScore]
  · rw [if_pos (List.length_pos_iff.2 hne), divideOperator, if_neg]
    · rw [exactScore, if_neg hne, ← similarity_eq]
      rfl
    · exact mul_ne_zero (realSqrt_ne_zero (squares_pos_of_sublist hsub hpos' hne))
        (realSqrt_length_ne_zero hne)

theorem matchedFeatures_sublist (weights : Weights) (p : Product) :
    (matchedFeatures weights p).Sublist ((queryVector weights).map (·.2)) :=
  List.filter_sublist.map _

theorem semanticScore_eq (h : ListValued p) {weights : Weights}
    (hvalues : ∀ x ∈ queryVector weights, x.1.2 ≠ "") (hpos : ∀ x ∈ queryVector weights, 0 < x.2) :
    semanticScore realSqrt weights p = .ok ⟨(matchedFeatures weights p).length,
      exactScore (matchedFeatures weights p) (squares ((queryVector weights).map (·.2)))⟩ := by
  have hsub := matchedFeatures_sublist weights p
  have hpos' : ∀ w ∈ (queryVector weights).map (·.2), 0 < w := by
    intro w hw
    obtain ⟨x, hx, rfl⟩ := List.mem_map.1 hw
    exact hpos x hx
  simp only [semanticScore, matchedValues_eq h hvalues, allWeights_eq, bind, Except.bind, pure,
    Except.pure]
  by_cases hne : matchedFeatures weights p = []
  · simp [hne, exactScore]
  · have hnorm := squares_pos_of_sublist hsub hpos' hne
    have hscore : 0 < cosine (matchedFeatures weights p) (squares ((queryVector weights).map (·.2))) :=
      cosine_pos hnorm hne fun w hw => hpos' w (hsub.subset hw)
    rw [if_pos ⟨hnorm.ne', hne⟩, similarity_eq, min_eq_right (cosine_le_one hsub),
      max_eq_right hscore.le, exactScore, if_neg hne]

theorem sparseCosineScore_eq {weights : Weights} (hpos : ∀ x ∈ queryVector weights, 0 < x.2) :
    sparseCosineScore realSqrt (queryVector weights) p.features =
      exactScore (matchedFeatures weights p) (squares ((queryVector weights).map (·.2))) := by
  have hpos' : ∀ w ∈ (queryVector weights).map (·.2), 0 < w := by
    intro w hw
    obtain ⟨x, hx, rfl⟩ := List.mem_map.1 hw
    exact hpos x hx
  have hscore : ∀ matched, matched = matchedFeatures weights p →
      (if matched = [] then 0
        else if realSqrt (squares ((queryVector weights).map (·.2))) ≠ 0 then
          similarity realSqrt matched (squares ((queryVector weights).map (·.2)))
        else 0) =
      exactScore (matchedFeatures weights p) (squares ((queryVector weights).map (·.2))) := by
    rintro matched rfl
    by_cases hne : matchedFeatures weights p = []
    · rw [if_pos hne, exactScore, if_pos hne]
    · have hnorm := squares_pos_of_sublist (matchedFeatures_sublist weights p) hpos' hne
      rw [if_neg hne, if_pos (realSqrt_ne_zero hnorm), exactScore, if_neg hne, similarity_eq]
  -- the two filters differ in how they decide membership
  refine hscore _ (congrArg _ (List.filter_congr fun x _ => ?_))
  exact decide_eq_decide.2 Iff.rfl

end Exact

/-! ## Products with one feature -/

namespace Product

/-- The product whose only feature is the value `v` at `source`. -/
def single (source : ValueSource) (v : String) : Product where
  id := 0
  source := ""
  sourceProductID := ""
  brandID := 0
  title := ""
  description := ""
  searchText := ""
  status := "active"
  visibility := "public"
  categoryKey := if source = .categoryKey then some v else none
  productTypeKey := if source = .productTypeKey then some v else none
  genderKeys := if source = .genderKeys then some [v] else none
  metadata :=
    match source with
    | .metadata field => [(field, .arr [.str v])]
    | _ => []
  colorPalette := if source = .paletteFamilies then [[v]] else []
  rating := ⟨0, 0⟩
  catalogueEligible := true
  catalogueMinPricePaise := none
  createdAt := 0

theorem single_features {source source' : ValueSource} {v v' : String} :
    v' ∈ source'.features (single source v) ↔ source' = source ∧ v' = v := by
  cases source' with
  | metadata field' =>
    cases source with
    | metadata field =>
      by_cases hfield : field' = field
      · simp [ValueSource.features, single, hfield, texts]
      · simp [ValueSource.features, single, hfield, texts, List.lookup_cons, beq_false_of_ne hfield]
    | _ => simp [ValueSource.features, single, texts]
  | _ => cases source <;> simp [ValueSource.features, single]

theorem single_listValued (source : ValueSource) (v : String) : ListValued (single source v) := by
  intro field value h
  cases source with
  | metadata field' =>
    by_cases hfield : field = field'
    · refine ⟨[.str v], ?_, rfl⟩
      simpa [single, hfield, eq_comm] using h
    · simp [single, List.lookup_cons, beq_false_of_ne hfield] at h
  | _ => simp [single] at h

end Product

theorem fieldSource_injective {f g : String} (h : fieldSource f = fieldSource g) : f = g := by
  unfold fieldSource at h
  split_ifs at h <;> simp_all

/-- A field that is stored where the values of `f` belong is `f`. -/
theorem key_eq_of_source {field : MetadataField} {f : String}
    (h : field.source = some (fieldSource f)) : field.key = f := by
  unfold MetadataField.source fieldSource at h
  split_ifs at h <;> simp_all

/-! ## Agreement -/

/-- The three scores of every product with list values are equal. -/
def ScoresAgree (fields : List MetadataField) (weights : Weights) : Prop :=
  ∀ p, ListValued p → ∃ vector semantic,
    vectorScore realSqrt (vectorTerms fields weights) p = .ok vector ∧
    semanticScore realSqrt (semanticWeights weights) p = .ok semantic ∧
    vector.score = semantic.score ∧
    semantic.score = sparseCosineScore realSqrt (queryVector weights) p.features

section Agreement

variable {fields : List MetadataField} {weights : Weights}

theorem CleanWeights.pos (h : CleanWeights weights) : ∀ x ∈ queryVector weights, 0 < x.2 := by
  rintro ⟨⟨field, v⟩, w⟩ hx
  obtain ⟨values, hmem, hv⟩ := mem_queryVector.1 hx
  exact ((h.values _ hmem).bounded _ hv).1

theorem mem_vectorTerms {t : Term} (h : t ∈ vectorTerms fields weights) :
    ∃ field, (fieldOf fields field).bind (·.source) = some t.source ∧
      t.value ∈ allowedValues fields field ∧ ((field, t.value), t.weight) ∈ queryVector weights := by
  obtain ⟨field, values, hmem, hsource, hv⟩ := mem_vectorTerms_iff.1 h
  obtain ⟨hv, hallowed⟩ := List.mem_filter.1 hv
  exact ⟨field, hsource, of_decide_eq_true hallowed, mem_queryVector.2 ⟨values, hmem, hv⟩⟩

theorem scoresAgree_of_allScored (hclean : CleanWeights weights) (h : AllScored fields weights) :
    ScoresAgree fields weights := by
  intro p hp
  have hvalues : ∀ x ∈ queryVector weights, x.1.2 ≠ "" := fun x hx => (h x hx).1
  have hpos := hclean.pos
  have hquery := queryVector_semanticWeights hclean hvalues
  have hterms : ∀ t ∈ vectorTerms fields weights, 0 < t.weight := by
    intro t ht
    obtain ⟨field, -, -, hx⟩ := mem_vectorTerms ht
    exact hpos _ hx
  obtain ⟨matched, hmatched, -, hvector⟩ := vectorScore_eq hp hterms
  have hqueried : ∀ x ∈ queryVector (semanticWeights weights), x.1.2 ≠ "" := by rwa [hquery]
  have hsemantic := semanticScore_eq hp hqueried (by rwa [hquery])
  have hmatched' : matched = matchedFeatures weights p := by
    rw [matchedTerms_eq hp, vectorTerms_eq h, Except.ok.injEq] at hmatched
    rw [← hmatched, matchedFeatures, List.filter_map, List.map_map]
    simp only [Function.comp_def]
    refine congrArg (List.map _) (List.filter_congr fun x _ => ?_)
    exact Bool.eq_iff_iff.2 (by simp only [decide_eq_true_eq]; exact mem_features.symm)
  have hweights : (vectorTerms fields weights).map (·.weight) = (queryVector weights).map (·.2) := by
    rw [vectorTerms_eq h, List.map_map]
    rfl
  have hfeatures : matchedFeatures (semanticWeights weights) p = matchedFeatures weights p := by
    rw [matchedFeatures, hquery, matchedFeatures]
  rw [hmatched', hweights] at hvector
  rw [hfeatures, hquery] at hsemantic
  exact ⟨_, _, hvector, hsemantic, rfl, (sparseCosineScore_eq hpos).symm⟩

/-- The product with a single weighed value scores in the reference. -/
theorem sparseCosineScore_single_pos (hclean : CleanWeights weights) {field v : String} {w : ℚ}
    (hx : ((field, v), w) ∈ queryVector weights) :
    0 < sparseCosineScore realSqrt (queryVector weights)
      (Product.single (fieldSource field) v).features := by
  rw [sparseCosineScore_eq hclean.pos]
  refine exactScore_pos (matchedFeatures_sublist _ _) ?_ ?_
  · intro w' hw'
    obtain ⟨x, hx, rfl⟩ := List.mem_map.1 hw'
    exact hclean.pos x hx
  · refine List.ne_nil_of_mem (a := w) (List.mem_map.2 ⟨_, List.mem_filter.2 ⟨hx, ?_⟩, rfl⟩)
    exact decide_eq_true (mem_features.2 (Product.single_features.2 ⟨rfl, rfl⟩))

theorem allScored_of_scoresAgree (hclean : CleanWeights weights) (h : ScoresAgree fields weights) :
    AllScored fields weights := by
  rintro ⟨⟨field, v⟩, w⟩ hx
  have hpos := sparseCosineScore_single_pos hclean hx
  have hlist := Product.single_listValued (fieldSource field) v
  obtain ⟨vector, semantic, hvector, hsemantic, heq, hsparse⟩ := h _ hlist
  have hterms : ∀ t ∈ vectorTerms fields weights, 0 < t.weight := by
    intro t ht
    obtain ⟨field, -, -, hx⟩ := mem_vectorTerms ht
    exact hclean.pos _ hx
  constructor
  · -- an empty value is dropped by SwoopStyl
    rintro (rfl : v = "")
    have hne : ∀ x ∈ queryVector (semanticWeights weights), x.1.2 ≠ "" := by
      rintro ⟨⟨f, v⟩, w⟩ hx
      obtain ⟨values, hmem, hv⟩ := mem_queryVector.1 hx
      rw [semanticWeights_eq hclean] at hmem
      obtain ⟨⟨f', values'⟩, -, heq⟩ := List.mem_map.1 hmem
      obtain ⟨rfl, rfl⟩ := Prod.mk.inj heq
      exact of_decide_eq_true (List.mem_filter.1 hv).2
    have hnone : matchedFeatures (semanticWeights weights)
        (Product.single (fieldSource field) "") = [] := by
      refine List.map_eq_nil_iff.2 (List.filter_eq_nil_iff.2 fun x hx hmem => hne x hx ?_)
      obtain ⟨⟨f, v⟩, w⟩ := x
      exact (Product.single_features.1 (mem_features.1 (of_decide_eq_true hmem))).2
    have hzero : semantic.score = 0 := by
      have hvalues := matchedValues_eq hlist hne
      rw [hnone] at hvalues
      simp only [semanticScore, hvalues, bind, Except.bind, pure, Except.pure] at hsemantic
      cases hsemantic
      simp
    exact absurd (hsparse ▸ hzero) hpos.ne'
  · -- some term of the pipeline matches the product
    obtain ⟨matched, hmatched, -, hscore⟩ := vectorScore_eq hlist hterms
    have hne : matched ≠ [] := by
      rintro rfl
      have hzero : vector.score = 0 := by
        rw [hscore, Except.ok.injEq] at hvector
        rw [← hvector, exactScore, if_pos rfl]
      exact absurd (hsparse ▸ heq ▸ hzero) hpos.ne'
    rw [matchedTerms_eq hlist, Except.ok.injEq] at hmatched
    obtain ⟨w', hw'⟩ := List.exists_mem_of_ne_nil _ (hmatched ▸ hne)
    obtain ⟨t, ht, -⟩ := List.mem_map.1 hw'
    obtain ⟨ht, hmem⟩ := List.mem_filter.1 ht
    obtain ⟨hsource, hvalue⟩ := Product.single_features.1 (of_decide_eq_true hmem)
    obtain ⟨f, hf, hallowed, -⟩ := mem_vectorTerms ht
    rw [hsource] at hf
    obtain ⟨document, hdocument, hdsource⟩ := Option.bind_eq_some_iff.1 hf
    have hkey : document.key = f := by simpa using List.find?_some hdocument
    obtain rfl : f = field := hkey.symm.trans (key_eq_of_source hdsource)
    exact ⟨hf, hvalue ▸ hallowed⟩

end Agreement

/-- The three scores agree on every product exactly if every weighed value is non-empty, allowed by
the taxonomy, and of a field that is stored where SwoopStyl looks for it. -/
theorem scoresAgree_iff (fields : List MetadataField) (request : Request) :
    ScoresAgree fields request.rankingWeights ↔ AllScored fields request.rankingWeights :=
  ⟨allScored_of_scoresAgree (rankingWeights_clean request),
    scoresAgree_of_allScored (rankingWeights_clean request)⟩

namespace Sample

/-- A taxonomy with one style. -/
def styleField : MetadataField where
  key := "style"
  label := some "Style"
  status := "active"
  filterable := true
  searchable := true
  geminiAllowed := true
  storage := some "product_metadata"
  storagePath := none
  dataType := some "multi_enum"
  maxSelections := some 3
  options := [.doc (some "casual") (some "Casual") [] none]

/-- A request for that style and for one that the taxonomy has retired. -/
def styleRequest : Request :=
  { sortBy := "relevance", order := "desc", radiusKm := 100,
    softFilterWeights := [("style", [("casual", 1), ("boho", 1)])] }

end Sample

theorem not_scoresAgree : ¬ ∀ fields request, ScoresAgree fields (Request.rankingWeights request) := by
  intro h
  have hscored := allScored_of_scoresAgree (rankingWeights_clean Sample.styleRequest)
    (h [Sample.styleField] Sample.styleRequest)
  have hboho := (hscored (("style", "boho"), 1) (by decide +kernel)).2.2
  revert hboho
  decide +kernel

end Catalogue

end Stylme
