-- SUMMARY: Which text the plan sanitizer replaces a value by, read off the filter contract.
import Stylme.Chat.Reply

/-!
# The options of a filter contract

`optionSet` files the texts of the options under their lower-case forms. A plain text and a
member of `familyKeys` replace what is filed already, the names of an option do not. So what
a value becomes can be read off the contract: the last of the former texts that is equal to
it but for case and outer blanks, or else the first of the latter.
-/

namespace Stylme

namespace Chat

/-! ## First and last entries -/

section Entries

variable {α : Type} (key : α → String)

/-- The last element with a key. -/
def lastWith (l : List α) (k : String) : Option α := l.reverse.find? (key · = k)

variable {key}

@[simp] theorem lastWith_nil {k : String} : lastWith key [] k = none := rfl

theorem lastWith_append {l l' : List α} {k : String} :
    lastWith key (l ++ l') k = (lastWith key l' k).or (lastWith key l k) := by
  simp only [lastWith, List.reverse_append, List.find?_append]

theorem lastWith_cons {x : α} {l : List α} {k : String} :
    lastWith key (x :: l) k = (lastWith key l k).or (if key x = k then some x else none) := by
  simp only [lastWith, List.reverse_cons, List.find?_append, List.find?_cons, List.find?_nil]
  by_cases h : key x = k <;> simp [h]

theorem lastWith_map {β : Type} {f : β → α} {l : List β} {k : String} :
    lastWith key (l.map f) k = (lastWith (key ∘ f) l k).map f := by
  simp only [lastWith, ← List.map_reverse, List.find?_map]
  rfl

/-- Entries that replace earlier ones. -/
theorem lookup_foldl_setKey {β : Type} {value : α → β} {l : List α} {d : List (String × β)}
    {k : String} :
    (l.foldl (fun d x => setKey (key x) (value x) d) d).lookup k =
      ((lastWith key l k).map value).or (d.lookup k) := by
  induction l generalizing d with
  | nil => rfl
  | cons x l ih =>
    rw [List.foldl_cons, ih, lastWith_cons, lookup_setKey]
    by_cases h : key x = k
    · cases hl : lastWith key l k <;> simp [h]
    · have hne : ¬ k = key x := fun h' => h h'.symm
      cases hl : lastWith key l k <;> simp [h, hne]

/-- Entries that give way to earlier ones. -/
theorem lookup_foldl_setAbsent {l : List α} {d : List (String × α)} {k : String} :
    (l.foldl (fun d x => if d.lookup (key x) = none then setKey (key x) x d else d) d).lookup k =
      (d.lookup k).or (l.find? (key · = k)) := by
  induction l generalizing d with
  | nil => simp
  | cons x l ih =>
    rw [List.foldl_cons, ih, List.find?_cons]
    by_cases hx : d.lookup (key x) = none
    · rw [if_pos hx, lookup_setKey]
      by_cases h : key x = k
      · subst h
        simp [hx]
      · have hne : ¬ k = key x := fun h' => h h'.symm
        simp [h, hne]
    · rw [if_neg hx]
      by_cases h : key x = k
      · subst h
        obtain ⟨v, hv⟩ := Option.ne_none_iff_exists'.1 hx
        simp [hv]
      · simp [h]

end Entries

/-! ## The texts of an option -/

def textOf : Json → Option String
  | .str text => some text
  | _ => none

/-- The texts of an option that replace what is filed already. -/
def forcedTexts : Json → List String
  | .str text => [text]
  | .obj value =>
    match value.lookup "familyKeys" with
    | some (.arr families) => families.filterMap textOf
    | _ => []
  | _ => []

/-- The name of an option under a key, if it is not empty. -/
def nameUnder (value : Document) (key : String) : Option String :=
  match value.lookup key with
  | some (.str text) => if text ≠ "" then some text else none
  | _ => none

/-- The names of an option. -/
def namesOf : Json → List String
  | .obj value => optionNames.filterMap (nameUnder value)
  | _ => []

variable (platform : Platform)

/-- The text that a lower-case form stands for among some options. -/
def optionText (items : List Json) (form : String) : Option String :=
  (lastWith platform.toLower (items.flatMap forcedTexts) form).or
    ((items.flatMap namesOf).find? (platform.toLower · = form))

variable {platform}

theorem lookup_addNames {value : Document} {keys : List String} {result : List (String × String)}
    {form : String} :
    (keys.foldl (fun result key =>
      match value.lookup key with
      | some (.str text) =>
        if text ≠ "" ∧ result.lookup (platform.toLower text) = none then
          setKey (platform.toLower text) text result
        else result
      | _ => result) result).lookup form =
    (result.lookup form).or ((keys.filterMap (nameUnder value)).find?
      (platform.toLower · = form)) := by
  rw [← lookup_foldl_setAbsent]
  congr 1
  induction keys generalizing result with
  | nil => rfl
  | cons key keys ih =>
    rw [List.foldl_cons, ih, List.filterMap_cons]
    cases hvalue : value.lookup key with
    | none => simp [nameUnder, hvalue]
    | some v =>
      cases v with
      | str text =>
        by_cases htext : text = ""
        · simp [nameUnder, hvalue, htext]
        · simp only [nameUnder, hvalue, ne_eq, htext, not_false_eq_true, true_and, if_true,
            List.foldl_cons]
      | _ => simp [nameUnder, hvalue]

theorem lookup_addFamilies {families : List Json} {result : List (String × String)}
    {form : String} :
    (families.foldl (fun result family =>
      match family with
      | .str text => setKey (platform.toLower text) text result
      | _ => result) result).lookup form =
    (lastWith platform.toLower (families.filterMap textOf) form).or (result.lookup form) := by
  rw [show lastWith platform.toLower (families.filterMap textOf) form =
    (lastWith platform.toLower (families.filterMap textOf) form).map id by simp,
    ← lookup_foldl_setKey]
  congr 1
  induction families generalizing result with
  | nil => rfl
  | cons family families ih =>
    rw [List.foldl_cons, ih, List.filterMap_cons]
    cases family <;> rfl

theorem lookup_addOption {item : Json} {result : List (String × String)} {form : String} :
    (addOption platform result item).lookup form =
      (lastWith platform.toLower (forcedTexts item) form).or
        ((result.lookup form).or ((namesOf item).find? (platform.toLower · = form))) := by
  cases item with
  | str text =>
    have hnames : namesOf (.str text) = [] := rfl
    rw [addOption, lookup_setKey, forcedTexts, hnames, lastWith_cons]
    by_cases h : platform.toLower text = form
    · simp [h]
    · have hne : ¬ form = platform.toLower text := fun h' => h h'.symm
      simp [h, hne]
  | obj value =>
    unfold addOption forcedTexts namesOf
    dsimp only
    cases hfamilies : value.lookup "familyKeys" with
    | none => exact lookup_addNames
    | some families =>
      cases families with
      | arr families =>
        refine lookup_addFamilies.trans ?_
        exact congrArg _ lookup_addNames
      | _ => exact lookup_addNames
  | _ => simp [addOption, forcedTexts, namesOf]

theorem lookup_foldl_addOption {items : List Json} {result : List (String × String)}
    {form : String} :
    (items.foldl (addOption platform) result).lookup form =
      (lastWith platform.toLower (items.flatMap forcedTexts) form).or
        ((result.lookup form).or
          ((items.flatMap namesOf).find? (platform.toLower · = form))) := by
  induction items generalizing result with
  | nil => simp
  | cons item items ih =>
    rw [List.foldl_cons, ih, lookup_addOption, List.flatMap_cons, List.flatMap_cons,
      lastWith_append, List.find?_append]
    simp only [Option.or_assoc]

/-- `optionSet` files a text under each lower-case form that has one. -/
theorem lookup_optionSet {items : List Json} {form : String} :
    (optionSet platform (some (.arr items))).lookup form = optionText platform items form := by
  rw [optionSet, lookup_foldl_addOption]
  simp [optionText]

/-! ## What a plan keeps -/

/-- One step of the loop of `allowedValues`. -/
def allow (platform : Platform) (allowed : List (String × String)) (result : List String)
    (value : String) : List String :=
  match allowed.lookup (platform.toLower (trimSpace value)) with
  | some canonical => if canonical ∈ result then result else result ++ [canonical]
  | none => result

theorem mem_allowedValues {values : List String} {allowed : List (String × String)} {v : String} :
    v ∈ allowedValues platform values allowed ↔
      ∃ value ∈ values, allowed.lookup (platform.toLower (trimSpace value)) = some v := by
  have hfold : ∀ result : List String, v ∈ values.foldl (allow platform allowed) result ↔
      v ∈ result ∨
        ∃ value ∈ values, allowed.lookup (platform.toLower (trimSpace value)) = some v := by
    induction values with
    | nil => simp
    | cons value values ih =>
      intro result
      rw [List.foldl_cons, ih, allow]
      cases hvalue : allowed.lookup (platform.toLower (trimSpace value)) with
      | none => simp [hvalue]
      | some canonical =>
        by_cases hmem : canonical ∈ result
        · simp only [if_pos hmem, List.mem_cons, exists_eq_or_imp, hvalue, Option.some.injEq]
          constructor
          · rintro (h | h)
            · exact .inl h
            · exact .inr (.inr h)
          · rintro (h | rfl | h)
            · exact .inl h
            · exact .inl hmem
            · exact .inr h
        · simp [hmem, hvalue, or_assoc, eq_comm]
  have h := hfold []
  rwa [List.mem_nil_iff, false_or] at h

/-! ## The fields of a contract -/

/-- The key of a field of the contract, `""` if it has none. -/
def fieldKey : Json → String
  | .obj field =>
    match field.lookup "key" with
    | some (.str key) => key
    | _ => ""
  | _ => ""

/-- The options of a field of the contract. -/
def fieldOptions : Json → Option Json
  | .obj field => field.lookup "options"
  | _ => none

variable (platform) in
/-- One turn of the loop over the fields. -/
def addField (sets : List (String × List (String × String))) :
    Json → List (String × List (String × String))
  | .obj field =>
    match field.lookup "key" with
    | some (.str key) =>
      if key ≠ "" then setKey key (optionSet platform (field.lookup "options")) sets else sets
    | _ => sets
  | _ => sets

theorem lookup_addField {field : Json} {sets : List (String × List (String × String))}
    {key : String} (hkey : key ≠ "") :
    (addField platform sets field).lookup key =
      ((if fieldKey field = key then some field else none).map fun field =>
        optionSet platform (fieldOptions field)).or (sets.lookup key) := by
  cases field with
  | obj field =>
    simp only [addField, fieldKey]
    obtain hname | ⟨v, hname⟩ := Option.eq_none_or_eq_some (field.lookup "key")
    · simp [hname, hkey.symm]
    cases v with
    | str name =>
      simp only [hname]
      by_cases hempty : name = ""
      · simp [hempty, hkey.symm]
      · rw [if_pos hempty, lookup_setKey]
        by_cases h : name = key
        · simp [h, fieldOptions]
        · have hne : ¬ key = name := fun h' => h h'.symm
          simp [h, hne]
    | _ => simp [hname, hkey.symm]
  | _ => simp [addField, fieldKey, hkey.symm]

theorem lookup_foldl_addField {fields : List Json} {sets : List (String × List (String × String))}
    {key : String} (hkey : key ≠ "") :
    (fields.foldl (addField platform) sets).lookup key =
      ((lastWith fieldKey fields key).map fun field =>
        optionSet platform (fieldOptions field)).or (sets.lookup key) := by
  induction fields generalizing sets with
  | nil => simp
  | cons field fields ih =>
    rw [List.foldl_cons, ih, lookup_addField hkey, lastWith_cons, ← Option.or_assoc, Option.map_or]

theorem fieldSets_eq {filters : Document} {fields : List Json}
    (hfields : filters.lookup "fields" = some (.arr fields)) :
    fieldSets platform filters = fields.foldl (addField platform) [] := by
  unfold fieldSets
  rw [hfields]
  rfl

/-- `fieldSets` keeps the options of the last field with a key. -/
theorem lookup_fieldSets {filters : Document} {fields : List Json}
    (hfields : filters.lookup "fields" = some (.arr fields)) {key : String} (hkey : key ≠ "") :
    (fieldSets platform filters).lookup key =
      (lastWith fieldKey fields key).map fun field => optionSet platform (fieldOptions field) := by
  rw [fieldSets_eq hfields, lookup_foldl_addField hkey]
  simp

/-- No field goes by the empty key. -/
theorem lookup_fieldSets_empty {filters : Document} {fields : List Json}
    (hfields : filters.lookup "fields" = some (.arr fields)) :
    (fieldSets platform filters).lookup "" = none := by
  have hstep : ∀ (field : Json) (sets : List (String × List (String × String))),
      (addField platform sets field).lookup "" = sets.lookup "" := by
    intro field sets
    unfold addField
    split
    · split
      · split_ifs with hname
        · rw [lookup_setKey, if_neg hname.symm]
        · rfl
      · rfl
    · rfl
  have hfold : ∀ (fields : List Json) (sets : List (String × List (String × String))),
      (fields.foldl (addField platform) sets).lookup "" = sets.lookup "" := by
    intro fields
    induction fields with
    | nil => exact fun _ => rfl
    | cons field fields ih => exact fun sets => (ih _).trans (hstep field sets)
  rw [fieldSets_eq hfields, hfold]
  rfl

end Chat

end Stylme
