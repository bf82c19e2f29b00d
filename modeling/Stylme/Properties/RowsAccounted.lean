-- SUMMARY: A recovery run accounts for every row: the lookup sorts each into one outcome, and scheduling gives each eligible row one end.
import Stylme.Lib.Chunks
import Stylme.Lib.Fallible
import Stylme.Recovery.System

/-!
# Rows accounted for

The provider's results come back by position for a lookup, and by an index that nothing vouches for
when calls are scheduled. Whatever they are, each row that was submitted has one outcome, and each
eligible row is scheduled, has one error of its own, or is too large to be sent.
-/

namespace Stylme

open Conc Backend

namespace Recovery

variable (lib : Library)

/-! ## Responses -/

/-- The member is absent, null or an object. -/
def HoldsObject (fields : List (String × Value)) (key : String) : Prop :=
  ∀ v, fields.lookup key = some v → v = .none ∨ ∃ members, v = .dict members

/-- A result of a lookup: an object whose error and data are objects. -/
def IsEntry (result : Value) : Prop :=
  ∃ fields, result = .dict fields ∧ HoldsObject fields "error" ∧ HoldsObject fields "data"

/-- A response to a schedule request: its data, an object, holds a list of objects. -/
structure IsSchedule (fields : List (String × Value)) : Prop where
  data : HoldsObject fields "data"
  results : ∀ members, fields.lookup "data" = some (.dict members) → ∀ v,
    members.lookup "results" = some v → v = .none ∨ ∃ results, v = .list results ∧ ∀ r ∈ results, IsEntry r

/-- The result for the row at a position. -/
def resultAt (results : List Value) (index : ℕ) : Value :=
  results[index]?.getD (.dict [("error", .dict [("code", .str "missing_result")])])

deriving instance DecidableEq for Eligibility

/-- Each row has one outcome, and is counted and handed on for it. -/
structure LookedUp (rows : List Row) (results : List Value) (outcomes : List (Row × Eligibility))
    (eligible : List Row) (counts : LookupCounts) (errors : List RunError) : Prop where
  inOrder : outcomes.map (·.1) = rows
  judged : ∀ i row outcome, outcomes[i]? = some (row, outcome) →
    rowEligibility lib row (resultAt results i) = .ok outcome
  handedOn : eligible = (outcomes.filter (·.2 = .eligible)).map (·.1)
  reported : errors = outcomes.filterMap fun
    | (row, .error code) => some ⟨some row.source.externalID, "lookup", code, false⟩
    | _ => none
  submitted : counts.submitted = rows.length
  countEligible : counts.eligible = eligible.length
  countCompleted : counts.skippedCompleted = outcomes.countP (·.2 = .skippedCompleted)
  countStale : counts.skippedStale = outcomes.countP (·.2 = .skippedStale)
  countActiveCall : counts.skippedActiveCall = outcomes.countP (·.2 = .skippedActiveCall)
  countErrors : counts.errors = errors.length
  total : counts.eligible + counts.skippedCompleted + counts.skippedStale + counts.skippedActiveCall +
    counts.errors = rows.length

/-! ## The ends of an eligible row -/

/-- How an eligible row ends. -/
inductive End where
  | scheduled (callID status : String)
  | failed (code : String) (retryable : Bool)
  | tooLarge (code : String)

/-- The entry of `scheduled_rows` -/
def End.scheduled? : Row × End → Option Scheduled
  | (row, .scheduled callID status) => some ⟨row, callID, status⟩
  | _ => none

/-- The entry of the errors -/
def End.error? : Row × End → Option RunError
  | (_, .scheduled _ _) => none
  | (row, .failed code retryable) => some ⟨some row.source.externalID, "schedule", code, retryable⟩
  | (row, .tooLarge code) => some ⟨some row.source.externalID, "schedule", code, false⟩

/-- The entry for a result that belongs to no row -/
def invalidIndex : RunError := ⟨none, "schedule", "invalid_result_index", false⟩

def ScheduleCounts.total (counts : ScheduleCounts) : ℕ :=
  counts.scheduled + counts.alreadyScheduled + counts.skipped + counts.failed

/-- Between two summaries the eligible rows have come to these ends, and some results belonged to no row. -/
structure Settled (config : Config) (eligible : List Row) (before after : Summary) (scheduled : List Scheduled)
    (ends : List (Row × End)) (strays : ℕ) (errors : List RunError) : Prop where
  once : (ends.map (·.1)).Perm eligible
  refused : ∀ row code, (row, End.tooLarge code) ∈ ends → scheduleItem lib row config = .error code
  handedOn : scheduled.Perm (ends.filterMap End.scheduled?)
  appended : after.errors = before.errors ++ errors
  reported : errors.Perm (ends.filterMap End.error? ++ List.replicate strays invalidIndex)
  total : after.schedule.total = before.schedule.total + eligible.length + strays

variable {lib} {row : Row} {rows : List Row} {result : Value} {results : List Value}
variable {fields : List (String × Value)} {key : String}

/-! ## Lookup -/

theorem get_dict : (Value.dict fields).get key = .ok ((fields.lookup key).getD .none) := rfl

theorem HoldsObject.get (h : HoldsObject fields key) : (fields.lookup key).getD .none = .none ∨
    ∃ members, (fields.lookup key).getD .none = .dict members := by
  cases hlookup : fields.lookup key with
  | none => exact .inl rfl
  | some v => exact h v hlookup

/-- What stands for a member that is absent or empty. -/
theorem HoldsObject.orElse (h : HoldsObject fields key) :
    ∃ members, ((fields.lookup key).getD .none).orElse (.dict []) = .dict members := by
  rcases h.get with hnone | ⟨members, hdict⟩
  · rw [hnone]
    exact ⟨[], rfl⟩
  · rw [hdict, Value.orElse]
    split
    · exact ⟨members, rfl⟩
    · exact ⟨[], rfl⟩

theorem rowEligibility_ok (h : IsEntry result) : ∃ outcome, rowEligibility lib row result = .ok outcome := by
  obtain ⟨fields, rfl, herror, hdata⟩ := h
  obtain ⟨members, hmembers⟩ := hdata.orElse
  rw [rowEligibility, get_dict, get_dict, get_dict]
  rcases herror.get with hnone | ⟨error, hdict⟩
  · rw [hnone]
    simp only [bind, Except.bind, pure, Except.pure, Value.truthy, hmembers, get_dict, Bool.false_eq_true,
      if_false]
    repeat' split
    all_goals exact ⟨_, rfl⟩
  · rw [hdict]
    simp only [bind, Except.bind, pure, Except.pure, hmembers, get_dict]
    repeat' split
    all_goals exact ⟨_, rfl⟩

theorem isEntry_resultAt (hresults : ∀ r ∈ results, IsEntry r) (index : ℕ) : IsEntry (resultAt results index) := by
  rw [resultAt]
  cases hget : results[index]? with
  | none =>
    refine ⟨_, rfl, fun v hv => .inr ?_, fun v hv => nomatch hv⟩
    exact ⟨_, (Option.some.inj hv).symm⟩
  | some r => exact hresults r (List.mem_of_getElem? hget)

/-- The loop of `lookup_eligible` judges each row by the result at its position. -/
theorem rowEligibilities_ok (hresults : ∀ r ∈ results, IsEntry r) (index : ℕ) : ∃ outcomes,
    rowEligibilities lib (.list results) index rows = .ok outcomes ∧ outcomes.map (·.1) = rows ∧
    ∀ i row outcome, outcomes[i]? = some (row, outcome) →
      rowEligibility lib row (resultAt results (index + i)) = .ok outcome := by
  induction rows generalizing index with
  | nil => exact ⟨[], rfl, rfl, fun i row outcome h => nomatch h⟩
  | cons row rows ih =>
    obtain ⟨outcomes, hrest, hrows, hjudged⟩ := ih (index + 1)
    obtain ⟨outcome, houtcome⟩ := @rowEligibility_ok lib row _ (isEntry_resultAt hresults index)
    refine ⟨(row, outcome) :: outcomes, ?_, ?_, ?_⟩
    · rw [rowEligibilities]
      refine bind_eq_ok.2 ⟨results.length, rfl, ?_⟩
      dsimp only
      split_ifs with hlt
      · have hitem : (Value.list results).item index = .ok (resultAt results index) := by
          rw [Value.item, resultAt, List.getElem?_eq_getElem hlt]
          rfl
        refine bind_eq_ok.2 ⟨_, hitem, ?_⟩
        exact bind_eq_ok.2 ⟨outcome, houtcome, bind_eq_ok.2 ⟨outcomes, hrest, rfl⟩⟩
      · rw [resultAt, List.getElem?_eq_none (not_lt.1 hlt)] at houtcome
        refine bind_eq_ok.2 ⟨_, rfl, ?_⟩
        exact bind_eq_ok.2 ⟨outcome, houtcome, bind_eq_ok.2 ⟨outcomes, hrest, rfl⟩⟩
    · rw [List.map_cons, hrows]
    · intro i row' outcome' hget
      cases i with
      | zero =>
        obtain ⟨rfl, rfl⟩ := Prod.mk.inj (Option.some.inj hget)
        exact houtcome
      | succ i =>
        have h := hjudged i row' outcome' hget
        rwa [Nat.add_assoc, Nat.add_comm 1 i] at h

/-- The counts after the rows with these outcomes. -/
theorem foldl_count (outcomes : List (Row × Eligibility)) (counts : LookupCounts) :
    outcomes.foldl (fun counts x => counts.count x.2) counts =
      { submitted := counts.submitted
        eligible := counts.eligible + outcomes.countP (·.2 = .eligible)
        skippedCompleted := counts.skippedCompleted + outcomes.countP (·.2 = .skippedCompleted)
        skippedStale := counts.skippedStale + outcomes.countP (·.2 = .skippedStale)
        skippedActiveCall := counts.skippedActiveCall + outcomes.countP (·.2 = .skippedActiveCall)
        errors := counts.errors + outcomes.countP (fun x => x.2 matches .error _) } := by
  induction outcomes generalizing counts with
  | nil => rfl
  | cons x outcomes ih =>
    obtain ⟨row, outcome⟩ := x
    rw [List.foldl_cons, ih]
    cases outcome <;> simp [LookupCounts.count, Nat.add_assoc, Nat.add_comm]

theorem countP_total (outcomes : List (Row × Eligibility)) :
    outcomes.countP (·.2 = .eligible) + outcomes.countP (·.2 = .skippedCompleted) +
      outcomes.countP (·.2 = .skippedStale) + outcomes.countP (·.2 = .skippedActiveCall) +
      outcomes.countP (fun x => x.2 matches .error _) = outcomes.length := by
  induction outcomes with
  | nil => rfl
  | cons x outcomes ih =>
    obtain ⟨row, outcome⟩ := x
    rw [List.length_cons, ← ih]
    cases outcome <;> simp <;> omega

theorem length_filterMap_error (outcomes : List (Row × Eligibility)) :
    (outcomes.filterMap fun
      | (row, .error code) => some (⟨some row.source.externalID, "lookup", code, false⟩ : RunError)
      | _ => none).length = outcomes.countP (fun x => x.2 matches .error _) := by
  induction outcomes with
  | nil => rfl
  | cons x outcomes ih =>
    obtain ⟨row, outcome⟩ := x
    cases outcome <;> simp [ih]

theorem filterMap_eligible (outcomes : List (Row × Eligibility)) :
    (outcomes.filterMap fun
      | (row, .eligible) => some row
      | _ => none) = (outcomes.filter (·.2 = .eligible)).map (·.1) := by
  induction outcomes with
  | nil => rfl
  | cons x outcomes ih =>
    obtain ⟨row, outcome⟩ := x
    cases outcome <;> simp [ih]

theorem lookupEligible_ok (hresults : ∀ r ∈ results, IsEntry r) : ∃ outcomes eligible counts errors,
    lookupEligible lib rows (.list results) = .ok (eligible, counts, errors) ∧
      LookedUp lib rows results outcomes eligible counts errors := by
  obtain ⟨outcomes, hloop, hrows, hjudged⟩ := @rowEligibilities_ok lib rows results hresults 0
  refine ⟨outcomes, _, _, _, bind_eq_ok.2 ⟨outcomes, hloop, rfl⟩, ?_⟩
  have hlength : outcomes.length = rows.length := by rw [← hrows, List.length_map]
  rw [foldl_count]
  exact {
    inOrder := hrows
    judged := fun i row outcome hget => Nat.zero_add i ▸ hjudged i row outcome hget
    handedOn := filterMap_eligible outcomes
    reported := rfl
    submitted := rfl
    countEligible := (Nat.zero_add _).trans
      ((List.countP_eq_length_filter.trans (List.length_map _).symm).trans
        (congrArg List.length (filterMap_eligible outcomes)).symm)
    countCompleted := Nat.zero_add _
    countStale := Nat.zero_add _
    countActiveCall := Nat.zero_add _
    countErrors := (Nat.zero_add _).trans (length_filterMap_error outcomes).symm
    total := by
      rw [← hlength, ← countP_total outcomes]
      simp only [Nat.zero_add] }

/-! ## Results of a schedule request -/

variable {preparedRows : List Row} {h h' h₀ : Handling}

/-- What one round of the loop over the results does: the result belongs to no row, or one row that was
not handled before comes to an end. -/
theorem handleResult_cases (hstep : handleResult lib preparedRows h result = .ok h') :
    h' = h.fail invalidIndex ∨ ∃ (i : ℕ) (row : Row) (e : End), preparedRows[i]? = some row ∧
      (i : ℤ) ∉ h.handledIndexes ∧ (∀ code, e ≠ .tooLarge code) ∧ h'.handledIndexes = (i : ℤ) :: h.handledIndexes ∧
      h'.scheduled = h.scheduled ++ (End.scheduled? (row, e)).toList ∧
      h'.errors = h.errors ++ (End.error? (row, e)).toList ∧ h'.counts.total = h.counts.total + 1 := by
  rw [handleResult, bind_eq_ok] at hstep
  obtain ⟨index, -, hstep⟩ := hstep
  dsimp only at hstep
  split at hstep
  · exact .inl (Except.ok.inj hstep).symm
  · rename_i i row htarget
    refine .inr ?_
    obtain ⟨j, -, htarget⟩ := Option.bind_eq_some_iff.1 htarget
    split at htarget
    · rename_i hrange
      obtain ⟨row', hrow, hpair⟩ := Option.map_eq_some_iff.1 htarget
      obtain ⟨rfl, rfl⟩ := Prod.mk.inj hpair
      obtain ⟨n, rfl⟩ := Int.eq_ofNat_of_zero_le hrange.1
      obtain ⟨status, -, hstep⟩ := bind_eq_ok.1 hstep
      obtain ⟨callID, -, hstep⟩ := bind_eq_ok.1 hstep
      have htotal : ∀ a b c d : ℕ, a + b + c + d + 1 = (a + 1) + b + c + d ∧ a + b + c + d + 1 = a + (b + 1) + c + d ∧
          a + b + c + d + 1 = a + b + (c + 1) + d := by omega
      split at hstep
      · obtain rfl := Except.ok.inj hstep
        exact ⟨n, row', .scheduled _ _, hrow, hrange.2, nofun, rfl, rfl, (List.append_nil _).symm, (htotal ..).1.symm⟩
      · split at hstep
        · obtain rfl := Except.ok.inj hstep
          exact ⟨n, row', .scheduled _ _, hrow, hrange.2, nofun, rfl, rfl, (List.append_nil _).symm,
            (htotal ..).2.1.symm⟩
        · split at hstep
          · obtain rfl := Except.ok.inj hstep
            exact ⟨n, row', .failed _ false, hrow, hrange.2, nofun, rfl, (List.append_nil _).symm, rfl,
              (htotal ..).2.2.symm⟩
          · obtain rfl := Except.ok.inj hstep
            exact ⟨n, row', .failed _ false, hrow, hrange.2, nofun, rfl, (List.append_nil _).symm, rfl, rfl⟩
    · cases htarget

/-- The loop raises only on a result that is no object. -/
theorem handleResult_ok (hresult : IsEntry result) : ∃ h', handleResult lib preparedRows h result = .ok h' := by
  obtain ⟨fields, rfl, -, -⟩ := hresult
  rw [handleResult]
  simp only [get_dict, bind, Except.bind, pure, Except.pure]
  repeat' split
  all_goals exact ⟨_, rfl⟩

/-- What the loop over the results of a batch has done. -/
structure Handled (preparedRows : List Row) (h₀ h : Handling) (picked : List ((Row × ℕ) × End)) (strays : ℕ)
    (errors : List RunError) : Prop where
  inBatch : ∀ x ∈ picked, x.1 ∈ preparedRows.zipIdx
  sent : ∀ x ∈ picked, ∀ code, x.2 ≠ .tooLarge code
  indexes : h.handledIndexes = picked.map fun x => (x.1.2 : ℤ)
  nodup : (picked.map (·.1)).Nodup
  scheduled : h.scheduled.Perm (picked.filterMap fun x => End.scheduled? (x.1.1, x.2))
  appended : h.errors = h₀.errors ++ errors
  reported : errors.Perm ((picked.filterMap fun x => End.error? (x.1.1, x.2)) ++ List.replicate strays invalidIndex)
  total : h.counts.total = h₀.counts.total + picked.length + strays

namespace Handled

variable {picked : List ((Row × ℕ) × End)} {strays : ℕ} {errors : List RunError}

theorem stray (hh : Handled preparedRows h₀ h picked strays errors) :
    Handled preparedRows h₀ (h.fail invalidIndex) picked (strays + 1) (errors ++ [invalidIndex]) where
  inBatch := hh.inBatch
  sent := hh.sent
  indexes := hh.indexes
  nodup := hh.nodup
  scheduled := hh.scheduled
  appended := by rw [Handling.fail, hh.appended, List.append_assoc]
  reported := by
    rw [List.replicate_succ', ← List.append_assoc]
    exact hh.reported.append_right _
  total := by
    have htotal : (h.fail invalidIndex).counts.total = h.counts.total + 1 := rfl
    rw [htotal, hh.total]
    omega

theorem pick (hh : Handled preparedRows h₀ h picked strays errors) {i : ℕ} {row : Row} {e : End}
    (hrow : preparedRows[i]? = some row) (hnew : (i : ℤ) ∉ h.handledIndexes) (hsent : ∀ code, e ≠ .tooLarge code)
    (hindexes : h'.handledIndexes = (i : ℤ) :: h.handledIndexes)
    (hscheduled : h'.scheduled = h.scheduled ++ (End.scheduled? (row, e)).toList)
    (herrors : h'.errors = h.errors ++ (End.error? (row, e)).toList)
    (htotal : h'.counts.total = h.counts.total + 1) :
    Handled preparedRows h₀ h' (((row, i), e) :: picked) strays (errors ++ (End.error? (row, e)).toList) where
  inBatch := by
    rintro x (_ | ⟨_, hx⟩)
    · exact List.mem_zipIdx_iff_getElem?.2 hrow
    · exact hh.inBatch x hx
  sent := by
    rintro x (_ | ⟨_, hx⟩)
    · exact hsent
    · exact hh.sent x hx
  indexes := by rw [hindexes, hh.indexes, List.map_cons]
  nodup := by
    rw [List.map_cons, List.nodup_cons]
    refine ⟨fun hmem => hnew ?_, hh.nodup⟩
    obtain ⟨x, hx, heq⟩ := List.mem_map.1 hmem
    rw [hh.indexes]
    exact List.mem_map.2 ⟨x, hx, by rw [heq]⟩
  scheduled := by
    rw [hscheduled, List.filterMap_cons]
    refine List.perm_append_comm.trans ?_
    cases End.scheduled? (row, e) with
    | none => exact hh.scheduled
    | some y => exact hh.scheduled.cons y
  appended := by rw [herrors, hh.appended, List.append_assoc]
  reported := by
    rw [List.filterMap_cons]
    refine List.perm_append_comm.trans ?_
    cases End.error? (row, e) with
    | none => exact hh.reported
    | some y => exact hh.reported.cons y
  total := by
    rw [htotal, hh.total, List.length_cons]
    omega

end Handled

/-- A round keeps account of the rows. -/
theorem Handled.step {picked : List ((Row × ℕ) × End)} {strays : ℕ} {errors : List RunError}
    (hh : Handled preparedRows h₀ h picked strays errors) (hstep : handleResult lib preparedRows h result = .ok h') :
    ∃ picked strays errors, Handled preparedRows h₀ h' picked strays errors := by
  rcases handleResult_cases hstep with rfl | ⟨i, row, e, hrow, hnew, hsent, hindexes, hscheduled, herrors, htotal⟩
  · exact ⟨_, _, _, hh.stray⟩
  · exact ⟨_, _, _, hh.pick hrow hnew hsent hindexes hscheduled herrors htotal⟩

theorem Handled.init (counts : ScheduleCounts) (errors : List RunError) :
    Handled preparedRows ⟨counts, errors, [], []⟩ ⟨counts, errors, [], []⟩ [] 0 [] where
  inBatch := fun _ h => absurd h List.not_mem_nil
  sent := fun _ h => absurd h List.not_mem_nil
  indexes := rfl
  nodup := List.nodup_nil
  scheduled := List.Perm.refl _
  appended := (List.append_nil _).symm
  reported := List.Perm.refl _
  total := rfl

/-- So does the loop. -/
theorem handled_foldlM {counts : ScheduleCounts} {errors : List RunError}
    (hloop : results.foldlM (handleResult lib preparedRows) ⟨counts, errors, [], []⟩ = .ok h) :
    ∃ picked strays errors', Handled preparedRows ⟨counts, errors, [], []⟩ h picked strays errors' := by
  refine @foldlM_invariant _ _ _ (fun h => ∃ picked strays errors',
    Handled preparedRows ⟨counts, errors, [], []⟩ h picked strays errors') _ _ _ _ (fun result _ h h' hh hstep => ?_)
    ⟨[], 0, [], .init counts errors⟩ hloop
  obtain ⟨picked, strays, errors, hh⟩ := hh
  exact hh.step hstep

/-! ## A batch -/

variable {config : Config} {client : Client} {batch eligible eligible' : List Row} {before after last : Summary}
variable {scheduled scheduled' : List Scheduled} {ends ends' : List (Row × End)} {strays strays' : ℕ}
variable {errors errors' : List RunError}

/-- Building items loses no element. -/
theorem attempt_perm {α β : Type} {f : α → Except String β} (xs : List α) :
    ((attempt f xs).1.map (·.1) ++ (attempt f xs).2.map (·.1)).Perm xs := by
  induction xs with
  | nil => exact List.Perm.refl _
  | cons x xs ih =>
    cases hitem : f x with
    | ok y =>
      simp only [attempt, hitem]
      exact ih.cons x
    | error code =>
      simp only [attempt, hitem]
      exact List.perm_middle.trans (ih.cons x)

theorem attempt_refused {α β : Type} {f : α → Except String β} {xs : List α} {x : α × String}
    (h : x ∈ (attempt f xs).2) : f x.1 = .error x.2 := by
  induction xs with
  | nil => exact absurd h List.not_mem_nil
  | cons y ys ih =>
    cases hitem : f y with
    | ok item =>
      simp only [attempt, hitem] at h
      exact ih h
    | error code =>
      simp only [attempt, hitem] at h
      rcases List.mem_cons.1 h with rfl | h
      · exact hitem
      · exact ih h

/-- The end of a prepared row that no result is about -/
def missingEnd : End := .failed "missing_result" true

/-- The prepared rows without a result, with their end -/
def missingEnds (preparedRows : List Row) (handledIndexes : List ℤ) : List (Row × End) :=
  ((preparedRows.zipIdx.filter fun x => !decide ((x.2 : ℤ) ∈ handledIndexes)).map (·.1)).map fun row =>
    (row, missingEnd)

theorem missingResults_eq {handledIndexes : List ℤ} : missingResults preparedRows handledIndexes =
    (missingEnds preparedRows handledIndexes).filterMap End.error? := by
  rw [missingResults, missingEnds]
  induction preparedRows.zipIdx with
  | nil => rfl
  | cons x rows ih =>
    obtain ⟨row, i⟩ := x
    by_cases hmem : (i : ℤ) ∈ handledIndexes
    · simpa [hmem] using ih
    · simpa [hmem, End.error?, missingEnd] using ih

theorem filterMap_missingEnds {handledIndexes : List ℤ} :
    (missingEnds preparedRows handledIndexes).filterMap End.scheduled? = [] := by
  refine List.filterMap_eq_nil_iff.2 fun x hx => ?_
  obtain ⟨row, -, rfl⟩ := List.mem_map.1 hx
  rfl

theorem length_missingResults {handledIndexes : List ℤ} :
    (missingResults preparedRows handledIndexes).length = (missingEnds preparedRows handledIndexes).length := by
  rw [missingResults, missingEnds, List.length_map, List.length_map]
  induction preparedRows.zipIdx with
  | nil => rfl
  | cons x rows ih =>
    obtain ⟨row, i⟩ := x
    by_cases hmem : (i : ℤ) ∈ handledIndexes
    · simpa [hmem] using ih
    · simpa [hmem] using ih

/-- Every prepared row is picked by a result or is missing one. -/
theorem Handled.once {picked : List ((Row × ℕ) × End)} (hh : Handled preparedRows h₀ h picked strays errors) :
    ((picked.map fun x => (x.1.1, x.2)) ++ missingEnds preparedRows h.handledIndexes).map (·.1) |>.Perm
      preparedRows := by
  have hp : ∀ i : ℕ, decide ((i : ℤ) ∈ h.handledIndexes) = true ↔ i ∈ (picked.map (·.1)).map (·.2) := by
    intro i
    rw [decide_eq_true_eq, hh.indexes, List.map_map, List.mem_map, List.mem_map]
    simp only [Int.natCast_inj, Function.comp_apply]
  have hall := picked_append_left_perm hh.nodup (fun x hx => by
    obtain ⟨y, hy, rfl⟩ := List.mem_map.1 hx
    exact hh.inBatch y hy) hp
  rw [List.map_append, missingEnds, List.map_map, List.map_map]
  rw [List.map_map] at hall
  convert hall using 2
  · rfl
  · exact List.map_id _

/-- The rows of a batch: some are refused before it is sent, and the loop and what follows it end the others. -/
theorem settled_batch {picked : List ((Row × ℕ) × End)} {prepared : List (Row × Value)} {refused : List (Row × String)}
    (hattempt : attempt (scheduleItem lib · config) batch = (prepared, refused)) {counts : ScheduleCounts}
    {sent : List RunError} (hsent : counts.total = before.schedule.total + refused.length)
    (hrefused : sent = before.errors ++ refused.map fun (row, code) =>
      ⟨some row.source.externalID, "schedule", code, false⟩)
    (hh : Handled (prepared.map (·.1)) ⟨counts, sent, [], []⟩ h picked strays errors)
    (htotal : after.schedule.total = h.counts.total + (missingEnds (prepared.map (·.1)) h.handledIndexes).length)
    (herrors : after.errors = h.errors ++ missingResults (prepared.map (·.1)) h.handledIndexes) :
    ∃ ends strays errors, Settled lib config batch before after h.scheduled ends strays errors := by
  have hbatch := @attempt_perm _ _ (scheduleItem lib · config) batch
  rw [hattempt] at hbatch
  have honce := hh.once
  have hlength : picked.length + (missingEnds (prepared.map (·.1)) h.handledIndexes).length = prepared.length := by
    have h := honce.length_eq
    rwa [List.length_map, List.length_append, List.length_map, List.length_map] at h
  have hsize : prepared.length + refused.length = batch.length := by
    have h := hbatch.length_eq
    rwa [List.length_append, List.length_map, List.length_map] at h
  refine ⟨(refused.map fun x => (x.1, End.tooLarge x.2)) ++
    ((picked.map fun x => (x.1.1, x.2)) ++ missingEnds (prepared.map (·.1)) h.handledIndexes), strays,
    (refused.map fun (row, code) => ⟨some row.source.externalID, "schedule", code, false⟩) ++ errors ++
      missingResults (prepared.map (·.1)) h.handledIndexes, ?_⟩
  have hrefusedEnds : (refused.map fun x => (x.1, End.tooLarge x.2)).filterMap End.error? =
      refused.map fun (row, code) => (⟨some row.source.externalID, "schedule", code, false⟩ : RunError) := by
    rw [List.filterMap_map]
    exact congrFun List.filterMap_eq_map refused
  have hrefusedScheduled : (refused.map fun x => (x.1, End.tooLarge x.2)).filterMap End.scheduled? = [] := by
    refine List.filterMap_eq_nil_iff.2 fun x hx => ?_
    obtain ⟨y, -, rfl⟩ := List.mem_map.1 hx
    rfl
  exact {
    once := by
      rw [List.map_append, List.map_map]
      exact (honce.append_left _).trans (List.perm_append_comm.trans hbatch)
    refused := by
      intro row code hmem
      rcases List.mem_append.1 hmem with hmem | hmem
      · obtain ⟨x, hx, heq⟩ := List.mem_map.1 hmem
        obtain ⟨rfl, hcode⟩ := Prod.mk.inj heq
        obtain rfl := End.tooLarge.inj hcode
        exact @attempt_refused _ _ (scheduleItem lib · config) batch x (by rw [hattempt]; exact hx)
      · rcases List.mem_append.1 hmem with hmem | hmem
        · obtain ⟨x, hx, heq⟩ := List.mem_map.1 hmem
          exact absurd (Prod.mk.inj heq).2 (hh.sent x hx code)
        · obtain ⟨row', -, heq⟩ := List.mem_map.1 hmem
          cases heq
    handedOn := by
      rw [List.filterMap_append, List.filterMap_append, hrefusedScheduled, filterMap_missingEnds, List.append_nil,
        List.nil_append, List.filterMap_map]
      exact hh.scheduled
    appended := by
      rw [herrors, hh.appended]
      change sent ++ errors ++ _ = _
      rw [hrefused, List.append_assoc, List.append_assoc, List.append_assoc]
    reported := by
      rw [List.filterMap_append, List.filterMap_append, hrefusedEnds, ← missingResults_eq, List.filterMap_map,
        List.append_assoc, List.append_assoc]
      refine List.Perm.append_left _ ((hh.reported.append_right _).trans ?_)
      rw [List.append_assoc, List.append_assoc]
      exact List.Perm.append_left _ List.perm_append_comm
    total := by
      have hhandled : h.counts.total = counts.total + picked.length + strays := hh.total
      rw [htotal, hhandled, hsent, ← hsize, ← hlength]
      omega }

/-- One batch after the other. -/
theorem Settled.append (h : Settled lib config eligible before after scheduled ends strays errors)
    (h' : Settled lib config eligible' after last scheduled' ends' strays' errors') :
    Settled lib config (eligible ++ eligible') before last (scheduled ++ scheduled') (ends ++ ends')
      (strays + strays') (errors ++ errors') where
  once := by
    rw [List.map_append]
    exact h.once.append h'.once
  refused := fun row code hmem => (List.mem_append.1 hmem).elim (h.refused row code) (h'.refused row code)
  handedOn := by
    rw [List.filterMap_append]
    exact h.handedOn.append h'.handedOn
  appended := by rw [h'.appended, h.appended, List.append_assoc]
  reported := by
    refine (h.reported.append h'.reported).trans ?_
    rw [List.filterMap_append, ← List.replicate_append_replicate, List.append_assoc, List.append_assoc]
    refine List.Perm.append_left _ ?_
    rw [← List.append_assoc, ← List.append_assoc]
    exact List.Perm.append_right _ List.perm_append_comm
  total := by
    rw [h'.total, h.total, List.length_append]
    omega

theorem Settled.nil : Settled lib config [] before before [] [] 0 [] where
  once := List.Perm.refl _
  refused := fun _ _ h => nomatch h
  handedOn := List.Perm.refl _
  appended := (List.append_nil _).symm
  reported := List.Perm.refl _
  total := rfl

/-! ## The phase -/

theorem scheduleResults_ok (h : IsSchedule fields) :
    ∃ results, scheduleResults fields = .ok results ∧ ∀ r ∈ results, IsEntry r := by
  have hnone : ∀ v : Value, v = .none → (v.orElse (.list [])).iter = .ok [] := by
    rintro _ rfl
    rfl
  have hmember : ∀ members : List (String × Value), (∀ v, members.lookup "results" = some v →
      v = .none ∨ ∃ results, v = .list results ∧ ∀ r ∈ results, IsEntry r) →
      ∃ results, (((members.lookup "results").getD .none).orElse (.list [])).iter = .ok results ∧
        ∀ r ∈ results, IsEntry r := by
    intro members hmembers
    cases hlookup : members.lookup "results" with
    | none => exact ⟨[], rfl, nofun⟩
    | some v =>
      rcases hmembers v hlookup with rfl | ⟨results, rfl, hresults⟩
      · exact ⟨[], rfl, nofun⟩
      · cases results with
        | nil => exact ⟨[], rfl, nofun⟩
        | cons r results => exact ⟨r :: results, rfl, hresults⟩
  rw [scheduleResults, member]
  cases hdata : fields.lookup "data" with
  | none => exact ⟨[], rfl, nofun⟩
  | some v =>
    rcases h.data v hdata with rfl | ⟨members, rfl⟩
    · exact ⟨[], rfl, nofun⟩
    · cases members with
      | nil => exact ⟨[], rfl, nofun⟩
      | cons x members => exact hmember (x :: members) (h.results (x :: members) hdata)

section Phase

variable {O S : Type} {exec : (cmd : Cmd) → O → S → Option (Resp cmd × S)} {P : List (String × Value) → Prop}
variable {E : PyErr → Prop} {α β : Type} {l : Locals} {s : S}

/-- A request is answered with an object in `P`, or fails with an error in `E`. -/
def Responds (lib : Library) (exec : (cmd : Cmd) → O → S → Option (Resp cmd × S)) (P : List (String × Value) → Prop)
    (E : PyErr → Prop) : Prop :=
  ∀ client path payload s, Prog.wp exec (Raise.Post (fun fields _ => P fields) fun e _ => E e)
    (post lib client path payload) s

theorem wp_call_bind {r : Except Raised α} {f : α → Body β} {Q : Except PyErr β → Locals → S → Prop}
    (hok : ∀ a, r = .ok a → Coroutine.wp exec Q (f a) l s) (herror : ∀ e, r = .error e → ∀ e' s', Q (.error e') l s') :
    Coroutine.wp exec Q (call r >>= f) l s := by
  refine Coroutine.wp_bind (Coroutine.wp_await ?_)
  cases r with
  | ok a => exact hok a rfl
  | error e =>
    refine Raise.wp_ask_bind.2 fun o answer s' _ => ?_
    cases answer with
    | ok never => exact nomatch never
    | error e' => exact herror e rfl e' s'

/-- What a part of the phase does with its rows. -/
def Settles (lib : Library) (config : Config) (E : PyErr → Prop) (eligible : List Row) (before : Summary) :
    Except PyErr (List Scheduled) → Locals → S → Prop
  | .ok scheduled, l, _ =>
    ∃ ends strays errors, Settled lib config eligible before l.summary scheduled ends strays errors
  | .error e, _, _ => E e

/-- A batch settles its rows; its responses make it raise only if they have another shape. -/
theorem wp_scheduleBatch (hresponds : Responds lib exec P E) (hshape : (∀ e, E e) ∨ ∀ fields, P fields → IsSchedule fields) :
    Coroutine.wp exec (Settles lib config E batch l.summary) (scheduleBatch lib config client batch) l s := by
  unfold scheduleBatch
  cases hattempt : attempt (scheduleItem lib · config) batch with
  | mk prepared refused =>
    dsimp only
    refine Coroutine.wp_bind (Coroutine.wp_assign.2 ?_)
    dsimp only [Raise.Post]
    split
    · rename_i hempty
      obtain rfl := List.isEmpty_iff.1 hempty
      refine Coroutine.wp_pure.2 ?_
      have hh := @Handled.init [] { l.summary.schedule with skipped := l.summary.schedule.skipped + refused.length }
        (l.summary.errors ++ refused.map fun (row, code) => ⟨some row.source.externalID, "schedule", code, false⟩)
      refine settled_batch hattempt ?_ rfl hh rfl (List.append_nil _).symm
      simp only [ScheduleCounts.total]
      omega
    · refine Coroutine.wp_bind (Coroutine.wp_assign.2 ?_)
      dsimp only [Raise.Post]
      refine Coroutine.wp_bind (Coroutine.wp_await (Prog.wp_mono (fun r s' hr => ?_) (hresponds ..)))
      cases r with
      | error e => exact hr
      | ok response =>
        refine wp_call_bind (fun results hresults => ?_) fun e he e' s' => ?_
        · refine Coroutine.wp_bind (Coroutine.wp_locals.2 ?_)
          dsimp only [Raise.Post]
          refine wp_call_bind (fun h hloop => ?_) fun e he e' s' => ?_
          · refine Coroutine.wp_bind (Coroutine.wp_assign.2 ?_)
            dsimp only [Raise.Post]
            refine Coroutine.wp_pure.2 ?_
            obtain ⟨picked, strays, errors, hh⟩ := handled_foldlM hloop
            refine settled_batch hattempt ?_ rfl hh ?_ rfl
            · simp only [ScheduleCounts.total]
              omega
            · rw [← length_missingResults]
              exact (Nat.add_assoc ..).symm
          · rcases hshape with hany | hshape
            · exact hany e'
            · obtain ⟨results', hok, hentries⟩ := scheduleResults_ok (hshape response hr)
              obtain rfl := Except.ok.inj (hresults.symm.trans hok)
              obtain ⟨h, hloop⟩ := exists_foldlM_ok (fun r hr _ => handleResult_ok (hentries r hr)) _
              exact absurd (he.symm.trans hloop) nofun
        · rcases hshape with hany | hshape
          · exact hany e'
          · obtain ⟨results, hok, -⟩ := scheduleResults_ok (hshape response hr)
            exact absurd (he.symm.trans hok) nofun

/-- The loop over the batches settles the rows of all. -/
theorem wp_scheduleBatches (hresponds : Responds lib exec P E)
    (hshape : (∀ e, E e) ∨ ∀ fields, P fields → IsSchedule fields) (batches : List (List Row)) :
    Coroutine.wp exec (Settles lib config E batches.flatten l.summary)
      (extendEach (scheduleBatch lib config client) batches) l s := by
  induction batches generalizing l s with
  | nil => exact ⟨[], 0, [], .nil⟩
  | cons batch batches ih =>
    rw [extendEach]
    refine Coroutine.wp_bind (Coroutine.wp_mono (fun r l₁ s₁ hr => ?_) (wp_scheduleBatch hresponds hshape))
    cases r with
    | error e => exact hr
    | ok scheduled =>
      obtain ⟨ends, strays, errors, hsettled⟩ := hr
      refine Coroutine.wp_bind (Coroutine.wp_mono (fun r l₂ s₂ hr => ?_) ih)
      cases r with
      | error e => exact hr
      | ok scheduled' =>
        obtain ⟨ends', strays', errors', hsettled'⟩ := hr
        exact ⟨_, _, _, hsettled.append hsettled'⟩

end Phase

/-! ## Environments -/

/-- Nothing fails, and the provider's objects have the shape of a response to a schedule request. -/
def IsPolite (o : Oracle) : Prop :=
  o.fault = none ∧ ∀ statusCode fields, o.http = some ⟨statusCode, some (.dict fields)⟩ → IsSchedule fields

open scoped Classical in
/-- An environment in which nothing but a request to the provider fails. -/
noncomputable def politely (cmd : Cmd) (o : Oracle) (w : World) : Option (Resp cmd × World) :=
  if IsPolite o then cmd.exec o w else none

/-- The error is the client's own. -/
def IsSamora (e : PyErr) : Prop := ∃ statusCode code retryable, e = .samora statusCode code retryable

theorem responds_any : Responds lib Cmd.exec (fun _ => True) fun _ => True := by
  refine fun client path payload w => Prog.wp_mono (fun r w' _ => ?_) Prog.wp_true
  cases r <;> trivial

theorem politely_eq {cmd : Cmd} {o : Oracle} {w w' : World} {r : Resp cmd} (h : politely cmd o w = some (r, w')) :
    IsPolite o ∧ cmd.exec o w = some (r, w') := by
  unfold politely at h
  split at h
  · exact ⟨‹_›, h⟩
  · cases h

theorem wp_postAttempts {path : String} {payload : Value} {n : ℕ} {lastError : Option PyErr} {w : World}
    (hlast : ∀ e, lastError = some e → IsSamora e) :
    Prog.wp politely (Raise.Post (fun fields _ => IsSchedule fields) fun e _ => IsSamora e)
      (postAttempts client path payload n lastError) w := by
  induction n generalizing lastError w with
  | zero =>
    refine Raise.wp_throw.2 ?_
    cases lastError with
    | none => exact ⟨_, _, _, rfl⟩
    | some e => exact hlast e rfl
  | succ n ih =>
    have hagain : ∀ (w : World) (e : PyErr), IsSamora e →
        Prog.wp politely (Raise.Post (fun fields _ => IsSchedule fields) fun e _ => IsSamora e)
          (Raise.ask Cmd.sleep >>= fun _ => postAttempts client path payload n (some e) : Py _) w := by
      intro w e he
      refine Raise.wp_ask_bind.2 fun o r w' hexec => ?_
      obtain ⟨hpolite, hexec⟩ := politely_eq hexec
      rw [Cmd.exec, hpolite.1] at hexec
      obtain ⟨rfl, rfl⟩ := Prod.mk.inj (Option.some.inj hexec)
      exact ih fun e' he' => Option.some.inj he' ▸ he
    unfold postAttempts
    refine Raise.wp_ask_bind.2 fun o r w' hexec => ?_
    obtain ⟨hpolite, hexec⟩ := politely_eq hexec
    rw [Cmd.exec, hpolite.1] at hexec
    obtain ⟨rfl, rfl⟩ := Prod.mk.inj (Option.some.inj hexec)
    dsimp only [Raise.Post]
    cases hhttp : o.http with
    | none =>
      dsimp only
      split
      · exact ⟨_, _, _, rfl⟩
      · exact hagain _ _ ⟨_, _, _, rfl⟩
    | some response =>
      obtain ⟨statusCode, json⟩ := response
      dsimp only
      split
      · cases json with
        | none => exact ⟨_, _, _, rfl⟩
        | some v =>
          cases v with
          | dict fields => exact hpolite.2 statusCode fields hhttp
          | _ => exact ⟨_, _, _, rfl⟩
      · split
        · exact ⟨_, _, _, rfl⟩
        · exact hagain _ _ ⟨_, _, _, rfl⟩

theorem responds_politely : Responds lib politely IsSchedule IsSamora := by
  intro client path payload w
  rw [post]
  split
  · exact ⟨_, _, _, rfl⟩
  · exact wp_postAttempts nofun

/-- Whatever objects a lookup answers with, each submitted row is in one place. Whatever scheduling is
answered with, each eligible row comes to one end if the phase completes; and if the provider's objects
have the shape of responses, only its client keeps the phase from completing. -/
theorem rows_accounted (lib : Library) :
    (∀ (rows : List Row) (results : List Value), (∀ r ∈ results, IsEntry r) → ∃ outcomes eligible counts errors,
      lookupEligible lib rows (.list results) = .ok (eligible, counts, errors) ∧
        LookedUp lib rows results outcomes eligible counts errors) ∧
    ∀ (config : Config) (client : Client) (eligible : List Row) (l : Locals) (w : World),
      Coroutine.wp Cmd.exec (Settles lib config (fun _ => True) eligible l.summary)
        (extendEach (scheduleBatch lib config client) (eligible.toChunks batchSize)) l w ∧
      Coroutine.wp politely (Settles lib config IsSamora eligible l.summary)
        (extendEach (scheduleBatch lib config client) (eligible.toChunks batchSize)) l w := by
  refine ⟨fun rows results hresults => lookupEligible_ok hresults, fun config client eligible l w => ⟨?_, ?_⟩⟩
  · have h := @wp_scheduleBatches lib config client _ _ Cmd.exec _ _ l w responds_any (.inl fun _ => trivial)
      (eligible.toChunks batchSize)
    rwa [flatten_toChunks] at h
  · have h := @wp_scheduleBatches lib config client _ _ politely _ _ l w responds_politely (.inr fun _ h => h)
      (eligible.toChunks batchSize)
    rwa [flatten_toChunks] at h

end Recovery

end Stylme
