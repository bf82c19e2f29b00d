-- SUMMARY: A run keeps newer search outcomes as long as it marks no failure that a search has touched since it was listed.
import Stylme.Reconciler.System

/-!
# Search outcomes during a run

`run_reconciler` lists failures, works on them, and marks them as processed by
their identifiers, whatever their status is by then. A search that recovers or
reopens a listed failure in between is overwritten.
-/

namespace Stylme

open Conc Backend

namespace Reconciler

/-! ## Outcomes in the log -/

/-- The failure that an entry's search is about, with the status it wrote if it was answered. -/
def outcomeOf : LogEntry → Option (String × Option FailureStatus)
  | ⟨_, .recoverFailure queryHash _ _, .ok (some _), _⟩ => some (queryHash, some .recovered)
  | ⟨_, .recoverFailure queryHash _ _, _, _⟩ => some (queryHash, none)
  | ⟨_, .reopenFailure missed, .ok _, _⟩ => some (missed.queryHash, some .opened)
  | ⟨_, .reopenFailure missed, .error _, _⟩ => some (missed.queryHash, none)
  | _ => none

/-- The thread has been answered the failures it works on. -/
def lists (t : ℕ) : LogEntry → Bool
  | ⟨u, .findFailures _, .ok _, _⟩ => u = t
  | _ => false

/-- The status that the latest outcome for a query wrote, if it came after the
thread listed its failures and was answered. -/
def latestOutcome (t : ℕ) (log : List LogEntry) (queryHash : String) : Option FailureStatus :=
  (((log.takeWhile (¬ lists t ·)).filterMap outcomeOf).lookup queryHash).join

/-- Only this thread marks failures. -/
def alone (t : ℕ) (σ : State) : Step → Bool
  | .exec u _ =>
    match σ.next u with
    | some (_, .markProcessed _ _ _ _) => u = t
    | _ => true
  | _ => true

/-- No failure that the step marks has an outcome that came after it was listed. -/
def spares (σ : State) : Step → Bool
  | .exec u _ =>
    match σ.next u with
    | some (_, .markProcessed ids _ _ _) => σ.shared.failures.docs.all fun f =>
        f.id ∉ ids ∨ latestOutcome u σ.log f.queryHash = none
    | _ => true
  | _ => true

/-- Every failure has the status of its latest outcome, if that came after the
thread listed its failures. -/
def OutcomesKept (t : ℕ) (w : World) (log : List LogEntry) : Prop :=
  ∀ f ∈ w.failures, ∀ status, latestOutcome t log f.queryHash = some status → f.status = status

variable {lib : Library} {w w' w₀ : World} {σ : State} {o : Oracle} {t u : ℕ}
variable {log : List LogEntry} {queryHash : String}

/-! ## One step -/

section Cons

variable {e : LogEntry} {status : FailureStatus}

/-- An outcome that was there before the step. -/
theorem latestOutcome_cons (hnone : outcomeOf e = none)
    (h : latestOutcome t (e :: log) queryHash = some status) :
    latestOutcome t log queryHash = some status := by
  unfold latestOutcome at h
  by_cases hlists : lists t e
  · rw [List.takeWhile_cons_of_neg (by simpa using hlists)] at h
    cases h
  · rwa [List.takeWhile_cons_of_pos (by simpa using hlists), List.filterMap_cons_none hnone] at h

/-- The outcome of the step is the latest one for its query. -/
theorem latestOutcome_cons_of_outcome {s : Option FailureStatus} {k : String}
    (hsome : outcomeOf e = some (k, s)) :
    latestOutcome t (e :: log) queryHash =
      if queryHash = k then s else latestOutcome t log queryHash := by
  have hlists : ¬ lists t e := by
    obtain ⟨u, cmd, r, w⟩ := e
    cases cmd with
    | findFailures limit => cases hsome
    | _ => exact Bool.false_ne_true
  unfold latestOutcome
  rw [List.takeWhile_cons_of_pos (by simpa using hlists), List.filterMap_cons_some hsome]
  by_cases hk : queryHash = k
  · simp [hk]
  · have hbeq : (queryHash == k) = false := by simpa using hk
    simp [List.lookup_cons, hk, hbeq]

end Cons

variable {cmd : Cmd} {r : Resp cmd}

/-- The command is a search outcome for the query. -/
def Cmd.outcomeFor : Cmd → Option String
  | .recoverFailure queryHash _ _ => some queryHash
  | .reopenFailure missed => some missed.queryHash
  | _ => none

theorem outcomeOf_none (h : cmd.outcomeFor = none) : outcomeOf ⟨u, cmd, r, w⟩ = none := by
  cases cmd with
  | recoverFailure | reopenFailure => cases h
  | _ => rfl

/-- An outcome leaves the failures of other queries. -/
theorem exec_outcome_of_ne {f : Failure} (h : cmd.exec lib.forbiddenText o w = some (r, w'))
    (hcmd : cmd.outcomeFor = some queryHash) (hf : f ∈ w'.failures) (hne : f.queryHash ≠ queryHash) :
    f ∈ w.failures := by
  cases cmd with
  | recoverFailure hash resultCount time =>
    obtain rfl := Option.some.inj hcmd
    simp only [Cmd.exec] at h
    split at h
    · rename_i f₀ hfind
      obtain ⟨hf₀, hkey⟩ := Collection.find?_key_eq_some_iff.1 hfind
      rcases perform_state h with rfl | rfl
      · rcases (mem_put hf₀ (by rfl) (by rfl)).1 hf with rfl | ⟨hf, -⟩
        · exact absurd hkey hne
        · exact hf
      · exact hf
    · rwa [(respond_eq h).1] at hf
  | reopenFailure missed =>
    obtain rfl := Option.some.inj hcmd
    simp only [Cmd.exec] at h
    split at h
    · rename_i f₀ hfind
      obtain ⟨hf₀, hkey⟩ := Collection.find?_key_eq_some_iff.1 hfind
      rcases perform_state h with rfl | rfl
      · rcases (mem_put hf₀ (by rfl) (by rfl)).1 hf with rfl | ⟨hf, -⟩
        · exact absurd hkey hne
        · exact hf
      · exact hf
    · split at h
      · split at h
        · rename_i failures hinsert
          rcases perform_state h with rfl | rfl
          · rcases (Collection.mem_insertOne hinsert).1 hf with rfl | hf
            · exact absurd rfl hne
            · exact hf
          · exact hf
        · cases h
      · cases h
  | _ => cases hcmd

/-- An answered outcome has written its status. -/
theorem exec_outcome {status : FailureStatus} {f : Failure}
    (h : cmd.exec lib.forbiddenText o w = some (r, w'))
    (hsome : outcomeOf ⟨u, cmd, r, w'⟩ = some (queryHash, some status)) (hf : f ∈ w'.failures)
    (hkey : f.queryHash = queryHash) : f.status = status := by
  cases cmd with
  | recoverFailure hash resultCount time =>
    cases r with
    | error e => cases hsome
    | ok answer =>
      cases answer with
      | none => cases hsome
      | some f' =>
        obtain ⟨rfl, hstatus⟩ := Prod.mk.inj (Option.some.inj hsome)
        obtain rfl := Option.some.inj hstatus
        simp only [Cmd.exec] at h
        split at h
        · rename_i f₀ hfind
          obtain ⟨hf₀, hkey₀⟩ := Collection.find?_key_eq_some_iff.1 hfind
          obtain ⟨-, rfl⟩ := perform_ok h
          rcases (mem_put hf₀ (by rfl) (by rfl)).1 hf with rfl | ⟨hf, hne⟩
          · rfl
          · exact absurd (congrArg _ (Collection.eq_of_key_eq hf hf₀ (hkey.trans hkey₀.symm))) hne
        · cases respond_ok h
  | reopenFailure missed =>
    cases r with
    | error e => cases hsome
    | ok answer =>
      obtain ⟨rfl, hstatus⟩ := Prod.mk.inj (Option.some.inj hsome)
      obtain rfl := Option.some.inj hstatus
      simp only [Cmd.exec] at h
      split at h
      · rename_i f₀ hfind
        obtain ⟨hf₀, hkey₀⟩ := Collection.find?_key_eq_some_iff.1 hfind
        obtain ⟨-, rfl⟩ := perform_ok h
        rcases (mem_put hf₀ (by rfl) (by rfl)).1 hf with rfl | ⟨hf, hne⟩
        · rfl
        · exact absurd (congrArg _ (Collection.eq_of_key_eq hf hf₀ (hkey.trans hkey₀.symm))) hne
      · rename_i hfind
        split at h
        · split at h
          · rename_i failures hinsert
            obtain ⟨-, rfl⟩ := perform_ok h
            rcases (Collection.mem_insertOne hinsert).1 hf with rfl | hf
            · rfl
            · exact (Collection.find?_none hfind hf (decide_eq_true hkey)).elim
          · cases h
        · cases h
  | _ => cases hsome

/-- An outcome has an entry of its query. -/
theorem exists_outcomeOf (h : cmd.outcomeFor = some queryHash) :
    ∃ s, outcomeOf ⟨u, cmd, r, w⟩ = some (queryHash, s) := by
  cases cmd with
  | recoverFailure hash resultCount time =>
    obtain rfl := Option.some.inj h
    cases r with
    | error e => exact ⟨none, rfl⟩
    | ok answer => cases answer <;> exact ⟨_, rfl⟩
  | reopenFailure missed =>
    obtain rfl := Option.some.inj h
    cases r <;> exact ⟨_, rfl⟩
  | _ => cases h

/-! ## Runs -/

theorem OutcomesKept.outcome (h : OutcomesKept t w log) (hcmd : cmd.outcomeFor = some queryHash)
    (hexec : cmd.exec lib.forbiddenText o w = some (r, w')) :
    OutcomesKept t w' (⟨u, cmd, r, w'⟩ :: log) := by
  obtain ⟨s, hs⟩ := exists_outcomeOf (u := u) (r := r) (w := w') hcmd
  intro f hf status hlatest
  rw [latestOutcome_cons_of_outcome hs] at hlatest
  split at hlatest
  · rename_i hkey
    subst hlatest
    exact exec_outcome hexec hs hf hkey
  · rename_i hne
    exact h f (exec_outcome_of_ne hexec hcmd hf hne) status hlatest

theorem OutcomesKept.marked {ids : List ObjectId} {runID : String} {graphVersion : Int} {time : Time}
    {r : Resp (.markProcessed ids runID graphVersion time)} (h : OutcomesKept t w log)
    (hspares : ∀ f ∈ w.failures, f.id ∈ ids → latestOutcome t log f.queryHash = none)
    (hexec : (Cmd.markProcessed ids runID graphVersion time).exec lib.forbiddenText o w = some (r, w')) :
    OutcomesKept t w' (⟨u, .markProcessed ids runID graphVersion time, r, w'⟩ :: log) := by
  intro f hf status hlatest
  replace hlatest := latestOutcome_cons rfl hlatest
  rcases perform_state hexec with rfl | rfl
  · obtain ⟨f, hmem, rfl⟩ := List.mem_map.1 hf
    rw [Failure.marked_queryHash] at hlatest
    have hids : f.id ∉ ids := by
      intro hid
      rw [hspares f hmem hid] at hlatest
      cases hlatest
    rw [Failure.marked, if_neg hids]
    exact h f hmem status hlatest
  · exact h f hf status hlatest

theorem OutcomesKept.other (h : OutcomesKept t w log) (hcmd : cmd.outcomeFor = none)
    (htarget : cmd.target ≠ .failures) (hexec : cmd.exec lib.forbiddenText o w = some (r, w')) :
    OutcomesKept t w' (⟨u, cmd, r, w'⟩ :: log) := by
  intro f hf status hlatest
  rw [(exec_frame hexec).failures htarget] at hf
  exact h f hf status (latestOutcome_cons (outcomeOf_none hcmd) hlatest)

/-- Failures expire, and nothing else happens to them in between. -/
theorem Env.apply_failures {e : Env} {f : Failure} (hf : f ∈ (e.apply w).failures) :
    f ∈ w.failures := by
  cases e with
  | expireFailure id => exact (Collection.mem_delete.1 hf).1
  | _ => exact hf

/-- In every run in which the run marks no failure with an outcome that came after
it listed its failures, every failure has the status of its latest outcome. -/
theorem keepsOutcomes
    (h : (backend lib).Reach (fun σ l => alone t σ l ∧ spares σ l) (Pool.init w₀) σ) :
    OutcomesKept t σ.shared σ.log := by
  refine invariant (I := fun cfg => OutcomesKept t cfg.shared cfg.log) ?_ ?_ ?_ h
  · intro f hf status hlatest
    cases hlatest
  · intro cfg cfg' hI hidle f hf status hlatest
    rw [hidle.log] at hlatest
    rcases hidle.shared with hshared | ⟨e, hshared⟩
    · exact hI f (hshared ▸ hf) status hlatest
    · exact hI f (Env.apply_failures (hshared ▸ hf)) status hlatest
  · intro ρ u o op l cmd r w hok hI hnext ht hpermits hexec
    cases houtcome : cmd.outcomeFor with
    | some hash => exact OutcomesKept.outcome hI houtcome hexec
    | none =>
      by_cases htarget : cmd.target = .failures
      · cases cmd with
        | markProcessed ids runID graphVersion time =>
          simp only [alone, spares, hnext, decide_eq_true_eq, List.all_eq_true, Bool.decide_or,
            Bool.or_eq_true] at hok
          obtain ⟨rfl, hspares⟩ := hok
          exact OutcomesKept.marked hI (fun f hf hmem => (hspares f hf).resolve_left (absurd hmem)) hexec
        | recoverFailure | reopenFailure => cases houtcome
        | _ => cases htarget
      · exact OutcomesKept.other hI houtcome htarget hexec

end Reconciler

/-! ## A search during a run -/

namespace Sample

namespace Reconciler

def failure : Stylme.Reconciler.Failure where
  id := 5
  queryHash := "saree"
  query := "saree"
  normalizedQuery := "saree"
  source := "search"
  status := .opened
  occurrences := 1
  zeroResultCount := 1
  successfulRetries := 0
  firstSeenAt := 0
  lastSeenAt := 0
  lastResultCount := 0
  lastFallbackCount := 0
  lastFallbackLevel := none
  context := []
  expiresAt := 1
  recoveredAt := none
  processedAt := none
  lastRunID := none
  lastGraphVersion := none
  updatedAt := 0

/-- The store with one open failure. -/
def failing : Stylme.Reconciler.World :=
  { world with failures := ⟨[failure], by decide +kernel, by decide +kernel⟩ }

def search (query : String) (resultCount : ℕ) : Stylme.Reconciler.Op :=
  .recordSearchOutcome ⟨query, resultCount, "search", [], [], 0, none⟩

/-- A run, and a search once the run has listed its failures. -/
def searched (query : String) (resultCount : ℕ) : List Stylme.Reconciler.Step :=
  [.spawn 0 run, .spawn 1 (search query resultCount)] ++ execs 0 5 ++ execs 1 1 ++
    [.exec 1 { objectIDs := [9] }] ++ runSteps 0 7

/-- The run has returned. -/
def returned (σ : Stylme.Reconciler.State) : Bool :=
  match σ.result 0 with
  | some (_, .run (.ok _)) => true
  | _ => false

end Reconciler

end Sample

namespace Reconciler

/-- The run completes, and the new failure of another query stays open. -/
theorem keepsOutcomes_sample :
    ∃ σ, (backend Sample.Reconciler.library).Reach (fun σ l => alone 0 σ l ∧ spares σ l)
        (Pool.init Sample.Reconciler.failing) σ ∧
      (σ.result 0).isSome ∧ latestOutcome 0 σ.log "kurta" = some .opened ∧
      OutcomesKept 0 σ.shared σ.log := by
  have hrun : ((backend Sample.Reconciler.library).runWhere (fun σ l => alone 0 σ l ∧ spares σ l)
      (Sample.Reconciler.searched "kurta" 0) (Pool.init Sample.Reconciler.failing)).any
        fun σ => (σ.result 0).isSome && latestOutcome 0 σ.log "kurta" = some .opened := by
    decide +kernel
  obtain ⟨σ, hreach, hdone⟩ := System.Reach.exists_of_any hrun
  rw [Bool.and_eq_true] at hdone
  exact ⟨σ, hreach, hdone.1, of_decide_eq_true hdone.2, keepsOutcomes hreach⟩

/-- The run marks the failure of a query that has been answered in the meantime. -/
theorem not_keepsOutcomes :
    ¬ ∀ (w₀ : World) (σ : State),
      (backend Sample.Reconciler.library).Reach (fun σ l => alone 0 σ l) (Pool.init w₀) σ →
      (∃ op r, σ.result 0 = some (op, .run (.ok r))) → OutcomesKept 0 σ.shared σ.log := by
  intro h
  have hrun : ((backend Sample.Reconciler.library).runWhere (fun σ l => alone 0 σ l)
      (Sample.Reconciler.searched "saree" 3) (Pool.init Sample.Reconciler.failing)).any fun σ =>
        Sample.Reconciler.returned σ && σ.shared.failures.docs.any fun f =>
          f.status = .processed ∧ latestOutcome 0 σ.log f.queryHash = some .recovered := by
    decide +kernel
  obtain ⟨σ, hreach, hdone⟩ := System.Reach.exists_of_any hrun
  rw [Bool.and_eq_true] at hdone
  obtain ⟨hok, hlost⟩ := hdone
  unfold Sample.Reconciler.returned at hok
  split at hok <;> [skip; cases hok]
  rename_i op r hres
  obtain ⟨f, hf, hlost⟩ := List.any_eq_true.1 hlost
  obtain ⟨hstatus, hlatest⟩ := of_decide_eq_true hlost
  have hkept := h _ σ hreach ⟨op, r, hres⟩ f hf .recovered hlatest
  rw [hstatus] at hkept
  cases hkept

end Reconciler

end Stylme
