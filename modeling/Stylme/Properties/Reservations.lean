-- SUMMARY: In every run one request for an input is told to process, one finishes the run, and what drafts and shoppers show comes from a completed run.
import Stylme.Backend.Reservations

/-!
# Reserved once, finished once

Runs are never deleted, a run that is final never changes, and its identifier is never used again.
The retry of `reserve_appearance` would break the second of these, but the document that it sets has
the identifier of the refused insertion, which the server does not let it write.
-/

namespace Stylme

open Conc Backend

namespace Reservations

variable {w w' w'' : World} {purpose : Purpose} {cmd : Cmd} {o : Oracle} {r : Resp cmd}

/-! ## Worlds -/

/-- The run has the same identifier and comes from the same reservation. -/
structure Run.Same (run run' : Run) : Prop where
  id : run.id = run'.id
  reservation : run.toReservation = run'.toReservation

theorem Run.Same.refl {run : Run} : run.Same run := ⟨rfl, rfl⟩

theorem Run.Same.trans {a b c : Run} (h : a.Same b) (h' : b.Same c) : a.Same c :=
  ⟨h.id.trans h'.id, h.reservation.trans h'.reservation⟩

/-- What happens to the runs: each is kept, unchanged once it is final, and the identifier of a new
one is new. -/
structure Grows (w w' : World) : Prop where
  kept : ∀ purpose, ∀ run ∈ w.runs purpose, ∃ run' ∈ w'.runs purpose, run'.Same run
  final : ∀ purpose, ∀ run ∈ w.runs purpose, run.state.final → run ∈ w'.runs purpose
  issued : ∀ id ∈ w.issued, id ∈ w'.issued
  fresh : ∀ purpose, ∀ run' ∈ w'.runs purpose, (∃ run ∈ w.runs purpose, run.id = run'.id) ∨ run'.id ∉ w.issued

theorem Grows.of_runs (hruns : w'.runs = w.runs) (hissued : ∀ id ∈ w.issued, id ∈ w'.issued) : Grows w w' where
  kept _ run hrun := ⟨run, hruns ▸ hrun, .refl⟩
  final _ _ hrun _ := hruns ▸ hrun
  issued := hissued
  fresh _ run' hrun' := .inl ⟨run', hruns ▸ hrun', rfl⟩

theorem Grows.refl : Grows w w := .of_runs rfl fun _ hid => hid

theorem Grows.trans (h : Grows w w') (h' : Grows w' w'') : Grows w w'' where
  kept purpose run hrun := by
    obtain ⟨run', hrun', hsame⟩ := h.kept purpose run hrun
    obtain ⟨run'', hrun'', hsame'⟩ := h'.kept purpose run' hrun'
    exact ⟨run'', hrun'', hsame'.trans hsame⟩
  final purpose run hrun hfinal := h'.final purpose run (h.final purpose run hrun hfinal) hfinal
  issued id hid := h'.issued id (h.issued id hid)
  fresh purpose run'' hrun'' := by
    rcases h'.fresh purpose run'' hrun'' with ⟨run', hrun', hid⟩ | hnew
    · rcases h.fresh purpose run' hrun' with ⟨run, hrun, hid'⟩ | hnew
      · exact .inl ⟨run, hrun, hid'.trans hid⟩
      · exact .inr (hid ▸ hnew)
    · exact .inr fun hid => hnew (h.issued _ hid)

/-! ## Commands -/

/-- The runs after one collection was written. -/
theorem mem_setRuns {runs : Runs} {p : Purpose} {run : Run} :
    run ∈ (w.setRuns purpose runs).runs p ↔ if p = purpose then run ∈ runs else run ∈ w.runs p := by
  by_cases hp : p = purpose
  · subst hp
    simp [World.setRuns]
  · simp [World.setRuns, hp]

theorem not_mem_of_fresh {id : ObjectId} (h : w.fresh id) {run : Run} (hrun : run ∈ w.runs purpose) : run.id ≠ id := by
  obtain ⟨-, hlisting, happearance⟩ := of_decide_eq_true h
  rintro rfl
  cases purpose with
  | listing => exact hlisting (List.any_eq_true.2 ⟨run, hrun, decide_eq_true rfl⟩)
  | appearance => exact happearance (List.any_eq_true.2 ⟨run, hrun, decide_eq_true rfl⟩)

/-- The insertion of a run. -/
theorem grows_insertOne {reservation : Reservation} {id : ObjectId} {runs : Runs} (hfresh : w.fresh id)
    (h : (w.runs purpose).insertOne (reservation.run id) = some runs) :
    Grows w ({ w with issued := id :: w.issued }.setRuns purpose runs) := by
  have hmem : ∀ {p run}, run ∈ ({ w with issued := id :: w.issued }.setRuns purpose runs).runs p ↔
      run ∈ w.runs p ∨ p = purpose ∧ run = reservation.run id := by
    intro p run
    rw [mem_setRuns]
    split
    · rename_i hp
      subst hp
      rw [Collection.mem_insertOne h]
      tauto
    · rename_i hp
      simp [hp]
  refine ⟨fun p run hrun => ⟨run, hmem.2 (.inl hrun), .refl⟩, fun p run hrun _ => hmem.2 (.inl hrun),
    fun id hid => List.mem_cons_of_mem _ hid, fun p run' hrun' => ?_⟩
  rcases hmem.1 hrun' with hold | ⟨-, rfl⟩
  · exact .inl ⟨run', hold, rfl⟩
  · exact .inr (of_decide_eq_true hfresh).1

/-- The update of a reserved run. -/
theorem grows_finish {id : ObjectId} {owner : Option ObjectId} (state : RunState) (time : Time) {run : Run}
    (h : w.reserved? purpose id owner = some run) :
    Grows w (w.setRuns purpose ((w.runs purpose).updateAll (Run.finishWith id state time)
      (fun _ => Run.finishWith_id) fun _ => congrArg Reservation.key Run.finishWith_toReservation)) := by
  obtain ⟨hget, hreserved⟩ := Option.filter_eq_some_iff.1 h
  obtain ⟨hrun, hid⟩ := Collection.get_eq_some_iff.1 hget
  have hsame : ∀ {run : Run}, (run.finishWith id state time).Same run :=
    ⟨Run.finishWith_id, Run.finishWith_toReservation⟩
  refine ⟨fun p old hold => ?_, fun p old hold hfinal => ?_, fun _ hid => hid, fun p new hnew => ?_⟩
  · by_cases hp : p = purpose
    · subst hp
      exact ⟨old.finishWith id state time, mem_setRuns.2 (by
        rw [if_pos rfl]
        exact Collection.mem_updateAll.2 ⟨old, hold, rfl⟩), hsame⟩
    · exact ⟨old, mem_setRuns.2 (by rwa [if_neg hp]), .refl⟩
  · refine mem_setRuns.2 ?_
    split
    · rename_i hp
      subst hp
      refine Collection.mem_updateAll.2 ⟨old, hold, ?_⟩
      -- the run that is updated is not final
      have hne : old.id ≠ id := fun heq => by
        obtain rfl := (w.runs p).eq_of_id_eq hold hrun (heq.trans hid.symm)
        exact (of_decide_eq_true hreserved).1 hfinal
      rw [Run.finishWith, if_neg hne]
    · exact hold
  · have hnew := mem_setRuns.1 hnew
    split at hnew
    · rename_i hp
      subst hp
      obtain ⟨old, hold, rfl⟩ := Collection.mem_updateAll.1 hnew
      exact .inl ⟨old, hold, hsame.id.symm⟩
    · exact .inl ⟨new, hnew, rfl⟩

/-! ## The protocol -/

/-- What a request has done and read. -/
structure Phase where
  /-- The run that it has inserted -/
  inserted : Option Run := none
  /-- The identifier of the document that the index has refused -/
  refused : Option ObjectId := none
  /-- A retry has succeeded. -/
  retried : Bool := false
  read : Option Run := none
  /-- The state that it has written, and the run with it -/
  finished : Option (RunState × Run) := none

/-- The owner that the run of a request has to have. -/
def Op.ownerID : Op → Option ObjectId
  | .completeAppearance userID _ _ | .failAppearance userID _ _ => some userID
  | _ => none

/-- The request has read its run and completed it with these. -/
def Phase.Completed (l : Phase) (run : Run) (completion : Completion) (time : Time) : Prop :=
  l.read = some run ∧ ∃ updated, l.finished = some (.completed completion time, updated)

/-- The commands of a request in a phase. -/
def Permits (op : Op) (l : Phase) : Cmd → Prop
  | .insertRun purpose _ => op.purpose = purpose ∧ op.runID = none ∧ l.inserted = none ∧ l.refused = none
  | .findRun purpose id owner => op.purpose = purpose ∧ op.runID = some id ∧ op.ownerID = owner
  | .finishRun purpose id _ state _ =>
    op.purpose = purpose ∧ op.runID = some id ∧ state.final ∧ l.finished = none
  | .retryRun _ _ document => l.refused = some document.id
  | .setProposal draftID proposal => op.purpose = .listing ∧ op.runID = some proposal.runID ∧
      ∃ run completion, l.Completed run completion proposal.generatedAt ∧ draftID = run.owner ∧
        proposal.inputHash = run.inputHash ∧ proposal.proposal = completion.proposal ∧
        proposal.confidence = completion.confidence
  | .setAppearanceProfile userID profile => op.purpose = .appearance ∧ op.runID = some profile.runID ∧
      op.ownerID = some userID ∧
      ∃ run completion, l.Completed run completion profile.updatedAt ∧ profile.inputHash = run.inputHash ∧
        profile.imageHashes = run.imageHashes ∧ profile.proposal = completion.proposal ∧
        profile.confidence = completion.confidence
  | _ => True

def next (l : Phase) : (cmd : Cmd) → Resp cmd → Phase
  | .insertRun _ reservation, .ok ⟨id, true⟩ => { l with inserted := some (reservation.run id) }
  | .insertRun _ _, .ok ⟨id, false⟩ => { l with refused := some id }
  | .findRun _ _ _, .ok run => { l with read := run }
  | .finishRun _ _ _ state _, .ok (some run) => { l with finished := some (state, run) }
  | .retryRun _ _ _, .ok (some _) => { l with retried := true }
  | _, _ => l

def Op.protocol (op : Op) : Protocol Cmd Resp Phase := ⟨Permits op, next⟩

/-- How a request ends: a reservation that is told to process has inserted or retried a run, and a
request that answers for its run has finished it. -/
structure Answers (op : Op) (l : Phase) (reply : RunPublic) : Prop where
  process : reply.shouldProcess → l.retried ∨
    ∃ run, l.inserted = some run ∧ reply.runID = run.id ∧ reply.reservation = run.toReservation
  finish : op.runID.isSome → ∃ state run, l.finished = some (state, run) ∧ reply = runPublic run false true

/-- The reply of a request that raises says nothing. -/
def Returns (op : Op) (l : Phase) (reply : Reply) : Prop := ∀ a, reply = .ok a → Answers op l a

section Conforms

variable {lib : Library} {op : Op} {l : Phase} {α β : Type}

/-- The coroutine ends in a phase with `Q`, whether it returns or raises. -/
abbrev Ends (op : Op) (Q : Phase → Prop) (l : Phase) (p : Py α) : Prop :=
  Prog.Conforms op.protocol (fun l' _ => Q l') l p

/-- A request goes on with a value as before. -/
abbrev Ended (op : Op) (l : Phase) (p : Py RunPublic) : Prop := Prog.Conforms op.protocol (Returns op) l p

theorem ended_throw {e : PyErr} : Ended op l (throw e : Py RunPublic) :=
  Raise.conforms_throw fun a h => by cases h

theorem ended_pure {a : RunPublic} (h : Answers op l a) : Ended op l (pure a : Py RunPublic) :=
  Raise.conforms_pure fun _ ha => Except.ok.inj ha ▸ h

theorem ended_ask_bind {c : Cmd} {f : Answer c → Py RunPublic} (hpermits : Permits op l c)
    (hf : ∀ a, Ended op (next l c (.ok a)) (f a)) : Ended op l (Raise.ask c >>= f) :=
  Raise.conforms_ask_bind hpermits hf fun e a h => by cases h

/-- A first part that leaves the phase as it is. -/
theorem ended_bind {p : Py α} {f : α → Py RunPublic} (hp : Ends op (· = l) l p) (hf : ∀ a, Ended op l (f a)) :
    Ended op l (p >>= f) := by
  refine Raise.conforms_bind hp ?_ fun _ _ _ a h => by cases h
  rintro _ a rfl
  exact hf a

theorem checkContract_ends {request : ReserveRequest} {version : ℕ} {contract : Contract} {label : String} :
    Ends op (· = l) l (checkContract request version contract label) := by
  unfold checkContract
  split
  · exact Raise.conforms_throw rfl
  split
  · exact Raise.conforms_throw rfl
  split
  · exact Raise.conforms_throw rfl
  · exact Raise.conforms_pure rfl

theorem assertDraftAccess_ends {draftID : String} : Ends op (· = l) l (assertDraftAccess lib draftID) := by
  unfold assertDraftAccess
  split
  · exact Raise.conforms_throw rfl
  · refine Raise.conforms_ask_bind trivial (fun draft => ?_) fun e => rfl
    cases draft with
    | none => exact Raise.conforms_throw rfl
    | some draft => exact Raise.conforms_ask_bind trivial (fun _ => Raise.conforms_pure rfl) fun e => rfl

theorem writeAudit_ends {action entityType : String} {id : ObjectId} :
    Ends op (· = l) l (writeAudit action entityType id) := by
  refine Raise.conforms_ask (c := Cmd.insertAudit ⟨action, entityType, id⟩) ?_ fun r => ?_
  · trivial
  · cases r <;> rfl

/-- A run that a request has inserted. -/
theorem answers_inserted {run : Run} (hinserted : l.inserted = some run) (hop : op.runID = none) :
    Answers op l (runPublic run true false) ∧ Answers op l (appearanceRunPublic run true) := by
  have hfinish : op.runID.isSome → False := fun h => by rw [hop] at h; cases h
  exact ⟨⟨fun _ => .inr ⟨run, hinserted, rfl, rfl⟩, fun h => (hfinish h).elim⟩,
    ⟨fun _ => .inr ⟨run, hinserted, rfl, rfl⟩, fun h => (hfinish h).elim⟩⟩

/-- A run that somebody else has reserved. -/
theorem answers_existing {run : Run} (hop : op.runID = none) : Answers op l (runPublic run false true) :=
  ⟨fun h => (by cases h), fun h => (by rw [hop] at h; cases h)⟩

/-- A run that a request has finished. -/
theorem answers_finished {state : RunState} {run : Run} (hfinished : l.finished = some (state, run)) :
    Answers op l (runPublic run false true) :=
  ⟨fun h => (by cases h), fun _ => ⟨state, run, hfinished, rfl⟩⟩

theorem reserveRun_ended {draftID kind : String} {request : ReserveRequest} {actor : ObjectId}
    (hop : op = .reserveRun draftID request kind actor) : Ended op {} (reserveRun lib draftID request kind actor) := by
  subst hop
  refine ended_bind assertDraftAccess_ends fun draft => ?_
  split
  · exact ended_throw
  refine ended_ask_bind trivial fun contract => ended_bind checkContract_ends fun _ => ?_
  refine ended_ask_bind trivial fun now => ended_ask_bind ⟨rfl, rfl, rfl, rfl⟩ fun insertion => ?_
  obtain ⟨id, inserted⟩ := insertion
  cases inserted with
  | true =>
    exact ended_bind writeAudit_ends fun _ => ended_pure (answers_inserted rfl rfl).1
  | false =>
    refine ended_ask_bind trivial fun existing => ?_
    cases existing with
    | none => exact ended_throw
    | some existing => exact ended_pure (answers_existing rfl)

theorem completeRun_ended {runID : ObjectId} {completion : Completion} (hop : op = .completeRun runID completion) :
    Ended op {} (completeRun lib runID completion) := by
  subst hop
  refine ended_ask_bind ⟨rfl, rfl, rfl⟩ fun found => ?_
  cases found with
  | none => exact ended_throw
  | some run =>
    refine ended_bind assertDraftAccess_ends fun draft => ?_
    split
    · exact ended_throw
    refine ended_ask_bind trivial fun now => ?_
    split
    · exact ended_ask_bind ⟨rfl, rfl, rfl, rfl⟩ fun _ => ended_throw
    refine ended_ask_bind trivial fun proposal => ended_ask_bind ⟨rfl, rfl, rfl, rfl⟩ fun updated => ?_
    cases updated with
    | none => exact ended_throw
    | some updated =>
      refine ended_ask_bind ⟨rfl, rfl, run, _, ⟨rfl, updated, rfl⟩, rfl, rfl, rfl, rfl⟩ fun _ => ?_
      exact ended_bind writeAudit_ends fun _ => ended_pure (answers_finished rfl)

theorem failRun_ended {runID : ObjectId} {failure : Failure} (hop : op = .failRun runID failure) :
    Ended op {} (failRun lib runID failure) := by
  subst hop
  refine ended_ask_bind ⟨rfl, rfl, rfl⟩ fun found => ?_
  cases found with
  | none => exact ended_throw
  | some run =>
    refine ended_bind assertDraftAccess_ends fun draft => ?_
    split
    · exact ended_throw
    refine ended_ask_bind trivial fun now => ended_ask_bind ⟨rfl, rfl, rfl, rfl⟩ fun updated => ?_
    cases updated with
    | none => exact ended_throw
    | some updated =>
      exact ended_bind writeAudit_ends fun _ => ended_pure (answers_finished rfl)

theorem reserveAppearance_ended {userID : ObjectId} {request : ReserveRequest} {imageHashes : List String}
    (hop : op = .reserveAppearance userID request imageHashes) :
    Ended op {} (reserveAppearance userID request imageHashes) := by
  subst hop
  refine ended_ask_bind trivial fun contract => ended_bind checkContract_ends fun _ => ?_
  refine ended_ask_bind trivial fun now => ended_ask_bind ⟨rfl, rfl, rfl, rfl⟩ fun insertion => ?_
  obtain ⟨id, inserted⟩ := insertion
  cases inserted with
  | true => exact ended_pure (answers_inserted rfl rfl).2
  | false =>
    refine ended_ask_bind trivial fun existing => ?_
    cases existing with
    | none => exact ended_throw
    | some existing =>
      dsimp only
      split
      · refine ended_ask_bind rfl fun updated => ?_
        cases updated with
        | none => exact ended_throw
        | some updated => exact ended_pure ⟨fun _ => .inl rfl, fun h => (by cases h)⟩
      · exact ended_pure (answers_existing rfl)

theorem completeAppearance_ended {userID runID : ObjectId} {completion : Completion}
    (hop : op = .completeAppearance userID runID completion) :
    Ended op {} (completeAppearance userID runID completion) := by
  subst hop
  refine ended_ask_bind ⟨rfl, rfl, rfl⟩ fun found => ?_
  cases found with
  | none => exact ended_throw
  | some run =>
    dsimp only
    split
    · exact ended_throw
    refine ended_ask_bind trivial fun proposal => ended_ask_bind trivial fun now => ?_
    refine ended_ask_bind ⟨rfl, rfl, rfl, rfl⟩ fun updated => ?_
    cases updated with
    | none => exact ended_throw
    | some updated =>
      refine ended_ask_bind ⟨rfl, rfl, rfl, run, _, ⟨rfl, updated, rfl⟩, rfl, rfl, rfl, rfl⟩ fun _ => ?_
      exact ended_bind writeAudit_ends fun _ => ended_pure (answers_finished rfl)

theorem failAppearance_ended {userID runID : ObjectId} {failure : Failure}
    (hop : op = .failAppearance userID runID failure) : Ended op {} (failAppearance userID runID failure) := by
  subst hop
  refine ended_ask_bind trivial fun now => ended_ask_bind ⟨rfl, rfl, rfl, rfl⟩ fun updated => ?_
  cases updated with
  | none => exact ended_throw
  | some updated => exact ended_pure (answers_finished rfl)

theorem Op.conforms (op : Op) : Prog.Conforms op.protocol (Returns op) {} (op.prog lib) := by
  cases op with
  | reserveRun draftID request kind actor => exact reserveRun_ended rfl
  | completeRun runID completion => exact completeRun_ended rfl
  | failRun runID failure => exact failRun_ended rfl
  | reserveAppearance userID request imageHashes => exact reserveAppearance_ended rfl
  | completeAppearance userID runID completion => exact completeAppearance_ended rfl
  | failAppearance userID runID failure => exact failAppearance_ended rfl

end Conforms

/-! ## What a request knows -/

variable {w₀ : World} {op op' : Op} {l l' : Phase}

/-- What holds of the store given what a request has done and read, in a run that began with `w₀`. -/
structure Knows (w₀ w : World) (op : Op) (l : Phase) : Prop where
  inserted : ∀ run, l.inserted = some run → op.runID = none ∧ run.id ∈ w.issued ∧
    (∃ run' ∈ w.runs op.purpose, run'.Same run) ∧ ∀ old ∈ w₀.runs op.purpose, old.id ≠ run.id
  refused : ∀ id, l.refused = some id → id ∈ w.issued ∧ ∀ purpose, ∀ run ∈ w.runs purpose, run.id ≠ id
  retried : l.retried = false
  read : ∀ run, l.read = some run → op.runID = some run.id ∧ op.ownerID.all (· = run.owner) ∧
    ∃ run' ∈ w.runs op.purpose, run'.Same run
  finished : ∀ state run, l.finished = some (state, run) → op.runID = some run.id ∧ run.state = state ∧
    run.state.final ∧ run ∈ w.runs op.purpose

theorem Knows.start : Knows w₀ w op {} where
  inserted _ h := by cases h
  refused _ h := by cases h
  retried := rfl
  read _ h := by cases h
  finished _ _ h := by cases h

theorem Knows.grows (h : Knows w₀ w op l) (hgrows : Grows w w') : Knows w₀ w' op l where
  inserted run hrun := by
    obtain ⟨hop, hissued, ⟨run', hrun', hsame⟩, hold⟩ := h.inserted run hrun
    obtain ⟨run'', hrun'', hsame'⟩ := hgrows.kept _ run' hrun'
    exact ⟨hop, hgrows.issued _ hissued, ⟨run'', hrun'', hsame'.trans hsame⟩, hold⟩
  refused id hid := by
    obtain ⟨hissued, hnone⟩ := h.refused id hid
    refine ⟨hgrows.issued _ hissued, fun purpose run hrun heq => ?_⟩
    rcases hgrows.fresh purpose run hrun with ⟨old, hold, hsame⟩ | hnew
    · exact hnone purpose old hold (hsame.trans heq)
    · exact hnew (heq ▸ hissued)
  retried := h.retried
  read run hrun := by
    obtain ⟨hop, howner, run', hrun', hsame⟩ := h.read run hrun
    obtain ⟨run'', hrun'', hsame'⟩ := hgrows.kept _ run' hrun'
    exact ⟨hop, howner, run'', hrun'', hsame'.trans hsame⟩
  finished state run hrun := by
    obtain ⟨hop, hstate, hfinal, hmem⟩ := h.finished state run hrun
    exact ⟨hop, hstate, hfinal, hgrows.final _ run hmem hfinal⟩

/-- The insertion of a run: a new run, or a document that was refused. -/
theorem insertRun_knows {reservation : Reservation} {r : Except PyErr Insertion} (hpast : Grows w₀ w)
    (h : Knows w₀ w op l) (hpermits : Permits op l (.insertRun purpose reservation))
    (hexec : Cmd.exec (.insertRun purpose reservation) o w = some (r, w')) :
    Grows w w' ∧ Knows w₀ w' op (next l (.insertRun purpose reservation) r) := by
  obtain ⟨rfl, hop, -, -⟩ := hpermits
  simp only [Cmd.exec] at hexec
  split at hexec
  · cases hexec
  rename_i hfresh
  have hfresh := not_not.1 hfresh
  have hissued : Grows w { w with issued := o.objectID :: w.issued } :=
    .of_runs rfl fun id hid => List.mem_cons_of_mem _ hid
  split at hexec
  · rename_i runs hinsert
    have hgrows := grows_insertOne hfresh hinsert
    rcases perform_eq hexec with ⟨-, rfl, rfl⟩ | ⟨f, -, rfl, rfl⟩
    · refine ⟨hgrows, { h.grows hgrows with inserted := fun run hrun => ?_ }⟩
      obtain rfl := Option.some.inj hrun
      refine ⟨hop, List.mem_cons_self, ⟨_, mem_setRuns.2 ?_, .refl⟩, fun old hold heq => ?_⟩
      · rw [if_pos rfl]
        exact (Collection.mem_insertOne hinsert).2 (.inl rfl)
      · obtain ⟨old', hold', hsame⟩ := hpast.kept _ old hold
        exact not_mem_of_fresh hfresh hold' (hsame.id.trans heq)
    · split
      · exact ⟨hgrows, h.grows hgrows⟩
      · exact ⟨hissued, h.grows hissued⟩
  · obtain ⟨rfl, rfl | ⟨f, -, rfl⟩⟩ := respond_eq hexec
    · refine ⟨hissued, { h.grows hissued with refused := fun id hid => ?_ }⟩
      obtain rfl := Option.some.inj hid
      exact ⟨List.mem_cons_self, fun purpose run hrun => not_mem_of_fresh hfresh hrun⟩
    · exact ⟨hissued, h.grows hissued⟩

/-- The update of a reserved run. -/
theorem finishRun_knows {id : ObjectId} {owner : Option ObjectId} {state : RunState} {time : Time}
    {r : Except PyErr (Option Run)} (h : Knows w₀ w op l)
    (hpermits : Permits op l (.finishRun purpose id owner state time))
    (hexec : Cmd.exec (.finishRun purpose id owner state time) o w = some (r, w')) :
    Grows w w' ∧ Knows w₀ w' op (next l (.finishRun purpose id owner state time) r) := by
  obtain ⟨rfl, hop, hfinal, -⟩ := hpermits
  simp only [Cmd.exec] at hexec
  split at hexec
  · obtain ⟨rfl, rfl | ⟨f, -, rfl⟩⟩ := respond_eq hexec <;> exact ⟨.refl, h⟩
  rename_i run hreserved
  have hgrows := grows_finish state time hreserved
  obtain ⟨hget, -⟩ := Option.filter_eq_some_iff.1 hreserved
  obtain ⟨hrun, rfl⟩ := Collection.get_eq_some_iff.1 hget
  rcases perform_eq hexec with ⟨-, rfl, rfl⟩ | ⟨f, -, rfl, rfl⟩
  · refine ⟨hgrows, { h.grows hgrows with finished := fun state' updated hupdated => ?_ }⟩
    obtain ⟨rfl, rfl⟩ := Prod.mk.inj (Option.some.inj hupdated)
    refine ⟨hop, rfl, hfinal, mem_setRuns.2 ?_⟩
    rw [if_pos rfl]
    exact Collection.mem_updateAll.2 ⟨run, hrun, by rw [Run.finishWith, if_pos rfl]⟩
  · split
    · exact ⟨hgrows, h.grows hgrows⟩
    · exact ⟨.refl, h⟩

/-- A retry whose document has an identifier of its own does not succeed. -/
theorem retryRun_refused {id : ObjectId} {status : String} {document : Run} {r : Except PyErr (Option Run)}
    (hnew : ∀ run ∈ w.runs .appearance, run.id ≠ document.id)
    (hexec : Cmd.exec (.retryRun id status document) o w = some (r, w')) :
    w' = w ∧ ∀ updated, r ≠ .ok (some updated) := by
  simp only [Cmd.exec] at hexec
  split at hexec
  · obtain ⟨rfl, rfl | ⟨f, -, rfl⟩⟩ := respond_eq hexec
    · exact ⟨rfl, fun updated h => by cases h⟩
    · exact ⟨rfl, fun updated h => by cases h⟩
  rename_i run hfound
  obtain ⟨hget, -⟩ := Option.filter_eq_some_iff.1 hfound
  obtain ⟨hrun, -⟩ := Collection.get_eq_some_iff.1 hget
  rw [if_pos (hnew run hrun).symm] at hexec
  obtain ⟨rfl, rfl | ⟨f, -, rfl⟩⟩ := respond_eq hexec
  · exact ⟨rfl, fun updated h => by cases h⟩
  · exact ⟨rfl, fun updated h => by cases h⟩

/-- A retry finds no run with the identifier of its document. -/
theorem retryRun_knows {id : ObjectId} {status : String} {document : Run} {r : Except PyErr (Option Run)}
    (h : Knows w₀ w op l) (hpermits : Permits op l (.retryRun id status document))
    (hexec : Cmd.exec (.retryRun id status document) o w = some (r, w')) :
    Grows w w' ∧ Knows w₀ w' op (next l (.retryRun id status document) r) := by
  obtain ⟨rfl, hnever⟩ := retryRun_refused ((h.refused _ hpermits).2 _) hexec
  cases r with
  | error e => exact ⟨.refl, h⟩
  | ok found =>
    cases found with
    | none => exact ⟨.refl, h⟩
    | some updated => exact absurd rfl (hnever updated)

/-- What a permitted command does to the runs, and what the request knows after it. -/
theorem exec_knows (hpast : Grows w₀ w) (h : Knows w₀ w op l) (hpermits : Permits op l cmd)
    (hexec : cmd.exec o w = some (r, w')) : Grows w w' ∧ Knows w₀ w' op (next l cmd r) := by
  have hrespond : ∀ {a : Resp cmd}, respond o.fault a w = some (r, w') → next l cmd r = l →
      Grows w w' ∧ Knows w₀ w' op (next l cmd r) := by
    intro a hrespond hnext
    obtain rfl := (respond_eq hrespond).1
    rw [hnext]
    exact ⟨.refl, h⟩
  have hwrite : ∀ {a : Resp cmd} {w₁ : World}, w₁.runs = w.runs → w₁.issued = w.issued →
      perform o.fault a w w₁ = some (r, w') → next l cmd r = l → Grows w w' ∧ Knows w₀ w' op (next l cmd r) := by
    intro a w₁ hruns hissued hperform hnext
    have hgrows : Grows w w' := by
      rcases perform_state hperform with rfl | rfl
      · exact .of_runs hruns fun id hid => hissued ▸ hid
      · exact .refl
    rw [hnext]
    exact ⟨hgrows, h.grows hgrows⟩
  cases cmd with
  | now =>
    obtain ⟨rfl, rfl⟩ := Prod.mk.inj (Option.some.inj hexec)
    exact ⟨.refl, h⟩
  | insertRun purpose reservation => exact insertRun_knows hpast h hpermits hexec
  | finishRun purpose id owner state time => exact finishRun_knows h hpermits hexec
  | retryRun id status document => exact retryRun_knows h hpermits hexec
  | findRun purpose id owner =>
    obtain ⟨rfl, hop, rfl⟩ := hpermits
    obtain ⟨rfl, rfl | ⟨f, -, rfl⟩⟩ := respond_eq hexec
    · refine ⟨.refl, { h with read := fun run hrun => ?_ }⟩
      obtain ⟨hget, howner⟩ := Option.filter_eq_some_iff.1 hrun
      obtain ⟨hmem, rfl⟩ := Collection.get_eq_some_iff.1 hget
      exact ⟨hop, howner, run, hmem, .refl⟩
    · exact ⟨.refl, h⟩
  | setProposal draftID proposal => exact hwrite (by rfl) (by rfl) hexec (by cases r <;> rfl)
  | setAppearanceProfile userID profile => exact hwrite (by rfl) (by rfl) hexec (by cases r <;> rfl)
  | insertAudit entry => exact hwrite (by rfl) (by rfl) hexec (by cases r <;> rfl)
  | _ => exact hrespond hexec (by cases r <;> rfl)

/-! ## Runs -/

variable {lib : Library} {ok : State → Step → Prop} {σ : State}

theorem grows_move {move : Move} : Grows w (w.move move) := by
  cases move <;> exact .of_runs rfl fun _ hid => hid

/-- The view of a pool through the protocol. -/
abbrev view (σ : State) : Config Op Cmd Resp World Phase := σ.config Op.protocol fun _ => {}

theorem known_of_reach (h : (service lib).Reach ok (Pool.init w₀) σ) :
    Grows w₀ σ.shared ∧ ∀ t op l b, (view σ).view t = some ⟨op, l, b⟩ → Knows w₀ σ.shared op l := by
  refine System.Reach.known (G := Grows) (W := Grows w₀) (J := fun w _ (op : Op) (l : Phase) => Knows w₀ w op l)
    Op.conforms .init .refl (fun t op l b hview => by cases hview) (fun _ _ _ => .start)
    (fun _ _ _ _ _ hgrows hknows => hknows.grows hgrows) ?_ (fun w move hpast => ?_) h
  · intro w t op l cmd o r w' hpast hknows hpermits hexec
    obtain ⟨hgrows, hknows'⟩ := exec_knows hpast hknows hpermits hexec
    exact ⟨hgrows, hpast.trans hgrows, hknows'⟩
  · exact ⟨grows_move, hpast.trans grows_move⟩

/-- Two requests have neither inserted nor finished one run. -/
structure Apart (op op' : Op) (l l' : Phase) : Prop where
  inserted : ∀ run run', l.inserted = some run → l'.inserted = some run' → run.id ≠ run'.id
  finished : op.purpose = op'.purpose → ∀ state state' run run', l.finished = some (state, run) →
    l'.finished = some (state', run') → run.id ≠ run'.id

theorem Apart.symm (h : Apart op op' l l') : Apart op' op l' l where
  inserted run run' hrun hrun' heq := h.inserted run' run hrun' hrun heq.symm
  finished hpurpose state state' run run' hrun hrun' heq :=
    h.finished hpurpose.symm state' state run' run hrun' hrun heq.symm

theorem Apart.start : Apart op op' {} l' := ⟨fun _ _ h => (by cases h), fun _ _ _ _ _ h => (by cases h)⟩

/-- A command of one request keeps it apart from another. -/
theorem exec_apart (h : Apart op op' l l') (hother : Knows w₀ w op' l') (hpermits : Permits op l cmd)
    (hexec : cmd.exec o w = some (r, w')) : Apart op op' (next l cmd r) l' := by
  have hsame : ∀ {l₁ : Phase}, l₁.inserted = l.inserted → l₁.finished = l.finished → Apart op op' l₁ l' := by
    intro l₁ hinserted hfinished
    exact ⟨fun run run' hrun => h.inserted run run' (hinserted.symm.trans hrun),
      fun hpurpose state state' run run' hrun => h.finished hpurpose state state' run run' (hfinished.symm.trans hrun)⟩
  cases cmd with
  | insertRun purpose reservation =>
    simp only [Cmd.exec] at hexec
    split at hexec
    · cases hexec
    rename_i hfresh
    have hfresh := not_not.1 hfresh
    split at hexec
    · rcases perform_eq hexec with ⟨-, rfl, -⟩ | ⟨f, -, rfl, -⟩
      · refine ⟨fun run run' hrun hrun' heq => ?_, h.finished⟩
        obtain rfl := Option.some.inj hrun
        -- the identifier of the other run was handed out before
        have hissued := (hother.inserted run' hrun').2.1
        rw [← heq] at hissued
        exact (of_decide_eq_true hfresh).1 hissued
      · exact hsame rfl rfl
    · obtain ⟨-, rfl | ⟨f, -, rfl⟩⟩ := respond_eq hexec <;> exact hsame rfl rfl
  | finishRun purpose id owner state time =>
    obtain ⟨rfl, hop, -, -⟩ := hpermits
    simp only [Cmd.exec] at hexec
    split at hexec
    · obtain ⟨-, rfl | ⟨f, -, rfl⟩⟩ := respond_eq hexec <;> exact hsame rfl rfl
    rename_i stored hreserved
    obtain ⟨hget, hopen⟩ := Option.filter_eq_some_iff.1 hreserved
    obtain ⟨hstored, rfl⟩ := Collection.get_eq_some_iff.1 hget
    rcases perform_eq hexec with ⟨-, rfl, -⟩ | ⟨f, -, rfl, -⟩
    · refine ⟨h.inserted, fun hpurpose state₁ state' run run' hrun hrun' heq => ?_⟩
      obtain ⟨-, rfl⟩ := Prod.mk.inj (Option.some.inj hrun)
      obtain ⟨-, -, hfinal, hmem⟩ := hother.finished state' run' hrun'
      rw [← hpurpose] at hmem
      -- the run that the other has finished is final, this one was reserved
      obtain rfl := Collection.eq_of_id_eq hstored hmem heq
      exact (of_decide_eq_true hopen).1 hfinal
    · exact hsame rfl rfl
  | findRun purpose id owner => cases r <;> exact hsame rfl rfl
  | retryRun id status document =>
    cases r with
    | error e => exact hsame rfl rfl
    | ok updated => cases updated <;> exact hsame rfl rfl
  | _ => cases r <;> exact hsame rfl rfl

theorem apart_of_reach (h : (service lib).Reach ok (Pool.init w₀) σ) {t u : ℕ} {b b' : Bool} (hne : t ≠ u)
    (ht : (view σ).view t = some ⟨op, l, b⟩) (hu : (view σ).view u = some ⟨op', l', b'⟩) : Apart op op' l l' := by
  refine (h.invariant (I := fun cfg => ∀ t u op l b op' l' b', t ≠ u → cfg.view t = some ⟨op, l, b⟩ →
    cfg.view u = some ⟨op', l', b'⟩ → Apart op op' l l') Op.conforms .init
    (fun t u op l b op' l' b' _ hview => by cases hview) ?_) t u op l b op' l' b' hne ht hu
  intro ρ step cfg hρ _ hapart hstep t u op l b op' l' b' hne ht hu
  have hknows := (known_of_reach hρ).2
  cases hstep with
  | @spawn v op₁ hv =>
    rcases View.of_update ht with ⟨rfl, rfl, rfl, -⟩ | ⟨-, ht'⟩
    · exact .start
    · rcases View.of_update hu with ⟨rfl, rfl, rfl, -⟩ | ⟨-, hu'⟩
      · exact Apart.start.symm
      · exact hapart t u op l b op' l' b' hne ht' hu'
  | @exec v o op₁ l₁ cmd r w' hnext hv hpermits hexec =>
    rcases View.of_update ht with ⟨rfl, rfl, rfl, -⟩ | ⟨-, ht'⟩
    · rcases View.of_update hu with ⟨rfl, -, -, -⟩ | ⟨-, hu'⟩
      · exact absurd rfl hne
      · exact exec_apart (hapart _ _ _ _ _ _ _ _ hne hv hu') (hknows _ _ _ _ hu') hpermits hexec
    · rcases View.of_update hu with ⟨rfl, rfl, rfl, -⟩ | ⟨-, hu'⟩
      · exact (exec_apart (hapart _ _ _ _ _ _ _ _ hne.symm hv ht') (hknows _ _ _ _ ht') hpermits hexec).symm
      · exact hapart t u op l b op' l' b' hne ht' hu'
  | @crash v op₁ l₁ b₁ hv =>
    rcases View.of_update ht with ⟨rfl, rfl, rfl, -⟩ | ⟨-, ht'⟩
    · rcases View.of_update hu with ⟨rfl, -, -, -⟩ | ⟨-, hu'⟩
      · exact absurd rfl hne
      · exact hapart _ _ _ _ _ _ _ _ hne hv hu'
    · rcases View.of_update hu with ⟨rfl, rfl, rfl, -⟩ | ⟨-, hu'⟩
      · exact hapart _ _ _ _ _ _ _ _ hne ht' hv
      · exact hapart t u op l b op' l' b' hne ht' hu'
  | env => exact hapart t u op l b op' l' b' hne ht hu

/-- What happens to the runs after a pool that is reachable. -/
theorem grows_of_reach {ok' : State → Step → Prop} {σ' : State} (h : (service lib).Reach ok (Pool.init w₀) σ)
    (h' : (service lib).Reach ok' σ σ') : Grows σ.shared σ'.shared := by
  have hknown := known_of_reach h
  refine (System.Reach.known (G := Grows) (W := fun w => Grows w₀ w ∧ Grows σ.shared w)
    (J := fun w _ (op : Op) (l : Phase) => Knows w₀ w op l) Op.conforms (h.conforming Op.conforms .init)
    ⟨hknown.1, .refl⟩ hknown.2 (fun _ _ _ => .start) (fun _ _ _ _ _ hgrows hknows => hknows.grows hgrows)
    ?_ (fun w move hpast => ?_) h').1.2
  · rintro w t op l cmd o r w' ⟨hpast, hsince⟩ hknows hpermits hexec
    obtain ⟨hgrows, hknows'⟩ := exec_knows hpast hknows hpermits hexec
    exact ⟨hgrows, ⟨hpast.trans hgrows, hsince.trans hgrows⟩, hknows'⟩
  · exact ⟨grows_move, hpast.1.trans grows_move, hpast.2.trans grows_move⟩

/-- What a request that has answered knows. -/
theorem answers_of_result (h : (service lib).Reach ok (Pool.init w₀) σ) {t : ℕ} {a : RunPublic}
    (ht : σ.result t = some (op, .ok a)) :
    ∃ l b, (view σ).view t = some ⟨op, l, b⟩ ∧ Knows w₀ σ.shared op l ∧ Answers op l a := by
  obtain ⟨l, b, hview, hreturns⟩ := (h.conforming Op.conforms .init).result ht
  exact ⟨l, b, hview, (known_of_reach h).2 t op l b hview, hreturns a rfl⟩

/-- A request that is told to process has inserted the run. -/
theorem Answers.inserted {a : RunPublic} (h : Answers op l a) (hknows : Knows w₀ w op l) (ha : a.shouldProcess) :
    ∃ run, l.inserted = some run ∧ a.runID = run.id ∧ a.reservation = run.toReservation := by
  refine (h.process ha).resolve_left fun hretried => ?_
  rw [hknows.retried] at hretried
  cases hretried

/-- There was no run for the input of an answer at the start, and no other request for it is told to process. -/
structure Sole (w₀ : World) (σ : State) (t : ℕ) (op : Op) (a : RunPublic) : Prop where
  first : ∀ old ∈ w₀.runs op.purpose, old.key ≠ a.reservation.key
  only : ∀ u op' b, u ≠ t → σ.result u = some (op', .ok b) → b.shouldProcess → op'.purpose = op.purpose →
    b.reservation.key ≠ a.reservation.key

/-- Of all the requests for an input at most one is told to process, whatever the others do, and none
is if there was a run for the input at the start. -/
theorem reserved_once (h : (service lib).Reach ok (Pool.init w₀) σ) {t : ℕ} {a : RunPublic}
    (ht : σ.result t = some (op, .ok a)) (ha : a.shouldProcess) : Sole w₀ σ t op a := by
  obtain ⟨l, b₁, hview, hknows, hanswers⟩ := answers_of_result h ht
  obtain ⟨run, hrun, -, hreservation⟩ := hanswers.inserted hknows ha
  obtain ⟨-, -, ⟨stored, hstored, hsame⟩, hnew⟩ := hknows.inserted run hrun
  have hkey : stored.key = a.reservation.key := congrArg Reservation.key (hsame.reservation.trans hreservation.symm)
  constructor
  · intro old hold heq
    obtain ⟨old', hold', hsame'⟩ := (known_of_reach h).1.kept _ old hold
    have hkey' : old'.key = old.key := congrArg Reservation.key hsame'.reservation
    obtain rfl := Collection.eq_of_key_eq hold' hstored (hkey'.trans (heq.trans hkey.symm))
    exact hnew old hold (hsame'.id.symm.trans hsame.id)
  · intro u op' b hne hu hb hpurpose heq
    obtain ⟨l', b₂, hview', hknows', hanswers'⟩ := answers_of_result h hu
    obtain ⟨run', hrun', -, hreservation'⟩ := hanswers'.inserted hknows' hb
    obtain ⟨-, -, ⟨stored', hstored', hsame'⟩, -⟩ := hknows'.inserted run' hrun'
    have hkey' : stored'.key = b.reservation.key :=
      congrArg Reservation.key (hsame'.reservation.trans hreservation'.symm)
    rw [hpurpose] at hstored'
    obtain rfl := Collection.eq_of_key_eq hstored' hstored (hkey'.trans (heq.trans hkey.symm))
    exact (apart_of_reach h hne hview' hview).inserted run' run hrun' hrun (hsame'.id.symm.trans hsame.id)

/-- The answer shows a run that is final and stored in every pool that is reached from here, and no other
request answers for it. -/
structure Settled (lib : Library) (σ : State) (t : ℕ) (op : Op) (a : RunPublic) (id : ObjectId) : Prop where
  stays : ∃ run, run.id = id ∧ run.state.final ∧ a = runPublic run false true ∧
    ∀ ok σ', (service lib).Reach ok σ σ' → run ∈ σ'.shared.runs op.purpose
  only : ∀ u op' b, u ≠ t → σ.result u = some (op', .ok b) → op'.purpose = op.purpose → op'.runID ≠ some id

/-- A request that answers for its run has finished it: the run is stored as it was answered, in every
pool that is reached from there, and no other request answers for it. -/
theorem finished_once (h : (service lib).Reach ok (Pool.init w₀) σ) {t : ℕ} {a : RunPublic} {id : ObjectId}
    (ht : σ.result t = some (op, .ok a)) (hop : op.runID = some id) : Settled lib σ t op a id := by
  have hfinished : ∀ {u : ℕ} {op' : Op} {b : RunPublic} {id' : ObjectId}, σ.result u = some (op', .ok b) →
      op'.runID = some id' → ∃ l' b' state run, (view σ).view u = some ⟨op', l', b'⟩ ∧
        l'.finished = some (state, run) ∧ run.id = id' ∧ run.state.final ∧ run ∈ σ.shared.runs op'.purpose ∧
        b = runPublic run false true := by
    intro u op' b id' hu hop'
    obtain ⟨l', b', hview, hknows, hanswers⟩ := answers_of_result h hu
    obtain ⟨state, run, hrun, hb⟩ := hanswers.finish (by rw [hop']; rfl)
    obtain ⟨hid, -, hfinal, hmem⟩ := hknows.finished state run hrun
    exact ⟨l', b', state, run, hview, hrun, Option.some.inj (hid.symm.trans hop'), hfinal, hmem, hb⟩
  obtain ⟨l, b₁, state, run, hview, hrun, hid, hfinal, hmem, ha⟩ := hfinished ht hop
  refine ⟨⟨run, hid, hfinal, ha, fun ok' σ' h' => (grows_of_reach h h').final _ run hmem hfinal⟩, ?_⟩
  intro u op' b hne hu hpurpose hop'
  obtain ⟨l', b₂, state', run', hview', hrun', hid', -⟩ := hfinished hu hop'
  exact (apart_of_reach h hne hview' hview).finished hpurpose state' state run' run hrun' hrun (hid'.trans hid.symm)

/-! ## Proposals -/

/-- The run is completed with what is shown. -/
structure Run.Shows (run : Run) (runID : ObjectId) (inputHash : String) (proposal : Document) (confidence : ℚ)
    (time : Time) : Prop where
  id : run.id = runID
  inputHash : run.inputHash = inputHash
  completed : ∃ completion, run.state = .completed completion time ∧ completion.proposal = proposal ∧
    completion.confidence = confidence

theorem Run.Shows.final {run : Run} {runID : ObjectId} {inputHash : String} {proposal : Document} {confidence : ℚ}
    {time : Time} (h : run.Shows runID inputHash proposal confidence time) : run.state.final := by
  obtain ⟨completion, hstate, -⟩ := h.completed
  rw [hstate]
  rfl

def Draft.Genuine (w : World) (draft : Draft) : Prop :=
  ∀ p, draft.aiProposal = some p → ∃ run ∈ w.runs .listing, run.owner = draft.id ∧
    run.Shows p.runID p.inputHash p.proposal p.confidence p.generatedAt

def User.Genuine (w : World) (user : User) : Prop :=
  ∀ p, user.appearanceProfile = some p → ∃ run ∈ w.runs .appearance, run.owner = user.id ∧
    run.imageHashes = p.imageHashes ∧ run.Shows p.runID p.inputHash p.proposal p.confidence p.updatedAt

/-- The proposals of drafts and the appearance profiles of users come from completed runs of theirs. -/
structure Genuine (w : World) : Prop where
  drafts : ∀ draft ∈ w.drafts, draft.Genuine w
  users : ∀ user ∈ w.users, user.Genuine w

theorem Draft.Genuine.grows {draft : Draft} (h : draft.Genuine w) (hgrows : Grows w w') : draft.Genuine w' := by
  intro p hp
  obtain ⟨run, hrun, howner, hshows⟩ := h p hp
  exact ⟨run, hgrows.final _ run hrun hshows.final, howner, hshows⟩

theorem User.Genuine.grows {user : User} (h : user.Genuine w) (hgrows : Grows w w') : user.Genuine w' := by
  intro p hp
  obtain ⟨run, hrun, howner, himages, hshows⟩ := h p hp
  exact ⟨run, hgrows.final _ run hrun hshows.final, howner, himages, hshows⟩

theorem Genuine.grows (h : Genuine w) (hgrows : Grows w w') (hdrafts : w'.drafts = w.drafts)
    (husers : w'.users = w.users) : Genuine w' where
  drafts draft hdraft := (h.drafts draft (hdrafts ▸ hdraft)).grows hgrows
  users user huser := (h.users user (husers ▸ huser)).grows hgrows

/-- The run that a request has read and completed. -/
theorem Knows.completed (h : Knows w₀ w op l) {run : Run} {completion : Completion} {time : Time}
    (hcompleted : l.Completed run completion time) :
    ∃ updated ∈ w.runs op.purpose, updated.toReservation = run.toReservation ∧ op.runID = some updated.id ∧
      op.ownerID.all (· = updated.owner) ∧ updated.state = .completed completion time := by
  obtain ⟨hread, updated, hfinished⟩ := hcompleted
  obtain ⟨hop, howner, run', hrun', hsame⟩ := h.read run hread
  obtain ⟨hop', hstate, -, hmem⟩ := h.finished _ updated hfinished
  have hid : run'.id = updated.id := hsame.id.trans (Option.some.inj (hop.symm.trans hop'))
  obtain rfl := Collection.eq_of_id_eq hrun' hmem hid
  refine ⟨run', hrun', hsame.reservation, hop', ?_, hstate⟩
  rwa [hsame.reservation]

/-- What a command leaves of the drafts and the users. -/
theorem exec_drafts_users (hexec : cmd.exec o w = some (r, w')) (hproposal : ∀ id p, cmd ≠ .setProposal id p)
    (hprofile : ∀ id p, cmd ≠ .setAppearanceProfile id p) : w'.drafts = w.drafts ∧ w'.users = w.users := by
  have hrespond : ∀ {α : Type} {a r' : Except PyErr α} {w₁ : World}, w₁.drafts = w.drafts ∧ w₁.users = w.users →
      respond o.fault a w₁ = some (r', w') → w'.drafts = w.drafts ∧ w'.users = w.users :=
    fun hsame h => by rwa [(respond_eq h).1]
  have hperform : ∀ {α : Type} {a r' : Except PyErr α} {w₁ w₂ : World}, w₁.drafts = w.drafts ∧ w₁.users = w.users →
      w₂.drafts = w.drafts ∧ w₂.users = w.users → perform o.fault a w₁ w₂ = some (r', w') →
      w'.drafts = w.drafts ∧ w'.users = w.users := by
    intro α a r' w₁ w₂ hsame hsame' h
    rcases perform_state h with rfl | rfl
    · exact hsame'
    · exact hsame
  cases cmd with
  | now =>
    obtain ⟨-, rfl⟩ := Prod.mk.inj (Option.some.inj hexec)
    exact ⟨rfl, rfl⟩
  | setProposal draftID proposal => exact absurd rfl (hproposal _ _)
  | setAppearanceProfile userID profile => exact absurd rfl (hprofile _ _)
  | insertAudit entry => exact hperform (by exact ⟨rfl, rfl⟩) (by exact ⟨rfl, rfl⟩) hexec
  | insertRun purpose reservation =>
    simp only [Cmd.exec] at hexec
    split at hexec
    · cases hexec
    split at hexec
    · exact hperform (by exact ⟨rfl, rfl⟩) (by exact ⟨rfl, rfl⟩) hexec
    · exact hrespond (by exact ⟨rfl, rfl⟩) hexec
  | finishRun purpose id owner state time =>
    simp only [Cmd.exec] at hexec
    split at hexec
    · exact hrespond (by exact ⟨rfl, rfl⟩) hexec
    · exact hperform (by exact ⟨rfl, rfl⟩) (by exact ⟨rfl, rfl⟩) hexec
  | retryRun id status document =>
    simp only [Cmd.exec] at hexec
    split at hexec
    · exact hrespond (by exact ⟨rfl, rfl⟩) hexec
    split at hexec
    · exact hrespond (by exact ⟨rfl, rfl⟩) hexec
    split at hexec
    · exact hperform (by exact ⟨rfl, rfl⟩) (by exact ⟨rfl, rfl⟩) hexec
    · exact hrespond (by exact ⟨rfl, rfl⟩) hexec
  | _ => exact hrespond (by exact ⟨rfl, rfl⟩) hexec

theorem genuine_exec (hgenuine : Genuine w) (hpast : Grows w₀ w) (h : Knows w₀ w op l) (hpermits : Permits op l cmd)
    (hexec : cmd.exec o w = some (r, w')) : Genuine w' := by
  by_cases hproposal : ∀ id p, cmd ≠ .setProposal id p
  · by_cases hprofile : ∀ id p, cmd ≠ .setAppearanceProfile id p
    · obtain ⟨hdrafts, husers⟩ := exec_drafts_users hexec hproposal hprofile
      exact hgenuine.grows (exec_knows hpast h hpermits hexec).1 hdrafts husers
    · push Not at hprofile
      obtain ⟨userID, profile, rfl⟩ := hprofile
      rcases perform_state hexec with rfl | rfl
      · obtain ⟨hpurpose, hop, howner, run, completion, hcompleted, hhash, himages, hproposal, hconfidence⟩ := hpermits
        obtain ⟨updated, hmem, hsame, hid, huser, hstate⟩ := h.completed hcompleted
        refine ⟨hgenuine.drafts, fun user huser' p hp => ?_⟩
        simp only [Collection.mem_updateAll] at huser'
        obtain ⟨old, hold, rfl⟩ := huser'
        unfold User.present at hp ⊢
        split at hp
        · rename_i heq
          obtain rfl := Option.some.inj hp
          rw [howner] at huser
          rw [hpurpose] at hmem
          have hshown : updated.imageHashes = run.imageHashes := by rw [Run.imageHashes, Run.imageHashes, hsame]
          rw [if_pos heq]
          exact ⟨updated, hmem, (of_decide_eq_true huser).symm.trans heq.symm, hshown.trans himages.symm,
            ⟨Option.some.inj (hid.symm.trans hop), (congrArg Reservation.inputHash hsame).trans hhash.symm,
              completion, hstate, hproposal.symm, hconfidence.symm⟩⟩
        · rename_i hne
          rw [if_neg hne]
          exact hgenuine.users old hold p hp
      · exact hgenuine
  · push Not at hproposal
    obtain ⟨draftID, proposal, rfl⟩ := hproposal
    rcases perform_state hexec with rfl | rfl
    · obtain ⟨hpurpose, hop, run, completion, hcompleted, hdraft, hhash, hproposal, hconfidence⟩ := hpermits
      obtain ⟨updated, hmem, hsame, hid, -, hstate⟩ := h.completed hcompleted
      refine ⟨fun draft hdraft' p hp => ?_, hgenuine.users⟩
      simp only [Collection.mem_updateAll] at hdraft'
      obtain ⟨old, hold, rfl⟩ := hdraft'
      unfold Draft.propose at hp ⊢
      split at hp
      · rename_i heq
        obtain rfl := Option.some.inj hp
        rw [hpurpose] at hmem
        rw [if_pos heq]
        exact ⟨updated, hmem, (congrArg Reservation.owner hsame).trans (hdraft.symm.trans heq.1.symm),
          ⟨Option.some.inj (hid.symm.trans hop), (congrArg Reservation.inputHash hsame).trans hhash.symm,
            completion, hstate, hproposal.symm, hconfidence.symm⟩⟩
      · rename_i hne
        rw [if_neg hne]
        exact hgenuine.drafts old hold p hp
    · exact hgenuine

theorem genuine_mapProfile {userID : ObjectId} {f : AppearanceProfile → Option AppearanceProfile} (h : Genuine w)
    (hf : ∀ p p', f p = some p' → p'.runID = p.runID ∧ p'.inputHash = p.inputHash ∧ p'.imageHashes = p.imageHashes ∧
      p'.proposal = p.proposal ∧ p'.confidence = p.confidence ∧ p'.updatedAt = p.updatedAt) :
    Genuine (w.mapProfile userID f) := by
  refine ⟨h.drafts, fun user huser p' hp' => ?_⟩
  simp only [World.mapProfile, Collection.mem_updateAll] at huser
  obtain ⟨old, hold, rfl⟩ := huser
  split at hp'
  · rename_i heq
    obtain ⟨p, hp, hfp⟩ := Option.bind_eq_some_iff.1 hp'
    obtain ⟨hrunID, hhash, himages, hproposal, hconfidence, htime⟩ := hf p p' hfp
    obtain ⟨run, hrun, howner, hshown, hshows⟩ := h.users old hold p hp
    rw [if_pos heq]
    refine ⟨run, hrun, howner, hshown.trans himages.symm, ?_⟩
    rw [hrunID, hhash, hproposal, hconfidence, htime]
    exact hshows
  · rename_i hne
    rw [if_neg hne]
    exact h.users old hold p' hp'

theorem genuine_move {move : Move} (h : Genuine w) : Genuine (w.move move) := by
  cases move with
  | tick passed => exact ⟨h.drafts, h.users⟩
  | setContract contract => exact ⟨h.drafts, h.users⟩
  | createDraft id =>
    refine ⟨fun draft hdraft p hp => ?_, h.users⟩
    cases hinsert : w.drafts.insertOne ⟨id, "draft", none⟩ with
    | none =>
      simp only [World.move, hinsert, Option.getD_none] at hdraft
      exact h.drafts draft hdraft p hp
    | some drafts =>
      simp only [World.move, hinsert, Option.getD_some] at hdraft
      rcases (Collection.mem_insertOne hinsert).1 hdraft with rfl | hold
      · cases hp
      · exact h.drafts draft hold p hp
  | setDraftStatus id status =>
    refine ⟨fun draft hdraft p hp => ?_, h.users⟩
    simp only [World.move, Collection.mem_updateAll] at hdraft
    obtain ⟨old, hold, rfl⟩ := hdraft
    split at hp
    · rename_i heq
      rw [if_pos heq]
      exact h.drafts old hold p hp
    · rename_i hne
      rw [if_neg hne]
      exact h.drafts old hold p hp
  | acceptProfile userID =>
    refine genuine_mapProfile h fun p p' hp => ?_
    obtain rfl := Option.some.inj hp
    exact ⟨rfl, rfl, rfl, rfl, rfl, rfl⟩
  | deleteProfile userID => exact genuine_mapProfile h fun p p' hp => by cases hp

/-- In every reachable pool the proposal of a draft is that of a completed run of the draft, and the
appearance profile of a user that of a completed run of the user. -/
theorem genuine_of_reach (h₀ : Genuine w₀) (h : (service lib).Reach ok (Pool.init w₀) σ) : Genuine σ.shared := by
  refine h.invariant (I := fun cfg => Genuine cfg.shared) Op.conforms .init h₀ ?_
  intro ρ step cfg hρ _ hgenuine hstep
  have hknown := known_of_reach hρ
  cases hstep with
  | spawn => exact hgenuine
  | @exec t o op l cmd r w' hnext ht hpermits hexec =>
    exact genuine_exec hgenuine hknown.1 (hknown.2 t op l true ht) hpermits hexec
  | crash => exact hgenuine
  | env => exact genuine_move hgenuine

/-! ## Retries -/

/-- The request raises, and leaves the runs. -/
def Refuses (w : World) (r : Reply) (w' : World) : Prop := (∃ e, r = .error e) ∧ w'.runs = w.runs

/-- A reservation for a run that failed or is stale raises, and leaves the run as it is. -/
theorem retry_raises {userID : ObjectId} {request : ReserveRequest} {imageHashes : List String} {os : List Oracle}
    {run : Run} {r : Reply} (hrun : run ∈ w.runs .appearance)
    (hkey : run.key = ⟨userID, request.inputHash, request.contractVersion⟩) (hretry : run.retryable w.clock)
    (hexec : Prog.run Cmd.exec (reserveAppearance userID request imageHashes) os w = some (r, w')) :
    Refuses w r w' := by
  refine Prog.wp_sound (Q := Refuses w) ?_ hexec
  refine Raise.wp_ask_bind.2 fun o contract w₁ hcontract => ?_
  obtain ⟨rfl, rfl | ⟨f, -, rfl⟩⟩ := respond_eq hcontract
  swap
  · exact ⟨⟨_, rfl⟩, rfl⟩
  refine Raise.wp_bind.2 (Prog.wp_mono (fun checked w₂ hchecked => ?_)
    (show Prog.wp Cmd.exec (fun _ w₂ => w₂ = w₁) (checkContract request 2 w₁.contract "Appearance") w₁ from ?_))
  swap
  · unfold checkContract
    split
    · exact rfl
    split
    · exact rfl
    split <;> exact rfl
  subst hchecked
  cases checked with
  | error e => exact ⟨⟨e, rfl⟩, rfl⟩
  | ok _ =>
    refine Raise.wp_ask_bind.2 fun o now w₃ hnow => ?_
    obtain ⟨rfl, rfl⟩ := Prod.mk.inj (Option.some.inj hnow)
    refine Raise.wp_ask_bind.2 fun o insertion w₄ hinsertion => ?_
    simp only [Cmd.exec] at hinsertion
    split at hinsertion
    · cases hinsertion
    rename_i hfresh
    split at hinsertion
    · -- the key is taken
      rename_i runs hinsert
      obtain ⟨hid, hreplace⟩ := Collection.insertOne_some hinsert
      exact absurd hkey (Collection.key_ne_of_replaceOne hreplace hrun (hid run hrun))
    obtain ⟨rfl, rfl | ⟨f, -, rfl⟩⟩ := respond_eq hinsertion
    swap
    · exact ⟨⟨_, rfl⟩, rfl⟩
    refine Raise.wp_ask_bind.2 fun o found w₅ hfound => ?_
    have hfind : (w₂.runs .appearance).find? (·.key = ⟨userID, request.inputHash, request.contractVersion⟩) =
        some run := Collection.find?_key_eq_some_iff.2 ⟨hrun, hkey⟩
    obtain ⟨rfl, hanswer | ⟨f, -, rfl⟩⟩ := respond_eq hfound
    swap
    · exact ⟨⟨_, rfl⟩, rfl⟩
    obtain rfl : found = .ok (some run) := hanswer.trans (congrArg Except.ok hfind)
    simp only [Raise.Post]
    rw [if_pos hretry]
    refine Raise.wp_ask_bind.2 fun o retried w₆ hretried => ?_
    -- the document has the identifier of the insertion, which no run has
    obtain ⟨rfl, hnever⟩ := retryRun_refused
      (by exact fun old hold => not_mem_of_fresh (w := w₂) (not_not.1 hfresh) hold) hretried
    cases retried with
    | error e => exact ⟨⟨e, rfl⟩, rfl⟩
    | ok found =>
      cases found with
      | none => exact ⟨⟨_, rfl⟩, rfl⟩
      | some updated => exact absurd rfl (hnever updated)

end Reservations

/-! ## Runs of one draft and one shopper -/

namespace Sample

namespace Reservations

open Stylme.Reservations

def library : Library where
  idText _ := "7"
  parseID
    | "7" => some 7
    | _ => none

/-- A draft and a user without runs. -/
def world : World where
  clock := 0
  runs _ := ∅
  drafts := ⟨[⟨7, "draft", none⟩], List.nodup_singleton _, List.nodup_singleton _⟩
  users := ⟨[⟨1, none⟩], List.nodup_singleton _, List.nodup_singleton _⟩
  contract := ⟨3, "filters"⟩
  audits := []
  issued := []

def reserve : Op := .reserveRun "7" ⟨"photos", 1, 3, "filters"⟩ "product_details" 2

def completion : Completion := ⟨"google", "model", [], 1, []⟩

def execs (t n : ℕ) : List Step := List.replicate n (.exec t {})

/-- Two requests reserve one run, and a third completes it. -/
def steps : List Step :=
  [.spawn 0 reserve, .spawn 1 reserve] ++ execs 0 4 ++ execs 1 4 ++
    [.exec 0 { objectID := 10 }, .exec 1 { objectID := 11 }] ++ execs 0 1 ++ execs 1 1 ++
    [.spawn 2 (.completeRun 10 completion)] ++ execs 2 8

/-- What a thread has answered, if it did not raise. -/
def answer? (σ : State) (t : ℕ) : Option (Op × RunPublic) :=
  match σ.result t with
  | some (op, .ok a) => some (op, a)
  | _ => none

theorem result_of_answer? {σ : State} {t : ℕ} {op : Op} {a : RunPublic} (h : answer? σ t = some (op, a)) :
    σ.result t = some (op, .ok a) := by
  unfold answer? at h
  split at h
  · rename_i hresult
    obtain ⟨rfl, rfl⟩ := Prod.mk.inj (Option.some.inj h)
    exact hresult
  · cases h

/-- The steps lead to a pool in which the first request is told to process and the third has completed. -/
theorem exists_steps : ∃ σ, (service library).Reach (fun _ _ => True) (Pool.init world) σ ∧
    (∃ op a, σ.result 0 = some (op, .ok a) ∧ a.shouldProcess) ∧
    (∃ op a, σ.result 2 = some (op, .ok a) ∧ op.runID = some 10) ∧
    σ.shared.drafts.docs.any (·.aiProposal.isSome) := by
  have hrun : ((service library).runWhere (fun _ _ => True) steps (Pool.init world)).any fun σ =>
      (answer? σ 0).any (fun x => x.2.shouldProcess) && ((answer? σ 2).any (fun x => x.1.runID = some 10) &&
        σ.shared.drafts.docs.any (·.aiProposal.isSome)) := by decide +kernel
  obtain ⟨σ, hreach, hcheck⟩ := System.Reach.exists_of_any hrun
  obtain ⟨hfirst, hrest⟩ := Bool.and_eq_true_iff.1 hcheck
  obtain ⟨hthird, hdraft⟩ := Bool.and_eq_true_iff.1 hrest
  obtain ⟨x, hx, hprocess⟩ := (Option.any_eq_true ..).1 hfirst
  obtain ⟨y, hy, hid⟩ := (Option.any_eq_true ..).1 hthird
  exact ⟨σ, hreach, ⟨x.1, x.2, result_of_answer? hx, hprocess⟩, ⟨y.1, y.2, result_of_answer? hy, of_decide_eq_true hid⟩,
    hdraft⟩

theorem genuine_world : Genuine world := by
  constructor
  · intro draft hdraft p hp
    obtain rfl := List.mem_singleton.1 hdraft
    cases hp
  · intro user huser p hp
    obtain rfl := List.mem_singleton.1 huser
    cases hp

/-- An appearance run that has failed. -/
def failedRun : Run :=
  { (ReserveRequest.mk "photos" 2 3 "filters").reservation 1 (.appearance ["face"]) none 0 with
    id := 5
    state := .failed ⟨none, none, ⟨"timeout", "The provider did not answer"⟩⟩ 0
    updatedAt := 0 }

/-- The runs of a user whose analysis has failed. -/
def failedRuns : Purpose → Runs
  | .appearance => ⟨[failedRun], List.nodup_singleton _, List.nodup_singleton _⟩
  | .listing => ∅

/-- The retry of the failed analysis. -/
def retried : Option (Reply × World) :=
  Prog.run Cmd.exec (reserveAppearance 1 ⟨"photos", 2, 3, "filters"⟩ ["face"])
    [{}, {}, { objectID := 6 }, {}, {}] { world with runs := failedRuns }

end Reservations

end Sample

namespace Reservations

theorem reserved_once_steps : ∃ σ t op a,
    (service Sample.Reservations.library).Reach (fun _ _ => True) (Pool.init Sample.Reservations.world) σ ∧
    σ.result t = some (op, .ok a) ∧ Sole Sample.Reservations.world σ t op a := by
  obtain ⟨σ, hreach, ⟨op, a, hresult, hprocess⟩, -⟩ := Sample.Reservations.exists_steps
  exact ⟨σ, 0, op, a, hreach, hresult, reserved_once hreach hresult hprocess⟩

theorem finished_once_steps : ∃ σ t op a,
    (service Sample.Reservations.library).Reach (fun _ _ => True) (Pool.init Sample.Reservations.world) σ ∧
    σ.result t = some (op, .ok a) ∧ Settled Sample.Reservations.library σ t op a 10 := by
  obtain ⟨σ, hreach, -, ⟨op, a, hresult, hid⟩, -⟩ := Sample.Reservations.exists_steps
  exact ⟨σ, 2, op, a, hreach, hresult, finished_once hreach hresult hid⟩

theorem genuine_of_reach_steps : ∃ σ,
    (service Sample.Reservations.library).Reach (fun _ _ => True) (Pool.init Sample.Reservations.world) σ ∧
    σ.shared.drafts.docs.any (·.aiProposal.isSome) ∧ Genuine σ.shared := by
  obtain ⟨σ, hreach, -, -, hdraft⟩ := Sample.Reservations.exists_steps
  exact ⟨σ, hreach, hdraft, genuine_of_reach Sample.Reservations.genuine_world hreach⟩

theorem retry_raises_failed : ∃ r w', Sample.Reservations.retried = some (r, w') ∧
    Refuses { Sample.Reservations.world with runs := Sample.Reservations.failedRuns } r w' := by
  have hsome : Sample.Reservations.retried.isSome := by decide +kernel
  obtain ⟨⟨r, w'⟩, hrun⟩ := Option.isSome_iff_exists.1 hsome
  have hfailed : Sample.Reservations.failedRun ∈ Sample.Reservations.failedRuns .appearance := List.mem_singleton.2 rfl
  exact ⟨r, w', hrun, retry_raises hfailed rfl rfl hrun⟩

end Reservations

end Stylme
