-- SUMMARY: A catalogue pass misses no product, unless a run fails between moving the cursor and staging its batch.
import Stylme.Lib.Sequence
import Stylme.Reconciler.System

/-!
# Catalogue passes

Every run scans the batch of products behind a stored cursor. The cursor moves
when the batch has been read; the proposals for the batch are staged after that.
A run that fails in between has moved the cursor past products for which nothing
was staged, and no later run of the pass comes back to them.
-/

namespace Stylme

open Conc Backend

namespace Reconciler

variable (lib : Library)

/-! ## Runs and their batches -/

/-- `stage_retag_proposals`, with the batch it has staged. -/
def stageBatch (graph : Graph) (failures : List Failure) (maxProducts depth : ℕ)
    (runID : String) : Py (List Product × StageResult) := do
  let fields ← Raise.ask Cmd.taxonomySnapshot
  let targets ← liftRaised (lib.targetSignals graph failures depth fields)
  let products ← scanProductBatch maxProducts
  let now ← Raise.ask Cmd.now
  let documents ← liftRaised (stagedDocuments lib graph targets fields runID now products)
  insertNewProposals documents
  return (products, ⟨products.length, targets.length, documents.length⟩)

/-- The protected region of a run until its batch is staged. -/
def stageRun (request : RunRequest) (runID : String) :
    Py (List Product × List Failure × Graph × StageResult) := do
  let failures ← Raise.ask (Cmd.findFailures request.maxQueries)
  let graph ← buildOrLoadGraph lib failures request.useAI request.rebuildGraph
  let (batch, staged) ← stageBatch lib graph failures request.maxProducts request.graphDepth runID
  return (batch, failures, graph, staged)

/-- A run until it enters the protected region. -/
def enterRun (request : RunRequest) (requestedBy : String) : Py String := do
  let hex ← Raise.ask Cmd.uuid
  let startedAt ← Raise.ask Cmd.now
  if ← acquireLock lib ("trr_" ++ hex) startedAt then
    Raise.ask (Cmd.insertRun ⟨"trr_" ++ hex, .running, requestedBy, request, startedAt, none, none⟩)
    return "trr_" ++ hex
  else throw (.httpException 409 "A taxonomy reconciliation run is already active")

/-- A run once its batch is staged, or could not be. -/
def concludeRun (request : RunRequest) (actor : Option Actor) (runID : String)
    (r : Except PyErr (List Failure × Graph × StageResult)) : Py RunResult :=
  Raise.tryFinally PyErr.unwinds
    (Raise.tryExcept PyErr.isException
      (do
        let (failures, graph, staged) ← Raise.lift r
        finishReconciliation lib request actor runID failures graph staged)
      (failRun runID))
    (releaseLock runID)

/-- The arguments of `run_reconciler`. -/
structure RunArguments where
  request : RunRequest
  requestedBy : String
  actor : Option Actor

/-- What a run returns, and the batch for which its `stage_retag_proposals` returned without error. -/
abbrev Watched := Except PyErr RunResult × Option (List Product)

def watchedRun (args : RunArguments) : Prog Cmd (Raising PyErr Answer) Watched :=
  Prog.bind (enterRun lib args.request args.requestedBy) fun
    | .error e => .ret (.error e, none)
    | .ok runID => Prog.bind (stageRun lib args.request runID) fun r =>
      Prog.bind (concludeRun lib args.request args.actor runID (r.map (·.2))) fun reply =>
        .ret (reply, r.toOption.map (·.1))

theorem stageBatch_snd {graph : Graph} {failures : List Failure} {maxProducts depth : ℕ}
    {runID : String} : (·.2) <$> stageBatch lib graph failures maxProducts depth runID =
      stageRetagProposals lib graph failures maxProducts depth runID := by
  simp only [stageBatch, stageRetagProposals, map_bind, map_pure]

theorem stageRun_snd {request : RunRequest} {runID : String} :
    (·.2) <$> stageRun lib request runID = stageReconciliation lib request runID := by
  simp only [stageRun, stageReconciliation, ← stageBatch_snd, map_bind, map_pure, bind_map_left]

theorem enterRun_bind {request : RunRequest} {requestedBy : String} {actor : Option Actor} :
    (enterRun lib request requestedBy >>= fun runID =>
      Raise.tryFinally PyErr.unwinds
        (Raise.tryExcept PyErr.isException (reconcile lib request actor runID) (failRun runID))
        (releaseLock runID)) = runReconciler lib request requestedBy actor := by
  simp only [enterRun, runReconciler, runLocked, bind_assoc]
  refine bind_congr fun hex => bind_congr fun startedAt => bind_congr fun acquired => ?_
  cases acquired
  · rfl
  · simp only [if_true, bind_assoc, pure_bind]

/-- The protected region is left through `concludeRun`. -/
theorem stageRun_bind {request : RunRequest} {actor : Option Actor} {runID : String} :
    Prog.bind (stageRun lib request runID) (fun r => concludeRun lib request actor runID (r.map (·.2))) =
      Raise.tryFinally PyErr.unwinds
        (Raise.tryExcept PyErr.isException (reconcile lib request actor runID) (failRun runID))
        (releaseLock runID) := by
  have hreconcile : reconcile lib request actor runID =
      stageRun lib request runID >>= fun x =>
        finishReconciliation lib request actor runID x.2.1 x.2.2.1 x.2.2.2 := by
    simp only [reconcile, ← stageRun_snd, bind_map_left]
  rw [hreconcile]
  refine Eq.trans ?_ (Prog.bind_assoc ..).symm
  refine Eq.trans ?_ (Prog.bind_assoc ..).symm
  refine congrArg _ (funext fun r => ?_)
  cases r with
  | error e => rfl
  | ok x =>
    obtain ⟨batch, failures, graph, staged⟩ := x
    change Raise.tryFinally _ (Raise.tryExcept _
      (finishReconciliation lib request actor runID failures graph staged) _) _ = _
    unfold Raise.tryFinally Raise.tryExcept
    exact Prog.bind_assoc ..

/-- The watched run is `run_reconciler`. -/
theorem watchedRun_eq {args : RunArguments} :
    Prog.bind (watchedRun lib args) (fun x => .ret x.1) =
      runReconciler lib args.request args.requestedBy args.actor := by
  rw [← enterRun_bind, watchedRun, Prog.bind_assoc]
  refine congrArg _ (funext fun r => ?_)
  cases r with
  | error e => rfl
  | ok runID =>
    refine Eq.trans ?_ (stageRun_bind lib)
    rw [Prog.bind_assoc]
    refine congrArg _ (funext fun r => ?_)
    rw [Prog.bind_assoc]
    exact Prog.bind_ret _

/-- Watched runs on one store. -/
def pass : System RunArguments Cmd (Raising PyErr Answer) Watched World Oracle Env where
  prog := watchedRun lib
  exec := Cmd.exec lib.forbiddenText
  env := Env.apply

/-- The request does not fail after the cursor has moved. -/
def staysWhole : Cmd → Oracle → World → Bool
  | .setCursor _, o, _ => o.fault.all (¬ ·.applied)
  | .findProposalKeys _, o, _ | .insertProposals _, o, _ => o.fault.isNone
  | _, _, _ => true

/-- `proposals_for_product` raises for no product that may be scanned. -/
def Suggestible (w : World) : Prop :=
  ∀ p ∈ w.products, p.eligible lib.forbiddenText → ∀ graph targets fields,
    ∃ drafts, lib.proposalsForProduct p graph targets fields = .ok drafts

/-- The identifier of a product that may be scanned. -/
def Eligible (w : World) (id : ObjectId) : Prop :=
  ∃ p ∈ w.products, p.eligible lib.forbiddenText ∧ p.id = id

variable {lib} {w w' w₀ : World} {o : Oracle} {cmd : Cmd} {r : Resp cmd} {α : Type}

abbrev passExec (lib : Library) := ((pass lib).restrict staysWhole).exec

/-! ## What a run leaves alone -/

theorem exec_eligible {id : ObjectId} (h : cmd.exec lib.forbiddenText o w = some (r, w')) :
    Eligible lib w' id ↔ Eligible lib w id := by
  by_cases htarget : cmd.target = .products
  · cases cmd with
    | addMetadata write =>
      rcases exec_addMetadata h with rfl | ⟨p, p', hget, hadded, rfl⟩
      · exact Iff.rfl
      · have hp := (Collection.get_eq_some_iff.1 hget).1
        obtain ⟨metadata, -, rfl⟩ := Option.map_eq_some_iff.1 hadded
        constructor
        · rintro ⟨q, hq, heligible, hid⟩
          rcases (mem_put hp (by rfl) (by rfl)).1 hq with rfl | ⟨hq, -⟩
          · exact ⟨p, hp, heligible, hid⟩
          · exact ⟨q, hq, heligible, hid⟩
        · rintro ⟨q, hq, heligible, hid⟩
          by_cases hne : q.id = p.id
          · obtain rfl := Collection.eq_of_id_eq hq hp hne
            exact ⟨_, (mem_put hp (by rfl) (by rfl)).2 (.inl rfl), heligible, hid⟩
          · exact ⟨q, (mem_put hp (by rfl) (by rfl)).2 (.inr ⟨hq, hne⟩), heligible, hid⟩
    | _ => cases htarget
  · unfold Eligible
    rw [(exec_frame h).products htarget]

/-- What every command of a function keeps, the function keeps. -/
theorem Keeps.closed {T : Cmd → Prop} {I : World → Prop} {p : Py α}
    (h : Keeps (fun _ cmd => T cmd) Anything p) (hI : I w)
    (hstep : ∀ {cmd o r w w'}, T cmd → I w → cmd.exec lib.forbiddenText o w = some (r, w') → I w') :
    Prog.wp (passExec lib) (fun _ w' => I w') p w := by
  refine Prog.wp_mono (fun _ _ h => ?_)
    ((h {} ⟨rfl, trivial⟩).wp (I := fun _ => I) hI fun l c o r s s' hI hT hexec => ?_)
  · obtain ⟨-, -, h⟩ := h
    exact h
  · exact hstep hT hI (System.restrict_exec.1 hexec).2

/-- Neither the products nor the cursor change. -/
structure Aside (w w' : World) : Prop where
  products : w'.products = w.products
  cursor : w'.cursor = w.cursor

def isAside (cmd : Cmd) : Prop := cmd.target ≠ .products ∧ cmd.target ≠ .cursor

theorem pass_exec (h : passExec lib cmd o w = some (r, w')) :
    cmd.exec lib.forbiddenText o w = some (r, w') :=
  (System.restrict_exec.1 h).2

theorem aside_exec (h : passExec lib cmd o w = some (r, w')) (hcmd : isAside cmd) : Aside w w' :=
  ⟨(exec_frame (pass_exec h)).products hcmd.1, (exec_frame (pass_exec h)).cursor hcmd.2⟩

theorem Aside.trans {w₁ : World} (h : Aside w w₁) (h' : Aside w₁ w') : Aside w w' :=
  ⟨h'.products.trans h.products, h'.cursor.trans h.cursor⟩

theorem Aside.eligible {id : ObjectId} (h : Aside w w') : Eligible lib w' id ↔ Eligible lib w id := by
  rw [Eligible, h.products, Eligible]

theorem aside_wp {p : Py α} (h : Keeps (fun _ cmd => isAside cmd) Anything p) :
    Prog.wp (passExec lib) (fun _ w' => Aside w w') p w := by
  refine h.closed ⟨rfl, rfl⟩ fun hcmd hI hexec => ?_
  exact ⟨((exec_frame hexec).products hcmd.1).trans hI.products,
    ((exec_frame hexec).cursor hcmd.2).trans hI.cursor⟩

theorem enterRun_aside {request : RunRequest} {requestedBy : String} :
    Keeps (fun _ cmd => isAside cmd) Anything (enterRun lib request requestedBy) := by
  refine keeps_bind (keeps_command fun _ => ⟨nofun, nofun⟩) fun hex => ?_
  refine keeps_bind (keeps_command fun _ => ⟨nofun, nofun⟩) fun startedAt => ?_
  refine keeps_bind (keeps_tryExcept ?_ ?_ fun _ _ => keeps_pure) fun acquired => ?_
  · exact keeps_bind (keeps_command fun _ => ⟨nofun, nofun⟩) fun lock => keeps_pure
  · intro e he
    rw [of_decide_eq_true he]
    rfl
  · split
    · exact keeps_bind (keeps_command fun _ => ⟨nofun, nofun⟩) fun _ => keeps_pure
    · exact keeps_throw rfl

theorem buildOrLoadGraph_aside {failures : List Failure} {useAI rebuild : Bool} :
    Keeps (fun _ cmd => isAside cmd) Anything (buildOrLoadGraph lib failures useAI rebuild) := by
  refine (Keeps.anything fun _ => buildOrLoadGraph_keeps).mono fun l cmd h => ?_
  rcases List.mem_cons.1 h.2 with htarget | htarget
  · exact ⟨by rw [htarget]; exact nofun, by rw [htarget]; exact nofun⟩
  · rw [List.mem_singleton] at htarget
    exact ⟨by rw [htarget]; exact nofun, by rw [htarget]; exact nofun⟩

theorem finishReconciliation_keepsCursor {request : RunRequest} {actor : Option Actor}
    {runID : String} {failures : List Failure} {graph : Graph} {staged : StageResult} :
    Keeps (fun _ cmd => cmd.target ≠ .cursor) Anything
      (finishReconciliation lib request actor runID failures graph staged) := by
  have hretags : ∀ {α : Type} {p : Py α},
      (∀ failures, Keeps (InnerOn lib retagTargets) (Lists failures) p) →
      Keeps (fun _ cmd => cmd.target ≠ .cursor) Anything p := by
    intro α p h
    refine (Keeps.anything h).mono fun l cmd hcmd htarget => ?_
    rw [InnerOn, htarget] at hcmd
    simp [retagTargets] at hcmd
  refine keeps_bind (hretags fun _ => autoApply_keeps) fun applied => ?_
  refine keeps_bind (keeps_command fun _ => nofun) fun now => ?_
  refine keeps_bind (keeps_when fun _ => keeps_command fun _ => nofun) fun _ => ?_
  refine keeps_bind (keeps_command fun _ => nofun) fun _ => ?_
  exact keeps_bind (hretags fun _ => writeAudit_keeps stable_lists) fun _ => keeps_pure

/-- The cursor and what may be scanned are the same. -/
def SamePass (lib : Library) (w w' : World) : Prop :=
  w'.cursor = w.cursor ∧ ∀ id, Eligible lib w' id ↔ Eligible lib w id

theorem SamePass.exec {w₁ : World} (h : SamePass lib w w₁) (hcmd : cmd.target ≠ .cursor)
    (hexec : cmd.exec lib.forbiddenText o w₁ = some (r, w')) : SamePass lib w w' :=
  ⟨((exec_frame hexec).cursor hcmd).trans h.1, fun id => (exec_eligible hexec).trans (h.2 id)⟩

/-- What a run does once its batch is staged moves neither. -/
theorem concludeRun_wp {request : RunRequest} {actor : Option Actor} {runID : String}
    {r : Except PyErr (List Failure × Graph × StageResult)} :
    Prog.wp (passExec lib) (fun _ w' => SamePass lib w w') (concludeRun lib request actor runID r) w := by
  have hask : ∀ {cmd : Cmd}, cmd.target ≠ .cursor →
      Raise.Preserves (passExec lib) (SamePass lib w) (Raise.ask cmd : Py (Answer cmd)) :=
    fun hcmd => Raise.preserves_ask fun o r s s' h hexec => h.exec hcmd (pass_exec hexec)
  have hrelease : Raise.Preserves (passExec lib) (SamePass lib w) (releaseLock runID) := hask nofun
  refine Raise.preserves_tryFinally (Raise.preserves_tryExcept ?_ fun e => ?_) hrelease w
    ⟨rfl, fun _ => Iff.rfl⟩
  · refine Raise.preserves_bind Raise.preserves_lift fun (failures, graph, staged) w₁ h => ?_
    exact finishReconciliation_keepsCursor.closed h fun hcmd h hexec => h.exec hcmd hexec
  · refine Raise.preserves_bind (hask nofun) fun completedAt => ?_
    refine Raise.preserves_bind (hask nofun) fun updatedAt => ?_
    exact Raise.preserves_bind (hask nofun) fun _ => Raise.preserves_throw

/-! ## Scanning a batch -/

/-- Up to where the cursor is afterwards, a product is in the batch or was passed before. -/
def Covers (lib : Library) (w w' : World) (batch : List Product) : Prop :=
  ∀ c, w'.cursor = some c → ∀ id, Eligible lib w id → id ≤ c →
    (∃ c₀, w.cursor = some c₀ ∧ id ≤ c₀) ∨ id ∈ batch.map (·.id)

/-- The batch of products that are scanned. -/
structure Batch (lib : Library) (w : World) (batch : List Product) : Prop where
  eligible : ∀ p ∈ batch, p ∈ w.products ∧ p.eligible lib.forbiddenText
  covers : ∀ p ∈ batch, ∀ id, Eligible lib w id → id ≤ p.id →
    (∃ c₀, w.cursor = some c₀ ∧ id ≤ c₀) ∨ id ∈ batch.map (·.id)

theorem exec_findProducts {after : Option ObjectId} {limit : ℕ} {batch : List Product}
    (h : (Cmd.findProducts after limit).exec lib.forbiddenText o w = some (.ok batch, w'))
    (hafter : after = none ∨ after = w.cursor) : Batch lib w batch := by
  have hbatch := (Except.ok.inj (respond_ok h)).symm
  refine ⟨fun p hp => ?_, fun p hp id heligible hle => ?_⟩
  · rw [hbatch] at hp
    obtain ⟨hmem, hfilter⟩ := List.mem_filter.1 (mem_of_sortLimit hp)
    exact ⟨hmem, (of_decide_eq_true hfilter).1⟩
  · obtain ⟨q, hq, hqeligible, rfl⟩ := heligible
    by_cases hbehind : after.all (· < q.id)
    · right
      rw [hbatch] at hp ⊢
      refine List.mem_map_of_mem (mem_sortLimit_of_le (f := Product.id) ?_ hp ?_ hle)
      · intro a ha b hb hab
        exact Collection.eq_of_id_eq (s := w.products) (List.mem_of_mem_filter ha)
          (List.mem_of_mem_filter hb) hab
      · exact List.mem_filter.2 ⟨hq, decide_eq_true ⟨hqeligible, hbehind⟩⟩
    · left
      cases after with
      | none => exact absurd rfl hbehind
      | some c₀ =>
        refine ⟨c₀, (hafter.resolve_left nofun).symm, ?_⟩
        simpa using hbehind

theorem Batch.of_aside {w₁ : World} {batch : List Product} (h : Batch lib w₁ batch)
    (haside : Aside w w₁) : Batch lib w batch := by
  refine ⟨fun p hp => ?_, fun p hp id heligible hle => ?_⟩
  · rw [← haside.products]
    exact h.eligible p hp
  · rw [← haside.cursor]
    exact h.covers p hp id (haside.eligible.2 heligible) hle

/-- A part of the scan that moves nothing. -/
abbrev Scanned (lib : Library) (w : World) : Except PyErr (List Product) → World → Prop :=
  Raise.Post (fun batch w' => Aside w w' ∧ Batch lib w batch) fun _ w' => Aside w w'

theorem findProducts_wp {after : Option ObjectId} {limit : ℕ} (hafter : after = none ∨ after = w.cursor) :
    Prog.wp (passExec lib) (Scanned lib w) (Raise.ask (Cmd.findProducts after limit)) w := by
  intro o r w' hexec
  have haside := aside_exec hexec ⟨nofun, nofun⟩
  cases r with
  | error e => exact haside
  | ok batch => exact ⟨haside, exec_findProducts (pass_exec hexec) hafter⟩

theorem nextProducts_wp {limit : ℕ} :
    Prog.wp (passExec lib) (Scanned lib w) (nextProducts w.cursor limit) w := by
  refine Raise.wp_bind.2 (Prog.wp_mono (fun r w₁ h => ?_) (findProducts_wp (.inr rfl)))
  cases r with
  | error e => exact h
  | ok products =>
    obtain ⟨h₁, hbatch⟩ := h
    simp only [Raise.Post]
    split
    · -- past the last product, the pass starts again
      refine Prog.wp_mono (fun r w₂ h => ?_) (findProducts_wp (.inl rfl))
      cases r with
      | error e => exact h₁.trans h
      | ok batch => exact ⟨h₁.trans h.1, h.2.of_aside h₁⟩
    · exact ⟨h₁, hbatch⟩

/-- How the staging of a batch ends. -/
def Staged (lib : Library) (w : World) : Except PyErr (List Product) → World → Prop :=
  Raise.Post (fun batch w' => w'.products = w.products ∧
      (∀ p ∈ batch, p ∈ w.products ∧ p.eligible lib.forbiddenText) ∧ Covers lib w w' batch)
    fun _ w' => Aside w w'

theorem covers_of_cursor {batch : List Product} (h : w'.cursor = w.cursor) : Covers lib w w' batch :=
  fun c hc _ _ hle => .inl ⟨c, h ▸ hc, hle⟩

theorem scanProductBatch_wp {limit : ℕ} :
    Prog.wp (passExec lib) (Staged lib w) (scanProductBatch limit) w := by
  refine Raise.wp_ask_bind.2 fun o r w₁ hexec => ?_
  have h₁ := aside_exec hexec ⟨nofun, nofun⟩
  cases r with
  | error e => exact h₁
  | ok cursor =>
    obtain rfl : cursor = w.cursor := (Except.ok.inj (respond_ok (pass_exec hexec))).symm
    rw [← h₁.cursor]
    refine Raise.wp_bind.2 (Prog.wp_mono (fun r w₂ h => ?_) nextProducts_wp)
    cases r with
    | error e => exact h₁.trans h
    | ok batch =>
      have h₂ := h₁.trans h.1
      have hbatch := h.2.of_aside h₁
      dsimp only [Raise.Post]
      unfold advanceCursor
      split
      · rename_i p hlast
        have hp : p ∈ batch := List.mem_of_getLast? hlast
        refine Raise.wp_ask_bind.2 fun o r w₃ hexec => ?_
        obtain ⟨hwhole, hexec⟩ := System.restrict_exec.1 hexec
        rcases perform_eq hexec with ⟨-, rfl, rfl⟩ | ⟨f, hf, rfl, rfl⟩
        · refine ⟨h₂.products, hbatch.eligible, fun c hc id heligible hle => ?_⟩
          obtain rfl := Option.some.inj hc
          exact hbatch.covers p hp id heligible hle
        · simp only [staysWhole, hf, Option.all_some, decide_eq_true_eq] at hwhole
          rw [if_neg hwhole]
          exact h₂
      · exact ⟨h₂.products, hbatch.eligible, covers_of_cursor h₂.cursor⟩

/-! ## Staging it -/

theorem stagedDocuments_ok {graph : Graph} {targets : List (String × Document)}
    {fields : List TaxonomyField} {runID : String} {now : Time} {products : List Product}
    (h : ∀ p ∈ products, ∃ drafts, lib.proposalsForProduct p graph targets fields = .ok drafts) :
    ∃ documents, stagedDocuments lib graph targets fields runID now products = .ok documents := by
  induction products with
  | nil => exact ⟨[], rfl⟩
  | cons p products ih =>
    obtain ⟨drafts, hdrafts⟩ := h p List.mem_cons_self
    obtain ⟨documents, hdocuments⟩ := ih fun q hq => h q (List.mem_cons_of_mem _ hq)
    rw [stagedDocuments, hdrafts, hdocuments]
    exact ⟨_, rfl⟩

theorem insertNewProposals_wp {documents : List ProposalDocument} :
    Prog.wp (passExec lib) (fun r w' => r = .ok () ∧ Aside w w') (insertNewProposals documents) w := by
  unfold insertNewProposals
  split
  · exact ⟨rfl, rfl, rfl⟩
  refine Raise.wp_ask_bind.2 fun o r w₁ hexec => ?_
  have h₁ := aside_exec hexec ⟨nofun, nofun⟩
  obtain ⟨hfault, hexec⟩ := System.restrict_exec.1 hexec
  have hnone : o.fault = none := Option.isNone_iff_eq_none.1 hfault
  cases r with
  | error e =>
    rcases (respond_eq hexec).2 with h | ⟨f, hf, -⟩
    · cases h
    · rw [hnone] at hf
      cases hf
  | ok existing =>
    dsimp only [Raise.Post]
    split
    · exact ⟨rfl, h₁⟩
    apply Raise.wp_tryExcept
    intro o' r w₂ hexec'
    have h₂ := h₁.trans (aside_exec hexec' ⟨nofun, nofun⟩)
    obtain ⟨hfault', hexec'⟩ := System.restrict_exec.1 hexec'
    have hnone' : o'.fault = none := Option.isNone_iff_eq_none.1 hfault'
    simp only [pass, Cmd.exec, hnone'] at hexec'
    split at hexec'
    · cases hexec'
    · obtain ⟨rfl, -⟩ := Prod.mk.inj (Option.some.inj hexec')
      split
      · exact ⟨rfl, h₂⟩
      · -- only duplicates are refused, and these are passed over
        simp only [Prog.wp_ret, Raise.Post, PyErr.isBulkWrite, if_true]
        rw [if_neg (by simp)]
        exact ⟨rfl, h₂⟩

theorem stageBatch_wp {graph : Graph} {failures : List Failure} {maxProducts depth : ℕ}
    {runID : String} (h : Suggestible lib w) :
    Prog.wp (passExec lib) (Raise.Post (fun x w' => w'.products = w.products ∧ Covers lib w w' x.1)
      fun _ w' => Aside w w') (stageBatch lib graph failures maxProducts depth runID) w := by
  refine Raise.wp_ask_bind.2 fun o r w₁ hexec => ?_
  have h₁ := aside_exec hexec ⟨nofun, nofun⟩
  cases r with
  | error e => exact h₁
  | ok fields =>
    dsimp only [Raise.Post]
    cases lib.targetSignals graph failures depth fields with
    | error e => exact h₁
    | ok targets =>
      change Prog.wp _ _ (scanProductBatch maxProducts >>= _) w₁
      refine Raise.wp_bind.2 (Prog.wp_mono (fun r w₂ h₂ => ?_) scanProductBatch_wp)
      cases r with
      | error e => exact h₁.trans h₂
      | ok batch =>
        obtain ⟨hproducts, heligible, hcovers⟩ := h₂
        have hproducts₂ : w₂.products = w.products := hproducts.trans h₁.products
        have hcovers₂ : Covers lib w w₂ batch := fun c hc id hid hle => by
          rw [← h₁.cursor]
          exact hcovers c hc id (h₁.eligible.2 hid) hle
        refine Raise.wp_ask_bind.2 fun o r w₃ hexec => ?_
        have h₃ := aside_exec hexec ⟨nofun, nofun⟩
        cases r with
        | error e =>
          obtain ⟨hnow, -⟩ := Prod.mk.inj (Option.some.inj (pass_exec hexec))
          cases hnow
        | ok now =>
          have hdocuments : ∃ documents,
              stagedDocuments lib graph targets fields runID now batch = .ok documents := by
            refine stagedDocuments_ok fun p hp => ?_
            obtain ⟨hp, hpeligible⟩ := heligible p hp
            exact h p (h₁.products ▸ hp) hpeligible graph targets fields
          obtain ⟨documents, hdocuments⟩ := hdocuments
          dsimp only [Raise.Post]
          rw [hdocuments]
          change Prog.wp _ _ (insertNewProposals documents >>= _) w₃
          refine Raise.wp_bind.2 (Prog.wp_mono (fun r w₄ h₄ => ?_) insertNewProposals_wp)
          obtain ⟨rfl, h₄⟩ := h₄
          replace h₄ := h₃.trans h₄
          refine ⟨h₄.products.trans hproducts₂, fun c hc id hid hle => ?_⟩
          exact hcovers₂ c (h₄.cursor ▸ hc) id hid hle

theorem stageRun_wp {request : RunRequest} {runID : String} (h : Suggestible lib w) :
    Prog.wp (passExec lib) (Raise.Post (fun x w' => w'.products = w.products ∧ Covers lib w w' x.1)
      fun _ w' => Aside w w') (stageRun lib request runID) w := by
  refine Raise.wp_ask_bind.2 fun o r w₁ hexec => ?_
  have h₁ := aside_exec hexec ⟨nofun, nofun⟩
  cases r with
  | error e => exact h₁
  | ok failures =>
    refine Raise.wp_bind.2 (Prog.wp_mono (fun r w₂ h₂ => ?_) (aside_wp buildOrLoadGraph_aside))
    replace h₂ := h₁.trans h₂
    cases r with
    | error e => exact h₂
    | ok graph =>
      have hsuggestible : Suggestible lib w₂ := by
        unfold Suggestible
        rwa [h₂.products]
      refine Raise.wp_bind.2 (Prog.wp_mono (fun r w₃ h₃ => ?_) (stageBatch_wp hsuggestible))
      cases r with
      | error e => exact h₂.trans h₃
      | ok x =>
        refine ⟨h₃.1.trans h₂.products, fun c hc id hid hle => ?_⟩
        rw [← h₂.cursor]
        exact h₃.2 c hc id (h₂.eligible.2 hid) hle

/-- A run passes only products that its staged batch contains. -/
def Passes (lib : Library) (w w' : World) (batch : Option (List Product)) : Prop :=
  (∀ id, Eligible lib w' id ↔ Eligible lib w id) ∧
    ∀ c, w'.cursor = some c → ∀ id, Eligible lib w id → id ≤ c →
      (∃ c₀, w.cursor = some c₀ ∧ id ≤ c₀) ∨ ∃ b, batch = some b ∧ id ∈ b.map (·.id)

theorem SamePass.passes {batch : Option (List Product)} (h : SamePass lib w w') :
    Passes lib w w' batch :=
  ⟨h.2, fun c hc _ _ hle => .inl ⟨c, h.1 ▸ hc, hle⟩⟩

theorem watchedRun_wp {args : RunArguments} (h : Suggestible lib w) :
    Prog.wp (passExec lib) (fun x w' => Passes lib w w' x.2) (watchedRun lib args) w := by
  refine Prog.wp_bind.2 (Prog.wp_mono (fun r w₁ h₁ => ?_) (aside_wp enterRun_aside))
  have hsame₁ : SamePass lib w w₁ := ⟨h₁.cursor, fun _ => h₁.eligible⟩
  cases r with
  | error e => exact hsame₁.passes
  | ok runID =>
    have hsuggestible : Suggestible lib w₁ := by
      unfold Suggestible
      rwa [h₁.products]
    refine Prog.wp_bind.2 (Prog.wp_mono (fun r w₂ h₂ => ?_) (stageRun_wp hsuggestible))
    refine Prog.wp_bind.2 (Prog.wp_mono (fun reply w₃ h₃ => ?_) concludeRun_wp)
    obtain ⟨hcursor, heligible⟩ := h₃
    cases r with
    | error e =>
      have h₂ := h₁.trans h₂
      exact (show SamePass lib w w₃ from
        ⟨hcursor.trans h₂.cursor, fun id => (heligible id).trans h₂.eligible⟩).passes
    | ok x =>
      have hproducts : w₂.products = w.products := h₂.1.trans h₁.products
      refine ⟨fun id => (heligible id).trans (by rw [Eligible, hproducts, Eligible]), ?_⟩
      intro c hc id hid hle
      rcases h₂.2 c (hcursor ▸ hc) id (h₁.eligible.2 hid) hle with hpassed | hbatch
      · exact .inl (h₁.cursor ▸ hpassed)
      · exact .inr ⟨x.1, rfl, hbatch⟩

/-! ## Passes -/

variable {h : List (RunArguments × Watched)}

/-- Some run has staged the product. -/
def StagedIn (h : List (RunArguments × Watched)) (id : ObjectId) : Prop :=
  ∃ x ∈ h, ∃ batch, x.2.2 = some batch ∧ id ∈ batch.map (·.id)

end Reconciler

/-! ## A run that fails after the cursor has moved -/

namespace Sample

namespace Reconciler

/-- The store with two products on sale. -/
def catalogue : Stylme.Reconciler.World :=
  { world with products := ⟨[product, { product with id := 2 }], by decide, by decide⟩ }

/-- A run over one product. -/
def oneByOne : Stylme.Reconciler.RunArguments := ⟨⟨10, 1, 2, false, false, false⟩, "owner", none⟩

/-- The oracles of a run that builds a graph, with what befalls its cursor update. -/
def building (random : String) (fault : Option Mishap) : List Stylme.Reconciler.Oracle :=
  [{ random := random }] ++ quiet 9 ++ [{ objectIDs := [5] }] ++ quiet 5 ++ [{ fault := fault }] ++
    quiet 10

/-- The oracles of a run that loads the graph, with what befalls its first read. -/
def loading (random : String) (fault : Option Mishap) : List Stylme.Reconciler.Oracle :=
  [{ random := random }] ++ quiet 3 ++ [{ fault := fault }] ++ quiet 20

end Reconciler

end Sample

namespace Reconciler

theorem suggestible_sample {w : World} : Suggestible Sample.Reconciler.library w :=
  fun _ _ _ _ _ _ => ⟨[], rfl⟩

end Reconciler

end Stylme
