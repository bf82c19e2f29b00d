-- SUMMARY: What an operation on the reconciler's store remembers of its reads, and the commands it issues given these.
import Stylme.Reconciler.Effects
import Stylme.Reconciler.Runs

/-!
# The protocol of the reconciler

A phase holds what an operation has read so far. The commands that matter to
other operations are functions of it: the product and proposal writes are those
of the plan for the proposals it selected, and the failures it marks are those it
listed. After an exception that nothing catches, only finalizers run.
-/

namespace Stylme

open Conc Backend

namespace Reconciler

/-- What an operation has read, and whether it is on its way out. -/
structure Phase where
  fields : List TaxonomyField := []
  failures : List Failure := []
  selected : List Proposal := []
  products : List Product := []
  dead : Bool := false

/-- The plan for the proposals the operation has selected. -/
def Phase.plan (l : Phase) : RetagPlan := planRetags l.fields l.products l.selected

variable (lib : Library)

/-- A proposal as it is staged. -/
def ProposalDocument.Staged (d : ProposalDocument) : Prop :=
  d.status = .proposed ∧ d.proposalKey = Reconciler.proposalKey lib d.productID d.field d.value

/-- The commands of the functions that runs and other operations call. -/
def Inner (l : Phase) : Cmd → Prop
  | .addMetadata write =>
    l.dead = false ∧ ∃ runID updatedAt, write ∈ l.plan.writes runID updatedAt
  | .applyProposals ids _ _ => l.dead = false ∧ ids = l.plan.appliedIDs
  | .dropProposals ids _ => l.dead = false ∧ ids = l.plan.staleIDs
  | .insertProposals documents => l.dead = false ∧ ∀ d ∈ documents, d.Staged lib
  | .uuid | .acquireLock _ _ _ | .releaseLock _ | .insertRun _ | .finishRun _ _ _ _
  | .markProcessed _ _ _ _ | .recoverFailure _ _ _ | .reopenFailure _ | .decideProposal _ _ => False
  | _ => l.dead = false

/-- The commands of these functions that write to nothing else. -/
def InnerOn (targets : List Target) (l : Phase) (cmd : Cmd) : Prop :=
  Inner lib l cmd ∧ cmd.target ∈ targets

/-- The commands of an operation itself. -/
def Outer (op : Op) (l : Phase) : Cmd → Prop
  | .uuid | .acquireLock _ _ _ | .releaseLock _ | .insertRun _ | .finishRun _ _ _ _ =>
    ∃ request requestedBy actor, op = .runReconciler request requestedBy actor
  | .markProcessed ids _ _ _ => l.dead = false ∧ ids = l.failures.map (·.id) ∧
    ∃ request requestedBy actor, op = .runReconciler request requestedBy actor
  | .recoverFailure _ _ _ | .reopenFailure _ => ∃ o, op = .recordSearchOutcome o
  | .decideProposal id review => ∃ request, op = .decideRetagProposal request ∧
      lib.parseID request.proposalID = some id ∧ review.decision = request.decision
  | .now => True
  | _ => False

def next (l : Phase) : (cmd : Cmd) → Resp cmd → Phase
  | .taxonomySnapshot, .ok fields => { l with fields }
  | .findFailures _, .ok failures => { l with failures }
  | .findProposals _ _, .ok selected => { l with selected, products := [] }
  | .findProductMetadata _, .ok products => { l with products }
  | _, .error e => { l with dead := l.dead || !e.isException }
  | _, _ => l

def inner : Protocol Cmd (Raising PyErr Answer) Phase := ⟨Inner lib, next⟩

def Op.protocol (op : Op) : Protocol Cmd (Raising PyErr Answer) Phase :=
  ⟨fun l c => Inner lib l c ∨ Outer lib op l c, next⟩

/-- The exception leaves every `except Exception` behind. -/
def uncaught {α : Type} : Except PyErr α → Bool
  | .ok _ => false
  | .error e => !e.isException

/-- The phase in which a function ends that keeps the memory `K`. -/
structure Ends (K : Phase → Prop) {α : Type} (l : Phase) (r : Except PyErr α) : Prop where
  dead : l.dead = uncaught r
  memory : K l

/-- A phase with the memory `K` from which commands can be issued. -/
structure Live (K : Phase → Prop) (l : Phase) : Prop where
  dead : l.dead = false
  memory : K l

section Ends

variable {K K' : Phase → Prop} {l : Phase} {α β : Type} {e : PyErr}

theorem Ends.error (h : Ends K l (.error e : Except PyErr α)) :
    Ends K l (.error e : Except PyErr β) := ⟨h.dead, h.memory⟩

theorem Ends.mono {r : Except PyErr α} (h : Ends K l r) (hK : ∀ l, K l → K' l) : Ends K' l r :=
  ⟨h.dead, hK l h.memory⟩

theorem Ends.live {a : α} (h : Ends K l (.ok a)) : Live K l := ⟨h.dead, h.memory⟩

theorem Ends.caught (h : Ends K l (.error e : Except PyErr α)) (he : e.isException) : Live K l :=
  ⟨by rw [h.dead, uncaught, he]; rfl, h.memory⟩

theorem Live.ends {a : α} (h : Live K l) : Ends K l (.ok a) := ⟨h.dead, h.memory⟩

theorem Live.raises (h : Live K l) (he : e.isException) : Ends K l (.error e : Except PyErr α) :=
  ⟨by rw [h.dead, uncaught, he]; rfl, h.memory⟩

end Ends

/-- The command reads what a phase remembers. -/
def Cmd.isRead : Cmd → Bool
  | .taxonomySnapshot | .findFailures _ | .findProposals _ _ | .findProductMetadata _ => true
  | _ => false

/-- Any other command teaches at most that an exception was raised. -/
theorem next_of_not_isRead {l : Phase} {cmd : Cmd} (hcmd : ¬ cmd.isRead) (r : Resp cmd) :
    next l cmd r = { l with dead := l.dead || uncaught r } := by
  cases r with
  | error e => cases cmd <;> rfl
  | ok a =>
    have hdead : (l.dead || uncaught (.ok a : Resp cmd)) = l.dead := Bool.or_false _
    rw [hdead]
    cases cmd with
    | taxonomySnapshot | findFailures n | findProposals q n | findProductMetadata ids =>
      exact absurd rfl hcmd
    | _ => rfl

theorem next_error {l : Phase} {cmd : Cmd} {e : PyErr} :
    next l cmd (.error e) = { l with dead := l.dead || !e.isException } := by
  cases cmd <;> rfl

theorem next_dead {l : Phase} {cmd : Cmd} {r : Resp cmd} :
    (next l cmd r).dead = (l.dead || uncaught r) := by
  by_cases hcmd : cmd.isRead
  · cases r with
    | error e => rw [next_error, uncaught]
    | ok a =>
      cases cmd with
      | taxonomySnapshot | findFailures n | findProposals q n | findProductMetadata ids =>
        exact (Bool.or_false _).symm
      | _ => cases hcmd
  · rw [next_of_not_isRead hcmd]

/-- Memory that does not depend on the way out. -/
def Stable (K : Phase → Prop) : Prop := ∀ l b, K l → K { l with dead := b }

variable {lib} {K K' : Phase → Prop} {l : Phase} {α β : Type}

theorem Live.next_error (h : Live K l) (hK : Stable K) (cmd : Cmd) (e : PyErr) :
    Ends K (next l cmd (.error e)) (.error e : Except PyErr α) := by
  rw [Reconciler.next_error]
  exact ⟨by simp [h.dead, uncaught], hK l _ h.memory⟩

theorem Live.next_of_not_isRead (h : Live K l) (hK : Stable K) {cmd : Cmd} (hcmd : ¬ cmd.isRead)
    (r : Resp cmd) : Ends K (next l cmd r) r := by
  rw [Reconciler.next_of_not_isRead hcmd]
  exact ⟨by simp [h.dead], hK l _ h.memory⟩

/-! ## Rules -/

/-- From a phase with the memory `K`, the coroutine issues permitted commands and keeps `K`. -/
abbrev Keeps (permits : Phase → Cmd → Prop) (K : Phase → Prop) (p : Py α) : Prop :=
  ∀ l, Live K l → Prog.Conforms ⟨permits, next⟩ (Ends K) l p

variable {permits permits' : Phase → Cmd → Prop}

theorem Keeps.mono {p : Py α} (h : Keeps permits K p) (hle : ∀ l c, permits l c → permits' l c) :
    Keeps permits' K p :=
  fun l hl => (h l hl).widen hle rfl

theorem keeps_pure {a : α} : Keeps permits K (pure a) := fun _ h => Raise.conforms_pure h.ends

theorem keeps_throw {e : PyErr} (he : e.isException) : Keeps permits K (throw e : Py α) :=
  fun _ h => Raise.conforms_throw (h.raises he)

theorem keeps_lift {r : Except Raised α} : Keeps permits K (liftRaised r) := by
  intro l h
  apply Raise.conforms_lift
  cases r with
  | ok a => exact h.ends
  | error e => exact h.raises rfl

theorem keeps_bind {p : Py α} {f : α → Py β} (h : Keeps permits K p) (hf : ∀ a, Keeps permits K (f a)) :
    Keeps permits K (p >>= f) :=
  fun l hl => Raise.conforms_bind (h l hl) (fun l a ha => hf a l ha.live) fun _ _ he => he.error

theorem keeps_lift_bind {r : Except Raised α} {f : α → Py β}
    (hf : ∀ a, r = .ok a → Keeps permits K (f a)) : Keeps permits K (liftRaised r >>= f) := by
  cases r with
  | error e => exact fun l hl => Raise.conforms_lift (hl.raises rfl)
  | ok a => exact hf a rfl

theorem keeps_ask {cmd : Cmd} (hK : Stable K) (hcmd : ¬ cmd.isRead)
    (hpermits : ∀ l, Live K l → permits l cmd) : Keeps permits K (Raise.ask cmd) :=
  fun l hl => Raise.conforms_ask (hpermits l hl) (hl.next_of_not_isRead hK hcmd)

theorem keeps_tryExcept {catches : PyErr → Bool} {p : Py α} {handler : PyErr → Py α}
    (h : Keeps permits K p) (hcatches : ∀ e, catches e → e.isException)
    (hhandler : ∀ e, catches e → Keeps permits K (handler e)) :
    Keeps permits K (Raise.tryExcept catches p handler) :=
  fun l hl => Raise.conforms_tryExcept (h l hl) (fun _ _ h => h)
    (fun l e he hl => hhandler e he l (hl.caught (hcatches e he))) fun _ _ h => h

theorem keeps_when {b : Bool} {p : Py Unit} (h : b → Keeps permits K p) :
    Keeps permits K (Raise.when b p) := by
  unfold Raise.when
  split
  · rename_i hb
    exact h hb
  · exact keeps_pure

theorem keeps_forAll {f : α → Py Unit} {as : List α} (hf : ∀ a ∈ as, Keeps permits K (f a)) :
    Keeps permits K (Raise.forAll PyErr.isBulkWrite f as) := by
  have hcaught : ∀ e, PyErr.isBulkWrite e → e.isException := by
    intro e he
    cases e <;> first | rfl | cases he
  intro l hl
  exact Raise.conforms_forAll hf hl (fun l hl => hl.ends) (fun l hl => hl.live)
    (fun l e he hl => hl.caught (hcaught e he)) fun l e he hl => hl.raises (hcaught e he)

/-- The list of failures a run works on. -/
def Lists (failures : List Failure) (l : Phase) : Prop := l.failures = failures

theorem stable_lists {failures : List Failure} : Stable (Lists failures) := fun _ _ h => h

variable {failures : List Failure} {targets : List Target}

theorem Keeps.inner {p : Py α} (h : Keeps (InnerOn lib targets) K p) : Keeps (Inner lib) K p :=
  h.mono fun _ _ h => h.1

/-- A command that neither reads nor writes what other operations decide. -/
theorem keeps_plain {cmd : Cmd} (hcmd : ¬ cmd.isRead) (htarget : targets.contains cmd.target)
    (hinner : ∀ l, l.dead = false → Inner lib l cmd) :
    Keeps (InnerOn lib targets) (Lists failures) (Raise.ask cmd) :=
  keeps_ask stable_lists hcmd fun l hl => ⟨hinner l hl.dead, List.contains_iff_mem.1 htarget⟩

theorem keeps_taxonomySnapshot (htarget : .nothing ∈ targets) :
    Keeps (InnerOn lib targets) (Lists failures) (Raise.ask Cmd.taxonomySnapshot) := by
  refine fun l hl => Raise.conforms_ask ⟨hl.dead, htarget⟩ fun r => ?_
  cases r with
  | error e => exact hl.next_error stable_lists .taxonomySnapshot e
  | ok fields => exact ⟨hl.dead, hl.memory⟩

/-! ## Graphs -/

theorem modelEdges_keeps {fields : List TaxonomyField} {fs : List Failure} {useAI : Bool}
    {content : GraphContent} : Keeps (InnerOn lib [.nothing, .graphs]) (Lists failures) (modelEdges fields fs useAI content) := by
  unfold modelEdges
  split
  · exact keeps_plain nofun rfl fun _ h => h
  · exact keeps_pure

theorem latestGraph_keeps {active : Option Graph} : Keeps (InnerOn lib [.nothing, .graphs]) (Lists failures) (latestGraph active) := by
  cases active with
  | some g => exact keeps_pure
  | none => exact keeps_plain nofun rfl fun _ h => h

theorem draftGraph_keeps {fields : List TaxonomyField} {fs : List Failure} {useAI : Bool}
    {active : Option Graph} : Keeps (InnerOn lib [.nothing, .graphs]) (Lists failures) (draftGraph lib fields fs useAI active) := by
  refine keeps_bind (keeps_plain nofun rfl fun _ h => h) fun searchModel => ?_
  refine keeps_bind keeps_lift fun content => ?_
  refine keeps_bind modelEdges_keeps fun (aiEdges, aiMeta) => ?_
  refine keeps_bind keeps_lift fun content => ?_
  refine keeps_bind latestGraph_keeps fun latest => ?_
  exact keeps_bind (keeps_plain nofun rfl fun _ h => h) fun createdAt => keeps_pure

theorem restoreGraph_keeps {active : Option Graph} {id : ObjectId} {e : PyErr}
    (he : e.isException) : Keeps (InnerOn lib [.nothing, .graphs]) (Lists failures) (restoreGraph active id e) := by
  have hdelete : Keeps (InnerOn lib [.nothing, .graphs]) (Lists failures) (do Raise.ask (Cmd.deleteGraph id); throw e : Py Graph) :=
    keeps_bind (keeps_plain nofun rfl fun _ h => h) fun _ => keeps_throw he
  cases active with
  | some g => exact keeps_bind (keeps_plain nofun rfl fun _ h => h) fun _ => hdelete
  | none => exact hdelete

theorem installGraph_keeps {active : Option Graph} {document : GraphDocument} :
    Keeps (InnerOn lib [.nothing, .graphs]) (Lists failures) (installGraph active document) := by
  refine keeps_bind (keeps_plain nofun rfl fun _ h => h) fun id => ?_
  refine keeps_tryExcept ?_ (fun _ he => he) fun e he => restoreGraph_keeps he
  refine keeps_bind (keeps_plain nofun rfl fun _ h => h) fun _ => ?_
  exact keeps_bind (keeps_plain nofun rfl fun _ h => h) fun _ => keeps_pure

theorem buildOrLoadGraph_keeps {fs : List Failure} {useAI rebuild : Bool} :
    Keeps (InnerOn lib [.nothing, .graphs]) (Lists failures) (buildOrLoadGraph lib fs useAI rebuild) := by
  refine keeps_bind (keeps_taxonomySnapshot List.mem_cons_self) fun fields => ?_
  refine keeps_bind (keeps_plain nofun rfl fun _ h => h) fun active => ?_
  dsimp only
  split
  · exact keeps_pure
  · exact keeps_bind draftGraph_keeps fun document => installGraph_keeps

/-! ## Staging -/

theorem nextProducts_keeps {cursor : Option ObjectId} {limit : ℕ} :
    Keeps (InnerOn lib [.nothing, .cursor]) (Lists failures) (nextProducts cursor limit) := by
  refine keeps_bind (keeps_plain nofun rfl fun _ h => h) fun products => ?_
  split
  · exact keeps_plain nofun rfl fun _ h => h
  · exact keeps_pure

theorem advanceCursor_keeps {products : List Product} :
    Keeps (InnerOn lib [.nothing, .cursor]) (Lists failures) (advanceCursor products) := by
  unfold advanceCursor
  split
  · exact keeps_plain nofun rfl fun _ h => h
  · exact keeps_pure

theorem scanProductBatch_keeps {limit : ℕ} :
    Keeps (InnerOn lib [.nothing, .cursor]) (Lists failures) (scanProductBatch limit) := by
  refine keeps_bind (keeps_plain nofun rfl fun _ h => h) fun cursor => ?_
  refine keeps_bind nextProducts_keeps fun products => ?_
  exact keeps_bind advanceCursor_keeps fun _ => keeps_pure

theorem stagedDocuments_staged {graph : Graph} {targets : List (String × Document)}
    {fields : List TaxonomyField} {runID : String} {now : Time} {products : List Product}
    {documents : List ProposalDocument}
    (h : stagedDocuments lib graph targets fields runID now products = .ok documents) :
    ∀ d ∈ documents, d.Staged lib := by
  induction products generalizing documents with
  | nil =>
    obtain rfl := Except.ok.inj h
    exact fun d hd => absurd hd List.not_mem_nil
  | cons product products ih =>
    simp only [stagedDocuments] at h
    split at h
    · rename_i drafts rest hdrafts hrest
      obtain rfl := Except.ok.inj h
      intro d hd
      rcases List.mem_append.1 hd with hd | hd
      · obtain ⟨draft, -, rfl⟩ := List.mem_map.1 hd
        exact ⟨rfl, rfl⟩
      · exact ih hrest d hd
    · cases h
    · cases h

theorem insertNewProposals_keeps {documents : List ProposalDocument}
    (hdocuments : ∀ d ∈ documents, d.Staged lib) :
    Keeps (InnerOn lib [.nothing, .proposals]) (Lists failures) (insertNewProposals documents) := by
  unfold insertNewProposals
  split
  · exact keeps_pure
  refine keeps_bind (keeps_plain nofun rfl fun _ h => h) fun existing => ?_
  dsimp only
  split
  · exact keeps_pure
  refine keeps_tryExcept (keeps_plain nofun rfl fun _ h => ⟨h, ?_⟩) ?_ fun e he => ?_
  · exact fun d hd => hdocuments d (List.mem_of_mem_filter hd)
  · intro e he
    cases e <;> first | rfl | cases he
  · cases e with
    | bulkWrite codes =>
      dsimp only
      split
      · exact keeps_throw rfl
      · exact keeps_pure
    | _ => cases he

theorem stageRetagProposals_keeps {graph : Graph} {fs : List Failure} {maxProducts depth : ℕ}
    {runID : String} :
    Keeps (Inner lib) (Lists failures) (stageRetagProposals lib graph fs maxProducts depth runID) := by
  have hfields : Keeps (InnerOn lib [.nothing]) (Lists failures) (Raise.ask Cmd.taxonomySnapshot) :=
    keeps_taxonomySnapshot List.mem_cons_self
  refine keeps_bind hfields.inner fun fields => ?_
  refine keeps_bind keeps_lift fun targets => ?_
  refine keeps_bind scanProductBatch_keeps.inner fun products => ?_
  refine keeps_bind (keeps_ask stable_lists nofun fun l hl => hl.dead) fun now => ?_
  refine keeps_lift_bind fun documents hdocuments => ?_
  exact keeps_bind (insertNewProposals_keeps (stagedDocuments_staged hdocuments)).inner fun _ => keeps_pure

/-! ## Applying -/

/-- What an application writes to. -/
def retagTargets : List Target := [.nothing, .products, .proposals]

/-- The memory of an application that has selected its proposals. -/
structure Planned (failures : List Failure) (plan : RetagPlan) (l : Phase) : Prop where
  failures : l.failures = failures
  plan : l.plan = plan

theorem stable_planned {plan : RetagPlan} : Stable (Planned failures plan) :=
  fun _ _ h => ⟨h.failures, h.plan⟩

variable {plan : RetagPlan}

theorem keeps_planned {cmd : Cmd} (hcmd : ¬ cmd.isRead) (htarget : retagTargets.contains cmd.target)
    (hinner : ∀ l, l.dead = false → l.plan = plan → Inner lib l cmd) :
    Keeps (InnerOn lib retagTargets) (Planned failures plan) (Raise.ask cmd) :=
  keeps_ask stable_planned hcmd fun l hl =>
    ⟨hinner l hl.dead hl.memory.plan, List.contains_iff_mem.1 htarget⟩

theorem writeAudit_keeps {action entityType entityID : String} {actor : Option Actor}
    (hK : Stable K) : Keeps (InnerOn lib retagTargets) K (writeAudit action entityType entityID actor) := by
  have hnothing : .nothing ∈ retagTargets := List.mem_cons_self
  refine keeps_bind (keeps_ask hK nofun fun l hl => ⟨hl.dead, hnothing⟩) fun createdAt => ?_
  exact keeps_ask hK nofun fun l hl => ⟨hl.dead, hnothing⟩

theorem commitRetags_keeps {request : ApplyRequest} {selected : ℕ} :
    Keeps (InnerOn lib retagTargets) (Planned failures plan) (commitRetags request plan selected) := by
  refine keeps_bind (keeps_planned nofun rfl fun _ h _ => h) fun updatedAt => ?_
  refine keeps_bind (keeps_forAll fun write hwrite => ?_) fun _ => ?_
  · exact keeps_planned nofun rfl fun l h hplan => ⟨h, _, _, hplan ▸ hwrite⟩
  refine keeps_bind (keeps_planned nofun rfl fun _ h _ => h) fun now => ?_
  refine keeps_bind (keeps_when fun _ => ?_) fun _ => ?_
  · refine keeps_bind (keeps_planned nofun rfl fun l h hplan => ⟨h, hplan ▸ rfl⟩) fun _ => ?_
    exact keeps_planned nofun rfl fun _ h _ => h
  refine keeps_bind (keeps_when fun _ => ?_) fun _ => ?_
  · exact keeps_planned nofun rfl fun l h hplan => ⟨h, hplan ▸ rfl⟩
  refine keeps_bind (keeps_when fun _ => ?_) fun _ => keeps_pure
  exact writeAudit_keeps stable_planned

/-- From the plan for what was read, an application follows the inner protocol. -/
theorem planned_keeps {fields : List TaxonomyField} {request : ApplyRequest}
    {selected : List Proposal} {products : List Product} {l : Phase}
    (hl : Live (Lists failures) l) (hfields : l.fields = fields) (hselected : l.selected = selected)
    (hproducts : l.products = products) {n : ℕ} :
    Prog.Conforms ⟨InnerOn lib retagTargets, next⟩ (Ends (Lists failures)) l
      (commitRetags request (planRetags fields products selected) n) := by
  have hplan : l.plan = planRetags fields products selected := by
    rw [Phase.plan, hfields, hselected, hproducts]
  exact (commitRetags_keeps l ⟨hl.dead, hl.memory, hplan⟩).mono fun _ _ h => h.mono fun _ h => h.failures

theorem query_isException {request : ApplyRequest} {e : PyErr}
    (h : request.query lib = .error e) : e.isException := by
  unfold ApplyRequest.query at h
  split at h
  · dsimp only at h
    split at h
    · cases h
    · exact Except.error.inj h ▸ rfl
  · split at h <;> cases h

theorem applyRetagProposals_keeps {request : ApplyRequest} :
    Keeps (InnerOn lib retagTargets) (Lists failures) (applyRetagProposals lib request) := by
  have hnothing : .nothing ∈ retagTargets := List.mem_cons_self
  intro l hl
  refine Raise.conforms_ask_bind ⟨hl.dead, hnothing⟩ (fun fields => ?_)
    fun e => hl.next_error stable_lists .taxonomySnapshot e
  replace hl : Live (Lists failures) { l with fields } := ⟨hl.dead, hl.memory⟩
  cases hquery : request.query lib with
  | error e => exact Raise.conforms_lift (hl.raises (query_isException hquery))
  | ok query =>
    change Prog.Conforms _ _ { l with fields } (Raise.ask (Cmd.findProposals query _) >>= _)
    refine Raise.conforms_ask_bind ⟨hl.dead, hnothing⟩ (fun selected => ?_)
      fun e => hl.next_error stable_lists (Cmd.findProposals query request.limit) e
    replace hl : Live (Lists failures) { l with fields, selected, products := [] } :=
      ⟨hl.dead, hl.memory⟩
    dsimp only
    generalize hids : (selected.map (·.productID)).eraseDups = ids
    by_cases hnil : ids = []
    · subst hnil
      rw [proposedProducts, if_neg (by simp)]
      exact planned_keeps hl rfl rfl rfl
    · rw [proposedProducts, if_pos hnil]
      refine Raise.conforms_ask_bind ⟨hl.dead, hnothing⟩ (fun products => ?_)
        fun e => hl.next_error stable_lists (Cmd.findProductMetadata ids) e
      exact planned_keeps (l := { l with fields, selected, products }) ⟨hl.dead, hl.memory⟩ rfl rfl rfl

/-! ## Operations -/

theorem stageReconciliation_conforms {request : RunRequest} {runID : String} {l : Phase}
    (hdead : l.dead = false) :
    Prog.Conforms (inner lib) (fun l' r => l'.dead = uncaught r ∧
        ∀ failures graph staged, r = .ok (failures, graph, staged) → l'.failures = failures) l
      (stageReconciliation lib request runID) := by
  refine Raise.conforms_ask_bind (c := Cmd.findFailures request.maxQueries) hdead
    (fun failures => ?_) fun e => ?_
  · have hl : Live (Lists failures) { l with failures } := ⟨hdead, rfl⟩
    refine Raise.conforms_bind (buildOrLoadGraph_keeps.inner _ hl) (fun l' graph hl' => ?_)
      fun l' e h => ⟨h.dead, fun _ _ _ h => by cases h⟩
    refine Raise.conforms_bind (stageRetagProposals_keeps _ hl'.live) (fun l' staged hl' => ?_)
      fun l' e h => ⟨h.dead, fun _ _ _ h => by cases h⟩
    refine Raise.conforms_pure ⟨hl'.dead, ?_⟩
    rintro _ _ _ ⟨⟩
    exact hl'.memory
  · refine ⟨?_, fun _ _ _ h => by cases h⟩
    change (next l (Cmd.findFailures request.maxQueries) (.error e)).dead = _
    rw [next_error]
    simp [hdead, uncaught]

/-- Whatever an operation remembers. -/
def Anything (_ : Phase) : Prop := True

theorem stable_anything : Stable Anything := fun _ _ h => h

variable {op : Op}

/-- The commands of an operation. -/
abbrev Permits (lib : Library) (op : Op) (l : Phase) (cmd : Cmd) : Prop :=
  Inner lib l cmd ∨ Outer lib op l cmd

/-- A function that only has to issue permitted commands may issue any of these. -/
theorem keeps_command {cmd : Cmd} (hpermits : ∀ l, permits l cmd) :
    Keeps permits Anything (Raise.ask cmd) :=
  fun l hl => Raise.conforms_ask (hpermits l) fun r => ⟨by rw [next_dead, hl.dead, Bool.false_or], trivial⟩

theorem Keeps.anything {p : Py α} (h : ∀ failures, Keeps permits (Lists failures) p) :
    Keeps permits Anything p :=
  fun l hl => (h l.failures l ⟨hl.dead, rfl⟩).mono fun _ _ h => h.mono fun _ _ => trivial

/-- An inner function as part of an operation. -/
theorem Keeps.outer {p : Py α} (h : ∀ failures, Keeps (Inner lib) (Lists failures) p) :
    Keeps (Permits lib op) Anything p :=
  (Keeps.anything h).mono fun _ _ => Or.inl

/-- A command of the operation itself. -/
theorem keeps_outer {cmd : Cmd} (hcmd : ¬ cmd.isRead) (houter : ∀ l, Outer lib op l cmd) :
    Keeps (Permits lib op) Anything (Raise.ask cmd) :=
  keeps_ask stable_anything hcmd fun l _ => .inr (houter l)

theorem keeps_now : Keeps (Permits lib op) Anything (Raise.ask Cmd.now) :=
  keeps_outer nofun fun _ => trivial

section Run

variable {request : RunRequest} {requestedBy : String} {actor : Option Actor}

theorem acquireLock_keeps {owner : String} {now : Time} :
    Keeps (Permits lib (.runReconciler request requestedBy actor)) Anything
      (acquireLock lib owner now) := by
  refine keeps_tryExcept ?_ ?_ fun e _ => keeps_pure
  · exact keeps_bind (keeps_outer nofun fun _ => ⟨_, _, _, rfl⟩) fun lock => keeps_pure
  · intro e he
    rw [of_decide_eq_true he]
    rfl

theorem autoApply_keeps {runID : String} :
    Keeps (InnerOn lib retagTargets) (Lists failures) (autoApply lib request actor runID) := by
  unfold autoApply
  split
  · exact applyRetagProposals_keeps
  · exact keeps_pure

theorem finishReconciliation_keeps {request' : RunRequest} {actor' : Option Actor} {runID : String}
    {graph : Graph} {staged : StageResult} :
    Keeps (Permits lib (.runReconciler request requestedBy actor)) (Lists failures)
      (finishReconciliation lib request' actor' runID failures graph staged) := by
  refine keeps_bind (autoApply_keeps.mono fun _ _ h => .inl h.1) fun applied => ?_
  refine keeps_bind (keeps_ask stable_lists nofun fun l hl => .inr trivial) fun now => ?_
  refine keeps_bind (keeps_when fun _ => keeps_ask stable_lists nofun fun l hl => ?_) fun _ => ?_
  · exact .inr ⟨hl.dead, congrArg _ hl.memory.symm, _, _, _, rfl⟩
  refine keeps_bind (keeps_ask stable_lists nofun fun l _ => .inr ⟨_, _, _, rfl⟩) fun _ => ?_
  exact keeps_bind ((writeAudit_keeps stable_lists).mono fun _ _ h => .inl h.1) fun _ => keeps_pure

theorem reconcile_keeps {request' : RunRequest} {actor' : Option Actor} {runID : String} :
    Keeps (Permits lib (.runReconciler request requestedBy actor)) Anything
      (reconcile lib request' actor' runID) := by
  intro l hl
  refine Raise.conforms_bind ((stageReconciliation_conforms hl.dead).widen (fun _ _ => Or.inl) rfl)
    ?_ fun l e h => ⟨h.1, trivial⟩
  rintro l' ⟨failures, graph, staged⟩ ⟨hdead, hlists⟩
  exact (finishReconciliation_keeps l' ⟨hdead, hlists _ _ _ rfl⟩).mono
    fun _ _ h => h.mono fun _ _ => trivial

theorem failRun_keeps {runID : String} {e : PyErr} (he : e.isException) :
    Keeps (Permits lib (.runReconciler request requestedBy actor)) Anything (failRun runID e) := by
  refine keeps_bind keeps_now fun completedAt => keeps_bind keeps_now fun updatedAt => ?_
  exact keeps_bind (keeps_outer nofun fun _ => ⟨_, _, _, rfl⟩) fun _ => keeps_throw he

theorem runLocked_conforms {runID : String} {startedAt : Time} {l : Phase} (hl : Live Anything l) :
    Prog.Conforms ⟨Permits lib (.runReconciler request requestedBy actor), next⟩ (fun _ _ => True) l
      (runLocked lib request requestedBy actor runID startedAt) := by
  refine Raise.conforms_ask_bind (.inr ⟨_, _, _, rfl⟩) (fun _ => ?_) fun _ => trivial
  have hbody : Keeps (Permits lib (.runReconciler request requestedBy actor)) Anything
      (Raise.tryExcept PyErr.isException (reconcile lib request actor runID) (failRun runID)) :=
    keeps_tryExcept reconcile_keeps (fun _ he => he) fun e he => failRun_keeps he
  refine Raise.conforms_tryFinally (hbody l hl) (fun l r hr => ?_) fun _ _ _ => trivial
  -- the finalizer runs on the way out, too
  have hpermits : Permits lib (.runReconciler request requestedBy actor) l (.releaseLock runID) :=
    .inr ⟨_, _, _, rfl⟩
  apply Raise.conforms_ask (c := Cmd.releaseLock runID) hpermits
  exact fun _ => ⟨trivial, fun _ _ => trivial⟩

theorem runReconciler_conforms {l : Phase} (hl : Live Anything l) :
    Prog.Conforms ⟨Permits lib (.runReconciler request requestedBy actor), next⟩ (fun _ _ => True) l
      (runReconciler lib request requestedBy actor) := by
  refine Raise.conforms_ask_bind (.inr ⟨_, _, _, rfl⟩) (fun hex => ?_) fun _ => trivial
  refine Raise.conforms_ask_bind (.inr trivial) (fun startedAt => ?_) fun _ => trivial
  refine Raise.conforms_bind (acquireLock_keeps l hl) (fun l acquired hl => ?_)
    fun _ _ _ => trivial
  split
  · exact runLocked_conforms hl.live
  · exact Raise.conforms_throw trivial

end Run

theorem decideRetagProposal_keeps {request : DecisionRequest} :
    Keeps (Permits lib (.decideRetagProposal request)) Anything (decideRetagProposal lib request) := by
  unfold decideRetagProposal
  split
  · exact keeps_throw rfl
  · rename_i id hid
    refine keeps_bind keeps_now fun now => ?_
    refine keeps_bind (keeps_outer nofun fun _ => ⟨request, rfl, hid, rfl⟩) fun proposal => ?_
    split
    · exact keeps_throw rfl
    · exact keeps_bind (Keeps.mono (writeAudit_keeps stable_anything) fun _ _ h => .inl h.1)
        fun _ => keeps_pure

theorem recordSearchOutcome_keeps {o : SearchOutcome} :
    Keeps (Permits lib (.recordSearchOutcome o)) Anything (recordSearchOutcome lib o) := by
  unfold recordSearchOutcome
  dsimp only
  split
  · exact keeps_pure
  refine keeps_bind keeps_now fun now => ?_
  split
  · exact keeps_outer nofun fun _ => ⟨o, rfl⟩
  · exact keeps_bind (keeps_outer nofun fun _ => ⟨o, rfl⟩) fun failure => keeps_pure

theorem outcome_conforms {f : Except PyErr α → Reply} {p : Py α}
    {P : Protocol Cmd (Raising PyErr Answer) Phase} {Q : Phase → Except PyErr α → Prop} {l : Phase}
    (h : Prog.Conforms P Q l p) : Prog.Conforms P (fun _ _ => True) l (outcome f p) :=
  Prog.Conforms.bind h fun _ _ _ => Prog.Conforms.pure trivial

theorem Op.conforms (op : Op) :
    Prog.Conforms (op.protocol lib) (fun _ _ => True) {} (op.prog lib) := by
  have hlive : Live Anything {} := ⟨rfl, trivial⟩
  cases op with
  | runReconciler request requestedBy actor => exact outcome_conforms (runReconciler_conforms hlive)
  | applyRetagProposals request =>
    exact outcome_conforms (Keeps.outer (fun _ => applyRetagProposals_keeps.inner) {} hlive)
  | decideRetagProposal request => exact outcome_conforms (decideRetagProposal_keeps {} hlive)
  | recordSearchOutcome o => exact outcome_conforms (recordSearchOutcome_keeps {} hlive)

end Reconciler

end Stylme
