-- SUMMARY: A rejection is final, unless it lands between an application's selection and its writes.
import Stylme.Reconciler.Plans
import Stylme.Reconciler.System

/-!
# Rejections

`decide_retag_proposal` leaves a rejected proposal alone, and so does the query
of `apply_retag_proposals`. But an application writes products and statuses by
what it has selected earlier: a rejection in between is lost.
-/

namespace Stylme

open Conc Backend

namespace Reconciler

variable (lib : Library)

/-! ## Rejections in the log -/

/-- The proposal, where the store has answered a rejection. -/
def rejected : LogEntry → Option Proposal
  | ⟨_, .decideProposal _ review, .ok (some p), _⟩ =>
    if review.decision = .rejected then some p else none
  | _ => none

/-- The thread has been answered the proposals it selects. -/
def selects (t : ℕ) : LogEntry → Bool
  | ⟨u, .findProposals _ _, .ok _, _⟩ => u = t
  | _ => false

/-- What has happened since the thread selected its proposals. -/
def sinceSelection (t : ℕ) (log : List LogEntry) : List LogEntry := log.takeWhile (¬ selects t ·)

/-- The write adds the value of the proposal to its product. -/
def ProductWrite.adds (write : ProductWrite) (p : Proposal) : Bool :=
  write.productID = p.productID ∧
    write.additions.any fun (field, values) => field = p.field ∧ p.value ∈ values

/-- The command applies the proposal or changes its status. -/
def Cmd.concerns (p : Proposal) : Cmd → Bool
  | .addMetadata write => write.adds p
  | .applyProposals ids _ _ | .dropProposals ids _ => p.id ∈ ids
  | _ => false

/-- No proposal the step writes for was rejected since the thread selected its proposals. -/
def unrejected (σ : State) : Step → Bool
  | .exec t _ => (σ.next t).all fun (_, cmd) =>
    ((sinceSelection t σ.log).filterMap rejected).all fun p => ¬ cmd.concerns p
  | _ => true

/-- Once the store has answered a rejection, the proposal is rejected and nothing
adds its value to its product. -/
def Final (σ : State) : Prop :=
  ∀ later e earlier p, σ.log = later ++ e :: earlier → rejected e = some p →
    (∃ q, σ.shared.proposals.get p.id = some q ∧ q.status = .rejected) ∧
    ∀ e' ∈ later, ∀ write, e'.cmd = .addMetadata write → ¬ write.adds p

/-! ## Proposals -/

/-- Two states of one proposal. -/
structure Proposal.Same (p q : Proposal) : Prop where
  id : p.id = q.id
  productID : p.productID = q.productID
  field : p.field = q.field
  value : p.value = q.value

theorem Cmd.concerns_of_same {p q : Proposal} {cmd : Cmd} (h : q.Same p) (hq : cmd.concerns q) :
    cmd.concerns p := by
  obtain ⟨hid, hproduct, hfield, hvalue⟩ := h
  cases cmd <;> simpa only [concerns, ProductWrite.adds, hid, hproduct, hfield, hvalue] using hq

namespace Proposal.Same

variable {p q s : Proposal}

theorem refl : p.Same p := ⟨rfl, rfl, rfl, rfl⟩

theorem trans (h : p.Same q) (h' : q.Same s) : p.Same s :=
  ⟨h.id.trans h'.id, h.productID.trans h'.productID, h.field.trans h'.field, h.value.trans h'.value⟩

end Proposal.Same

/-- The stored proposals have the keys they were staged with. -/
def StagedKeys (w : World) : Prop :=
  ∀ p ∈ w.proposals, p.proposalKey = proposalKey lib p.productID p.field p.value

variable {lib} {w w' w₀ : World} {σ : State} {o : Oracle} {cmd : Cmd} {r : Resp cmd}

/-- An update of proposals that leaves what they are about, and their rejections
unless the command concerns them. -/
structure Rewrites (cmd : Cmd) (f : Proposal → Proposal) : Prop where
  same : ∀ q, (f q).Same q
  key : ∀ q, (f q).proposalKey = q.proposalKey
  rejected : ∀ q, q.status = .rejected → ¬ cmd.concerns q → (f q).status = .rejected

theorem rewrites_id : Rewrites cmd id := ⟨fun _ => .refl, fun _ => rfl, fun _ hstatus _ => hstatus⟩

theorem rewrites_applied {ids : List ObjectId} {actor : Option ObjectId} {time : Time} :
    Rewrites (.applyProposals ids actor time) (·.appliedFor ids actor time) where
  same q := by
    unfold Proposal.appliedFor
    split <;> exact ⟨rfl, rfl, rfl, rfl⟩
  key _ := Proposal.appliedFor_key
  rejected q hstatus hids := by
    have hids : q.id ∉ ids := fun hmem => hids (decide_eq_true hmem)
    rw [Proposal.appliedFor, if_neg hids]
    exact hstatus

theorem rewrites_dropped {ids : List ObjectId} {time : Time} :
    Rewrites (.dropProposals ids time) (·.droppedFor ids time) where
  same q := by
    unfold Proposal.droppedFor
    split <;> exact ⟨rfl, rfl, rfl, rfl⟩
  key _ := Proposal.droppedFor_key
  rejected q hstatus hids := by
    have hids : q.id ∉ ids := fun hmem => hids (decide_eq_true hmem)
    rw [Proposal.droppedFor, if_neg hids]
    exact hstatus

theorem rewrites_decided {id : ObjectId} {review : Review} :
    Rewrites (.decideProposal id review)
      fun q => if q.id = id ∧ q.reviewable then q.decided review else q where
  same q := by
    split <;> exact ⟨rfl, rfl, rfl, rfl⟩
  key q := by
    split <;> rfl
  rejected q hstatus _ := by
    rw [if_neg fun h => by simp [Proposal.reviewable, hstatus] at h]
    exact hstatus

theorem mem_put_decided {p q : Proposal} {review : Review} (hp : p ∈ w.proposals) :
    q ∈ put w.proposals (p.decided review) ↔
      q = p.decided review ∨ (q ∈ w.proposals ∧ q.id ≠ p.id) :=
  mem_put hp rfl rfl

/-- What a command does to the stored proposals. -/
theorem exec_proposals (h : cmd.exec lib.forbiddenText o w = some (r, w')) :
    (∃ f, Rewrites cmd f ∧ ∀ q', q' ∈ w'.proposals ↔ ∃ q ∈ w.proposals, f q = q') ∨
      ∃ documents ps, cmd = .insertProposals documents ∧
        (∀ p ∈ ps, p.toProposalDocument ∈ documents) ∧
        w'.proposals = (Collection.insertMany ps w.proposals).1 := by
  have hsame : w'.proposals = w.proposals →
      ∃ f, Rewrites cmd f ∧ ∀ q', q' ∈ w'.proposals ↔ ∃ q ∈ w.proposals, f q = q' :=
    fun heq => ⟨id, rewrites_id, fun q' => by simp [heq]⟩
  by_cases htarget : cmd.target = .proposals
  · cases cmd with
    | insertProposals documents =>
      right
      simp only [Cmd.exec] at h
      split at h
      · cases h
      · rename_i proposals hproposals
        have hdocuments : ∀ p ∈ proposals, p.toProposalDocument ∈ documents := by
          unfold withIDs at hproposals
          split at hproposals
          · obtain rfl := Option.some.inj hproposals
            intro p hp
            rw [← List.map_uncurry_zip_eq_zipWith] at hp
            obtain ⟨⟨d, id⟩, hmem, rfl⟩ := List.mem_map.1 hp
            exact (List.of_mem_zip hmem).1
          · cases hproposals
        split at h <;> obtain ⟨-, rfl⟩ := Prod.mk.inj (Option.some.inj h)
        · exact ⟨documents, _, rfl, hdocuments, rfl⟩
        · exact ⟨documents, _, rfl, fun p hp => hdocuments p (List.mem_of_mem_take hp), rfl⟩
    | applyProposals ids actor time =>
      left
      rcases perform_state h with rfl | rfl
      · exact ⟨_, rewrites_applied, fun q' => List.mem_map⟩
      · exact hsame rfl
    | dropProposals ids time =>
      left
      rcases perform_state h with rfl | rfl
      · exact ⟨_, rewrites_dropped, fun q' => List.mem_map⟩
      · exact hsame rfl
    | decideProposal id review =>
      left
      simp only [Cmd.exec] at h
      split at h
      · rename_i p hp
        obtain ⟨hget, hreviewable⟩ := Option.filter_eq_some_iff.1 hp
        obtain ⟨hmem, rfl⟩ := Collection.get_eq_some_iff.1 hget
        rcases perform_state h with rfl | rfl
        · refine ⟨_, rewrites_decided, fun q' => (mem_put_decided hmem).trans ?_⟩
          constructor
          · rintro (rfl | ⟨hq', hne⟩)
            · exact ⟨p, hmem, if_pos ⟨rfl, hreviewable⟩⟩
            · exact ⟨q', hq', if_neg fun h => hne h.1⟩
          · rintro ⟨q, hq, rfl⟩
            by_cases hid : q.id = p.id
            · obtain rfl := Collection.eq_of_id_eq hq hmem hid
              exact .inl (if_pos ⟨rfl, hreviewable⟩)
            · right
              rw [if_neg fun h => hid h.1]
              exact ⟨hq, hid⟩
        · exact hsame rfl
      · exact hsame (congrArg World.proposals (respond_eq h).1)
    | _ => cases htarget
  · exact .inl (hsame ((exec_frame h).proposals htarget))

/-- A stored proposal stays, and a rejected one stays rejected unless the command concerns it. -/
theorem exec_proposal {q : Proposal} (h : cmd.exec lib.forbiddenText o w = some (r, w'))
    (hq : q ∈ w.proposals) : ∃ q' ∈ w'.proposals, q'.Same q ∧
      (q.status = .rejected → ¬ cmd.concerns q → q'.status = .rejected) := by
  rcases exec_proposals h with ⟨f, hf, hmem⟩ | ⟨documents, ps, -, -, heq⟩
  · exact ⟨f q, (hmem _).2 ⟨q, hq, rfl⟩, hf.same q, hf.rejected q⟩
  · exact ⟨q, heq ▸ Collection.mem_insertMany.1 hq, .refl, fun hstatus _ => hstatus⟩

/-- The keys stay those the proposals were staged with. -/
theorem exec_stagedKeys (h : cmd.exec lib.forbiddenText o w = some (r, w'))
    (hkeys : StagedKeys lib w)
    (hstaged : ∀ documents, cmd = .insertProposals documents → ∀ d ∈ documents, d.Staged lib) :
    StagedKeys lib w' := by
  intro p hp
  rcases exec_proposals h with ⟨f, hf, hmem⟩ | ⟨documents, ps, hcmd, hps, heq⟩
  · obtain ⟨q, hq, rfl⟩ := (hmem p).1 hp
    rw [hf.key, hkeys q hq, (hf.same q).productID, (hf.same q).field, (hf.same q).value]
  · rw [heq] at hp
    rcases Collection.mem_insertMany.2 hp with hold | ⟨hnew, -⟩
    · exact hkeys p hold
    · exact (hstaged documents hcmd _ (hps p hnew)).2

/-- The proposal of an answered rejection is stored as rejected. -/
theorem exec_rejected {t : ℕ} {p : Proposal} (h : cmd.exec lib.forbiddenText o w = some (r, w'))
    (hrejected : rejected ⟨t, cmd, r, w'⟩ = some p) : p ∈ w'.proposals ∧ p.status = .rejected := by
  cases cmd with
  | decideProposal id review =>
    cases r with
    | error e => cases hrejected
    | ok answer =>
      cases answer with
      | none => cases hrejected
      | some p' =>
        simp only [rejected] at hrejected
        split at hrejected
        · rename_i hdecision
          obtain rfl := Option.some.inj hrejected
          simp only [Cmd.exec] at h
          split at h
          · rename_i q hq
            obtain ⟨hanswer, rfl⟩ := perform_ok h
            obtain rfl := Option.some.inj (Except.ok.inj hanswer)
            have hmem := (Collection.get_eq_some_iff.1 (Option.filter_eq_some_iff.1 hq).1).1
            refine ⟨(mem_put_decided hmem).2 (.inl rfl), ?_⟩
            change review.decision.status = _
            rw [hdecision]
            rfl
          · cases respond_ok h
        · cases hrejected
  | _ => cases hrejected

section Selects

variable {t : ℕ} {l : Phase}

theorem eq_of_selects {e : LogEntry} (h : selects t e) : e.tid = t := by
  obtain ⟨u, cmd, r, w⟩ := e
  cases cmd with
  | findProposals query limit =>
    cases r with
    | error e => cases h
    | ok answer => exact of_decide_eq_true h
  | _ => cases h

theorem rejected_of_selects {e : LogEntry} (h : selects t e) : rejected e = none := by
  obtain ⟨u, cmd, r, w⟩ := e
  cases cmd with
  | findProposals query limit => rfl
  | _ => cases h

/-- Selected proposals are stored and not rejected. -/
theorem exec_selected {s : Proposal} (h : cmd.exec lib.forbiddenText o w = some (r, w'))
    (hselects : selects t ⟨t, cmd, r, w'⟩) (hs : s ∈ (next l cmd r).selected) :
    s ∈ w.proposals ∧ s.status ≠ .rejected ∧ w'.proposals = w.proposals := by
  cases cmd with
  | findProposals query limit =>
    cases r with
    | error e => cases hselects
    | ok answer =>
      obtain rfl := Except.ok.inj (respond_ok h)
      obtain ⟨hmem, hselects⟩ := List.mem_filter.1 (mem_of_sortLimit hs)
      refine ⟨hmem, fun hstatus => ?_, congrArg World.proposals (respond_eq h).1⟩
      cases query <;> simp [ProposalQuery.selects, hstatus] at hselects
  | _ => cases hselects

theorem next_selected (h : ¬ selects t ⟨t, cmd, r, w⟩) : (next l cmd r).selected = l.selected := by
  cases r with
  | error e => rw [next_error]
  | ok answer =>
    cases cmd with
    | findProposals query limit => exact absurd (decide_eq_true rfl) h
    | _ => rfl

end Selects

/-! ## Runs -/

/-- Rejected proposals are rejected, and what is selected is rejected later if at all. -/
structure Kept (lib : Library) (cfg : View) : Prop where
  keys : StagedKeys lib cfg.shared
  rejected : ∀ e ∈ cfg.log, ∀ p, rejected e = some p →
    ∃ q ∈ cfg.shared.proposals, q.Same p ∧ q.status = .rejected
  selected : ∀ {t op l b}, cfg.view t = some ⟨op, l, b⟩ → ∀ s ∈ l.selected,
    (∃ q ∈ cfg.shared.proposals, q.Same s) ∧
    ∀ e ∈ cfg.log, ∀ p, Reconciler.rejected e = some p → p.id = s.id → e ∈ sinceSelection t cfg.log
  quiet : ∀ later e earlier p, cfg.log = later ++ e :: earlier → Reconciler.rejected e = some p →
    ∀ e' ∈ later, ∀ write, e'.cmd = .addMetadata write → ¬ write.adds p

theorem Idle.proposals {cfg cfg' : View} (h : Idle cfg cfg') :
    cfg'.shared.proposals = cfg.shared.proposals := by
  rcases h.shared with h | ⟨e, h⟩
  · rw [h]
  · rw [h, Env.apply_proposals]

theorem Kept.idle {cfg cfg' : View} (h : Kept lib cfg) (hidle : Idle cfg cfg') : Kept lib cfg' where
  keys p hp := h.keys p (hidle.proposals ▸ hp)
  rejected e he p hp := by
    rw [hidle.proposals]
    exact h.rejected e (hidle.log ▸ he) p hp
  selected {t op l b} ht s hs := by
    rw [hidle.proposals, hidle.log]
    rcases hidle.view ht with rfl | ⟨b', ht⟩
    · exact absurd hs List.not_mem_nil
    · exact h.selected ht s hs
  quiet later e earlier p hlog := h.quiet later e earlier p (hidle.log ▸ hlog)

section Exec

variable {t : ℕ} {op : Op} {l : Phase}

/-- The value that a write adds is that of a selected proposal. -/
theorem selected_of_adds {write : ProductWrite} {runID : Option String} {updatedAt : Time}
    {p : Proposal} (hwrite : write ∈ l.plan.writes runID updatedAt) (hadds : write.adds p) :
    ∃ s ∈ l.selected, s.productID = p.productID ∧ s.field = p.field ∧ s.value = p.value := by
  obtain ⟨hproduct, hany⟩ := of_decide_eq_true hadds
  obtain ⟨⟨field, values⟩, hmem, hvalue⟩ := List.any_eq_true.1 hany
  obtain ⟨hfield, hvalue⟩ := of_decide_eq_true hvalue
  have hpending : l.plan.Pending p.productID p.field values :=
    ⟨_, hproduct ▸ RetagPlan.mem_writes hwrite, hfield ▸ hmem⟩
  exact RetagPlan.planRetags_sound.origin hpending hvalue

/-- A permitted write for a proposal that was rejected comes from a thread that
selected it before. -/
theorem Kept.concerns (h : Kept lib (view lib σ)) (ht : (view lib σ).view t = some ⟨op, l, true⟩)
    (hpermits : Permits lib op l cmd) {e : LogEntry} {p : Proposal} (he : e ∈ σ.log)
    (hp : Reconciler.rejected e = some p) (hconcerns : cmd.concerns p) :
    e ∈ sinceSelection t σ.log := by
  have hselected : ∃ s ∈ l.selected, p.id = s.id := by
    cases cmd with
    | addMetadata write =>
      rcases hpermits with ⟨-, runID, updatedAt, hwrite⟩ | houter
      · obtain ⟨s, hs, hproduct, hfield, hvalue⟩ := selected_of_adds hwrite hconcerns
        refine ⟨s, hs, ?_⟩
        -- the unique key makes the proposal of the same value the same proposal
        obtain ⟨q, hq, hqs⟩ := (h.selected ht s hs).1
        obtain ⟨q', hq', hqp, -⟩ := h.rejected e he p hp
        have hkey : q.proposalKey = q'.proposalKey := by
          rw [h.keys q hq, h.keys q' hq', hqs.productID, hqs.field, hqs.value, hqp.productID,
            hqp.field, hqp.value, hproduct, hfield, hvalue]
        exact hqp.id.symm.trans ((congrArg (·.id) (Collection.eq_of_key_eq hq hq' hkey)).symm.trans hqs.id)
      · exact houter.elim
    | applyProposals ids actor time =>
      rcases hpermits with ⟨-, rfl⟩ | houter
      · obtain ⟨s, hs, hid⟩ := RetagPlan.planRetags_sound.decided p.id (.inl (of_decide_eq_true hconcerns))
        exact ⟨s, hs, hid.symm⟩
      · exact houter.elim
    | dropProposals ids time =>
      rcases hpermits with ⟨-, rfl⟩ | houter
      · obtain ⟨s, hs, hid⟩ := RetagPlan.planRetags_sound.decided p.id (.inr (of_decide_eq_true hconcerns))
        exact ⟨s, hs, hid.symm⟩
      · exact houter.elim
    | _ => cases hconcerns
  obtain ⟨s, hs, hid⟩ := hselected
  exact (h.selected ht s hs).2 e he p hp hid

theorem Kept.unconcerned (h : Kept lib (view lib σ)) (hok : unrejected σ (.exec t o))
    (hnext : σ.next t = some (op, cmd)) (ht : (view lib σ).view t = some ⟨op, l, true⟩)
    (hpermits : Permits lib op l cmd) {e : LogEntry} {p : Proposal} (he : e ∈ σ.log)
    (hp : Reconciler.rejected e = some p) : ¬ cmd.concerns p := by
  intro hconcerns
  have hsince := h.concerns ht hpermits he hp hconcerns
  simp only [unrejected, hnext, Option.all_some, List.all_eq_true, decide_eq_true_eq] at hok
  exact hok p (List.mem_filterMap.2 ⟨e, hsince, hp⟩) hconcerns

theorem sinceSelection_cons {e : LogEntry} {u : ℕ} {log : List LogEntry} (h : ¬ selects u e) :
    sinceSelection u (e :: log) = e :: sinceSelection u log := by
  simp [sinceSelection, h]

theorem Kept.exec (h : Kept lib (view lib σ)) (hok : unrejected σ (.exec t o))
    (hnext : σ.next t = some (op, cmd)) (ht : (view lib σ).view t = some ⟨op, l, true⟩)
    (hpermits : Permits lib op l cmd)
    (hexec : cmd.exec lib.forbiddenText o σ.shared = some (r, w)) :
    Kept lib ⟨w, Function.update (view lib σ).view t (some ⟨op, next l cmd r, true⟩),
      ⟨t, cmd, r, w⟩ :: σ.log⟩ where
  keys := by
    refine exec_stagedKeys hexec h.keys fun documents hcmd d hd => ?_
    subst hcmd
    rcases hpermits with ⟨-, hstaged⟩ | houter
    · exact hstaged d hd
    · exact houter.elim
  rejected e he p hp := by
    rcases List.mem_cons.1 he with rfl | he
    · obtain ⟨hmem, hstatus⟩ := exec_rejected hexec hp
      exact ⟨p, hmem, .refl, hstatus⟩
    · obtain ⟨q, hq, hqp, hstatus⟩ := h.rejected e he p hp
      obtain ⟨q', hq', hqq, hkept⟩ := exec_proposal hexec hq
      refine ⟨q', hq', hqq.trans hqp, hkept hstatus fun hconcerns => ?_⟩
      exact h.unconcerned hok hnext ht hpermits he hp (Cmd.concerns_of_same hqp hconcerns)
  selected {u op' l' b} hu s hs := by
    have hold : ∀ {b₀ l₀}, (view lib σ).view u = some ⟨op', l₀, b₀⟩ → s ∈ l₀.selected →
        ¬ selects u ⟨t, cmd, r, w⟩ → (∃ q ∈ w.proposals, q.Same s) ∧
        ∀ e ∈ (⟨t, cmd, r, w⟩ :: σ.log : List LogEntry), ∀ p, Reconciler.rejected e = some p →
          p.id = s.id → e ∈ sinceSelection u (⟨t, cmd, r, w⟩ :: σ.log) := by
      intro b₀ l₀ hv hs hselects
      obtain ⟨⟨q, hq, hqs⟩, hsince⟩ := h.selected hv s hs
      obtain ⟨q', hq', hqq, -⟩ := exec_proposal hexec hq
      refine ⟨⟨q', hq', hqq.trans hqs⟩, fun e he p hp hid => ?_⟩
      rw [sinceSelection_cons hselects]
      exact (List.mem_cons.1 he).elim (fun he => he ▸ List.mem_cons_self)
        fun he => List.mem_cons_of_mem _ (hsince e he p hp hid)
    rcases View.of_update hu with ⟨rfl, rfl, rfl, -⟩ | ⟨hut, hv⟩
    · by_cases hselects : selects u ⟨u, cmd, r, w⟩
      · obtain ⟨hmem, hstatus, heq⟩ := exec_selected hexec hselects hs
        refine ⟨⟨s, heq ▸ hmem, .refl⟩, fun e he p hp hid => absurd ?_ hstatus⟩
        -- what was rejected is stored as rejected, and cannot be selected
        rcases List.mem_cons.1 he with rfl | he
        · rw [rejected_of_selects hselects] at hp
          cases hp
        · obtain ⟨q, hq, hqp, hrejected⟩ := h.rejected e he p hp
          obtain rfl := Collection.eq_of_id_eq hq hmem (hqp.id.trans hid)
          exact hrejected
      · exact hold ht (next_selected hselects ▸ hs) hselects
    · exact hold hv hs fun hselects => hut (eq_of_selects hselects).symm
  quiet later e earlier p hlog hp e' he' write hwrite := by
    rcases List.cons_eq_append_iff.1 hlog with ⟨rfl, -⟩ | ⟨later', rfl, hold⟩
    · exact absurd he' List.not_mem_nil
    · rcases List.mem_cons.1 he' with rfl | he'
      · have he : e ∈ σ.log := by
          change σ.log = later' ++ e :: earlier at hold
          rw [hold]
          exact List.mem_append_right _ List.mem_cons_self
        have hconcerns := h.unconcerned hok hnext ht hpermits he hp
        dsimp only at hwrite
        subst hwrite
        exact hconcerns
      · exact h.quiet later' e earlier p hold hp e' he' write hwrite

end Exec

/-- In every run in which no rejection lands between an application's selection
and its writes for the proposal, rejections are final. -/
theorem rejectionFinal (hw₀ : StagedKeys lib w₀)
    (h : (backend lib).Reach (fun σ l => unrejected σ l) (Pool.init w₀) σ) : Final σ := by
  have hkept : Kept lib (view lib σ) := by
    refine invariant ⟨hw₀, ?_, ?_, ?_⟩ (fun _ _ hI hidle => hI.idle hidle) ?_ h
    · exact fun _ he => absurd he List.not_mem_nil
    · exact fun ht => by cases ht
    · exact fun later e earlier p hlog => by cases later <;> cases hlog
    · intro ρ t o op l cmd r w hok hI hnext ht hpermits hexec
      exact hI.exec hok hnext ht hpermits hexec
  intro later e earlier p hlog hp
  have he : e ∈ σ.log := hlog ▸ List.mem_append_right _ List.mem_cons_self
  obtain ⟨q, hq, hqp, hstatus⟩ := hkept.rejected e he p hp
  exact ⟨⟨q, Collection.get_eq_some_iff.2 ⟨hq, hqp.id⟩, hstatus⟩,
    hkept.quiet later e earlier p hlog hp⟩

end Reconciler

/-! ## A rejection during an application -/

namespace Sample

namespace Reconciler

def rejection : Stylme.Reconciler.Op := .decideRetagProposal ⟨"linen", .rejected, none, ⟨9, ["owner"]⟩⟩

/-- A rejection of a proposal that an application has selected. -/
def overtaken : List Stylme.Reconciler.Step :=
  [.spawn 0 (application "linen"), .spawn 1 rejection] ++ execs 0 3 ++ execs 1 4 ++ execs 0 7

/-- The rejection comes first. -/
def respected : List Stylme.Reconciler.Step :=
  [.spawn 0 (application "linen"), .spawn 1 rejection] ++ execs 1 4 ++ execs 0 4

end Reconciler

end Sample

namespace Reconciler

theorem stagedKeys_sample : StagedKeys Sample.Reconciler.library Sample.Reconciler.world := by
  intro p hp
  rcases List.mem_cons.1 hp with rfl | hp
  · decide
  · obtain rfl := List.mem_singleton.1 hp
    decide

/-- The rejection is answered, the application returns, and the rejection is final. -/
theorem rejectionFinal_respected :
    ∃ σ, (backend Sample.Reconciler.library).Reach (fun σ l => unrejected σ l)
        (Pool.init Sample.Reconciler.world) σ ∧
      (σ.result 0).isSome ∧ (σ.log.filterMap rejected).length = 1 ∧ Final σ := by
  have hrun : ((backend Sample.Reconciler.library).runWhere (fun σ l => unrejected σ l)
      Sample.Reconciler.respected (Pool.init Sample.Reconciler.world)).any
        fun σ => (σ.result 0).isSome && (σ.log.filterMap rejected).length == 1 := by
    decide +kernel
  obtain ⟨σ, hreach, hdone⟩ := System.Reach.exists_of_any hrun
  simp only [Bool.and_eq_true, beq_iff_eq] at hdone
  exact ⟨σ, hreach, hdone.1, hdone.2, rejectionFinal stagedKeys_sample hreach⟩

/-- The application overwrites the rejection. -/
theorem not_rejectionFinal :
    ¬ ∀ (w₀ : World) (σ : State), StagedKeys Sample.Reconciler.library w₀ →
      (backend Sample.Reconciler.library).Reach (fun _ _ => True) (Pool.init w₀) σ → Final σ := by
  intro h
  have hrun : ((backend Sample.Reconciler.library).runWhere (fun _ _ => True)
      Sample.Reconciler.overtaken (Pool.init Sample.Reconciler.world)).any fun σ =>
        (σ.log.filterMap rejected).any fun p =>
          (σ.shared.proposals.get p.id).all (·.status ≠ .rejected) := by
    decide +kernel
  obtain ⟨σ, hreach, hlost⟩ := System.Reach.exists_of_any hrun
  obtain ⟨p, hp, hstored⟩ := List.any_eq_true.1 hlost
  obtain ⟨e, he, hrejected⟩ := List.mem_filterMap.1 hp
  obtain ⟨later, earlier, hlog⟩ := List.append_of_mem he
  obtain ⟨⟨q, hq, hstatus⟩, -⟩ := h _ σ stagedKeys_sample hreach later e earlier p hlog hrejected
  rw [hq] at hstored
  exact of_decide_eq_true hstored hstatus

end Reconciler

end Stylme
