-- SUMMARY: Rebuilds keep the active graph the newest one, unless one of them stops short beside an active graph.
import Mathlib.Data.List.MinMax
import Stylme.Lib.Sequence
import Stylme.Reconciler.System

/-!
# Graph activation

`build_or_load_graph` takes the next version from the active graph. That is safe
as long as no active graph stands beside a newer one. A rebuild that stops after
its insertion and before it has deactivated the old graph, or whose error handler
stops before it has deleted the new one, leaves such a pair behind.
-/

namespace Stylme

open Conc Backend

namespace Reconciler

/-! ## Rebuilds -/

/-- The arguments of `build_or_load_graph`. -/
structure GraphRequest where
  failures : List Failure
  useAI : Bool
  rebuild : Bool

/-- Rebuilds on one store. -/
def rebuilds (lib : Library) :
    System GraphRequest Cmd (Raising PyErr Answer) (Except PyErr Graph) World Oracle Env where
  prog request := buildOrLoadGraph lib request.failures request.useAI request.rebuild
  exec := Cmd.exec lib.forbiddenText
  env := Env.apply

/-- An active graph stands beside a newer one. -/
def exposed (w : World) : Bool :=
  w.graphs.docs.any fun g => g.key = graphKey ∧ g.active ∧
    w.graphs.docs.any fun g' => g'.key = graphKey ∧ g.version < g'.version

/-- The write does not stop the rebuild where an active graph stands beside a newer one. -/
def safe : Cmd → Oracle → World → Bool
  | .insertGraph _, o, w => o.fault.all fun f =>
      ¬ f.applied ∨ w.graphs.docs.all fun g => ¬ (g.key = graphKey ∧ g.active)
  | .deactivateOthers _, o, w => o.fault.all fun f =>
      f.applied ∨ f.cause.error.isException ∨ ¬ exposed w
  | .activateGraph id, o, w => o.fault.all fun f =>
      if f.applied then w.graphs.docs.all fun g => g.id ≠ id ∨
        w.graphs.docs.all fun g' => ¬ (g'.key = graphKey ∧ g.version < g'.version)
      else ¬ exposed w
  | .deleteGraph _, o, w => o.fault.all fun f => f.applied ∨ ¬ exposed w
  | _, _, _ => true

/-- No request goes wrong. -/
def faultless (_ : Cmd) (o : Oracle) (_ : World) : Bool := o.fault.isNone

/-- Exactly one graph of the reconciler is active, and every other one is older. -/
def Activated (w : World) : Prop :=
  ∃ g ∈ w.graphs, g.key = graphKey ∧ g.active ∧
    ∀ g' ∈ w.graphs, g'.key = graphKey → g' ≠ g → ¬ g'.active ∧ g'.version < g.version

/-! ## Stored graphs -/

/-- Active graphs have the greatest version. -/
def Newest (w : World) : Prop :=
  ∀ g ∈ w.graphs, g.key = graphKey → g.active → ∀ g' ∈ w.graphs, g'.key = graphKey →
    g'.version ≤ g.version

/-- No graph but this one is active. -/
def Retired (id : ObjectId) (w : World) : Prop :=
  ∀ g ∈ w.graphs, g.key = graphKey → g.active → g.id = id

/-- A new graph is stored beside those from before, the graph `active` among them. -/
structure Installing (active : Option Graph) (id : ObjectId) (w : World) : Prop where
  stored : ∃ g ∈ w.graphs, g.id = id ∧ g.key = graphKey ∧
    ∀ g' ∈ w.graphs, g'.key = graphKey → g'.id ≠ id → g'.version < g.version
  others : ∀ g ∈ w.graphs, g.key = graphKey → g.id ≠ id → g.active →
    ∃ old, active = some old ∧ g.id = old.id
  old : ∀ old, active = some old → old.id ≠ id ∧ ∃ g ∈ w.graphs, g.key = graphKey ∧ g.id = old.id ∧
    ∀ g' ∈ w.graphs, g'.key = graphKey → g'.id ≠ id → g'.version ≤ g.version

variable {lib : Library} {w w' : World} {o : Oracle} {id : ObjectId} {active : Option Graph}

theorem newest_iff : Newest w ↔ ¬ exposed w := by
  simp only [Newest, exposed, List.any_eq_true, decide_eq_true_eq, not_exists, not_and, not_lt,
    Collection.mem_def]

theorem newest_of_eq (h : Newest w) (hgraphs : w'.graphs = w.graphs) : Newest w' := by
  unfold Newest
  rwa [hgraphs]

namespace Installing

theorem newest (h : Installing active id w) (hretired : Retired id w) : Newest w := by
  intro g hg hkey hactive g' hg' hkey'
  obtain ⟨n, hn, hid, -, hmax⟩ := h.stored
  obtain rfl := Collection.eq_of_id_eq hg hn ((hretired g hg hkey hactive).trans hid.symm)
  by_cases hne : g'.id = id
  · rw [Collection.eq_of_id_eq hg' hn (hne.trans hid.symm)]
  · exact (hmax g' hg' hkey' hne).le

theorem activated (h : Installing active id w) (hretired : Retired id w)
    (hactive : ∀ g ∈ w.graphs, g.id = id → g.active) : Activated w := by
  obtain ⟨n, hn, hid, hkey, hmax⟩ := h.stored
  refine ⟨n, hn, hkey, hactive n hn hid, fun g hg hgkey hne => ?_⟩
  have hgid : g.id ≠ id := fun hgid => hne (Collection.eq_of_id_eq hg hn (hgid.trans hid.symm))
  exact ⟨fun hgactive => hgid (hretired g hg hgkey hgactive), hmax g hg hgkey hgid⟩

/-- Without the new graph, everything is as before. -/
theorem delete (h : Installing active id w) :
    Newest { w with graphs := w.graphs.delete (·.id = id) } := by
  intro g hg hkey hactive g' hg' hkey'
  obtain ⟨hg, hne⟩ := Collection.mem_delete.1 hg
  obtain ⟨hg', hne'⟩ := Collection.mem_delete.1 hg'
  simp only [decide_eq_true_eq] at hne hne'
  obtain ⟨old, hold, hid⟩ := h.others g hg hkey hne hactive
  obtain ⟨-, n, hn, -, hnid, hmax⟩ := h.old old hold
  obtain rfl := Collection.eq_of_id_eq hg hn (hid.trans hnid.symm)
  exact hmax g' hg' hkey' hne'

/-- Flags may change, as long as only the old graph and the new one are activated. -/
theorem update {f : Graph → Graph} {graphs : Collection Graph (·.id) fun g => (g.key, g.version)}
    (h : Installing active id w) (hgraphs : graphs.docs = w.graphs.docs.map f)
    (hid : ∀ g, (f g).id = g.id) (hkey : ∀ g, (f g).key = g.key)
    (hversion : ∀ g, (f g).version = g.version)
    (hactive : ∀ g, (f g).active → g.active ∨ g.id = id ∨ ∃ old, active = some old ∧ g.id = old.id) :
    Installing active id { w with graphs } := by
  have hmem : ∀ g, g ∈ graphs ↔ ∃ g₀ ∈ w.graphs, f g₀ = g := by
    intro g
    rw [Collection.mem_def, hgraphs]
    exact List.mem_map
  refine ⟨?_, ?_, ?_⟩
  · obtain ⟨n, hn, hnid, hnkey, hmax⟩ := h.stored
    refine ⟨f n, (hmem _).2 ⟨n, hn, rfl⟩, (hid n).trans hnid, (hkey n).trans hnkey, ?_⟩
    intro g hg hgkey hne
    obtain ⟨g₀, hg₀, rfl⟩ := (hmem g).1 hg
    rw [hversion, hversion]
    exact hmax g₀ hg₀ ((hkey g₀).symm.trans hgkey) (hid g₀ ▸ hne)
  · intro g hg hgkey hne hgactive
    obtain ⟨g₀, hg₀, rfl⟩ := (hmem g).1 hg
    rw [hid] at hne ⊢
    rcases hactive g₀ hgactive with hold | hnew | hold
    · exact h.others g₀ hg₀ ((hkey g₀).symm.trans hgkey) hne hold
    · exact absurd hnew hne
    · exact hold
  · intro old hold
    obtain ⟨hne, n, hn, hnkey, hnid, hmax⟩ := h.old old hold
    refine ⟨hne, f n, (hmem _).2 ⟨n, hn, rfl⟩, (hkey n).trans hnkey, (hid n).trans hnid, ?_⟩
    intro g hg hgkey hgid
    obtain ⟨g₀, hg₀, rfl⟩ := (hmem g).1 hg
    rw [hversion, hversion]
    exact hmax g₀ hg₀ ((hkey g₀).symm.trans hgkey) (hid g₀ ▸ hgid)

end Installing

/-! ## One rebuild -/

abbrev safeExec (lib : Library) := ((rebuilds lib).restrict safe).exec

/-- How a rebuild ends. -/
structure Ended (r : Except PyErr Graph) (w : World) : Prop where
  newest : Newest w
  unique : r ≠ .error .duplicateKey
  activated : ∀ g, r = .ok g → Activated w

theorem Ended.error {e : PyErr} (h : Newest w) (he : e ≠ .duplicateKey) : Ended (.error e) w :=
  ⟨h, fun heq => he (Except.error.inj heq), fun _ heq => by cases heq⟩

theorem Cause.error_ne {cause : Cause} : cause.error ≠ .duplicateKey := by
  cases cause <;> exact fun h => by cases h

/-- A command that writes nothing leaves the graphs, and finds no duplicate. -/
theorem exec_nothing {cmd : Cmd} {r : Resp cmd} (hcmd : cmd.target = .nothing)
    (h : safeExec lib cmd o w = some (r, w')) :
    w'.graphs = w.graphs ∧ r ≠ .error .duplicateKey := by
  replace h : cmd.exec lib.forbiddenText o w = some (r, w') := (System.restrict_exec.1 h).2
  refine ⟨(exec_frame h).graphs (by rw [hcmd]; exact nofun), ?_⟩
  have hanswer : ∀ {a : Except PyErr (Answer cmd)}, respond o.fault a w = some (r, w') →
      a ≠ .error .duplicateKey → r ≠ .error .duplicateKey := by
    intro a hrespond ha
    rcases (respond_eq hrespond).2 with rfl | ⟨f, -, rfl⟩
    · exact ha
    · exact fun heq => Cause.error_ne (Except.error.inj heq)
  cases cmd with
  | now =>
    obtain ⟨rfl, -⟩ := Prod.mk.inj (Option.some.inj h)
    exact nofun
  | aiGraphEdges fields failures targets =>
    refine hanswer h ?_
    cases o.ai <;> exact nofun
  | _ => first | exact hanswer h nofun | cases hcmd

section Wp

variable {α : Type} {Q : Except PyErr α → World → Prop}

/-- A command that writes nothing, and what comes after it. -/
theorem wp_nothing {cmd : Cmd} {f : Answer cmd → Py α} (hcmd : cmd.target = .nothing)
    (hok : ∀ o a w', cmd.exec lib.forbiddenText o w = some (.ok a, w') → w'.graphs = w.graphs →
      Prog.wp (safeExec lib) Q (f a) w')
    (herror : ∀ e w', w'.graphs = w.graphs → e ≠ .duplicateKey → Q (.error e) w') :
    Prog.wp (safeExec lib) Q (Raise.ask cmd >>= f : Py α) w := by
  refine Raise.wp_ask_bind.2 fun o r w' h => ?_
  obtain ⟨hgraphs, hunique⟩ := exec_nothing hcmd h
  cases r with
  | ok a => exact hok o a w' (System.restrict_exec.1 h).2 hgraphs
  | error e => exact herror e w' hgraphs fun heq => hunique (heq ▸ rfl)

end Wp

/-- Delete the new graph and raise what the handler has caught. -/
theorem deleteGraph_wp {e : PyErr} (h : Installing active id w) (he : e ≠ .duplicateKey) :
    Prog.wp (safeExec lib) Ended (do Raise.ask (Cmd.deleteGraph id); throw e : Py Graph) w := by
  refine Raise.wp_ask_bind.2 fun o r w' hexec => ?_
  obtain ⟨hsafe, hexec⟩ := System.restrict_exec.1 hexec
  rcases perform_eq hexec with ⟨-, rfl, rfl⟩ | ⟨f, hf, rfl, rfl⟩
  · exact Ended.error h.delete he
  · refine Ended.error ?_ Cause.error_ne
    simp only [safe, hf, Option.all_some, decide_eq_true_eq] at hsafe
    split
    · exact h.delete
    · rename_i happlied
      exact newest_iff.2 (hsafe.resolve_left happlied)

theorem Installing.activate (h : Installing active id w) {g : Graph}
    (hg : g.id = id ∨ active = some g) :
    Installing active id { w with
      graphs := w.graphs.updateAll (·.activatedBy g.id) (fun _ => Graph.activatedBy_id)
        (fun _ => by simp only [Graph.activatedBy_key, Graph.activatedBy_version]) } := by
  refine h.update rfl (fun _ => Graph.activatedBy_id) (fun _ => Graph.activatedBy_key)
    (fun _ => Graph.activatedBy_version) fun g' hactive => ?_
  by_cases hid : g'.id = g.id
  · rcases hg with hg | hg
    · exact .inr (.inl (hid.trans hg))
    · exact .inr (.inr ⟨g, hg, hid⟩)
  · rw [Graph.activatedBy, if_neg hid] at hactive
    exact .inl hactive

/-- The handler brings the old graph back. -/
theorem restoreGraph_wp {e : PyErr} (h : Installing active id w) (he : e ≠ .duplicateKey) :
    Prog.wp (safeExec lib) Ended (restoreGraph active id e) w := by
  cases active with
  | none => exact deleteGraph_wp h he
  | some g =>
    refine Raise.wp_ask_bind.2 fun o r w' hexec => ?_
    obtain ⟨hsafe, hexec⟩ := System.restrict_exec.1 hexec
    rcases perform_eq hexec with ⟨-, rfl, rfl⟩ | ⟨f, hf, rfl, rfl⟩
    · exact deleteGraph_wp (h.activate (.inr rfl)) he
    · refine Ended.error ?_ Cause.error_ne
      simp only [safe, hf, Option.all_some] at hsafe
      split at hsafe
      · -- the new graph is newer than the old one
        exfalso
        obtain ⟨hne, n, hn, hnkey, hnid, -⟩ := h.old g rfl
        obtain ⟨m, hm, hmid, hmkey, hmax⟩ := h.stored
        have hlt := hmax n hn hnkey (hnid ▸ hne)
        have holdest := List.all_eq_true.1 hsafe n hn
        simp only [hnid, ne_eq, not_true_eq_false, decide_false, Bool.decide_or, Bool.false_or,
          decide_eq_true_eq, List.all_eq_true] at holdest
        exact holdest m hm ⟨hmkey, hlt⟩
      · rename_i happlied
        rw [if_neg happlied]
        exact newest_iff.2 (of_decide_eq_true hsafe)

theorem Installing.deactivate (h : Installing active id w) :
    Installing active id { w with
      graphs := w.graphs.updateAll (·.deactivatedFor id) (fun _ => Graph.deactivatedFor_id)
        (fun _ => by simp only [Graph.deactivatedFor_key, Graph.deactivatedFor_version]) } := by
  refine h.update rfl (fun _ => Graph.deactivatedFor_id) (fun _ => Graph.deactivatedFor_key)
    (fun _ => Graph.deactivatedFor_version) fun g hactive => ?_
  unfold Graph.deactivatedFor at hactive
  split at hactive
  · cases hactive
  · exact .inl hactive

theorem retired_deactivate :
    Retired id { w with
      graphs := w.graphs.updateAll (·.deactivatedFor id) (fun _ => Graph.deactivatedFor_id)
        (fun _ => by simp only [Graph.deactivatedFor_key, Graph.deactivatedFor_version]) } := by
  intro g hg hkey hactive
  obtain ⟨g₀, -, rfl⟩ := List.mem_map.1 hg
  rw [Graph.deactivatedFor_key] at hkey
  unfold Graph.deactivatedFor at hactive ⊢
  split at hactive
  · cases hactive
  · rename_i hkept
    rw [if_neg hkept]
    by_contra hne
    exact hkept ⟨hkey, hactive, hne⟩

theorem Retired.activate (h : Retired id w) :
    Retired id { w with
      graphs := w.graphs.updateAll (·.activatedBy id) (fun _ => Graph.activatedBy_id)
        (fun _ => by simp only [Graph.activatedBy_key, Graph.activatedBy_version]) } := by
  intro g hg hkey hactive
  obtain ⟨g₀, hg₀, rfl⟩ := List.mem_map.1 hg
  rw [Graph.activatedBy_key] at hkey
  rw [Graph.activatedBy_id]
  by_cases hid : g₀.id = id
  · exact hid
  · rw [Graph.activatedBy, if_neg hid] at hactive
    exact h g₀ hg₀ hkey hactive

/-- How the protected region of a rebuild ends. -/
def Switched (active : Option Graph) (id : ObjectId) : Except PyErr Graph → World → Prop :=
  Raise.Post (fun _ w => Newest w ∧ Activated w)
    fun e w => Installing active id w ∧ e ≠ .duplicateKey ∧ (¬ e.isException → Newest w)

/-- The old graphs are inactive; the new one becomes active. -/
theorem activateGraph_wp {g : Graph} (h : Installing active id w) (hretired : Retired id w) :
    Prog.wp (safeExec lib) (Switched active id)
      (do Raise.ask (Cmd.activateGraph id); return g : Py Graph) w := by
  have hinstalling := h.activate (g := { g with id := id }) (.inl rfl)
  refine Raise.wp_ask_bind.2 fun o r w' hexec => ?_
  replace hexec := (System.restrict_exec.1 hexec).2
  rcases perform_eq hexec with ⟨-, rfl, rfl⟩ | ⟨f, -, rfl, rfl⟩
  · refine ⟨hinstalling.newest hretired.activate, hinstalling.activated hretired.activate ?_⟩
    intro g' hg' hid
    obtain ⟨g₀, -, rfl⟩ := List.mem_map.1 hg'
    rw [Graph.activatedBy_id] at hid
    rw [Graph.activatedBy, if_pos hid]
    rfl
  · split
    · exact ⟨hinstalling, Cause.error_ne, fun _ => hinstalling.newest hretired.activate⟩
    · exact ⟨h, Cause.error_ne, fun _ => h.newest hretired⟩

theorem switchGraph_wp {g : Graph} (h : Installing active id w) :
    Prog.wp (safeExec lib) (Switched active id)
      (do Raise.ask (Cmd.deactivateOthers id); Raise.ask (Cmd.activateGraph id); return g : Py Graph)
      w := by
  refine Raise.wp_ask_bind.2 fun o r w' hexec => ?_
  obtain ⟨hsafe, hexec⟩ := System.restrict_exec.1 hexec
  rcases perform_eq hexec with ⟨-, rfl, rfl⟩ | ⟨f, hf, rfl, rfl⟩
  · exact activateGraph_wp h.deactivate retired_deactivate
  · simp only [safe, hf, Option.all_some, decide_eq_true_eq] at hsafe
    split
    · exact ⟨h.deactivate, Cause.error_ne, fun _ => h.deactivate.newest retired_deactivate⟩
    · rename_i happlied
      refine ⟨h, Cause.error_ne, fun he => newest_iff.2 ?_⟩
      exact (hsafe.resolve_left happlied).resolve_left he

/-- The document is newer than every stored graph. -/
def Fresh (document : GraphDocument) (w : World) : Prop :=
  document.key = graphKey ∧ document.active = false ∧
    ∀ g ∈ w.graphs, g.key = graphKey → g.version < document.version

/-- The graph that was read is the one that is active. -/
def Reads (active : Option Graph) (w : World) : Prop :=
  (∀ g ∈ w.graphs, g.key = graphKey → g.active → active = some g) ∧
    ∀ g, active = some g → g ∈ w.graphs ∧ g.key = graphKey ∧ g.active

theorem installing_of_insert {document : GraphDocument}
    {graphs : Collection Graph (·.id) fun g => (g.key, g.version)} (h : Newest w)
    (hreads : Reads active w) (hfresh : Fresh document w)
    (hinsert : w.graphs.insertOne ⟨document, id⟩ = some graphs) :
    Installing active id { w with graphs } := by
  have hid := (Collection.insertOne_some hinsert).1
  have hmem := fun g => Collection.mem_insertOne (e := g) hinsert
  have hold : ∀ g ∈ graphs, g.id ≠ id → g ∈ w.graphs := by
    intro g hg hne
    rcases (hmem g).1 hg with rfl | hg
    · exact absurd rfl hne
    · exact hg
  refine ⟨⟨_, (hmem _).2 (.inl rfl), rfl, hfresh.1, fun g hg hkey hne => ?_⟩, ?_, ?_⟩
  · exact hfresh.2.2 g (hold g hg hne) hkey
  · intro g hg hkey hne hactive
    exact ⟨g, hreads.1 g (hold g hg hne) hkey hactive, rfl⟩
  · intro old hactive
    obtain ⟨hg, hkey, hgactive⟩ := hreads.2 old hactive
    refine ⟨hid old hg, old, (hmem old).2 (.inr hg), hkey, rfl, fun g hg' hkey' hne => ?_⟩
    exact h old hg hkey hgactive g (hold g hg' hne) hkey'

theorem installGraph_wp {document : GraphDocument} (h : Newest w) (hreads : Reads active w)
    (hfresh : Fresh document w) :
    Prog.wp (safeExec lib) Ended (installGraph active document) w := by
  refine Raise.wp_ask_bind.2 fun o r w' hexec => ?_
  obtain ⟨hsafe, hexec⟩ := System.restrict_exec.1 hexec
  simp only [rebuilds, Cmd.exec] at hexec
  split at hexec
  · rename_i id hids
    split at hexec
    · cases hexec
    · rename_i hnew
      simp only [not_exists, not_and] at hnew
      split at hexec
      · rename_i graphs hinsert
        have hinstalling := installing_of_insert h hreads hfresh hinsert
        rcases perform_eq hexec with ⟨-, rfl, rfl⟩ | ⟨f, hf, rfl, rfl⟩
        · apply Raise.wp_tryExcept
          refine Prog.wp_mono (fun r w' hr => ?_) (switchGraph_wp hinstalling)
          cases r with
          | ok g => exact ⟨hr.1, (by rintro ⟨⟩), fun _ _ => hr.2⟩
          | error e =>
            obtain ⟨hinstalling, hne, hnewest⟩ := hr
            simp only [Raise.Post]
            split
            · exact restoreGraph_wp hinstalling hne
            · rename_i he
              exact .error (hnewest he) hne
        · refine Ended.error ?_ Cause.error_ne
          simp only [safe, hf, Option.all_some, decide_eq_true_eq] at hsafe
          split
          · rename_i happlied
            -- no graph is active, the new one included
            have hinactive := hsafe.resolve_left (absurd happlied)
            intro g hg hkey hactive
            rcases (Collection.mem_insertOne hinsert).1 hg with rfl | hg
            · rw [hfresh.2.1] at hactive
              cases hactive
            · exact absurd ⟨hkey, hactive⟩ (of_decide_eq_true (List.all_eq_true.1 hinactive g hg))
          · exact h
      · rename_i hinsert
        exfalso
        rw [Collection.insertOne, if_neg (by simpa using hnew)] at hinsert
        obtain ⟨g, hg, -, hkey⟩ := Collection.replaceOne_eq_none_iff.1 hinsert
        obtain ⟨hkey, hversion⟩ := Prod.mk.inj hkey
        exact absurd hversion (hfresh.2.2 g hg (hkey.trans hfresh.1)).ne
  · cases hexec

/-! ## The next version -/

/-- There is a greatest document unless there is none. -/
theorem eq_nil_of_findOneSorted_desc {α : Type} {f : α → Int} {pick : ℕ} {l : List α}
    (h : findOneSorted (fun a b => f b ≤ f a) pick l = none) : l = [] :=
  eq_nil_of_findOneSorted (fun a b => by simpa using le_total (f b) (f a))
    (fun a b c => by simpa using fun hba hcb => le_trans hcb hba) h

section Draft

variable {fields : List TaxonomyField} {failures : List Failure} {useAI : Bool} {α : Type}

/-- A part of the rebuild that reads: it leaves the graphs and finds no duplicate. -/
def Reading (w : World) (Q : α → Prop) : Except PyErr α → World → Prop :=
  Raise.Post (fun a w' => w'.graphs = w.graphs ∧ Q a)
    fun e w' => w'.graphs = w.graphs ∧ e ≠ .duplicateKey

/-- A part that reads, and what comes after it. -/
theorem wp_reading_bind {β : Type} {Q : α → Prop} {Q' : β → Prop} {p : Py α} {f : α → Py β}
    (h : Prog.wp (safeExec lib) (Reading w Q) p w)
    (hf : ∀ a w', w'.graphs = w.graphs → Q a → Prog.wp (safeExec lib) (Reading w' Q') (f a) w') :
    Prog.wp (safeExec lib) (Reading w Q') (p >>= f : Py β) w := by
  refine Raise.wp_bind.2 (Prog.wp_mono (fun r w' hr => ?_) h)
  cases r with
  | error e => exact hr
  | ok a =>
    refine Prog.wp_mono (fun r w'' hr' => ?_) (hf a w' hr.1 hr.2)
    cases r with
    | error e => exact ⟨hr'.1.trans hr.1, hr'.2⟩
    | ok b => exact ⟨hr'.1.trans hr.1, hr'.2⟩

theorem ask_reading {cmd : Cmd} (hcmd : cmd.target = .nothing) :
    Prog.wp (safeExec lib) (Reading w fun _ => True) (Raise.ask cmd : Py (Answer cmd)) w := by
  intro o r w' hexec
  obtain ⟨hgraphs, hunique⟩ := exec_nothing hcmd hexec
  cases r with
  | ok a => exact ⟨hgraphs, trivial⟩
  | error e => exact ⟨hgraphs, fun heq => hunique (heq ▸ rfl)⟩

theorem liftRaised_reading {r : Except Raised α} :
    Prog.wp (safeExec lib) (Reading w fun _ => True) (liftRaised r : Py α) w := by
  cases r with
  | ok a => exact ⟨rfl, trivial⟩
  | error e => exact ⟨rfl, nofun⟩

theorem modelEdges_wp {content : GraphContent} :
    Prog.wp (safeExec lib) (Reading w fun _ => True) (modelEdges fields failures useAI content) w := by
  unfold modelEdges
  split
  · exact ask_reading rfl
  · exact ⟨rfl, trivial⟩

theorem latestGraph_wp (hreads : Reads active w) (h : Newest w) :
    Prog.wp (safeExec lib) (Reading w fun latest => ∀ g ∈ w.graphs, g.key = graphKey →
      g.version ≤ latest.elim 0 (·.version)) (latestGraph active) w := by
  cases active with
  | some g =>
    obtain ⟨hg, hkey, hactive⟩ := hreads.2 g rfl
    exact ⟨rfl, h g hg hkey hactive⟩
  | none =>
    intro o r w' hexec
    obtain ⟨hgraphs, hunique⟩ := exec_nothing rfl hexec
    cases r with
    | error e => exact ⟨hgraphs, fun heq => hunique (heq ▸ rfl)⟩
    | ok latest =>
      refine ⟨hgraphs, fun g hg hkey => ?_⟩
      have hanswer := Except.ok.inj (respond_ok (System.restrict_exec.1 hexec).2)
      have hmem : g ∈ w.graphs.docs.filter (·.key = graphKey) :=
        List.mem_filter.2 ⟨hg, decide_eq_true hkey⟩
      cases latest with
      | none =>
        rw [eq_nil_of_findOneSorted_desc hanswer] at hmem
        exact absurd hmem List.not_mem_nil
      | some g' => exact of_decide_eq_true (le_of_findOneSorted hanswer hmem)

theorem reads_of_eq (h : Reads active w) (hgraphs : w'.graphs = w.graphs) : Reads active w' := by
  unfold Reads
  rwa [hgraphs]

theorem draftGraph_wp (hreads : Reads active w) (h : Newest w) :
    Prog.wp (safeExec lib) (Reading w fun document => Fresh document w)
      (draftGraph lib fields failures useAI active) w := by
  refine wp_reading_bind (ask_reading rfl) fun searchModel w₁ h₁ _ => ?_
  refine wp_reading_bind liftRaised_reading fun content w₂ h₂ _ => ?_
  refine wp_reading_bind modelEdges_wp fun (aiEdges, aiMeta) w₃ h₃ _ => ?_
  refine wp_reading_bind liftRaised_reading fun content w₄ h₄ _ => ?_
  have hgraphs : w₄.graphs = w.graphs := h₄.trans (h₃.trans (h₂.trans h₁))
  have hlatest : Prog.wp (safeExec lib) (Reading w₄ fun latest => ∀ g ∈ w₄.graphs, g.key = graphKey →
      g.version ≤ latest.elim 0 (·.version)) (latestGraph active) w₄ :=
    latestGraph_wp (reads_of_eq hreads hgraphs) (newest_of_eq h hgraphs)
  refine wp_reading_bind hlatest fun latest w₅ h₅ hversion => ?_
  refine wp_reading_bind (ask_reading rfl) fun createdAt w₆ h₆ _ => ⟨rfl, rfl, rfl, fun g hg hkey => ?_⟩
  rw [hgraphs] at hversion
  exact Int.lt_add_one_of_le (hversion g hg hkey)

end Draft

theorem findActiveGraph_reads {answer : Option Graph} (h : Newest w)
    (hexec : Cmd.findActiveGraph.exec lib.forbiddenText o w = some (.ok answer, w')) :
    Reads answer w := by
  have hanswer := Except.ok.inj (respond_ok hexec)
  constructor
  · intro g hg hkey hactive
    have hmem : g ∈ w.graphs.docs.filter fun g => g.key = graphKey ∧ g.active :=
      List.mem_filter.2 ⟨hg, decide_eq_true ⟨hkey, hactive⟩⟩
    cases answer with
    | none =>
      rw [eq_nil_of_findOne hanswer] at hmem
      exact absurd hmem List.not_mem_nil
    | some g' =>
      obtain ⟨hg', hactive'⟩ := List.mem_filter.1 (mem_of_findOneSorted hanswer)
      obtain ⟨hkey', hactive'⟩ := of_decide_eq_true hactive'
      -- two active graphs are each the newest
      have hversion := le_antisymm (h g hg hkey hactive g' hg' hkey') (h g' hg' hkey' hactive' g hg hkey)
      have heq : (g'.key, g'.version) = (g.key, g.version) := by rw [hkey, hkey', hversion]
      rw [Collection.eq_of_key_eq hg' hg heq]
  · intro g hg
    subst hg
    obtain ⟨hmem, hactive⟩ := List.mem_filter.1 (mem_of_findOneSorted hanswer)
    obtain ⟨hkey, hactive⟩ := of_decide_eq_true hactive
    exact ⟨hmem, hkey, hactive⟩

theorem activated_of_reads {g : Graph} (h : Newest w) (hreads : Reads (some g) w) : Activated w := by
  obtain ⟨hg, hkey, hactive⟩ := hreads.2 g rfl
  refine ⟨g, hg, hkey, hactive, fun g' hg' hkey' hne => ?_⟩
  refine ⟨fun hactive' => hne (Option.some.inj (hreads.1 g' hg' hkey' hactive')).symm, ?_⟩
  refine lt_of_le_of_ne (h g hg hkey hactive g' hg' hkey') fun hversion => hne ?_
  exact Collection.eq_of_key_eq hg' hg (by rw [hkey, hkey', hversion])

theorem buildOrLoadGraph_wp {failures : List Failure} {useAI rebuild : Bool} (h : Newest w) :
    Prog.wp (safeExec lib) Ended (buildOrLoadGraph lib failures useAI rebuild) w := by
  refine wp_nothing rfl (fun o fields w₁ _ h₁ => ?_) fun e w₁ h₁ he => .error (newest_of_eq h h₁) he
  replace h := newest_of_eq h h₁
  refine wp_nothing rfl (fun o active w₂ hexec h₂ => ?_) fun e w₂ h₂ he => .error (newest_of_eq h h₂) he
  have hreads := reads_of_eq (findActiveGraph_reads h hexec) h₂
  replace h := newest_of_eq h h₂
  dsimp only
  split
  · rename_i g hg
    obtain ⟨rfl, -⟩ := Option.filter_eq_some_iff.1 hg
    exact ⟨h, nofun, fun _ _ => activated_of_reads h hreads⟩
  · refine Raise.wp_bind.2 (Prog.wp_mono (fun r w₃ hr => ?_) (draftGraph_wp hreads h))
    cases r with
    | error e => exact .error (newest_of_eq h hr.1) hr.2
    | ok document =>
      obtain ⟨h₃, hfresh⟩ := hr
      have hfresh : Fresh document w₃ := by
        unfold Fresh
        rwa [h₃]
      exact installGraph_wp (newest_of_eq h h₃) (reads_of_eq hreads h₃) hfresh

/-! ## Sequences -/

variable {w₀ : World} {h : List (GraphRequest × Except PyErr Graph)}

theorem newest (hw₀ : ¬ exposed w₀)
    (hs : ((rebuilds lib).restrict safe).Sequence (fun _ _ => True) w₀ h w) : Newest w := by
  refine System.Sequence.invariant (I := fun _ w => Newest w) (newest_iff.2 hw₀) ?_ ?_ hs
  · exact fun _ _ e hI => newest_of_eq hI Env.apply_graphs
  · exact fun _ _ request hI _ => Prog.wp_mono (fun _ _ hr => hr.newest) (buildOrLoadGraph_wp hI)

/-- After any rebuilds none of which stops where an active graph stands beside a
newer one, a rebuild that meets no fault finds no duplicate version, and leaves
one active graph, which is the newest. -/
theorem graphActivation (hw₀ : ¬ exposed w₀)
    (hs : ((rebuilds lib).restrict safe).Sequence (fun _ _ => True) w₀ h w) {request : GraphRequest}
    {os : List Oracle} {r : Except PyErr Graph}
    (hrun : ((rebuilds lib).prog request).run ((rebuilds lib).restrict faultless).exec os w =
      some (r, w')) :
    r ≠ .error .duplicateKey ∧ ∀ g, r = .ok g → Activated w' := by
  have hwp : Prog.wp ((rebuilds lib).restrict faultless).exec Ended ((rebuilds lib).prog request) w := by
    refine Prog.wp_of_le (fun cmd o w x hexec => ?_) (buildOrLoadGraph_wp (newest hw₀ hs))
    obtain ⟨hfault, hexec⟩ := System.restrict_exec.1 hexec
    have hnone : o.fault = none := Option.isNone_iff_eq_none.1 hfault
    refine System.restrict_exec.2 ⟨?_, hexec⟩
    cases cmd <;> simp [safe, hnone]
  have hended := Prog.wp_sound hwp hrun
  exact ⟨hended.unique, hended.activated⟩

end Reconciler

/-! ## A crash after the insertion -/

namespace Sample

namespace Reconciler

open Stylme.Reconciler

def rebuild : GraphRequest := ⟨[], false, true⟩

/-- The oracles of a rebuild that inserts graph `id`, with the oracles of the writes after that. -/
def insertion (reads : ℕ) (id : ObjectId) (fault : Option Mishap)
    (writes : List Stylme.Reconciler.Oracle) : List Stylme.Reconciler.Oracle :=
  List.replicate reads ({} : Stylme.Reconciler.Oracle) ++ { objectIDs := [id], fault } :: writes

def graph : Stylme.Reconciler.Graph where
  key := graphKey
  schemaVersion := graphSchemaVersion
  version := 1
  active := true
  market := "IN"
  maxDepth := maxGraphDepth
  taxonomyHash := ""
  failureHash := ""
  taxonomy := []
  content := ⟨[], []⟩
  ai := ⟨false, "disabled"⟩
  statistics := ⟨0, 0, 0, 0⟩
  createdAt := 0
  id := 9

/-- The store with an active graph. -/
def activated : Stylme.Reconciler.World :=
  { world with graphs := ⟨[graph], by decide, by decide⟩ }

end Reconciler

end Sample

namespace Reconciler

/-- A crash, a rebuild that is undone, and a rebuild that succeeds. -/
theorem graphActivation_sample :
    ∃ h w r w', ((rebuilds Sample.Reconciler.library).restrict safe).Sequence (fun _ _ => True)
        Sample.Reconciler.world h w ∧ h.length = 2 ∧
      ((rebuilds Sample.Reconciler.library).prog Sample.Reconciler.rebuild).run
        ((rebuilds Sample.Reconciler.library).restrict faultless).exec
        (Sample.Reconciler.insertion 5 3 none [{}, {}]) w = some (.ok r, w') ∧ Activated w' := by
  have hrun : (((rebuilds Sample.Reconciler.library).restrict safe).sequence (fun _ _ => True)
      [(Sample.Reconciler.rebuild,
          Sample.Reconciler.insertion 5 1 (some (Sample.Reconciler.killed true)) []),
        (Sample.Reconciler.rebuild, Sample.Reconciler.insertion 5 2 none
          [{ fault := some (Sample.Reconciler.failed true) }, {}])] [] Sample.Reconciler.world).any
      fun x => x.1.length = 2 ∧
        (((rebuilds Sample.Reconciler.library).prog Sample.Reconciler.rebuild).run
          ((rebuilds Sample.Reconciler.library).restrict faultless).exec
          (Sample.Reconciler.insertion 5 3 none [{}, {}]) x.2).any
            fun y => match y.1 with
              | .ok _ => true
              | .error _ => false := by
    decide +kernel
  obtain ⟨h, w, hs, hcheck⟩ := System.Sequence.exists_of_any hrun
  obtain ⟨hlength, hlast⟩ := of_decide_eq_true hcheck
  obtain ⟨⟨r, w'⟩, hlast, hok⟩ := (Option.any_eq_true ..).1 hlast
  cases r with
  | error e => cases hok
  | ok g =>
    exact ⟨h, w, g, w', hs, hlength, hlast,
      (graphActivation (by decide +kernel) hs hlast).2 g rfl⟩

/-- After a crash between the insertion and the deactivation, rebuilds fail. -/
theorem not_graphActivation :
    ¬ ∀ (w₀ w w' : World) (h : List (GraphRequest × Except PyErr Graph)) (request : GraphRequest)
      (os : List Oracle) (r : Except PyErr Graph), ¬ exposed w₀ →
      (rebuilds Sample.Reconciler.library).Sequence (fun _ _ => True) w₀ h w →
      ((rebuilds Sample.Reconciler.library).prog request).run
        ((rebuilds Sample.Reconciler.library).restrict faultless).exec os w = some (r, w') →
      r ≠ .error .duplicateKey ∧ ∀ g, r = .ok g → Activated w' := by
  intro h
  have hrun : ((rebuilds Sample.Reconciler.library).sequence (fun _ _ => True)
      [(Sample.Reconciler.rebuild,
        Sample.Reconciler.insertion 4 1 (some (Sample.Reconciler.killed true)) [])] []
      Sample.Reconciler.activated).any fun x =>
        (((rebuilds Sample.Reconciler.library).prog Sample.Reconciler.rebuild).run
          ((rebuilds Sample.Reconciler.library).restrict faultless).exec
          (Sample.Reconciler.insertion 4 2 none []) x.2).any
            fun y => match y.1 with
              | .error e => e = .duplicateKey
              | .ok _ => false := by
    decide +kernel
  obtain ⟨ops, w, hs, hlast⟩ := System.Sequence.exists_of_any hrun
  obtain ⟨⟨r, w'⟩, hlast, herror⟩ := (Option.any_eq_true ..).1 hlast
  cases r with
  | ok g => cases herror
  | error e =>
    obtain rfl := of_decide_eq_true herror
    exact (h _ w w' ops _ _ _ (by decide +kernel) hs hlast).1 rfl

end Reconciler

end Stylme
