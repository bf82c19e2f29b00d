-- SUMMARY: Operations on the reconciler's store side by side, and the rule for their invariants.
import Stylme.Reconciler.Effects
import Stylme.Reconciler.Protocol

/-!
# The reconciler as a system

Runs, applications, decisions and search outcomes interleave at their database
requests. A step that issues no command starts or stops an operation, moves the
clock, or drops an expired document.
-/

namespace Stylme

open Conc Backend

namespace Reconciler

abbrev State := Pool Op Cmd (Raising PyErr Answer) Reply World

abbrev Step := Label Op Oracle Env

abbrev View := Config Op Cmd (Raising PyErr Answer) World Phase

abbrev LogEntry := Entry Cmd (Raising PyErr Answer) World

variable (lib : Library)

/-- An operation has read nothing when it starts. -/
abbrev view (σ : State) : View := σ.config (Op.protocol lib) fun _ => {}

/-- Nothing moved but the clock and what expired with it. -/
structure Idle (cfg cfg' : View) : Prop where
  view : ∀ {t op l b}, cfg'.view t = some ⟨op, l, b⟩ → l = {} ∨ ∃ b', cfg.view t = some ⟨op, l, b'⟩
  log : cfg'.log = cfg.log
  shared : cfg'.shared = cfg.shared ∨ ∃ e : Env, cfg'.shared = e.apply cfg.shared

theorem Idle.update {cfg : View} {t : ℕ} {op : Op} {l : Phase} {b : Bool}
    (ht : l = {} ∨ ∃ b', cfg.view t = some ⟨op, l, b'⟩) :
    Idle cfg { cfg with view := Function.update cfg.view t (some ⟨op, l, b⟩) } := by
  refine ⟨fun {u op' l' b'} hu => ?_, rfl, .inl rfl⟩
  rcases View.of_update hu with ⟨rfl, rfl, rfl, -⟩ | ⟨-, hv⟩
  · exact ht
  · exact .inr ⟨b', hv⟩

variable {lib} {ok : State → Step → Prop} {w₀ : World} {σ : State}

/-- A property of the view that holds at the start, that idling keeps and that
every command keeps, holds in every reachable pool. -/
theorem invariant {I : View → Prop} (hinit : I (view lib (Pool.init w₀)))
    (hidle : ∀ cfg cfg', I cfg → Idle cfg cfg' → I cfg')
    (hexec : ∀ ρ t o op l cmd r w, ok ρ (.exec t o) → I (view lib ρ) → ρ.next t = some (op, cmd) →
      (view lib ρ).view t = some ⟨op, l, true⟩ → Permits lib op l cmd →
      cmd.exec lib.forbiddenText o ρ.shared = some (r, w) →
      I ⟨w, Function.update (view lib ρ).view t (some ⟨op, next l cmd r, true⟩), ⟨t, cmd, r, w⟩ :: ρ.log⟩)
    (h : (backend lib).Reach ok (Pool.init w₀) σ) : I (view lib σ) := by
  refine h.invariant (Q := fun _ _ _ => True) Op.conforms .init hinit ?_
  intro ρ l cfg _ hok hI hstep
  cases hstep with
  | spawn ht => exact hidle _ _ hI (.update (.inl rfl))
  | @exec t o op ph cmd r w hnext ht hpermits hexec' =>
    exact hexec ρ t o op ph cmd r w hok hI hnext ht hpermits hexec'
  | @crash t op ph b ht => exact hidle _ _ hI (.update (.inr ⟨b, ht⟩))
  | @env e => exact hidle _ _ hI ⟨fun hu => .inr ⟨_, hu⟩, rfl, .inr ⟨e, rfl⟩⟩

end Reconciler

/-! ## A small store -/

namespace Sample

namespace Reconciler

open Stylme.Reconciler

def library : Library where
  lockSeconds := 1800
  autoApplyConfidence := 1
  queryRetention := 90 * 24 * 3600 * second
  hasOpenAIKey := false
  forbiddenText := fun _ => false
  normalizeQuery := id
  redactQuery := id
  queryHash := id
  safeContext := fun _ _ => []
  taxonomyHash := fun _ => ""
  failureHash := fun _ => ""
  deterministicGraph := fun _ _ => .ok ⟨[], []⟩
  enrich := fun content _ => .ok content
  targetSignals := fun _ _ _ _ => .ok []
  proposalsForProduct := fun _ _ _ _ => .ok []
  idText := fun _ => "1"
  parseID := fun
    | "linen" => some 2
    | "silk" => some 3
    | _ => none

def fabric : TaxonomyField where
  key := "fabric"
  label := "Fabric"
  storage := some "product_metadata"
  dataType := some "multi_select"
  maxSelections := none
  aiAllowed := true
  options := [⟨"linen", "Linen", []⟩, ⟨"silk", "Silk", []⟩]

/-- A product with two values of a field that takes three. -/
def product : Product where
  id := 1
  status := "active"
  visibility := "public"
  title := "Kurta"
  description := ""
  searchText := "kurta"
  categoryKey := "ethnic-wear"
  productTypeKey := "kurta"
  genderKeys := ["women"]
  metadata := [("fabric", .arr [.str "cotton", .str "wool"])]
  reconciliation := none

def proposal (id : ObjectId) (value : String) : Proposal where
  id := id
  proposalKey := "1:fabric:" ++ value
  productID := 1
  field := "fabric"
  value := value
  confidence := 1
  autoEligible := false
  evidence := []
  queryHashes := []
  queryScore := 1
  graphVersion := 1
  runID := "trr_0"
  status := .proposed
  createdAt := 0
  updatedAt := 0

def world : Stylme.Reconciler.World where
  clock := 0
  taxonomy := ⟨[fabric], by decide, by decide⟩
  searchModel := none
  graphs := ∅
  failures := ∅
  products := ⟨[product], by decide +kernel, by decide +kernel⟩
  proposals := ⟨[proposal 2 "linen", proposal 3 "silk"], by decide, by decide⟩
  cursor := none
  runs := ∅
  locks := ∅
  issued := []

def application (value : String) : Stylme.Reconciler.Op :=
  .applyRetagProposals ⟨[value], 0, 500, false, none, none⟩

def run : Stylme.Reconciler.Op := .runReconciler ⟨10, 10, 2, false, false, false⟩ "owner" none

def killed (applied : Bool) : Mishap := ⟨.killed, applied⟩

def failed (applied : Bool) : Mishap := ⟨.driver ⟨"NetworkTimeout", ""⟩, applied⟩

/-- Some oracles with nothing to say. -/
def quiet (n : ℕ) : List Stylme.Reconciler.Oracle := List.replicate n {}

/-- `n` commands of thread `t` in a row, none of them going wrong. -/
def execs (t n : ℕ) : List Stylme.Reconciler.Step := List.replicate n (.exec t {})

/-- The commands of a run of thread `t` that come after the first five, the graph it
inserts being document `id`. -/
def runSteps (t : ℕ) (id : ObjectId) : List Stylme.Reconciler.Step :=
  execs t 5 ++ [.exec t { objectIDs := [id] }] ++ execs t 13

end Reconciler

end Sample

end Stylme
