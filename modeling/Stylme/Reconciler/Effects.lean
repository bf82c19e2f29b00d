-- SUMMARY: What a command of the reconciler leaves unchanged, and what its writes do to a document.
import Stylme.Reconciler.Store

/-!
# Effects

Every command writes to at most one collection. The lemmas on a write say which
documents it changes, whether or not its answer arrives.
-/

namespace Stylme

open Conc Backend

namespace Reconciler

/-- The part of the world a command writes to. -/
inductive Target where
  | nothing
  | issued
  | graphs
  | failures
  | products
  | proposals
  | cursor
  | runs
  | locks
  deriving DecidableEq

def Cmd.target : Cmd → Target
  | .uuid => .issued
  | .acquireLock _ _ _ | .releaseLock _ => .locks
  | .insertRun _ | .finishRun _ _ _ _ => .runs
  | .markProcessed _ _ _ _ | .recoverFailure _ _ _ | .reopenFailure _ => .failures
  | .insertGraph _ | .deactivateOthers _ | .activateGraph _ | .deleteGraph _ => .graphs
  | .setCursor _ => .cursor
  | .insertProposals _ | .applyProposals _ _ _ | .dropProposals _ _ | .decideProposal _ _ => .proposals
  | .addMetadata _ => .products
  | _ => .nothing

/-- Everything but the target is unchanged. -/
structure Frame (t : Target) (w w' : World) : Prop where
  clock : w'.clock = w.clock
  taxonomy : w'.taxonomy = w.taxonomy
  graphs : t ≠ .graphs → w'.graphs = w.graphs
  failures : t ≠ .failures → w'.failures = w.failures
  products : t ≠ .products → w'.products = w.products
  proposals : t ≠ .proposals → w'.proposals = w.proposals
  cursor : t ≠ .cursor → w'.cursor = w.cursor
  runs : t ≠ .runs → w'.runs = w.runs
  locks : t ≠ .locks → w'.locks = w.locks

variable {forbiddenText : String → Bool} {o : Oracle} {w w' w₁ : World} {t : Target}

theorem Frame.refl : Frame t w w :=
  ⟨rfl, rfl, fun _ => rfl, fun _ => rfl, fun _ => rfl, fun _ => rfl, fun _ => rfl, fun _ => rfl,
    fun _ => rfl⟩

theorem Frame.of_respond {α : Type} {f : Option Mishap} {r r' : Except PyErr α}
    (h : respond f r w = some (r', w')) : Frame t w w' := by
  rw [(respond_eq h).1]
  exact .refl

theorem Frame.of_perform {α : Type} {f : Option Mishap} {r r' : Except PyErr α}
    (h : perform f r w w₁ = some (r', w')) (h₁ : Frame t w w₁) : Frame t w w' := by
  rcases perform_state h with rfl | rfl
  · exact h₁
  · exact .refl

theorem frame_graphs {graphs : Collection Graph (·.id) (fun g => (g.key, g.version))} :
    Frame .graphs w { w with graphs } :=
  ⟨rfl, rfl, fun h => absurd rfl h, fun _ => rfl, fun _ => rfl, fun _ => rfl, fun _ => rfl,
    fun _ => rfl, fun _ => rfl⟩

theorem frame_failures {failures : Collection Failure Failure.id Failure.queryHash} :
    Frame .failures w { w with failures } :=
  ⟨rfl, rfl, fun _ => rfl, fun h => absurd rfl h, fun _ => rfl, fun _ => rfl, fun _ => rfl,
    fun _ => rfl, fun _ => rfl⟩

theorem frame_products {products : Collection Product Product.id Product.id} :
    Frame .products w { w with products } :=
  ⟨rfl, rfl, fun _ => rfl, fun _ => rfl, fun h => absurd rfl h, fun _ => rfl, fun _ => rfl,
    fun _ => rfl, fun _ => rfl⟩

theorem frame_proposals {proposals : Collection Proposal (·.id) (·.proposalKey)} :
    Frame .proposals w { w with proposals } :=
  ⟨rfl, rfl, fun _ => rfl, fun _ => rfl, fun _ => rfl, fun h => absurd rfl h, fun _ => rfl,
    fun _ => rfl, fun _ => rfl⟩

theorem frame_cursor {cursor : Option ObjectId} : Frame .cursor w { w with cursor } :=
  ⟨rfl, rfl, fun _ => rfl, fun _ => rfl, fun _ => rfl, fun _ => rfl, fun h => absurd rfl h,
    fun _ => rfl, fun _ => rfl⟩

theorem frame_runs {runs : Collection Run Run.runID Run.runID} : Frame .runs w { w with runs } :=
  ⟨rfl, rfl, fun _ => rfl, fun _ => rfl, fun _ => rfl, fun _ => rfl, fun _ => rfl,
    fun h => absurd rfl h, fun _ => rfl⟩

theorem frame_locks {locks : Locks} : Frame .locks w { w with locks } :=
  ⟨rfl, rfl, fun _ => rfl, fun _ => rfl, fun _ => rfl, fun _ => rfl, fun _ => rfl, fun _ => rfl,
    fun h => absurd rfl h⟩

theorem exec_frame {cmd : Cmd} {r : Resp cmd} (h : cmd.exec forbiddenText o w = some (r, w')) :
    Frame cmd.target w w' := by
  cases cmd with
  | now =>
    obtain ⟨-, rfl⟩ := Prod.mk.inj (Option.some.inj h)
    exact .refl
  | uuid =>
    simp only [Cmd.exec] at h
    split at h
    · cases h
    · obtain ⟨-, rfl⟩ := Prod.mk.inj (Option.some.inj h)
      exact ⟨rfl, rfl, fun _ => rfl, fun _ => rfl, fun _ => rfl, fun _ => rfl, fun _ => rfl,
        fun _ => rfl, fun _ => rfl⟩
  | acquireLock owner time expiresAt =>
    simp only [Cmd.exec] at h
    split at h
    · exact .of_perform h frame_locks
    · exact .of_respond h
  | releaseLock owner => exact .of_perform h frame_locks
  | insertRun run =>
    simp only [Cmd.exec] at h
    split at h
    · exact .of_perform h frame_runs
    · exact .of_respond h
  | finishRun runID status completedAt updatedAt =>
    simp only [Cmd.exec] at h
    split at h
    · exact .of_perform h frame_runs
    · exact .of_respond h
  | markProcessed ids runID graphVersion time => exact .of_perform h frame_failures
  | recoverFailure queryHash resultCount time =>
    simp only [Cmd.exec] at h
    split at h
    · exact .of_perform h frame_failures
    · exact .of_respond h
  | reopenFailure missed =>
    simp only [Cmd.exec] at h
    split at h
    · exact .of_perform h frame_failures
    · split at h
      · split at h
        · exact .of_perform h frame_failures
        · cases h
      · cases h
  | insertGraph document =>
    simp only [Cmd.exec] at h
    split at h
    · split at h
      · cases h
      · split at h
        · exact .of_perform h frame_graphs
        · exact .of_respond h
    · cases h
  | deactivateOthers id => exact .of_perform h frame_graphs
  | activateGraph id => exact .of_perform h frame_graphs
  | deleteGraph id => exact .of_perform h frame_graphs
  | setCursor id => exact .of_perform h frame_cursor
  | insertProposals documents =>
    simp only [Cmd.exec] at h
    split at h
    · cases h
    · split at h <;> obtain ⟨-, rfl⟩ := Prod.mk.inj (Option.some.inj h) <;> exact frame_proposals
  | addMetadata write =>
    simp only [Cmd.exec] at h
    split at h
    · exact .of_respond h
    · split at h
      · exact .of_perform h frame_products
      · exact .of_respond h
  | applyProposals ids actor time => exact .of_perform h frame_proposals
  | dropProposals ids time => exact .of_perform h frame_proposals
  | decideProposal id review =>
    simp only [Cmd.exec] at h
    split at h
    · exact .of_perform h frame_proposals
    · exact .of_respond h
  | _ => exact .of_respond h

/-! ## The environment -/

section Env

variable {e : Env}

theorem Env.apply_taxonomy : (e.apply w).taxonomy = w.taxonomy := by
  cases e <;> rfl

theorem Env.apply_graphs : (e.apply w).graphs = w.graphs := by
  cases e <;> rfl

theorem Env.apply_products : (e.apply w).products = w.products := by
  cases e <;> rfl

theorem Env.apply_proposals : (e.apply w).proposals = w.proposals := by
  cases e <;> rfl

theorem Env.apply_cursor : (e.apply w).cursor = w.cursor := by
  cases e <;> rfl

end Env

/-! ## Writes to one document -/

section Put

variable {α κ ι : Type} [DecidableEq κ] [DecidableEq ι] {id : α → κ} {key : α → ι}
variable {s : Collection α id key} {d e d' : α}

/-- A stored document is replaced by `d`. -/
theorem replaceOne_eq_put (hd : d ∈ s) (hid : id d' = id d) (hkey : key d' = key d) :
    s.replaceOne d' = some (put s d') := by
  obtain ⟨s', hs'⟩ := Collection.replaceOne_of_mem hd hid hkey
  rw [put, hs', Option.getD_some]

theorem mem_put (hd : d ∈ s) (hid : id d' = id d) (hkey : key d' = key d) :
    e ∈ put s d' ↔ e = d' ∨ (e ∈ s ∧ id e ≠ id d') :=
  Collection.mem_replaceOne (replaceOne_eq_put hd hid hkey)

end Put

theorem exec_addMetadata {write : ProductWrite} {r : Resp (.addMetadata write)}
    (h : (Cmd.addMetadata write).exec forbiddenText o w = some (r, w')) : w' = w ∨
      ∃ p p', w.products.get write.productID = some p ∧ p.added write = some p' ∧
        w' = { w with products := put w.products p' } := by
  simp only [Cmd.exec] at h
  split at h
  · exact .inl (respond_eq h).1
  · rename_i p hget
    split at h
    · rename_i p' hadded
      rcases perform_state h with rfl | rfl
      · exact .inr ⟨p, p', hget, hadded, rfl⟩
      · exact .inl rfl
    · exact .inl (respond_eq h).1

end Reconciler

end Stylme
