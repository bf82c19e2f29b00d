-- SUMMARY: What the Python services share: exceptions, how a database request goes wrong, queries, and the workflow locks.
import Mathlib.Data.List.Sort
import Stylme.Lib.Collection
import Stylme.Lib.Raise
import Stylme.Domain.Models

/-!
# The Python backend

The services of `src/backend` await one database request after another. Each of
them may raise: the driver reports an error, the task is cancelled, or the
process dies, and in each case the request may or may not have taken effect.
-/

namespace Stylme

open Conc

namespace Backend

abbrev ObjectId := ℕ

/-! ## Exceptions -/

/-- A Python exception as the services tell them apart. -/
inductive PyErr where
  | duplicateKey
  | bulkWrite (codes : List Int)
  | httpException (statusCode : ℕ) (detail : String)
  /-- `SamoraError` of the call provider's client. -/
  | samora (statusCode : Option ℕ) (code : String) (retryable : Bool)
  /-- Any other `Exception`, by the name of its class and its text. -/
  | exception (type message : String)
  /-- `asyncio.CancelledError`, which is not an `Exception`. -/
  | cancelled
  /-- The process dies: no handler and no finalizer runs any more. -/
  | killed
  deriving DecidableEq

namespace PyErr

/-- `except Exception` catches it. -/
def isException : PyErr → Bool
  | cancelled | killed => false
  | _ => true

/-- `except BulkWriteError` catches it. -/
def isBulkWrite : PyErr → Bool
  | bulkWrite _ => true
  | _ => false

/-- `finally` runs on the way out. -/
def unwinds : PyErr → Bool
  | killed => false
  | _ => true

/-- `type(exc).__name__` -/
def typeName : PyErr → String
  | duplicateKey => "DuplicateKeyError"
  | bulkWrite _ => "BulkWriteError"
  | httpException _ _ => "HTTPException"
  | samora _ _ _ => "SamoraError"
  | exception type _ => type
  | cancelled => "CancelledError"
  | killed => ""

/-- `str(exc)`; the texts of driver errors are the driver's own. -/
def text : PyErr → String
  | duplicateKey => "E11000 duplicate key error"
  | bulkWrite _ => "batch op errors occurred"
  | httpException _ detail => detail
  | samora _ code _ => "Samora request failed (" ++ code ++ ")"
  | exception _ message => message
  | cancelled | killed => ""

end PyErr

/-- An `Exception` that a library or a plain function raises. -/
structure Raised where
  type : String
  message : String

def Raised.error (e : Raised) : PyErr := .exception e.type e.message

/-- Call a plain function. -/
def liftRaised {C : Type} {A : C → Type} {α : Type} (r : Except Raised α) : Raise C A PyErr α :=
  Raise.lift (r.mapError Raised.error)

/-! ## Faults -/

/-- Why an awaited request does not return. -/
inductive Cause where
  | driver (e : Raised)
  | cancelled
  | killed

def Cause.error : Cause → PyErr
  | driver e => e.error
  | cancelled => .cancelled
  | killed => .killed

/-- A request that does not return, before or after it took effect. -/
structure Mishap where
  cause : Cause
  applied : Bool

section Mishap

variable {α S : Type}

/-- Answer a request that changes nothing. -/
def respond (fault : Option Mishap) (r : Except PyErr α) (s : S) : Option (Except PyErr α × S) :=
  match fault with
  | none => some (r, s)
  | some f => some (.error f.cause.error, s)

/-- Answer a request that turns `s` into `s'`. -/
def perform (fault : Option Mishap) (r : Except PyErr α) (s s' : S) :
    Option (Except PyErr α × S) :=
  match fault with
  | none => some (r, s')
  | some f => some (.error f.cause.error, if f.applied then s' else s)

variable {fault : Option Mishap} {r r' : Except PyErr α} {s s' t : S}

theorem respond_eq (h : respond fault r s = some (r', t)) :
    t = s ∧ (r' = r ∨ ∃ f, fault = some f ∧ r' = .error f.cause.error) := by
  unfold respond at h
  split at h <;> obtain ⟨rfl, rfl⟩ := Prod.mk.inj (Option.some.inj h)
  · exact ⟨rfl, .inl rfl⟩
  · exact ⟨rfl, .inr ⟨_, rfl, rfl⟩⟩

theorem respond_ok {a : α} (h : respond fault r s = some (.ok a, t)) : r = .ok a := by
  rcases (respond_eq h).2 with h | ⟨f, -, h⟩
  · exact h.symm
  · cases h

theorem perform_eq (h : perform fault r s s' = some (r', t)) :
    (fault = none ∧ r' = r ∧ t = s') ∨ ∃ f, fault = some f ∧ r' = .error f.cause.error ∧
      t = if f.applied then s' else s := by
  unfold perform at h
  split at h <;> obtain ⟨rfl, rfl⟩ := Prod.mk.inj (Option.some.inj h)
  · exact .inl ⟨rfl, rfl, rfl⟩
  · exact .inr ⟨_, rfl, rfl, rfl⟩

/-- A write takes effect whole or not at all. -/
theorem perform_state (h : perform fault r s s' = some (r', t)) : t = s' ∨ t = s := by
  rcases perform_eq h with ⟨-, -, ht⟩ | ⟨f, -, -, ht⟩
  · exact .inl ht
  · cases hf : f.applied with
    | true => exact .inl (by rw [ht, hf]; rfl)
    | false => exact .inr (by rw [ht, hf]; rfl)

theorem perform_ok {a : α} (h : perform fault r s s' = some (.ok a, t)) : r = .ok a ∧ t = s' := by
  rcases perform_eq h with ⟨-, hr, ht⟩ | ⟨f, -, hr, -⟩
  · exact ⟨hr.symm, ht⟩
  · cases hr

end Mishap

/-! ## Queries -/

section Query

variable {α : Type}

/-- `.sort(…).limit(n)`, keeping the order of equally ranked documents. -/
def sortLimit (le : α → α → Bool) (n : ℕ) (l : List α) : List α :=
  (l.insertionSort fun a b => le a b).take n

theorem mem_of_sortLimit {le : α → α → Bool} {n : ℕ} {l : List α} {a : α}
    (h : a ∈ sortLimit le n l) : a ∈ l :=
  (List.mem_insertionSort _).1 (List.mem_of_mem_take h)

theorem nodup_map_sortLimit {β : Type} {f : α → β} {le : α → α → Bool} {n : ℕ} {l : List α}
    (h : (l.map f).Nodup) : ((sortLimit le n l).map f).Nodup :=
  ((List.take_sublist n _).map f).nodup (((List.perm_insertionSort _ l).map f).nodup_iff.2 h)

/-- Nothing is cut off if everything fits. -/
theorem mem_sortLimit_of_length_le {le : α → α → Bool} {n : ℕ} {l : List α} {a : α}
    (h : l.length ≤ n) : a ∈ sortLimit le n l ↔ a ∈ l := by
  unfold sortLimit
  rw [List.take_of_length_le (by rwa [List.length_insertionSort]), List.mem_insertionSort]

/-- What ranks no later than a returned document is returned, too. -/
theorem mem_sortLimit_of_le {f : α → ℕ} {n : ℕ} {l : List α} {a b : α}
    (hinj : ∀ a ∈ l, ∀ b ∈ l, f a = f b → a = b) (hb : b ∈ sortLimit (fun a b => f a ≤ f b) n l)
    (ha : a ∈ l) (hle : f a ≤ f b) : a ∈ sortLimit (fun a b => f a ≤ f b) n l := by
  have htotal : Std.Total fun a b : α => decide (f a ≤ f b) = true :=
    ⟨fun a b => by simpa using Nat.le_total (f a) (f b)⟩
  have htrans : IsTrans α fun a b => decide (f a ≤ f b) = true :=
    ⟨fun a b c hab hbc => by simp only [decide_eq_true_eq] at *; omega⟩
  have hsorted := List.pairwise_insertionSort (fun a b : α => decide (f a ≤ f b) = true) l
  rw [← List.take_append_drop n (l.insertionSort _), List.pairwise_append] at hsorted
  have hmem := (List.mem_insertionSort fun a b : α => decide (f a ≤ f b) = true).2 ha
  rw [← List.take_append_drop n (l.insertionSort _), List.mem_append] at hmem
  rcases hmem with hmem | hmem
  · exact hmem
  · have hge := of_decide_eq_true (hsorted.2.2 b hb a hmem)
    rwa [hinj a ha b (mem_of_sortLimit hb) (le_antisymm hle hge)]

end Query

/-! ## Workflow locks -/

structure Lock where
  key : String
  owner : String
  expiresAt : Time
  updatedAt : Time

abbrev Locks := Collection Lock Lock.key Lock.key

/-- The upsert that takes a free or expired lock, or renews one's own. The index
refuses it while somebody else holds the lock. -/
def acquire (locks : Locks) (lock : Lock) (now : Time) : Option Locks :=
  match locks.get lock.key with
  | some held => if held.expiresAt ≤ now ∨ held.owner = lock.owner then locks.replaceOne lock else none
  | none => locks.replaceOne lock

/-- The deletion that gives a lock back. -/
def release (locks : Locks) (key owner : String) : Locks :=
  locks.delete fun lock => lock.key = key ∧ lock.owner = owner

/-- Some lock is owned by `owner`. -/
def Owned (locks : Locks) (owner : String) : Prop := ∃ lock ∈ locks, lock.owner = owner

theorem acquire_some {locks locks' : Locks} {lock : Lock} {now : Time}
    (h : acquire locks lock now = some locks') : locks.replaceOne lock = some locks' := by
  unfold acquire at h
  split at h
  · split at h
    · exact h
    · cases h
  · exact h

theorem acquire_none {locks : Locks} {lock : Lock} {now : Time} (h : acquire locks lock now = none) :
    ∃ held ∈ locks, held.key = lock.key ∧ held.owner ≠ lock.owner := by
  have hreplace : locks.replaceOne lock ≠ none := by
    obtain ⟨locks', h⟩ := Collection.replaceOne_of_id (t := locks) (d := lock)
    rw [h]
    exact Option.some_ne_none _
  unfold acquire at h
  split at h
  · rename_i held hget
    obtain ⟨hmem, hkey⟩ := Collection.get_eq_some_iff.1 hget
    split at h
    · exact absurd h hreplace
    · rename_i hfree
      exact ⟨held, hmem, hkey, fun heq => hfree (.inr heq)⟩
  · exact absurd h hreplace

/-- The only lock of the owner is the one with this key. -/
def OwnsOnly (locks : Locks) (key owner : String) : Prop :=
  ∀ lock ∈ locks, lock.owner = owner → lock.key = key

theorem acquire_owns {locks locks' : Locks} {lock : Lock} {now : Time} (h : ¬ Owned locks lock.owner)
    (hacquire : acquire locks lock now = some locks') :
    OwnsOnly locks' lock.key lock.owner ∧ Owned locks' lock.owner := by
  have hreplace := acquire_some hacquire
  refine ⟨fun held hheld howner => ?_, lock, Collection.self_mem_replaceOne hreplace, rfl⟩
  rcases (Collection.mem_replaceOne hreplace).1 hheld with rfl | ⟨hheld, -⟩
  · rfl
  · exact absurd ⟨held, hheld, howner⟩ h

theorem not_owned_release {locks : Locks} {key owner : String} (h : OwnsOnly locks key owner) :
    ¬ Owned (release locks key owner) owner := by
  rintro ⟨lock, hlock, howner⟩
  obtain ⟨hlock, hkept⟩ := Collection.mem_delete.1 hlock
  exact hkept (decide_eq_true ⟨h lock hlock howner, howner⟩)

end Backend

end Stylme
