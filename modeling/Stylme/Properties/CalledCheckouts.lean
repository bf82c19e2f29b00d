-- SUMMARY: A recovery run marks only checkouts that the provider has scheduled a call for and whose activity it has acknowledged.
import Stylme.Lib.Chunks
import Stylme.Lib.Fallible
import Stylme.Lib.Traced
import Stylme.Recovery.System

/-!
# Called checkouts

A run reads checkouts, schedules calls for them and reports these calls, each time in
batches whose results the provider gives by index, in whatever order it likes. Rows that
are refused leave a batch before it is sent, so that a result has to be read with the
rows that were sent. The trace of a run shows what was sent and answered; every
checkout that the run marks has a call in it.
-/

namespace Stylme

open Conc Backend

namespace Recovery

variable (lib : Library)

/-! ## What a trace shows -/

/-- A request to the provider was answered with this object. -/
def Answered (tr : Trace Cmd Resp) (path : String) (payload : Value) (fields : List (String × Value)) : Prop :=
  ∃ baseURL apiKey statusCode, (statusCode = 200 ∨ statusCode = 201) ∧
    (⟨.post (baseURL ++ path) apiKey payload, .ok (some ⟨statusCode, some (.dict fields)⟩)⟩ : Σ cmd, Resp cmd) ∈ tr

/-- The value has this index. -/
def HasIndex (result : Value) (i : ℕ) : Prop :=
  ∃ index, result.get "index" = .ok index ∧ index.toInt? = some (i : ℤ)

/-- The result says that this call is scheduled for the item with this index. -/
structure SchedulesCall (result : Value) (i : ℕ) (callID : String) : Prop where
  index : HasIndex result i
  status : ∃ v, result.get "status" = .ok v ∧
    (v.toStr lib.repr = "scheduled" ∨ v.toStr lib.repr = "already_scheduled")
  callID : ∃ v, result.get "call_id" = .ok v ∧ v.toStr lib.repr = callID

/-- A call was scheduled for the checkout: the provider's result for an item with its identity says so. -/
def CallScheduled (tr : Trace Cmd Resp) (externalID callID : String) : Prop :=
  ∃ payload fields items results, Answered tr "/v1/workflow/campaign/schedule" payload fields ∧
    payload.get "items" = .ok (.list items) ∧ scheduleResults fields = .ok results ∧
    ∃ (i : ℕ) (item : Value), items[i]? = some item ∧ item.get "external_id" = .ok (.str externalID) ∧
      ∃ result ∈ results, SchedulesCall lib result i callID

/-- The activity of the checkout and the call was acknowledged: the item with both was sent, and the
result with its index is `ok`, or the one in its place, which has no index. -/
def ActivityAcknowledged (tr : Trace Cmd Resp) (externalID callID : String) : Prop :=
  ∃ payload fields items results, Answered tr "/v1/workflow/activity/bulk" payload fields ∧
    payload.get "items" = .ok (.list items) ∧ (member fields "results" (.list [])).iter = .ok results ∧
    ∃ (i : ℕ) (item : Value), items[i]? = some item ∧ item.get "external_id" = .ok (.str externalID) ∧
      item.get "call_id" = .ok (.str callID) ∧
      ∃ result, (result ∈ results ∧ HasIndex result i ∨
          results[i]? = some result ∧ result.contains "index" = .ok false) ∧
        result.get "ok" = .ok (.bool true)

/-- A checkout with this identity was called about in this call. -/
def CalledAbout (tr : Trace Cmd Resp) (externalID callID : String) : Prop :=
  CallScheduled lib tr externalID callID ∧ ActivityAcknowledged tr externalID callID

/-- A run marks only what it called about. -/
def Permits (tr : Trace Cmd Resp) : Cmd → Prop
  | .markScheduled _ externalID mark _ => CalledAbout lib tr externalID mark.callID
  | _ => True

variable {lib} {tr tr' : Trace Cmd Resp} {externalID callID path : String} {payload : Value}
variable {fields : List (String × Value)} {α β : Type}

theorem Answered.of_suffix (h : Answered tr path payload fields) (hsuffix : tr <:+ tr') :
    Answered tr' path payload fields := by
  obtain ⟨baseURL, apiKey, statusCode, hstatus, hmem⟩ := h
  exact ⟨baseURL, apiKey, statusCode, hstatus, hsuffix.mem hmem⟩

theorem CallScheduled.of_suffix (h : CallScheduled lib tr externalID callID) (hsuffix : tr <:+ tr') :
    CallScheduled lib tr' externalID callID := by
  obtain ⟨payload, fields, items, results, hanswered, hrest⟩ := h
  exact ⟨payload, fields, items, results, hanswered.of_suffix hsuffix, hrest⟩

theorem ActivityAcknowledged.of_suffix (h : ActivityAcknowledged tr externalID callID) (hsuffix : tr <:+ tr') :
    ActivityAcknowledged tr' externalID callID := by
  obtain ⟨payload, fields, items, results, hanswered, hrest⟩ := h
  exact ⟨payload, fields, items, results, hanswered.of_suffix hsuffix, hrest⟩

/-! ## Plain functions and requests -/

/-- No fact about the trace is needed or left. -/
abbrev Quietly (p : Body α) : Prop := ∀ tr, Coroutine.Follows (Permits lib) (fun _ _ => True) tr p

theorem follows_plain {r : Except Raised α} : Raise.Follows (Permits lib) (fun _ a => r = .ok a) tr (plain r) := by
  cases r with
  | ok a => exact Raise.follows_pure rfl
  | error e => exact Raise.follows_ask_bind trivial fun tr' never _ => nomatch never

theorem follows_call {r : Except Raised α} : Coroutine.Follows (Permits lib) (fun _ a => r = .ok a) tr (call r) :=
  Coroutine.follows_await follows_plain

/-- A request returns with an object that it was answered with. -/
theorem follows_postAttempts {client : Client} {n : ℕ} {lastError : Option PyErr} :
    Raise.Follows (Permits lib) (fun tr fields => Answered tr path payload fields) tr
      (postAttempts client path payload n lastError) := by
  induction n generalizing tr lastError with
  | zero => exact Raise.follows_throw
  | succ n ih =>
    have hretry : ∀ {tr' : Trace Cmd Resp} {e : PyErr},
        Raise.Follows (Permits lib) (fun tr fields => Answered tr path payload fields) tr' (do
          Raise.ask Cmd.sleep
          postAttempts client path payload n (some e)) :=
      Raise.follows_ask_bind trivial fun tr' _ _ => ih
    refine Raise.Follows.bind (Q := fun tr answer => (⟨.post (client.baseURL ++ path) client.apiKey payload,
      .ok answer⟩ : Σ cmd, Resp cmd) ∈ tr) (Raise.follows_ask trivial fun a => List.mem_cons_self) ?_
    intro tr' answer _ hanswer
    cases answer with
    | none =>
      dsimp only
      split
      · exact Raise.follows_throw
      · exact hretry
    | some response =>
      obtain ⟨statusCode, json⟩ := response
      dsimp only
      split
      · rename_i hstatus
        cases json with
        | none => exact Raise.follows_throw
        | some json =>
          cases json with
          | dict fields => exact Raise.follows_pure ⟨_, _, _, hstatus, hanswer⟩
          | _ => exact Raise.follows_throw
      · split
        · exact Raise.follows_throw
        · exact hretry

theorem follows_post {client : Client} : Raise.Follows (Permits lib)
    (fun tr fields => Answered tr path payload fields) tr (post lib client path payload) := by
  rw [post]
  split
  · exact Raise.follows_throw
  · exact follows_postAttempts

/-! ## Loops -/

theorem follows_forEach {f : α → Body Unit} {xs : List α}
    (hf : ∀ x ∈ xs, ∀ tr', tr <:+ tr' → Coroutine.Follows (Permits lib) (fun _ _ => True) tr' (f x)) :
    Coroutine.Follows (Permits lib) (fun _ _ => True) tr (forEach f xs) := by
  induction xs generalizing tr with
  | nil => exact Coroutine.follows_pure trivial
  | cons x xs ih =>
    refine (hf x List.mem_cons_self tr List.suffix_rfl).andThen fun tr₁ _ hsuffix => ih fun y hy tr' hsuffix' => ?_
    exact hf y (List.mem_cons_of_mem _ hy) tr' (hsuffix.trans hsuffix')

/-- What holds of the elements that each round yields, and goes on to hold, holds of them all. -/
theorem follows_extendEach {P : Trace Cmd Resp → β → Prop} {f : α → Body (List β)} {xs : List α}
    (hmono : ∀ {tr tr' y}, tr <:+ tr' → P tr y → P tr' y)
    (hf : ∀ x tr', Coroutine.Follows (Permits lib) (fun tr ys => ∀ y ∈ ys, P tr y) tr' (f x)) :
    Coroutine.Follows (Permits lib) (fun tr ys => ∀ y ∈ ys, P tr y) tr (extendEach f xs) := by
  induction xs generalizing tr with
  | nil => exact Coroutine.follows_pure fun y hy => absurd hy List.not_mem_nil
  | cons x xs ih =>
    refine (hf x tr).bind fun tr₁ ys _ hys => ih.bind fun tr₂ rest hsuffix hrest => ?_
    refine Coroutine.follows_pure fun y hy => ?_
    exact (List.mem_append.1 hy).elim (fun hy => hmono hsuffix (hys y hy)) (hrest y)

/-- The items that were built are those of their elements. -/
theorem attempt_built {f : α → Except String β} {xs : List α} {x : α × β} (h : x ∈ (attempt f xs).1) :
    x.1 ∈ xs ∧ f x.1 = .ok x.2 := by
  induction xs with
  | nil => exact absurd h List.not_mem_nil
  | cons y ys ih =>
    cases hitem : f y with
    | ok item =>
      simp only [attempt, hitem] at h
      rcases List.mem_cons.1 h with rfl | h
      · exact ⟨List.mem_cons_self, hitem⟩
      · exact ⟨List.mem_cons_of_mem _ (ih h).1, (ih h).2⟩
    | error code =>
      simp only [attempt, hitem] at h
      exact ⟨List.mem_cons_of_mem _ (ih h).1, (ih h).2⟩

/-! ## Items -/

theorem scheduleItem_externalID {row : Row} {config : Config} {item : Value}
    (h : scheduleItem lib row config = .ok item) : item.get "external_id" = .ok (.str row.source.externalID) := by
  rw [scheduleItem] at h
  split at h
  · cases h
  · split at h
    · cases h
    · obtain rfl := Except.ok.inj h
      rfl

theorem activityItem_keys {row : Row} {config : Config} {secrets : Secrets} {item : Value}
    (h : activityItem lib row callID config secrets = .ok item) :
    item.get "external_id" = .ok (.str row.source.externalID) ∧ item.get "call_id" = .ok (.str callID) := by
  rw [activityItem] at h
  split at h
  · cases h
  · obtain rfl := Except.ok.inj h
    exact ⟨rfl, rfl⟩

/-! ## Lookup and scheduling -/

theorem follows_lookupBatch {config : Config} {client : Client} {batch : List Row} :
    Coroutine.Follows (Permits lib) (fun _ _ => True) tr (lookupBatch lib config client batch) := by
  refine Coroutine.Follows.andThen (Coroutine.follows_await follows_post) fun tr₁ response _ => ?_
  refine follows_call.andThen fun tr₂ x _ => ?_
  exact Coroutine.follows_assign_bind (Coroutine.follows_pure trivial)

/-- A text that is not empty is the text of the value, and not of a default. -/
theorem toStr_of_orElse {repr : Value → String} {v : Value}
    (h : (v.orElse (.str "")).toStr repr ≠ "") : (v.orElse (.str "")).toStr repr = v.toStr repr := by
  rw [Value.orElse] at h ⊢
  split
  · rfl
  · rename_i hfalse
    rw [if_neg hfalse] at h
    exact absurd rfl h

/-- The rows that are scheduled have a result with their index among those that were sent. -/
theorem handleResult_scheduled {preparedRows : List Row} {results : List Value} {h h' : Handling}
    (hscheduled : ∀ y ∈ h.scheduled, ∃ (i : ℕ), preparedRows[i]? = some y.row ∧
      ∃ result ∈ results, SchedulesCall lib result i y.callID)
    {result : Value} (hresult : result ∈ results) (hstep : handleResult lib preparedRows h result = .ok h') :
    ∀ y ∈ h'.scheduled, ∃ (i : ℕ), preparedRows[i]? = some y.row ∧
      ∃ result ∈ results, SchedulesCall lib result i y.callID := by
  rw [handleResult, bind_eq_ok] at hstep
  obtain ⟨index, hindex, hstep⟩ := hstep
  dsimp only at hstep
  split at hstep
  · obtain rfl := Except.ok.inj hstep
    exact hscheduled
  · rename_i i row htarget
    obtain ⟨j, hj, htarget⟩ := Option.bind_eq_some_iff.1 htarget
    split at htarget
    · rename_i hrange
      obtain ⟨row', hrow, hpair⟩ := Option.map_eq_some_iff.1 htarget
      obtain ⟨rfl, rfl⟩ := Prod.mk.inj hpair
      have hhas : HasIndex result j.toNat := ⟨index, hindex, hj.trans (by rw [Int.toNat_of_nonneg hrange.1])⟩
      obtain ⟨status, hstatus, hstep⟩ := bind_eq_ok.1 hstep
      obtain ⟨call, hcall, hstep⟩ := bind_eq_ok.1 hstep
      have hnew : ∀ {text : String}, (status.orElse (.str "")).toStr lib.repr = text →
          text = "scheduled" ∨ text = "already_scheduled" → (call.orElse (.str "")).toStr lib.repr ≠ "" →
          SchedulesCall lib result j.toNat ((call.orElse (.str "")).toStr lib.repr) := by
        intro text htext hkind hne
        have hsome : (status.orElse (.str "")).toStr lib.repr ≠ "" := by
          rw [htext]
          rintro rfl
          exact hkind.elim (fun heq => absurd heq (by decide)) fun heq => absurd heq (by decide)
        refine ⟨hhas, ⟨status, hstatus, ?_⟩, ⟨call, hcall, (toStr_of_orElse hne).symm⟩⟩
        rw [← toStr_of_orElse hsome, htext]
        exact hkind
      have hadd : ∀ {text : String}, (status.orElse (.str "")).toStr lib.repr = text →
          text = "scheduled" ∨ text = "already_scheduled" → (call.orElse (.str "")).toStr lib.repr ≠ "" →
          ∀ y ∈ h.scheduled ++ [⟨row', (call.orElse (.str "")).toStr lib.repr, text⟩],
            ∃ (i : ℕ), preparedRows[i]? = some y.row ∧
              ∃ result ∈ results, SchedulesCall lib result i y.callID := by
        intro text htext hkind hne y hy
        rcases List.mem_append.1 hy with hy | hy
        · exact hscheduled y hy
        · obtain rfl := List.mem_singleton.1 hy
          exact ⟨j.toNat, hrow, result, hresult, hnew htext hkind hne⟩
      split at hstep
      · rename_i hkind
        obtain rfl := Except.ok.inj hstep
        exact hadd rfl (.inl hkind.1) hkind.2
      · split at hstep
        · rename_i hkind
          obtain rfl := Except.ok.inj hstep
          exact hadd rfl (.inr hkind.1) hkind.2
        · split at hstep
          · obtain rfl := Except.ok.inj hstep
            exact hscheduled
          · obtain rfl := Except.ok.inj hstep
            exact hscheduled
    · cases htarget

/-- The rows that a batch yields have a call. -/
theorem follows_scheduleBatch {config : Config} {client : Client} {batch : List Row} :
    Coroutine.Follows (Permits lib)
      (fun tr ys => ∀ y ∈ ys, CallScheduled lib tr y.row.source.externalID y.callID) tr
      (scheduleBatch lib config client batch) := by
  cases hattempt : attempt (scheduleItem lib · config) batch with
  | mk prepared refused =>
    have hbuilt : ∀ x ∈ prepared, scheduleItem lib x.1 config = .ok x.2 := by
      intro x hx
      have hmem : x ∈ (attempt (scheduleItem lib · config) batch).1 := by rw [hattempt]; exact hx
      exact (attempt_built hmem).2
    rw [scheduleBatch, hattempt]
    refine Coroutine.follows_assign_bind ?_
    split
    · exact Coroutine.follows_pure fun y hy => absurd hy List.not_mem_nil
    · refine Coroutine.follows_assign_bind ?_
      refine (Coroutine.follows_await follows_post).bind fun tr₁ response _ hanswered => ?_
      refine follows_call.bind fun tr₂ results hsuffix₂ hresults => ?_
      refine Coroutine.follows_locals_bind fun l => ?_
      refine follows_call.bind fun tr₃ h hsuffix₃ hfold => ?_
      refine Coroutine.follows_assign_bind (Coroutine.follows_pure fun y hy => ?_)
      have hscheduled := foldlM_invariant (I := fun (h : Handling) => ∀ y ∈ h.scheduled, ∃ (i : ℕ),
          (prepared.map (·.1))[i]? = some y.row ∧ ∃ result ∈ results, SchedulesCall lib result i y.callID)
        (fun result hresult h h' hkept => handleResult_scheduled hkept hresult)
        (fun y hy => absurd hy List.not_mem_nil) hfold
      obtain ⟨i, hi, result, hresult, hcall⟩ := hscheduled y hy
      rw [List.getElem?_map] at hi
      obtain ⟨x, hx, hrow⟩ := Option.map_eq_some_iff.1 hi
      refine ⟨_, response, prepared.map (·.2), results,
        hanswered.of_suffix (hsuffix₂.trans hsuffix₃), rfl, hresults, i, x.2, ?_, ?_, result, hresult, hcall⟩
      · rw [List.getElem?_map, hx]
        rfl
      · rw [← hrow]
        exact scheduleItem_externalID (hbuilt x (List.mem_of_getElem? hx))

/-! ## Activity -/

/-- The indexed results are results with their index. -/
theorem mem_indexResults {results : List Value} {indexed : List (ℤ × Value)}
    (h : indexResults results = .ok indexed) {i : ℕ} {result : Value} (hmem : ((i : ℤ), result) ∈ indexed) :
    result ∈ results ∧ HasIndex result i := by
  induction results generalizing indexed with
  | nil =>
    obtain rfl := Except.ok.inj h
    exact absurd hmem List.not_mem_nil
  | cons first rest ih =>
    rw [indexResults, bind_eq_ok] at h
    obtain ⟨index, hindex, h⟩ := h
    obtain ⟨indexed', hrest, h⟩ := bind_eq_ok.1 h
    have hlater : ((i : ℤ), result) ∈ indexed' → result ∈ first :: rest ∧ HasIndex result i := fun hmem =>
      ⟨List.mem_cons_of_mem _ (ih hrest hmem).1, (ih hrest hmem).2⟩
    split at h
    · rename_i j hj
      obtain rfl := Except.ok.inj h
      rcases List.mem_cons.1 hmem with heq | hmem
      · obtain ⟨rfl, rfl⟩ := Prod.mk.inj heq
        exact ⟨List.mem_cons_self, index, hindex, hj⟩
      · exact hlater hmem
    · obtain rfl := Except.ok.inj h
      exact hlater hmem

/-- What is in a place of a value that can be iterated over. -/
theorem getElem?_of_item {v result : Value} {results : List Value} {i : ℕ} (hiter : v.iter = .ok results)
    (hitem : v.item i = .ok result) : results[i]? = some result := by
  cases v with
  | str s =>
    obtain rfl := Except.ok.inj hiter
    rw [Value.item] at hitem
    split at hitem
    · rename_i c hc
      rw [List.getElem?_map, hc]
      exact congrArg some (Except.ok.inj hitem)
    · cases hitem
  | list items =>
    obtain rfl := Except.ok.inj hiter
    rw [Value.item] at hitem
    split at hitem
    · rename_i v hv
      rw [hv]
      exact congrArg some (Except.ok.inj hitem)
    · cases hitem
  | dict fields => cases hitem
  | _ => cases hiter

/-- The result of an entry that is `ok` is the provider's: one with its index, or the one in its place. -/
theorem activityResult_ok {v result : Value} {results : List Value} {indexed : List (ℤ × Value)} {i : ℕ}
    (hiter : v.iter = .ok results) (hindexed : indexResults results = .ok indexed)
    (hresult : activityResult v indexed i = .ok result) (hok : result.get "ok" = .ok (.bool true)) :
    result ∈ results ∧ HasIndex result i ∨ results[i]? = some result ∧ result.contains "index" = .ok false := by
  rw [activityResult] at hresult
  split at hresult
  · rename_i found hfound
    obtain rfl := Except.ok.inj hresult
    refine .inl (mem_indexResults hindexed ?_)
    exact List.mem_reverse.1 (mem_of_lookup hfound)
  · obtain ⟨n, -, hresult⟩ := bind_eq_ok.1 hresult
    split at hresult
    · obtain ⟨found, hfound, hresult⟩ := bind_eq_ok.1 hresult
      obtain ⟨named, hnamed, hresult⟩ := bind_eq_ok.1 hresult
      cases named with
      | true =>
        obtain rfl := Except.ok.inj hresult
        cases hok
      | false =>
        obtain rfl := Except.ok.inj hresult
        exact .inr ⟨getElem?_of_item hiter hfound, hnamed⟩
    · obtain rfl := Except.ok.inj hresult
      cases hok

theorem follows_recordActivity {results : Value} {indexed : List (ℤ × Value)} {entry : Scheduled} {i : ℕ}
    (hcalled : ∀ result, activityResult results indexed i = .ok result →
      result.get "ok" = .ok (.bool true) → CalledAbout lib tr entry.row.source.externalID entry.callID) :
    Coroutine.Follows (Permits lib) (fun _ _ => True) tr (recordActivity lib results indexed entry i) := by
  refine follows_call.bind fun tr₁ result hsuffix₁ hresult => ?_
  refine follows_call.bind fun tr₂ ok hsuffix₂ hok => ?_
  split
  · rename_i htrue
    obtain rfl : ok = .bool true := by
      cases ok with
      | bool b => exact congrArg Value.bool htrue
      | _ => cases htrue
    refine Coroutine.follows_assign_bind ?_
    refine Coroutine.follows_ask_bind trivial fun tr₃ now hsuffix₃ => ?_
    refine Coroutine.follows_ask (c := Cmd.markScheduled entry.row.source.checkoutObjectID
      entry.row.source.externalID ⟨entry.callID, entry.status, entry.row.updatedAt, now⟩ entry.row.updatedAt)
      (Q := fun _ _ => True) ?_ fun _ => trivial
    have hsuffix := (hsuffix₁.trans hsuffix₂).trans hsuffix₃
    have hcalled := hcalled result hresult hok
    exact ⟨hcalled.1.of_suffix hsuffix, hcalled.2.of_suffix hsuffix⟩
  · exact follows_call.andThen fun tr₃ code _ => Coroutine.follows_assign trivial

theorem follows_activityBatch {config : Config} {secrets : Secrets} {client : Client} {batch : List Scheduled}
    (hcalls : ∀ entry ∈ batch, CallScheduled lib tr entry.row.source.externalID entry.callID) :
    Coroutine.Follows (Permits lib) (fun _ _ => True) tr (activityBatch lib config secrets client batch) := by
  cases hattempt : attempt (fun entry => activityItem lib entry.row entry.callID config secrets) batch with
  | mk built refused =>
    have hbuilt : ∀ x ∈ built, x.1 ∈ batch ∧
        activityItem lib x.1.row x.1.callID config secrets = .ok x.2 := fun x hx =>
      attempt_built (f := fun (entry : Scheduled) => activityItem lib entry.row entry.callID config secrets) (by
        rw [hattempt]
        exact hx)
    rw [activityBatch, hattempt]
    refine Coroutine.follows_assign_bind ?_
    split
    · exact Coroutine.follows_pure trivial
    · refine Coroutine.follows_assign_bind ?_
      refine (Coroutine.follows_await follows_post).bind fun tr₁ response hsuffix₁ hanswered => ?_
      refine follows_call.bind fun tr₂ indexed hsuffix₂ hindexed => ?_
      obtain ⟨results, hiter, hindexed⟩ := bind_eq_ok.1 hindexed
      refine follows_forEach fun x hx tr₃ hsuffix₃ => ?_
      have hplace : built[x.2]? = some x.1 := List.mem_zipIdx_iff_getElem?.1 hx
      obtain ⟨hmem, hitem⟩ := hbuilt x.1 (List.mem_of_getElem? hplace)
      obtain ⟨hexternal, hcall⟩ := activityItem_keys hitem
      refine follows_recordActivity fun result hresult hok => ⟨?_, ?_⟩
      · exact (hcalls _ hmem).of_suffix ((hsuffix₁.trans hsuffix₂).trans hsuffix₃)
      · refine ⟨_, response, built.map (·.2), results, hanswered.of_suffix (hsuffix₂.trans hsuffix₃), rfl, hiter,
          x.2, x.1.2, ?_, hexternal, hcall, result, activityResult_ok hiter hindexed hresult hok, hok⟩
        rw [List.getElem?_map, hplace]
        rfl

/-! ## The run -/

theorem follows_finishRun : Coroutine.Follows (Permits lib) (fun _ _ => True) tr finishRun := by
  refine Coroutine.follows_ask_bind trivial fun tr₁ finishedAt _ => ?_
  refine Coroutine.follows_assign_bind (Coroutine.follows_locals_bind fun l => ?_)
  exact Coroutine.follows_ask_bind trivial fun tr₂ _ _ => Coroutine.follows_pure trivial

theorem follows_finishWith {status : Summary → RunStatus} :
    Coroutine.Follows (Permits lib) (fun _ _ => True) tr (finishWith status) :=
  Coroutine.follows_assign_bind follows_finishRun

theorem follows_recoverRows {config : Config} {rows : List Row} :
    Coroutine.Follows (Permits lib) (fun _ _ => True) tr (recoverRows lib config rows) := by
  refine follows_call.andThen fun tr₁ secrets _ => ?_
  split
  · exact Coroutine.follows_throw
  · refine Coroutine.follows_assign_bind ?_
    refine Coroutine.Follows.andThen (follows_extendEach (P := fun _ _ => True) (fun _ _ => trivial) fun batch tr =>
      follows_lookupBatch.mono fun _ _ _ _ _ _ => trivial) fun tr₂ eligible _ => ?_
    refine (follows_extendEach (P := fun tr (y : Scheduled) => CallScheduled lib tr y.row.source.externalID y.callID)
      (fun hsuffix h => h.of_suffix hsuffix) fun batch tr => follows_scheduleBatch).bind
        fun tr₃ scheduled _ hscheduled => ?_
    refine Coroutine.Follows.andThen (follows_forEach fun batch hbatch tr' hsuffix =>
      follows_activityBatch fun entry hentry => ?_) fun _ _ _ => follows_finishWith
    exact (hscheduled entry (mem_of_mem_toChunks hbatch hentry)).of_suffix hsuffix

theorem follows_recoverCheckouts {config : Config} {startedAt : Time} :
    Coroutine.Follows (Permits lib) (fun _ _ => True) tr (recoverCheckouts lib config startedAt) := by
  refine follows_call.andThen fun tr₁ within _ => ?_
  split
  · refine Coroutine.follows_ask_bind trivial fun tr₂ rawDocuments _ => ?_
    refine follows_call.andThen fun tr₃ rawRows _ => ?_
    refine Coroutine.follows_assign_bind ?_
    split
    · exact follows_finishWith
    · exact follows_recoverRows
  · exact follows_finishWith

theorem follows_failRun {e : PyErr} : Coroutine.Follows (Permits lib) (fun _ _ => True) tr (failRun e) := by
  cases e with
  | samora statusCode code retryable =>
    exact Coroutine.follows_assign_bind (follows_finishWith.andThen fun _ _ _ => Coroutine.follows_throw)
  | httpException statusCode detail => exact follows_finishWith.andThen fun _ _ _ => Coroutine.follows_throw
  | _ => exact Coroutine.follows_throw

theorem follows_cleanUp {lockKey runID : String} :
    Coroutine.Follows (Permits lib) (fun _ _ => True) tr (cleanUp lockKey runID) := by
  refine Coroutine.follows_locals_bind fun l => ?_
  have hrelease : ∀ {tr : Trace Cmd Resp}, Coroutine.Follows (Permits lib) (fun _ _ => True) tr
      (Coroutine.ask (Cmd.releaseLock lockKey runID) : Body Unit) := Coroutine.follows_ask trivial fun _ => trivial
  split
  · exact Coroutine.follows_ask_bind trivial fun _ _ _ => hrelease
  · exact hrelease

/-- A run marks only checkouts that it called about. -/
theorem follows_executeRecovery {requestedBy : String} :
    Raise.Follows (Permits lib) (fun _ _ => True) tr (executeRecovery lib requestedBy) := by
  have hconfig : Raise.Follows (Permits lib) (fun _ _ => True) tr getConfig := by
    refine Raise.follows_ask_bind trivial fun tr₁ config _ => ?_
    cases config with
    | none => exact Raise.follows_ask (c := Cmd.createConfig) trivial fun _ => trivial
    | some config => exact Raise.follows_pure trivial
  refine Raise.Follows.bind hconfig fun tr₁ config _ _ => ?_
  split
  · refine Raise.follows_ask_bind trivial fun tr₂ hex _ => ?_
    refine Raise.follows_ask_bind trivial fun tr₃ startedAt _ => ?_
    refine Raise.Follows.bind (Q := fun _ _ => True) (Raise.follows_tryExcept (Raise.follows_ask_bind trivial
      fun _ _ _ => Raise.follows_pure trivial) fun _ _ _ => Raise.follows_pure trivial) fun tr₄ acquired _ _ => ?_
    split
    · refine Raise.follows_ask_bind trivial fun tr₅ _ _ => ?_
      refine Coroutine.follows_start (Coroutine.follows_tryFinally (Coroutine.follows_tryExcept
        follows_recoverCheckouts fun _ _ _ => follows_failRun) fun _ _ => follows_cleanUp)
    · exact Raise.follows_throw
  · exact Raise.follows_throw

/-! ## Runs side by side -/

/-- The next command of the thread is the update that finds this checkout, and sets it to
`recovery_scheduled` with this call. -/
def Sets (σ : State) (t : ℕ) (c : Checkout) (callID : String) : Prop :=
  c ∈ σ.shared.checkouts ∧ ∃ requestedBy mark updatedAt,
    σ.next t = some (requestedBy, .markScheduled c.id c.externalID mark updatedAt) ∧ mark.callID = callID

/-- No other command changes the checkouts. -/
theorem checkouts_of_exec {cmd : Cmd} {o : Oracle} {w w' : World} {r : Resp cmd}
    (hcmd : ∀ id externalID mark updatedAt, cmd ≠ .markScheduled id externalID mark updatedAt)
    (hexec : cmd.exec o w = some (r, w')) : w'.checkouts = w.checkouts := by
  have hrespond : ∀ {a : Resp cmd}, respond o.fault a w = some (r, w') → w'.checkouts = w.checkouts := fun h => by
    rw [(respond_eq h).1]
  have hperform : ∀ {a : Resp cmd} {w₁ : World}, perform o.fault a w w₁ = some (r, w') →
      w₁.checkouts = w.checkouts → w'.checkouts = w.checkouts := by
    intro a w₁ h hsame
    rcases perform_eq h with ⟨-, -, rfl⟩ | ⟨f, -, -, rfl⟩
    · exact hsame
    · split
      · exact hsame
      · rfl
  cases cmd with
  | now | raised _ =>
    obtain ⟨-, rfl⟩ := Prod.mk.inj (Option.some.inj hexec)
    rfl
  | uuid =>
    simp only [Cmd.exec] at hexec
    split at hexec
    · cases hexec
    · obtain ⟨-, rfl⟩ := Prod.mk.inj (Option.some.inj hexec)
      rfl
  | createConfig | acquireLock _ _ _ _ | insertRun _ | finishRun _ _ =>
    simp only [Cmd.exec] at hexec
    split at hexec
    · first | exact hrespond hexec | exact hperform hexec rfl
    · first | exact hrespond hexec | exact hperform hexec rfl
  | releaseLock key owner =>
    simp only [Cmd.exec] at hexec
    exact hperform hexec rfl
  | markScheduled id externalID mark updatedAt => exact absurd rfl (hcmd id externalID mark updatedAt)
  | _ => exact hrespond hexec

/-- A command that changes a checkout is the update that finds it. -/
theorem marked_of_exec {cmd : Cmd} {o : Oracle} {w w' : World} {r : Resp cmd} {c c' : Checkout}
    (hexec : cmd.exec o w = some (r, w')) (hc : c ∈ w.checkouts) (hc' : c' ∈ w'.checkouts) (hid : c'.id = c.id)
    (hne : c' ≠ c) :
    ∃ mark updatedAt, cmd = .markScheduled c.id c.externalID mark updatedAt ∧ c' = c.marked mark updatedAt := by
  have hkept : w'.checkouts = w.checkouts → c' = c := fun hsame =>
    Collection.eq_of_id_eq (hsame ▸ hc') hc hid
  cases cmd with
  | markScheduled id externalID mark updatedAt =>
    simp only [Cmd.exec] at hexec
    split at hexec
    · rename_i found hfound
      obtain ⟨hmem, rfl⟩ := Collection.get_eq_some_iff.1 hfound
      split at hexec
      · rename_i hexternal
        obtain ⟨checkouts, hreplace⟩ : ∃ checkouts, w.checkouts.replaceOne (found.marked mark updatedAt) =
          some checkouts := Collection.replaceOne_of_mem hmem rfl rfl
        rw [hreplace] at hexec
        have hwrites : w'.checkouts = checkouts → ∃ mark' updatedAt',
            Cmd.markScheduled found.id externalID mark updatedAt =
              .markScheduled c.id c.externalID mark' updatedAt' ∧ c' = c.marked mark' updatedAt' := by
          intro hw'
          rcases (Collection.mem_replaceOne hreplace).1 (hw' ▸ hc') with rfl | ⟨hold, -⟩
          · obtain rfl : found = c := Collection.eq_of_id_eq hmem hc hid
            exact ⟨mark, updatedAt, by rw [hexternal], rfl⟩
          · exact absurd (Collection.eq_of_id_eq hold hc hid) hne
        rcases perform_eq hexec with ⟨-, -, rfl⟩ | ⟨f, -, -, rfl⟩
        · exact hwrites rfl
        · cases hf : f.applied with
          | true => exact hwrites (by rw [hf]; rfl)
          | false => exact absurd (hkept (by rw [hf]; rfl)) hne
      · exact absurd (hkept (by rw [(respond_eq hexec).1])) hne
    · exact absurd (hkept (by rw [(respond_eq hexec).1])) hne
  | _ => exact absurd (hkept (checkouts_of_exec (fun _ _ _ _ h => by cases h) hexec)) hne

/-- Whatever shoppers do between the commands of the runs, and whatever the provider answers: a run changes
a checkout only by setting it to `recovery_scheduled`, and whenever it sets one to `recovery_scheduled`
with a call, it has called about the identity that the checkout has at that moment, in this call. -/
theorem marks_called {ok : State → Label String Oracle Move → Prop} {w₀ : World} {σ : State}
    (h : (service lib).Reach ok (Pool.init w₀) σ) (t : ℕ) :
    (∀ o σ', (service lib).step σ (.exec t o) = some σ' → ∀ c ∈ σ.shared.checkouts,
      ∀ c' ∈ σ'.shared.checkouts, c'.id = c.id → c' ≠ c → ∃ mark updatedAt,
        Sets σ t c mark.callID ∧ c' = c.marked mark updatedAt) ∧
    ∀ c callID, Sets σ t c callID → CalledAbout lib (σ.trace t) c.externalID callID := by
  constructor
  · intro o σ' hstep c hc c' hc' hid hne
    simp only [System.step] at hstep
    split at hstep
    · rename_i requestedBy cmd k hthread
      split at hstep
      · rename_i r w' hexec
        obtain rfl := Option.some.inj hstep
        obtain ⟨mark, updatedAt, rfl, hmarked⟩ := marked_of_exec hexec hc hc' hid hne
        exact ⟨mark, updatedAt, ⟨hc, requestedBy, mark, updatedAt, by rw [Pool.next, hthread], rfl⟩, hmarked⟩
      · cases hstep
    · cases hstep
  · rintro c callID ⟨-, requestedBy, mark, updatedAt, hnext, rfl⟩
    have hprog : ∀ requestedBy, Prog.Conforms (Protocol.traced (Permits lib)) (fun _ _ => True) []
        ((service lib).prog requestedBy) := fun requestedBy =>
      Prog.Conforms.mono follows_executeRecovery fun _ _ _ => trivial
    have hinit : (Pool.init w₀ : State).Conforming (fun _ => Protocol.traced (Permits lib)) (fun _ => [])
        fun _ _ _ => True := .init
    have hconforming := System.Reach.conforming hprog hinit h
    obtain ⟨l, hview, hpermits⟩ := hconforming.permits hnext
    rw [Pool.phase_of_view hview, Protocol.phase_traced] at hpermits
    exact hpermits

/-- The provider's answer with these members. -/
def answer (fields : List (String × Value)) : Oracle := { http := some ⟨200, some (.dict fields)⟩ }

/-- The oracles of a run about one checkout, up to the marking of the checkout. -/
def calling : List Oracle :=
  [{}, { random := "1" }, {}, {}, {}, {}, answer [("results", .list [.dict []])],
    answer [("data", .dict [("results", .list [.dict [("index", .int 7)],
      .dict [("index", .int 0), ("status", .str "scheduled"), ("call_id", .str "call_1")]])])],
    answer [("results", .list [.dict [("ok", .bool true)]])], {}]

/-- The run is about to mark a stored checkout with the call. -/
def marking (σ : State) : Bool :=
  match σ.next 0 with
  | some (_, .markScheduled id externalID mark _) => σ.shared.checkouts.docs.any fun c =>
    c.id = id ∧ c.externalID = externalID ∧ mark.callID = "call_1"
  | _ => false

/-- A run marks a checkout. -/
theorem marks_called_one : ∃ σ c,
    (service Sample.Recovery.library).Reach (fun _ _ => True) (Pool.init (Sample.Recovery.world "sealed")) σ ∧
    Sets σ 0 c "call_1" ∧ CalledAbout Sample.Recovery.library (σ.trace 0) c.externalID "call_1" := by
  have hrun : ((service Sample.Recovery.library).runWhere (fun _ _ => True)
      (.spawn 0 "cron" :: calling.map (.exec 0)) (Pool.init (Sample.Recovery.world "sealed"))).any marking := by
    decide +kernel
  obtain ⟨σ, hreach, hcheck⟩ := System.Reach.exists_of_any hrun
  unfold marking at hcheck
  split at hcheck
  · rename_i requestedBy id externalID mark updatedAt hnext
    obtain ⟨c, hc, hcheck⟩ := List.any_eq_true.1 hcheck
    obtain ⟨rfl, rfl, hcall⟩ := of_decide_eq_true hcheck
    have hsets : Sets σ 0 c "call_1" := ⟨hc, requestedBy, mark, updatedAt, hnext, hcall⟩
    exact ⟨σ, c, hreach, hsets, (marks_called hreach 0).2 c "call_1" hsets⟩
  · cases hcheck

end Recovery

end Stylme
