-- SUMMARY: The counters of a campaign equal its calls as long as every ended call is counted exactly once.
import Mathlib.Algebra.GroupWithZero.Nat
import Stylme.Service.Sequential

/-!
# Campaign counters

`CompleteCall` and `cancelUndispatchedCall` add one to the counter of the status
they give a call, `ScheduleCampaign` adds what it inserted, and `SaveCampaign`
replaces the counters. `failDispatch` ends a call without counting it, and
`CompleteCall` counts a call again that has already ended.
-/

namespace Stylme

open Conc

/-- The counters that claim something about the calls. -/
def talliedKeys : List String := ["completed", "failed", "cancelled", "scheduled"]

/-- The calls of a campaign in one status. -/
def Call.countedAs (campaignID : String) (status : CallStatus) (c : Call) : Bool :=
  c.campaignID = campaignID ∧ c.status = status

theorem CallStatus.toString_injective {s t : CallStatus} (h : s.toString = t.toString) : s = t := by
  cases s <;> cases t <;> first | rfl | exact absurd h (by decide)

theorem CallStatus.toString_mem_talliedKeys {s : CallStatus} (h : s.terminal) :
    s.toString ∈ talliedKeys := by
  cases s with
  | completed | failed | cancelled => decide
  | _ => cases h

theorem CallStatus.toString_ne_scheduled {s : CallStatus} : s.toString ≠ "scheduled" := by
  cases s <;> decide

/-! ## Accounts -/

/-- Counters and calls agree, `inserted` being what was inserted for each campaign. -/
structure Tallied (inserted : String → ℕ) (w : World) : Prop where
  campaigns : ∀ campaign ∈ w.campaigns, campaign.id ≠ "" ∧ campaign.counts.isSome
  calls : ∀ c ∈ w.calls, (w.campaigns.get c.campaignID).isSome ∧ (w.swarms.get c.swarmID).isSome
  ended : ∀ campaign ∈ w.campaigns, ∀ status : CallStatus, status.terminal →
    campaign.count status.toString = w.calls.count (·.countedAs campaign.id status)
  scheduled : ∀ campaign ∈ w.campaigns, campaign.count "scheduled" = inserted campaign.id
  stored : ∀ id, w.calls.count (·.campaignID = id) = inserted id

/-- The counters a campaign has in the store, zero when it is not stored. -/
def World.counter (w : World) (id key : String) : Int :=
  ((w.campaigns.get id).map (·.count key)).getD 0

namespace Tallied

variable {w : World} {inserted : String → ℕ}

theorem get_campaign (hw : Tallied inserted w) {c : Call} (hc : c ∈ w.calls) :
    ∃ campaign counts, w.campaigns.get c.campaignID = some campaign ∧ campaign.id = c.campaignID ∧
      campaign.counts = some counts ∧ c.campaignID ≠ "" := by
  obtain ⟨campaign, hcampaign⟩ := Option.isSome_iff_exists.1 (hw.calls c hc).1
  obtain ⟨hmem, hid⟩ := Collection.get_eq_some_iff.1 hcampaign
  obtain ⟨hne, hcounts⟩ := hw.campaigns campaign hmem
  obtain ⟨counts, hcounts⟩ := Option.isSome_iff_exists.1 hcounts
  exact ⟨campaign, counts, hcampaign, hid, hcounts, hid ▸ hne⟩

/-- Nothing was inserted for a campaign that is not stored. -/
theorem inserted_eq_zero (hw : Tallied inserted w) {id : String} (hid : w.campaigns.get id = none) :
    inserted id = 0 := by
  rw [← hw.stored id]
  refine Collection.count_eq_zero fun c hc hcid => ?_
  obtain rfl := of_decide_eq_true hcid
  have hsome := (hw.calls c hc).1
  rw [hid] at hsome
  cases hsome

/-- The tallied counter of an identifier that may not be stored. -/
theorem counter_ended (hw : Tallied inserted w) {id : String} {status : CallStatus}
    (hstatus : status.terminal) :
    w.counter id status.toString = w.calls.count (·.countedAs id status) := by
  unfold World.counter
  cases hget : w.campaigns.get id with
  | some campaign =>
    obtain ⟨hmem, rfl⟩ := Collection.get_eq_some_iff.1 hget
    exact hw.ended campaign hmem status hstatus
  | none =>
    have hzero : w.calls.count (·.countedAs id status) = 0 := by
      refine Collection.count_eq_zero fun c hc hcounted => ?_
      obtain ⟨rfl, -⟩ := of_decide_eq_true hcounted
      have hsome := (hw.calls c hc).1
      rw [hget] at hsome
      cases hsome
    simp [hzero]

theorem counter_scheduled (hw : Tallied inserted w) {id : String} :
    w.counter id "scheduled" = inserted id := by
  unfold World.counter
  cases hget : w.campaigns.get id with
  | some campaign =>
    obtain ⟨hmem, rfl⟩ := Collection.get_eq_some_iff.1 hget
    exact hw.scheduled campaign hmem
  | none => simp [hw.inserted_eq_zero hget]

/-- A campaign is stored whose counters are the ones stored so far. -/
theorem replaceCampaign (hw : Tallied inserted w) {campaign : Campaign}
    {campaigns : Collection Campaign Campaign.id Campaign.id} (hid : campaign.id ≠ "")
    (hcounts : campaign.counts.isSome)
    (hsame : ∀ key ∈ talliedKeys, campaign.count key = w.counter campaign.id key)
    (hcampaigns : w.campaigns.replaceOne campaign = some campaigns) :
    Tallied inserted { w with campaigns := campaigns } := by
  constructor
  · intro d hd
    rcases (Collection.mem_replaceOne hcampaigns).1 hd with rfl | ⟨hold, -⟩
    · exact ⟨hid, hcounts⟩
    · exact hw.campaigns d hold
  · intro c hc
    exact ⟨Collection.isSome_get_replaceOne hcampaigns (hw.calls c hc).1, (hw.calls c hc).2⟩
  · intro d hd status hstatus
    rcases (Collection.mem_replaceOne hcampaigns).1 hd with rfl | ⟨hold, -⟩
    · rw [hsame _ (CallStatus.toString_mem_talliedKeys hstatus)]
      exact hw.counter_ended hstatus
    · exact hw.ended d hold status hstatus
  · intro d hd
    rcases (Collection.mem_replaceOne hcampaigns).1 hd with rfl | ⟨hold, -⟩
    · rw [hsame _ (by decide)]
      exact hw.counter_scheduled
    · exact hw.scheduled d hold
  · exact hw.stored

/-- A call moves between statuses that are not counted. -/
theorem replaceCall (hw : Tallied inserted w) {c x : Call}
    {calls : Collection Call Call.id Call.idempotencyKey} (hc : c ∈ w.calls) (hid : x.id = c.id)
    (hcampaign : x.campaignID = c.campaignID) (hswarm : x.swarmID = c.swarmID)
    (hopen : ¬ c.status.terminal) (hstill : ¬ x.status.terminal)
    (hcalls : w.calls.replaceOne x = some calls) : Tallied inserted { w with calls := calls } := by
  have hcount := fun p => Collection.count_replaceOne_of_mem (p := p) hcalls hc hid.symm
  refine ⟨hw.campaigns, fun d hd => ?_, fun campaign hd status hstatus => ?_, hw.scheduled, fun id => ?_⟩
  · rcases (Collection.mem_replaceOne hcalls).1 hd with rfl | ⟨hold, -⟩
    · rw [hcampaign, hswarm]
      exact hw.calls c hc
    · exact hw.calls d hold
  · have hmoved := hcount (·.countedAs campaign.id status)
    have hnot : ∀ y : Call, ¬ y.status.terminal → ¬ y.countedAs campaign.id status := by
      intro y hy hcounted
      exact hy ((of_decide_eq_true hcounted).2 ▸ hstatus)
    rw [if_neg (hnot c hopen), if_neg (hnot x hstill)] at hmoved
    rw [hw.ended campaign hd status hstatus]
    exact congrArg Nat.cast hmoved.symm
  · have hmoved := hcount (·.campaignID = id)
    rw [hcampaign] at hmoved
    exact (Nat.add_right_cancel hmoved).trans (hw.stored id)

/-- A call ends and its campaign counts it. -/
theorem closeCall (hw : Tallied inserted w) {c x : Call} {campaign : Campaign}
    {counts : List (String × Int)} {now : Time}
    {calls : Collection Call Call.id Call.idempotencyKey}
    {campaigns : Collection Campaign Campaign.id Campaign.id} (hc : c ∈ w.calls) (hid : x.id = c.id)
    (hcampaign : x.campaignID = c.campaignID) (hswarm : x.swarmID = c.swarmID)
    (hopen : ¬ c.status.terminal) (hend : x.status.terminal)
    (hget : w.campaigns.get c.campaignID = some campaign) (hcounts : campaign.counts = some counts)
    (hcalls : w.calls.replaceOne x = some calls)
    (hcampaigns : w.campaigns.replaceOne (campaign.incremented counts x.status.toString 1 now) =
      some campaigns) :
    Tallied inserted { w with calls := calls, campaigns := campaigns } := by
  obtain ⟨hmem, hcid⟩ := Collection.get_eq_some_iff.1 hget
  have hcount := fun p => Collection.count_replaceOne_of_mem (p := p) hcalls hc hid.symm
  have hincremented : ∀ key, (campaign.incremented counts x.status.toString 1 now).count key =
      if key = x.status.toString then campaign.count key + 1 else campaign.count key := by
    intro key
    rw [Campaign.count_setKey (c := campaign) (by rw [hcounts]; rfl)]
    split
    · rename_i hkey
      rw [hkey, Campaign.count, hcounts]
      rfl
    · rfl
  have hmoved : ∀ id (status : CallStatus), status.terminal →
      calls.count (·.countedAs id status) =
        w.calls.count (·.countedAs id status) + if x.countedAs id status then 1 else 0 := by
    intro id status hstatus
    have hmoved := hcount (·.countedAs id status)
    have hnot : ¬ c.countedAs id status := fun h => hopen ((of_decide_eq_true h).2 ▸ hstatus)
    rw [if_neg hnot] at hmoved
    exact hmoved
  refine ⟨fun d hd => ?_, fun d hd => ?_, fun d hd status hstatus => ?_, fun d hd => ?_, fun id => ?_⟩
  · rcases (Collection.mem_replaceOne hcampaigns).1 hd with rfl | ⟨hold, -⟩
    · exact ⟨(hw.campaigns campaign hmem).1, rfl⟩
    · exact hw.campaigns d hold
  · have hstored := fun id => Collection.isSome_get_replaceOne (k := id) hcampaigns
    rcases (Collection.mem_replaceOne hcalls).1 hd with rfl | ⟨hold, -⟩
    · rw [hcampaign, hswarm]
      exact ⟨hstored _ (hw.calls c hc).1, (hw.calls c hc).2⟩
    · exact ⟨hstored _ (hw.calls d hold).1, (hw.calls d hold).2⟩
  · change d.count status.toString = calls.count (·.countedAs d.id status)
    rw [hmoved _ _ hstatus]
    rcases (Collection.mem_replaceOne hcampaigns).1 hd with rfl | ⟨hold, hne⟩
    · have hx : x.countedAs campaign.id status ↔ status.toString = x.status.toString := by
        constructor
        · intro h
          rw [(of_decide_eq_true h).2]
        · intro h
          exact decide_eq_true ⟨hcampaign.trans hcid.symm, (CallStatus.toString_injective h).symm⟩
      rw [hincremented]
      change (if _ then _ else _) = ((w.calls.count (·.countedAs campaign.id status) +
        if x.countedAs campaign.id status then 1 else 0 : ℕ) : Int)
      rw [hw.ended campaign hmem status hstatus]
      by_cases h : status.toString = x.status.toString
      · rw [if_pos h, if_pos (hx.2 h)]
        rfl
      · rw [if_neg h, if_neg (h ∘ hx.1)]
        rfl
    · have hx : ¬ x.countedAs d.id status := by
        intro h
        exact hne ((of_decide_eq_true h).1.symm.trans (hcampaign.trans hcid.symm))
      rw [if_neg hx, hw.ended d hold status hstatus]
      rfl
  · rcases (Collection.mem_replaceOne hcampaigns).1 hd with rfl | ⟨hold, -⟩
    · rw [hincremented, if_neg (CallStatus.toString_ne_scheduled ·.symm)]
      exact hw.scheduled campaign hmem
    · exact hw.scheduled d hold
  · have hsame := hcount (·.campaignID = id)
    rw [hcampaign] at hsame
    exact (Nat.add_right_cancel hsame).trans (hw.stored id)

/-- Calls are inserted and counted as scheduled. -/
theorem schedule (hw : Tallied inserted w) {campaign : Campaign} {xs : List Call} {now : Time}
    {actor : String} {campaigns : Collection Campaign Campaign.id Campaign.id}
    (hmem : campaign ∈ w.campaigns)
    (hxs : ∀ x ∈ xs, x.campaignID = campaign.id ∧ x.status = .pending ∧ (w.swarms.get x.swarmID).isSome)
    (hcampaigns : w.campaigns.replaceOne
      (campaign.scheduled (Collection.insertMany xs w.calls).2 now actor) = some campaigns) :
    Tallied (fun id => (if campaign.id = id then (Collection.insertMany xs w.calls).2 else 0) + inserted id)
      { w with calls := (Collection.insertMany xs w.calls).1, campaigns := campaigns } := by
  have hcount := @Campaign.count_setKey campaign
    (campaign.scheduled (Collection.insertMany xs w.calls).2 now actor) _ _ rfl
  have hstored := fun id => Collection.isSome_get_replaceOne (k := id) hcampaigns
  refine ⟨fun d hd => ?_, fun c hc => ?_, fun d hd status hstatus => ?_, fun d hd => ?_, fun id => ?_⟩
  · rcases (Collection.mem_replaceOne hcampaigns).1 hd with rfl | ⟨hold, -⟩
    · exact ⟨(hw.campaigns campaign hmem).1, rfl⟩
    · exact hw.campaigns d hold
  · rcases Collection.mem_insertMany.2 hc with hold | ⟨hx, -⟩
    · exact ⟨hstored _ (hw.calls c hold).1, (hw.calls c hold).2⟩
    · obtain ⟨hcampaign, -, hswarm⟩ := hxs c hx
      refine ⟨hstored _ ?_, hswarm⟩
      rw [hcampaign, Collection.get_eq_some_iff.2 ⟨hmem, rfl⟩]
      rfl
  · -- a pending call is not counted as ended
    have hpending : ∀ x ∈ xs, x.countedAs d.id status = false := by
      intro x hx
      refine decide_eq_false fun h => ?_
      rw [← h.2, (hxs x hx).2.1] at hstatus
      cases hstatus
    change d.count status.toString = ((Collection.insertMany xs w.calls).1.count _ : ℕ)
    rw [Collection.count_insertMany hpending]
    rcases (Collection.mem_replaceOne hcampaigns).1 hd with rfl | ⟨hold, -⟩
    · rw [hcount, if_neg CallStatus.toString_ne_scheduled]
      exact hw.ended campaign hmem status hstatus
    · exact hw.ended d hold status hstatus
  · rcases (Collection.mem_replaceOne hcampaigns).1 hd with rfl | ⟨hold, hne⟩
    · rw [hcount, if_pos rfl, hw.scheduled campaign hmem]
      change _ = (((if campaign.id = campaign.id then _ else 0) + inserted campaign.id : ℕ) : Int)
      rw [if_pos rfl]
      omega
    · have hne : ¬ campaign.id = d.id := Ne.symm hne
      rw [hw.scheduled d hold, if_neg hne, Nat.zero_add]
  · have hx : ∀ x ∈ xs, decide (x.campaignID = id) = decide (campaign.id = id) := by
      intro x hx
      rw [(hxs x hx).1]
    change (Collection.insertMany xs w.calls).1.count _ = _
    rw [Collection.count_insertMany hx, hw.stored id]
    simp only [decide_eq_true_eq]
    exact Nat.add_comm _ _

end Tallied

/-! ## Operations -/

namespace ControlPlane

/-- No store request fails, and the telephony does not refuse a call its last attempt. -/
def answers : Cmd → Oracle → World → Bool
  | .dispatchOutbound call swarm, o, w =>
    (w.gateway.dispatchOutbound call swarm o).isOk ∨ call.attempt < call.maxAttempts
  | _, o, _ => o.fault.isNone

/-- The control plane over a store and a telephony that answer. -/
abbrev answered (platform : Platform DirectCallRequest) :=
  (controlPlane platform).restrict answers

variable {platform : Platform DirectCallRequest} {w w₀ : World} {inserted : String → ℕ}

theorem answered_exec {cmd : Cmd} {o : Oracle} {r : Resp cmd} {w' : World}
    (h : (answered platform).exec cmd o w = some (r, w')) :
    answers cmd o w ∧ cmd.exec o w = some (r, w') := System.restrict_exec.1 h

theorem answered_now {o : Oracle} {now : Time} {w' : World}
    (h : (answered platform).exec .now o w = some (now, w')) : w' = w := by
  have hexec := (answered_exec h).2
  simp only [Cmd.exec, Option.some.injEq, Prod.mk.injEq] at hexec
  exact hexec.2.symm

/-- The call is stored as it is, and it has not ended. -/
structure Working (w : World) (c : Call) : Prop where
  mem : c ∈ w.calls
  isOpen : ¬ c.status.terminal

section Dispatch

variable {c : Call}

/-- A call that is put back without having ended leaves the accounts as they are. -/
theorem save_wp {x : Call} (hw : Tallied inserted w) (hc : Working w c) (hid : x.id = c.id)
    (hkey : x.idempotencyKey = c.idempotencyKey) (hcampaign : x.campaignID = c.campaignID)
    (hswarm : x.swarmID = c.swarmID) (hopen : ¬ x.status.terminal) {o : Oracle}
    {r : Except Err Unit} {w' : World}
    (hexec : (answered platform).exec (.saveCall x) o w = some (r, w')) :
    r = .ok () ∧ Tallied inserted w' ∧ x ∈ w'.calls := by
  obtain ⟨hok, hexec⟩ := answered_exec hexec
  obtain ⟨hr, calls, hcalls, rfl⟩ := exec_saveCall_isNone hok hc.mem hid hkey hexec
  exact ⟨hr, hw.replaceCall hc.mem hid hcampaign hswarm hc.isOpen hopen hcalls,
    Collection.self_mem_replaceOne hcalls⟩

theorem failDispatch_wp {cause : Err} (hw : Tallied inserted w) (hc : Working w c)
    (hretry : c.attempt < c.maxAttempts) :
    Prog.wp (answered platform).exec (fun _ w' => Tallied inserted w') (failDispatch c cause) w := by
  refine Prog.wp_call_bind.2 fun o now w₁ hexec => ?_
  obtain rfl := answered_now hexec
  refine Prog.wp_call_bind.2 fun o r w₂ hexec => ?_
  have hx : c.dispatchFailed cause now = { c with
      updatedAt := now
      leaseUntil := none
      failure := mergeFailure c.failure "dispatch" cause.text
      status := .pending
      scheduledAt := now + c.attempt * (5 * minute) } := if_pos hretry
  have hopen : ¬ (c.dispatchFailed cause now).status.terminal := by
    rw [hx]
    exact Bool.false_ne_true
  exact (save_wp (x := c.dispatchFailed cause now) hw hc (by rw [hx]) (by rw [hx]) (by rw [hx])
    (by rw [hx]) hopen hexec).2.1

theorem deferDispatch_wp {scheduledAt : Time} (hw : Tallied inserted w) (hc : Working w c) :
    Prog.wp (answered platform).exec (fun _ w' => Tallied inserted w')
      (deferDispatch c scheduledAt) w := by
  refine Prog.wp_call_bind.2 fun o now w₁ hexec => ?_
  obtain rfl := answered_now hexec
  refine Prog.wp_call_bind.2 fun o r w₂ hexec => ?_
  obtain ⟨rfl, hw₂, -⟩ := save_wp (x := c.deferred scheduledAt now) hw hc rfl rfl rfl rfl
    Bool.false_ne_true hexec
  exact hw₂

/-- A call that ends is stored and counted. -/
theorem close_wp {x : Call} (hw : Tallied inserted w) (hc : Working w c) (hid : x.id = c.id)
    (hkey : x.idempotencyKey = c.idempotencyKey) (hcampaign : x.campaignID = c.campaignID)
    (hswarm : x.swarmID = c.swarmID) (hend : x.status.terminal) {o : Oracle}
    {r : Except Err Unit} {w₁ : World}
    (hexec : (answered platform).exec (.saveCall x) o w = some (r, w₁)) :
    r = .ok () ∧ ∀ o r w₂, (answered platform).exec
      (.incrementCampaignCount x.campaignID x.status.toString 1) o w₁ = some (r, w₂) →
        Tallied inserted w₂ := by
  obtain ⟨hok, hexec⟩ := answered_exec hexec
  obtain ⟨hr, calls, hcalls, rfl⟩ := exec_saveCall_isNone hok hc.mem hid hkey hexec
  refine ⟨hr, fun o r w₂ hexec => ?_⟩
  obtain ⟨hok, hexec⟩ := answered_exec hexec
  obtain ⟨campaign, counts, hget, -, hcounts, hne⟩ := hw.get_campaign hc.mem
  rw [← hcampaign] at hget hne
  obtain ⟨campaigns, hcampaigns, rfl⟩ :=
    exec_incrementCampaignCount_isNone (w := { w with calls := calls }) hok hne hget hcounts hexec
  rw [hcampaign] at hget
  exact hw.closeCall hc.mem hid hcampaign hswarm hc.isOpen hend hget hcounts hcalls hcampaigns

theorem cancelUndispatchedCall_wp {reason : String} (hw : Tallied inserted w) (hc : Working w c) :
    Prog.wp (answered platform).exec (fun _ w' => Tallied inserted w')
      (cancelUndispatchedCall c reason) w := by
  refine Prog.wp_call_bind.2 fun o now w₁ hexec => ?_
  obtain rfl := answered_now hexec
  refine Prog.wp_call_bind.2 fun o r w₂ hexec => ?_
  obtain ⟨rfl, hclose⟩ := close_wp (x := c.cancelled reason now) hw hc rfl rfl rfl rfl rfl hexec
  exact Prog.wp_call_bind.2 fun o r w₃ hexec => hclose o r w₃ hexec

theorem dispatchCall_wp {swarm : AgentSwarm} (hw : Tallied inserted w) (hc : Working w c) :
    Prog.wp (answered platform).exec (fun _ w' => Tallied inserted w') (dispatchCall c swarm) w := by
  refine Prog.wp_call_bind.2 fun o r w₁ hexec => ?_
  obtain ⟨hok, hexec⟩ := answered_exec hexec
  simp only [Cmd.exec, Option.some.injEq, Prod.mk.injEq] at hexec
  obtain ⟨hr, rfl⟩ := hexec
  simp only [answers, decide_eq_true_eq, hr] at hok
  cases r with
  | error e => exact failDispatch_wp hw hc (hok.resolve_left Bool.false_ne_true)
  | ok room =>
    refine Prog.wp_call_bind.2 fun o now w₁ hexec => ?_
    obtain rfl := answered_now hexec
    refine Prog.wp_call_bind.2 fun o r w₂ hexec => ?_
    obtain ⟨rfl, hw₂, hmem⟩ := save_wp (x := c.ringing room now) hw hc rfl rfl rfl rfl
      Bool.false_ne_true hexec
    refine Prog.wp_call_bind.2 fun o r w₃ hexec => ?_
    obtain ⟨hok, hexec⟩ := answered_exec hexec
    obtain ⟨campaign, counts, hget, hid, hcounts, hne⟩ := hw₂.get_campaign hmem
    obtain ⟨campaigns, hcampaigns, rfl⟩ := exec_incrementCampaignCount_isNone hok hne hget hcounts hexec
    refine hw₂.replaceCampaign (hid ▸ hne) rfl (fun key hkey => ?_) hcampaigns
    -- dispatched calls are counted under a key of their own
    rw [Campaign.count_setKey (c := campaign) (by rw [hcounts]; rfl), if_neg, World.counter]
    · change _ = ((w₂.campaigns.get campaign.id).map _).getD 0
      rw [hid, hget]
      rfl
    · rintro rfl
      exact absurd hkey (by decide)

theorem getSwarm_answered {c : Call} (hw : Tallied inserted w) (hc : c ∈ w.calls) {o : Oracle}
    {r : Except Err AgentSwarm} {w' : World}
    (hexec : (answered platform).exec (.getSwarm c.swarmID) o w = some (r, w')) :
    w' = w ∧ ∃ swarm, r = .ok swarm := by
  obtain ⟨hok, hexec⟩ := answered_exec hexec
  obtain ⟨rfl, hw'⟩ := answer_isNone hok hexec
  obtain ⟨swarm, hswarm⟩ := Option.isSome_iff_exists.1 (hw.calls c hc).2
  exact ⟨hw', swarm, found_eq_ok.2 hswarm⟩

theorem dispatchCleared_wp (hw : Tallied inserted w) (hc : Working w c) :
    Prog.wp (answered platform).exec (fun _ w' => Tallied inserted w') (dispatchCleared c) w := by
  refine Prog.wp_call_bind.2 fun o r w₁ hexec => ?_
  obtain ⟨rfl, swarm, rfl⟩ := getSwarm_answered hw hc.mem hexec
  exact dispatchCall_wp hw hc

theorem dispatchRunning_wp {campaign : Campaign} {now : Time} (hw : Tallied inserted w)
    (hc : Working w c) :
    Prog.wp (answered platform).exec (fun _ w' => Tallied inserted w')
      (dispatchRunning platform c campaign now) w := by
  unfold dispatchRunning
  split
  · exact deferDispatch_wp hw hc
  refine Prog.wp_call_bind.2 fun o r w₁ hexec => ?_
  obtain ⟨hok, hexec⟩ := answered_exec hexec
  obtain ⟨rfl, rfl⟩ := answer_isNone hok hexec
  dsimp only
  split
  · exact deferDispatch_wp hw hc
  · exact dispatchCleared_wp hw hc

theorem dispatchOne_wp (hw : Tallied inserted w) :
    Prog.wp (answered platform).exec (fun _ w' => Tallied inserted w') (dispatchOne platform) w := by
  refine Prog.wp_call_bind.2 fun o now w₁ hexec => ?_
  obtain rfl := answered_now hexec
  refine Prog.wp_call_bind.2 fun o r w₂ hexec => ?_
  rcases exec_claimPendingCall (answered_exec hexec).2 with
    ⟨rfl, e, rfl⟩ | ⟨c, calls, hmem, hclaim, hcalls, rfl, hr⟩
  · exact hw
  have hpending : c.status = .pending := (of_decide_eq_true hclaim).1
  have hclaimed := hw.replaceCall hmem (x := c.claimed now (90 * second)) rfl rfl rfl
    (by rw [hpending]; exact Bool.false_ne_true) Bool.false_ne_true hcalls
  have hc : Working { w₁ with calls := calls } (c.claimed now (90 * second)) :=
    ⟨Collection.self_mem_replaceOne hcalls, Bool.false_ne_true⟩
  rcases hr with rfl | ⟨e, rfl⟩
  · dsimp only
    split
    · exact dispatchCleared_wp hclaimed hc
    refine Prog.wp_call_bind.2 fun o r w₃ hexec => ?_
    obtain ⟨hok, hexec⟩ := answered_exec hexec
    obtain ⟨rfl, rfl⟩ := answer_isNone hok hexec
    obtain ⟨campaign, counts, hget, -⟩ := hclaimed.get_campaign hc.mem
    rw [hget]
    change Prog.wp _ _ (if campaign.status = "completed" ∨ campaign.status = "cancelled" then _
      else if campaign.status = "running" then _ else _) _
    split
    · exact cancelUndispatchedCall_wp hclaimed hc
    split
    · exact dispatchRunning_wp hclaimed hc
    · exact deferDispatch_wp hclaimed hc
  · exact hclaimed

end Dispatch

theorem completeCall_wp {request : CompleteRequest} (hw : Tallied inserted w)
    (hopen : (w.calls.get request.callID).all (¬ ·.status.terminal)) :
    Prog.wp (answered platform).exec (fun _ w' => Tallied inserted w') (completeCall request) w := by
  refine Prog.wp_call_bind.2 fun o r w₁ hexec => ?_
  obtain ⟨rfl, -⟩ := answer_some (answered_exec hexec).2
  cases r with
  | error e => exact hw
  | ok c =>
    obtain ⟨hmem, hid⟩ := exec_getCall (answered_exec hexec).2
    rw [Collection.get_eq_some_iff.2 ⟨hmem, hid⟩, Option.all_some, decide_eq_true_eq] at hopen
    refine Prog.wp_call_bind.2 fun o now w₂ hexec => ?_
    obtain rfl := answered_now hexec
    apply Prog.wp_bind.2
    refine Prog.wp_mono (fun x w₃ h => ?_) (System.wp_restrict withDisposition_wp)
    obtain ⟨rfl, d, f, rfl⟩ := h
    refine Prog.wp_call_bind.2 fun o r w₄ hexec => ?_
    have hend : (completionStatus request.failure).terminal := by
      unfold completionStatus
      split <;> rfl
    obtain ⟨rfl, hclose⟩ := close_wp (x := { c.closed request.transcript request.failure now with
      disposition := d, failure := f }) hw ⟨hmem, hopen⟩ rfl rfl rfl rfl hend hexec
    exact Prog.wp_call_bind.2 fun o r w₅ hexec => hclose o r w₅ hexec

/-- The checks of `SaveCampaign` leave the identifier and the counters alone. -/
theorem prepared_counts {value campaign : Campaign} {swarm : AgentSwarm}
    (h : value.prepared swarm = .ok campaign) :
    campaign.id = value.id ∧ campaign.counts = value.counts := by
  unfold Campaign.prepared at h
  extract_lets direction fromNumber entryNodeKey language at h
  split at h
  · cases h
  split at h
  · cases h
  split at h
  · cases h
  split at h
  · cases h
  split at h
  · cases h
  · exact Except.ok.inj h ▸ ⟨rfl, rfl⟩

/-- The campaign passes the checks of `SaveCampaign`. -/
def accepts (w : World) (value : Campaign) : Bool :=
  value.name ≠ "" ∧ value.swarmID ≠ "" ∧
    (w.swarms.get value.swarmID).any fun swarm => (value.prepared swarm).isOk

theorem storeCampaign_wp {campaign : Campaign} (hw : Tallied inserted w) (hid : campaign.id ≠ "")
    (hcounts : campaign.counts.isSome)
    (hsame : ∀ key ∈ talliedKeys, campaign.count key = w.counter campaign.id key) :
    Prog.wp (answered platform).exec (fun _ w' => Tallied inserted w') (storeCampaign campaign) w := by
  refine Prog.wp_call_bind.2 fun o r w₁ hexec => ?_
  obtain ⟨hok, hexec⟩ := answered_exec hexec
  obtain ⟨rfl, campaigns, hcampaigns, rfl⟩ := exec_saveCampaign_isNone hok hexec
  exact hw.replaceCampaign hid hcounts hsame hcampaigns

theorem saveCampaign_wp {value : Campaign} {actor : String} (hw : Tallied inserted w)
    (hkeeps : accepts w value → ∀ key ∈ talliedKeys, value.count key = w.counter value.id key) :
    Prog.wp (answered platform).exec (fun _ w' => Tallied inserted w') (saveCampaign value actor) w := by
  unfold saveCampaign
  split
  · exact hw
  rename_i hnames
  refine Prog.wp_call_bind.2 fun o r w₁ hexec => ?_
  obtain ⟨rfl, -⟩ := answer_some (answered_exec hexec).2
  cases r with
  | error e => exact hw
  | ok swarm =>
    have hswarm := Collection.get_eq_some_iff.2 (exec_getSwarm (answered_exec hexec).2)
    dsimp only
    split
    · exact hw
    rename_i campaign hprepared
    obtain ⟨hid, hcounts⟩ := prepared_counts hprepared
    have haccepts : accepts w₁ value := by
      simp only [accepts, hswarm, Option.any_some, hprepared, decide_eq_true_eq]
      exact ⟨(not_or.1 hnames).1, (not_or.1 hnames).2, rfl⟩
    have hsame : ∀ key ∈ talliedKeys, ((campaign.counts.getD []).lookup key).getD 0 =
        w₁.counter campaign.id key := by
      rw [hid, hcounts]
      exact hkeeps haccepts
    refine Prog.wp_call_bind.2 fun o now w₂ hexec => ?_
    obtain rfl := answered_now hexec
    split
    · rename_i hempty
      refine Prog.wp_call_bind.2 fun o id w₃ hexec => ?_
      have hfresh := exec_randomID_campaign (answered_exec hexec).2
      have hne := exec_randomID_ne (answered_exec hexec).2
      obtain ⟨-, -, rfl⟩ := exec_randomID (answered_exec hexec).2
      have hw' : Tallied inserted { w₂ with issued := id :: w₂.issued } := ⟨hw.1, hw.2, hw.3, hw.4, hw.5⟩
      refine storeCampaign_wp hw' hne rfl fun key hkey => ?_
      -- neither the empty identifier nor the new one is stored
      have hnone : w₂.campaigns.get "" = none := Collection.get_eq_none_iff.2 fun d hd => (hw.campaigns d hd).1
      have hzero := hsame key hkey
      rw [hempty, World.counter, hnone] at hzero
      change _ = ((w₂.campaigns.get id).map _).getD 0
      rw [hfresh]
      exact hzero
    · rename_i hne
      refine Prog.wp_call_bind.2 fun o r w₃ hexec => ?_
      obtain ⟨rfl, -⟩ := answer_some (answered_exec hexec).2
      split
      · exact storeCampaign_wp hw hne rfl hsame
      · exact storeCampaign_wp hw hne rfl hsame
      · exact hw

/-- What a request has inserted for the campaign, by its reply. -/
def insertedBy (id : String) : Op × Reply → ℕ
  | (.scheduleCampaign campaignID _ _, .scheduled (.ok result)) =>
    if campaignID = id then result.scheduled else 0
  | _ => 0

/-- What the requests have inserted for the campaign. -/
def insertedFor (h : List (Op × Reply)) (id : String) : ℕ := (h.map (insertedBy id)).sum

theorem scheduleCampaign_wp {campaignID actor : String} {targets : List CampaignTarget}
    {h : List (Op × Reply)} (hw : Tallied (insertedFor h) w) :
    Prog.wp (answered platform).exec (fun r w' => Tallied
        (insertedFor ((.scheduleCampaign campaignID targets actor, .scheduled r) :: h)) w')
      (scheduleCampaign campaignID targets actor) w := by
  have hsame : ∀ e, Tallied
      (insertedFor ((.scheduleCampaign campaignID targets actor, .scheduled (.error e)) :: h)) w := by
    intro e
    have hzero : insertedFor ((.scheduleCampaign campaignID targets actor, .scheduled (.error e)) :: h) =
        insertedFor h := funext fun id => Nat.zero_add _
    rw [hzero]
    exact hw
  unfold scheduleCampaign
  split
  · exact hsame _
  refine Prog.wp_call_bind.2 fun o r w₁ hexec => ?_
  obtain ⟨rfl, -⟩ := answer_some (answered_exec hexec).2
  cases r with
  | error e => exact hsame e
  | ok campaign =>
    obtain ⟨hmem, rfl⟩ := exec_getCampaign (answered_exec hexec).2
    dsimp only
    split
    · exact hsame _
    refine Prog.wp_call_bind.2 fun o r w₁ hexec => ?_
    obtain ⟨rfl, -⟩ := answer_some (answered_exec hexec).2
    cases r with
    | error e => exact hsame e
    | ok swarm =>
      have hswarm := Collection.get_eq_some_iff.2 ⟨(exec_getSwarm (answered_exec hexec).2).1, rfl⟩
      refine Prog.wp_call_bind.2 fun o now w₂ hexec => ?_
      obtain rfl := answered_now hexec
      apply Prog.wp_bind.2
      refine Prog.wp_mono (fun a w₃ h₃ => ?_) (System.wp_restrict targetCalls_wp)
      have hcampaigns₃ := h₃.campaigns
      have hw₃ : Tallied (insertedFor h) w₃ := by
        refine ⟨?_, ?_, ?_, ?_, ?_⟩ <;> simp only [h₃.calls, h₃.swarms, hcampaigns₃]
        exacts [hw.campaigns, hw.calls, hw.ended, hw.scheduled, hw.stored]
      refine Prog.wp_call_bind.2 fun o r w₄ hexec => ?_
      obtain ⟨hok, hexec⟩ := answered_exec hexec
      obtain ⟨rfl, rfl⟩ := exec_insertCalls_isNone hok hexec
      refine Prog.wp_call_bind.2 fun o r w₅ hexec => ?_
      obtain ⟨hok, hexec⟩ := answered_exec hexec
      obtain ⟨rfl, campaigns, hcampaigns, rfl⟩ := exec_saveCampaign_isNone hok hexec
      refine hw₃.schedule (hcampaigns₃ ▸ hmem) (fun x hx => ?_) hcampaigns
      obtain ⟨target, -, -, hx⟩ := h₃.made x hx
      refine ⟨hx ▸ rfl, hx ▸ rfl, ?_⟩
      rw [h₃.swarms, hx]
      change (w₂.swarms.get swarm.id).isSome
      rw [hswarm]
      rfl

/-! ## Sequences -/

/-- What a request must respect for the counters to stay right: a stored campaign
keeps its counters when it is saved, and a call is completed once. -/
def keepsCounts (w : World) : Op → Bool
  | .saveCampaign value _ =>
    ¬ accepts w value ∨ ∀ key ∈ talliedKeys, value.count key = w.counter value.id key
  | .scheduleCampaign _ _ _ | .dispatchOne => true
  | .completeCall request => (w.calls.get request.callID).all (¬ ·.status.terminal)
  | _ => false

/-- The requests that write campaigns or the calls of campaigns. -/
def writesCounts : Op → Bool
  | .saveCampaign _ _ | .scheduleCampaign _ _ _ | .dispatchOne | .completeCall _ => true
  | _ => false

theorem tallied_empty (hcampaigns : ∀ campaign, campaign ∉ w.campaigns) (hcalls : ∀ c, c ∉ w.calls) :
    Tallied (insertedFor []) w := by
  refine ⟨fun d hd => absurd hd (hcampaigns d), fun c hc => absurd hc (hcalls c),
    fun d hd => absurd hd (hcampaigns d), fun d hd => absurd hd (hcampaigns d), fun id => ?_⟩
  exact Collection.count_eq_zero fun c hc => absurd hc (hcalls c)

/-- In every sequence of requests that keep the counts, from a store without
campaigns and calls, the counters of every campaign equal its calls. -/
theorem counts_eq_calls {h : List (Op × Reply)} (hcampaigns : ∀ campaign, campaign ∉ w₀.campaigns)
    (hcalls : ∀ c, c ∉ w₀.calls)
    (hs : (answered platform).Sequence (fun w op => keepsCounts w op) w₀ h w) :
    ∀ campaign ∈ w.campaigns,
      campaign.count "completed" = w.calls.count (·.countedAs campaign.id .completed) ∧
      campaign.count "failed" = w.calls.count (·.countedAs campaign.id .failed) ∧
      campaign.count "cancelled" = w.calls.count (·.countedAs campaign.id .cancelled) ∧
      campaign.count "scheduled" = insertedFor h campaign.id ∧
      insertedFor h campaign.id = w.calls.count (·.campaignID = campaign.id) := by
  have hw : Tallied (insertedFor h) w := by
    refine hs.invariant (I := fun h w => Tallied (insertedFor h) w) (tallied_empty hcampaigns hcalls)
      (fun _ _ _ hw => ⟨hw.1, hw.2, hw.3, hw.4, hw.5⟩) ?_
    intro h w op hw hok
    -- only a reply of `ScheduleCampaign` says that something was inserted
    have hother : ∀ op r w', (∀ id, insertedBy id (op, r) = 0) → Tallied (insertedFor h) w' →
        Tallied (insertedFor ((op, r) :: h)) w' := by
      intro op r w' hzero hw'
      have hsame : insertedFor ((op, r) :: h) = insertedFor h := by
        funext id
        rw [insertedFor, List.map_cons, List.sum_cons, hzero id, Nat.zero_add, insertedFor]
      rwa [hsame]
    cases op with
    | saveCampaign value actor =>
      apply Prog.wp_bind.2
      refine Prog.wp_mono (fun r w' hw' => ?_) (saveCampaign_wp hw fun haccepts => ?_)
      · exact hother (.saveCampaign value actor) (.campaign r) w' (fun _ => rfl) hw'
      · simp only [keepsCounts, decide_eq_true_eq] at hok
        exact hok.resolve_left (not_not.2 haccepts)
    | scheduleCampaign campaignID targets actor =>
      apply Prog.wp_bind.2
      exact Prog.wp_mono (fun r w' hw' => hw') (scheduleCampaign_wp hw)
    | dispatchOne =>
      apply Prog.wp_bind.2
      refine Prog.wp_mono (fun r w' hw' => ?_) (dispatchOne_wp hw)
      exact hother (.dispatchOne) (.dispatched r) w' (fun _ => rfl) hw'
    | completeCall request =>
      apply Prog.wp_bind.2
      refine Prog.wp_mono (fun r w' hw' => ?_) (completeCall_wp hw hok)
      exact hother (.completeCall request) (.call r) w' (fun _ => rfl) hw'
    | _ => cases hok
  intro campaign hmem
  exact ⟨hw.ended campaign hmem .completed rfl, hw.ended campaign hmem .failed rfl,
    hw.ended campaign hmem .cancelled rfl, hw.scheduled campaign hmem, (hw.stored campaign.id).symm⟩

end ControlPlane

namespace Sample

/-- The small control plane before its campaign is saved. -/
def emptyWorld : World := { world with campaigns := ∅ }

def saveOne : ControlPlane.Request := (.saveCampaign campaign "", [{}, {}, {}, {}])

/-- Dispatch the call; the telephony may refuse it. -/
def dispatch (refusal : Option String) : ControlPlane.Request :=
  (.dispatchOne, [{}, {}, {}, {}, {}, { createDispatch := refusal }, {}, {}, {}])

def completeOne : ControlPlane.Request :=
  (.completeCall { callID := "call_a", transcript := [], failure := none }, [{}, {}, {}, {}])

end Sample

namespace ControlPlane

/-- A call is scheduled, dialed and completed, and its campaign counts it. -/
theorem counts_eq_calls_sample :
    ∃ h w, (answered Sample.platform).Sequence (fun w op => keepsCounts w op) Sample.emptyWorld h w ∧
      ∃ campaign ∈ w.campaigns, campaign.count "completed" = 1 ∧
        campaign.count "scheduled" = insertedFor h campaign.id := by
  have hrun : ((answered Sample.platform).sequence (fun w op => keepsCounts w op)
      [Sample.saveOne, Sample.scheduleOne, Sample.dispatch none, Sample.completeOne] []
      Sample.emptyWorld).any fun x => x.2.campaigns.docs.any fun campaign =>
        x.2.calls.count (·.countedAs campaign.id .completed) = 1 := by
    decide +kernel
  obtain ⟨h, w, hs, hw⟩ := System.Sequence.exists_of_any hrun
  obtain ⟨campaign, hmem, hone⟩ := List.any_eq_true.1 hw
  have hcounts := counts_eq_calls (fun _ hd => absurd hd List.not_mem_nil)
    (fun _ hd => absurd hd List.not_mem_nil) hs campaign hmem
  refine ⟨h, w, hs, campaign, hmem, ?_, hcounts.2.2.2.1⟩
  rw [hcounts.1, of_decide_eq_true hone]
  rfl

/-- A call whose last attempt fails is not counted, although the store always answers. -/
theorem not_counts_eq_calls :
    ¬ ∀ (w₀ : World) (h : List (Op × Reply)) (w : World), (∀ campaign, campaign ∉ w₀.campaigns) →
      (∀ c, c ∉ w₀.calls) →
      (controlPlane Sample.platform).Sequence (fun _ op => writesCounts op) w₀ h w →
      ∀ campaign ∈ w.campaigns,
        campaign.count "completed" = w.calls.count (·.countedAs campaign.id .completed) ∧
        campaign.count "failed" = w.calls.count (·.countedAs campaign.id .failed) ∧
        campaign.count "cancelled" = w.calls.count (·.countedAs campaign.id .cancelled) ∧
        campaign.count "scheduled" = insertedFor h campaign.id := by
  intro h
  have hrun : ((controlPlane Sample.platform).sequence (fun _ op => writesCounts op)
      [Sample.saveOne, Sample.scheduleOne, Sample.dispatch (some "busy")] [] Sample.emptyWorld).any
        fun x => x.2.campaigns.docs.any fun campaign =>
          ¬ campaign.count "failed" = x.2.calls.count (·.countedAs campaign.id .failed) := by
    decide +kernel
  obtain ⟨ops, w, hs, hw⟩ := System.Sequence.exists_of_any hrun
  obtain ⟨campaign, hmem, hfailed⟩ := List.any_eq_true.1 hw
  exact of_decide_eq_true hfailed (h _ _ _ (fun _ hd => absurd hd List.not_mem_nil)
    (fun _ hd => absurd hd List.not_mem_nil) hs campaign hmem).2.1

end ControlPlane

end Stylme
