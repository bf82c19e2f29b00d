-- SUMMARY: A call that is due outside its campaign's calling window is put off to the first instant inside, and one that is due inside is not put off.
import Mathlib.Algebra.Group.Int.Defs
import Stylme.Service.System

/-!
# Calling windows

Both functions look at the minute of the local day. Outside a window the minutes
up to its start are all outside, so the next start is the first instant inside;
it is today's start when that is still to come, and tomorrow's otherwise. Here
the zone of the campaign has one offset for all times.
-/

namespace Stylme

open Conc

/-- The minute of the day on a clock that shows so many seconds. -/
def minuteOfDay (clock : Int) : Int := clock % 86400 / 60

/-- The minute lies in the window between these bounds, across midnight when
they are reversed. -/
def InWindow (start stop minute : Int) : Prop :=
  if start < stop then start ≤ minute ∧ minute < stop else start ≤ minute ∨ minute < stop

/-! ## The clock of a zone with one offset -/

section Fixed

variable {loc : Location} {zone : Zone}

theorem Location.clock_fixed (hfixed : ∀ unix, loc.lookup unix = zone) (t : Time) :
    loc.clock t = t / second + zone.offset := by
  rw [clock, hfixed]

theorem Location.minuteOfDay_eq (t : Time) :
    loc.hour t * 60 + loc.minute t = minuteOfDay (loc.clock t) := by
  unfold hour minute minuteOfDay
  omega

theorem Location.date_fixed (hfixed : ∀ unix, loc.lookup unix = zone) (day secs : Int) :
    loc.date day secs = (day * 86400 + secs - zone.offset) * second := by
  simp only [date, hfixed, ite_self]
  split
  · rename_i hzero
    rw [hzero, Int.sub_zero]
  · rfl

/-- A date shows on the clock as the seconds it was made from. -/
theorem Location.clock_date (hfixed : ∀ unix, loc.lookup unix = zone) (day secs : Int) :
    loc.clock (loc.date day secs) = day * 86400 + secs := by
  rw [clock_fixed hfixed, date_fixed hfixed, Int.mul_ediv_cancel _ (by decide)]
  omega

/-- An instant is before a date when its clock is. -/
theorem Location.lt_date_iff (hfixed : ∀ unix, loc.lookup unix = zone) {t : Time} {day secs : Int} :
    t < loc.date day secs ↔ loc.clock t < day * 86400 + secs := by
  rw [date_fixed hfixed, clock_fixed hfixed, ← Int.ediv_lt_iff_lt_mul (by decide)]
  omega

theorem Location.clock_le (hfixed : ∀ unix, loc.lookup unix = zone) {t t' : Time} (h : t ≤ t') :
    loc.clock t ≤ loc.clock t' := by
  rw [clock_fixed hfixed, clock_fixed hfixed]
  exact Int.add_le_add_right (Int.ediv_le_ediv (by decide) h) _

end Fixed

/-! ## Bounds -/

theorem parseMinute_bounds {value : String} {m : Int} (h : parseMinute value = some m) :
    0 ≤ m ∧ m < 1440 := by
  unfold parseMinute at h
  split at h
  · split at h
    · split at h
      · rename_i hlt
        obtain rfl := Option.some.inj h
        omega
      · cases h
    · cases h
  · cases h

/-- What a valid window is made of. -/
structure Bounds (start stop : Int) : Prop where
  starts : 0 ≤ start ∧ start < 1440
  stops : 0 ≤ stop ∧ stop < 1440
  ne : start ≠ stop

section Window

variable {Request : Type} {platform : Platform Request} {window : CallingWindow} {loc : Location}
  {start stop : Int} {zone : Zone} {now t : Time}

theorem parseCallingWindow_bounds (h : parseCallingWindow platform window = some (loc, start, stop)) :
    Bounds start stop := by
  unfold parseCallingWindow at h
  split at h
  · cases h
  · split at h
    · rename_i hstart hstop
      split at h
      · rename_i hne
        obtain ⟨rfl, rfl, rfl⟩ := Option.some.inj h
        exact ⟨parseMinute_bounds hstart, parseMinute_bounds hstop, hne⟩
      · cases h
    · cases h

theorem withinCallingWindow_iff (h : parseCallingWindow platform window = some (loc, start, stop)) :
    withinCallingWindow platform window t ↔ InWindow start stop (minuteOfDay (loc.clock t)) := by
  rw [withinCallingWindow, h]
  dsimp only
  rw [Location.minuteOfDay_eq, InWindow]
  split <;> simp

/-- The next start is today's or tomorrow's. -/
theorem nextCallingWindow_eq (now : Time)
    (h : parseCallingWindow platform window = some (loc, start, stop))
    (hfixed : ∀ unix, loc.lookup unix = zone) :
    ∃ day, nextCallingWindow platform window now = loc.date day (start * 60) ∧
      if loc.clock now < loc.day now * 86400 + start * 60 then day = loc.day now
      else day = loc.day now + 1 := by
  obtain ⟨⟨hzero, hlast⟩, -, -⟩ := parseCallingWindow_bounds h
  rw [nextCallingWindow, h]
  dsimp only
  simp only [Location.lt_date_iff hfixed]
  split
  · exact ⟨_, rfl, rfl⟩
  · refine ⟨_, ?_, rfl⟩
    have hclock := Location.clock_date hfixed (loc.day now) (start * 60)
    have hday : (loc.day now * 86400 + start * 60) / 86400 = loc.day now := by
      omega
    have hsecs : (loc.day now * 86400 + start * 60) % 86400 = start * 60 := by
      omega
    rw [Location.nextDay, Location.day, hclock, hday, hsecs]

/-! ## The first instant inside -/

/-- The minutes before the next start are outside, if the present one is. -/
theorem not_inWindow_of_lt {clock clock' day : Int} (hbounds : Bounds start stop)
    (hout : ¬ InWindow start stop (minuteOfDay clock))
    (hday : if clock < clock / 86400 * 86400 + start * 60 then day = clock / 86400
      else day = clock / 86400 + 1)
    (hle : clock ≤ clock') (hlt : clock' < day * 86400 + start * 60) :
    ¬ InWindow start stop (minuteOfDay clock') := by
  obtain ⟨⟨hstart, hstart'⟩, ⟨hstop, hstop'⟩, hne⟩ := hbounds
  unfold InWindow minuteOfDay at hout ⊢
  split_ifs at hout hday ⊢ with horder hcoming <;> omega

theorem inWindow_start {day : Int} (hbounds : Bounds start stop) :
    InWindow start stop (minuteOfDay (day * 86400 + start * 60)) := by
  obtain ⟨⟨hstart, hstart'⟩, ⟨hstop, hstop'⟩, hne⟩ := hbounds
  unfold InWindow minuteOfDay
  split_ifs <;> omega

/-- Inside the window, only the concurrency limit defers a call. -/
theorem dispatchRunning_within {call : Call} {campaign : Campaign} {r : Option Err} {w w' : World}
    (hwithin : withinCallingWindow platform campaign.callingWindow now)
    (h : (dispatchRunning platform call campaign now).Ends Cmd.exec w r w') :
    campaign.maxConcurrency ≤ w.calls.count (·.countsFor campaign.id call.id) ∨
      (dispatchCleared call).Ends Cmd.exec w r w' ∨
        ∃ e, (failDispatch call e).Ends Cmd.exec w r w' := by
  rw [dispatchRunning, if_neg (not_not.2 hwithin)] at h
  obtain ⟨o, counted, w₁, hexec, hrest⟩ := Prog.ends_op.1 h
  cases counted with
  | error e =>
    obtain ⟨rfl, -⟩ := answer_some hexec
    exact .inr (.inr ⟨e, hrest⟩)
  | ok active =>
    obtain ⟨rfl, -⟩ := answer_ok hexec
    obtain rfl := exec_countActiveCampaignCalls hexec
    by_cases hfull : campaign.maxConcurrency ≤ w₁.calls.count (·.countsFor campaign.id call.id)
    · exact .inl hfull
    · change Prog.Ends _ (if campaign.maxConcurrency ≤ _ then _ else _) _ _ _ at hrest
      rw [if_neg hfull] at hrest
      exact .inr (.inl hrest)

/-- In a zone with one offset: from an instant outside a valid window, the next window is the first
instant inside it; and at an instant inside, no call is deferred because of the window. -/
theorem nextCallingWindow_first (hwindow : parseCallingWindow platform window = some (loc, start, stop))
    (hfixed : ∀ unix, loc.lookup unix = zone) :
    (¬ withinCallingWindow platform window now →
      now < nextCallingWindow platform window now ∧
        withinCallingWindow platform window (nextCallingWindow platform window now) ∧
        ∀ t, now < t → t < nextCallingWindow platform window now →
          ¬ withinCallingWindow platform window t) ∧
      (withinCallingWindow platform window now → ∀ (call : Call) (campaign : Campaign),
        campaign.callingWindow = window → ∀ w r w',
          (dispatchRunning platform call campaign now).Ends Cmd.exec w r w' →
            campaign.maxConcurrency ≤ w.calls.count (·.countsFor campaign.id call.id) ∨
              (dispatchCleared call).Ends Cmd.exec w r w' ∨
                ∃ e, (failDispatch call e).Ends Cmd.exec w r w') := by
  constructor
  · intro hout
    have hbounds := parseCallingWindow_bounds hwindow
    rw [withinCallingWindow_iff hwindow] at hout
    obtain ⟨day, hnext, hday⟩ := nextCallingWindow_eq now hwindow hfixed
    rw [hnext]
    refine ⟨?_, ?_, fun t hlt hbefore => ?_⟩
    · rw [Location.lt_date_iff hfixed]
      obtain ⟨⟨hstart, hstart'⟩, -, -⟩ := hbounds
      unfold Location.day at hday
      split_ifs at hday <;> omega
    · rw [withinCallingWindow_iff hwindow, Location.clock_date hfixed]
      exact inWindow_start hbounds
    · rw [withinCallingWindow_iff hwindow]
      exact not_inWindow_of_lt hbounds hout hday (Location.clock_le hfixed (Int.le_of_lt hlt))
        ((Location.lt_date_iff hfixed).1 hbefore)
  · rintro hwithin call campaign rfl w r w' hends
    exact dispatchRunning_within hwithin hends

end Window

/-! ## A window across midnight -/

namespace Sample

/-- India's time, five and a half hours ahead. -/
def kolkata : Location := ⟨fun _ => ⟨19800, -2 ^ 63, 2 ^ 63 - 1⟩⟩

def indianPlatform : Platform Unit where
  loadLocation name := if name = "Asia/Kolkata" then some kolkata else none
  marshalSize _ := none

def night : CallingWindow := ⟨"Asia/Kolkata", "22:00", "02:00"⟩

end Sample

/-- From half past three in the afternoon on the nineteenth of July 2026, the first instant in the window is
ten in the evening. -/
theorem nextCallingWindow_first_night :
    nextCallingWindow Sample.indianPlatform Sample.night (1784455200 * second) = 1784478600 * second ∧
      ∀ t, 1784455200 * second < t → t < 1784478600 * second →
        ¬ withinCallingWindow Sample.indianPlatform Sample.night t := by
  have hnext : nextCallingWindow Sample.indianPlatform Sample.night (1784455200 * second) =
      1784478600 * second := by decide +kernel
  have hout : ¬ withinCallingWindow Sample.indianPlatform Sample.night (1784455200 * second) := by
    decide +kernel
  have hwindow : parseCallingWindow Sample.indianPlatform Sample.night =
      some (Sample.kolkata, 1320, 120) := rfl
  have hfirst := (nextCallingWindow_first hwindow fun _ => rfl).1 hout
  rw [hnext] at hfirst
  exact ⟨hnext, hfirst.2.2⟩

end Stylme
