import DivoomDev.Ics.Expansion

/-! The local clock of a zone whose UTC offset changes over the year. The daily and the weekly
expander add whole days of 24 hours to an instant; what the local clock shows there follows
from the offsets of the zone. -/

namespace DivoomDev.Ics.LocalTime
open DivoomDev.Library DivoomDev.Library.Bytes DivoomDev.Library.Loop Models Datetime Recurrence Clocks
  ClockArithmetic Series Repetition Expansion

/-- The zone shows the seconds of UTC moved by an offset that depends on the instant. -/
structure FollowsOffset (zone : SystemZone) (offset : Int → Int) : Prop where
  clock : ∀ seconds, { zone.localtime seconds with tmIsdst := 0 } = utcTm (seconds + offset seconds)

/-- Hours, minutes and seconds. -/
def timeOfDay (tm : Tm) : Int × Int × Int := (tm.tmHour, tm.tmMin, tm.tmSec)

/-- What the clock shows at a time point. -/
def localTimeOfDay (zone : SystemZone) (tp : TimePoint) : Int × Int × Int :=
  timeOfDay (zone.localtime (toTimeT tp))

theorem timeOfDay_utcTm_iff (s t : Int) :
    timeOfDay (utcTm s) = timeOfDay (utcTm t) ↔ s % 86400 = t % 86400 := by
  simp only [timeOfDay, utcTm, Prod.mk.injEq]
  omega

section Zone
variable {zone : SystemZone} {offset : Int → Int}

theorem localTimeOfDay_eq (follows : FollowsOffset zone offset) (tp : TimePoint) :
    localTimeOfDay zone tp = timeOfDay (utcTm (toTimeT tp + offset (toTimeT tp))) := by
  rw [← follows.clock (toTimeT tp)]
  rfl

theorem weekday_of_followsOffset (follows : FollowsOffset zone offset) (seconds : Int) :
    0 ≤ (zone.localtime seconds).tmWday ∧ (zone.localtime seconds).tmWday ≤ 6 := by
  have clock := congrArg Tm.tmWday (follows.clock seconds)
  simp only [utcTm, Gregorian.weekday] at clock
  omega

/-- Whole days later the clock shows the same time where the offsets agree up to whole days. -/
theorem localTimeOfDay_days_iff (follows : FollowsOffset zone offset) {tp : TimePoint}
    (countable : Countable tp) (days : Nat) :
    localTimeOfDay zone (tp + hours 24 * days) = localTimeOfDay zone tp ↔
      (offset (toTimeT (tp + hours 24 * days)) - offset (toTimeT tp)) % 86400 = 0 := by
  rw [localTimeOfDay_eq follows, localTimeOfDay_eq follows, timeOfDay_utcTm_iff]
  generalize offset (toTimeT (tp + hours 24 * days)) = later
  rw [toTimeT_days countable]
  omega

end Zone

/-! ## The instances of a series -/

section Expanders
variable {zone : SystemZone} {base : ScheduledEvent} {rule : RruleData} {windowStart deadline : TimePoint}
  {exdates : Std.ExtTreeSet Text}

/-- The start is whole days of 24 hours behind the base event. -/
def DaysBehind (base : ScheduledEvent) (instanceStart : TimePoint) : Prop :=
  ∃ days : Nat, instanceStart = base.start + hours 24 * days

theorem dailyStart_daysBehind (forward : 0 ≤ rule.interval) (i : Nat) :
    DaysBehind base (dailyStart base rule i) := by
  obtain ⟨days, count⟩ := Int.eq_ofNat_of_zero_le (Int.mul_nonneg (Int.natCast_nonneg i) forward)
  refine ⟨days, ?_⟩
  rw [dailyStart, Int.mul_assoc, count]

theorem weeklyStart_daysBehind (forward : 0 ≤ rule.interval)
    (weekday : ∀ seconds, 0 ≤ (zone.localtime seconds).tmWday ∧ (zone.localtime seconds).tmWday ≤ 6)
    (week day : Nat) : DaysBehind base (weeklyStart zone base rule week day) := by
  have dow : localDow zone base.start ≤ 7 := by
    have inWeek := weekday (toTimeT base.start)
    simp only [localDow]
    split_ifs <;> omega
  have ahead : 0 ≤ daysAhead zone base day := Int.tmod_nonneg 7 (by omega)
  have weeks : 0 ≤ (week : Int) * 7 * rule.interval :=
    Int.mul_nonneg (Int.mul_nonneg (Int.natCast_nonneg week) (by decide)) forward
  obtain ⟨days, count⟩ := Int.eq_ofNat_of_zero_le (Int.add_nonneg ahead weeks)
  refine ⟨days, ?_⟩
  rw [weeklyStart_eq, count]

theorem daysBehind_of_mem_daily (forward : 0 ≤ rule.interval) {event : ScheduledEvent}
    (member : event ∈ dailyExpand zone base rule windowStart deadline exdates) :
    DaysBehind base event.start := by
  obtain ⟨i, _, emitted⟩ := of_mem_scan member
  simp only [dailyPass] at emitted
  split_ifs at emitted
  cases emitted
  rw [occurrence_start]
  exact dailyStart_daysBehind forward i

theorem daysBehind_of_mem_weekly (forward : 0 ≤ rule.interval)
    (weekday : ∀ seconds, 0 ≤ (zone.localtime seconds).tmWday ∧ (zone.localtime seconds).tmWday ≤ 6)
    {event : ScheduledEvent} (member : event ∈ weeklyExpand zone base rule windowStart deadline exdates) :
    DaysBehind base event.start := by
  obtain ⟨days, inWeeks, inDays⟩ := List.mem_flatten.mp member
  obtain ⟨week, _, weekEmitted⟩ := of_mem_scan inWeeks
  simp only [weeklyPass] at weekEmitted
  split_ifs at weekEmitted
  cases weekEmitted
  obtain ⟨day, _, emitted⟩ := of_mem_scan inDays
  simp only [weeklyDay] at emitted
  split_ifs at emitted
  cases emitted
  rw [occurrence_start]
  exact weeklyStart_daysBehind forward weekday week day

theorem daysBehind_of_mem_expand (weekday : ∀ seconds, 0 ≤ (zone.localtime seconds).tmWday ∧
      (zone.localtime seconds).tmWday ≤ 6) (forward : 0 ≤ rule.interval)
    (freq : rule.freq = .daily ∨ rule.freq = .weekly) {event : ScheduledEvent}
    (member : event ∈ expand zone base rule windowStart deadline exdates) : DaysBehind base event.start := by
  rcases freq with daily | weekly
  · simp only [expand, daily] at member
    exact daysBehind_of_mem_daily forward member
  · simp only [expand, weekly] at member
    exact daysBehind_of_mem_weekly forward weekday member

/-- An instance of a daily or weekly series starts, where no integer of it overflows, whole days of 24
hours behind the base event, and at the base event's local time of day exactly where the two UTC
offsets agree up to whole days. -/
theorem instance_timeOfDay_iff {p : Platform} {offset : Int → Int} (follows : FollowsOffset zone offset)
    (countable : Countable base.start) (forward : 0 ≤ rule.interval)
    (freq : rule.freq = .daily ∨ rule.freq = .weekly)
    (fits : SeriesFits p zone base rule windowStart deadline exdates) {event : ScheduledEvent}
    (member : event ∈ expandOn p zone (p.event base) (p.rule rule) (p.point windowStart) (p.point deadline) exdates) :
    (∃ days : Nat, event.start = p.point (base.start + hours 24 * days)) ∧
      (localTimeOfDay zone (p.second event.start) = localTimeOfDay zone base.start ↔
        (offset (p.toTimeT event.start) - offset (toTimeT base.start)) % 86400 = 0) := by
  rw [expandOn_point fits] at member
  obtain ⟨exact, inside, rfl⟩ := List.mem_map.mp member
  have behind := daysBehind_of_mem_expand (weekday_of_followsOffset follows) forward freq inside
  obtain ⟨days, start⟩ := behind
  have clock : localTimeOfDay zone (p.second (p.point exact.start)) = localTimeOfDay zone exact.start := by
    rw [second_point, localTimeOfDay, toTimeT_fromTimeT, localTimeOfDay]
  rw [event_start, clock, Platform.toTimeT_point, start]
  exact ⟨⟨days, rfl⟩, localTimeOfDay_days_iff follows countable days⟩

end Expanders

/-! ## A zone that leaves summer time -/

/-- Two hours ahead of UTC, and one hour from 2026-10-25 at one in UTC on. -/
def autumnOffset (seconds : Int) : Int := if seconds < 1792890000 then 7200 else 3600

def autumnZone : SystemZone where
  mktime tm := utcSeconds tm - autumnOffset (utcSeconds tm - 3600)
  mkgmtime tm := utcSeconds tm
  localtime seconds := utcTm (seconds + autumnOffset seconds)

theorem autumnZone_followsOffset : FollowsOffset autumnZone autumnOffset := ⟨fun _ => rfl⟩

/-- The Saturday before the change, at ten in summer time. -/
def saturday : ScheduledEvent := { start := fromTimeT 1792828800, end_ := fromTimeT 1792832400 }

def sunday : ScheduledEvent := occurrence saturday (fromTimeT 1792915200)

theorem instance_timeOfDay_iff_sunday :
    (∃ days : Nat, (Platform.event .msvc sunday).start = Platform.point .msvc (saturday.start + hours 24 * days)) ∧
      (localTimeOfDay autumnZone (Platform.second .msvc (Platform.event .msvc sunday).start) =
          localTimeOfDay autumnZone saturday.start ↔
        (autumnOffset (Platform.toTimeT .msvc (Platform.event .msvc sunday).start) -
          autumnOffset (toTimeT saturday.start)) % 86400 = 0) :=
  instance_timeOfDay_iff autumnZone_followsOffset (.inl (by decide)) (by decide) (.inl rfl)
    (show SeriesFits .msvc autumnZone saturday {} saturday.start (saturday.start + hours 48) ∅ by decide +kernel)
    (by decide +kernel)

/-- The instance of Sunday is at nine by the clock. -/
theorem clock_moves_in_autumn : ¬∀ (p : Platform) (zone : SystemZone) (offset : Int → Int) (base : ScheduledEvent)
    (rule : RruleData) (windowStart deadline : TimePoint) (exdates : Std.ExtTreeSet Text),
    FollowsOffset zone offset → Countable base.start → 0 ≤ rule.interval →
    rule.freq = .daily ∨ rule.freq = .weekly → SeriesFits p zone base rule windowStart deadline exdates →
    ∀ event ∈ expandOn p zone (p.event base) (p.rule rule) (p.point windowStart) (p.point deadline) exdates,
      localTimeOfDay zone (p.second event.start) = localTimeOfDay zone base.start := by
  intro always
  have same := always .msvc autumnZone autumnOffset saturday {} saturday.start (saturday.start + hours 48) ∅
    autumnZone_followsOffset (.inl (by decide)) (by decide) (.inl rfl) (by decide +kernel)
    (Platform.event .msvc sunday) (by decide +kernel)
  exact absurd same (by decide +kernel)

end DivoomDev.Ics.LocalTime
