import DivoomDev.Ics.Expansion
import DivoomDev.Ics.Instants

/-! The days that a monthly series falls on in a zone with a fixed offset. Its instances are
set to midnight. -/

namespace DivoomDev.Ics.Months
open DivoomDev.Library DivoomDev.Library.Bytes DivoomDev.Library.Loop Models Datetime Recurrence Clocks
  ClockArithmetic Series Expansion Instants

/-- The local date of a time point. -/
def localDate (offset : Int) (tp : TimePoint) : Gregorian.Date := Gregorian.dateOf (localDay offset tp)

def midnight (offset : Int) (day : Int) : TimePoint := fromTimeT (day * 86400 - offset)

/-- The local key that midnight of a date has. -/
def midnightKey (date : Gregorian.Date) : Text := strftime 16 (wallTm ⟨date, 0, 0, 0⟩)

example : midnightKey ⟨2026, 1, 31⟩ = text "20260131T000000" := by decide

theorem localDay_midnight (offset day : Int) : localDay offset (midnight offset day) = day := by
  rw [localDay, midnight, toTimeT_fromTimeT]
  omega

section Fixed
variable {offset : Int} {base : ScheduledEvent} {rule : RruleData} {deadline : TimePoint}
  {exdates : Std.ExtTreeSet Text}

/-- The month of the i-th pass, counted from January of the year zero. -/
def monthIndex (offset : Int) (base : ScheduledEvent) (rule : RruleData) (i : Nat) : Int :=
  12 * (localDate offset base.start).year + ((localDate offset base.start).month - 1) + i * rule.interval

theorem daysFromCivil_monthStart (year month0 day : Int) :
    Gregorian.daysFromCivil (year + month0 / 12) (month0 % 12 + 1) day =
      Gregorian.monthStart (12 * year + month0) + (day - 1) := by
  have sameYear : (12 * year + month0) / 12 = year + month0 / 12 := by omega
  have sameMonth : (12 * year + month0) % 12 = month0 % 12 := by omega
  rw [Gregorian.daysFromCivil_day, Gregorian.monthStart, sameYear, sameMonth]

theorem monthlyTime_fixed (i : Nat) :
    fromTimeT (monthlyTime (.fixed offset) base rule i) = midnight offset
      (Gregorian.monthStart (monthIndex offset base rule i) + ((localDate offset base.start).day - 1)) := by
  have index : 12 * (localDate offset base.start).year + ((localDate offset base.start).month - 1 +
      i * rule.interval) = monthIndex offset base rule i := by
    rw [monthIndex]
    ring
  rw [midnight, ← index, ← daysFromCivil_monthStart]
  simp only [monthlyTime, SystemZone.fixed, utcSeconds, utcTm, Gregorian.wallSeconds, localDate, localDay,
    Gregorian.dateOf, Int.sub_add_cancel, Int.zero_mul, Int.add_zero]

theorem strftime_midnight (offset day : Int) :
    strftime 16 ((SystemZone.fixed offset).localtime (toTimeT (midnight offset day))) =
      midnightKey (Gregorian.dateOf day) := by
  have seconds : toTimeT (midnight offset day) + offset = day * 86400 := by
    rw [midnight, toTimeT_fromTimeT]
    omega
  simp only [SystemZone.fixed, seconds, midnightKey, utcTm, wallTm, strftime, strftimeKey, Gregorian.dateOf]
  simp

theorem emitted_monthly {event : ScheduledEvent}
    (member : event ∈ monthlyExpand (.fixed offset) base rule deadline exdates) :
    ∃ i < 24, event = occurrence base (fromTimeT (monthlyTime (.fixed offset) base rule i)) ∧
      isExcluded (.fixed offset) (fromTimeT (monthlyTime (.fixed offset) base rule i)) exdates = false := by
  obtain ⟨i, bound, emitted⟩ := of_mem_scan member
  simp only [monthlyPass] at emitted
  split_ifs at emitted with _ _ _ excluded
  cases emitted
  exact ⟨i, List.mem_range.mp bound, rfl, by simpa using excluded⟩

theorem localDate_valid (offset : Int) (tp : TimePoint) : (localDate offset tp).Valid :=
  Gregorian.dateOf_valid _

theorem localDate_days (offset : Int) (tp : TimePoint) : (localDate offset tp).days = localDay offset tp :=
  Gregorian.daysFromCivil_civilFromDays _

/-- No pass comes to a day before that of DTSTART. -/
theorem localDay_le_monthly (steps : 0 ≤ rule.interval) (i : Nat) :
    localDay offset base.start ≤
      Gregorian.monthStart (monthIndex offset base rule i) + ((localDate offset base.start).day - 1) := by
  have valid := localDate_valid offset base.start
  have first : monthIndex offset base rule 0 ≤ monthIndex offset base rule i := by
    have months : 0 ≤ (i : Int) * rule.interval := Int.mul_nonneg (by omega) steps
    simp only [monthIndex]
    omega
  have begins : localDay offset base.start =
      Gregorian.monthStart (monthIndex offset base rule 0) + ((localDate offset base.start).day - 1) := by
    rw [← localDate_days, Gregorian.days_eq_monthStart valid.month, monthIndex]
    simp
  calc localDay offset base.start =
        Gregorian.monthStart (monthIndex offset base rule 0) + ((localDate offset base.start).day - 1) := begins
    _ ≤ Gregorian.monthStart (monthIndex offset base rule i) + ((localDate offset base.start).day - 1) :=
      Int.add_le_add_right (Gregorian.monthStart_mono first) _

/-- Each instance of a monthly series is midnight of a day that is not before that of DTSTART
and that no EXDATE names at midnight; in a month that has the day of DTSTART it is this day. -/
theorem monthlyExpand_days (steps : 1 ≤ rule.interval) :
    ∀ event ∈ monthlyExpand (.fixed offset) base rule deadline exdates,
      event.start = midnight offset (localDay offset event.start) ∧
      localDay offset base.start ≤ localDay offset event.start ∧
      midnightKey (localDate offset event.start) ∉ exdates ∧
      ∃ i < 24, event.start = fromTimeT (monthlyTime (.fixed offset) base rule i) ∧
        ((localDate offset base.start).day ≤ Gregorian.daysInMonth
            (monthIndex offset base rule i / 12) (monthIndex offset base rule i % 12 + 1) →
          localDate offset event.start = ⟨monthIndex offset base rule i / 12,
            monthIndex offset base rule i % 12 + 1, (localDate offset base.start).day⟩) := by
  intro event member
  obtain ⟨i, bound, rfl, included⟩ := emitted_monthly member
  rw [monthlyTime_fixed, isExcluded, strftime_midnight] at included
  rw [occurrence_start, localDate, monthlyTime_fixed, localDay_midnight]
  have free : midnightKey (Gregorian.dateOf (Gregorian.monthStart (monthIndex offset base rule i) +
      ((localDate offset base.start).day - 1))) ∉ exdates := by
    rw [← Std.ExtTreeSet.contains_iff_mem, included]
    exact Bool.false_ne_true
  refine ⟨rfl, localDay_le_monthly (by omega) i, free, i, bound, monthlyTime_fixed i |>.symm, ?_⟩
  intro has
  generalize monthIndex offset base rule i = index at *
  have day := (localDate_valid offset base.start).day.1
  have valid : Gregorian.Date.Valid ⟨index / 12, index % 12 + 1, (localDate offset base.start).day⟩ :=
    ⟨⟨by dsimp only; omega, by dsimp only; omega⟩, day, has⟩
  have number : Gregorian.monthStart index + ((localDate offset base.start).day - 1) =
      Gregorian.Date.days ⟨index / 12, index % 12 + 1, (localDate offset base.start).day⟩ := by
    rw [Gregorian.Date.days, Gregorian.daysFromCivil_day, Gregorian.monthStart]
  rw [number, Gregorian.dateOf_days valid]

/-- While no integer of a monthly series overflows, this holds of the instances on the clock. -/
theorem monthlyExpandOn_days {p : Platform} {windowStart : TimePoint} (monthly : rule.freq = .monthly)
    (steps : 1 ≤ rule.interval) (fits : SeriesFits p (.fixed offset) base rule windowStart deadline exdates) :
    ∀ event ∈ monthlyExpandOn p (.fixed offset) (p.event base) (p.rule rule) (p.point deadline) exdates,
      event.start = p.point (midnight offset (localDay offset (p.second event.start))) ∧
      localDay offset base.start ≤ localDay offset (p.second event.start) ∧
      midnightKey (localDate offset (p.second event.start)) ∉ exdates ∧
      ∃ i < 24, event.start = p.ofTimeT (monthlyTime (.fixed offset) base rule i) ∧
        ((localDate offset base.start).day ≤ Gregorian.daysInMonth
            (monthIndex offset base rule i / 12) (monthIndex offset base rule i % 12 + 1) →
          localDate offset (p.second event.start) = ⟨monthIndex offset base rule i / 12,
            monthIndex offset base rule i % 12 + 1, (localDate offset base.start).day⟩) := by
  rw [monthlyExpandOn_point fits monthly, List.forall_mem_map]
  intro event member
  obtain ⟨atMidnight, notBefore, free, i, bound, start, day⟩ := monthlyExpand_days steps event member
  simp only [event_start, localDate, localDay_point] at day ⊢
  exact ⟨congrArg p.point atMidnight, notBefore, free, i, bound, congrArg p.point start, day⟩

end Fixed

/-- The last of January at ten in UTC, for an hour. -/
def january31 : ScheduledEvent := { start := fromTimeT 1769853600, end_ := fromTimeT 1769857200 }

def everyMonth : RruleData := { freq := .monthly }

theorem monthlyExpandOn_days_march :
    let event := Platform.event .msvc (occurrence january31 (fromTimeT 1774915200))
    event.start = Platform.point .msvc (midnight 0 (localDay 0 (Platform.second .msvc event.start))) ∧
      midnightKey (localDate 0 (Platform.second .msvc event.start)) ∉ (∅ : Std.ExtTreeSet Text) := by
  have fits : SeriesFits .msvc (.fixed 0) january31 everyMonth january31.start (january31.start + hours 2208) ∅ := by
    decide +kernel
  obtain ⟨atMidnight, _, free, _⟩ := monthlyExpandOn_days rfl (by decide) fits
    (Platform.event .msvc (occurrence january31 (fromTimeT 1774915200))) (by decide +kernel)
  exact ⟨atMidnight, free⟩

/-- A date with the time of day of DTSTART, as a local key. -/
def dtstartKey (offset : Int) (base : ScheduledEvent) (date : Gregorian.Date) : Text :=
  strftime 16 { (SystemZone.fixed offset).localtime (toTimeT base.start) with
    tmYear := date.year - 1900, tmMon := date.month - 1, tmMday := date.day }

/-- The first instance is in front of DTSTART and on the date that the EXDATE names, and the
second one has rolled over into March. -/
theorem monthly_off_dtstart :
    let exdates := (∅ : Std.ExtTreeSet Text).insert (text "20260131T100000")
    let expanded := monthlyExpandOn .msvc (.fixed 0) (Platform.event .msvc january31) (Platform.rule .msvc everyMonth)
      (Platform.point .msvc (january31.start + hours 2208)) exdates
    (∃ event ∈ expanded,
        (localDate 0 (Platform.second .msvc event.start)).day ≠ (localDate 0 january31.start).day) ∧
      (∃ event ∈ expanded, event.start < Platform.point .msvc january31.start) ∧
      ∃ event ∈ expanded, dtstartKey 0 january31 (localDate 0 (Platform.second .msvc event.start)) ∈ exdates := by
  decide +kernel

end DivoomDev.Ics.Months
