import DivoomDev.Ics.ClockArithmetic
import DivoomDev.Ics.Expansion

/-! When the integers that the expanders of a series compute fit their types. Each loop steps
forward, so what its last pass computes decides it. -/

namespace DivoomDev.Ics.IntegerRanges
open DivoomDev.Library DivoomDev.Library.Bytes DivoomDev.Library.Loop Models Datetime Recurrence Clocks
  Series Properties ExactIntegers ClockArithmetic

/-! ## What fits -/

section Fits
variable {p : Platform} {base : ScheduledEvent} {rule : RruleData}

theorem duration_fits (dated : p.DatedEvent base) : (⟨64, duration base⟩ : Computed).Fits := by
  obtain ⟨⟨startFrom, _, startHeld⟩, ⟨endFrom, _, endHeld⟩⟩ := dated
  have positive : 0 ≤ p.ofTimeT 31536000 := by cases p <;> decide
  simp only [Computed.Fits, duration]
  omega

theorem start_nonneg (dated : p.DatedEvent base) : (0 : Int) ≤ base.start := by
  have epoch : 0 ≤ p.ofTimeT 31536000 := by cases p <;> decide
  exact epoch.trans dated.start.from1971

/-- An instance that starts no more than four days in front of the base event ends in range
exactly where its end is not too late for the clock. -/
theorem endOf_fits_iff (dated : p.DatedEvent base) {instant : Int}
    (near : 0 ≤ instant - base.start + p.ofTimeT (4 * 86400)) :
    (endOf base instant).Fits ↔ instant + duration base < 2 ^ 63 := by
  obtain ⟨_, ⟨endFrom, _, _⟩⟩ := dated
  have positive : p.ofTimeT (4 * 86400) ≤ p.ofTimeT 31536000 := by cases p <;> decide
  simp only [Computed.Fits, endOf, duration]
  omega

theorem endOf_fits_iff_of_le (dated : p.DatedEvent base) {instant : Int} (le : base.start ≤ instant) :
    (endOf base instant).Fits ↔ instant + duration base < 2 ^ 63 := by
  have four : 0 ≤ p.ofTimeT (4 * 86400) := by cases p <;> decide
  exact endOf_fits_iff dated (Int.add_nonneg (Int.sub_nonneg.mpr le) four)

theorem ticks_eq (count : Int) : p.ticks count = p.ticks 1 * count := by
  simp only [Platform.ticks, hours]
  ring

theorem ticks_one : p.ticks 1 = 36000000000 * p.perTick := by
  simp only [Platform.ticks, hours, ticksPerSecond]
  rfl

/-- A sum of a time point and hours that the clock can hold leaves no hours that do not fit. -/
theorem ticks_fit {start count : Int} (positive : 0 ≤ start) (forward : 0 ≤ count)
    (held : start + p.ticks count < 2 ^ 63) :
    (⟨p.hoursWidth, count⟩ : Computed).Fits ∧ (⟨64, p.ticks count⟩ : Computed).Fits ∧
      (⟨64, start + p.ticks count⟩ : Computed).Fits ∧ count < 2 ^ 28 := by
  rw [ticks_eq, ticks_one] at *
  cases p <;> simp only [Computed.Fits, Platform.perTick, Platform.hoursWidth] at * <;> omega

end Fits

/-! ## Daily series -/

section Conditions
variable (p : Platform) (zone : SystemZone) (base : ScheduledEvent) (rule : RruleData)
  (windowStart deadline : Int) (exdates : Std.ExtTreeSet Text)

/-- The instant is in the window, not behind UNTIL and no EXDATE. -/
def Due (instant : Int) : Prop :=
  windowStart ≤ instant ∧ instant ≤ deadline ∧ ¬pastUntil rule instant ∧
    isExcluded zone (p.second instant) exdates = false

/-- The last instant behind which the daily loop goes on: in front of the window it skips, and in
the window it looks at the deadline and at UNTIL. -/
def dailyLine : Int :=
  max (windowStart - 1) (if rule.until_ = 0 then deadline else min deadline rule.until_)

/-- The clock can hold the last start that the loop comes to, and the end of each instance. -/
def DailyInRange : Prop :=
  base.start + p.ticks (24 * rule.interval) *
      lastPass 364 base.start (p.ticks (24 * rule.interval)) (dailyLine rule windowStart deadline) < 2 ^ 63 ∧
    ∀ i < 365, Due p zone rule windowStart deadline exdates (dailyAt p base rule i) →
      dailyAt p base rule i + duration base < 2 ^ 63

/-- The clock can hold the last anchor that the loop comes to, and the starts and ends that are
computed in the weeks whose anchor is not behind the deadline. -/
def WeeklyInRange : Prop :=
  base.start + p.ticks (168 * rule.interval) *
      lastPass 519 base.start (p.ticks (168 * rule.interval)) deadline < 2 ^ 63 ∧
    ∀ week < 520, anchorAt p base rule week ≤ deadline → ∀ day ∈ weeklyDays zone (p.atSecond base) rule,
      dayAt p zone base rule week day < 2 ^ 63 ∧
      (Due p zone rule windowStart deadline exdates (dayAt p zone base rule week day) →
        dayAt p zone base rule week day + duration base < 2 ^ 63)

/-- The midnight of the month is behind the deadline or UNTIL. -/
def MonthBreaks (i : Nat) : Prop :=
  monthTime p zone base rule i ≠ -1 ∧ (deadline < p.ofTimeT (monthTime p zone base rule i) ∨
    pastUntil rule (p.ofTimeT (monthTime p zone base rule i)))

/-- The number of the last month that the loop comes to is an `int`, and the clock can hold its
midnight and the end of each instance. -/
def MonthlyInRange : Prop :=
  (∀ n < 24, (∀ j < n, ¬MonthBreaks p zone base rule deadline j) →
      MonthBreaks p zone base rule deadline n ∨ n = 23 →
      monthNumber p zone base rule n < 2 ^ 31 ∧
        (monthTime p zone base rule n ≠ -1 → p.ofTimeT (monthTime p zone base rule n) < 2 ^ 63)) ∧
    ∀ i < 24, (∀ j ≤ i, ¬MonthBreaks p zone base rule deadline j) → monthTime p zone base rule i ≠ -1 →
      isExcluded zone (p.second (p.ofTimeT (monthTime p zone base rule i))) exdates = false →
      p.ofTimeT (monthTime p zone base rule i) + duration base < 2 ^ 63

def InRange : Prop :=
  match rule.freq with
  | .daily => DailyInRange p zone base rule windowStart deadline exdates
  | .weekly => WeeklyInRange p zone base rule windowStart deadline exdates
  | .monthly => MonthlyInRange p zone base rule deadline exdates
  | .yearly => True

end Conditions

section Checks
variable {p : Platform} {zone : SystemZone} {base : ScheduledEvent} {rule : RruleData}
  {windowStart deadline : Int} {exdates : Std.ExtTreeSet Text}

/-- The checks that the daily and the weekly expander make of an instant leave its end out where it
is not due. -/
theorem mem_checks (instant : Int) (offsets : List Computed) (c : Computed) :
    c ∈ (if instant < windowStart then offsets
        else if deadline < instant then offsets
        else if pastUntil rule instant then offsets
        else if isExcluded zone (p.second instant) exdates then offsets
        else offsets ++ [endOf base instant]) ↔
      c ∈ offsets ∨ (Due p zone rule windowStart deadline exdates instant ∧ c = endOf base instant) := by
  simp only [Due]
  split_ifs with before behind past excluded
  · simp [before]
  · simp [behind]
  · simp [past]
  · simp [excluded]
  · simp [not_lt.mp before, not_lt.mp behind, past, excluded]

end Checks

section Daily
variable {p : Platform} {zone : SystemZone} {base : ScheduledEvent} {rule : RruleData}
  {windowStart deadline : Int} {exdates : Std.ExtTreeSet Text}

theorem mem_dailyIntegers (i : Nat) (c : Computed) :
    c ∈ (dailyIntegers p zone base rule windowStart deadline exdates i).1 ↔
      c ∈ dailyOffsets p base rule i ∨
        (Due p zone rule windowStart deadline exdates (dailyAt p base rule i) ∧
          c = endOf base (dailyAt p base rule i)) := by
  simp only [dailyIntegers, apply_ite Prod.fst]
  exact mem_checks (dailyAt p base rule i) (dailyOffsets p base rule i) c

theorem le_dailyLine_iff (instant : Int) : instant ≤ dailyLine rule windowStart deadline ↔
    instant < windowStart ∨ (instant ≤ deadline ∧ ¬pastUntil rule instant) := by
  simp only [dailyLine, pastUntil, le_max_iff, Int.le_sub_one_iff]
  split_ifs with none
  · simp [none]
  · simp [none, not_lt]

theorem dailyIntegers_goesOn (i : Nat) :
    (dailyIntegers p zone base rule windowStart deadline exdates i).2 = false ↔
      dailyAt p base rule i ≤ dailyLine rule windowStart deadline := by
  rw [le_dailyLine_iff]
  simp only [dailyIntegers]
  split_ifs with before behind past excluded
  · simp [before]
  · simp [before, behind]
  · simp [before, past]
  · simp [not_lt.mp behind, past]
  · simp [not_lt.mp behind, past]

theorem dailyAt_eq (i : Nat) :
    dailyAt p base rule i = base.start + p.ticks (24 * rule.interval) * i := by
  rw [dailyAt, ticks_eq, ticks_eq (24 * rule.interval)]
  ring

theorem ticks_nonneg {count : Int} (forward : 0 ≤ count) : 0 ≤ p.ticks count := by
  rw [ticks_eq, ticks_one]
  cases p <;> simp only [Platform.perTick] <;> omega

theorem dailyAt_mono (forward : 0 ≤ rule.interval) {i j : Nat} (le : i ≤ j) :
    dailyAt p base rule i ≤ dailyAt p base rule j := by
  rw [dailyAt_eq, dailyAt_eq]
  have later : p.ticks (24 * rule.interval) * (i : Int) ≤ p.ticks (24 * rule.interval) * j :=
    Int.mul_le_mul_of_nonneg_left (by omega) (ticks_nonneg (by omega))
  exact Int.add_le_add_left later _

theorem start_le_dailyAt (forward : 0 ≤ rule.interval) (i : Nat) : base.start ≤ dailyAt p base rule i := by
  have steps : 0 ≤ p.ticks (24 * rule.interval) * (i : Int) :=
    Int.mul_nonneg (ticks_nonneg (by omega)) (by omega)
  rw [dailyAt_eq]
  exact Int.le_add_of_nonneg_right steps

theorem dailyOffsets_fit_iff (dated : p.DatedEvent base) (forward : 0 ≤ rule.interval) {i : Nat}
    (inLoop : i < 365) :
    (∀ c ∈ dailyOffsets p base rule i, c.Fits) ↔ dailyAt p base rule i < 2 ^ 63 := by
  have positive := start_nonneg dated
  have count : 0 ≤ 24 * (i : Int) * rule.interval := Int.mul_nonneg (by omega) forward
  apply Iff.intro
  · intro fit
    exact (fit ⟨64, dailyAt p base rule i⟩ (by simp [dailyOffsets])).2
  · intro held c member
    obtain ⟨hoursFit, ticksFit, startFit, _⟩ := ticks_fit positive count held
    simp only [dailyOffsets, List.mem_cons, List.not_mem_nil, or_false] at member
    rcases member with rfl | rfl | rfl | rfl
    · cases p <;> simp only [Computed.Fits, Platform.hoursWidth] <;> omega
    · exact hoursFit
    · exact ticksFit
    · exact startFit

/-- The integers of the daily expander fit exactly where the last start it comes to does, and the
end of each instance. -/
theorem daily_fit_iff (dated : p.DatedEvent base) (forward : 0 ≤ rule.interval) :
    (∀ c ∈ collect (dailyIntegers p zone base rule windowStart deadline exdates) (List.range 365), c.Fits) ↔
      DailyInRange p zone base rule windowStart deadline exdates := by
  have ends (i : Nat) : (endOf base (dailyAt p base rule i)).Fits ↔
      dailyAt p base rule i + duration base < 2 ^ 63 :=
    endOf_fits_iff_of_le dated (start_le_dailyAt forward i)
  have step : 0 ≤ p.ticks (24 * rule.interval) := ticks_nonneg (by omega)
  rw [forall_mem_collect_range, DailyInRange, ← Int.le_sub_one_iff, ← reached_le_iff step 364]
  simp only [← dailyAt_eq, Int.le_sub_one_iff]
  simp only [dailyIntegers_goesOn, mem_dailyIntegers]
  apply Iff.intro
  · intro fit
    apply And.intro
    · intro i inLoop reached
      exact (dailyOffsets_fit_iff dated forward inLoop).mp
        (fun c member => fit i inLoop reached c (.inl member))
    · intro i inLoop due
      have reached : ∀ j < i, dailyAt p base rule j ≤ dailyLine rule windowStart deadline := by
        intro j before
        apply (dailyAt_mono forward before.le).trans
        exact (le_dailyLine_iff _).mpr (.inr ⟨due.2.1, due.2.2.1⟩)
      exact (ends i).mp (fit i inLoop reached _ (.inr ⟨due, rfl⟩))
  · intro given i inLoop reached c member
    rcases member with offset | ⟨due, rfl⟩
    · exact (dailyOffsets_fit_iff dated forward inLoop).mpr (given.1 i inLoop reached) c offset
    · exact (ends i).mpr (given.2 i inLoop due)

/-- An instant of the window leaves room for the duration of the base event, where a tick is
100 ns. -/
theorem end_held_msvc (dated : Platform.DatedEvent .msvc base) (window : Platform.DatedWindow .msvc windowStart deadline)
    {instant : Int} (inTime : instant ≤ deadline) : instant + duration base < 2 ^ 63 := by
  have late := window.deadline.to2999
  have lateEnd := dated.end_.to2999
  have positive := start_nonneg dated
  have years : Platform.ofTimeT .msvc 32503680000 ≤ 2 ^ 60 := by decide
  simp only [duration]
  omega

/-- Where a tick is 100 ns, the last start that the loop comes to decides alone. -/
theorem dailyInRange_msvc (dated : Platform.DatedEvent .msvc base)
    (window : Platform.DatedWindow .msvc windowStart deadline) :
    DailyInRange .msvc zone base rule windowStart deadline exdates ↔
      base.start + hours (24 * rule.interval) * lastPass 364 base.start (hours (24 * rule.interval))
        (dailyLine rule windowStart deadline) < 2 ^ 63 := by
  rw [DailyInRange, Platform.ticks_msvc]
  exact ⟨fun given => given.1, fun held => ⟨held, fun i _ due => end_held_msvc dated window due.2.1⟩⟩

end Daily

/-! ## Weekly series -/

section Weekly
variable {p : Platform} {zone : SystemZone} {base : ScheduledEvent} {rule : RruleData}
  {windowStart deadline : Int} {exdates : Std.ExtTreeSet Text}

theorem mem_dayIntegers (week day : Nat) (c : Computed) :
    c ∈ dayIntegers p zone base rule windowStart deadline exdates week day ↔
      c ∈ dayOffsets p zone base rule week day ∨
        (Due p zone rule windowStart deadline exdates (dayAt p zone base rule week day) ∧
          c = endOf base (dayAt p zone base rule week day)) :=
  mem_checks (dayAt p zone base rule week day) (dayOffsets p zone base rule week day) c

theorem weekOffset_nonneg (forward : 0 ≤ rule.interval) (week : Nat) : 0 ≤ weekOffset rule week :=
  Int.mul_nonneg (Int.mul_nonneg (Int.natCast_nonneg week) (by decide)) forward

theorem anchorAt_eq (week : Nat) :
    anchorAt p base rule week = base.start + p.ticks (168 * rule.interval) * week := by
  rw [anchorAt, ticks_eq, ticks_eq (168 * rule.interval), weekOffset]
  ring

theorem anchorOffsets_fit_iff (dated : p.DatedEvent base) (forward : 0 ≤ rule.interval) {week : Nat}
    (inLoop : week < 520) :
    (∀ c ∈ anchorOffsets p base rule week, c.Fits) ↔ anchorAt p base rule week < 2 ^ 63 := by
  have weeks := weekOffset_nonneg forward week
  apply Iff.intro
  · intro fit
    exact (fit ⟨64, anchorAt p base rule week⟩ (by simp [anchorOffsets])).2
  · intro held
    obtain ⟨_, ticksFit, anchorFit, few⟩ :=
      ticks_fit (start_nonneg dated) (show 0 ≤ 24 * weekOffset rule week by omega) held
    have counts : (⟨64, week * 7⟩ : Computed).Fits ∧ (⟨64, weekOffset rule week⟩ : Computed).Fits ∧
        (⟨64, 24 * weekOffset rule week⟩ : Computed).Fits := by
      simp only [Computed.Fits]
      omega
    simpa only [anchorOffsets, List.forall_mem_cons, List.not_mem_nil, false_imp_iff, implies_true, and_true]
      using ⟨counts.1, counts.2.1, counts.2.2, ticksFit, anchorFit⟩

theorem dayOffsets_fit_iff (dated : p.DatedEvent base) (sound : zone.Sound) (forward : 0 ≤ rule.interval)
    (week : Nat) {day : Nat} (inWeek : 1 ≤ day ∧ day ≤ 7) :
    (∀ c ∈ dayOffsets p zone base rule week day, c.Fits) ↔ dayAt p zone base rule week day < 2 ^ 63 := by
  have weeks := weekOffset_nonneg forward week
  have dow := localDow_bounds sound (p.second base.start)
  have inSix : 0 ≤ ahead p zone base day ∧ ahead p zone base day ≤ 6 := daysAhead_bounds sound day
  apply Iff.intro
  · intro fit
    exact (fit ⟨64, dayAt p zone base rule week day⟩ (by simp [dayOffsets])).2
  · intro held
    obtain ⟨_, ticksFit, startFit, few⟩ := ticks_fit (start_nonneg dated)
      (show 0 ≤ 24 * (ahead p zone base day + weekOffset rule week) by omega) held
    have days : (⟨32, day - localDow zone (p.second base.start)⟩ : Computed).Fits ∧
        (⟨32, day - localDow zone (p.second base.start) + 7⟩ : Computed).Fits ∧
        (⟨32, ahead p zone base day⟩ : Computed).Fits := by
      simp only [Computed.Fits]
      omega
    have counts : (⟨64, ahead p zone base day + weekOffset rule week⟩ : Computed).Fits ∧
        (⟨64, 24 * (ahead p zone base day + weekOffset rule week)⟩ : Computed).Fits := by
      simp only [Computed.Fits]
      omega
    simpa only [dayOffsets, List.forall_mem_cons, List.not_mem_nil, false_imp_iff, implies_true, and_true]
      using ⟨days.1, days.2.1, days.2.2, counts.1, counts.2, ticksFit, startFit⟩

theorem start_le_dayAt (sound : zone.Sound) (forward : 0 ≤ rule.interval) (week day : Nat) :
    base.start ≤ dayAt p zone base rule week day := by
  have weeks := weekOffset_nonneg forward week
  have inSix : 0 ≤ ahead p zone base day ∧ ahead p zone base day ≤ 6 := daysAhead_bounds sound day
  exact Int.le_add_of_nonneg_right (ticks_nonneg (by omega))

theorem weekIntegers_goesOn (week : Nat) :
    (weekIntegers p zone base rule windowStart deadline exdates week).2 = false ↔
      anchorAt p base rule week ≤ deadline := by
  simp only [weekIntegers]
  split_ifs with behind
  · simp [behind]
  · simp [not_lt.mp behind]

theorem mem_weekIntegers (week : Nat) (c : Computed) :
    c ∈ (weekIntegers p zone base rule windowStart deadline exdates week).1 ↔
      c ∈ anchorOffsets p base rule week ∨ (anchorAt p base rule week ≤ deadline ∧
        ∃ day ∈ weeklyDays zone (p.atSecond base) rule,
          c ∈ dayIntegers p zone base rule windowStart deadline exdates week day) := by
  simp only [weekIntegers]
  split_ifs with behind
  · simp [behind]
  · simp [not_lt.mp behind]

/-- The integers of one day of the inner loop. -/
theorem dayIntegers_fit_iff (dated : p.DatedEvent base) (sound : zone.Sound) (forward : 0 ≤ rule.interval)
    (week : Nat) {day : Nat} (inWeek : 1 ≤ day ∧ day ≤ 7) :
    (∀ c ∈ dayIntegers p zone base rule windowStart deadline exdates week day, c.Fits) ↔
      dayAt p zone base rule week day < 2 ^ 63 ∧
      (Due p zone rule windowStart deadline exdates (dayAt p zone base rule week day) →
        dayAt p zone base rule week day + duration base < 2 ^ 63) := by
  have ends : (endOf base (dayAt p zone base rule week day)).Fits ↔
      dayAt p zone base rule week day + duration base < 2 ^ 63 :=
    endOf_fits_iff_of_le dated (start_le_dayAt sound forward week day)
  rw [← dayOffsets_fit_iff dated sound forward week inWeek, ← ends]
  simp only [mem_dayIntegers]
  apply Iff.intro
  · intro fit
    exact ⟨fun c offset => fit c (.inl offset), fun due => fit _ (.inr ⟨due, rfl⟩)⟩
  · intro given c member
    rcases member with offset | ⟨due, rfl⟩
    · exact given.1 c offset
    · exact given.2 due

theorem weekly_fit_iff (dated : p.DatedEvent base) (sound : zone.Sound) (rules : RuleSound rule) :
    (∀ c ∈ collect (weekIntegers p zone base rule windowStart deadline exdates) (List.range 520), c.Fits) ↔
      WeeklyInRange p zone base rule windowStart deadline exdates := by
  have forward := rules.forward
  have step : 0 ≤ p.ticks (168 * rule.interval) := ticks_nonneg (by omega)
  have inWeek {day : Nat} (member : day ∈ weeklyDays zone (p.atSecond base) rule) : 1 ≤ day ∧ day ≤ 7 :=
    (weeklyDays_inWeek sound rules.days).2 day member
  have earlier {week j : Nat} (before : j ≤ week) : anchorAt p base rule j ≤ anchorAt p base rule week := by
    rw [anchorAt_eq, anchorAt_eq]
    exact Int.add_le_add_left (Int.mul_le_mul_of_nonneg_left (by omega) step) _
  rw [forall_mem_collect_range, WeeklyInRange, ← Int.le_sub_one_iff, ← reached_le_iff step 519]
  simp only [← anchorAt_eq, Int.le_sub_one_iff, weekIntegers_goesOn, mem_weekIntegers]
  apply Iff.intro
  · intro fit
    apply And.intro
    · intro week inLoop reached
      exact (anchorOffsets_fit_iff dated forward inLoop).mp
        (fun c member => fit week inLoop reached c (.inl member))
    · intro week inLoop inTime day member
      apply (dayIntegers_fit_iff dated sound forward week (inWeek member)).mp
      intro c inside
      exact fit week inLoop (fun j before => (earlier before.le).trans inTime) c
        (.inr ⟨inTime, day, member, inside⟩)
  · intro given week inLoop reached c member
    rcases member with offset | ⟨inTime, day, ofRule, inside⟩
    · exact (anchorOffsets_fit_iff dated forward inLoop).mpr (given.1 week inLoop reached) c offset
    · exact (dayIntegers_fit_iff dated sound forward week (inWeek ofRule)).mpr
        (given.2 week inLoop inTime day ofRule) c inside

theorem dayAt_le (sound : zone.Sound) (week day : Nat) :
    dayAt p zone base rule week day ≤ anchorAt p base rule week + p.ticks 144 := by
  have inSix : 0 ≤ ahead p zone base day ∧ ahead p zone base day ≤ 6 := daysAhead_bounds sound day
  have split : p.ticks (24 * (ahead p zone base day + weekOffset rule week)) =
      p.ticks (24 * weekOffset rule week) + p.ticks (24 * ahead p zone base day) := by
    rw [ticks_eq, ticks_eq (24 * weekOffset rule week), ticks_eq (24 * ahead p zone base day)]
    ring
  have few : p.ticks (24 * ahead p zone base day) ≤ p.ticks 144 := by
    rw [ticks_eq, ticks_eq 144]
    exact Int.mul_le_mul_of_nonneg_left (by omega) (ticks_nonneg (by decide))
  rw [dayAt, anchorAt, split, ← Int.add_assoc]
  exact Int.add_le_add_left few _

/-- Where a tick is 100 ns, the last anchor that the loop comes to decides alone. -/
theorem weeklyInRange_msvc (dated : Platform.DatedEvent .msvc base)
    (window : Platform.DatedWindow .msvc windowStart deadline) (sound : zone.Sound) :
    WeeklyInRange .msvc zone base rule windowStart deadline exdates ↔
      base.start + hours (168 * rule.interval) * lastPass 519 base.start (hours (168 * rule.interval))
        deadline < 2 ^ 63 := by
  rw [WeeklyInRange, Platform.ticks_msvc]
  refine ⟨fun given => given.1, fun held => ⟨held, fun week _ inTime day _ => ⟨?_, fun due => ?_⟩⟩⟩
  · have late := window.deadline.to2999
    have near : dayAt .msvc zone base rule week day ≤ _ := dayAt_le sound week day
    have years : Platform.ofTimeT .msvc 32503680000 + Platform.ticks .msvc 144 ≤ 2 ^ 60 := by decide
    omega
  · exact end_held_msvc dated window due.2.1

end Weekly

/-! ## Monthly series -/

/-- What C promises of local times: months count from January, no offset from UTC is more than a
day, and so no midnight is more than two days in front of the times of its day. -/
structure CivilClock (zone : SystemZone) : Prop extends zone.Sound where
  month : ∀ seconds, 0 ≤ (zone.localtime seconds).tmMon ∧ (zone.localtime seconds).tmMon ≤ 11
  close : ∀ tm, zone.mktime tm ≠ -1 → |zone.mktime tm - utcSeconds tm| ≤ 86400
  day : ∀ seconds, seconds - 2 * 86400 ≤
    utcSeconds { zone.localtime seconds with tmHour := 0, tmMin := 0, tmSec := 0 }

theorem fixed_civilClock {offset : Int} (small : |offset| ≤ 86400) : CivilClock (.fixed offset) where
  toSound := fixed_sound offset
  month seconds := by
    have range := Gregorian.civilFromDays_month ((seconds + offset) / 86400)
    have month : ((SystemZone.fixed offset).localtime seconds).tmMon =
        (Gregorian.civilFromDays ((seconds + offset) / 86400)).2.1 - 1 := rfl
    rw [month]
    omega
  close tm _ := by
    have back : utcSeconds tm - offset - utcSeconds tm = -offset := by omega
    simpa only [SystemZone.fixed, back, abs_neg] using small
  day seconds := by
    rw [abs_le] at small
    simp only [SystemZone.fixed, utcSeconds_midnight]
    omega

section Monthly
variable {p : Platform} {zone : SystemZone} {base : ScheduledEvent} {rule : RruleData}
  {windowStart deadline : Int} {exdates : Std.ExtTreeSet Text}

/-- A later month is not in front of an earlier one. -/
theorem utcSeconds_laterMonth (tm : Tm) {months : Int} (forward : 0 ≤ months) :
    utcSeconds tm ≤ utcSeconds { tm with tmMon := tm.tmMon + months } := by
  obtain ⟨count, rfl⟩ := Int.eq_ofNat_of_zero_le forward
  have gap := Gregorian.wallSeconds_months (tm.tmYear + 1900) tm.tmMon tm.tmMday tm.tmHour tm.tmMin
    tm.tmSec count
  simp only [utcSeconds]
  omega

theorem monthTime_low (clock : CivilClock zone) (forward : 0 ≤ rule.interval) {i : Nat}
    (works : monthTime p zone base rule i ≠ -1) :
    p.toTimeT base.start - 3 * 86400 ≤ monthTime p zone base rule i := by
  have months : 0 ≤ (i : Int) * rule.interval := Int.mul_nonneg (Int.natCast_nonneg i) forward
  have close := clock.close _ works
  have day := clock.day (p.toTimeT base.start)
  have later := utcSeconds_laterMonth
    { zone.localtime (p.toTimeT base.start) with tmHour := 0, tmMin := 0, tmSec := 0 } months
  have same : toTimeT (p.atSecond base).start = p.toTimeT base.start := toTimeT_fromTimeT _
  rw [same, abs_le] at close
  simp only [monthTime, monthlyTime, same] at *
  omega

/-- A midnight of the series is no more than four days in front of the base event. -/
theorem monthStart_near (dated : p.DatedEvent base) (clock : CivilClock zone) (forward : 0 ≤ rule.interval)
    {i : Nat} (works : monthTime p zone base rule i ≠ -1) :
    0 ≤ p.ofTimeT (monthTime p zone base rule i) - base.start + p.ofTimeT (4 * 86400) := by
  have low : p.toTimeT base.start - 3 * 86400 ≤ monthTime p zone base rule i :=
    monthTime_low clock forward works
  have positive := start_nonneg dated
  generalize monthTime p zone base rule i = newT at low
  rw [Platform.toTimeT, Int.tdiv_eq_ediv_of_nonneg positive] at low
  generalize (base.start : Int) = start at *
  cases p <;> simp only [Platform.ofTimeT, Platform.perTick, fromTimeT, ticksPerSecond] at * <;> omega

theorem monthStart_fits_iff (dated : p.DatedEvent base) (clock : CivilClock zone) (forward : 0 ≤ rule.interval)
    {i : Nat} (works : monthTime p zone base rule i ≠ -1) :
    (⟨64, p.ofTimeT (monthTime p zone base rule i)⟩ : Computed).Fits ↔
      p.ofTimeT (monthTime p zone base rule i) < 2 ^ 63 := by
  have notEarly := monthStart_near dated clock forward works
  have positive := start_nonneg dated
  have low : p.ofTimeT (4 * 86400) ≤ 2 ^ 62 := by cases p <;> decide
  simp only [Computed.Fits]
  omega

theorem monthOffsets_fit_iff (clock : CivilClock zone) (forward : 0 ≤ rule.interval) (i : Nat) :
    (∀ c ∈ monthOffsets p zone base rule i, c.Fits) ↔ monthNumber p zone base rule i < 2 ^ 31 := by
  have months : 0 ≤ (i : Int) * rule.interval := Int.mul_nonneg (Int.natCast_nonneg i) forward
  have month := clock.month (p.toTimeT base.start)
  have fits : (⟨32, i * rule.interval⟩ : Computed).Fits ∧
      (⟨32, monthNumber p zone base rule i⟩ : Computed).Fits ↔ monthNumber p zone base rule i < 2 ^ 31 := by
    simp only [Computed.Fits, monthNumber]
    omega
  simpa only [monthOffsets, List.forall_mem_cons, List.not_mem_nil, false_imp_iff, implies_true, and_true]
    using fits

theorem monthNumber_mono (forward : 0 ≤ rule.interval) {i j : Nat} (le : i ≤ j) :
    monthNumber p zone base rule i ≤ monthNumber p zone base rule j :=
  Int.add_le_add_left (Int.mul_le_mul_of_nonneg_right (by omega) forward) _

theorem monthIntegers_goesOn (i : Nat) :
    (monthIntegers p zone base rule deadline exdates i).2 = false ↔
      ¬MonthBreaks p zone base rule deadline i := by
  simp only [monthIntegers, MonthBreaks]
  split_ifs with failed behind past excluded
  · simp [failed]
  · simp [failed, behind]
  · simp [failed, past]
  · simp [behind, past]
  · simp [behind, past]

theorem mem_monthIntegers (i : Nat) (c : Computed) :
    c ∈ (monthIntegers p zone base rule deadline exdates i).1 ↔
      c ∈ monthOffsets p zone base rule i ∨
      (monthTime p zone base rule i ≠ -1 ∧ c = ⟨64, p.ofTimeT (monthTime p zone base rule i)⟩) ∨
      (monthTime p zone base rule i ≠ -1 ∧ ¬MonthBreaks p zone base rule deadline i ∧
        isExcluded zone (p.second (p.ofTimeT (monthTime p zone base rule i))) exdates = false ∧
        c = endOf base (p.ofTimeT (monthTime p zone base rule i))) := by
  simp only [monthIntegers, MonthBreaks]
  split_ifs with failed behind past excluded
  · simp [failed]
  · simp [failed, behind]
  · simp [failed, past]
  · simp [failed, excluded]
  · simp [failed, behind, past, excluded]

theorem monthly_fit_iff (dated : p.DatedEvent base) (held : deadline < 2 ^ 63) (clock : CivilClock zone)
    (forward : 0 ≤ rule.interval) :
    (∀ c ∈ collect (monthIntegers p zone base rule deadline exdates) (List.range 24), c.Fits) ↔
      MonthlyInRange p zone base rule deadline exdates := by
  have ends {i : Nat} (works : monthTime p zone base rule i ≠ -1) :=
    endOf_fits_iff dated (monthStart_near (i := i) dated clock forward works)
  simp only [forall_mem_collect_range, monthIntegers_goesOn, mem_monthIntegers, MonthlyInRange]
  apply Iff.intro
  · intro fit
    apply And.intro
    · intro n inLoop reached _
      refine ⟨(monthOffsets_fit_iff clock forward n).mp
        (fun c member => fit n inLoop reached c (.inl member)), fun works => ?_⟩
      exact (monthStart_fits_iff dated clock forward works).mp (fit n inLoop reached _ (.inr (.inl ⟨works, rfl⟩)))
    · intro i inLoop goesOn works kept
      apply (ends works).mp
      exact fit i inLoop (fun j before => goesOn j before.le) _
        (.inr (.inr ⟨works, goesOn i (le_refl i), kept, rfl⟩))
  · intro given i inLoop reached c member
    obtain ⟨n, behind, inRange, reachedLast, isLast⟩ := exists_last (Nat.le_of_lt_succ inLoop) reached
    obtain ⟨number, midnight⟩ := given.1 n (by omega) reachedLast isLast
    rcases member with offset | ⟨works, rfl⟩ | ⟨works, goesOn, kept, rfl⟩
    · have earlier : monthNumber p zone base rule i ≤ monthNumber p zone base rule n :=
        monthNumber_mono forward behind
      exact (monthOffsets_fit_iff clock forward i).mpr (by omega) c offset
    · apply (monthStart_fits_iff dated clock forward works).mpr
      by_cases breaks : MonthBreaks p zone base rule deadline i
      · -- the month that ends the loop is the last one
        rw [eq_last behind reachedLast breaks] at works ⊢
        exact midnight works
      · have inTime : ¬deadline < p.ofTimeT (monthTime p zone base rule i) :=
          fun late => breaks ⟨works, .inl late⟩
        omega
    · apply (ends works).mpr
      apply given.2 i inLoop _ works kept
      intro j le
      rcases le.eq_or_lt with same | before
      · rw [same]
        exact goesOn
      · exact reached j before

end Monthly

/-! ## The expander of a rule -/

section Rule
variable (p : Platform) {zone : SystemZone} (base : ScheduledEvent) {windowStart deadline : Int}
  (exdates : Std.ExtTreeSet Text)

/-- The integers that a series computes fit their types exactly where those of the last pass of its
loop do, and the end of each of its instances. -/
theorem expandIntegers_fit_iff (clock : CivilClock zone) {rrule : Text} {rule : RruleData}
    (read : parseRruleData zone rrule = .ok rule) (dated : p.DatedEvent base)
    (window : p.DatedWindow windowStart deadline) :
    (∀ c ∈ expandIntegers p zone base (p.rule rule) windowStart deadline exdates, c.Fits) ↔
      InRange p zone base (p.rule rule) windowStart deadline exdates := by
  have parsed := parseRruleData_sound read
  have rules : RuleSound (p.rule rule) := ⟨parsed.forward, parsed.days⟩
  have length := duration_fits dated
  simp only [expandIntegers, InRange]
  cases (p.rule rule).freq with
  | daily =>
    simp only [List.forall_mem_cons, length, true_and]
    exact daily_fit_iff dated rules.forward
  | weekly =>
    simp only [List.forall_mem_cons, length, true_and]
    exact weekly_fit_iff dated clock.toSound rules
  | monthly =>
    simp only [List.forall_mem_cons, length, true_and]
    exact monthly_fit_iff dated window.deadline.held clock rules.forward
  | yearly => simp

end Rule

/-! ## Series on a clock of 100 ns -/

section Msvc
variable {zone : SystemZone} {base : ScheduledEvent} {rule : RruleData} {windowStart deadline : TimePoint}
  {exdates : Std.ExtTreeSet Text} (forward : 0 ≤ rule.interval)
  (dated : Platform.DatedEvent .msvc (Platform.event .msvc base))
  (window : Platform.DatedWindow .msvc (Platform.point .msvc windowStart) (Platform.point .msvc deadline))
include forward dated window

/-- Of a daily series on this clock nothing overflows exactly where the clock holds the last start
that its loop comes to. -/
theorem seriesFits_daily_msvc (daily : rule.freq = .daily) :
    SeriesFits .msvc zone base rule windowStart deadline exdates ↔
      Platform.point .msvc base.start + hours (24 * rule.interval) *
        lastPass 364 (Platform.point .msvc base.start) (hours (24 * rule.interval))
          (dailyLine (Platform.rule .msvc rule) (Platform.point .msvc windowStart) (Platform.point .msvc deadline)) <
      2 ^ 63 := by
  have range : DailyInRange .msvc zone _ (Platform.rule .msvc rule) _ _ exdates ↔ _ := dailyInRange_msvc dated window
  refine Iff.trans ?_ range
  simp only [SeriesFits, expandIntegers, rule_freq, daily, List.forall_mem_cons, duration_fits dated, true_and]
  exact daily_fit_iff dated forward

/-- Of a weekly one, where it holds the last anchor. -/
theorem seriesFits_weekly_msvc (sound : zone.Sound) (days : ∀ d ∈ rule.byday, 1 ≤ d ∧ d ≤ 7)
    (weekly : rule.freq = .weekly) :
    SeriesFits .msvc zone base rule windowStart deadline exdates ↔
      Platform.point .msvc base.start + hours (168 * rule.interval) *
        lastPass 519 (Platform.point .msvc base.start) (hours (168 * rule.interval)) (Platform.point .msvc deadline) <
      2 ^ 63 := by
  have range : WeeklyInRange .msvc zone _ (Platform.rule .msvc rule) _ _ exdates ↔ _ :=
    weeklyInRange_msvc dated window sound
  refine Iff.trans ?_ range
  simp only [SeriesFits, expandIntegers, rule_freq, weekly, List.forall_mem_cons, duration_fits dated, true_and]
  exact weekly_fit_iff dated sound ⟨forward, days⟩

end Msvc

theorem friday_dated : Platform.DatedEvent .msvc Expansion.friday where
  start := ⟨by decide, by decide, by decide⟩
  end_ := ⟨by decide, by decide, by decide⟩

theorem friday_window : Platform.DatedWindow .msvc Expansion.friday.start (Expansion.friday.start + hours 48) where
  start := ⟨by decide, by decide, by decide⟩
  deadline := ⟨by decide, by decide, by decide⟩

theorem expandIntegers_fit_iff_daily :
    (∀ c ∈ expandIntegers .msvc (.fixed 0) Expansion.friday (Platform.rule .msvc {}) Expansion.friday.start
        (Expansion.friday.start + hours 48) ∅, c.Fits) ↔
      InRange .msvc (.fixed 0) Expansion.friday (Platform.rule .msvc {}) Expansion.friday.start
        (Expansion.friday.start + hours 48) ∅ :=
  expandIntegers_fit_iff .msvc Expansion.friday ∅ (fixed_civilClock (by decide))
    (show parseRruleData (.fixed 0) (text "FREQ=DAILY") = .ok {} by decide +kernel) friday_dated friday_window

/-- The hours of the second day of a series with the longest interval are no `int`. -/
theorem longest_interval_overflows : ¬∀ (p : Platform) (zone : SystemZone) (base : ScheduledEvent)
    (windowStart deadline : Int) (exdates : Std.ExtTreeSet Text) (rrule : Text) (rule : RruleData),
    CivilClock zone → parseRruleData zone rrule = .ok rule → p.DatedEvent base →
    p.DatedWindow windowStart deadline →
    ∀ c ∈ expandIntegers p zone base (p.rule rule) windowStart deadline exdates, c.Fits := by
  intro always
  have read : parseRruleData (.fixed 0) (text "FREQ=DAILY;INTERVAL=2147483647") =
      .ok { interval := 2147483647 } := by decide +kernel
  have fits := always .msvc _ _ _ _ ∅ _ _ (fixed_civilClock (by decide)) read friday_dated friday_window
    ⟨32, 24 * 1 * 2147483647⟩ (by decide +kernel)
  exact absurd fits (by decide)

end DivoomDev.Ics.IntegerRanges
