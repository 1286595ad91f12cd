import DivoomDev.Ics.ExactIntegers

/-! The expanders of a series as they compute on a clock: hours, months and ticks in their C++ types,
where a result that does not fit wraps around. While all of them fit, the expanders append what they
append on exact integers. -/

namespace DivoomDev.Ics.ClockArithmetic
open DivoomDev.Library DivoomDev.Library.Bytes DivoomDev.Library.Loop Models Datetime Recurrence Clocks Series
  ExactIntegers

/-! ## The expanders on a clock -/

/-- A copy of the base event moved to another start, with the base's duration. -/
def occurrenceOn (base : ScheduledEvent) (instanceStart : Int) : ScheduledEvent :=
  { base with start := instanceStart, end_ := int64 (instanceStart + int64 (base.end_ - base.start)) }

section Expanders
variable (p : Platform) (zone : SystemZone) (base : ScheduledEvent) (rule : RruleData)
  (windowStart deadline : Int) (exdates : Std.ExtTreeSet Text)

/-- `base.start + std::chrono::hours(24) * i * rule.interval` -/
def dailyStartOn (i : Nat) : Int :=
  int64 (base.start + int64 (p.ticks (p.inHours (p.inHours (24 * i) * rule.interval))))

def dailyPassOn (i : Nat) : Verdict ScheduledEvent :=
  let instanceStart := dailyStartOn p base rule i
  if instanceStart < windowStart then .skip
  else if deadline < instanceStart then .stop
  else if pastUntil rule instanceStart then .stop
  else if isExcluded zone (p.second instanceStart) exdates then .skip
  else .emit (occurrenceOn base instanceStart)

def dailyExpandOn : List ScheduledEvent :=
  scan (dailyPassOn p zone base rule windowStart deadline exdates) (List.range 365)

/-- `week * 7LL * rule.interval` -/
def weekOffsetOn (week : Nat) : Int := int64 (int64 (week * 7) * rule.interval)

/-- `std::chrono::hours(24) * days`, with days in `long long`, behind the start of the series. -/
def daysBehindOn (days : Int) : Int := int64 (base.start + int64 (p.ticks (int64 (24 * days))))

def weeklyAnchorOn (week : Nat) : Int := daysBehindOn p base (weekOffsetOn rule week)

/-- `(day - base_dow + 7) % 7` -/
def daysAheadOn (day : Nat) : Int :=
  (int32 (int32 (day - localDow zone (p.second base.start)) + 7)).tmod 7

def weeklyStartOn (week day : Nat) : Int :=
  daysBehindOn p base (int64 (daysAheadOn p zone base day + weekOffsetOn rule week))

def weeklyDayOn (week day : Nat) : Verdict ScheduledEvent :=
  let instanceStart := weeklyStartOn p zone base rule week day
  if instanceStart < windowStart then .skip
  else if deadline < instanceStart then .skip
  else if pastUntil rule instanceStart then .skip
  else if isExcluded zone (p.second instanceStart) exdates then .skip
  else .emit (occurrenceOn base instanceStart)

def weeklyPassOn (week : Nat) : Verdict (List ScheduledEvent) :=
  if deadline < weeklyAnchorOn p base rule week then .stop
  else .emit (scan (weeklyDayOn p zone base rule windowStart deadline exdates week)
    (weeklyDays zone (p.atSecond base) rule))

def weeklyExpandOn : List ScheduledEvent :=
  (scan (weeklyPassOn p zone base rule windowStart deadline exdates) (List.range 520)).flatten

/-- The C time of the i-th month, where `tm_mon` and the number added to it are `int`. -/
def monthlyTimeOn (i : Nat) : Int :=
  let tm := zone.localtime (p.toTimeT base.start)
  zone.mktime { tm with
    tmMon := int32 (tm.tmMon + int32 (i * rule.interval)), tmHour := 0, tmMin := 0, tmSec := 0 }

def monthlyPassOn (i : Nat) : Verdict ScheduledEvent :=
  let newT := monthlyTimeOn p zone base rule i
  if newT = -1 then .skip
  else
    let instanceStart := int64 (p.ofTimeT newT)
    if deadline < instanceStart then .stop
    else if pastUntil rule instanceStart then .stop
    else if isExcluded zone (p.second instanceStart) exdates then .skip
    else .emit (occurrenceOn base instanceStart)

def monthlyExpandOn : List ScheduledEvent :=
  scan (monthlyPassOn p zone base rule deadline exdates) (List.range 24)

/-- `recurrence_expander::for_freq(freq).expand` -/
def expandOn : List ScheduledEvent :=
  match rule.freq with
  | .daily => dailyExpandOn p zone base rule windowStart deadline exdates
  | .weekly => weeklyExpandOn p zone base rule windowStart deadline exdates
  | .monthly => monthlyExpandOn p zone base rule deadline exdates
  | .yearly => []

end Expanders

/-! ## Points of the clock -/

section Points
variable {p : Platform} {zone : SystemZone} {base : ScheduledEvent} {rule : RruleData}
  {windowStart deadline instant : TimePoint} {exdates : Std.ExtTreeSet Text}

@[simp] theorem event_start : (p.event base).start = p.point base.start := rfl

@[simp] theorem rule_interval : (p.rule rule).interval = rule.interval := rfl

@[simp] theorem rule_freq : (p.rule rule).freq = rule.freq := rfl

theorem second_point : p.second (p.point instant) = fromTimeT (toTimeT instant) := by
  rw [Platform.second, Platform.toTimeT_point]

theorem localDow_point : localDow zone (p.second (p.point instant)) = localDow zone instant := by
  rw [second_point, localDow, toTimeT_fromTimeT, localDow]

theorem isExcluded_point :
    isExcluded zone (p.second (p.point instant)) exdates = isExcluded zone instant exdates := by
  rw [second_point, isExcluded, toTimeT_fromTimeT, isExcluded]

theorem pastUntil_point : pastUntil (p.rule rule) (p.point instant) ↔ pastUntil rule instant := by
  have bound : (p.rule rule).until_ = p.point rule.until_ := rfl
  rw [pastUntil, bound, ne_eq, Platform.point_eq_zero, Platform.point_lt]
  rfl

theorem weeklyDays_point : weeklyDays zone (p.atSecond (p.event base)) (p.rule rule) = weeklyDays zone base rule := by
  have dow : localDow zone (p.atSecond (p.event base)).start = localDow zone base.start := localDow_point
  rw [weeklyDays, dow]
  rfl

theorem duration_point : duration (p.event base) = p.point (base.end_ - base.start) := by
  simp only [duration, Platform.event, Platform.point, Int.sub_mul]

/-- An occurrence whose length and end fit. -/
theorem occurrenceOn_point (length : (⟨64, duration (p.event base)⟩ : Computed).Fits)
    (ends : (endOf (p.event base) (p.point instant)).Fits) :
    occurrenceOn (p.event base) (p.point instant) = p.event (occurrence base instant) := by
  have same : p.point instant + duration (p.event base) = p.point (instant + (base.end_ - base.start)) := by
    rw [duration_point, Platform.point, Platform.point, Platform.point, Int.add_mul]
  have endPoint : int64 (p.point instant + int64 (duration (p.event base))) =
      p.point (instant + (base.end_ - base.start)) := by
    rw [int64_eq length, int64_eq ends, same]
  rw [occurrenceOn, ← duration, endPoint]
  rfl

end Points

/-! ## Passes that fit -/

section Passes
variable {p : Platform} {zone : SystemZone} {base : ScheduledEvent} {rule : RruleData}
  {windowStart deadline : TimePoint} {exdates : Std.ExtTreeSet Text}

theorem dailyAt_point (i : Nat) : dailyAt p (p.event base) (p.rule rule) i = p.point (dailyStart base rule i) := by
  simp only [dailyAt, event_start, rule_interval, Platform.ticks, Platform.point, dailyStart, hours]
  ring

theorem dailyStartOn_point {i : Nat} (fits : ∀ c ∈ dailyOffsets p (p.event base) (p.rule rule) i, c.Fits) :
    dailyStartOn p (p.event base) (p.rule rule) i = p.point (dailyStart base rule i) := by
  simp only [dailyOffsets, List.forall_mem_cons] at fits
  obtain ⟨day, count, ticks, start, _⟩ := fits
  rw [dailyStartOn, Platform.inHours_eq day, Platform.inHours_eq count, int64_eq ticks]
  exact (int64_eq start).trans (dailyAt_point i)

/-- The loop over the integers breaks where the daily expander does. -/
theorem dailyIntegers_breaks (i : Nat) :
    (dailyIntegers p zone (p.event base) (p.rule rule) (p.point windowStart) (p.point deadline) exdates i).2 = true ↔
      dailyPass zone base rule windowStart deadline exdates i = .stop := by
  simp only [dailyIntegers, dailyPass, dailyAt_point, Platform.point_lt, pastUntil_point, isExcluded_point]
  split_ifs <;> simp

theorem dailyOffsets_mem {i : Nat} : dailyOffsets p (p.event base) (p.rule rule) i ⊆
    (dailyIntegers p zone (p.event base) (p.rule rule) (p.point windowStart) (p.point deadline) exdates i).1 := by
  unfold dailyIntegers
  dsimp only
  split_ifs <;> simp

theorem dailyPassOn_point (length : (⟨64, duration (p.event base)⟩ : Computed).Fits) {i : Nat}
    (fits : ∀ c ∈ (dailyIntegers p zone (p.event base) (p.rule rule) (p.point windowStart) (p.point deadline)
      exdates i).1, c.Fits) :
    dailyPassOn p zone (p.event base) (p.rule rule) (p.point windowStart) (p.point deadline) exdates i =
      (dailyPass zone base rule windowStart deadline exdates i).map p.event := by
  have start := dailyStartOn_point (fun c member => fits c (dailyOffsets_mem member))
  simp only [dailyIntegers, dailyAt_point, Platform.point_lt, pastUntil_point, isExcluded_point] at fits
  simp only [dailyPassOn, start, dailyPass, Platform.point_lt, pastUntil_point, isExcluded_point]
  split_ifs at fits ⊢
  · rfl
  · rfl
  · rfl
  · rfl
  · rw [occurrenceOn_point length (fits _ (by simp))]
    rfl

theorem anchorAt_point (week : Nat) :
    anchorAt p (p.event base) (p.rule rule) week = p.point (weeklyAnchor base rule week) := by
  simp only [anchorAt, event_start, weekOffset, rule_interval, Platform.ticks, Platform.point, weeklyAnchor, hours]
  ring

theorem weeklyAnchorOn_point {week : Nat}
    (fits : ∀ c ∈ anchorOffsets p (p.event base) (p.rule rule) week, c.Fits) :
    weeklyAnchorOn p (p.event base) (p.rule rule) week = p.point (weeklyAnchor base rule week) := by
  simp only [anchorOffsets, List.forall_mem_cons] at fits
  obtain ⟨weekDays, offset, count, ticks, anchor, _⟩ := fits
  rw [weeklyAnchorOn, weekOffsetOn, int64_eq weekDays, ← weekOffset, int64_eq offset, daysBehindOn, int64_eq count,
    int64_eq ticks]
  exact (int64_eq anchor).trans (anchorAt_point week)

theorem weekIntegers_breaks (week : Nat) :
    (weekIntegers p zone (p.event base) (p.rule rule) (p.point windowStart) (p.point deadline) exdates week).2 =
        true ↔ weeklyPass zone base rule windowStart deadline exdates week = .stop := by
  simp only [weekIntegers, weeklyPass, anchorAt_point, Platform.point_lt]
  split_ifs <;> simp

theorem ahead_point (day : Nat) : ahead p zone (p.event base) day = daysAhead zone base day := by
  have dow : localDow zone (p.atSecond (p.event base)).start = localDow zone base.start := localDow_point
  rw [ahead, daysAhead, dow, daysAhead]

theorem dayAt_point (week day : Nat) :
    dayAt p zone (p.event base) (p.rule rule) week day = p.point (weeklyStart zone base rule week day) := by
  simp only [dayAt, event_start, ahead_point, weekOffset, rule_interval, Platform.ticks, Platform.point,
    weeklyStart_eq, hours]
  ring

theorem weeklyStartOn_point {week day : Nat}
    (anchor : ∀ c ∈ anchorOffsets p (p.event base) (p.rule rule) week, c.Fits)
    (fits : ∀ c ∈ dayOffsets p zone (p.event base) (p.rule rule) week day, c.Fits) :
    weeklyStartOn p zone (p.event base) (p.rule rule) week day = p.point (weeklyStart zone base rule week day) := by
  simp only [anchorOffsets, List.forall_mem_cons] at anchor
  obtain ⟨weekDays, weekly, _⟩ := anchor
  simp only [dayOffsets, List.forall_mem_cons] at fits
  obtain ⟨behind, next, _, offset, count, ticks, start, _⟩ := fits
  have days : daysAheadOn p zone (p.event base) day = ahead p zone (p.event base) day := by
    rw [daysAheadOn, int32_eq behind, int32_eq next]
    rfl
  rw [weeklyStartOn, days, weekOffsetOn, int64_eq weekDays, ← weekOffset, int64_eq weekly, int64_eq offset,
    daysBehindOn, int64_eq count, int64_eq ticks]
  exact (int64_eq start).trans (dayAt_point week day)

theorem dayOffsets_mem {week day : Nat} : dayOffsets p zone (p.event base) (p.rule rule) week day ⊆
    dayIntegers p zone (p.event base) (p.rule rule) (p.point windowStart) (p.point deadline) exdates week day := by
  unfold dayIntegers
  dsimp only
  split_ifs <;> simp

theorem weeklyDayOn_point (length : (⟨64, duration (p.event base)⟩ : Computed).Fits) {week day : Nat}
    (anchor : ∀ c ∈ anchorOffsets p (p.event base) (p.rule rule) week, c.Fits)
    (fits : ∀ c ∈ dayIntegers p zone (p.event base) (p.rule rule) (p.point windowStart) (p.point deadline) exdates
      week day, c.Fits) :
    weeklyDayOn p zone (p.event base) (p.rule rule) (p.point windowStart) (p.point deadline) exdates week day =
      (weeklyDay zone base rule windowStart deadline exdates week day).map p.event := by
  have start := weeklyStartOn_point anchor (fun c member => fits c (dayOffsets_mem member))
  simp only [dayIntegers, dayAt_point, Platform.point_lt, pastUntil_point, isExcluded_point] at fits
  simp only [weeklyDayOn, start, weeklyDay, Platform.point_lt, pastUntil_point, isExcluded_point]
  split_ifs at fits ⊢
  · rfl
  · rfl
  · rfl
  · rfl
  · rw [occurrenceOn_point length (fits _ (by simp))]
    rfl

theorem weeklyPassOn_point (length : (⟨64, duration (p.event base)⟩ : Computed).Fits) {week : Nat}
    (fits : ∀ c ∈ (weekIntegers p zone (p.event base) (p.rule rule) (p.point windowStart) (p.point deadline)
      exdates week).1, c.Fits) :
    weeklyPassOn p zone (p.event base) (p.rule rule) (p.point windowStart) (p.point deadline) exdates week =
      (weeklyPass zone base rule windowStart deadline exdates week).map (List.map p.event) := by
  have anchor : ∀ c ∈ anchorOffsets p (p.event base) (p.rule rule) week, c.Fits := by
    intro c member
    apply fits
    unfold weekIntegers
    split_ifs
    · exact member
    · exact List.mem_append_left _ member
  simp only [weekIntegers, anchorAt_point, Platform.point_lt, weeklyDays_point] at fits
  simp only [weeklyPassOn, weeklyAnchorOn_point anchor, weeklyPass, Platform.point_lt, weeklyDays_point]
  split_ifs at fits ⊢
  · rfl
  · refine congrArg Verdict.emit (scan_map (fun day ofRule => weeklyDayOn_point length anchor ?_))
    exact fun c member => fits c (List.mem_append_right _ (List.mem_flatMap.mpr ⟨day, ofRule, member⟩))

theorem monthTime_point (i : Nat) :
    monthTime p zone (p.event base) (p.rule rule) i = monthlyTime zone base rule i := by
  have seconds : toTimeT (p.atSecond (p.event base)).start = toTimeT base.start := by
    rw [Platform.atSecond, event_start, second_point, toTimeT_fromTimeT]
  rw [monthTime, monthlyTime, seconds]
  rfl

theorem monthlyTimeOn_point {i : Nat} (fits : ∀ c ∈ monthOffsets p zone (p.event base) (p.rule rule) i, c.Fits) :
    monthlyTimeOn p zone (p.event base) (p.rule rule) i = monthlyTime zone base rule i := by
  simp only [monthOffsets, monthNumber, List.forall_mem_cons, event_start, Platform.toTimeT_point,
    rule_interval] at fits
  obtain ⟨months, number, _⟩ := fits
  simp only [monthlyTimeOn, event_start, Platform.toTimeT_point, rule_interval, int32_eq months, int32_eq number,
    monthlyTime]

theorem monthIntegers_breaks (i : Nat) :
    (monthIntegers p zone (p.event base) (p.rule rule) (p.point deadline) exdates i).2 = true ↔
      monthlyPass zone base rule deadline exdates i = .stop := by
  have point (seconds : Int) : p.ofTimeT seconds = p.point (fromTimeT seconds) := rfl
  simp only [monthIntegers, monthlyPass, monthTime_point, point, Platform.point_lt, pastUntil_point,
    isExcluded_point]
  split_ifs <;> simp

theorem monthOffsets_mem {i : Nat} : monthOffsets p zone (p.event base) (p.rule rule) i ⊆
    (monthIntegers p zone (p.event base) (p.rule rule) (p.point deadline) exdates i).1 := by
  unfold monthIntegers
  dsimp only
  split_ifs <;> simp

theorem monthlyPassOn_point (length : (⟨64, duration (p.event base)⟩ : Computed).Fits) {i : Nat}
    (fits : ∀ c ∈ (monthIntegers p zone (p.event base) (p.rule rule) (p.point deadline) exdates i).1, c.Fits) :
    monthlyPassOn p zone (p.event base) (p.rule rule) (p.point deadline) exdates i =
      (monthlyPass zone base rule deadline exdates i).map p.event := by
  have time := monthlyTimeOn_point (fun c member => fits c (monthOffsets_mem member))
  have point (seconds : Int) : p.ofTimeT seconds = p.point (fromTimeT seconds) := rfl
  simp only [monthIntegers, monthTime_point, point, Platform.point_lt, pastUntil_point, isExcluded_point] at fits
  simp only [monthlyPassOn, time, monthlyPass]
  by_cases fails : monthlyTime zone base rule i = -1
  · rw [if_pos fails, if_pos fails]
    rfl
  · rw [if_neg fails] at fits ⊢
    rw [if_neg fails]
    have start : int64 (p.ofTimeT (monthlyTime zone base rule i)) =
        p.point (fromTimeT (monthlyTime zone base rule i)) := by
      apply int64_eq
      apply fits
      split_ifs <;> simp [point]
    simp only [start, Platform.point_lt, pastUntil_point, isExcluded_point]
    split_ifs at fits ⊢
    · rfl
    · rfl
    · rfl
    · rw [occurrenceOn_point length (fits _ (by simp))]
      rfl

/-- All integers that a series computes in a window fit their types. -/
def SeriesFits (p : Platform) (zone : SystemZone) (base : ScheduledEvent) (rule : RruleData)
    (windowStart deadline : TimePoint) (exdates : Std.ExtTreeSet Text) : Prop :=
  ∀ c ∈ expandIntegers p zone (p.event base) (p.rule rule) (p.point windowStart) (p.point deadline) exdates, c.Fits

instance : Decidable (SeriesFits p zone base rule windowStart deadline exdates) :=
  inferInstanceAs (Decidable (∀ c ∈ _, Computed.Fits c))

variable (fits : SeriesFits p zone base rule windowStart deadline exdates)
include fits

theorem dailyExpandOn_point (daily : rule.freq = .daily) :
    dailyExpandOn p zone (p.event base) (p.rule rule) (p.point windowStart) (p.point deadline) exdates =
      (dailyExpand zone base rule windowStart deadline exdates).map p.event := by
  simp only [SeriesFits, expandIntegers, rule_freq, daily, List.forall_mem_cons] at fits
  exact scan_map_of_collect (fun i => (dailyIntegers_breaks i).mp) (fun i => dailyPassOn_point fits.1) fits.2

theorem weeklyExpandOn_point (weekly : rule.freq = .weekly) :
    weeklyExpandOn p zone (p.event base) (p.rule rule) (p.point windowStart) (p.point deadline) exdates =
      (weeklyExpand zone base rule windowStart deadline exdates).map p.event := by
  simp only [SeriesFits, expandIntegers, rule_freq, weekly, List.forall_mem_cons] at fits
  have weeks : scan (weeklyPassOn p zone (p.event base) (p.rule rule) (p.point windowStart) (p.point deadline)
      exdates) (List.range 520) = _ :=
    scan_map_of_collect (fun i => (weekIntegers_breaks i).mp) (fun i => weeklyPassOn_point fits.1) fits.2
  rw [weeklyExpandOn, weeks, weeklyExpand, List.map_flatten]

theorem monthlyExpandOn_point (monthly : rule.freq = .monthly) :
    monthlyExpandOn p zone (p.event base) (p.rule rule) (p.point deadline) exdates =
      (monthlyExpand zone base rule deadline exdates).map p.event := by
  simp only [SeriesFits, expandIntegers, rule_freq, monthly, List.forall_mem_cons] at fits
  exact scan_map_of_collect (fun i => (monthIntegers_breaks i).mp) (fun i => monthlyPassOn_point fits.1) fits.2

/-- While all integers of a series fit, its expander appends on the clock what it appends on exact
integers. -/
theorem expandOn_point :
    expandOn p zone (p.event base) (p.rule rule) (p.point windowStart) (p.point deadline) exdates =
      (expand zone base rule windowStart deadline exdates).map p.event := by
  simp only [expandOn, expand, rule_freq]
  cases freq : rule.freq with
  | daily => exact dailyExpandOn_point fits freq
  | weekly => exact weeklyExpandOn_point fits freq
  | monthly => exact monthlyExpandOn_point fits freq
  | yearly => rfl

end Passes

end DivoomDev.Ics.ClockArithmetic
