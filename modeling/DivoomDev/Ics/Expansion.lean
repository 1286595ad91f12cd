import DivoomDev.Ics.Repetition

/-! What the daily and the weekly expander append, instant by instant, and on which days of
the local week that falls. -/

namespace DivoomDev.Ics.Expansion
open DivoomDev.Library DivoomDev.Library.Bytes Models Datetime Recurrence Clocks ClockArithmetic Series Properties
  Repetition

/-- The instant is in the window, not behind UNTIL, and its local key is no EXDATE. -/
def Passes (zone : SystemZone) (rule : RruleData) (windowStart deadline : TimePoint)
    (exdates : Std.ExtTreeSet Text) (instant : TimePoint) : Prop :=
  windowStart ≤ instant ∧ instant ≤ deadline ∧ (rule.until_ = 0 ∨ instant ≤ rule.until_) ∧
    strftime 16 (zone.localtime (toTimeT instant)) ∉ exdates

section Expanders
variable {zone : SystemZone} {base : ScheduledEvent} {rule : RruleData}
  {windowStart deadline : TimePoint} {exdates : Std.ExtTreeSet Text}

theorem emits_iff (bounded : rule.freq ≠ .monthly) (instant : TimePoint) :
    emits zone rule windowStart deadline exdates instant = true ↔
      Passes zone rule windowStart deadline exdates instant := by
  have excluded : isExcluded zone instant exdates = true ↔
      strftime 16 (zone.localtime (toTimeT instant)) ∈ exdates := Std.ExtTreeSet.contains_iff_mem
  simp only [emits, InBounds, pastUntil, bounded, false_or, Bool.and_eq_true, decide_eq_true_eq,
    Bool.not_eq_true', ← Bool.not_eq_true, excluded, Passes, not_and_or, not_not, not_lt, and_assoc]

theorem mem_expanded {instants : List TimePoint} (bounded : rule.freq ≠ .monthly) (event : ScheduledEvent) :
    event ∈ (instants.filter (emits zone rule windowStart deadline exdates)).map (occurrence base) ↔
      ∃ instant ∈ instants, Passes zone rule windowStart deadline exdates instant ∧
        event = occurrence base instant := by
  simp only [List.mem_map, List.mem_filter, emits_iff bounded, and_assoc, eq_comm (a := event)]

/-! ## Daily series -/

theorem dailyStart_eq (k : Nat) : dailyStart base rule k = base.start + k * rule.interval * hours 24 := by
  rw [dailyStart, Int.mul_assoc, Int.mul_comm]

theorem dailyStart_lt (steps : 1 ≤ rule.interval) {i j : Nat} (before : i < j) :
    dailyStart base rule i < dailyStart base rule j :=
  lt_of_le_of_ne (dailyStart_mono (by omega) before.le)
    (fun same => before.ne (dailyStart_injective (by omega) same))

variable (zone base windowStart deadline exdates) in
/-- A daily series has 365 instants from DTSTART on, and those that pass are appended in order. -/
theorem dailyExpand_exact (daily : rule.freq = .daily) (steps : 1 ≤ rule.interval) :
    (dailyExpand zone base rule windowStart deadline exdates).Pairwise (fun a b => a.start < b.start) ∧
      ∀ event, event ∈ dailyExpand zone base rule windowStart deadline exdates ↔
        ∃ k : Nat, k < 365 ∧
          Passes zone rule windowStart deadline exdates (base.start + k * rule.interval * hours 24) ∧
          event = occurrence base (base.start + k * rule.interval * hours 24) := by
  have bounded : rule.freq ≠ .monthly := bounded_of_repeats (.inl daily)
  rw [dailyExpand_eq daily (by omega)]
  simp only [instants, daily]
  apply And.intro
  · rw [List.pairwise_map]
    apply List.Pairwise.filter
    rw [List.pairwise_map]
    exact List.pairwise_lt_range.imp (dailyStart_lt steps)
  · intro event
    rw [mem_expanded bounded]
    simp only [List.mem_map, List.mem_range, exists_exists_and_eq_and, dailyStart_eq]

variable (windowStart deadline exdates) in
/-- While no integer of a daily series overflows, the instants that pass are appended on the clock. -/
theorem dailyExpandOn_exact {p : Platform} (daily : rule.freq = .daily) (steps : 1 ≤ rule.interval)
    (fits : SeriesFits p zone base rule windowStart deadline exdates) :
    let expanded :=
      dailyExpandOn p zone (p.event base) (p.rule rule) (p.point windowStart) (p.point deadline) exdates
    expanded.Pairwise (fun a b => a.start < b.start) ∧
      ∀ event, event ∈ expanded ↔ ∃ k : Nat, k < 365 ∧
        Passes zone rule windowStart deadline exdates (base.start + k * rule.interval * hours 24) ∧
        event = p.event (occurrence base (base.start + k * rule.interval * hours 24)) := by
  obtain ⟨increasing, exactly⟩ := dailyExpand_exact zone base windowStart deadline exdates daily steps
  simp only [dailyExpandOn_point fits daily]
  apply And.intro
  · rw [List.pairwise_map]
    exact increasing.imp (fun less => Platform.point_lt.mpr less)
  · intro event
    rw [List.mem_map]
    apply Iff.intro
    · intro given
      obtain ⟨_, member, rfl⟩ := given
      obtain ⟨k, bound, passes, rfl⟩ := (exactly _).mp member
      exact ⟨k, bound, passes, rfl⟩
    · intro given
      obtain ⟨k, bound, passes, rfl⟩ := given
      exact ⟨_, (exactly _).mpr ⟨k, bound, passes, rfl⟩, rfl⟩

/-- A Friday at ten in UTC, for an hour. -/
def friday : ScheduledEvent := { start := fromTimeT 1788516000, end_ := fromTimeT 1788519600 }

theorem dailyExpandOn_exact_week :
    (dailyExpandOn .libstdcxx (.fixed 0) (Platform.event .libstdcxx friday) (Platform.rule .libstdcxx {})
        (Platform.point .libstdcxx friday.start) (Platform.point .libstdcxx (friday.start + hours 168)) ∅).Pairwise
        (fun a b => a.start < b.start) ∧
      Platform.event .libstdcxx (occurrence friday (friday.start + 3 * 1 * hours 24)) ∈
        dailyExpandOn .libstdcxx (.fixed 0) (Platform.event .libstdcxx friday) (Platform.rule .libstdcxx {})
          (Platform.point .libstdcxx friday.start) (Platform.point .libstdcxx (friday.start + hours 168)) ∅ := by
  have fits : SeriesFits .libstdcxx (.fixed 0) friday {} friday.start (friday.start + hours 168) ∅ := by
    decide +kernel
  obtain ⟨increasing, exactly⟩ := dailyExpandOn_exact friday.start (friday.start + hours 168) ∅
    (show ({} : RruleData).freq = .daily from rfl) (by decide) fits
  exact ⟨increasing, (exactly _).mpr
    ⟨3, by decide, ⟨by decide, by decide, .inl rfl, Std.ExtTreeSet.not_mem_empty⟩, rfl⟩⟩

/-- Instances that the series has after a year of daily repetitions are not appended. -/
theorem dailyExpand_ends : ¬∀ (p : Platform) (zone : SystemZone) (base : ScheduledEvent) (rule : RruleData)
    (windowStart deadline : TimePoint) (exdates : Std.ExtTreeSet Text), rule.freq = .daily →
    1 ≤ rule.interval → SeriesFits p zone base rule windowStart deadline exdates → ∀ k : Nat,
      Passes zone rule windowStart deadline exdates (base.start + k * rule.interval * hours 24) →
      p.event (occurrence base (base.start + k * rule.interval * hours 24)) ∈
        dailyExpandOn p zone (p.event base) (p.rule rule) (p.point windowStart) (p.point deadline) exdates := by
  intro always
  have appended := always .msvc (.fixed 0) friday {} (fromTimeT 1823040000) (fromTimeT 1823126400) ∅ rfl
    (by decide) (by decide +kernel) 400 ⟨by decide, by decide, .inl rfl, Std.ExtTreeSet.not_mem_empty⟩
  exact absurd appended (by decide +kernel)

/-! ## Weekly series -/

theorem mem_weeklyDays (day : Nat) : day ∈ weeklyDays zone base rule ↔
    day ∈ rule.byday ∨ (rule.byday.isEmpty = true ∧ day = (localDow zone base.start).toNat) := by
  unfold weeklyDays
  split_ifs with empty
  · have none : day ∉ rule.byday := by
      rw [Std.ExtTreeSet.isEmpty_iff.mp empty]
      exact Std.ExtTreeSet.not_mem_empty
    simp [none, empty]
  · simp [empty, Std.ExtTreeSet.mem_toList]

/-- The instant that the rule has in a week for a day of the week. -/
def weekInstant (zone : SystemZone) (base : ScheduledEvent) (rule : RruleData) (week day : Nat) : TimePoint :=
  base.start + hours 24 * (7 * rule.interval * week + ((day : Int) - localDow zone base.start) % 7)

theorem weeklyStart_eq_weekInstant (sound : zone.Sound) {day : Nat} (inWeek : 1 ≤ day) (week : Nat) :
    weeklyStart zone base rule week day = weekInstant zone base rule week day := by
  have dow := localDow_bounds sound base.start
  have positive : 0 ≤ (day : Int) - localDow zone base.start + 7 := by omega
  rw [weeklyStart, weekInstant, Int.tmod_eq_emod_of_nonneg positive, Int.add_emod_right]
  ring

theorem mem_weeklyExpand (weekly : rule.freq = .weekly) (steps : 1 ≤ rule.interval) (sound : zone.Sound)
    (days : ∀ d ∈ rule.byday, 1 ≤ d ∧ d ≤ 7) (event : ScheduledEvent) :
    event ∈ weeklyExpand zone base rule windowStart deadline exdates ↔
      ∃ week < 520, ∃ day ∈ weeklyDays zone base rule,
        Passes zone rule windowStart deadline exdates (weekInstant zone base rule week day) ∧
        event = occurrence base (weekInstant zone base rule week day) := by
  have bounded : rule.freq ≠ .monthly := bounded_of_repeats (.inr weekly)
  have start (week : Nat) {day : Nat} (member : day ∈ weeklyDays zone base rule) :
      weeklyStart zone base rule week day = weekInstant zone base rule week day :=
    weeklyStart_eq_weekInstant sound ((weeklyDays_inWeek sound days).2 day member).1 week
  rw [weeklyExpand_eq weekly sound (by omega), mem_expanded bounded]
  simp only [instants, weekly, List.mem_flatMap, List.mem_map, List.mem_range]
  apply Iff.intro
  · intro given
    obtain ⟨_, ⟨week, bound, day, member, rfl⟩, passes, same⟩ := given
    rw [start week member] at passes same
    exact ⟨week, bound, day, member, passes, same⟩
  · intro given
    obtain ⟨week, bound, day, member, passes, same⟩ := given
    exact ⟨_, ⟨week, bound, day, member, start week member⟩, passes, same⟩

theorem weeklyExpand_nodup (weekly : rule.freq = .weekly) (steps : 1 ≤ rule.interval) (sound : zone.Sound)
    (days : ∀ d ∈ rule.byday, 1 ≤ d ∧ d ≤ 7) :
    ((weeklyExpand zone base rule windowStart deadline exdates).map (fun event => event.start)).Nodup := by
  have rules : RuleSound rule := ⟨by omega, days⟩
  have once : (instants zone base rule).Nodup := instants_nodup sound rules (by omega)
  have starts : (fun event : ScheduledEvent => event.start) ∘ occurrence base = id := rfl
  rw [weeklyExpand_eq weekly sound (by omega), List.map_map, starts, List.map_id]
  exact once.filter _

end Expanders

/-! ## Days of a zone with a fixed offset -/

/-- The number of the local day. -/
def localDay (offset : Int) (tp : TimePoint) : Int := (toTimeT tp + offset) / 86400

theorem localDow_fixed (offset : Int) (tp : TimePoint) :
    localDow (.fixed offset) tp = (localDay offset tp + 3) % 7 + 1 := by
  simp only [localDow, SystemZone.fixed, utcTm, Gregorian.weekday, localDay]
  split_ifs <;> omega

/-- A time point from which to_time_t counts whole days: one behind the epoch, or at a whole
second. -/
def Countable (tp : TimePoint) : Prop := 0 ≤ tp ∨ ticksPerSecond ∣ tp

instance : DecidablePred Countable := fun _ => inferInstanceAs (Decidable (_ ∨ _))

theorem toTimeT_days {tp : TimePoint} (countable : Countable tp) (days : Nat) :
    toTimeT (tp + hours 24 * days) = toTimeT tp + 86400 * days := by
  have day : hours 24 * (days : Int) = ticksPerSecond * (86400 * days) := by
    simp only [hours, ticksPerSecond]
    ring
  rw [day]
  rcases countable with behind | ⟨seconds, rfl⟩
  · have later : 0 ≤ tp + ticksPerSecond * (86400 * (days : Int)) :=
      Int.add_nonneg behind (Int.mul_nonneg (by decide) (by omega))
    rw [toTimeT, toTimeT, Int.tdiv_eq_ediv_of_nonneg later, Int.tdiv_eq_ediv_of_nonneg behind]
    exact Int.add_mul_ediv_left _ _ (by decide)
  · rw [← Int.mul_add, toTimeT, toTimeT, Int.mul_tdiv_cancel_left _ (by decide),
      Int.mul_tdiv_cancel_left _ (by decide)]

theorem localDay_days {tp : TimePoint} (countable : Countable tp) (offset : Int) (days : Nat) :
    localDay offset (tp + hours 24 * days) = localDay offset tp + days := by
  rw [localDay, toTimeT_days countable, localDay]
  omega

section Fixed
variable {offset : Int} {base : ScheduledEvent} {rule : RruleData} {windowStart deadline : TimePoint}
  {exdates : Std.ExtTreeSet Text}

theorem weekInstant_days (zone : SystemZone) (forward : 0 ≤ rule.interval) (week day : Nat) :
    ∃ count : Nat, (count : Int) = 7 * (rule.interval * week) + ((day : Int) - localDow zone base.start) % 7 ∧
      weekInstant zone base rule week day = base.start + hours 24 * count := by
  have weeks : 0 ≤ rule.interval * (week : Int) := Int.mul_nonneg forward (by omega)
  obtain ⟨count, same⟩ := Int.eq_ofNat_of_zero_le
    (show 0 ≤ 7 * (rule.interval * week) + ((day : Int) - localDow zone base.start) % 7 by omega)
  refine ⟨count, same.symm, ?_⟩
  rw [weekInstant, ← same, Int.mul_assoc]

/-- The instant that a rule has for a day of the week falls on that day. -/
theorem localDow_weekInstant (countable : Countable base.start) (forward : 0 ≤ rule.interval) {day : Nat}
    (inWeek : 1 ≤ day ∧ day ≤ 7) (week : Nat) :
    localDow (.fixed offset) (weekInstant (.fixed offset) base rule week day) = day := by
  obtain ⟨count, isCount, same⟩ := weekInstant_days (.fixed offset) forward week day
  rw [same, localDow_fixed, localDay_days countable]
  rw [localDow_fixed] at isCount
  omega

variable (offset base windowStart deadline exdates) in
/-- The weekly expander appends exactly the instants of 520 weeks that pass, each once, with
the duration of the base and on the days of the rule. -/
theorem weeklyExpand_exact (weekly : rule.freq = .weekly) (steps : 1 ≤ rule.interval)
    (days : ∀ d ∈ rule.byday, 1 ≤ d ∧ d ≤ 7) (countable : Countable base.start) :
    let expanded := weeklyExpand (.fixed offset) base rule windowStart deadline exdates
    (expanded.map (fun event => event.start)).Nodup ∧
      (∀ event, event ∈ expanded ↔ ∃ week < 520, ∃ day ∈ weeklyDays (.fixed offset) base rule,
        Passes (.fixed offset) rule windowStart deadline exdates
          (weekInstant (.fixed offset) base rule week day) ∧
        event = occurrence base (weekInstant (.fixed offset) base rule week day)) ∧
      ∀ event ∈ expanded, event.end_ - event.start = base.end_ - base.start ∧
        ∃ day ∈ weeklyDays (.fixed offset) base rule, localDow (.fixed offset) event.start = day := by
  have sound := fixed_sound offset
  refine ⟨weeklyExpand_nodup weekly steps sound days, mem_weeklyExpand weekly steps sound days, ?_⟩
  intro event member
  obtain ⟨week, _, day, ofRule, _, rfl⟩ := (mem_weeklyExpand weekly steps sound days event).mp member
  refine ⟨by simp [occurrence], day, ofRule, ?_⟩
  exact localDow_weekInstant countable (by omega) ((weeklyDays_inWeek sound days).2 day ofRule) week

/-- Every other week on Monday and Friday. -/
def fortnightly : RruleData :=
  { freq := .weekly, interval := 2, byday := ((∅ : Std.ExtTreeSet Nat).insert 1).insert 5 }

theorem fortnightly_days : ∀ d ∈ fortnightly.byday, 1 ≤ d ∧ d ≤ 7 := by
  intro d member
  simp only [fortnightly, Std.ExtTreeSet.mem_insert, Std.LawfulEqCmp.compare_eq_iff_eq,
    Std.ExtTreeSet.not_mem_empty, or_false] at member
  omega

theorem weeklyExpand_exact_fortnight :
    let expanded := weeklyExpand (.fixed 0) friday fortnightly friday.start (friday.start + hours 336) ∅
    (expanded.map (fun event => event.start)).Nodup ∧
      occurrence friday (friday.start + hours 24 * (7 * 2 * 0 + 3)) ∈ expanded := by
  obtain ⟨once, exactly, _⟩ :=
    weeklyExpand_exact 0 friday friday.start (friday.start + hours 336) ∅
      (show fortnightly.freq = .weekly from rfl) (by decide) fortnightly_days (.inl (by decide))
  exact ⟨once, (exactly _).mpr ⟨0, by decide, 1, by decide +kernel,
    ⟨by decide, by decide, .inl rfl, Std.ExtTreeSet.not_mem_empty⟩, rfl⟩⟩

/-! ## Weeks from Monday to Sunday -/

/-- The number of the local week, which begins on a Monday. -/
def localWeek (offset : Int) (tp : TimePoint) : Int := (localDay offset tp + 3) / 7

variable (offset) in
/-- A day of the rule before the day of DTSTART falls into the week behind. -/
theorem localWeek_weekInstant (countable : Countable base.start) (steps : 1 ≤ rule.interval) {day : Nat}
    (inWeek : 1 ≤ day ∧ day ≤ 7) (week : Nat) :
    localWeek offset (weekInstant (.fixed offset) base rule week day) = localWeek offset base.start +
      rule.interval * week + if (day : Int) < localDow (.fixed offset) base.start then 1 else 0 := by
  have forward : 0 ≤ rule.interval := by omega
  obtain ⟨count, isCount, same⟩ := weekInstant_days (.fixed offset) forward week day
  rw [localWeek, same, localDay_days countable, localWeek]
  rw [localDow_fixed] at isCount ⊢
  split_ifs <;> omega

variable (offset) in
theorem onWeek_weekInstant_iff (countable : Countable base.start) (steps : 1 ≤ rule.interval) {day : Nat}
    (inWeek : 1 ≤ day ∧ day ≤ 7) (week : Nat) :
    rule.interval ∣ localWeek offset (weekInstant (.fixed offset) base rule week day) -
        localWeek offset base.start ↔
      (day : Int) < localDow (.fixed offset) base.start → rule.interval = 1 := by
  have split (e : Int) : localWeek offset base.start + rule.interval * week + e -
      localWeek offset base.start = e + rule.interval * week := by ring
  rw [localWeek_weekInstant offset countable steps inWeek week, split, Int.dvd_add_self_mul]
  split_ifs with before
  · have unit : rule.interval ∣ 1 ↔ rule.interval = 1 :=
      ⟨fun divides => Int.eq_one_of_dvd_one (by omega) divides, fun same => same ▸ dvd_rfl⟩
    simp [before, unit]
  · simp [before]

/-- The instances are all in weeks of the series exactly when the rule takes every week, or
nothing is due on the days of the rule before that of DTSTART. -/
theorem weeks_on_iff (weekly : rule.freq = .weekly) (steps : 1 ≤ rule.interval)
    (days : ∀ d ∈ rule.byday, 1 ≤ d ∧ d ≤ 7) (countable : Countable base.start) :
    (∀ event ∈ weeklyExpand (.fixed offset) base rule windowStart deadline exdates,
        rule.interval ∣ localWeek offset event.start - localWeek offset base.start) ↔
      rule.interval = 1 ∨ ∀ day ∈ rule.byday, (day : Int) < localDow (.fixed offset) base.start →
        ∀ week < 520, ¬Passes (.fixed offset) rule windowStart deadline exdates
          (weekInstant (.fixed offset) base rule week day) := by
  have sound := fixed_sound offset
  have late (week : Nat) {day : Nat} (ofRule : day ∈ weeklyDays (.fixed offset) base rule) :=
    onWeek_weekInstant_iff offset countable steps ((weeklyDays_inWeek sound days).2 day ofRule) week
  apply Iff.intro
  · intro onWeek
    by_cases every : rule.interval = 1
    · exact .inl every
    · right
      intro day inByday before week bound passes
      have ofRule : day ∈ weeklyDays (.fixed offset) base rule := (mem_weeklyDays day).mpr (.inl inByday)
      have member := (mem_weeklyExpand weekly steps sound days _).mpr ⟨week, bound, day, ofRule, passes, rfl⟩
      have divides := onWeek _ member
      rw [occurrence_start] at divides
      exact every ((late week ofRule).mp divides before)
  · intro given event member
    obtain ⟨week, bound, day, ofRule, passes, rfl⟩ :=
      (mem_weeklyExpand weekly steps sound days event).mp member
    rw [occurrence_start, late week ofRule]
    intro before
    rcases given with every | quiet
    · exact every
    · rcases (mem_weeklyDays day).mp ofRule with inByday | ⟨_, isDow⟩
      · exact absurd passes (quiet day inByday before week bound)
      · rw [isDow] at before
        omega

end Fixed

theorem localDay_point (p : Platform) (offset : Int) (tp : TimePoint) :
    localDay offset (p.second (p.point tp)) = localDay offset tp := by
  rw [localDay, second_point, toTimeT_fromTimeT, localDay]

/-- The instances are all in weeks of the series, where no integer of it overflows, exactly when the rule
takes every week, or nothing is due on the days of the rule before that of DTSTART. -/
theorem weeksOn_iff {p : Platform} {offset : Int} {base : ScheduledEvent} {rule : RruleData}
    {windowStart deadline : TimePoint} {exdates : Std.ExtTreeSet Text} (weekly : rule.freq = .weekly)
    (steps : 1 ≤ rule.interval) (days : ∀ d ∈ rule.byday, 1 ≤ d ∧ d ≤ 7) (countable : Countable base.start)
    (fits : SeriesFits p (.fixed offset) base rule windowStart deadline exdates) :
    (∀ event ∈ weeklyExpandOn p (.fixed offset) (p.event base) (p.rule rule) (p.point windowStart)
          (p.point deadline) exdates,
        rule.interval ∣ localWeek offset (p.second event.start) - localWeek offset base.start) ↔
      rule.interval = 1 ∨ ∀ day ∈ rule.byday, (day : Int) < localDow (.fixed offset) base.start →
        ∀ week < 520, ¬Passes (.fixed offset) rule windowStart deadline exdates
          (weekInstant (.fixed offset) base rule week day) := by
  rw [weeklyExpandOn_point fits weekly, List.forall_mem_map]
  simp only [localWeek, event_start, localDay_point]
  exact weeks_on_iff weekly steps days countable

theorem weeksOn_iff_fortnight :
    (∀ event ∈ weeklyExpandOn .msvc (.fixed 0) (Platform.event .msvc friday) (Platform.rule .msvc fortnightly)
          (Platform.point .msvc friday.start) (Platform.point .msvc (friday.start + hours 48)) ∅,
        fortnightly.interval ∣ localWeek 0 (Platform.second .msvc event.start) - localWeek 0 friday.start) ↔
      fortnightly.interval = 1 ∨ ∀ day ∈ fortnightly.byday, (day : Int) < localDow (.fixed 0) friday.start →
        ∀ week < 520, ¬Passes (.fixed 0) fortnightly friday.start (friday.start + hours 48) ∅
          (weekInstant (.fixed 0) friday fortnightly week day) :=
  weeksOn_iff rfl (by decide) fortnightly_days (.inl (by decide)) (by decide +kernel)

/-- The Monday behind the first Friday is in a week that the rule leaves out. -/
theorem monday_in_off_week : ¬∀ (p : Platform) (offset : Int) (base : ScheduledEvent) (rule : RruleData)
    (windowStart deadline : TimePoint), rule.freq = .weekly → 1 ≤ rule.interval →
    (∀ d ∈ rule.byday, 1 ≤ d ∧ d ≤ 7) → Countable base.start →
    SeriesFits p (.fixed offset) base rule windowStart deadline ∅ →
    ∀ event ∈ weeklyExpandOn p (.fixed offset) (p.event base) (p.rule rule) (p.point windowStart) (p.point deadline) ∅,
      rule.interval ∣ localWeek offset (p.second event.start) - localWeek offset base.start := by
  intro always
  have onWeek := always .msvc 0 friday fortnightly friday.start (friday.start + hours 336) rfl (by decide)
    fortnightly_days (.inl (by decide)) (by decide +kernel)
    (Platform.event .msvc (occurrence friday (friday.start + hours 72))) (by decide +kernel)
  exact absurd onWeek (by decide +kernel)

end DivoomDev.Ics.Expansion
