import DivoomDev.Ics.Recurrence

/-! What a series is, apart from the loops that expand it: the instants at which its rule
repeats it, and which of them fall due in a window. The expanders emit exactly the due
instants that no EXDATE excludes. -/

namespace DivoomDev.Ics.Series
open DivoomDev.Library DivoomDev.Library.Bytes DivoomDev.Library.Loop Models Datetime Recurrence

section Instants
variable (zone : SystemZone) (base : ScheduledEvent) (rule : RruleData) (instant : TimePoint)

def RecursDaily : Prop := ∃ i < 365, instant = dailyStart base rule i

def RecursWeekly : Prop :=
  ∃ week < 520, ∃ day ∈ weeklyDays zone base rule, instant = weeklyStart zone base rule week day

/-- The rule repeats the series at this instant, whatever the window. -/
def Recurs : Prop :=
  match rule.freq with
  | .daily => RecursDaily base rule instant
  | .weekly => RecursWeekly zone base rule instant
  | .monthly => ∃ i < 24, monthlyTime zone base rule i ≠ -1 ∧
      instant = fromTimeT (monthlyTime zone base rule i)
  | .yearly => False

variable (windowStart deadline : TimePoint)

/-- A month that ends the monthly loop. -/
def MonthEnds (i : Nat) : Prop :=
  monthlyTime zone base rule i ≠ -1 ∧
    (deadline < fromTimeT (monthlyTime zone base rule i) ∨
      pastUntil rule (fromTimeT (monthlyTime zone base rule i)))

/-- The instant is in the window and not behind UNTIL. -/
def WithinBounds : Prop := windowStart ≤ instant ∧ instant ≤ deadline ∧ ¬pastUntil rule instant

/-- The instants that fall due: a daily or weekly series is bounded by the window on both
sides, a monthly one only at its end. -/
def Due : Prop :=
  match rule.freq with
  | .daily => RecursDaily base rule instant ∧ WithinBounds rule instant windowStart deadline
  | .weekly => RecursWeekly zone base rule instant ∧ WithinBounds rule instant windowStart deadline
  | .monthly => ∃ i < 24, monthlyTime zone base rule i ≠ -1 ∧
      instant = fromTimeT (monthlyTime zone base rule i) ∧
      ∀ earlier ≤ i, ¬MonthEnds zone base rule deadline earlier
  | .yearly => False

end Instants

theorem hours_24_nonneg : 0 ≤ hours 24 := by decide

@[simp] theorem occurrence_start (base : ScheduledEvent) (instant : TimePoint) :
    (occurrence base instant).start = instant := rfl

theorem pastUntil_mono {rule : RruleData} {earlier later : TimePoint} (le : earlier ≤ later)
    (past : pastUntil rule earlier) : pastUntil rule later :=
  ⟨past.1, lt_of_lt_of_le past.2 le⟩

/-! ## The instants of a series, one by one -/

/-- The instants of a series in the order in which its expander comes to them, with as many
copies as it makes. -/
def instants (zone : SystemZone) (base : ScheduledEvent) (rule : RruleData) : List TimePoint :=
  match rule.freq with
  | .daily => (List.range 365).map (dailyStart base rule)
  | .weekly => (List.range 520).flatMap (fun week =>
      (weeklyDays zone base rule).map (weeklyStart zone base rule week))
  | .monthly => (((List.range 24).map (monthlyTime zone base rule)).filter (· ≠ -1)).map fromTimeT
  | .yearly => []

theorem mem_instants (zone : SystemZone) (base : ScheduledEvent) (rule : RruleData) (instant : TimePoint) :
    instant ∈ instants zone base rule ↔ Recurs zone base rule instant := by
  unfold instants Recurs
  cases rule.freq with
  | daily => simp [RecursDaily, eq_comm (a := instant)]
  | weekly => simp [RecursWeekly, eq_comm (a := instant)]
  | monthly =>
    simp only [List.mem_map, List.mem_filter, List.mem_range, decide_eq_true_eq]
    apply Iff.intro
    · intro given
      obtain ⟨_, ⟨⟨i, bound, rfl⟩, works⟩, rfl⟩ := given
      exact ⟨i, bound, works, rfl⟩
    · intro given
      obtain ⟨i, bound, works, rfl⟩ := given
      exact ⟨_, ⟨⟨i, bound, rfl⟩, works⟩, rfl⟩
  | yearly => simp

/-- The bounds that the expander of a rule keeps: a monthly series is not bounded by the start
of the window. -/
def InBounds (rule : RruleData) (windowStart deadline instant : TimePoint) : Prop :=
  (rule.freq = .monthly ∨ windowStart ≤ instant) ∧ instant ≤ deadline ∧ ¬pastUntil rule instant

instance (rule : RruleData) (windowStart deadline instant : TimePoint) :
    Decidable (InBounds rule windowStart deadline instant) := inferInstanceAs (Decidable (_ ∧ _))

def emits (zone : SystemZone) (rule : RruleData) (windowStart deadline : TimePoint)
    (exdates : Std.ExtTreeSet Text) (instant : TimePoint) : Bool :=
  InBounds rule windowStart deadline instant && !isExcluded zone instant exdates

section Expanders
variable {zone : SystemZone} {base : ScheduledEvent} {rule : RruleData}
  {windowStart deadline : TimePoint} {exdates : Std.ExtTreeSet Text}

theorem dailyStart_mono (forward : 0 ≤ rule.interval) {i j : Nat} (le : i ≤ j) :
    dailyStart base rule i ≤ dailyStart base rule j := by
  have later : (i : Int) * rule.interval ≤ j * rule.interval :=
    Int.mul_le_mul_of_nonneg_right (by omega) forward
  simp only [dailyStart, Int.mul_assoc]
  exact Int.add_le_add_left (Int.mul_le_mul_of_nonneg_left later hours_24_nonneg) _

theorem bounded_of_repeats (freq : rule.freq = .daily ∨ rule.freq = .weekly) : rule.freq ≠ .monthly := by
  rcases freq with daily | weekly
  · rw [daily]
    decide
  · rw [weekly]
    decide

/-- The checks that the daily and the weekly expander make of an instant, which differ only in
what they do behind the window. -/
theorem checks_emitted (bounded : rule.freq ≠ .monthly) {halt : Verdict ScheduledEvent}
    (silent : halt.emitted = none) (instant : TimePoint) :
    (if instant < windowStart then Verdict.skip
      else if deadline < instant then halt
      else if pastUntil rule instant then halt
      else if isExcluded zone instant exdates then .skip
      else .emit (occurrence base instant)).emitted =
      if emits zone rule windowStart deadline exdates instant then some (occurrence base instant)
      else none := by
  simp only [emits, InBounds, bounded, false_or]
  by_cases before : instant < windowStart
  · simp [before, Verdict.emitted]
  by_cases behind : deadline < instant
  · simp [before, behind, silent]
  by_cases past : pastUntil rule instant
  · simp [before, behind, past, silent]
  cases isExcluded zone instant exdates <;>
    simp [before, behind, past, Verdict.emitted, not_lt.mp before, not_lt.mp behind]

theorem dailyPass_emitted (daily : rule.freq = .daily) (i : Nat) :
    (dailyPass zone base rule windowStart deadline exdates i).emitted =
      if emits zone rule windowStart deadline exdates (dailyStart base rule i) then
        some (occurrence base (dailyStart base rule i)) else none :=
  checks_emitted (bounded_of_repeats (.inl daily)) rfl _

theorem dailyPass_stop (i : Nat)
    (stopped : dailyPass zone base rule windowStart deadline exdates i = .stop) :
    deadline < dailyStart base rule i ∨ pastUntil rule (dailyStart base rule i) := by
  simp only [dailyPass] at stopped
  split_ifs at stopped with _ behind past
  · exact .inl behind
  · exact .inr past

theorem emits_behind {earlier later : TimePoint} (le : earlier ≤ later)
    (ends : deadline < earlier ∨ pastUntil rule earlier) :
    emits zone rule windowStart deadline exdates later = false := by
  have outside : ¬InBounds rule windowStart deadline later := by
    intro within
    rcases ends with behind | past
    · exact absurd within.2.1 (not_le.mpr (lt_of_lt_of_le behind le))
    · exact within.2.2 (pastUntil_mono le past)
  simp [emits, outside]

theorem dailyExpand_eq (daily : rule.freq = .daily) (forward : 0 ≤ rule.interval) :
    dailyExpand zone base rule windowStart deadline exdates =
      ((instants zone base rule).filter (emits zone rule windowStart deadline exdates)).map
        (occurrence base) := by
  have final : (List.range 365).Pairwise (fun i j =>
      dailyPass zone base rule windowStart deadline exdates i = .stop →
        ∀ late, dailyPass zone base rule windowStart deadline exdates j ≠ .emit late) := by
    apply List.pairwise_lt_range.imp
    intro i j lt stopped late emitted
    have silent : emits zone rule windowStart deadline exdates (dailyStart base rule j) = false :=
      emits_behind (dailyStart_mono forward lt.le) (dailyPass_stop i stopped)
    have hit := Verdict.emitted_eq_some.mpr emitted
    rw [dailyPass_emitted daily, silent] at hit
    cases hit
  rw [dailyExpand, scan_eq_map_filter final (dailyPass_emitted daily)]
  simp only [instants, daily]

/-! ## Weekly series -/

theorem localDow_bounds (sound : zone.Sound) (tp : TimePoint) :
    1 ≤ localDow zone tp ∧ localDow zone tp ≤ 7 := by
  have range := sound.weekday (toTimeT tp)
  simp only [localDow]
  split_ifs <;> omega

def daysAhead (zone : SystemZone) (base : ScheduledEvent) (day : Nat) : Int :=
  ((day : Int) - localDow zone base.start + 7).tmod 7

theorem weeklyStart_eq (week day : Nat) : weeklyStart zone base rule week day =
    base.start + hours 24 * (daysAhead zone base day + week * 7 * rule.interval) := rfl

theorem daysAhead_bounds (sound : zone.Sound) (day : Nat) :
    0 ≤ daysAhead zone base day ∧ daysAhead zone base day ≤ 6 := by
  have dow := localDow_bounds sound base.start
  have positive : 0 ≤ (day : Int) - localDow zone base.start + 7 := by omega
  rw [daysAhead, Int.tmod_eq_emod_of_nonneg positive]
  omega

theorem weeklyDays_inWeek (sound : zone.Sound) (days : ∀ d ∈ rule.byday, 1 ≤ d ∧ d ≤ 7) :
    (weeklyDays zone base rule).Nodup ∧ ∀ d ∈ weeklyDays zone base rule, 1 ≤ d ∧ d ≤ 7 := by
  unfold weeklyDays
  split_ifs with empty
  · have dow := localDow_bounds sound base.start
    refine ⟨List.nodup_singleton _, fun d member => ?_⟩
    rw [List.mem_singleton.mp member]
    omega
  · refine ⟨?_, fun d member => days d (Std.ExtTreeSet.mem_toList.mp member)⟩
    exact Std.ExtTreeSet.distinct_toList.imp (fun different same =>
      different (Std.LawfulEqCmp.compare_eq_iff_eq.mpr same))

theorem weeklyAnchor_mono (forward : 0 ≤ rule.interval) {a b : Nat} (le : a ≤ b) :
    weeklyAnchor base rule a ≤ weeklyAnchor base rule b := by
  have later : (a : Int) * 7 * rule.interval ≤ b * 7 * rule.interval :=
    Int.mul_le_mul_of_nonneg_right (by omega) forward
  exact Int.add_le_add_left (Int.mul_le_mul_of_nonneg_left later hours_24_nonneg) _

theorem weeklyAnchor_le_start (sound : zone.Sound) (week day : Nat) :
    weeklyAnchor base rule week ≤ weeklyStart zone base rule week day := by
  have ahead : 0 ≤ ((day : Int) - localDow zone base.start + 7).tmod 7 := by
    have dow := localDow_bounds sound base.start
    exact Int.tmod_nonneg 7 (by omega)
  exact Int.add_le_add_left
    (Int.mul_le_mul_of_nonneg_left (Int.le_add_of_nonneg_left ahead) hours_24_nonneg) _

theorem weeklyDay_emitted (weekly : rule.freq = .weekly) (week day : Nat) :
    (weeklyDay zone base rule windowStart deadline exdates week day).emitted =
      if emits zone rule windowStart deadline exdates (weeklyStart zone base rule week day) then
        some (occurrence base (weeklyStart zone base rule week day)) else none :=
  checks_emitted (bounded_of_repeats (.inr weekly)) rfl _

theorem weeklyDay_ne_stop (week day : Nat) :
    weeklyDay zone base rule windowStart deadline exdates week day ≠ .stop := by
  simp only [weeklyDay]
  split_ifs <;> simp

/-- One week of a series. The check of its anchor loses nothing, as its days are behind it. -/
theorem weeklyPass_emitted (weekly : rule.freq = .weekly) (sound : zone.Sound) (week : Nat) :
    (weeklyPass zone base rule windowStart deadline exdates week).emitted.getD [] =
      (((weeklyDays zone base rule).map (weeklyStart zone base rule week)).filter
        (emits zone rule windowStart deadline exdates)).map (occurrence base) := by
  by_cases ends : deadline < weeklyAnchor base rule week
  · have silent : ∀ instant ∈ (weeklyDays zone base rule).map (weeklyStart zone base rule week),
        emits zone rule windowStart deadline exdates instant = false := by
      intro instant member
      obtain ⟨day, _, rfl⟩ := List.mem_map.mp member
      exact emits_behind (weeklyAnchor_le_start sound week day) (.inl ends)
    rw [List.filter_eq_nil_iff.mpr (fun instant member => by simp [silent instant member])]
    simp only [weeklyPass, if_pos ends, Verdict.emitted, Option.getD_none, List.map_nil]
  · simp only [weeklyPass, if_neg ends, Verdict.emitted, Option.getD_some]
    exact scan_eq_map_filter
      (List.pairwise_of_forall (fun day _ stopped => absurd stopped (weeklyDay_ne_stop week day)))
      (weeklyDay_emitted weekly week)

theorem weeklyExpand_eq (weekly : rule.freq = .weekly) (sound : zone.Sound) (forward : 0 ≤ rule.interval) :
    weeklyExpand zone base rule windowStart deadline exdates =
      ((instants zone base rule).filter (emits zone rule windowStart deadline exdates)).map
        (occurrence base) := by
  have final : (List.range 520).Pairwise (fun a b =>
      weeklyPass zone base rule windowStart deadline exdates a = .stop →
        ∀ late, weeklyPass zone base rule windowStart deadline exdates b ≠ .emit late) := by
    apply List.pairwise_lt_range.imp
    intro a b lt stopped late emitted
    have later : weeklyAnchor base rule a ≤ weeklyAnchor base rule b := weeklyAnchor_mono forward lt.le
    simp only [weeklyPass] at stopped emitted
    split_ifs at stopped emitted with endsA endsB
    exact endsB (lt_of_lt_of_le endsA later)
  rw [weeklyExpand, flatten_scan_eq_flatMap final (weeklyPass_emitted weekly sound)]
  simp only [instants, weekly, List.filter_flatMap, List.map_flatMap]

/-! ## Monthly series -/

/-- The months of a series as wall-clock readings in UTC. -/
def monthlyWall (zone : SystemZone) (base : ScheduledEvent) (month0 : Int) : Int :=
  let tm := zone.localtime (toTimeT base.start)
  Gregorian.wallSeconds (tm.tmYear + 1900) (tm.tmMon + month0) tm.tmMday 0 0 0

/-- A later month of a series is at least 26 days later, unless it is the same month. -/
theorem monthlyTime_gap (sound : zone.Sound) (forward : 0 ≤ rule.interval) {i j : Nat} (le : i ≤ j)
    (worksI : monthlyTime zone base rule i ≠ -1) (worksJ : monthlyTime zone base rule j ≠ -1) :
    (i * rule.interval = j * rule.interval ∧
      monthlyTime zone base rule i = monthlyTime zone base rule j) ∨
    monthlyTime zone base rule i + 26 * 86400 ≤ monthlyTime zone base rule j := by
  obtain ⟨offset, near⟩ := sound.near
  have nearI : |monthlyTime zone base rule i - (monthlyWall zone base (i * rule.interval) - offset)| ≤ 86400 :=
    near _ worksI
  have nearJ : |monthlyTime zone base rule j - (monthlyWall zone base (j * rule.interval) - offset)| ≤ 86400 :=
    near _ worksJ
  have later : (i : Int) * rule.interval ≤ j * rule.interval :=
    Int.mul_le_mul_of_nonneg_right (by omega) forward
  obtain ⟨months, count⟩ := Int.eq_ofNat_of_zero_le (Int.sub_nonneg.mpr later)
  cases months with
  | zero =>
    have same : (i : Int) * rule.interval = j * rule.interval := by omega
    exact .inl ⟨same, by simp only [monthlyTime, same]⟩
  | succ months =>
    have gap : monthlyWall zone base (i * rule.interval) + ((months + 1 : Nat) : Int) * (28 * 86400) ≤
        monthlyWall zone base (j * rule.interval) := by
      have ahead : (j : Int) * rule.interval = i * rule.interval + ((months + 1 : Nat) : Int) := by omega
      simp only [monthlyWall, ahead, ← Int.add_assoc]
      exact Gregorian.wallSeconds_months _ _ _ _ _ _ _
    rw [abs_le] at nearI nearJ
    right
    omega

theorem monthlyTime_mono (sound : zone.Sound) (forward : 0 ≤ rule.interval) {i j : Nat} (le : i ≤ j)
    (worksI : monthlyTime zone base rule i ≠ -1) (worksJ : monthlyTime zone base rule j ≠ -1) :
    fromTimeT (monthlyTime zone base rule i) ≤ fromTimeT (monthlyTime zone base rule j) := by
  have seconds : monthlyTime zone base rule i ≤ monthlyTime zone base rule j := by
    rcases monthlyTime_gap sound forward le worksI worksJ with ⟨_, same⟩ | gap
    · exact same.le
    · omega
  exact Int.mul_le_mul_of_nonneg_right seconds (by decide)

variable (windowStart) in
theorem monthlyPass_emitted (monthly : rule.freq = .monthly) (i : Nat) :
    (monthlyPass zone base rule deadline exdates i).emitted =
      if emits zone rule windowStart deadline exdates (fromTimeT (monthlyTime zone base rule i)) &&
          decide (monthlyTime zone base rule i ≠ -1) then
        some (occurrence base (fromTimeT (monthlyTime zone base rule i))) else none := by
  simp only [monthlyPass, emits, InBounds, monthly, true_or, true_and]
  generalize monthlyTime zone base rule i = newT
  by_cases failed : newT = -1
  · simp [failed, Verdict.emitted]
  by_cases behind : deadline < fromTimeT newT
  · simp [failed, behind, Verdict.emitted]
  by_cases past : pastUntil rule (fromTimeT newT)
  · simp [failed, behind, past, Verdict.emitted]
  cases isExcluded zone (fromTimeT newT) exdates <;>
    simp [failed, behind, past, Verdict.emitted, not_lt.mp behind]

theorem monthlyPass_stop (i : Nat) :
    monthlyPass zone base rule deadline exdates i = .stop ↔ MonthEnds zone base rule deadline i := by
  simp only [monthlyPass, MonthEnds]
  split_ifs <;> simp_all

theorem monthlyExpand_eq (monthly : rule.freq = .monthly) (sound : zone.Sound) (forward : 0 ≤ rule.interval) :
    monthlyExpand zone base rule deadline exdates =
      ((instants zone base rule).filter (emits zone rule windowStart deadline exdates)).map
        (occurrence base) := by
  have final : (List.range 24).Pairwise (fun i j =>
      monthlyPass zone base rule deadline exdates i = .stop →
        ∀ late, monthlyPass zone base rule deadline exdates j ≠ .emit late) := by
    apply List.pairwise_lt_range.imp
    intro i j lt stopped late emitted
    obtain ⟨worksI, ends⟩ := (monthlyPass_stop i).mp stopped
    have hit := Verdict.emitted_eq_some.mpr emitted
    rw [monthlyPass_emitted windowStart monthly] at hit
    by_cases worksJ : monthlyTime zone base rule j = -1
    · simp [worksJ] at hit
    · have silent : emits zone rule windowStart deadline exdates (fromTimeT (monthlyTime zone base rule j)) =
          false := emits_behind (monthlyTime_mono sound forward lt.le worksI worksJ) ends
      simp [silent] at hit
  have scanned : scan (monthlyPass zone base rule deadline exdates) (List.range 24) =
      (((List.range 24).map (monthlyTime zone base rule)).filter (fun newT =>
        emits zone rule windowStart deadline exdates (fromTimeT newT) && decide (newT ≠ -1))).map
          (fun newT => occurrence base (fromTimeT newT)) :=
    scan_eq_map_filter final (monthlyPass_emitted windowStart monthly)
  rw [monthlyExpand, scanned]
  simp only [instants, monthly, List.filter_map, List.map_map, List.filter_filter]
  rfl

end Expanders

/-- An expander emits one copy of the base event for each instant of the series that lies in
its bounds and is not excluded. -/
theorem expand_eq {zone : SystemZone} {base : ScheduledEvent} {rule : RruleData}
    {windowStart deadline : TimePoint} {exdates : Std.ExtTreeSet Text} (sound : zone.Sound)
    (forward : 0 ≤ rule.interval) :
    expand zone base rule windowStart deadline exdates =
      ((instants zone base rule).filter (emits zone rule windowStart deadline exdates)).map
        (occurrence base) := by
  unfold expand
  cases freq : rule.freq with
  | daily => exact dailyExpand_eq freq forward
  | weekly => exact weeklyExpand_eq freq sound forward
  | monthly => exact monthlyExpand_eq freq sound forward
  | yearly => simp [instants, freq]

theorem due_iff {zone : SystemZone} {base : ScheduledEvent} {rule : RruleData}
    {instant windowStart deadline : TimePoint} (sound : zone.Sound) (forward : 0 ≤ rule.interval) :
    Due zone base rule instant windowStart deadline ↔
      Recurs zone base rule instant ∧ InBounds rule windowStart deadline instant := by
  unfold Due Recurs InBounds WithinBounds
  cases freq : rule.freq with
  | daily => simp
  | weekly => simp
  | monthly =>
    simp only [true_or, true_and]
    apply Iff.intro
    · intro given
      obtain ⟨i, bound, works, rfl, opens⟩ := given
      have here : ¬(deadline < fromTimeT (monthlyTime zone base rule i) ∨
          pastUntil rule (fromTimeT (monthlyTime zone base rule i))) :=
        fun ends => opens i le_rfl ⟨works, ends⟩
      exact ⟨⟨i, bound, works, rfl⟩, not_lt.mp (fun behind => here (.inl behind)),
        fun past => here (.inr past)⟩
    · intro given
      obtain ⟨⟨i, bound, works, rfl⟩, inside, opens⟩ := given
      refine ⟨i, bound, works, rfl, fun earlier le ends => ?_⟩
      obtain ⟨worksEarlier, behind | past⟩ := ends
      · exact absurd (lt_of_lt_of_le behind (monthlyTime_mono sound forward le worksEarlier works))
          (not_lt.mpr inside)
      · exact opens (pastUntil_mono (monthlyTime_mono sound forward le worksEarlier works) past)
  | yearly => simp

theorem mem_expand {zone : SystemZone} {base : ScheduledEvent} {rule : RruleData}
    {windowStart deadline : TimePoint} {exdates : Std.ExtTreeSet Text} (sound : zone.Sound)
    (forward : 0 ≤ rule.interval) (event : ScheduledEvent) :
    event ∈ expand zone base rule windowStart deadline exdates ↔
      ∃ instant, Due zone base rule instant windowStart deadline ∧
        isExcluded zone instant exdates = false ∧ event = occurrence base instant := by
  rw [expand_eq sound forward]
  simp only [List.mem_map, List.mem_filter, mem_instants, emits, Bool.and_eq_true, decide_eq_true_eq,
    Bool.not_eq_true', due_iff sound forward, and_assoc, eq_comm (a := event)]

end DivoomDev.Ics.Series
