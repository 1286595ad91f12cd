import DivoomDev.Ics.Exclusion
import DivoomDev.Ics.Selection

/-! How often an occurrence of a series is returned. A rule that steps forward comes to every
instant once; one whose interval is zero comes to the same instants again and again. -/

namespace DivoomDev.Ics.Repetition
open DivoomDev.Library DivoomDev.Library.Bytes DivoomDev.Library.Fallible Models Datetime Recurrence
  Window OverrideApplier Pipeline Clocks ClockArithmetic ClockPipeline Series Properties Exclusion Selection

section Instants
variable {zone : SystemZone} {base : ScheduledEvent} {rule : RruleData}

/-! ## Rules that step forward -/

theorem hours_24_pos : 0 < hours 24 := by decide

theorem dailyStart_injective (steps : 0 < rule.interval) : Function.Injective (dailyStart base rule) := by
  intro i j same
  have days : (i : Int) * rule.interval = j * rule.interval := by
    simp only [dailyStart, Int.mul_assoc] at same
    exact Int.eq_of_mul_eq_mul_left hours_24_pos.ne' (Int.add_left_cancel same)
  have count : (i : Int) = j := Int.eq_of_mul_eq_mul_right steps.ne' days
  exact Int.ofNat.inj count

theorem daysAhead_injective (sound : zone.Sound) {a b : Nat} (inWeekA : 1 ≤ a ∧ a ≤ 7)
    (inWeekB : 1 ≤ b ∧ b ≤ 7) (same : daysAhead zone base a = daysAhead zone base b) : a = b := by
  have dow := localDow_bounds sound base.start
  have positiveA : 0 ≤ (a : Int) - localDow zone base.start + 7 := by omega
  have positiveB : 0 ≤ (b : Int) - localDow zone base.start + 7 := by omega
  rw [daysAhead, daysAhead, Int.tmod_eq_emod_of_nonneg positiveA, Int.tmod_eq_emod_of_nonneg positiveB] at same
  omega

theorem weeklyStart_injective (sound : zone.Sound) (steps : 0 < rule.interval) {week week' a b : Nat}
    (same : weeklyStart zone base rule week a = weeklyStart zone base rule week' b) :
    week = week' ∧ daysAhead zone base a = daysAhead zone base b := by
  have boundsA : 0 ≤ daysAhead zone base a ∧ daysAhead zone base a ≤ 6 := daysAhead_bounds sound a
  have boundsB : 0 ≤ daysAhead zone base b ∧ daysAhead zone base b ≤ 6 := daysAhead_bounds sound b
  have days : daysAhead zone base a + 7 * ((week : Int) * rule.interval) =
      daysAhead zone base b + 7 * ((week' : Int) * rule.interval) := by
    have offsets := Int.eq_of_mul_eq_mul_left hours_24_pos.ne' (Int.add_left_cancel same)
    have left : (week : Int) * 7 * rule.interval = 7 * ((week : Int) * rule.interval) := by ring
    have right : (week' : Int) * 7 * rule.interval = 7 * ((week' : Int) * rule.interval) := by ring
    rwa [left, right] at offsets
  have weeks : (week : Int) * rule.interval = week' * rule.interval := by omega
  have count : (week : Int) = week' := Int.eq_of_mul_eq_mul_right steps.ne' weeks
  exact ⟨Int.ofNat.inj count, by omega⟩

theorem instants_nodup (sound : zone.Sound) (rules : RuleSound rule) (steps : rule.interval ≠ 0) :
    (instants zone base rule).Nodup := by
  have positive : 0 < rule.interval := lt_of_le_of_ne rules.forward steps.symm
  unfold instants
  cases rule.freq with
  | daily => exact List.nodup_range.map (dailyStart_injective positive)
  | weekly =>
    obtain ⟨nodup, inWeek⟩ : (weeklyDays zone base rule).Nodup ∧ _ := weeklyDays_inWeek sound rules.days
    refine List.nodup_flatMap.mpr ⟨fun week _ => nodup.map_on ?_, ?_⟩
    · intro a memberA b memberB same
      exact daysAhead_injective sound (inWeek a memberA) (inWeek b memberB)
        (weeklyStart_injective sound positive same).2
    · apply List.pairwise_lt_range.imp
      intro week later lt instant inFirst inSecond
      obtain ⟨a, _, rfl⟩ := List.mem_map.mp inFirst
      obtain ⟨b, _, same⟩ := List.mem_map.mp inSecond
      exact lt.ne (weeklyStart_injective sound positive same.symm).1
  | monthly =>
    have ordered : ((List.range 24).filter (fun i => monthlyTime zone base rule i ≠ -1)).Pairwise
        (fun i j => fromTimeT (monthlyTime zone base rule i) ≠ fromTimeT (monthlyTime zone base rule j)) := by
      apply (List.pairwise_lt_range.filter _).imp_of_mem
      intro i j memberI memberJ lt same
      have worksI : monthlyTime zone base rule i ≠ -1 := by simpa using (List.mem_filter.mp memberI).2
      have worksJ : monthlyTime zone base rule j ≠ -1 := by simpa using (List.mem_filter.mp memberJ).2
      have seconds : monthlyTime zone base rule i = monthlyTime zone base rule j :=
        Int.eq_of_mul_eq_mul_right (by decide) same
      rcases monthlyTime_gap sound rules.forward lt.le worksI worksJ with ⟨months, _⟩ | gap
      · have count : (i : Int) = j := Int.eq_of_mul_eq_mul_right positive.ne' months
        omega
      · omega
    rw [List.filter_map, List.map_map]
    exact List.pairwise_map.mpr ordered
  | yearly => exact List.nodup_nil

/-! ## Rules that stand still -/

theorem instants_twice (still : rule.interval = 0) {instant : TimePoint}
    (member : instant ∈ instants zone base rule) : [instant, instant].Sublist (instants zone base rule) := by
  have passes (bound : Nat) (enough : 2 ≤ bound) : [0, 1].Sublist (List.range bound) := by
    obtain ⟨more, rfl⟩ := Nat.exists_eq_add_of_le enough
    rw [List.range_add]
    exact List.sublist_append_left [0, 1] _
  unfold instants at member ⊢
  cases freq : rule.freq with
  | daily =>
    simp only [freq] at member ⊢
    obtain ⟨i, _, rfl⟩ := List.mem_map.mp member
    have same (j : Nat) : dailyStart base rule j = dailyStart base rule i := by simp [dailyStart, still]
    have twice := (passes 365 (by decide)).map (dailyStart base rule)
    rwa [List.map_cons, List.map_cons, List.map_nil, same 0, same 1] at twice
  | weekly =>
    simp only [freq] at member ⊢
    obtain ⟨week, _, inWeek⟩ := List.mem_flatMap.mp member
    have same (other : Nat) : (weeklyDays zone base rule).map (weeklyStart zone base rule other) =
        (weeklyDays zone base rule).map (weeklyStart zone base rule week) := by
      apply List.map_congr_left
      intro day _
      simp only [weeklyStart_eq, still, Int.mul_zero]
    have twice := (passes 520 (by decide)).flatMap
      (fun other => (weeklyDays zone base rule).map (weeklyStart zone base rule other))
    rw [List.flatMap_cons, List.flatMap_cons, List.flatMap_nil, List.append_nil, same 0, same 1] at twice
    have once := List.singleton_sublist.mpr inWeek
    exact (once.append once).trans twice
  | monthly =>
    simp only [freq] at member ⊢
    obtain ⟨seconds, inMonths, rfl⟩ := List.mem_map.mp member
    obtain ⟨inRange, works⟩ := List.mem_filter.mp inMonths
    obtain ⟨i, _, rfl⟩ := List.mem_map.mp inRange
    have same (j : Nat) : monthlyTime zone base rule j = monthlyTime zone base rule i := by
      simp [monthlyTime, still]
    have kept : [monthlyTime zone base rule i, monthlyTime zone base rule i].filter (· ≠ -1) =
        [monthlyTime zone base rule i, monthlyTime zone base rule i] :=
      List.filter_eq_self.mpr (by simpa using works)
    have twice := (((passes 24 (by decide)).map (monthlyTime zone base rule)).filter (· ≠ -1)).map fromTimeT
    rwa [List.map_cons, List.map_cons, List.map_nil, same 0, same 1, kept] at twice
  | yearly =>
    simp only [freq] at member
    cases member

end Instants

/-! ## What is returned of one master -/

/-- No two VEVENTs have the same UID and the same RECURRENCE-ID, or both none. -/
def Distinct (vevents : List Vevent) : Prop :=
  vevents.Pairwise (fun v w => ¬(v.raw.ev.uid = w.raw.ev.uid ∧
    lastValue "RECURRENCE-ID" v.block.eventLines = lastValue "RECURRENCE-ID" w.block.eventLines))

theorem distinct_nodup {vevents : List Vevent} (distinct : Distinct vevents) : vevents.Nodup := by
  apply distinct.imp
  intro v w different same
  apply different
  rw [same]
  exact ⟨rfl, rfl⟩

theorem tracedEvents_ofMaster {zone : SystemZone} {now : TimePoint} {settings : CalendarSettings}
    {vevents : List Vevent} (once : vevents.Nodup) {v : Vevent} (member : v ∈ vevents)
    (master : v.raw.hasRecurrenceId = false) :
    ((tracedEvents zone now settings vevents).filter (fun traced => traced.source = v)).Perm
      ((masterEvents zone (computeWindow zone now settings) (buildIndex (vevents.map Vevent.raw)) v.raw).map
        (TracedEvent.mk v)) := by
  have perm := (tracedEvents_perm zone now settings vevents).filter (fun traced => traced.source = v)
  have noOverride : ((vevents.filter (fun v => overrideShown (computeWindow zone now settings) v.raw)).map
      (fun v => (⟨v, v.raw.ev⟩ : TracedEvent))).filter (fun traced => traced.source = v) = [] := by
    rw [List.filter_eq_nil_iff]
    intro traced inside source
    obtain ⟨w, shown, rfl⟩ := List.mem_map.mp inside
    have same : w = v := of_decide_eq_true source
    have kept := (List.mem_filter.mp shown).2
    simp [overrideShown, same, master] at kept
  have ofOther (w : Vevent) (other : w ≠ v) (events : List ScheduledEvent) :
      (events.map (TracedEvent.mk w)).filter (fun traced => traced.source = v) = [] := by
    simp [List.filter_map, Function.comp_def, other]
  have ofSame (events : List ScheduledEvent) :
      (events.map (TracedEvent.mk v)).filter (fun traced => traced.source = v) =
        events.map (TracedEvent.mk v) := by
    simp [List.filter_map, Function.comp_def]
  rw [List.filter_append, noOverride, List.append_nil, List.filter_flatMap,
    Loop.flatMap_eq_single once member (fun w _ other => ofOther w other _), ofSame] at perm
  exact perm

theorem masterEvents_starts {zone : SystemZone} {win : TimeWindow} {overrides : Index} {r : RawEvent}
    (sound : zone.Sound) (forward : 0 ≤ r.rrule.interval) (master : r.hasRecurrenceId = false)
    (active : r.ev.status ≠ .canceled) (repeats : r.hasRrule = true) :
    (masterEvents zone win overrides r).map (fun event => event.start) =
      (instants zone r.ev r.rrule).filter (fun instant =>
        emits zone r.rrule win.start win.deadline r.exdates instant &&
          !isOverridden overrides r.ev.uid (formatLocalDt zone instant)) := by
  rw [masterEvents_series master active repeats, expand_eq sound forward, List.filter_map, List.map_map,
    List.filter_filter]
  have starts : (fun event : ScheduledEvent => event.start) ∘
      occurrence (applyRepeatMetadata r.ev r.rrule) = id := rfl
  rw [starts, List.map_id]
  have sameInstants : instants zone (applyRepeatMetadata r.ev r.rrule) r.rrule =
      instants zone r.ev r.rrule := rfl
  rw [sameInstants]
  apply List.filter_congr
  intro instant _
  rw [Bool.and_comm]
  rfl

theorem masterEvents_nodup {zone : SystemZone} {win : TimeWindow} {overrides : Index} {r : RawEvent}
    (sound : zone.Sound) (rules : RuleSound r.rrule)
    (steps : r.hasRrule = true → r.rrule.interval ≠ 0) :
    ((masterEvents zone win overrides r).map (fun event => event.start)).Nodup := by
  by_cases override : r.hasRecurrenceId = true
  · simp [masterEvents, override]
  have master : r.hasRecurrenceId = false := Bool.eq_false_iff.mpr override
  by_cases canceled : r.ev.status = .canceled
  · simp [masterEvents, canceled]
  by_cases repeats : r.hasRrule = true
  · rw [masterEvents_starts sound rules.forward master canceled repeats]
    exact (instants_nodup sound rules (steps repeats)).filter _
  · rw [masterEvents_single master canceled repeats]
    split_ifs <;> simp

theorem masterEvents_twice {zone : SystemZone} {win : TimeWindow} {overrides : Index} {r : RawEvent}
    (sound : zone.Sound) (repeats : r.hasRrule = true) (still : r.rrule.interval = 0)
    {event : ScheduledEvent} (shown : event ∈ masterEvents zone win overrides r) :
    ¬((masterEvents zone win overrides r).map (fun event => event.start)).Nodup := by
  have master : r.hasRecurrenceId = false := by
    by_contra override
    simp [masterEvents, override] at shown
  have active : r.ev.status ≠ .canceled := by
    intro canceled
    simp [masterEvents, canceled] at shown
  have starts : (masterEvents zone win overrides r).map (fun event => event.start) = _ :=
    masterEvents_starts sound still.ge master active repeats
  have member : event.start ∈ (masterEvents zone win overrides r).map (fun event => event.start) :=
    List.mem_map_of_mem shown
  rw [starts] at member ⊢
  obtain ⟨isInstant, kept⟩ := List.mem_filter.mp member
  intro nodup
  have twice := (instants_twice still isInstant).filter (fun instant =>
    emits zone r.rrule win.start win.deadline r.exdates instant &&
      !isOverridden overrides r.ev.uid (formatLocalDt zone instant))
  simp only [List.filter_cons, kept, if_true, List.filter_nil] at twice
  exact List.nodup_iff_sublist.mp nodup _ twice

/-- No two of the events that come from one master have the same start. -/
def OccurrencesOnce (p : Platform) (zone : SystemZone) (icsContent : Text) (now : TimePoint)
    (settings : CalendarSettings) : Prop :=
  ∀ vevents, calendarVevents zone icsContent = .ok vevents → Distinct vevents →
    ∀ v ∈ vevents, v.raw.hasRecurrenceId = false →
      (((tracedEventsOn p zone (p.point now) settings vevents).filter (fun traced => traced.source = v)).map
        (fun traced => traced.event.start)).Nodup

/-- The interval of each series is not zero, or the series has nothing to show. -/
def StepsOrIdle (zone : SystemZone) (icsContent : Text) (now : TimePoint) (settings : CalendarSettings) :
    Prop :=
  ∀ vevents, calendarVevents zone icsContent = .ok vevents → Distinct vevents →
    ∀ v ∈ vevents, v.raw.hasRecurrenceId = false → v.raw.hasRrule = true →
      v.raw.rrule.interval ≠ 0 ∨ ∀ instant, TakenByText zone vevents v instant ∨
        ¬MasterDue zone (computeWindow zone now settings) v.raw instant

theorem starts_nodup_iff {p : Platform} {zone : SystemZone} {now : TimePoint} {settings : CalendarSettings}
    {vevents : List Vevent} (fits : ∀ c ∈ callIntegers p zone now settings vevents, c.Fits) (v : Vevent) :
    (((tracedEventsOn p zone (p.point now) settings vevents).filter (fun traced => traced.source = v)).map
        (fun traced => traced.event.start)).Nodup ↔
      (((tracedEvents zone now settings vevents).filter (fun traced => traced.source = v)).map
        (fun traced => traced.event.start)).Nodup := by
  have points (shown : List TracedEvent) : (shown.map (tracedOf p)).map (fun traced => traced.event.start) =
      (shown.map (fun traced => traced.event.start)).map p.point := by
    rw [List.map_map, List.map_map]
    rfl
  rw [tracedEventsOn_eq fits, List.filter_map, points]
  exact List.nodup_map_iff p.point_injective

/-- A series is returned without repetitions, where no time overflows, exactly where its INTERVAL is not
zero, or where nothing of it is due. -/
theorem occurrencesOnce_iff {p : Platform} {zone : SystemZone} (sound : zone.Sound) {icsContent : Text}
    {now : TimePoint} {settings : CalendarSettings} (fits : NoOverflow p zone now settings icsContent) :
    OccurrencesOnce p zone icsContent now settings ↔ StepsOrIdle zone icsContent now settings := by
  refine forall_congr' fun vevents => forall_congr' fun read => forall_congr' fun distinct =>
    forall_congr' fun v => forall_congr' fun member => forall_congr' fun master =>
    (starts_nodup_iff (fits vevents read) v).trans ?_
  have rules : RuleSound v.raw.rrule := (calendarVevents_keeps read member).rule
  have ofMaster : ((tracedEvents zone now settings vevents).filter (fun traced => traced.source = v)).Perm _ :=
    tracedEvents_ofMaster (distinct_nodup distinct) member master
  have starts := (ofMaster.map (fun traced => traced.event.start)).nodup_iff
  rw [List.map_map] at starts
  have shown (instant : TimePoint) : (∃ event ∈ masterEvents zone (computeWindow zone now settings) _ v.raw,
      event.start = instant) ↔ _ :=
    masterEvents_start_iff (fun w inside => (calendarVevents_keeps read inside).text) member sound
      rules.forward master instant
  refine starts.trans ⟨fun nodup repeats => ?_, fun steps => ?_⟩
  · by_contra missed
    simp only [not_or, not_not, not_forall] at missed
    obtain ⟨still, instant, free, due⟩ := missed
    obtain ⟨event, inside, _⟩ := (shown instant).mpr ⟨due, free⟩
    exact masterEvents_twice sound repeats still inside nodup
  · by_cases moves : v.raw.hasRrule = true → v.raw.rrule.interval ≠ 0
    · exact masterEvents_nodup sound rules moves
    · simp only [Classical.not_imp, not_not] at moves
      -- nothing is shown, so there is nothing to repeat
      have idle := (steps moves.1).resolve_left (not_not.mpr moves.2)
      have none : masterEvents zone (computeWindow zone now settings)
          (buildIndex (vevents.map Vevent.raw)) v.raw = [] := by
        apply List.eq_nil_iff_forall_not_mem.mpr
        intro event inside
        obtain ⟨due, free⟩ := (shown event.start).mp ⟨event, inside, rfl⟩
        exact (idle event.start).elim free (fun notDue => notDue due)
      rw [none]
      exact List.nodup_nil

def stillLines : List Text :=
  [text "UID:a", text "DTSTART:20260904T100000Z", text "RRULE:FREQ=DAILY;INTERVAL=0"]

def stillVevent : Vevent where
  block := ⟨stillLines, []⟩
  raw :=
    { ev := { uid := text "a", start := fromTimeT 1788516000 }
      rrule := { interval := 0 }
      hasRrule := true }

theorem stillVevent_read : calendarVevents (.fixed 0) (veventText stillLines) = .ok [stillVevent] := by
  decide +kernel

theorem occurrencesOnce_iff_utc :
    OccurrencesOnce .msvc (.fixed 0) (veventText stillLines) (fromTimeT 1788480000) {} ↔
      StepsOrIdle (.fixed 0) (veventText stillLines) (fromTimeT 1788480000) {} :=
  occurrencesOnce_iff (fixed_sound 0) (noOverflow_of_read .msvc _ _ _ stillVevent_read (by decide +kernel))

/-- The one day of the series is returned 365 times. -/
theorem series_repeats_one_day :
    ¬∀ p zone icsContent now settings, OccurrencesOnce p zone icsContent now settings := by
  intro always
  have distinct : Distinct [stillVevent] := List.pairwise_singleton _ _
  have once := always .msvc (.fixed 0) _ (fromTimeT 1788480000) {} _ stillVevent_read distinct stillVevent
    (by simp) rfl
  exact absurd once (by decide +kernel)

end DivoomDev.Ics.Repetition
