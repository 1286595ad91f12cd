import DivoomDev.Ics.Series
import DivoomDev.Ics.Properties

/-! What the selection of events depends on: the window bounds it, an override takes away only
the instances it names, and a longer horizon only adds behind the shorter one. -/

namespace DivoomDev.Ics.Selection
open DivoomDev.Library.Bytes DivoomDev.Library.Loop DivoomDev.Library.Fallible Models Datetime Recurrence
  EventBuilder Window OverrideApplier Pipeline Series Properties

/-- Apart from their order, the selected events are what the raw events show one by one. -/
theorem selectEvents_perm (zone : SystemZone) (now : TimePoint) (settings : CalendarSettings)
    (raws : List RawEvent) :
    (selectEvents zone now settings raws).Perm
      (raws.flatMap (masterEvents zone (computeWindow zone now settings) (buildIndex raws)) ++
        inWindowOverrides raws (computeWindow zone now settings)) := by
  rw [selectEvents, sortByStart, foldl_append_eq_flatMap, List.nil_append]
  exact List.perm_insertionSort _ _

theorem parseCalendarAt_eq {zone : SystemZone} {icsContent : Text} {vevents : List Vevent}
    (read : calendarVevents zone icsContent = .ok vevents) (now : TimePoint) (settings : CalendarSettings) :
    parseCalendarAt zone icsContent now settings =
      .ok (selectEvents zone now settings (vevents.map Vevent.raw)) := by
  rw [parseCalendarAt_eq_traced, read, ← tracedEvents_map]
  rfl

theorem parseCalendarAt_ok {zone : SystemZone} {icsContent : Text} {now : TimePoint}
    {settings : CalendarSettings} {events : List ScheduledEvent}
    (returned : parseCalendarAt zone icsContent now settings = .ok events) :
    ∃ vevents, calendarVevents zone icsContent = .ok vevents ∧
      events = selectEvents zone now settings (vevents.map Vevent.raw) := by
  cases read : calendarVevents zone icsContent with
  | error e =>
    rw [parseCalendarAt_eq_traced, read] at returned
    cases returned
  | ok vevents =>
    rw [parseCalendarAt_eq read] at returned
    exact ⟨vevents, rfl, (Except.ok.inj returned).symm⟩

/-! ## The window -/

section Window
variable {zone : SystemZone} {base : ScheduledEvent} {rule : RruleData}
  {windowStart deadline : TimePoint} {exdates : Std.ExtTreeSet Text}

theorem expand_inBounds {event : ScheduledEvent}
    (member : event ∈ expand zone base rule windowStart deadline exdates) :
    event = occurrence base event.start ∧ InBounds rule windowStart deadline event.start := by
  have ofEmitted {keep : Bool} {instant : TimePoint} (kept : keep = true → InBounds rule windowStart deadline instant)
      (hit : (if keep then some (occurrence base instant) else none) = some event) :
      event = occurrence base event.start ∧ InBounds rule windowStart deadline event.start := by
    split_ifs at hit with isKept
    cases hit
    exact ⟨rfl, kept isKept⟩
  have ofEmits {instant : TimePoint} (kept : emits zone rule windowStart deadline exdates instant = true) :
      InBounds rule windowStart deadline instant :=
    of_decide_eq_true (Bool.and_eq_true_iff.mp kept).1
  unfold expand at member
  cases freq : rule.freq with
  | daily =>
    simp only [freq] at member
    obtain ⟨i, _, emitted⟩ := of_mem_scan member
    exact ofEmitted ofEmits ((dailyPass_emitted freq i).symm.trans (Verdict.emitted_eq_some.mpr emitted))
  | weekly =>
    simp only [freq, weeklyExpand, List.mem_flatten] at member
    obtain ⟨events, inWeeks, inWeek⟩ := member
    obtain ⟨week, _, passed⟩ := of_mem_scan inWeeks
    simp only [weeklyPass] at passed
    split_ifs at passed
    cases passed
    obtain ⟨day, _, emitted⟩ := of_mem_scan inWeek
    exact ofEmitted ofEmits
      ((weeklyDay_emitted freq week day).symm.trans (Verdict.emitted_eq_some.mpr emitted))
  | monthly =>
    simp only [freq] at member
    obtain ⟨i, _, emitted⟩ := of_mem_scan member
    exact ofEmitted (fun kept => ofEmits (Bool.and_eq_true_iff.mp kept).1)
      ((monthlyPass_emitted windowStart freq i).symm.trans (Verdict.emitted_eq_some.mpr emitted))
  | yearly =>
    simp only [freq] at member
    cases member

end Window

theorem inWindow_iff (tp : TimePoint) (win : TimeWindow) :
    inWindow tp win = true ↔ tp ≠ 0 ∧ win.start ≤ tp ∧ tp ≤ win.deadline := by
  simp [inWindow, and_assoc]

theorem masterEvents_window {zone : SystemZone} {win : TimeWindow} {overrides : Index} {r : RawEvent}
    {event : ScheduledEvent} (member : event ∈ masterEvents zone win overrides r) :
    (event.repeat_ ≠ .monthly → win.start ≤ event.start) ∧ event.start ≤ win.deadline := by
  unfold masterEvents at member
  split_ifs at member with _ _ _ inside
  · cases member
  · cases member
  · obtain ⟨same, lower, upper, _⟩ := expand_inBounds (List.mem_filter.mp member).1
    refine ⟨fun other => lower.resolve_left (fun monthly => other ?_), upper⟩
    rw [same]
    simp only [occurrence, applyRepeatMetadata, monthly]
  · obtain rfl := List.mem_singleton.mp member
    obtain ⟨_, lower, upper⟩ := (inWindow_iff _ _).mp inside
    exact ⟨fun _ => lower, upper⟩
  · cases member

/-- Every event that is returned starts inside the window, except that an instance of a monthly
series is bounded by the end of the window only. -/
theorem parseCalendarAt_window {zone : SystemZone} {icsContent : Text} {now : TimePoint}
    {settings : CalendarSettings} {events : List ScheduledEvent}
    (returned : parseCalendarAt zone icsContent now settings = .ok events) :
    ∀ event ∈ events,
      (event.repeat_ ≠ .monthly → (computeWindow zone now settings).start ≤ event.start) ∧
        event.start ≤ (computeWindow zone now settings).deadline := by
  intro event member
  obtain ⟨vevents, _, rfl⟩ := parseCalendarAt_ok returned
  rcases List.mem_append.mp ((selectEvents_perm _ _ _ _).mem_iff.mp member) with ofMaster | ofOverride
  · obtain ⟨r, _, shown⟩ := List.mem_flatMap.mp ofMaster
    exact masterEvents_window shown
  · obtain ⟨r, shown, rfl⟩ := List.mem_map.mp ofOverride
    have inside : inWindow r.ev.start (computeWindow zone now settings) = true := by
      have kept := (List.mem_filter.mp shown).2
      simp only [overrideShown, Bool.and_eq_true] at kept
      exact kept.2
    obtain ⟨_, lower, upper⟩ := (inWindow_iff _ _).mp inside
    exact ⟨fun _ => lower, upper⟩

/-- A monthly series that started six weeks before 2026-10-20. -/
def monthlyCalendar : Text :=
  text "BEGIN:VEVENT\nUID:a\nDTSTART:20260910T100000Z\nRRULE:FREQ=MONTHLY\nEND:VEVENT\n"

def monthlyInstance (seconds : Int) : ScheduledEvent :=
  occurrence { uid := text "a", start := fromTimeT 1789034400, repeat_ := .monthly } (fromTimeT seconds)

def monthlyInstances : List ScheduledEvent := [monthlyInstance 1788998400, monthlyInstance 1791590400]

theorem parseCalendarAt_window_monthly :
    ((monthlyInstance 1788998400).repeat_ ≠ .monthly →
        (computeWindow (.fixed 0) (fromTimeT 1792454400) {}).start ≤ (monthlyInstance 1788998400).start) ∧
      (monthlyInstance 1788998400).start ≤ (computeWindow (.fixed 0) (fromTimeT 1792454400) {}).deadline :=
  parseCalendarAt_window
    (show parseCalendarAt (.fixed 0) monthlyCalendar _ _ = .ok monthlyInstances by decide +kernel)
    _ List.mem_cons_self

/-- The months in front of the window are returned with the others. -/
theorem monthly_before_window :
    ¬∀ zone icsContent now settings events, parseCalendarAt zone icsContent now settings = .ok events →
      ∀ event ∈ events, (computeWindow zone now settings).start ≤ event.start ∧
        event.start ≤ (computeWindow zone now settings).deadline := by
  intro always
  have returned : parseCalendarAt (.fixed 0) monthlyCalendar (fromTimeT 1792454400) {} =
      .ok monthlyInstances := by decide +kernel
  have inside := always _ _ _ _ _ returned _ List.mem_cons_self
  exact absurd inside.1 (by decide +kernel)

/-! ## One more override -/

/-- The event is an instance of a series that the override names. -/
def Replaced (zone : SystemZone) (o : RawEvent) (traced : TracedEvent) : Prop :=
  traced.source.raw.hasRecurrenceId = false ∧ traced.source.raw.hasRrule = true ∧
    traced.event.uid = o.ev.uid ∧ formatLocalDt zone traced.event.start = o.recurrenceId

instance (zone : SystemZone) (o : RawEvent) : DecidablePred (Replaced zone o) :=
  fun _ => inferInstanceAs (Decidable (_ ∧ _))

theorem isOverridden_append {raws : List RawEvent} {o : RawEvent} (has : o.hasRecurrenceId = true)
    (uid instanceKey : Text) :
    isOverridden (buildIndex (raws ++ [o])) uid instanceKey =
      (isOverridden (buildIndex raws) uid instanceKey ||
        decide (uid = o.ev.uid ∧ instanceKey = o.recurrenceId)) := by
  rw [Bool.eq_iff_iff, Bool.or_eq_true, decide_eq_true_eq, isOverridden_iff, isOverridden_iff]
  apply Iff.intro
  · intro given
    obtain ⟨ov, member, hasId, same, key⟩ := given
    rcases List.mem_append.mp member with old | new
    · exact .inl ⟨ov, old, hasId, same, key⟩
    · obtain rfl := List.mem_singleton.mp new
      exact .inr ⟨same.symm, key.symm⟩
  · intro given
    rcases given with ⟨ov, old, rest⟩ | ⟨rfl, rfl⟩
    · exact ⟨ov, List.mem_append_left _ old, rest⟩
    · exact ⟨o, by simp, has, rfl, rfl⟩

theorem masterEvents_append {zone : SystemZone} {win : TimeWindow} {raws : List RawEvent} {o : RawEvent}
    (has : o.hasRecurrenceId = true) (v : Vevent) :
    (masterEvents zone win (buildIndex (raws ++ [o])) v.raw).map (TracedEvent.mk v) =
      ((masterEvents zone win (buildIndex raws) v.raw).map (TracedEvent.mk v)).filter
        (fun traced => ¬Replaced zone o traced) := by
  unfold masterEvents
  by_cases override : v.raw.hasRecurrenceId = true
  · simp [override]
  by_cases canceled : v.raw.ev.status = .canceled
  · simp [canceled]
  by_cases repeats : v.raw.hasRrule = true
  · simp only [override, canceled, repeats, Bool.false_eq_true, if_false, if_true, List.filter_map,
      List.filter_filter]
    congr 1
    apply List.filter_congr
    intro inst member
    obtain ⟨same, _⟩ := expand_inBounds member
    have uid : inst.uid = v.raw.ev.uid := by
      rw [same]
      rfl
    simp only [isOverridden_append has, Replaced, Function.comp_apply, uid, override, repeats]
    simp [Bool.and_comm]
  · simp only [override, canceled, repeats, Bool.false_eq_true, if_false]
    have single : ∀ event, ¬Replaced zone o ⟨v, event⟩ := fun event replaced => repeats replaced.2.1
    symm
    apply List.filter_eq_self.mpr
    intro traced member
    obtain ⟨event, _, rfl⟩ := List.mem_map.mp member
    simpa using single event

theorem tracedEvents_perm (zone : SystemZone) (now : TimePoint) (settings : CalendarSettings)
    (vevents : List Vevent) :
    (tracedEvents zone now settings vevents).Perm
      (vevents.flatMap (fun v => (masterEvents zone (computeWindow zone now settings)
          (buildIndex (vevents.map Vevent.raw)) v.raw).map (TracedEvent.mk v)) ++
        (vevents.filter (fun v => overrideShown (computeWindow zone now settings) v.raw)).map
          (fun v => ⟨v, v.raw.ev⟩)) :=
  List.perm_insertionSort _ _

theorem shown_not_replaced (zone : SystemZone) (win : TimeWindow) (vevents : List Vevent) (o : RawEvent) :
    ((vevents.filter (fun v => overrideShown win v.raw)).map (fun v => (⟨v, v.raw.ev⟩ : TracedEvent))).filter
      (fun traced => ¬Replaced zone o traced) =
    (vevents.filter (fun v => overrideShown win v.raw)).map (fun v => ⟨v, v.raw.ev⟩) := by
  apply List.filter_eq_self.mpr
  intro traced member
  obtain ⟨v, inside, rfl⟩ := List.mem_map.mp member
  have isOverride : v.raw.hasRecurrenceId = true := by
    have kept := (List.mem_filter.mp inside).2
    simp only [overrideShown, Bool.and_eq_true] at kept
    exact kept.1.1
  simp [Replaced, isOverride]

theorem inWindowOverrides_singleton {o : RawEvent} (has : o.hasRecurrenceId = true) (win : TimeWindow) :
    inWindowOverrides [o] win =
      if o.ev.status ≠ .canceled ∧ inWindow o.ev.start win then [o.ev] else [] := by
  simp only [inWindowOverrides, List.filter_cons, List.filter_nil, overrideShown, has, Bool.true_and,
    Bool.and_eq_true, decide_eq_true_eq]
  split_ifs <;> rfl

/-- One more override takes away the instances of its UID whose local start is its
RECURRENCE-ID, adds its own event unless it is cancelled or outside the window, and leaves
every other event as it is. -/
theorem selectEvents_append_override (zone : SystemZone) (now : TimePoint) (settings : CalendarSettings)
    (vevents : List Vevent) {o : Vevent} (has : o.raw.hasRecurrenceId = true) :
    (tracedEvents zone now settings vevents).map TracedEvent.event =
        selectEvents zone now settings (vevents.map Vevent.raw) ∧
      (selectEvents zone now settings (vevents.map Vevent.raw ++ [o.raw])).Perm
        (((tracedEvents zone now settings vevents).filter
            (fun traced => ¬Replaced zone o.raw traced)).map TracedEvent.event ++
          if o.raw.ev.status ≠ .canceled ∧ inWindow o.raw.ev.start (computeWindow zone now settings) then
            [o.raw.ev] else []) := by
  refine ⟨tracedEvents_map zone now settings vevents, ?_⟩
  have silent (win : TimeWindow) (overrides : Index) : masterEvents zone win overrides o.raw = [] := by
    simp [masterEvents, has]
  have before := ((tracedEvents_perm zone now settings vevents).filter
    (fun traced => ¬Replaced zone o.raw traced)).map TracedEvent.event
  have after := selectEvents_perm zone now settings (vevents.map Vevent.raw ++ [o.raw])
  rw [← inWindowOverrides_singleton has]
  refine after.trans (List.Perm.trans (List.Perm.of_eq ?_) (before.symm.append_right _))
  rw [List.filter_append, shown_not_replaced, List.filter_flatMap]
  simp only [← masterEvents_append has, List.flatMap_append, List.flatMap_singleton, silent,
    List.append_nil, List.map_append, List.map_flatMap, List.map_map, List.flatMap_map,
    inWindowOverrides, List.filter_append, List.filter_map, List.append_assoc, Function.comp_def,
    List.map_id']

def dailySeries : Vevent where
  block := ⟨[], []⟩
  raw :=
    { ev := { uid := text "a", start := fromTimeT 1788516000 }
      rrule := { until_ := fromTimeT 1788861600 }
      hasRrule := true }

def movedDay : Vevent where
  block := ⟨[], []⟩
  raw :=
    { ev := { uid := text "a", start := fromTimeT 1788609600 }
      hasRecurrenceId := true
      recurrenceId := text "20260905T100000" }

theorem selectEvents_append_override_moved :
    (tracedEvents (.fixed 0) (fromTimeT 1788480000) {} [dailySeries]).map TracedEvent.event =
        selectEvents (.fixed 0) (fromTimeT 1788480000) {} [dailySeries.raw] ∧
      (selectEvents (.fixed 0) (fromTimeT 1788480000) {} [dailySeries.raw, movedDay.raw]).Perm
        [occurrence (applyRepeatMetadata dailySeries.raw.ev dailySeries.raw.rrule) (fromTimeT 1788516000),
          movedDay.raw.ev] := by
  obtain ⟨same, changed⟩ := selectEvents_append_override (.fixed 0) (fromTimeT 1788480000) {} [dailySeries]
    (show movedDay.raw.hasRecurrenceId = true from rfl)
  refine ⟨same, changed.trans (List.Perm.of_eq ?_)⟩
  decide +kernel

/-! ## A longer horizon -/

theorem hours_mono {h₁ h₂ : Int} (le : h₁ ≤ h₂) : hours h₁ ≤ hours h₂ := by
  simp only [hours, ticksPerSecond]
  omega

theorem emits_narrower {zone : SystemZone} {rule : RruleData} {windowStart narrow wide : TimePoint}
    {exdates : Std.ExtTreeSet Text} (le : narrow ≤ wide) (instant : TimePoint) :
    emits zone rule windowStart narrow exdates instant =
      (emits zone rule windowStart wide exdates instant && decide (instant ≤ narrow)) := by
  have bounds : InBounds rule windowStart narrow instant ↔
      InBounds rule windowStart wide instant ∧ instant ≤ narrow := by
    unfold InBounds
    apply Iff.intro
    · intro given
      exact ⟨⟨given.1, given.2.1.trans le, given.2.2⟩, given.2.1⟩
    · intro given
      exact ⟨given.1.1, given.2, given.1.2.2⟩
  simp only [emits, bounds, Bool.decide_and]
  rw [Bool.and_right_comm]

theorem masterEvents_narrower {zone : SystemZone} {windowStart narrow wide : TimePoint} {overrides : Index}
    {r : RawEvent} (sound : zone.Sound) (forward : 0 ≤ r.rrule.interval) (le : narrow ≤ wide) :
    masterEvents zone ⟨windowStart, narrow⟩ overrides r =
      (masterEvents zone ⟨windowStart, wide⟩ overrides r).filter (fun event => event.start ≤ narrow) := by
  unfold masterEvents
  by_cases override : r.hasRecurrenceId = true
  · simp [override]
  by_cases canceled : r.ev.status = .canceled
  · simp [canceled]
  by_cases repeats : r.hasRrule = true
  · simp only [override, canceled, repeats, Bool.false_eq_true, if_false, if_true,
      expand_eq sound forward, List.filter_map, List.filter_filter]
    congr 1
    apply List.filter_congr
    intro instant _
    rw [Bool.eq_iff_iff]
    simp only [emits_narrower le, Bool.and_eq_true, Function.comp_apply, occurrence_start]
    tauto
  · simp only [override, canceled, repeats, Bool.false_eq_true, if_false]
    by_cases behind : narrow < r.ev.start
    · have outside : ¬inWindow r.ev.start ⟨windowStart, narrow⟩ = true := fun inside =>
        absurd ((inWindow_iff _ _).mp inside).2.2 (not_le.mpr behind)
      rw [if_neg outside]
      split_ifs <;> simp [behind]
    · have same : inWindow r.ev.start ⟨windowStart, narrow⟩ = inWindow r.ev.start ⟨windowStart, wide⟩ := by
        have upper := not_lt.mp behind
        simp [inWindow, upper, upper.trans le]
      rw [same]
      split_ifs <;> simp [not_lt.mp behind]

theorem inWindowOverrides_narrower (raws : List RawEvent) (windowStart : TimePoint)
    {narrow wide : TimePoint} (le : narrow ≤ wide) :
    inWindowOverrides raws ⟨windowStart, narrow⟩ =
      (inWindowOverrides raws ⟨windowStart, wide⟩).filter (fun event => event.start ≤ narrow) := by
  simp only [inWindowOverrides, List.filter_map, List.filter_filter]
  congr 1
  apply List.filter_congr
  intro r _
  rw [Bool.eq_iff_iff]
  simp only [overrideShown, Bool.and_eq_true, decide_eq_true_eq, inWindow_iff, Function.comp_apply]
  apply Iff.intro
  · intro given
    exact ⟨given.2.2.2, given.1, given.2.1, given.2.2.1, given.2.2.2.trans le⟩
  · intro given
    exact ⟨given.2.1, given.2.2.1, given.2.2.2.1, given.1⟩

/-- With a shorter horizon the same events are returned up to that horizon, and none behind. -/
theorem parseCalendarAt_narrower {offset : Int} {icsContent : Text} {now : TimePoint} {fromDayStart : Bool}
    {h₁ h₂ : Int} {wide : List ScheduledEvent} (le : h₁ ≤ h₂)
    (returned : parseCalendarAt (.fixed offset) icsContent now ⟨h₂, fromDayStart⟩ = .ok wide) :
    ∃ narrow, parseCalendarAt (.fixed offset) icsContent now ⟨h₁, fromDayStart⟩ = .ok narrow ∧
      narrow.Perm (wide.filter (fun event => event.start ≤ now + hours h₁)) := by
  obtain ⟨vevents, read, rfl⟩ := parseCalendarAt_ok returned
  refine ⟨_, parseCalendarAt_eq read now _, ?_⟩
  have shorter : now + hours h₁ ≤ now + hours h₂ := Int.add_le_add_left (hours_mono le) _
  have masters : (vevents.map Vevent.raw).flatMap (masterEvents (.fixed offset)
        (computeWindow (.fixed offset) now ⟨h₁, fromDayStart⟩) (buildIndex (vevents.map Vevent.raw))) =
      ((vevents.map Vevent.raw).flatMap (masterEvents (.fixed offset)
        (computeWindow (.fixed offset) now ⟨h₂, fromDayStart⟩) (buildIndex (vevents.map Vevent.raw)))).filter
        (fun event => event.start ≤ now + hours h₁) := by
    rw [List.filter_flatMap]
    apply List.flatMap_congr
    intro r member
    obtain ⟨v, inside, rfl⟩ := List.mem_map.mp member
    exact masterEvents_narrower (fixed_sound offset) (calendarVevents_keeps read inside).rule.forward shorter
  have overrides := inWindowOverrides_narrower (vevents.map Vevent.raw)
    (computeWindow (.fixed offset) now ⟨h₁, fromDayStart⟩).start shorter
  calc List.Perm (selectEvents (.fixed offset) now ⟨h₁, fromDayStart⟩ (vevents.map Vevent.raw))
        ((vevents.map Vevent.raw).flatMap (masterEvents (.fixed offset)
            (computeWindow (.fixed offset) now ⟨h₁, fromDayStart⟩) (buildIndex (vevents.map Vevent.raw))) ++
          inWindowOverrides (vevents.map Vevent.raw)
            (computeWindow (.fixed offset) now ⟨h₁, fromDayStart⟩)) := selectEvents_perm ..
    List.Perm _ (((vevents.map Vevent.raw).flatMap (masterEvents (.fixed offset)
            (computeWindow (.fixed offset) now ⟨h₂, fromDayStart⟩) (buildIndex (vevents.map Vevent.raw))) ++
          inWindowOverrides (vevents.map Vevent.raw)
            (computeWindow (.fixed offset) now ⟨h₂, fromDayStart⟩)).filter
              (fun event => event.start ≤ now + hours h₁)) := by
      rw [List.filter_append, ← masters]
      exact List.Perm.of_eq (congrArg _ overrides)
    List.Perm _ ((selectEvents (.fixed offset) now ⟨h₂, fromDayStart⟩ (vevents.map Vevent.raw)).filter
        (fun event => event.start ≤ now + hours h₁)) := (selectEvents_perm ..).symm.filter _

/-- From 2026-09-20 on, a month's horizon has the two months of the series, a day's only the
first. -/
theorem parseCalendarAt_narrower_month :
    ∃ narrow, parseCalendarAt (.fixed 0) monthlyCalendar (fromTimeT 1789862400) ⟨24, true⟩ = .ok narrow ∧
      narrow.Perm (monthlyInstances.filter
        (fun event => event.start ≤ fromTimeT 1789862400 + hours 24)) :=
  parseCalendarAt_narrower (show (24 : Int) ≤ 720 by decide)
    (show parseCalendarAt (.fixed 0) monthlyCalendar _ _ = .ok monthlyInstances by decide +kernel)

end DivoomDev.Ics.Selection
