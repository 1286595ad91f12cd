import DivoomDev.Library.View
import DivoomDev.Ics.Selection
import DivoomDev.Ics.Repetition
import DivoomDev.Ics.Reordering

/-! What a calendar is apart from the windows in which it is looked at: one finite list of
events, of which every call of the pipeline shows those that its window lets through. -/

namespace DivoomDev.Ics.Timeline
open DivoomDev.Library.Bytes DivoomDev.Library.Fallible DivoomDev.Library.View TextUtils Timezone Models
  Datetime Recurrence EventBuilder Window OverrideApplier Pipeline Clocks ClockArithmetic ClockPipeline Series
  Properties Selection Repetition Reordering

/-! ## Events without a window -/

/-- The instant is neither behind UNTIL nor excluded nor replaced by an override. -/
def Kept (zone : SystemZone) (overrides : Index) (r : RawEvent) (instant : TimePoint) : Prop :=
  ¬pastUntil r.rrule instant ∧ isExcluded zone instant r.exdates = false ∧
    isOverridden overrides r.ev.uid (formatLocalDt zone instant) = false

instance (zone : SystemZone) (overrides : Index) (r : RawEvent) : DecidablePred (Kept zone overrides r) :=
  fun _ => inferInstanceAs (Decidable (_ ∧ _))

/-- The events of one VEVENT: the occurrences of a series, or the single event or override that
it is. An event without a start is never shown. -/
def everShown (zone : SystemZone) (overrides : Index) (r : RawEvent) : List ScheduledEvent :=
  if r.ev.status = .canceled then []
  else if r.hasRecurrenceId = false ∧ r.hasRrule = true then
    ((instants zone (applyRepeatMetadata r.ev r.rrule) r.rrule).filter (Kept zone overrides r)).map
      (occurrence (applyRepeatMetadata r.ev r.rrule))
  else if r.ev.start = 0 then [] else [r.ev]

def timelineOf (zone : SystemZone) (raws : List RawEvent) : List ScheduledEvent :=
  raws.flatMap (everShown zone (buildIndex raws))

def timeline (zone : SystemZone) (icsContent : Text) : Except StdError (List ScheduledEvent) := do
  let vevents ← calendarVevents zone icsContent
  pure (timelineOf zone (vevents.map Vevent.raw))

/-- The window lets the event through. The months of a series are not bounded by its start. -/
def Visible (win : TimeWindow) (event : ScheduledEvent) : Prop :=
  (event.repeat_ = .monthly ∨ win.start ≤ event.start) ∧ event.start ≤ win.deadline

instance (win : TimeWindow) : DecidablePred (Visible win) := fun _ => inferInstanceAs (Decidable (_ ∧ _))

/-! ## Raw events before their repetition -/

/-- The event of a VEVENT says nothing of a repetition until its rule is applied, and has the
EXDATE texts that its rule is checked against. -/
structure Unrepeated (re : RawEvent) : Prop where
  once : re.ev.repeat_ = .once
  mask : re.ev.bydayMask = 0
  interval : re.ev.recurrenceInterval = 1
  until_ : re.ev.recurrenceEnd = 0
  exdates : re.ev.exdates = re.exdates

theorem unrepeated_default : Unrepeated {} := ⟨rfl, rfl, rfl, rfl, rfl⟩

theorem applyProperty_unrepeated {zone : SystemZone} {tz : TimezoneResolver} {re : RawEvent}
    (fresh : Unrepeated re) (key params value : Text) :
    Ensures (applyProperty zone tz re key params value) Unrepeated := by
  obtain ⟨once, mask, interval, until_, exdates⟩ := fresh
  have same (next : RawEvent) (kept : Unrepeated next) :
      Ensures (pure next : Except StdError RawEvent) Unrepeated := ensures_pure kept
  unfold applyProperty
  repeat' first
    | exact same _ ⟨once, mask, interval, until_, exdates⟩
    | exact same _ ⟨once, mask, interval, until_, by rw [exdates]⟩
    | exact ensures_bind (fun _ _ => same _ ⟨once, mask, interval, until_, exdates⟩)
    | apply ensures_ite
  -- SEQUENCE may leave the event as it is
  cases stoi value with
  | ok sequence => exact same _ ⟨once, mask, interval, until_, exdates⟩
  | error e => exact same _ ⟨once, mask, interval, until_, exdates⟩

theorem calendarVevents_unrepeated {zone : SystemZone} {icsContent : Text} {vevents : List Vevent}
    (read : calendarVevents zone icsContent = .ok vevents) {v : Vevent} (member : v ∈ vevents) :
    Unrepeated v.raw := by
  apply calendarVevents_invariant (I := fun _ re => Unrepeated re) unrepeated_default _ _ read member
  · intro _ re line re' fresh applied
    rw [applyLine_eq] at applied
    exact applyProperty_unrepeated fresh _ _ _ _ applied
  · exact fun _ _ _ fresh => ⟨fresh.once, fresh.mask, fresh.interval, fresh.until_, fresh.exdates⟩

/-! ## A window on the events -/

section OneVevent
variable {zone : SystemZone} {win : TimeWindow} {overrides : Index} {r : RawEvent}

theorem filter_single (once : r.ev.repeat_ = .once) :
    ((if r.ev.start = 0 then [] else [r.ev]).filter (Visible win)) =
      if inWindow r.ev.start win then [r.ev] else [] := by
  by_cases unset : r.ev.start = 0
  · simp [unset, inWindow]
  · by_cases lower : win.start ≤ r.ev.start <;> by_cases upper : r.ev.start ≤ win.deadline <;>
      simp [unset, inWindow, Visible, once, lower, upper]

theorem filter_series (sound : zone.Sound) (forward : 0 ≤ r.rrule.interval) :
    (((instants zone (applyRepeatMetadata r.ev r.rrule) r.rrule).filter (Kept zone overrides r)).map
        (occurrence (applyRepeatMetadata r.ev r.rrule))).filter (Visible win) =
      (expand zone (applyRepeatMetadata r.ev r.rrule) r.rrule win.start win.deadline r.exdates).filter
        (fun inst => !isOverridden overrides r.ev.uid (formatLocalDt zone inst.start)) := by
  rw [expand_eq sound forward, List.filter_map, List.filter_map, List.filter_filter, List.filter_filter]
  congr 1
  apply List.filter_congr
  intro instant _
  have monthly : (applyRepeatMetadata r.ev r.rrule).repeat_ = .monthly ↔ r.rrule.freq = .monthly := by
    simp only [applyRepeatMetadata]
    cases r.rrule.freq <;> simp
  rw [Bool.eq_iff_iff]
  simp only [Function.comp_apply, Bool.and_eq_true, decide_eq_true_eq, emits, Bool.not_eq_true']
  simp only [Visible, Kept, InBounds, occurrence_start, show (occurrence (applyRepeatMetadata r.ev r.rrule)
    instant).repeat_ = (applyRepeatMetadata r.ev r.rrule).repeat_ from rfl, monthly]
  tauto

/-- What step 6 and step 7 of the pipeline show of a VEVENT is what the window lets through of
its events. -/
theorem filter_everShown (sound : zone.Sound) (forward : 0 ≤ r.rrule.interval) (once : r.ev.repeat_ = .once) :
    (everShown zone overrides r).filter (Visible win) =
      masterEvents zone win overrides r ++ (if overrideShown win r then [r.ev] else []) := by
  unfold everShown masterEvents overrideShown
  by_cases canceled : r.ev.status = .canceled
  · simp [canceled]
  cases override : r.hasRecurrenceId with
  | true =>
    simp only [canceled, if_false, Bool.true_eq_false, false_and, if_true, List.nil_append, ne_eq,
      not_false_eq_true, decide_true, Bool.true_and]
    exact filter_single once
  | false =>
    cases repeats : r.hasRrule with
    | true =>
      simp only [canceled, if_false, and_self, if_true, Bool.false_eq_true, Bool.false_and, List.append_nil]
      exact filter_series sound forward
    | false =>
      simp only [canceled, if_false, Bool.false_eq_true, and_false, Bool.false_and, List.append_nil]
      exact filter_single once

theorem length_everShown (sound : zone.Sound) (rules : RuleSound r.rrule) :
    (everShown zone overrides r).length ≤ 3640 := by
  unfold everShown
  split_ifs
  · simp
  · rw [List.length_map]
    refine (List.length_filter_le _ _).trans ?_
    unfold instants
    cases r.rrule.freq with
    | daily => simp
    | weekly =>
      have inWeek : (weeklyDays zone (applyRepeatMetadata r.ev r.rrule) r.rrule).Nodup ∧
          ∀ d ∈ weeklyDays zone (applyRepeatMetadata r.ev r.rrule) r.rrule, 1 ≤ d ∧ d ≤ 7 :=
        weeklyDays_inWeek sound rules.days
      have days : (weeklyDays zone (applyRepeatMetadata r.ev r.rrule) r.rrule).length ≤ 7 := by
        have within : weeklyDays zone (applyRepeatMetadata r.ev r.rrule) r.rrule ⊆ List.range' 1 7 :=
          fun d member => List.mem_range'_1.mpr (by have := inWeek.2 d member; omega)
        exact (inWeek.1.subperm within).length_le
      simp only [List.length_flatMap, List.length_map, List.map_const', List.length_range, List.sum_replicate,
        smul_eq_mul]
      omega
    | monthly =>
      rw [List.length_map]
      refine (List.length_filter_le _ _).trans ?_
      simp
    | yearly => simp
  · simp
  · simp

end OneVevent

theorem flatMap_overrides (win : TimeWindow) (raws : List RawEvent) :
    raws.flatMap (fun r => if overrideShown win r then [r.ev] else []) = inWindowOverrides raws win := by
  induction raws with
  | nil => rfl
  | cons r rest ih =>
    rw [List.flatMap_cons, ih, inWindowOverrides, inWindowOverrides, List.filter_cons]
    split_ifs <;> rfl

theorem length_timelineOf {zone : SystemZone} (sound : zone.Sound) {raws : List RawEvent}
    (rules : ∀ r ∈ raws, RuleSound r.rrule) : (timelineOf zone raws).length ≤ 3640 * raws.length := by
  rw [timelineOf, List.length_flatMap, Nat.mul_comm]
  refine List.sum_le_card_nsmul _ 3640 ?_ |>.trans (by simp)
  intro count member
  obtain ⟨r, inside, rfl⟩ := List.mem_map.mp member
  exact length_everShown sound (rules r inside)

theorem length_calendarVevents {zone : SystemZone} {icsContent : Text} {vevents : List Vevent}
    (read : calendarVevents zone icsContent = .ok vevents) :
    vevents.length ≤ (veventBlocks icsContent).length := by
  obtain ⟨built, mapped, same⟩ := bind_eq_ok.mp read
  cases same
  rw [← length_mapM mapped]
  exact List.length_filter_le _ _

/-! ## Calls as views -/

theorem selectEvents_view {zone : SystemZone} (sound : zone.Sound) {raws : List RawEvent}
    (sane : ∀ r ∈ raws, 0 ≤ r.rrule.interval ∧ r.ev.repeat_ = .once) (now : TimePoint)
    (settings : CalendarSettings) :
    IsView (fun event : ScheduledEvent => event.start) (Visible (computeWindow zone now settings))
      (timelineOf zone raws) (selectEvents zone now settings raws) where
  sorted := selectEvents_sorted zone now settings raws
  same := by
    have shown : (timelineOf zone raws).filter (Visible (computeWindow zone now settings)) =
        raws.flatMap (fun r => masterEvents zone (computeWindow zone now settings) (buildIndex raws) r ++
          if overrideShown (computeWindow zone now settings) r then [r.ev] else []) := by
      rw [timelineOf, List.filter_flatMap]
      exact List.flatMap_congr (fun r member => filter_everShown sound (sane r member).1 (sane r member).2)
    calc List.Perm (selectEvents zone now settings raws)
          (raws.flatMap (masterEvents zone (computeWindow zone now settings) (buildIndex raws)) ++
            inWindowOverrides raws (computeWindow zone now settings)) := selectEvents_perm ..
      List.Perm _ (raws.flatMap (fun r =>
          masterEvents zone (computeWindow zone now settings) (buildIndex raws) r ++
            if overrideShown (computeWindow zone now settings) r then [r.ev] else [])) := by
        rw [← flatMap_overrides]
        exact List.flatMap_append_perm ..
      List.Perm _ ((timelineOf zone raws).filter (Visible (computeWindow zone now settings))) :=
        List.Perm.of_eq shown.symm

theorem parseCalendarAt_view {zone : SystemZone} (sound : zone.Sound) {icsContent : Text} {vevents : List Vevent}
    (read : calendarVevents zone icsContent = .ok vevents) {now : TimePoint} {settings : CalendarSettings}
    {events : List ScheduledEvent} (returned : parseCalendarAt zone icsContent now settings = .ok events) :
    IsView (fun event : ScheduledEvent => event.start) (Visible (computeWindow zone now settings))
      (timelineOf zone (vevents.map Vevent.raw)) events := by
  rw [parseCalendarAt_eq read] at returned
  rw [← Except.ok.inj returned]
  apply selectEvents_view sound
  intro r member
  obtain ⟨v, inside, rfl⟩ := List.mem_map.mp member
  exact ⟨(calendarVevents_keeps read inside).rule.forward, (calendarVevents_unrepeated read inside).once⟩

/-! ## Calls on a clock -/

theorem visible_point {p : Platform} (win : TimeWindow) (event : ScheduledEvent) :
    Visible (windowOf p win) (p.event event) ↔ Visible win event := by
  simp only [Visible, windowOf, event_start, Platform.point_le]
  rfl

theorem parseCalendarOn_view {p : Platform} {zone : SystemZone} (sound : zone.Sound) {icsContent : Text}
    {vevents : List Vevent} (read : calendarVevents zone icsContent = .ok vevents) {now : TimePoint}
    {settings : CalendarSettings} (fits : NoOverflow p zone now settings icsContent) {events : List ScheduledEvent}
    (returned : parseCalendarOn p zone (p.point now) settings icsContent = .ok events) :
    IsView (fun event : ScheduledEvent => event.start) (Visible (computeWindowOn p zone (p.point now) settings))
      ((timelineOf zone (vevents.map Vevent.raw)).map p.event) events := by
  have window : computeWindowOn p zone (p.point now) settings = _ :=
    computeWindowOn_eq (fun c member => fits vevents read c (List.mem_append_left _ member))
  rw [parseCalendarOn_eq fits] at returned
  obtain ⟨exact, answered, rfl⟩ := map_eq_ok.mp returned
  rw [window]
  exact (parseCalendarAt_view sound read answered).map (fun event => visible_point _ event)
    (fun _ _ le => Platform.point_le.mpr le)

/-- A calendar denotes one list of events, with at most 3640 from each VEVENT, or one error. At
any time and with any settings with which no time overflows, a call returns the error, or what its
window lets through of the list, in the order of the starts. -/
theorem parseCalendarOn_views {p : Platform} {zone : SystemZone} (sound : zone.Sound) (icsContent : Text) :
    match timeline zone icsContent with
    | .error e => ∀ now settings, parseCalendarOn p zone (p.point now) settings icsContent = .error e
    | .ok all => all.length ≤ 3640 * (veventBlocks icsContent).length ∧
        ∀ now settings, NoOverflow p zone now settings icsContent →
          ∃ events, parseCalendarOn p zone (p.point now) settings icsContent = .ok events ∧
            IsView (fun event : ScheduledEvent => event.start)
              (Visible (computeWindowOn p zone (p.point now) settings)) (all.map p.event) events := by
  unfold timeline
  cases read : calendarVevents zone icsContent with
  | error e =>
    intro now settings
    rw [parseCalendarOn_eq_traced, read]
    rfl
  | ok vevents =>
    refine ⟨?_, fun now settings fits => ?_⟩
    · have rules : ∀ r ∈ vevents.map Vevent.raw, RuleSound r.rrule := by
        intro r member
        obtain ⟨v, inside, rfl⟩ := List.mem_map.mp member
        exact (calendarVevents_keeps read inside).rule
      calc (timelineOf zone (vevents.map Vevent.raw)).length ≤ 3640 * (vevents.map Vevent.raw).length :=
            length_timelineOf sound rules
        _ ≤ 3640 * (veventBlocks icsContent).length := by
          rw [List.length_map]
          exact Nat.mul_le_mul_left 3640 (length_calendarVevents read)
    · have returned := parseCalendarOn_eq_traced p zone (p.point now) settings icsContent
      rw [read] at returned
      exact ⟨_, returned, parseCalendarOn_view sound read fits returned⟩

def monthlyVevent : Vevent where
  block := ⟨[text "UID:a", text "DTSTART:20260910T100000Z", text "RRULE:FREQ=MONTHLY"], []⟩
  raw := { ev := { uid := text "a", start := fromTimeT 1789034400 }, hasRrule := true, rrule := { freq := .monthly } }

theorem monthlyVevent_read : calendarVevents (.fixed 0) monthlyCalendar = .ok [monthlyVevent] := by
  decide +kernel

/-- A monthly series denotes two years of events, of which a call shows a part. -/
theorem parseCalendarOn_views_monthly :
    ∃ all events : List ScheduledEvent, all.length = 24 ∧
      parseCalendarOn .msvc (.fixed 0) (Platform.point .msvc (fromTimeT 1789862400)) {} monthlyCalendar = .ok events ∧
      IsView (fun event : ScheduledEvent => event.start)
        (Visible (computeWindowOn .msvc (.fixed 0) (Platform.point .msvc (fromTimeT 1789862400)) {}))
        (all.map (Platform.event .msvc)) events := by
  have views := parseCalendarOn_views (p := .msvc) (fixed_sound 0) monthlyCalendar
  have count : (timeline (.fixed 0) monthlyCalendar).toOption.map List.length = some 24 := by decide +kernel
  cases denoted : timeline (.fixed 0) monthlyCalendar with
  | error e =>
    rw [denoted] at count
    cases count
  | ok all =>
    rw [denoted] at views count
    obtain ⟨events, returned, view⟩ := views.2 (fromTimeT 1789862400) {}
      (noOverflow_of_read _ _ _ _ monthlyVevent_read (by decide +kernel))
    exact ⟨all, events, Option.some.inj count, returned, view⟩

/-- Two calls for one calendar, at any times and with any settings with which no time overflows, return
the same events where their windows overlap. -/
theorem parseCalendarOn_overlap {p : Platform} {zone : SystemZone} (sound : zone.Sound) {icsContent : Text}
    {now now' : TimePoint} {settings settings' : CalendarSettings} (fits : NoOverflow p zone now settings icsContent)
    (fits' : NoOverflow p zone now' settings' icsContent) {events events' : List ScheduledEvent}
    (returned : parseCalendarOn p zone (p.point now) settings icsContent = .ok events)
    (returned' : parseCalendarOn p zone (p.point now') settings' icsContent = .ok events') :
    (events.filter (Visible (computeWindowOn p zone (p.point now') settings'))).Perm
      (events'.filter (Visible (computeWindowOn p zone (p.point now) settings))) := by
  cases read : calendarVevents zone icsContent with
  | error e =>
    rw [parseCalendarOn_eq_traced, read] at returned
    cases returned
  | ok vevents =>
    have first := parseCalendarOn_view sound read fits returned
    exact first.overlap (parseCalendarOn_view sound read fits' returned')

/-- A month later than 2026-09-20 the months up to then are returned again. -/
theorem parseCalendarOn_overlap_month :
    ∃ events, parseCalendarOn .msvc (.fixed 0) (Platform.point .msvc (fromTimeT 1789862400)) {} monthlyCalendar =
        .ok events ∧
      (events.filter (Visible (computeWindowOn .msvc (.fixed 0) (Platform.point .msvc (fromTimeT 1792454400)) {}))).Perm
        (monthlyInstances.filter
          (Visible (computeWindowOn .msvc (.fixed 0) (Platform.point .msvc (fromTimeT 1789862400)) {}))) := by
  have returned : parseCalendarOn .msvc (.fixed 0) (Platform.point .msvc (fromTimeT 1789862400)) {} monthlyCalendar =
      .ok [monthlyInstance 1788998400] := by decide +kernel
  exact ⟨_, returned, parseCalendarOn_overlap (fixed_sound 0)
    (noOverflow_of_read _ _ _ _ monthlyVevent_read (by decide +kernel))
    (noOverflow_of_read _ _ _ _ monthlyVevent_read (by decide +kernel)) returned
    (show parseCalendarOn .msvc (.fixed 0) (Platform.point .msvc (fromTimeT 1792454400)) {} monthlyCalendar =
      .ok monthlyInstances by decide +kernel)⟩

end DivoomDev.Ics.Timeline
