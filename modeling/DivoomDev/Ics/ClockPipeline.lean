import DivoomDev.Ics.Pipeline
import DivoomDev.Ics.ClockArithmetic

/-! The calendar pipeline on a clock, whose time points and durations wrap around. A call returns what
it returns on exact integers while none of the integers that it computes is too large for its type. -/

namespace DivoomDev.Ics.ClockPipeline
open DivoomDev.Library.Bytes TextUtils Timezone Models Datetime Recurrence EventBuilder Window OverrideApplier
  Pipeline Clocks ExactIntegers ClockArithmetic

/-! ## The pipeline on a clock -/

section Pipeline
variable (p : Platform) (zone : SystemZone) (now : Int) (settings : CalendarSettings)

def dayStartOn : Int :=
  let nowTm := zone.localtime (p.toTimeT now)
  let dayStartT := zone.mktime { nowTm with tmHour := 0, tmMin := 0, tmSec := 0 }
  if dayStartT = -1 then now else int64 (p.ofTimeT dayStartT)

/-- The window at a reading of the clock. -/
def computeWindowOn : TimeWindow where
  start := if settings.windowFromDayStart then dayStartOn p zone now else now
  deadline := int64 (now + int64 (p.ticks settings.horizon))

/-- A raw event as the clock holds it. -/
def heldRaw (r : RawEvent) : RawEvent :=
  { r with ev := p.heldEvent r.ev, rrule := { r.rrule with until_ := int64 (p.point r.rrule.until_) } }

def masterEventsOn (win : TimeWindow) (overrides : Index) (r : RawEvent) : List ScheduledEvent :=
  if r.hasRecurrenceId then []
  else if r.ev.status = .canceled then []
  else if r.hasRrule then
    (expandOn p zone (applyRepeatMetadata r.ev r.rrule) r.rrule win.start win.deadline r.exdates).filter
      (fun inst => !isOverridden overrides r.ev.uid (formatLocalDt zone (p.second inst.start)))
  else if inWindow r.ev.start win then [r.ev] else []

def selectEventsOn (raws : List RawEvent) : List ScheduledEvent :=
  let win := computeWindowOn p zone now settings
  let overrides := buildIndex raws
  let result := raws.foldl (fun result r => result ++ masterEventsOn p zone win overrides r) []
  sortByStart (result ++ inWindowOverrides raws win)

/-- `parse_at`, at a reading of the clock. -/
def parseCalendarOn (icsContent : Text) : Except StdError (List ScheduledEvent) := do
  let tz := collectVtimezones icsContent
  let unfolded := unfoldContent icsContent
  let raws ← collectRawEvents zone tz unfolded
  pure (selectEventsOn p zone now settings (raws.map (heldRaw p)))

/-- The steps behind the collection of the VEVENTs, with the origin of every event kept. -/
def tracedEventsOn (vevents : List Vevent) : List TracedEvent :=
  let win := computeWindowOn p zone now settings
  let overrides := buildIndex (vevents.map (fun v => heldRaw p v.raw))
  let masters := vevents.flatMap (fun v =>
    (masterEventsOn p zone win overrides (heldRaw p v.raw)).map (TracedEvent.mk v))
  let shown := (vevents.filter (fun v => overrideShown win (heldRaw p v.raw))).map
    (fun v => ⟨v, (heldRaw p v.raw).ev⟩)
  (masters ++ shown).insertionSort (fun a b => a.event.start ≤ b.event.start)

theorem tracedEventsOn_map (vevents : List Vevent) :
    (tracedEventsOn p zone now settings vevents).map TracedEvent.event =
      selectEventsOn p zone now settings (vevents.map (fun v => heldRaw p v.raw)) := by
  simp only [tracedEventsOn, selectEventsOn, sortByStart]
  rw [List.map_insertionSort (r := fun a b : TracedEvent => a.event.start ≤ b.event.start)
    (s := fun a b : ScheduledEvent => a.start ≤ b.start) TracedEvent.event _
    (fun _ _ _ _ => Iff.rfl)]
  congr 1
  rw [foldl_append_eq_flatMap, List.nil_append, inWindowOverrides, List.map_append]
  simp [List.map_flatMap, List.flatMap_map, List.filter_map, Function.comp_def]

/-- The pipeline returns the traced events, and fails exactly where a block fails to build. -/
theorem parseCalendarOn_eq_traced (icsContent : Text) :
    parseCalendarOn p zone now settings icsContent = (calendarVevents zone icsContent).map (fun vevents =>
      (tracedEventsOn p zone now settings vevents).map TracedEvent.event) := by
  simp only [parseCalendarOn, collectRawEvents_eq]
  cases calendarVevents zone icsContent with
  | error e => rfl
  | ok vevents => simp [Except.map, bind, Except.bind, pure, Except.pure, tracedEventsOn_map, Function.comp_def]

end Pipeline

/-! ## Calls without an overflow -/

section Integers
variable (p : Platform) (zone : SystemZone) (now : TimePoint) (settings : CalendarSettings)

/-- The time points of the window and the duration up to its end. -/
def windowIntegers : List Computed :=
  [⟨64, p.point (computeWindow zone now settings).start⟩, ⟨64, p.ticks settings.horizon⟩,
    ⟨64, p.point (computeWindow zone now settings).deadline⟩]

/-- The time points of a raw event. -/
def rawIntegers (r : RawEvent) : List Computed := p.eventPoints r.ev ++ [⟨64, p.point r.rrule.until_⟩]

/-- The integers that a series computes in a window. -/
def seriesIntegers (win : TimeWindow) (r : RawEvent) : List Computed :=
  if r.hasRecurrenceId = false ∧ r.ev.status ≠ .canceled ∧ r.hasRrule = true then
    expandIntegers p zone (p.event (applyRepeatMetadata r.ev r.rrule)) (p.rule r.rrule) (p.point win.start)
      (p.point win.deadline) r.exdates
  else []

def callIntegers (vevents : List Vevent) : List Computed :=
  windowIntegers p zone now settings ++ vevents.flatMap (fun v =>
    rawIntegers p v.raw ++ seriesIntegers p zone (computeWindow zone now settings) v.raw)

/-- Every time point of the calendar, of its window and of its series, and every integer that an
expander computes on the way, fits the type that holds it. -/
def NoOverflow (icsContent : Text) : Prop :=
  ∀ vevents, calendarVevents zone icsContent = .ok vevents →
    ∀ c ∈ callIntegers p zone now settings vevents, c.Fits

theorem noOverflow_of_read {icsContent : Text} {vevents : List Vevent}
    (read : calendarVevents zone icsContent = .ok vevents)
    (fits : ∀ c ∈ callIntegers p zone now settings vevents, c.Fits) :
    NoOverflow p zone now settings icsContent := by
  intro others readOthers
  rw [read] at readOthers
  cases readOthers
  exact fits

end Integers

/-! ## The pipeline while nothing overflows -/

/-- A window in the ticks of a clock. -/
def windowOf (p : Platform) (win : TimeWindow) : TimeWindow := ⟨p.point win.start, p.point win.deadline⟩

def rawOf (p : Platform) (r : RawEvent) : RawEvent := { r with ev := p.event r.ev, rrule := p.rule r.rrule }

def tracedOf (p : Platform) (traced : TracedEvent) : TracedEvent := ⟨traced.source, p.event traced.event⟩

section Fits
variable {p : Platform} {zone : SystemZone} {now : TimePoint} {settings : CalendarSettings}

theorem heldRaw_eq {r : RawEvent} (fits : ∀ c ∈ rawIntegers p r, c.Fits) : heldRaw p r = rawOf p r := by
  obtain ⟨points, bound⟩ := List.forall_mem_append.mp fits
  rw [heldRaw, p.heldEvent_eq points, int64_eq (bound _ List.mem_cons_self)]
  rfl

theorem computeWindowOn_eq (fits : ∀ c ∈ windowIntegers p zone now settings, c.Fits) :
    computeWindowOn p zone (p.point now) settings = windowOf p (computeWindow zone now settings) := by
  simp only [windowIntegers, List.forall_mem_cons] at fits
  obtain ⟨start, ahead, deadline, _⟩ := fits
  have later : p.point now + p.ticks settings.horizon = p.point (computeWindow zone now settings).deadline := by
    rw [Platform.point, Platform.ticks, Platform.point, computeWindow, Int.add_mul]
  have begins : (if settings.windowFromDayStart then dayStartOn p zone (p.point now) else p.point now) =
      p.point (computeWindow zone now settings).start := by
    simp only [computeWindow, dayStart, dayStartOn, Platform.toTimeT_point] at start ⊢
    split_ifs at start ⊢
    · rfl
    · exact int64_eq start
    · rfl
  rw [computeWindowOn, windowOf, int64_eq ahead, later, int64_eq deadline, begins]

theorem inWindow_point (tp : TimePoint) (win : TimeWindow) :
    inWindow (p.point tp) (windowOf p win) = inWindow tp win := by
  simp only [inWindow, windowOf, Platform.point_le, ne_eq, Platform.point_eq_zero]

theorem overrideShown_point (win : TimeWindow) (r : RawEvent) :
    overrideShown (windowOf p win) (rawOf p r) = overrideShown win r := by
  have start : inWindow (rawOf p r).ev.start (windowOf p win) = inWindow r.ev.start win := inWindow_point _ _
  rw [overrideShown, start]
  rfl

theorem applyRepeatMetadata_point (e : ScheduledEvent) (rule : RruleData) :
    applyRepeatMetadata (p.event e) (p.rule rule) = p.event (applyRepeatMetadata e rule) := by
  have bound : (p.rule rule).until_ = p.point rule.until_ := rfl
  have ends : (if p.point rule.until_ ≠ 0 then p.point rule.until_ else p.point e.recurrenceEnd) =
      p.point (if rule.until_ ≠ 0 then rule.until_ else e.recurrenceEnd) := by
    simp only [ne_eq, Platform.point_eq_zero]
    split_ifs <;> rfl
  simp only [applyRepeatMetadata, bound, show (p.event e).recurrenceEnd = p.point e.recurrenceEnd from rfl, ends]
  rfl

theorem isOverridden_held (raws : List RawEvent) (uid key : Text) :
    isOverridden (buildIndex (raws.map (rawOf p))) uid key = isOverridden (buildIndex raws) uid key := by
  rw [Bool.eq_iff_iff, isOverridden_iff, isOverridden_iff]
  simp only [List.mem_map, exists_exists_and_eq_and]
  rfl

theorem masterEventsOn_point (win : TimeWindow) (raws : List RawEvent) {r : RawEvent}
    (fits : ∀ c ∈ seriesIntegers p zone win r, c.Fits) :
    masterEventsOn p zone (windowOf p win) (buildIndex (raws.map (rawOf p))) (rawOf p r) =
      (masterEvents zone win (buildIndex raws) r).map p.event := by
  have start : inWindow (rawOf p r).ev.start (windowOf p win) = inWindow r.ev.start win := inWindow_point _ _
  unfold masterEventsOn masterEvents
  rw [start]
  cases override : r.hasRecurrenceId with
  | true => simp [rawOf, override]
  | false =>
    by_cases canceled : r.ev.status = .canceled
    · simp [rawOf, override, canceled, Platform.event]
    · cases repeats : r.hasRrule with
      | false =>
        simp only [rawOf, override, repeats, Platform.event, canceled]
        split_ifs <;> rfl
      | true =>
        rw [seriesIntegers, if_pos ⟨override, canceled, repeats⟩] at fits
        have expanded := expandOn_point (show SeriesFits p zone (applyRepeatMetadata r.ev r.rrule) r.rrule win.start
          win.deadline r.exdates from fits)
        have key (instant : TimePoint) : formatLocalDt zone (p.second (p.point instant)) =
            formatLocalDt zone instant := by
          rw [second_point, formatLocalDt, toTimeT_fromTimeT, formatLocalDt]
        have same : expandOn p zone (applyRepeatMetadata (rawOf p r).ev (rawOf p r).rrule) (rawOf p r).rrule
            (windowOf p win).start (windowOf p win).deadline (rawOf p r).exdates = _ :=
          (congrArg (expandOn p zone · _ _ _ _) (applyRepeatMetadata_point r.ev r.rrule)).trans expanded
        simp only [show (rawOf p r).hasRecurrenceId = false from override,
          show (rawOf p r).ev.status ≠ .canceled from canceled, show (rawOf p r).hasRrule = true from repeats,
          same, isOverridden_held, List.filter_map, canceled, if_false, if_true, Bool.false_eq_true]
        refine congrArg (List.map p.event) (List.filter_congr (fun inst _ => ?_))
        simp only [Function.comp_apply, event_start, key]
        rfl

/-- Without an overflow the clock shows what is shown on exact integers. -/
theorem tracedEventsOn_eq {vevents : List Vevent} (fits : ∀ c ∈ callIntegers p zone now settings vevents, c.Fits) :
    tracedEventsOn p zone (p.point now) settings vevents =
      (tracedEvents zone now settings vevents).map (tracedOf p) := by
  obtain ⟨window, each⟩ := List.forall_mem_append.mp fits
  have fit {v : Vevent} (member : v ∈ vevents) := List.forall_mem_append.mp
    (fun c inside => each c (List.mem_flatMap.mpr ⟨v, member, inside⟩))
  have held {v : Vevent} (member : v ∈ vevents) : heldRaw p v.raw = rawOf p v.raw := heldRaw_eq (fit member).1
  have raws : vevents.map (fun v => heldRaw p v.raw) = (vevents.map Vevent.raw).map (rawOf p) := by
    rw [List.map_map]
    exact List.map_congr_left (fun v member => held member)
  have masters : vevents.flatMap (fun v => (masterEventsOn p zone (windowOf p (computeWindow zone now settings))
        (buildIndex ((vevents.map Vevent.raw).map (rawOf p))) (heldRaw p v.raw)).map (TracedEvent.mk v)) =
      (vevents.flatMap (fun v => (masterEvents zone (computeWindow zone now settings)
        (buildIndex (vevents.map Vevent.raw)) v.raw).map (TracedEvent.mk v))).map (tracedOf p) := by
    rw [List.map_flatMap]
    refine List.flatMap_congr (fun v member => ?_)
    rw [held member, masterEventsOn_point _ _ (fit member).2, List.map_map, List.map_map]
    rfl
  have shown : (vevents.filter (fun v => overrideShown (windowOf p (computeWindow zone now settings))
        (heldRaw p v.raw))).map (fun v => (⟨v, (heldRaw p v.raw).ev⟩ : TracedEvent)) =
      ((vevents.filter (fun v => overrideShown (computeWindow zone now settings) v.raw)).map
        (fun v => ⟨v, v.raw.ev⟩)).map (tracedOf p) := by
    have same : vevents.filter (fun v => overrideShown (windowOf p (computeWindow zone now settings))
        (heldRaw p v.raw)) = vevents.filter (fun v => overrideShown (computeWindow zone now settings) v.raw) :=
      List.filter_congr (fun v member => by rw [held member, overrideShown_point])
    rw [same, List.map_map]
    refine List.map_congr_left (fun v member => ?_)
    rw [held (List.mem_of_mem_filter member)]
    rfl
  simp only [tracedEventsOn, computeWindowOn_eq window, raws, masters, shown, ← List.map_append]
  have order (a b : TracedEvent) : a.event.start ≤ b.event.start ↔
      (tracedOf p a).event.start ≤ (tracedOf p b).event.start := Platform.point_le.symm
  exact (List.map_insertionSort _ _ (tracedOf p) _ (fun a _ b _ => order a b)).symm

theorem parseCalendarOn_eq {icsContent : Text} (fits : NoOverflow p zone now settings icsContent) :
    parseCalendarOn p zone (p.point now) settings icsContent =
      (parseCalendarAt zone icsContent now settings).map (List.map p.event) := by
  rw [parseCalendarOn_eq_traced, parseCalendarAt_eq_traced]
  cases read : calendarVevents zone icsContent with
  | error e => rfl
  | ok vevents =>
    simp only [Except.map, tracedEventsOn_eq (fits vevents read), List.map_map]
    rfl

end Fits

end DivoomDev.Ics.ClockPipeline
