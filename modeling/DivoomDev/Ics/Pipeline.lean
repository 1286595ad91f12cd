import DivoomDev.Ics.EventBuilder
import DivoomDev.Ics.OverrideApplier

/-! The calendar pipeline: unfold, collect the VEVENT blocks, expand the series, apply the
overrides, select by window and sort. -/

namespace DivoomDev.Ics.Pipeline
open DivoomDev.Library.Bytes TextUtils Timezone Models Datetime Recurrence EventBuilder Window
  OverrideApplier

/-! ## Collecting VEVENT blocks -/

/-- The local variables of `collect_raw_events` that follow the lines. -/
structure LineScan where
  inEvent : Bool := false
  inAlarm : Bool := false
  eventLines : List Text := []
  alarmLines : List Text := []

/-- A line other than END:VEVENT. -/
def LineScan.line (s : LineScan) (t : Text) : LineScan :=
  if t = text "BEGIN:VEVENT" then { inEvent := true }
  else if !s.inEvent then s
  else if t = text "BEGIN:VALARM" then { s with inAlarm := true, alarmLines := [] }
  else if t = text "END:VALARM" then { s with inAlarm := false }
  else if s.inAlarm then { s with alarmLines := s.alarmLines ++ [t] }
  else { s with eventLines := s.eventLines ++ [t] }

structure Collect extends LineScan where
  raws : List RawEvent := []

/-- The lambda `flush`: an event without a UID is dropped. -/
def Collect.flush (zone : SystemZone) (tz : TimezoneResolver) (c : Collect) :
    Except StdError Collect :=
  if c.eventLines = [] then pure { raws := c.raws }
  else do
    let re ← build zone tz c.eventLines c.alarmLines
    pure { raws := if re.ev.uid = [] then c.raws else c.raws ++ [re] }

def Collect.line (zone : SystemZone) (tz : TimezoneResolver) (c : Collect) (physical : Text) :
    Except StdError Collect :=
  let t := trim (dropCarriageReturn physical)
  if t = text "END:VEVENT" then c.flush zone tz
  else pure { c with toLineScan := c.toLineScan.line t }

def collectRawEvents (zone : SystemZone) (tz : TimezoneResolver) (unfolded : Text) :
    Except StdError (List RawEvent) := do
  let c ← (getlines lineFeed unfolded).foldlM (Collect.line zone tz) {}
  pure c.raws

/-! ## Selecting events -/

/-- The events that step 6 appends for one raw event: the instances of a series that no
override replaces, or a single event in the window. -/
def masterEvents (zone : SystemZone) (win : TimeWindow) (overrides : Index) (r : RawEvent) :
    List ScheduledEvent :=
  if r.hasRecurrenceId then []
  else if r.ev.status = .canceled then []
  else if r.hasRrule then
    (expand zone (applyRepeatMetadata r.ev r.rrule) r.rrule win.start win.deadline r.exdates).filter
      (fun inst => !isOverridden overrides r.ev.uid (formatLocalDt zone inst.start))
  else if inWindow r.ev.start win then [r.ev] else []

/-- `std::sort` by start. It leaves events with equal starts in an unspecified order, so
nothing may be concluded about that order. -/
def sortByStart (events : List ScheduledEvent) : List ScheduledEvent :=
  events.insertionSort (fun a b => a.start ≤ b.start)

/-- Steps 4 to 8 of the pipeline, on the raw events. -/
def selectEvents (zone : SystemZone) (now : TimePoint) (settings : CalendarSettings)
    (raws : List RawEvent) : List ScheduledEvent :=
  let win := computeWindow zone now settings
  let overrides := buildIndex raws
  let result := raws.foldl (fun result r => result ++ masterEvents zone win overrides r) []
  sortByStart (result ++ inWindowOverrides raws win)

def parseCalendarAt (zone : SystemZone) (icsContent : Text) (now : TimePoint)
    (settings : CalendarSettings) : Except StdError (List ScheduledEvent) := do
  let tz := collectVtimezones icsContent
  let unfolded := unfoldContent icsContent
  let raws ← collectRawEvents zone tz unfolded
  pure (selectEvents zone now settings raws)

/-! ## The blocks behind the raw events -/

/-- The lines of one VEVENT block, without those of its alarms, and the lines of its last
alarm block. -/
structure VeventBlock where
  eventLines : List Text
  alarmLines : List Text
  deriving DecidableEq, Repr

/-- The blocks that END:VEVENT lines close, from a state of the scan on. -/
def scanBlocks : LineScan → List Text → List VeventBlock
  | _, [] => []
  | s, physical :: rest =>
      let t := trim (dropCarriageReturn physical)
      if t = text "END:VEVENT" then
        (if s.eventLines = [] then [] else [⟨s.eventLines, s.alarmLines⟩]) ++ scanBlocks {} rest
      else scanBlocks (s.line t) rest

def veventBlocks (icsContent : Text) : List VeventBlock :=
  scanBlocks {} (getlines lineFeed (unfoldContent icsContent))

structure Vevent where
  block : VeventBlock
  raw : RawEvent
  deriving DecidableEq, Repr

def buildVevent (zone : SystemZone) (tz : TimezoneResolver) (block : VeventBlock) :
    Except StdError Vevent := do
  pure ⟨block, ← build zone tz block.eventLines block.alarmLines⟩

def calendarVevents (zone : SystemZone) (icsContent : Text) : Except StdError (List Vevent) := do
  let built ← (veventBlocks icsContent).mapM (buildVevent zone (collectVtimezones icsContent))
  pure (built.filter (fun v => v.raw.ev.uid ≠ []))

/-- An event that the pipeline returns, with the VEVENT it comes from. -/
structure TracedEvent where
  source : Vevent
  event : ScheduledEvent
  deriving DecidableEq, Repr

/-- Steps 4 to 8 of the pipeline with the origin of every event kept. -/
def tracedEvents (zone : SystemZone) (now : TimePoint) (settings : CalendarSettings)
    (vevents : List Vevent) : List TracedEvent :=
  let win := computeWindow zone now settings
  let overrides := buildIndex (vevents.map Vevent.raw)
  let masters := vevents.flatMap (fun v => (masterEvents zone win overrides v.raw).map (TracedEvent.mk v))
  let shown := (vevents.filter (fun v => overrideShown win v.raw)).map (fun v => ⟨v, v.raw.ev⟩)
  (masters ++ shown).insertionSort (fun a b => a.event.start ≤ b.event.start)

/-! ## The traced pipeline is the pipeline -/

theorem collect_eq_blocks (zone : SystemZone) (tz : TimezoneResolver) (lines : List Text)
    (c : Collect) :
    (lines.foldlM (Collect.line zone tz) c).map Collect.raws =
      ((scanBlocks c.toLineScan lines).mapM (buildVevent zone tz)).map (fun built =>
        c.raws ++ (built.filter (fun v => v.raw.ev.uid ≠ [])).map Vevent.raw) := by
  induction lines generalizing c with
  | nil => simp [scanBlocks, pure, Except.pure, Except.map]
  | cons physical rest ih =>
    rw [List.foldlM_cons]
    by_cases closes : trim (dropCarriageReturn physical) = text "END:VEVENT"
    · simp only [Collect.line, scanBlocks, if_pos closes, Collect.flush]
      by_cases empty : c.eventLines = []
      · simp only [if_pos empty, List.nil_append, pure_bind]
        exact ih { raws := c.raws }
      · simp only [if_neg empty, List.singleton_append, List.mapM_cons]
        cases built : build zone tz c.eventLines c.alarmLines with
        | error e => simp [buildVevent, built, bind, Except.bind, Except.map]
        | ok re =>
          have next := ih { raws := if re.ev.uid = [] then c.raws else c.raws ++ [re] }
          simp only [bind, Except.bind, pure, Except.pure, buildVevent, built] at next ⊢
          rw [next]
          cases (scanBlocks {} rest).mapM (buildVevent zone tz) with
          | error e => rfl
          | ok vs => by_cases anonymous : re.ev.uid = [] <;> simp [Except.map, anonymous]
    · simp only [Collect.line, scanBlocks, if_neg closes, pure_bind]
      exact ih { c with toLineScan := c.toLineScan.line (trim (dropCarriageReturn physical)) }

theorem collectRawEvents_eq (zone : SystemZone) (icsContent : Text) :
    collectRawEvents zone (collectVtimezones icsContent) (unfoldContent icsContent) =
      (calendarVevents zone icsContent).map (List.map Vevent.raw) := by
  have blocks := collect_eq_blocks zone (collectVtimezones icsContent)
    (getlines lineFeed (unfoldContent icsContent)) {}
  simp only [collectRawEvents, calendarVevents, veventBlocks, List.nil_append] at blocks ⊢
  cases folded : (getlines lineFeed (unfoldContent icsContent)).foldlM
      (Collect.line zone (collectVtimezones icsContent)) {} <;>
  cases built : (scanBlocks {} (getlines lineFeed (unfoldContent icsContent))).mapM
      (buildVevent zone (collectVtimezones icsContent)) <;>
  simp_all [Except.map, bind, Except.bind, pure, Except.pure]

theorem foldl_append_eq_flatMap {α β : Type} (f : α → List β) (items : List α) (start : List β) :
    items.foldl (fun result item => result ++ f item) start = start ++ items.flatMap f := by
  induction items generalizing start with
  | nil => simp
  | cons item rest ih => rw [List.foldl_cons, ih, List.flatMap_cons, List.append_assoc]

theorem tracedEvents_map (zone : SystemZone) (now : TimePoint) (settings : CalendarSettings)
    (vevents : List Vevent) :
    (tracedEvents zone now settings vevents).map TracedEvent.event =
      selectEvents zone now settings (vevents.map Vevent.raw) := by
  simp only [tracedEvents, selectEvents, sortByStart]
  rw [List.map_insertionSort (r := fun a b : TracedEvent => a.event.start ≤ b.event.start)
    (s := fun a b : ScheduledEvent => a.start ≤ b.start) TracedEvent.event _
    (fun _ _ _ _ => Iff.rfl)]
  congr 1
  rw [foldl_append_eq_flatMap, List.nil_append, inWindowOverrides, List.map_append]
  simp [List.map_flatMap, List.flatMap_map, List.filter_map, Function.comp_def]

/-- An event is shown as an occurrence of the VEVENT it is from, or as the override it is. -/
theorem mem_tracedEvents {zone : SystemZone} {now : TimePoint} {settings : CalendarSettings}
    {vevents : List Vevent} (traced : TracedEvent) :
    traced ∈ tracedEvents zone now settings vevents ↔ traced.source ∈ vevents ∧
      (traced.event ∈ masterEvents zone (computeWindow zone now settings)
          (buildIndex (vevents.map Vevent.raw)) traced.source.raw ∨
        overrideShown (computeWindow zone now settings) traced.source.raw = true ∧
          traced.event = traced.source.raw.ev) := by
  obtain ⟨source, event⟩ := traced
  simp only [tracedEvents, List.mem_insertionSort, List.mem_append, List.mem_flatMap, List.mem_map,
    List.mem_filter, TracedEvent.mk.injEq]
  apply Iff.intro
  · intro given
    rcases given with ⟨v, member, _, hit, rfl, rfl⟩ | ⟨v, ⟨member, shown⟩, rfl, rfl⟩
    · exact ⟨member, .inl hit⟩
    · exact ⟨member, .inr ⟨shown, rfl⟩⟩
  · intro given
    obtain ⟨member, hit | ⟨shown, same⟩⟩ := given
    · exact .inl ⟨source, member, event, hit, rfl, rfl⟩
    · exact .inr ⟨source, ⟨member, shown⟩, rfl, same.symm⟩

/-- The pipeline returns the traced events, and fails exactly where a block fails to build. -/
theorem parseCalendarAt_eq_traced (zone : SystemZone) (icsContent : Text) (now : TimePoint)
    (settings : CalendarSettings) :
    parseCalendarAt zone icsContent now settings =
      (calendarVevents zone icsContent).map (fun vevents =>
        (tracedEvents zone now settings vevents).map TracedEvent.event) := by
  simp only [parseCalendarAt, collectRawEvents_eq]
  cases calendarVevents zone icsContent with
  | error e => rfl
  | ok vevents => simp [Except.map, bind, Except.bind, pure, Except.pure, tracedEvents_map]

end DivoomDev.Ics.Pipeline
