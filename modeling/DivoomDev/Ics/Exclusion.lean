import DivoomDev.Ics.ClockPipeline
import DivoomDev.Ics.Properties

/-! Which occurrences EXDATE and RECURRENCE-ID take away from what is shown. Both are compared
as text with an occurrence written as a local date-time, so whether they take effect depends
on how they are written. -/

namespace DivoomDev.Ics.Exclusion
open DivoomDev.Library.Bytes DivoomDev.Library.Fallible TextUtils Timezone Models Datetime Recurrence
  EventBuilder Window OverrideApplier Pipeline Clocks ClockArithmetic ClockPipeline Series Properties

/-! ## What a value denotes -/

inductive ValueForm where
  | date
  | localTime
  | utcTime
  deriving DecidableEq, Repr

def isDateText (s : Text) : Bool := s.length = 8 && s.all isDigit

def isTimeText (s : Text) : Bool :=
  s.length = 15 && (s.take 8).all isDigit && s[8]? = some (byte 'T') && (s.drop 9).all isDigit

/-- The form of a value under its parameters. A date-time with a TZID is a local one whose
parameters name a zone. -/
def valueForm (params value : Text) : Option ValueForm :=
  if isDateText value then if (find (text "VALUE=DATE") params).isSome then some .date else none
  else if isTimeText value then some .localTime
  else if value.getLast? = some (byte 'Z') ∧ isTimeText value.dropLast then some .utcTime
  else none

/-- The instant that the parser assigns to parameters and a value of the calendar. -/
def instantOf (zone : SystemZone) (icsContent params value : Text) : Except StdError TimePoint :=
  parseIcsDatetime zone (collectVtimezones icsContent) (makeDatetimeInfo params value)

/-- An EXDATE value of the block, written with the parameters and in the form of its DTSTART. -/
structure LikeStart (block : VeventBlock) (params value : Text) : Prop where
  exdate : ∃ list, (params, list) ∈ values "EXDATE" block.eventLines ∧ value ∈ exdateParts list
  dtstart : ∃ startValue, lastValue "DTSTART" block.eventLines = some (params, startValue) ∧
    valueForm params value = valueForm params startValue
  form : (valueForm params value).isSome

/-- A VEVENT without RECURRENCE-ID that repeats daily or weekly. -/
structure IsSeries (r : RawEvent) : Prop where
  master : r.hasRecurrenceId = false
  repeats : r.hasRrule = true
  freq : r.rrule.freq = .daily ∨ r.rrule.freq = .weekly

/-! ## What the code takes away -/

/-- The instant's local date-time stands literally among the EXDATE texts of the block. -/
def ExcludedByText (zone : SystemZone) (block : VeventBlock) (instant : TimePoint) : Prop :=
  strftime 16 (zone.localtime (toTimeT instant)) ∈ exdateTexts block.eventLines

/-- The instant's local date-time stands literally in a RECURRENCE-ID under the UID. -/
def OverriddenByText (zone : SystemZone) (vevents : List Vevent) (uid : Text) (instant : TimePoint) :
    Prop :=
  ∃ o ∈ vevents, o.raw.ev.uid = uid ∧
    ∃ property ∈ lastValue "RECURRENCE-ID" o.block.eventLines,
      behindLastColon property.2 = formatLocalDt zone instant

/-- The VEVENT has something to show at the instant, as far as it alone decides. -/
def MasterDue (zone : SystemZone) (win : TimeWindow) (r : RawEvent) (instant : TimePoint) : Prop :=
  r.ev.status ≠ .canceled ∧
    if r.hasRrule then Due zone r.ev r.rrule instant win.start win.deadline
    else r.ev.start = instant ∧ inWindow instant win = true

/-- A repeating VEVENT loses the instant to an EXDATE or an override. -/
def TakenByText (zone : SystemZone) (vevents : List Vevent) (v : Vevent) (instant : TimePoint) : Prop :=
  v.raw.hasRrule = true ∧
    (ExcludedByText zone v.block instant ∨ OverriddenByText zone vevents v.raw.ev.uid instant)

theorem isExcluded_iff {zone : SystemZone} {v : Vevent} (keeps : KeepsText v.block.eventLines v.raw)
    (instant : TimePoint) :
    isExcluded zone instant v.raw.exdates = true ↔ ExcludedByText zone v.block instant := by
  rw [isExcluded, Std.ExtTreeSet.contains_iff_mem, keeps.exdates, ExcludedByText]

theorem isOverridden_iff_text {zone : SystemZone} {vevents : List Vevent}
    (keeps : ∀ v ∈ vevents, KeepsText v.block.eventLines v.raw) (uid : Text) (instant : TimePoint) :
    isOverridden (buildIndex (vevents.map Vevent.raw)) uid (formatLocalDt zone instant) = true ↔
      OverriddenByText zone vevents uid instant := by
  have carries (o : Vevent) (member : o ∈ vevents) :
      (o.raw.hasRecurrenceId = true ∧ o.raw.recurrenceId = formatLocalDt zone instant) ↔
        ∃ property ∈ lastValue "RECURRENCE-ID" o.block.eventLines,
          behindLastColon property.2 = formatLocalDt zone instant := by
    have kept := keeps o member
    cases last : lastValue "RECURRENCE-ID" o.block.eventLines with
    | none => simp [kept.recurrence, last]
    | some property => simp [kept.recurrence, last, kept.recurrenceId property last]
  rw [isOverridden_iff]
  apply Iff.intro
  · intro given
    obtain ⟨_, inside, has, same, key⟩ := given
    obtain ⟨o, member, rfl⟩ := List.mem_map.mp inside
    exact ⟨o, member, same, (carries o member).mp ⟨has, key⟩⟩
  · intro given
    obtain ⟨o, member, same, written⟩ := given
    obtain ⟨has, key⟩ := (carries o member).mpr written
    exact ⟨o.raw, List.mem_map_of_mem member, has, same, key⟩

theorem masterEvents_series {zone : SystemZone} {win : TimeWindow} {overrides : Index} {r : RawEvent}
    (master : r.hasRecurrenceId = false) (active : r.ev.status ≠ .canceled)
    (repeats : r.hasRrule = true) :
    masterEvents zone win overrides r =
      (expand zone (applyRepeatMetadata r.ev r.rrule) r.rrule win.start win.deadline r.exdates).filter
        (fun inst => !isOverridden overrides r.ev.uid (formatLocalDt zone inst.start)) := by
  simp only [masterEvents, master, active, repeats, Bool.false_eq_true, if_false, if_true]

theorem masterEvents_single {zone : SystemZone} {win : TimeWindow} {overrides : Index} {r : RawEvent}
    (master : r.hasRecurrenceId = false) (active : r.ev.status ≠ .canceled)
    (single : ¬r.hasRrule = true) :
    masterEvents zone win overrides r = if inWindow r.ev.start win then [r.ev] else [] := by
  simp only [masterEvents, master, active, single, Bool.false_eq_true, if_false]

theorem masterEvents_start_iff {zone : SystemZone} {win : TimeWindow} {vevents : List Vevent} {v : Vevent}
    (keeps : ∀ v ∈ vevents, KeepsText v.block.eventLines v.raw) (member : v ∈ vevents)
    (sound : zone.Sound)
    (forward : 0 ≤ v.raw.rrule.interval) (master : v.raw.hasRecurrenceId = false)
    (instant : TimePoint) :
    (∃ event ∈ masterEvents zone win (buildIndex (vevents.map Vevent.raw)) v.raw,
        event.start = instant) ↔
      MasterDue zone win v.raw instant ∧
        ¬TakenByText zone vevents v instant := by
  unfold MasterDue TakenByText
  rw [← isExcluded_iff (keeps v member), ← isOverridden_iff_text keeps]
  by_cases canceled : v.raw.ev.status = .canceled
  · simp [masterEvents, canceled]
  by_cases repeats : v.raw.hasRrule = true
  · simp only [masterEvents_series master canceled repeats, List.mem_filter, mem_expand sound forward,
      repeats, Bool.not_eq_true', ne_eq, canceled, not_false_eq_true, true_and, not_or, if_true,
      Bool.not_eq_true]
    apply Iff.intro
    · intro given
      obtain ⟨event, ⟨⟨_, due, kept, rfl⟩, shown⟩, rfl⟩ := given
      exact ⟨due, kept, shown⟩
    · intro given
      obtain ⟨due, kept, shown⟩ := given
      exact ⟨_, ⟨⟨instant, due, kept, rfl⟩, shown⟩, rfl⟩
  · rw [masterEvents_single master canceled repeats]
    apply Iff.intro
    · intro given
      obtain ⟨event, hit, rfl⟩ := given
      split_ifs at hit with inside
      · obtain rfl := List.mem_singleton.mp hit
        simp [canceled, repeats, inside]
      · cases hit
    · intro given
      obtain ⟨⟨_, due⟩, _⟩ := given
      rw [if_neg repeats] at due
      obtain ⟨rfl, inside⟩ := due
      exact ⟨v.raw.ev, by simp [inside], rfl⟩

theorem mem_tracedEvents_master {zone : SystemZone} {now : TimePoint} {settings : CalendarSettings}
    {vevents : List Vevent} (traced : TracedEvent) (master : traced.source.raw.hasRecurrenceId = false) :
    traced ∈ tracedEvents zone now settings vevents ↔ traced.source ∈ vevents ∧
      traced.event ∈ masterEvents zone (computeWindow zone now settings)
        (buildIndex (vevents.map Vevent.raw)) traced.source.raw := by
  have hidden : overrideShown (computeWindow zone now settings) traced.source.raw = false := by
    simp [overrideShown, master]
  simp [mem_tracedEvents, hidden]

theorem shown_iff {zone : SystemZone} {icsContent : Text} {vevents : List Vevent}
    (read : calendarVevents zone icsContent = .ok vevents) (sound : zone.Sound) (now : TimePoint)
    (settings : CalendarSettings) {v : Vevent} (member : v ∈ vevents)
    (master : v.raw.hasRecurrenceId = false) (instant : TimePoint) :
    (∃ traced ∈ tracedEvents zone now settings vevents,
        traced.source = v ∧ traced.event.start = instant) ↔
      MasterDue zone (computeWindow zone now settings) v.raw instant ∧
        ¬TakenByText zone vevents v instant := by
  rw [← masterEvents_start_iff (fun w inside => (calendarVevents_keeps read inside).text) member sound
    (calendarVevents_keeps read member).rule.forward master]
  apply Iff.intro
  · intro given
    obtain ⟨⟨source, event⟩, inside, rfl, rfl⟩ := given
    exact ⟨event, ((mem_tracedEvents_master _ master).mp inside).2, rfl⟩
  · intro given
    obtain ⟨event, inside, rfl⟩ := given
    exact ⟨⟨v, event⟩, (mem_tracedEvents_master _ master).mpr ⟨member, inside⟩, rfl, rfl⟩

theorem all_shown_iff {zone : SystemZone} {icsContent : Text} {vevents : List Vevent}
    (read : calendarVevents zone icsContent = .ok vevents) (sound : zone.Sound) (now : TimePoint)
    (settings : CalendarSettings) {v : Vevent} (member : v ∈ vevents)
    (master : v.raw.hasRecurrenceId = false) (P : TimePoint → Prop) :
    (∀ traced ∈ tracedEvents zone now settings vevents, traced.source = v → P traced.event.start) ↔
      ∀ instant, MasterDue zone (computeWindow zone now settings) v.raw instant →
        ¬TakenByText zone vevents v instant → P instant := by
  have shown (instant : TimePoint) := shown_iff read sound now settings member master instant
  apply Iff.intro
  · intro all instant due free
    obtain ⟨traced, inside, source, rfl⟩ := (shown instant).mpr ⟨due, free⟩
    exact all traced inside source
  · intro all traced inside source
    obtain ⟨due, free⟩ := (shown traced.event.start).mp ⟨traced, inside, source, rfl⟩
    exact all _ due free

theorem not_shown_iff {zone : SystemZone} {icsContent : Text} {vevents : List Vevent}
    (read : calendarVevents zone icsContent = .ok vevents) (sound : zone.Sound) (now : TimePoint)
    (settings : CalendarSettings) {v : Vevent} (member : v ∈ vevents)
    (master : v.raw.hasRecurrenceId = false) (instant : TimePoint) :
    (∀ traced ∈ tracedEvents zone now settings vevents,
        traced.source = v → traced.event.start ≠ instant) ↔
      TakenByText zone vevents v instant ∨ ¬MasterDue zone (computeWindow zone now settings) v.raw instant := by
  rw [all_shown_iff read sound now settings member master (fun start => start ≠ instant)]
  apply Iff.intro
  · intro absent
    by_contra missed
    simp only [not_or, not_not] at missed
    exact absent instant missed.2 missed.1 rfl
  · intro silent start due free same
    subst same
    exact silent.elim free (fun notDue => notDue due)

/-- None of the VEVENTs of a UID without RECURRENCE-ID shows the instant. -/
theorem none_shown_iff {zone : SystemZone} {icsContent : Text} {vevents : List Vevent}
    (read : calendarVevents zone icsContent = .ok vevents) (sound : zone.Sound) (now : TimePoint)
    (settings : CalendarSettings) (uid : Text) (instant : TimePoint) :
    (∀ traced ∈ tracedEvents zone now settings vevents, traced.source.raw.hasRecurrenceId = false →
        traced.source.raw.ev.uid = uid → traced.event.start ≠ instant) ↔
      ∀ v ∈ vevents, v.raw.hasRecurrenceId = false → v.raw.ev.uid = uid →
        TakenByText zone vevents v instant ∨
          ¬MasterDue zone (computeWindow zone now settings) v.raw instant := by
  apply Iff.intro
  · intro absent v member master same
    apply (not_shown_iff read sound now settings member master instant).mp
    intro traced inside source
    exact absent traced inside (source ▸ master) (source ▸ same)
  · intro silent traced inside master same
    have member := ((mem_tracedEvents_master traced master).mp inside).1
    exact (not_shown_iff read sound now settings member master instant).mpr
      (silent traced.source member master same) traced inside rfl

/-! ## EXDATE -/

/-- No instance of a daily or weekly series is shown at an instant that an EXDATE of its
VEVENT, written like its DTSTART, denotes. -/
def ExdatesHonoured (p : Platform) (offset : Int) (icsContent : Text) (now : TimePoint)
    (settings : CalendarSettings) : Prop :=
  ∀ vevents, calendarVevents (.fixed offset) icsContent = .ok vevents →
    ∀ v ∈ vevents, IsSeries v.raw → ∀ params value instant, LikeStart v.block params value →
      instantOf (.fixed offset) icsContent params value = .ok instant →
      ∀ traced ∈ tracedEventsOn p (.fixed offset) (p.point now) settings vevents,
        traced.source = v → traced.event.start ≠ p.point instant

/-- Each such EXDATE denotes an instant that the text of the calendar takes from the series in
the one notation that is looked for, or an instant that is not due anyway. -/
def ExdatesLocalOrIdle (offset : Int) (icsContent : Text) (now : TimePoint)
    (settings : CalendarSettings) : Prop :=
  ∀ vevents, calendarVevents (.fixed offset) icsContent = .ok vevents →
    ∀ v ∈ vevents, IsSeries v.raw → ∀ params value instant, LikeStart v.block params value →
      instantOf (.fixed offset) icsContent params value = .ok instant →
      ExcludedByText (.fixed offset) v.block instant ∨
        OverriddenByText (.fixed offset) vevents v.raw.ev.uid instant ∨
        ¬MasterDue (.fixed offset) (computeWindow (.fixed offset) now settings) v.raw instant

/-- EXDATE takes effect, where no time overflows, exactly where the excluded instant is written as a
local date-time of the system's zone, or is not due. -/
theorem exdatesHonoured_iff {p : Platform} {offset : Int} {icsContent : Text} {now : TimePoint}
    {settings : CalendarSettings} (fits : NoOverflow p (.fixed offset) now settings icsContent) :
    ExdatesHonoured p offset icsContent now settings ↔
      ExdatesLocalOrIdle offset icsContent now settings := by
  refine forall_congr' fun vevents => forall_congr' fun read => forall_congr' fun v =>
    forall_congr' fun member => forall_congr' fun series => forall_congr' fun params =>
    forall_congr' fun value => forall_congr' fun instant => forall_congr' fun like =>
    forall_congr' fun denotes => ?_
  rw [tracedEventsOn_eq (fits vevents read), List.forall_mem_map]
  simp only [tracedOf, event_start, ne_eq, Platform.point_inj]
  refine (not_shown_iff read (fixed_sound offset) now settings member series.master instant).trans ?_
  simp only [TakenByText, series.repeats, true_and, or_assoc]

def utcExdateLines : List Text :=
  [text "UID:a", text "DTSTART:20260904T100000Z", text "RRULE:FREQ=DAILY",
    text "EXDATE:20260905T100000Z"]

def utcExdateVevent : Vevent where
  block := ⟨utcExdateLines, []⟩
  raw :=
    { ev := { uid := text "a", start := fromTimeT 1788516000, exdates := {text "20260905T100000Z"} }
      hasRrule := true
      exdates := {text "20260905T100000Z"} }

/-- The text of a VEVENT with the given lines. -/
def veventText (lines : List Text) : Text :=
  text "BEGIN:VEVENT\n" ++ lines.flatMap (· ++ [lineFeed]) ++ text "END:VEVENT\n"

theorem utcExdateVevent_read :
    calendarVevents (.fixed 0) (veventText utcExdateLines) = .ok [utcExdateVevent] := by
  decide +kernel

theorem exdatesHonoured_iff_utc :
    ExdatesHonoured .msvc 0 (veventText utcExdateLines) (fromTimeT 1788480000) {} ↔
      ExdatesLocalOrIdle 0 (veventText utcExdateLines) (fromTimeT 1788480000) {} :=
  exdatesHonoured_iff (noOverflow_of_read .msvc _ _ _ utcExdateVevent_read (by decide +kernel))

/-- On a system that runs in UTC the excluded day, 2026-09-05 10:00, is shown. -/
theorem exdate_utc_ignored :
    ¬∀ p offset icsContent now settings, ExdatesHonoured p offset icsContent now settings := by
  intro always
  have like : LikeStart utcExdateVevent.block [] (text "20260905T100000Z") :=
    ⟨⟨text "20260905T100000Z", by decide +kernel, by decide +kernel⟩,
      ⟨text "20260904T100000Z", by decide +kernel, by decide +kernel⟩, by decide +kernel⟩
  exact always .msvc 0 _ (fromTimeT 1788480000) {} _ utcExdateVevent_read utcExdateVevent (by simp)
    ⟨rfl, rfl, .inl rfl⟩ [] (text "20260905T100000Z") (fromTimeT 1788602400) like (by decide +kernel)
    ⟨utcExdateVevent, occurrence (applyRepeatMetadata utcExdateVevent.raw.ev utcExdateVevent.raw.rrule)
      (fromTimeT 1788602400)⟩ (by decide +kernel) rfl rfl

/-! ## RECURRENCE-ID -/

/-- The instant is one at which the series repeats, and is not behind its UNTIL. -/
def OccursAt (zone : SystemZone) (r : RawEvent) (instant : TimePoint) : Prop :=
  Recurs zone r.ev r.rrule instant ∧ ¬pastUntil r.rrule instant

/-- The VEVENT is an override whose RECURRENCE-ID, in one of the known forms, denotes the
instant. -/
def Overrides (zone : SystemZone) (icsContent : Text) (o : Vevent) (instant : TimePoint) : Prop :=
  ∃ params value, lastValue "RECURRENCE-ID" o.block.eventLines = some (params, value) ∧
    (valueForm params value).isSome ∧ instantOf zone icsContent params value = .ok instant

/-- Nothing of a UID but its overrides is shown at an occurrence that one of them replaces. -/
def OverridesHonoured (p : Platform) (offset : Int) (icsContent : Text) (now : TimePoint)
    (settings : CalendarSettings) : Prop :=
  ∀ vevents, calendarVevents (.fixed offset) icsContent = .ok vevents →
    ∀ m ∈ vevents, IsSeries m.raw → ∀ o ∈ vevents, o.raw.ev.uid = m.raw.ev.uid → ∀ instant,
      Overrides (.fixed offset) icsContent o instant → OccursAt (.fixed offset) m.raw instant →
      ∀ traced ∈ tracedEventsOn p (.fixed offset) (p.point now) settings vevents,
        traced.source.raw.hasRecurrenceId = false → traced.source.raw.ev.uid = m.raw.ev.uid →
        traced.event.start ≠ p.point instant

/-- At each such occurrence, every VEVENT of the UID that is due there loses it to a
RECURRENCE-ID or an EXDATE in the one notation that is looked for. -/
def OverridesLocalOrIdle (offset : Int) (icsContent : Text) (now : TimePoint)
    (settings : CalendarSettings) : Prop :=
  ∀ vevents, calendarVevents (.fixed offset) icsContent = .ok vevents →
    ∀ m ∈ vevents, IsSeries m.raw → ∀ o ∈ vevents, o.raw.ev.uid = m.raw.ev.uid → ∀ instant,
      Overrides (.fixed offset) icsContent o instant → OccursAt (.fixed offset) m.raw instant →
      ∀ v ∈ vevents, v.raw.hasRecurrenceId = false → v.raw.ev.uid = m.raw.ev.uid →
        TakenByText (.fixed offset) vevents v instant ∨
          ¬MasterDue (.fixed offset) (computeWindow (.fixed offset) now settings) v.raw instant

/-- An override replaces its occurrence, where no time overflows, exactly where the occurrence is
written as a local date-time of the system's zone, or nothing of the UID is due there. -/
theorem overridesHonoured_iff {p : Platform} {offset : Int} {icsContent : Text} {now : TimePoint}
    {settings : CalendarSettings} (fits : NoOverflow p (.fixed offset) now settings icsContent) :
    OverridesHonoured p offset icsContent now settings ↔
      OverridesLocalOrIdle offset icsContent now settings := by
  refine forall_congr' fun vevents => forall_congr' fun read => forall_congr' fun m =>
    forall_congr' fun _ => forall_congr' fun _ => forall_congr' fun o => forall_congr' fun _ =>
    forall_congr' fun _ => forall_congr' fun instant => forall_congr' fun _ =>
    forall_congr' fun _ => ?_
  rw [tracedEventsOn_eq (fits vevents read), List.forall_mem_map]
  simp only [tracedOf, event_start, ne_eq, Platform.point_inj]
  exact none_shown_iff read (fixed_sound offset) now settings m.raw.ev.uid instant

/-- The lines of a daily series in UTC and of an override that moves its second day by two
hours. -/
def utcSeriesLines : List Text :=
  [text "UID:a", text "DTSTART:20260904T100000Z", text "RRULE:FREQ=DAILY"]

def utcOverrideLines : List Text :=
  [text "UID:a", text "RECURRENCE-ID:20260905T100000Z", text "DTSTART:20260905T120000Z"]

def utcSeriesVevent : Vevent where
  block := ⟨utcSeriesLines, []⟩
  raw := { ev := { uid := text "a", start := fromTimeT 1788516000 }, hasRrule := true }

def utcOverrideVevent : Vevent where
  block := ⟨utcOverrideLines, []⟩
  raw :=
    { ev := { uid := text "a", start := fromTimeT 1788609600 }
      hasRecurrenceId := true
      recurrenceId := text "20260905T100000Z" }

/-- The series and its override. -/
def utcOverrideCalendar : Text := veventText utcSeriesLines ++ veventText utcOverrideLines

theorem utcOverrideCalendar_read :
    calendarVevents (.fixed 0) utcOverrideCalendar = .ok [utcSeriesVevent, utcOverrideVevent] := by
  decide +kernel

theorem overridesHonoured_iff_utc :
    OverridesHonoured .msvc 0 utcOverrideCalendar (fromTimeT 1788480000) {} ↔
      OverridesLocalOrIdle 0 utcOverrideCalendar (fromTimeT 1788480000) {} :=
  overridesHonoured_iff (noOverflow_of_read .msvc _ _ _ utcOverrideCalendar_read (by decide +kernel))

/-- On a system that runs in UTC the moved day is shown next to its override. -/
theorem override_utc_ignored :
    ¬∀ p offset icsContent now settings, OverridesHonoured p offset icsContent now settings := by
  intro always
  have overrides : Overrides (.fixed 0) utcOverrideCalendar utcOverrideVevent (fromTimeT 1788602400) :=
    ⟨[], text "20260905T100000Z", by decide +kernel, by decide +kernel, by decide +kernel⟩
  have occurs : OccursAt (.fixed 0) utcSeriesVevent.raw (fromTimeT 1788602400) :=
    ⟨⟨1, by decide, by decide⟩, by decide⟩
  exact always .msvc 0 _ (fromTimeT 1788480000) {} _ utcOverrideCalendar_read utcSeriesVevent (by simp)
    ⟨rfl, rfl, .inl rfl⟩ utcOverrideVevent (by simp) rfl (fromTimeT 1788602400) overrides occurs
    ⟨utcSeriesVevent, occurrence (applyRepeatMetadata utcSeriesVevent.raw.ev utcSeriesVevent.raw.rrule)
      (fromTimeT 1788602400)⟩ (by decide +kernel) rfl rfl rfl

end DivoomDev.Ics.Exclusion
