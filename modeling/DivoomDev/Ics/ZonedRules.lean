import DivoomDev.Ics.Exclusion
import DivoomDev.Ics.Expansion
import DivoomDev.Ics.Instants

/-! Weekly series that are written in the zone of a TZID. The days of the rule are taken for
days of the system's zone, where the date may be another one. -/

namespace DivoomDev.Ics.ZonedRules
open DivoomDev.Library DivoomDev.Library.Bytes Timezone Models Datetime Recurrence Window Pipeline Clocks
  ClockArithmetic ClockPipeline Series Properties Exclusion Repetition Expansion Instants

/-! ## A DTSTART with a TZID -/

/-- The parameters of a DTSTART, the time that is written, and by how many hours its zone is
ahead of UTC. -/
structure ZonedStart where
  params : Text
  time : Gregorian.DateTime
  ahead : Int

/-- The instant that it denotes. -/
def ZonedStart.instant (s : ZonedStart) : TimePoint := fromTimeT (s.time.seconds - s.ahead * 3600)

/-- The day of the week that is written, from 1 for Monday to 7. -/
def ZonedStart.day (s : ZonedStart) : Int := (s.time.toDate.days + 3) % 7 + 1

/-- The block has it as its DTSTART, and its TZID is known. -/
structure ZonedStart.Of (s : ZonedStart) (tz : TimezoneResolver) (lines : List Text) : Prop where
  property : lastValue "DTSTART" lines = some (s.params, dateTimeText s.time)
  valid : s.time.Valid
  year : 0 ≤ s.time.year ∧ s.time.year ≤ 9999
  zone : ∃ tzid ≠ [], paramAfter (text "TZID=") s.params = some tzid ∧ offsetHours tz tzid = s.ahead
  known : s.ahead ≠ kUnknownOffset

/-- The instant that the parser takes it for. A parameter VALUE=DATE-TIME is mistaken for
VALUE=DATE, and the TZID is not looked at then. -/
def ZonedStart.read (offset : Int) (s : ZonedStart) : TimePoint :=
  pointOf (s.time.seconds - if (find (text "VALUE=DATE") s.params).isSome then offset else s.ahead * 3600)

section Reading
variable {offset : Int} {s : ZonedStart} {tz : TimezoneResolver} {lines : List Text}

theorem parseIcsDatetime_zonedStart (start : s.Of tz lines) :
    parseIcsDatetime (.fixed offset) tz (makeDatetimeInfo s.params (dateTimeText s.time)) =
      .ok (s.read offset) := by
  obtain ⟨tzid, named, param, ahead⟩ := start.zone
  have info : makeDatetimeInfo s.params (dateTimeText s.time) =
      { timezone := tzid, isDate := (find (text "VALUE=DATE") s.params).isSome, value := dateTimeText s.time } := by
    simp [makeDatetimeInfo, param, named, dateTimeText_last]
  have wall : readWall (makeDatetimeInfo s.params (dateTimeText s.time)) = .ok (wallTm s.time) :=
    readWall_text start.valid start.year (List.append_nil _).symm
  rw [parseIcsDatetime, wall, info]
  cases isDate : (find (Bytes.text "VALUE=DATE") s.params).isSome <;>
    simp [bind, Except.bind, pure, Except.pure, SystemZone.fixed, utcSeconds_wallTm start.valid, named, ahead,
      start.known, ZonedStart.read, isDate]

theorem start_eq_read {v : Vevent} (keeps : KeepsEvent (.fixed offset) tz v.block.eventLines v.raw)
    (start : s.Of tz v.block.eventLines) : v.raw.ev.start = s.read offset := by
  have read := keeps.start
  rw [instantRead, start.property] at read
  dsimp only at read
  rw [parseIcsDatetime_zonedStart start] at read
  exact (Except.ok.inj read).symm

theorem countable_pointOf (t : Int) : Countable (pointOf t) := by
  unfold pointOf
  split_ifs
  · exact .inl le_rfl
  · exact .inr ⟨t, Int.mul_comm _ _⟩

end Reading

/-! ## The days of the series -/

section Days
variable {offset : Int} {base : ScheduledEvent} {rule : RruleData}

theorem recursWeekly_iff_weekInstant (sound : RuleSound rule) (named : rule.byday.isEmpty = false)
    (instant : TimePoint) :
    RecursWeekly (.fixed offset) base rule instant ↔
      ∃ day ∈ rule.byday, ∃ week < 520, instant = weekInstant (.fixed offset) base rule week day := by
  have ofRule (day : Nat) : day ∈ weeklyDays (.fixed offset) base rule ↔ day ∈ rule.byday := by
    simp [mem_weeklyDays, named]
  have start (week : Nat) {day : Nat} (member : day ∈ rule.byday) :
      weeklyStart (.fixed offset) base rule week day = weekInstant (.fixed offset) base rule week day :=
    weeklyStart_eq_weekInstant (fixed_sound offset) (sound.days day member).1 week
  apply Iff.intro
  · intro given
    obtain ⟨week, bound, day, member, same⟩ := given
    have inByday := (ofRule day).mp member
    exact ⟨day, inByday, week, bound, same.trans (start week inByday)⟩
  · intro given
    obtain ⟨day, inByday, week, bound, same⟩ := given
    exact ⟨week, bound, day, (ofRule day).mpr inByday, same.trans (start week inByday).symm⟩

/-- A series with days of its own comes to an instant exactly when it lies whole days behind
the start, in a week of the series, on a day of the rule in the system's zone. -/
theorem recursWeekly_iff (sound : RuleSound rule) (countable : Countable base.start)
    (named : rule.byday.isEmpty = false) (instant : TimePoint) :
    RecursWeekly (.fixed offset) base rule instant ↔
      (localDow (.fixed offset) instant).toNat ∈ rule.byday ∧ ∃ week < 520, ∃ rest < 7,
        instant = base.start + hours 24 * (7 * rule.interval * (week : Nat) + (rest : Nat)) := by
  rw [recursWeekly_iff_weekInstant sound named]
  apply Iff.intro
  · intro given
    obtain ⟨day, inByday, week, bound, same⟩ := given
    have dow : localDow (.fixed offset) (weekInstant (.fixed offset) base rule week day) = day :=
      localDow_weekInstant countable sound.forward (sound.days day inByday) week
    obtain ⟨rest, isRest⟩ := Int.eq_ofNat_of_zero_le
      (Int.emod_nonneg ((day : Int) - localDow (.fixed offset) base.start) (show (7 : Int) ≠ 0 by decide))
    refine ⟨?_, week, bound, rest, by omega, ?_⟩
    · rw [same, dow, Int.toNat_natCast]
      exact inByday
    · rw [same, weekInstant, isRest]
  · intro given
    obtain ⟨inByday, week, bound, rest, small, same⟩ := given
    refine ⟨_, inByday, week, bound, ?_⟩
    have weeks : 0 ≤ rule.interval * (week : Int) := Int.mul_nonneg sound.forward (by omega)
    obtain ⟨count, isCount⟩ := Int.eq_ofNat_of_zero_le
      (show 0 ≤ 7 * (rule.interval * week) + (rest : Int) by omega)
    have days : localDay offset instant = localDay offset base.start + count := by
      rw [same, Int.mul_assoc, isCount, localDay_days countable]
    have ahead : ((localDow (.fixed offset) instant).toNat - localDow (.fixed offset) base.start) % 7 = rest := by
      rw [localDow_fixed, localDow_fixed, days]
      omega
    rw [weekInstant, ahead, same]

/-- The day that a day of the week is, at the time of day of an instant, in a zone of another
offset. -/
def movedDay (offset other : Int) (tp : TimePoint) (day : Nat) : Nat :=
  (((day : Int) - 1 + (localDay other tp - localDay offset tp)) % 7 + 1).toNat

theorem movedDay_weekInstant (sound : RuleSound rule) (countable : Countable base.start) (other : Int) {day : Nat}
    (member : day ∈ rule.byday) (week : Nat) :
    (localDow (.fixed other) (weekInstant (.fixed offset) base rule week day)).toNat =
      movedDay offset other base.start day := by
  have dow : localDow (.fixed offset) (weekInstant (.fixed offset) base rule week day) = day :=
    localDow_weekInstant countable sound.forward (sound.days day member) week
  obtain ⟨count, _, same⟩ : ∃ count : Nat, _ ∧
      weekInstant (.fixed offset) base rule week day = base.start + hours 24 * count :=
    weekInstant_days (.fixed offset) sound.forward week day
  rw [same] at dow ⊢
  rw [localDow_fixed, localDay_days countable] at dow ⊢
  rw [movedDay]
  congr 1
  omega

end Days

/-! ## Series that keep their days -/

/-- A VEVENT without RECURRENCE-ID that repeats weekly. -/
structure IsWeekly (r : RawEvent) : Prop where
  master : r.hasRecurrenceId = false
  repeats : r.hasRrule = true
  weekly : r.rrule.freq = .weekly

section Series
variable (offset : Int) (now : TimePoint) (settings : CalendarSettings) (vevents : List Vevent)
  (v : Vevent) (s : ZonedStart)

/-- The series shows its DTSTART, and all that it shows is on days of the rule in the zone of
its DTSTART. -/
def KeepsItsDays (p : Platform) : Prop :=
  (∃ traced ∈ tracedEventsOn p (.fixed offset) (p.point now) settings vevents,
      traced.source = v ∧ traced.event.start = p.point s.instant) ∧
    ∀ traced ∈ tracedEventsOn p (.fixed offset) (p.point now) settings vevents, traced.source = v →
      (localDow (.fixed (s.ahead * 3600)) (p.second traced.event.start)).toNat ∈ v.raw.rrule.byday

/-- The instant is in the window, not behind UNTIL and not taken by an EXDATE or an override. -/
def Left (instant : TimePoint) : Prop :=
  WithinBounds v.raw.rrule instant (computeWindow (.fixed offset) now settings).start
      (computeWindow (.fixed offset) now settings).deadline ∧
    ¬TakenByText (.fixed offset) vevents v instant

/-- DTSTART is left and on a day of the rule in the system's zone, and each day of the rule
with an instant that is left stays a day of the rule in the zone of DTSTART. -/
structure DaysAgree : Prop where
  active : v.raw.ev.status ≠ .canceled
  left : Left offset now settings vevents v s.instant
  reached : ∃ week < 520, ∃ rest < 7, s.instant =
    s.read offset + hours 24 * (7 * v.raw.rrule.interval * (week : Nat) + (rest : Nat))
  startDay : (localDow (.fixed offset) s.instant).toNat ∈ v.raw.rrule.byday
  days : ∀ day ∈ v.raw.rrule.byday,
    (∃ week < 520, Left offset now settings vevents v
      (weekInstant (.fixed offset) v.raw.ev v.raw.rrule week day)) →
    movedDay offset (s.ahead * 3600) (s.read offset) day ∈ v.raw.rrule.byday

end Series

theorem masterDue_weekly {zone : SystemZone} {win : TimeWindow} {r : RawEvent} (series : IsWeekly r)
    (instant : TimePoint) :
    MasterDue zone win r instant ↔ r.ev.status ≠ .canceled ∧ RecursWeekly zone r.ev r.rrule instant ∧
      WithinBounds r.rrule instant win.start win.deadline := by
  simp only [MasterDue, series.repeats, if_true, Due, series.weekly]

/-- All that a series shows is on days of the rule in another zone exactly when the days with
an instant that is left are carried over to days of the rule. -/
theorem onDays_iff {offset : Int} {v : Vevent} (sound : RuleSound v.raw.rrule)
    (countable : Countable v.raw.ev.start) (named : v.raw.rrule.byday.isEmpty = false) (other : Int)
    (P : TimePoint → Prop) :
    (∀ instant, RecursWeekly (.fixed offset) v.raw.ev v.raw.rrule instant → P instant →
        (localDow (.fixed other) instant).toNat ∈ v.raw.rrule.byday) ↔
      ∀ day ∈ v.raw.rrule.byday,
        (∃ week < 520, P (weekInstant (.fixed offset) v.raw.ev v.raw.rrule week day)) →
        movedDay offset other v.raw.ev.start day ∈ v.raw.rrule.byday := by
  have recurs (instant : TimePoint) : RecursWeekly (.fixed offset) v.raw.ev v.raw.rrule instant ↔ _ :=
    recursWeekly_iff_weekInstant sound named instant
  apply Iff.intro
  · intro onDays day inByday left
    obtain ⟨week, bound, isLeft⟩ := left
    rw [← movedDay_weekInstant sound countable other inByday week]
    exact onDays _ ((recurs _).mpr ⟨day, inByday, week, bound, rfl⟩) isLeft
  · intro moved instant due isLeft
    obtain ⟨day, inByday, week, bound, same⟩ := (recurs instant).mp due
    rw [same] at isLeft ⊢
    rw [movedDay_weekInstant sound countable other inByday week]
    exact moved day inByday ⟨week, bound, isLeft⟩

theorem keepsItsDays_exact {p : Platform} {offset : Int} {now : TimePoint} {settings : CalendarSettings}
    {vevents : List Vevent} (fits : ∀ c ∈ callIntegers p (.fixed offset) now settings vevents, c.Fits) (v : Vevent)
    (s : ZonedStart) :
    KeepsItsDays offset now settings vevents v s p ↔
      (∃ traced ∈ tracedEvents (.fixed offset) now settings vevents,
          traced.source = v ∧ traced.event.start = s.instant) ∧
        ∀ traced ∈ tracedEvents (.fixed offset) now settings vevents, traced.source = v →
          (localDow (.fixed (s.ahead * 3600)) traced.event.start).toNat ∈ v.raw.rrule.byday := by
  simp only [KeepsItsDays, tracedEventsOn_eq fits, List.mem_map, exists_exists_and_eq_and, forall_exists_index,
    and_imp, forall_apply_eq_imp_iff₂, tracedOf, event_start, Platform.point_inj, localDow_point]

/-- A weekly series in the zone of a TZID keeps its start and its days, where no time overflows, exactly
where the day of its start in the system's zone is one of the rule, and the days of the rule stay its
days when they are carried over. -/
theorem keepsItsDays_iff {p : Platform} {offset : Int} {icsContent : Text} {vevents : List Vevent}
    (read : calendarVevents (.fixed offset) icsContent = .ok vevents) {now : TimePoint}
    {settings : CalendarSettings} (fits : NoOverflow p (.fixed offset) now settings icsContent) {v : Vevent}
    (member : v ∈ vevents) (series : IsWeekly v.raw) {s : ZonedStart}
    (start : s.Of (collectVtimezones icsContent) v.block.eventLines) :
    KeepsItsDays offset now settings vevents v s p ↔ DaysAgree offset now settings vevents v s := by
  have keeps := calendarVevents_keeps read member
  have isRead := start_eq_read keeps.event start
  have countable : Countable v.raw.ev.start := isRead ▸ countable_pointOf _
  have sound := fixed_sound offset
  have named {day : Nat} (inByday : day ∈ v.raw.rrule.byday) : v.raw.rrule.byday.isEmpty = false := by
    rw [Std.ExtTreeSet.isEmpty_eq_false_iff]
    intro empty
    exact Std.ExtTreeSet.not_mem_empty (empty ▸ inByday)
  rw [keepsItsDays_exact (fits vevents read), shown_iff read sound now settings member series.master,
    all_shown_iff read sound now settings member series.master
      (fun start => (localDow (.fixed (s.ahead * 3600)) start).toNat ∈ v.raw.rrule.byday)]
  simp only [masterDue_weekly series]
  apply Iff.intro
  · intro given
    obtain ⟨⟨⟨active, recurs, within⟩, free⟩, onDays⟩ := given
    have some := named (onDays s.instant ⟨active, recurs, within⟩ free)
    have onDay := (recursWeekly_iff keeps.rule countable some s.instant).mp recurs
    have moved := (onDays_iff keeps.rule countable some (s.ahead * 3600) (Left offset now settings vevents v)).mp
      (fun instant due left => onDays instant ⟨active, due, left.1⟩ left.2)
    rw [isRead] at onDay moved
    exact ⟨active, ⟨within, free⟩, onDay.2, onDay.1, moved⟩
  · intro given
    obtain ⟨active, ⟨within, free⟩, reached, startDay, moved⟩ := given
    rw [← isRead] at reached moved
    have some := named startDay
    have onDays :=
      (onDays_iff keeps.rule countable some (s.ahead * 3600) (Left offset now settings vevents v)).mpr moved
    refine ⟨⟨⟨active, ?_, within⟩, free⟩, ?_⟩
    · exact (recursWeekly_iff keeps.rule countable some s.instant).mpr ⟨startDay, reached⟩
    · exact fun instant due left => onDays instant due.2.1 ⟨due.2.2, left⟩

/-- Where the date in the system's zone is the one that is written, the rule means the days
that are written. -/
theorem daysAgree_of_sameDate {offset : Int} {now : TimePoint} {settings : CalendarSettings}
    {vevents : List Vevent} {v : Vevent} {s : ZonedStart} (active : v.raw.ev.status ≠ .canceled)
    (left : Left offset now settings vevents v s.instant) (sound : RuleSound v.raw.rrule)
    (valid : s.time.Valid) (inDay : s.time.second ≤ 59) (dateTime : find (text "VALUE=DATE") s.params = none)
    (works : s.time.seconds - s.ahead * 3600 ≠ -1)
    (sameDate : localDay offset s.instant = s.time.toDate.days) (written : s.day.toNat ∈ v.raw.rrule.byday) :
    DaysAgree offset now settings vevents v s := by
  have isRead : s.read offset = s.instant := by
    simp [ZonedStart.read, ZonedStart.instant, dateTime, pointOf, works]
  have inZone : localDay (s.ahead * 3600) s.instant = s.time.toDate.days := by
    obtain ⟨_, hour, minute, second⟩ := valid
    rw [localDay, ZonedStart.instant, toTimeT_fromTimeT, Gregorian.DateTime.seconds]
    omega
  refine ⟨active, left, ⟨0, by decide, 0, by decide, by simp [isRead]⟩, ?_, ?_⟩
  · rw [localDow_fixed, sameDate]
    exact written
  · intro day inByday _
    have inWeek := sound.days day inByday
    have same : movedDay offset (s.ahead * 3600) (s.read offset) day = day := by
      rw [movedDay, isRead, inZone, sameDate]
      omega
    rw [same]
    exact inByday

/-! ## A night in Bangkok -/

/-- Two in the morning on Saturdays in Bangkok, when it is Friday in Moscow. -/
def nightLines : List Text :=
  [text "UID:a", text "DTSTART;TZID=Asia/Bangkok:20260905T020000", text "RRULE:FREQ=WEEKLY;BYDAY=SA"]

def saturdays : RruleData := { freq := .weekly, byday := (∅ : Std.ExtTreeSet Nat).insert 6 }

def nightVevent : Vevent where
  block := ⟨nightLines, []⟩
  raw := { ev := { uid := text "a", start := fromTimeT 1788548400 }, hasRrule := true, rrule := saturdays }

def nightStart : ZonedStart := ⟨text "TZID=Asia/Bangkok", ⟨⟨2026, 9, 5⟩, 2, 0, 0⟩, 7⟩

theorem nightVevent_read :
    calendarVevents (.fixed 10800) (veventText nightLines) = .ok [nightVevent] := by
  decide +kernel

theorem nightStart_of : nightStart.Of (collectVtimezones (veventText nightLines)) nightLines where
  property := by decide +kernel
  valid := ⟨⟨by decide, by decide⟩, by decide, by decide, by decide⟩
  year := by decide
  zone := ⟨text "Asia/Bangkok", by decide, by decide +kernel, by decide +kernel⟩
  known := by decide

theorem nightVevent_fits :
    NoOverflow .msvc (.fixed 10800) (fromTimeT 1788480000) {} (veventText nightLines) :=
  noOverflow_of_read _ _ _ _ nightVevent_read (by decide +kernel)

theorem keepsItsDays_iff_night :
    KeepsItsDays 10800 (fromTimeT 1788480000) {} [nightVevent] nightVevent nightStart .msvc ↔
      DaysAgree 10800 (fromTimeT 1788480000) {} [nightVevent] nightVevent nightStart :=
  keepsItsDays_iff nightVevent_read nightVevent_fits (List.mem_singleton_self _) ⟨rfl, rfl, rfl⟩ nightStart_of

theorem night_free (instant : TimePoint) : ¬TakenByText (.fixed 10800) [nightVevent] nightVevent instant := by
  have noExdates : exdateTexts nightLines = [] := by decide +kernel
  have noOverride : lastValue "RECURRENCE-ID" nightLines = none := by decide +kernel
  intro taken
  rcases taken.2 with excluded | ⟨o, inside, _, property, last, _⟩
  · rw [ExcludedByText, nightVevent, noExdates] at excluded
    exact List.not_mem_nil excluded
  · rw [List.mem_singleton.mp inside, nightVevent, noOverride] at last
    cases last

/-- In Moscow the series does not show its start. -/
theorem saturday_start_missed : ¬∀ (p : Platform) (offset : Int) (icsContent : Text) (now : TimePoint)
    (settings : CalendarSettings) (vevents : List Vevent),
    calendarVevents (.fixed offset) icsContent = .ok vevents → NoOverflow p (.fixed offset) now settings icsContent →
    ∀ v ∈ vevents, IsWeekly v.raw →
      v.raw.ev.status ≠ .canceled → ∀ s : ZonedStart, s.Of (collectVtimezones icsContent) v.block.eventLines →
        s.day.toNat ∈ v.raw.rrule.byday → Left offset now settings vevents v s.instant →
          KeepsItsDays offset now settings vevents v s p := by
  intro always
  have kept := always .msvc 10800 _ (fromTimeT 1788480000) {} _ nightVevent_read nightVevent_fits nightVevent
    (List.mem_singleton_self _) ⟨rfl, rfl, rfl⟩ (by decide) nightStart nightStart_of (by decide +kernel)
    ⟨⟨by decide, by decide, by decide⟩, night_free _⟩
  exact absurd kept.1 (by decide +kernel)

end DivoomDev.Ics.ZonedRules
