import DivoomDev.Ics.Exclusion
import DivoomDev.Ics.Instants

/-! Where a daily or weekly series ends. The one bound of a rule that is read is an UNTIL in the
form of a date-time; a COUNT is not looked at, and the loops of the expanders end by themselves. -/

namespace DivoomDev.Ics.Finished
open DivoomDev.Library DivoomDev.Library.Bytes DivoomDev.Library.Fallible Models Datetime Recurrence Window
  Pipeline Series Properties Exclusion Instants

/-! ## Reading UNTIL -/

/-- A pattern that starts with a literal matches at the first place where the literal stands,
if it matches there. -/
theorem search_behind {α : Type} {literal : String} {capture : Text → Option α} {s : Text} {pos : Nat}
    {found : α} (first : find (text literal) s = some pos) (hit : behind literal capture (s.drop pos) = some found) :
    search (behind literal capture) s = some found := by
  induction s generalizing pos with
  | nil => simpa [search] using hit
  | cons c rest ih =>
    rw [find] at first
    rw [search]
    split_ifs at first with here
    · cases first
      rw [List.drop_zero] at hit
      rw [hit, Option.some_or]
    · obtain ⟨next, later, rfl⟩ := Option.map_eq_some_iff.mp first
      have silent : behind literal capture (c :: rest) = none := if_neg here
      rw [silent, Option.none_or]
      exact ih later hit

theorem some1_append {class' : UInt8 → Bool} {run : Text} {c : UInt8} (nonempty : run ≠ [])
    (inside : ∀ b ∈ run, class' b = true) (ends : class' c = false) (rest : Text) :
    some1 class' (run ++ c :: rest) = some run := by
  have taken : (run ++ c :: rest).takeWhile class' = run := by
    rw [List.takeWhile_append_of_pos inside, List.takeWhile_cons_of_neg (by simp [ends]), List.append_nil]
  rw [some1, taken, if_neg nonempty]

theorem twoDigits_isDigit (n : Int) : ∀ b ∈ twoDigits n, isDigit b = true := by
  simp [twoDigits, digit_isDigit]

theorem untilRe_utc (time : Gregorian.DateTime) (rest : Text) :
    untilRe (text "UNTIL=" ++ (dateTimeText time ++ byte 'Z' :: rest)) = some (dateTimeText time) := by
  have literal : (text "UNTIL=").isPrefixOf (text "UNTIL=" ++ (dateTimeText time ++ byte 'Z' :: rest)) = true := by
    simp [List.isPrefixOf_iff_prefix]
  let date := twoDigits (time.year / 100) ++ twoDigits time.year ++ twoDigits time.month ++ twoDigits time.day
  let clock := twoDigits time.hour ++ twoDigits time.minute ++ twoDigits time.second
  have parts : dateTimeText time = date ++ byte 'T' :: clock := by
    simp [dateTimeText, date, clock]
  have dateDigits : ∀ b ∈ date, isDigit b = true := by
    simp only [date, List.forall_mem_append]
    exact ⟨⟨⟨twoDigits_isDigit _, twoDigits_isDigit _⟩, twoDigits_isDigit _⟩, twoDigits_isDigit _⟩
  have clockDigits : ∀ b ∈ clock, isDigit b = true := by
    simp only [clock, List.forall_mem_append]
    exact ⟨⟨twoDigits_isDigit _, twoDigits_isDigit _⟩, twoDigits_isDigit _⟩
  have readDate := some1_append (show date ≠ [] by simp [date, twoDigits]) dateDigits
    (show isDigit (byte 'T') = false by decide) (clock ++ byte 'Z' :: rest)
  have readClock := some1_append (show clock ≠ [] by simp [clock, twoDigits]) clockDigits
    (show isDigit (byte 'Z') = false by decide) rest
  rw [untilRe, behind, if_pos literal, List.drop_left, parts, List.append_assoc, List.cons_append]
  simp [readDate, readClock]

/-- The first UNTIL of a rule is a date-time in UTC that the C library converts, and none of the
two that are taken for no bound: the epoch and the second before it. -/
structure UtcUntil (zone : SystemZone) (rrule : Text) (time : Gregorian.DateTime) : Prop where
  written : ∃ pos rest, find (text "UNTIL=") rrule = some pos ∧
    rrule.drop pos = text "UNTIL=" ++ (dateTimeText time ++ byte 'Z' :: rest)
  valid : time.Valid
  year : 0 ≤ time.year ∧ time.year ≤ 9999
  converts : zone.mkgmtime (wallTm time) = time.seconds
  bounds : time.seconds ≠ 0 ∧ time.seconds ≠ -1

section Reading
variable {zone : SystemZone} {rrule : Text} {time : Gregorian.DateTime}

theorem readUntil_utc (given : UtcUntil zone rrule time) :
    readUntil zone rrule = .ok (fromTimeT time.seconds) := by
  obtain ⟨pos, rest, first, behindPos⟩ := given.written
  have hit : untilRe (rrule.drop pos) = some (dateTimeText time) := by rw [behindPos, untilRe_utc]
  have found : search untilRe rrule = some (dateTimeText time) := search_behind first hit
  have wall := readDateTime_text given.valid given.year []
  rw [List.append_nil] at wall
  simp only [readUntil, found, wall, bind, Except.bind, given.converts, pointOf, given.bounds.2, if_false]
  rfl

theorem parseRruleData_utc {rule : RruleData} (given : UtcUntil zone rrule time)
    (parsed : parseRruleData zone rrule = .ok rule) : rule.until_ = fromTimeT time.seconds ∧ rule.until_ ≠ 0 := by
  have counts : fromTimeT time.seconds ≠ 0 :=
    Int.mul_ne_zero given.bounds.1 (show ticksPerSecond ≠ 0 by decide)
  unfold parseRruleData at parsed
  split_ifs at parsed with empty
  · obtain ⟨_, _, first, behindPos⟩ := given.written
    rw [empty] at behindPos
    simp at behindPos
  · obtain ⟨_, _, rest⟩ := bind_eq_ok.mp parsed
    obtain ⟨until_, read, same⟩ := bind_eq_ok.mp rest
    rw [readUntil_utc given] at read
    cases read
    cases same
    exact ⟨rfl, counts⟩

end Reading

/-! ## The end of a series -/

theorem due_of_masterDue {zone : SystemZone} {win : TimeWindow} {r : RawEvent} (series : IsSeries r)
    (sound : zone.Sound) (rules : RuleSound r.rrule) {instant : TimePoint} (due : MasterDue zone win r instant) :
    instant ∈ instants zone r.ev r.rrule ∧ win.start ≤ instant ∧ ¬pastUntil r.rrule instant := by
  have reached := due.2
  rw [if_pos series.repeats] at reached
  obtain ⟨recurs, lower, _, past⟩ := (due_iff sound rules.forward).mp reached
  exact ⟨(mem_instants _ _ _ _).mpr recurs, lower.resolve_left (bounded_of_repeats series.freq), past⟩

theorem instants_length {zone : SystemZone} {base : ScheduledEvent} {rule : RruleData} :
    (rule.freq = .daily → (instants zone base rule).length = 365) ∧
      (rule.freq = .weekly →
        (instants zone base rule).length = 520 * (weeklyDays zone base rule).length) := by
  apply And.intro
  · intro daily
    simp [instants, daily]
  · intro weekly
    simp only [instants, weekly, List.length_flatMap, List.length_map, List.map_const', List.length_range,
      List.sum_replicate, smul_eq_mul]

/-- Whatever its COUNT, a series has no more instances than its expander makes passes. Behind an
UNTIL in UTC none is shown, and in a window that begins there none at all. -/
theorem series_ends {zone : SystemZone} (sound : zone.Sound) {icsContent : Text} {vevents : List Vevent}
    (read : calendarVevents zone icsContent = .ok vevents) {v : Vevent} (member : v ∈ vevents)
    (series : IsSeries v.raw) :
    (∃ all : List TimePoint, (v.raw.rrule.freq = .daily → all.length = 365) ∧
      (v.raw.rrule.freq = .weekly → all.length = 520 * (weeklyDays zone v.raw.ev v.raw.rrule).length) ∧
      ∀ now settings, ∀ traced ∈ tracedEvents zone now settings vevents,
        traced.source = v → traced.event.start ∈ all) ∧
    ∀ params rrule time, lastValue "RRULE" v.block.eventLines = some (params, rrule) →
      UtcUntil zone rrule time → ∀ now settings,
        (∀ traced ∈ tracedEvents zone now settings vevents,
          traced.source = v → traced.event.start ≤ fromTimeT time.seconds) ∧
        (fromTimeT time.seconds < (computeWindow zone now settings).start →
          ∀ traced ∈ tracedEvents zone now settings vevents, traced.source ≠ v) := by
  have rules := (calendarVevents_keeps read member).rule
  have due (now : TimePoint) (settings : CalendarSettings) (traced : TracedEvent)
      (inside : traced ∈ tracedEvents zone now settings vevents) (source : traced.source = v) :
      traced.event.start ∈ instants zone v.raw.ev v.raw.rrule ∧
        (computeWindow zone now settings).start ≤ traced.event.start ∧
        ¬pastUntil v.raw.rrule traced.event.start :=
    due_of_masterDue series sound rules
      ((shown_iff read sound now settings member series.master _).mp ⟨traced, inside, source, rfl⟩).1
  apply And.intro
  · refine ⟨instants zone v.raw.ev v.raw.rrule, instants_length.1, instants_length.2, ?_⟩
    exact fun now settings traced inside source => (due now settings traced inside source).1
  · intro params rrule time last given now settings
    obtain ⟨bound, counts⟩ := parseRruleData_utc given
      ((calendarVevents_keepsRule read member).rule _ last)
    have early (traced : TracedEvent) (inside : traced ∈ tracedEvents zone now settings vevents)
        (source : traced.source = v) : traced.event.start ≤ fromTimeT time.seconds := by
      have past := (due now settings traced inside source).2.2
      rw [← bound]
      exact not_lt.mp (fun later => past ⟨counts, later⟩)
    refine ⟨early, ?_⟩
    intro finished traced inside source
    have late : fromTimeT time.seconds < traced.event.start := calc
      fromTimeT time.seconds < (computeWindow zone now settings).start := finished
      _ ≤ traced.event.start := (due now settings traced inside source).2.1
    exact absurd (early traced inside source) (not_le.mpr late)

def ruleLines (start rule : String) : List Text := [text "UID:a", text start, text rule]

def secondDay : Gregorian.DateTime := ⟨⟨2026, 9, 5⟩, 12, 0, 0⟩

def untilVevent : Vevent where
  block := ⟨ruleLines "DTSTART:20260904T100000Z" "RRULE:FREQ=DAILY;UNTIL=20260905T120000Z", []⟩
  raw :=
    { ev := { uid := text "a", start := fromTimeT 1788516000 }
      hasRrule := true
      rrule := { until_ := fromTimeT 1788609600 } }

theorem series_ends_secondDay :
    (∃ all : List TimePoint, all.length = 365 ∧ ∀ now settings,
      ∀ traced ∈ tracedEvents (.fixed 0) now settings [untilVevent],
        traced.source = untilVevent → traced.event.start ∈ all) ∧
    ∀ now settings, ∀ traced ∈ tracedEvents (.fixed 0) now settings [untilVevent],
      traced.source = untilVevent → traced.event.start ≤ fromTimeT secondDay.seconds := by
  have read : calendarVevents (.fixed 0) (veventText untilVevent.block.eventLines) = .ok [untilVevent] := by
    decide +kernel
  have bounded : UtcUntil (.fixed 0) (text "FREQ=DAILY;UNTIL=20260905T120000Z") secondDay :=
    ⟨⟨11, [], by decide +kernel, by decide +kernel⟩, ⟨⟨by decide, by decide⟩, by decide, by decide, by decide⟩,
      by decide, by decide, by decide⟩
  obtain ⟨⟨all, count, _, shown⟩, ends⟩ := series_ends (fixed_sound 0) read (List.mem_singleton_self _)
    ⟨rfl, rfl, .inl rfl⟩
  refine ⟨⟨all, count rfl, shown⟩, ?_⟩
  exact fun now settings => (ends [] _ _ (by decide +kernel) bounded now settings).1

/-- The starts that are returned for a series in the two days from 2026-09-04 UTC. -/
def startsShown (offset : Int) (start rule : String) : List TimePoint :=
  ((parseCalendarAt (.fixed offset) (veventText (ruleLines start rule)) (fromTimeT 1788480000)
    {}).toOption.getD []).map (fun event => event.start)

/-- A series goes on behind the day of an UNTIL that is a date, behind noon of an UNTIL in the
local time of Moscow, and behind its first instance where the COUNT is one. -/
theorem finished_series_goOn :
    (∃ start ∈ startsShown 0 "DTSTART;VALUE=DATE:20260904" "RRULE:FREQ=DAILY;UNTIL=20260904",
      fromTimeT (86400 * Gregorian.daysFromCivil 2026 9 5) ≤ start) ∧
    (∃ start ∈ startsShown 10800 "DTSTART:20260904T130000" "RRULE:FREQ=DAILY;UNTIL=20260905T120000",
      fromTimeT (secondDay.seconds - 10800) < start) ∧
    1 < (startsShown 0 "DTSTART:20260904T100000Z" "RRULE:FREQ=DAILY;COUNT=1").length := by
  decide +kernel

end DivoomDev.Ics.Finished
