import DivoomDev.Library.Separated
import DivoomDev.Ics.Timeline

/-! Two calendars in one text, the one behind the other: the pipeline shows what it shows of both,
unless an override of one is for a series of the other. -/

namespace DivoomDev.Ics.Joining
open DivoomDev.Library.Bytes DivoomDev.Library.Fallible DivoomDev.Library.Separated DivoomDev.Library.View
  TextUtils Timezone Models Datetime Recurrence EventBuilder Window OverrideApplier Pipeline Series Properties
  Selection Unfolding Reordering Timeline

/-! ## The text -/

/-- The first calendar leaves nothing open, the second begins with a line of its own, and both
know the same time zones. -/
structure Joinable (first second : Text) : Prop where
  ends : first.getLast? = some lineFeed
  vevents : (unfoldedLines (physicalLines first)).foldl scanLine {} = {}
  vtimezones : ((physicalLines first).foldl VtimezoneScan.line {}).inTz = false
  opens : OpensLine (physicalLines second)
  zones : collectVtimezones first = collectVtimezones second

theorem physicalLines_append {first : Text} (ends : first.getLast? = some lineFeed) (second : Text) :
    physicalLines (first ++ second) = physicalLines first ++ physicalLines second := by
  obtain ⟨front, rfl⟩ := List.getLast?_eq_some_iff.mp ends
  rw [List.append_assoc, List.singleton_append, physicalLines, getlines_append, List.map_append, physicalLines,
    physicalLines]

theorem veventBlocks_joined {first second : Text} (joinable : Joinable first second) :
    veventBlocks (first ++ second) = veventBlocks first ++ veventBlocks second := by
  rw [veventBlocks_eq, veventBlocks_eq, veventBlocks_eq, physicalLines_append joinable.ends,
    unfoldedLines_append _ joinable.opens, scanBlocks_append, joinable.vevents]

/-! ## Time zones -/

/-- Two scans that differ in the zones they found before, of which one found all of `known`. -/
structure Beside (known : TimezoneResolver) (scan alone : VtimezoneScan) : Prop where
  inTz : scan.inTz = alone.inTz
  inStd : alone.inTz = true → scan.inStd = alone.inStd
  curTzid : alone.inTz = true → scan.curTzid = alone.curTzid
  stdOffset : alone.inTz = true → scan.stdOffset = alone.stdOffset
  offsets : ∀ tzid : Text, scan.vtzOffsets[tzid]? = (alone.vtzOffsets[tzid]?).or known[tzid]?

theorem beside_insert {known found alone : TimezoneResolver}
    (offsets : ∀ tzid : Text, found[tzid]? = (alone[tzid]?).or known[tzid]?) (curTzid : Text) (offset : Int)
    (tzid : Text) :
    (found.insert curTzid offset)[tzid]? = ((alone.insert curTzid offset)[tzid]?).or known[tzid]? := by
  rw [Std.ExtTreeMap.getElem?_insert, Std.ExtTreeMap.getElem?_insert]
  split_ifs
  · rfl
  · exact offsets tzid

theorem line_beside {known : TimezoneResolver} {scan alone : VtimezoneScan} (beside : Beside known scan alone)
    (physical : Text) : Beside known (scan.line physical) (alone.line physical) := by
  obtain ⟨inTz, inStd, curTzid, stdOffset, offsets⟩ := beside
  unfold VtimezoneScan.line
  by_cases begins : startsWith "BEGIN:VTIMEZONE" (trim (dropCarriageReturn physical)) = true
  · simp only [begins, if_true]
    exact ⟨rfl, fun _ => rfl, fun _ => rfl, fun _ => rfl, offsets⟩
  cases inside : alone.inTz with
  | false =>
    rw [inside] at inTz
    simp only [begins, inTz, Bool.not_false, if_true]
    exact ⟨inTz.trans inside.symm, inStd, curTzid, stdOffset, offsets⟩
  | true =>
    -- inside of a VTIMEZONE the two scans differ in nothing but the zones before
    have same : scan = { alone with vtzOffsets := scan.vtzOffsets } := by
      rw [← inTz, ← inStd inside, ← curTzid inside, ← stdOffset inside]
    rw [same]
    simp only [begins, inside, Bool.not_true, Bool.false_eq_true, if_false]
    split_ifs
    · exact ⟨rfl, fun _ => rfl, fun _ => rfl, fun _ => rfl, beside_insert offsets _ _⟩
    all_goals exact ⟨by simp [inside], fun _ => rfl, fun _ => rfl, fun _ => rfl, offsets⟩

theorem foldl_line_beside {known : TimezoneResolver} {scan alone : VtimezoneScan}
    (beside : Beside known scan alone) (physical : List Text) :
    Beside known (physical.foldl VtimezoneScan.line scan) (physical.foldl VtimezoneScan.line alone) := by
  induction physical generalizing scan alone with
  | nil => exact beside
  | cons line rest ih => exact ih (line_beside beside line)

theorem collectVtimezones_joined {first second : Text} (joinable : Joinable first second) :
    collectVtimezones (first ++ second) = collectVtimezones first := by
  have start : Beside (collectVtimezones first) ((physicalLines first).foldl VtimezoneScan.line {}) {} :=
    ⟨joinable.vtimezones, nofun, nofun, nofun, fun tzid => by simp [collectVtimezones_eq]⟩
  apply Std.ExtTreeMap.ext_getElem?
  intro tzid
  rw [collectVtimezones_eq, physicalLines_append joinable.ends, List.foldl_append,
    (foldl_line_beside start _).offsets, ← collectVtimezones_eq, ← joinable.zones]
  cases (collectVtimezones first)[tzid]? <;> rfl

/-! ## The events -/

theorem calendarVevents_joined {zone : SystemZone} {first second : Text} (joinable : Joinable first second)
    {vevents vevents' : List Vevent} (read : calendarVevents zone first = .ok vevents)
    (read' : calendarVevents zone second = .ok vevents') :
    calendarVevents zone (first ++ second) = .ok (vevents ++ vevents') := by
  obtain ⟨built, mapped, same⟩ := bind_eq_ok.mp read
  obtain ⟨built', mapped', same'⟩ := bind_eq_ok.mp read'
  cases same
  cases same'
  rw [← joinable.zones] at mapped'
  rw [calendarVevents, veventBlocks_joined joinable, collectVtimezones_joined joinable, List.mapM_append, mapped,
    mapped']
  simp [bind, Except.bind, pure, Except.pure]

/-- No override of the one list names the UID of an event of the other. -/
def Apart (raws raws' : List RawEvent) : Prop :=
  ∀ r ∈ raws, ∀ o ∈ raws', o.hasRecurrenceId = true → o.ev.uid ≠ r.ev.uid

theorem isOverridden_beside {before raws after : List RawEvent} {r : RawEvent}
    (apart : ∀ o ∈ before ++ after, o.hasRecurrenceId = true → o.ev.uid ≠ r.ev.uid) (instanceKey : Text) :
    isOverridden (buildIndex (before ++ raws ++ after)) r.ev.uid instanceKey =
      isOverridden (buildIndex raws) r.ev.uid instanceKey := by
  rw [Bool.eq_iff_iff, isOverridden_iff, isOverridden_iff]
  apply Iff.intro
  · intro given
    obtain ⟨o, member, has, same, key⟩ := given
    refine ⟨o, ?_, has, same, key⟩
    by_contra outside
    have elsewhere : o ∈ before ++ after := by
      simp only [List.mem_append] at member ⊢
      tauto
    exact apart o elsewhere has same
  · intro given
    obtain ⟨o, member, rest⟩ := given
    exact ⟨o, by simp [member], rest⟩

theorem everShown_beside {zone : SystemZone} {before raws after : List RawEvent} {r : RawEvent}
    (apart : ∀ o ∈ before ++ after, o.hasRecurrenceId = true → o.ev.uid ≠ r.ev.uid) :
    everShown zone (buildIndex (before ++ raws ++ after)) r = everShown zone (buildIndex raws) r := by
  have same : (instants zone (applyRepeatMetadata r.ev r.rrule) r.rrule).filter
        (Kept zone (buildIndex (before ++ raws ++ after)) r) =
      (instants zone (applyRepeatMetadata r.ev r.rrule) r.rrule).filter (Kept zone (buildIndex raws) r) :=
    List.filter_congr (fun instant _ => decide_eq_decide.mpr (by simp only [Kept, isOverridden_beside apart]))
  rw [everShown, same, everShown]

theorem timelineOf_append {zone : SystemZone} {raws raws' : List RawEvent} (apart : Apart raws raws')
    (apart' : Apart raws' raws) :
    timelineOf zone (raws ++ raws') = timelineOf zone raws ++ timelineOf zone raws' := by
  rw [timelineOf, List.flatMap_append]
  congr 1
  · refine List.flatMap_congr (fun r member => ?_)
    have before : ∀ o ∈ [] ++ raws', o.hasRecurrenceId = true → o.ev.uid ≠ r.ev.uid :=
      fun o elsewhere => apart r member o elsewhere
    exact everShown_beside before
  · refine List.flatMap_congr (fun r member => ?_)
    have behind : ∀ o ∈ raws ++ [], o.hasRecurrenceId = true → o.ev.uid ≠ r.ev.uid :=
      fun o elsewhere => apart' r member o (by simpa using elsewhere)
    have shown : everShown zone (buildIndex (raws ++ raws' ++ [])) r = everShown zone (buildIndex raws') r :=
      everShown_beside behind
    rwa [List.append_nil] at shown

/-- Two calendars in one text show at every time what they show apart. -/
theorem parseCalendarAt_joined {zone : SystemZone} (sound : zone.Sound) {first second : Text}
    (joinable : Joinable first second) {vevents vevents' : List Vevent}
    (read : calendarVevents zone first = .ok vevents) (read' : calendarVevents zone second = .ok vevents')
    (apart : Apart (vevents.map Vevent.raw) (vevents'.map Vevent.raw))
    (apart' : Apart (vevents'.map Vevent.raw) (vevents.map Vevent.raw)) (now : TimePoint)
    (settings : CalendarSettings) :
    ∃ events events' both, parseCalendarAt zone first now settings = .ok events ∧
      parseCalendarAt zone second now settings = .ok events' ∧
      parseCalendarAt zone (first ++ second) now settings = .ok both ∧ both.Perm (events ++ events') := by
  have readBoth := calendarVevents_joined joinable read read'
  refine ⟨_, _, _, parseCalendarAt_eq read now settings, parseCalendarAt_eq read' now settings,
    parseCalendarAt_eq readBoth now settings, ?_⟩
  have view := parseCalendarAt_view sound readBoth (parseCalendarAt_eq readBoth now settings)
  have parts : timelineOf zone ((vevents ++ vevents').map Vevent.raw) =
      timelineOf zone (vevents.map Vevent.raw) ++ timelineOf zone (vevents'.map Vevent.raw) := by
    rw [List.map_append, timelineOf_append apart apart']
  rw [parts] at view
  exact (parseCalendarAt_view sound read (parseCalendarAt_eq read now settings)).append
    (parseCalendarAt_view sound read' (parseCalendarAt_eq read' now settings)) view

def singleCalendar : Text := text "BEGIN:VEVENT\nUID:b\nDTSTART:20261020T120000Z\nEND:VEVENT\n"

def monthlyVevent : Vevent where
  block := ⟨[text "UID:a", text "DTSTART:20260910T100000Z", text "RRULE:FREQ=MONTHLY"], []⟩
  raw := { ev := { uid := text "a", start := fromTimeT 1789034400 }, rrule := { freq := .monthly }, hasRrule := true }

def singleVevent : Vevent where
  block := ⟨[text "UID:b", text "DTSTART:20261020T120000Z"], []⟩
  raw := { ev := { uid := text "b", start := fromTimeT 1792497600 } }

theorem parseCalendarAt_joined_single :
    ∃ both, parseCalendarAt (.fixed 0) (monthlyCalendar ++ singleCalendar) (fromTimeT 1792454400) {} = .ok both ∧
      both.Perm (monthlyInstances ++ [singleVevent.raw.ev]) := by
  have opens : OpensLine (physicalLines singleCalendar) :=
    ⟨text "BEGIN:VEVENT", [text "UID:b", text "DTSTART:20261020T120000Z", text "END:VEVENT"], by decide +kernel,
      by decide, by decide⟩
  have joinable : Joinable monthlyCalendar singleCalendar :=
    ⟨by decide +kernel, rfl, by decide +kernel, opens, by decide +kernel⟩
  have read : calendarVevents (.fixed 0) monthlyCalendar = .ok [monthlyVevent] := by decide +kernel
  have read' : calendarVevents (.fixed 0) singleCalendar = .ok [singleVevent] := by decide +kernel
  have noOverride {raws : List RawEvent} {o : RawEvent} (single : o.hasRecurrenceId = false) : Apart raws [o] := by
    intro r _ o' member has
    rw [List.mem_singleton.mp member, single] at has
    cases has
  obtain ⟨events, events', both, months, single, joined, perm⟩ := parseCalendarAt_joined (fixed_sound 0) joinable
    read read' (noOverride rfl) (noOverride rfl) (fromTimeT 1792454400) {}
  rw [show parseCalendarAt (.fixed 0) monthlyCalendar (fromTimeT 1792454400) {} = .ok monthlyInstances by
    decide +kernel] at months
  rw [show parseCalendarAt (.fixed 0) singleCalendar (fromTimeT 1792454400) {} = .ok [singleVevent.raw.ev] by
    decide +kernel] at single
  cases months
  cases single
  exact ⟨both, joined, perm⟩

end DivoomDev.Ics.Joining
