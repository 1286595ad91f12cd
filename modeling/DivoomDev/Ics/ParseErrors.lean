import DivoomDev.Library.Fallible
import DivoomDev.Ics.Pipeline

/-! Where the exceptions of `std::stoi` and `std::string::substr` leave the pipeline: the
texts that a VEVENT block makes the parser read as numbers outside any `try`. A text cut
past the end of its value stands here as an empty one, which is no number either. -/

namespace DivoomDev.Ics.ParseErrors
open DivoomDev.Library.Bytes DivoomDev.Library.Fallible TextUtils Timezone Models Datetime Recurrence
  EventBuilder Pipeline

/-! ## The texts that are read as numbers -/

def dateFields (val : Text) : List Text := [piece val 0 4, piece val 4 2, piece val 6 2]

def dateTimeFields (val : Text) : List Text :=
  dateFields val ++ [piece val 9 2, piece val 11 2, piece val 13 2]

def wallFields (info : DatetimeInfo) : List Text :=
  if info.isDate ∧ info.value.length = 8 then dateFields info.value
  else if 15 ≤ info.value.length then dateTimeFields info.value
  else []

def rruleFields (rrule : Text) : List Text :=
  (search intervalRe rrule).toList ++ (search untilRe rrule).toList.flatMap dateTimeFields

def propertyFields (key params value : Text) : List Text :=
  if key = text "DTSTART" ∨ key = text "DTEND" then wallFields (makeDatetimeInfo params value)
  else if key = text "RRULE" then rruleFields value
  else []

def lineFields (line : Text) : List Text :=
  let (key, params, value) := splitIcsLine (trim line)
  if key = [] then [] else propertyFields key params value

def unitFields (unit : Char) (s : Text) : List Text := ((s.idxOf? (byte unit)).map s.take).toList

def afterUnit (unit : Char) (s : Text) : Text :=
  match s.idxOf? (byte unit) with
  | none => s
  | some pos => s.drop (pos + 1)

def durationFields (duration : Text) : List Text :=
  let rest := afterUnit 'D' duration
  unitFields 'D' duration ++
    match rest.idxOf? (byte 'T') with
    | some tPos =>
        let timePart := rest.drop (tPos + 1)
        unitFields 'H' timePart ++ unitFields 'M' (afterUnit 'H' timePart)
    | none => if rest.head?.any isDigit then [rest] else []

def triggerFields (alarmLines : List Text) : List Text :=
  let trigger := unsignedTrigger (alarmText alarmLines).triggerStr
  if trigger.head? = some (byte 'P') then durationFields trigger.tail else []

/-- All texts of a VEVENT block that are read as numbers outside any `try`. -/
def blockFields (block : VeventBlock) : List Text :=
  block.eventLines.flatMap lineFields ++ triggerFields block.alarmLines

/-! ## Reading returns exactly on numbers -/

theorem returns_stoi (s : Text) : Returns (stoi s) ↔ IsNumber s := stoi_ok_iff s

theorem not_isNumber_nil : ¬IsNumber [] := by decide

theorem returns_readNumber (s : Text) (start count : Nat) :
    Returns (readNumber s start count) ↔ IsNumber (piece s start count) := by
  by_cases inside : start ≤ s.length
  · simp only [readNumber, substr_of_le inside]
    exact returns_stoi _
  · have empty : piece s start count = [] := by
      rw [piece, List.drop_eq_nil_of_le (by omega), List.take_nil]
    simp only [readNumber, substr, if_neg inside, empty, not_isNumber_nil, iff_false]
    exact returns_error _

theorem returns_readDate (val : Text) :
    Returns (readDate val) ↔ ∀ field ∈ dateFields val, IsNumber field := by
  unfold readDate
  rw [returns_bind (fun _ _ => returns_bind (fun _ _ => returns_bind_pure _ _))]
  simp [dateFields, returns_readNumber]

theorem returns_readDateTime (val : Text) :
    Returns (readDateTime val) ↔ ∀ field ∈ dateTimeFields val, IsNumber field := by
  unfold readDateTime
  rw [returns_bind (fun _ _ => returns_bind (fun _ _ => returns_bind (fun _ _ => returns_bind_pure _ _)))]
  simp [dateTimeFields, returns_readNumber, returns_readDate, or_imp, forall_and]

theorem returns_parseIcsDatetime (zone : SystemZone) (tz : TimezoneResolver) (info : DatetimeInfo) :
    Returns (parseIcsDatetime zone tz info) ↔ ∀ field ∈ wallFields info, IsNumber field := by
  unfold parseIcsDatetime
  rw [returns_bind_pure]
  unfold readWall wallFields
  split_ifs
  · exact returns_readDate _
  · exact returns_readDateTime _
  · simp

theorem returns_readInterval (rrule : Text) :
    Returns (readInterval rrule) ↔ ∀ field ∈ (search intervalRe rrule).toList, IsNumber field := by
  unfold readInterval
  cases search intervalRe rrule <;> simp [returns_stoi]

theorem returns_readUntil (zone : SystemZone) (rrule : Text) :
    Returns (readUntil zone rrule) ↔
      ∀ field ∈ (search untilRe rrule).toList.flatMap dateTimeFields, IsNumber field := by
  unfold readUntil
  cases search untilRe rrule with
  | none => simp
  | some untilStr => simpa using (returns_bind_pure _ _).trans (returns_readDateTime untilStr)

theorem returns_parseRruleData (zone : SystemZone) (rrule : Text) :
    Returns (parseRruleData zone rrule) ↔ ∀ field ∈ rruleFields rrule, IsNumber field := by
  unfold parseRruleData rruleFields
  split_ifs with empty
  · subst empty
    simp [show search intervalRe [] = none from rfl, show search untilRe [] = none from rfl]
  · rw [List.forall_mem_append, ← returns_readInterval, ← returns_readUntil zone]
    exact returns_bind (fun _ _ => returns_bind_pure _ _)

theorem returns_applyProperty (zone : SystemZone) (tz : TimezoneResolver) (re : RawEvent)
    (key params value : Text) :
    Returns (applyProperty zone tz re key params value) ↔
      ∀ field ∈ propertyFields key params value, IsNumber field := by
  by_cases dtstart : key = text "DTSTART"
  · subst dtstart
    exact (returns_bind_pure _ _).trans (returns_parseIcsDatetime _ _ _)
  by_cases dtend : key = text "DTEND"
  · subst dtend
    exact (returns_bind_pure _ _).trans (returns_parseIcsDatetime _ _ _)
  by_cases rrule : key = text "RRULE"
  · subst rrule
    exact (returns_bind_pure _ _).trans (returns_parseRruleData _ _)
  -- no other property can fail
  simp only [applyProperty, propertyFields, dtstart, dtend, rrule, or_self, if_false,
    List.not_mem_nil, false_implies, implies_true, iff_true]
  repeat' first
    | exact returns_pure _
    | apply returns_ite

theorem returns_applyLine (zone : SystemZone) (tz : TimezoneResolver) (re : RawEvent) (line : Text) :
    Returns (applyLine zone tz re line) ↔ ∀ field ∈ lineFields line, IsNumber field := by
  simp only [applyLine, lineFields]
  split_ifs
  · simp
  · exact returns_applyProperty _ _ _ _ _ _

/-! ## Durations -/

/-- What is read in front of a unit decides whether reading goes on, and only what stands
behind the unit is read on. -/
theorem returns_beforeUnit_bind {β : Type} (unit : Char) (s : Text)
    {next : Int × Text → Except StdError β} {condition : Prop}
    (same : ∀ count, Returns (next (count, afterUnit unit s)) ↔ condition) :
    Returns (beforeUnit unit s >>= next) ↔
      (∀ field ∈ unitFields unit s, IsNumber field) ∧ condition := by
  unfold beforeUnit unitFields afterUnit at *
  cases found : s.idxOf? (byte unit) with
  | none =>
    simp only [found] at same
    simp [same]
  | some pos =>
    simp only [found] at same
    rw [bind_assoc, returns_bind (fun count _ => by simpa using same count), returns_stoi]
    simp

theorem returns_beforeUnit_pure {β : Type} (unit : Char) (s : Text) (f : Int × Text → β) :
    Returns (beforeUnit unit s >>= fun r => (pure (f r) : Except StdError β)) ↔
      ∀ field ∈ unitFields unit s, IsNumber field := by
  have both : Returns (beforeUnit unit s >>= fun r => (pure (f r) : Except StdError β)) ↔
      (∀ field ∈ unitFields unit s, IsNumber field) ∧ True :=
    returns_beforeUnit_bind unit s (fun _ => (iff_true _).mpr (returns_pure _))
  rw [both, and_true]

theorem returns_timeMinutes (timePart : Text) :
    Returns (timeMinutes timePart) ↔
      ∀ field ∈ unitFields 'H' timePart ++ unitFields 'M' (afterUnit 'H' timePart), IsNumber field := by
  unfold timeMinutes
  rw [List.forall_mem_append]
  apply returns_beforeUnit_bind 'H' timePart
  intro hours
  exact returns_beforeUnit_pure 'M' _ _

theorem returns_durationMinutes (duration : Text) :
    Returns (durationMinutes duration) ↔ ∀ field ∈ durationFields duration, IsNumber field := by
  unfold durationMinutes durationFields
  rw [List.forall_mem_append]
  apply returns_beforeUnit_bind 'D' duration
  intro days
  dsimp only
  cases (afterUnit 'D' duration).idxOf? (byte 'T') with
  | some tPos => exact (returns_bind_pure _ _).trans (returns_timeMinutes _)
  | none =>
    split_ifs
    · rw [List.forall_mem_singleton]
      exact (returns_bind_pure _ _).trans (returns_stoi _)
    · simp

theorem returns_parseAlarm (alarmLines : List Text) :
    Returns (parseAlarm alarmLines) ↔ ∀ field ∈ triggerFields alarmLines, IsNumber field := by
  unfold parseAlarm triggerFields
  by_cases empty : (alarmText alarmLines).triggerStr = []
  · simp [empty, unsignedTrigger]
  · simp only [empty, if_false]
    split_ifs
    · exact (returns_bind_pure _ _).trans (returns_durationMinutes _)
    · simp

/-! ## The whole calendar -/

theorem returns_buildVevent (zone : SystemZone) (tz : TimezoneResolver) (block : VeventBlock) :
    Returns (buildVevent zone tz block) ↔ ∀ field ∈ blockFields block, IsNumber field := by
  unfold buildVevent
  rw [returns_bind_pure, build, returns_bind (fun _ _ => returns_bind_pure _ _),
    returns_foldlM (returns_applyLine zone tz), returns_parseAlarm, blockFields,
    List.forall_mem_append, List.forall_mem_flatMap]

theorem returns_calendarVevents (zone : SystemZone) (icsContent : Text) :
    Returns (calendarVevents zone icsContent) ↔
      ∀ block ∈ veventBlocks icsContent, ∀ field ∈ blockFields block, IsNumber field := by
  rw [calendarVevents, returns_bind_pure, returns_mapM (returns_buildVevent zone _)]

/-- Parsing returns exactly when every text that some VEVENT block makes the parser read as a
number outside a `try` denotes an `int`: a block without a UID counts as well. -/
theorem parseCalendarAt_returns_iff (zone : SystemZone) (icsContent : Text) (now : TimePoint)
    (settings : CalendarSettings) :
    Returns (parseCalendarAt zone icsContent now settings) ↔
      ∀ block ∈ veventBlocks icsContent, ∀ field ∈ blockFields block, IsNumber field := by
  rw [parseCalendarAt_eq_traced, returns_map, returns_calendarVevents]

def soundCalendar : Text := text "BEGIN:VEVENT\nUID:a\nDTSTART:20260904T100000Z\nEND:VEVENT\n"

def malformedCalendar : Text :=
  soundCalendar ++ text "BEGIN:VEVENT\nUID:b\nDTSTART:tomorrow at noon\nEND:VEVENT\n"

/-- One malformed VEVENT takes the events of all others away: alone, the sound event is
shown. -/
theorem parseCalendarAt_malformed :
    (¬∀ zone icsContent now settings, Returns (parseCalendarAt zone icsContent now settings)) ∧
      parseCalendarAt (.fixed 0) malformedCalendar (fromTimeT 1788480000) {} =
        .error .invalidArgument ∧
      (parseCalendarAt (.fixed 0) soundCalendar (fromTimeT 1788480000) {}).map List.length = .ok 1 := by
  have escapes : parseCalendarAt (.fixed 0) malformedCalendar (fromTimeT 1788480000) {} =
      .error .invalidArgument := by decide +kernel
  refine ⟨fun always => ?_, escapes, by decide +kernel⟩
  have returned := always (.fixed 0) malformedCalendar (fromTimeT 1788480000) {}
  rw [escapes] at returned
  exact returns_error _ returned

end DivoomDev.Ics.ParseErrors
