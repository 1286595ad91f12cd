import DivoomDev.Library.Separated
import DivoomDev.Ics.Pipeline

/-! The text for the display: a line for each event with its times and its summary. -/

namespace DivoomDev.Service.EventFormatter
open DivoomDev.Library.Bytes DivoomDev.Library.Separated DivoomDev.Ics DivoomDev.Ics.TextUtils DivoomDev.Ics.Models
  DivoomDev.Ics.Datetime DivoomDev.Ics.Pipeline

/-- `format_local_time` with "%H:%M", whose text always fits the buffer. -/
def formatLocalTime (zone : SystemZone) (tp : TimePoint) : Text :=
  let tm := zone.localtime (toTimeT tp)
  twoDigits tm.tmHour ++ [byte ':'] ++ twoDigits tm.tmMin

/-- The text of an event in front of the line feed. -/
def eventText (zone : SystemZone) (event : Event) : Text :=
  formatLocalTime zone event.start ++ [byte '-'] ++ formatLocalTime zone event.end_ ++ text ": " ++ event.summary

/-- `format`, where the default message stands for no events. -/
def formatEvents (zone : SystemZone) (defaultMessage : Text) (events : List Event) : Text :=
  match events with
  | [] => defaultMessage
  | events => events.foldl (fun s event => s ++ (eventText zone event ++ [lineFeed])) []

/-- `format` for the events of the calendar. -/
def format (zone : SystemZone) (defaultMessage : Text) (events : List ScheduledEvent) : Text :=
  formatEvents zone defaultMessage (events.map ScheduledEvent.toEvent)

/-- As many line feeds as events, and the lines are the texts of the events. -/
def OneLineEach (zone : SystemZone) (defaultMessage : Text) (events : List ScheduledEvent) : Prop :=
  (format zone defaultMessage events).count lineFeed = events.length ∧
    ∀ i (inside : i < events.length),
      (getlines lineFeed (format zone defaultMessage events))[i]? = some (eventText zone events[i].toEvent)

/-! ## Line feeds -/

theorem digit_ne_lineFeed (value : Int) : digit value ≠ lineFeed := by
  intro same
  have code := congrArg UInt8.toNat same
  have small : value.toNat % 10 < 10 := Nat.mod_lt _ (by decide)
  simp only [digit, UInt8.toNat_ofNat', lineFeed, UInt8.reduceToNat] at code
  omega

theorem count_twoDigits (value : Int) : (twoDigits value).count lineFeed = 0 := by
  rw [twoDigits, List.count_cons_of_ne (digit_ne_lineFeed _), List.count_cons_of_ne (digit_ne_lineFeed _),
    List.count_nil]

theorem count_formatLocalTime (zone : SystemZone) (tp : TimePoint) :
    (formatLocalTime zone tp).count lineFeed = 0 := by
  simp only [formatLocalTime, List.count_append, count_twoDigits]
  decide

/-- The line feeds in the text of an event are those of its summary. -/
theorem count_eventText (zone : SystemZone) (event : Event) :
    (eventText zone event).count lineFeed = event.summary.count lineFeed := by
  have dash : [byte '-'].count lineFeed = 0 := by decide
  have colon : (text ": ").count lineFeed = 0 := by decide
  simp only [eventText, List.count_append, count_formatLocalTime, dash, colon, Nat.zero_add]

theorem format_joinLines (zone : SystemZone) (defaultMessage : Text) {events : List ScheduledEvent}
    (filled : events ≠ []) :
    format zone defaultMessage events =
      joinLines lineFeed (events.map (fun event => eventText zone event.toEvent)) := by
  cases events with
  | nil => exact absurd rfl filled
  | cons event rest =>
    rw [format, List.map_cons, formatEvents, ← List.map_cons, List.foldl_append_eq_append, List.nil_append,
      joinLines, List.flatMap_map, List.map_map, List.flatMap]
    · rfl
    · simp

/-- Each event has its line exactly where no summary breaks one. -/
theorem format_oneLineEach_iff (zone : SystemZone) (defaultMessage : Text) {events : List ScheduledEvent}
    (filled : events ≠ []) :
    OneLineEach zone defaultMessage events ↔ ∀ event ∈ events, lineFeed ∉ event.summary := by
  have joined := format_joinLines zone defaultMessage filled
  constructor
  · intro lines event inside
    have counted := lines.1
    rw [joined, count_joinLines, List.length_map, List.map_map] at counted
    have none : (events.map (List.count lineFeed ∘ fun event => eventText zone event.toEvent)).sum = 0 := by
      omega
    have here := List.sum_eq_zero_iff.mp none _ (List.mem_map_of_mem inside)
    simp only [Function.comp, count_eventText] at here
    exact List.count_eq_zero.mp here
  · intro unbroken
    have whole : ∀ line ∈ events.map (fun event => eventText zone event.toEvent), lineFeed ∉ line := by
      intro line inside
      obtain ⟨event, listed, rfl⟩ := List.mem_map.mp inside
      rw [← List.count_eq_zero, count_eventText, List.count_eq_zero]
      exact unbroken event listed
    have lines := getlines_joinLines whole []
    rw [List.append_nil, getlines, List.append_nil, ← joined] at lines
    refine ⟨?_, fun i inside => ?_⟩
    · rw [joined, count_joinLines, List.length_map, Nat.add_eq_left, List.sum_eq_zero_iff]
      intro n listed
      obtain ⟨line, inside, rfl⟩ := List.mem_map.mp listed
      exact List.count_eq_zero.mpr (whole line inside)
    · rw [lines, List.getElem?_map, List.getElem?_eq_getElem inside]
      rfl

/-! ## A summary of two lines -/

theorem format_oneLineEach_plain :
    OneLineEach (.fixed 0) [] [{ summary := text "Sync" }, { summary := text "Lunch" }] :=
  (format_oneLineEach_iff (.fixed 0) [] (List.cons_ne_nil _ _)).mpr (by decide)

def brokenCalendar : Text :=
  text "BEGIN:VEVENT\nUID:u\nDTSTART:20260904T100000Z\nDTEND:20260904T110000Z\nSUMMARY:Sync\\n12:00-13:00: Lunch\nEND:VEVENT\n"

/-- The one event of a calendar is shown as two. -/
theorem broken_summary_shown :
    ¬∀ (zone : SystemZone) (icsContent : Text) (now : TimePoint) (settings : CalendarSettings)
      (events : List ScheduledEvent) (defaultMessage : Text),
      parseCalendarAt zone icsContent now settings = .ok events → events ≠ [] →
      OneLineEach zone defaultMessage events := by
  intro always
  have shown : (parseCalendarAt (.fixed 0) brokenCalendar (fromTimeT 1788480000) {}).map
      (fun events => (events.length, format (.fixed 0) [] events)) =
      .ok (1, text "10:00-11:00: Sync\n12:00-13:00: Lunch\n") := by decide +kernel
  cases parsed : parseCalendarAt (.fixed 0) brokenCalendar (fromTimeT 1788480000) {} with
  | error e =>
    rw [parsed] at shown
    cases shown
  | ok events =>
    rw [parsed] at shown
    obtain ⟨single, written⟩ := Prod.mk.inj (Except.ok.inj shown)
    have filled : events ≠ [] := fun empty => by simp [empty] at single
    have lines := (always _ _ _ _ events [] parsed filled).1
    rw [written, single] at lines
    exact absurd lines (by decide +kernel)

end DivoomDev.Service.EventFormatter
