import DivoomDev.Ics.TextUtils

/-! The data of the calendar parser: events, recurrence rules, raw events and settings.
A time point counts the 100 ns ticks of the system clock from its epoch. -/

namespace DivoomDev.Ics.Models
open DivoomDev.Library.Bytes

/-- `std::chrono::time_point<system_clock>`; the default value is the epoch, zero. -/
abbrev TimePoint := Int

def ticksPerSecond : Int := 10000000

def hours (count : Int) : Int := count * 3600 * ticksPerSecond

def fromTimeT (seconds : Int) : TimePoint := seconds * ticksPerSecond

/-- `system_clock::to_time_t`, which rounds toward zero. -/
def toTimeT (tp : TimePoint) : Int := tp.tdiv ticksPerSecond

@[simp] theorem toTimeT_fromTimeT (seconds : Int) : toTimeT (fromTimeT seconds) = seconds :=
  Int.mul_tdiv_cancel seconds (by decide)

/-- `triggerMinutes` is absent where the source leaves it uninitialised. -/
structure Alarm where
  triggerMinutes : Option Int := none
  action : Text := []
  description : Text := []
  deriving DecidableEq, Repr

inductive EventStatus where
  | confirmed
  | tentative
  | canceled
  deriving DecidableEq, Repr

structure Event where
  summary : Text := []
  description : Text := []
  uid : Text := []
  location : Text := []
  sequence : Int := 0
  start : TimePoint := 0
  end_ : TimePoint := 0
  created : TimePoint := 0
  lastModified : TimePoint := 0
  stamp : TimePoint := 0
  url : Text := []
  organizer : Text := []
  organizerName : Text := []
  categories : Text := []
  status : EventStatus := .confirmed
  alarms : List Alarm := []
  deriving DecidableEq, Repr

inductive Repeat where
  | once
  | daily
  | weekly
  | monthly
  | yearly
  deriving DecidableEq, Repr

/-- The days of `bydayMask` are bits, from Monday at 1 to Sunday at 64. -/
structure ScheduledEvent extends Event where
  repeat_ : Repeat := .once
  bydayMask : Nat := 0
  recurrenceInterval : Int := 1
  recurrenceEnd : TimePoint := 0
  exdates : Std.ExtTreeSet Text := ∅
  deriving DecidableEq, Repr

inductive Freq where
  | daily
  | weekly
  | monthly
  | yearly
  deriving DecidableEq, Repr

/-- A parsed RRULE. An `until` at the epoch means no bound; days run from 1 for Monday. -/
structure RruleData where
  freq : Freq := .daily
  interval : Int := 1
  until_ : TimePoint := 0
  byday : Std.ExtTreeSet Nat := ∅
  deriving DecidableEq, Repr

/-- An event before its repetitions are expanded and its overrides applied. -/
structure RawEvent where
  ev : ScheduledEvent := {}
  rrule : RruleData := {}
  hasRrule : Bool := false
  exdates : Std.ExtTreeSet Text := ∅
  hasRecurrenceId : Bool := false
  recurrenceId : Text := []
  deriving DecidableEq, Repr

/-- `calendar_settings`; the horizon is in hours. -/
structure CalendarSettings where
  horizon : Int := 48
  windowFromDayStart : Bool := true
  deriving DecidableEq, Repr

end DivoomDev.Ics.Models
