import DivoomDev.Ics.Datetime

/-! The window in which events are selected. -/

namespace DivoomDev.Ics.Window
open Models Datetime

structure TimeWindow where
  start : TimePoint
  deadline : TimePoint
  deriving DecidableEq, Repr

/-- Local midnight of the day of `now`, or `now` itself where the conversion fails. -/
def dayStart (zone : SystemZone) (now : TimePoint) : TimePoint :=
  let nowTm := zone.localtime (toTimeT now)
  let dayStartT := zone.mktime { nowTm with tmHour := 0, tmMin := 0, tmSec := 0 }
  if dayStartT = -1 then now else fromTimeT dayStartT

def computeWindow (zone : SystemZone) (now : TimePoint) (settings : CalendarSettings) : TimeWindow where
  start := if settings.windowFromDayStart then dayStart zone now else now
  deadline := now + hours settings.horizon

/-- The time point is not the epoch and lies in the window, bounds included. -/
def inWindow (tp : TimePoint) (win : TimeWindow) : Bool :=
  tp ≠ 0 && win.start ≤ tp && tp ≤ win.deadline

end DivoomDev.Ics.Window
