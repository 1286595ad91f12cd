import DivoomDev.Ics.Clocks
import DivoomDev.Ics.Series

/-! The integers that the expanders of a series compute, in the C++ types that hold them. The
loops run here on exact integers, and put each result down with the width of its type. -/

namespace DivoomDev.Ics.ExactIntegers
open DivoomDev.Library DivoomDev.Library.Bytes DivoomDev.Library.Loop Models Datetime
  Recurrence Clocks Series

/-! ## What a pass computes -/

section Passes
variable (p : Platform) (zone : SystemZone) (base : ScheduledEvent) (rule : RruleData)
  (windowStart deadline : Int) (exdates : Std.ExtTreeSet Text)

def duration : Int := base.end_ - base.start

/-- The end of an instance that is appended. -/
def endOf (instanceStart : Int) : Computed := ⟨64, instanceStart + duration base⟩

def dailyAt (i : Nat) : Int := base.start + p.ticks (24 * i * rule.interval)

/-- `hours(24) * i * interval` is in the representation of hours, and the sum in that of the clock. -/
def dailyOffsets (i : Nat) : List Computed :=
  [⟨p.hoursWidth, 24 * i⟩, ⟨p.hoursWidth, 24 * i * rule.interval⟩,
    ⟨64, p.ticks (24 * i * rule.interval)⟩, ⟨64, dailyAt p base rule i⟩]

/-- What a pass of the daily loop computes, and whether it breaks. -/
def dailyIntegers (i : Nat) : List Computed × Bool :=
  let instanceStart := dailyAt p base rule i
  let offsets := dailyOffsets p base rule i
  if instanceStart < windowStart then (offsets, false)
  else if deadline < instanceStart then (offsets, true)
  else if pastUntil rule instanceStart then (offsets, true)
  else if isExcluded zone (p.second instanceStart) exdates then (offsets, false)
  else (offsets ++ [endOf base instanceStart], false)

def weekOffset (week : Nat) : Int := week * 7 * rule.interval

def anchorAt (week : Nat) : Int := base.start + p.ticks (24 * weekOffset rule week)

/-- The days of a week are `long long`, and so is their product with hours. -/
def anchorOffsets (week : Nat) : List Computed :=
  [⟨64, week * 7⟩, ⟨64, weekOffset rule week⟩, ⟨64, 24 * weekOffset rule week⟩,
    ⟨64, p.ticks (24 * weekOffset rule week)⟩, ⟨64, anchorAt p base rule week⟩]

def ahead (day : Nat) : Int := daysAhead zone (p.atSecond base) day

def dayAt (week day : Nat) : Int := base.start + p.ticks (24 * (ahead p zone base day + weekOffset rule week))

def dayOffsets (week day : Nat) : List Computed :=
  [⟨32, day - localDow zone (p.second base.start)⟩, ⟨32, day - localDow zone (p.second base.start) + 7⟩,
    ⟨32, ahead p zone base day⟩, ⟨64, ahead p zone base day + weekOffset rule week⟩,
    ⟨64, 24 * (ahead p zone base day + weekOffset rule week)⟩,
    ⟨64, p.ticks (24 * (ahead p zone base day + weekOffset rule week))⟩,
    ⟨64, dayAt p zone base rule week day⟩]

/-- What a pass of the inner weekly loop computes. -/
def dayIntegers (week day : Nat) : List Computed :=
  let instanceStart := dayAt p zone base rule week day
  let offsets := dayOffsets p zone base rule week day
  if instanceStart < windowStart then offsets
  else if deadline < instanceStart then offsets
  else if pastUntil rule instanceStart then offsets
  else if isExcluded zone (p.second instanceStart) exdates then offsets
  else offsets ++ [endOf base instanceStart]

def weekIntegers (week : Nat) : List Computed × Bool :=
  if deadline < anchorAt p base rule week then (anchorOffsets p base rule week, true)
  else (anchorOffsets p base rule week ++ (weeklyDays zone (p.atSecond base) rule).flatMap
    (dayIntegers p zone base rule windowStart deadline exdates week), false)

def monthTime (i : Nat) : Int := monthlyTime zone (p.atSecond base) rule i

/-- `tm.tm_mon += i * rule.interval`, in `int`. -/
def monthNumber (i : Nat) : Int := (zone.localtime (p.toTimeT base.start)).tmMon + i * rule.interval

def monthOffsets (i : Nat) : List Computed :=
  [⟨32, i * rule.interval⟩, ⟨32, monthNumber p zone base rule i⟩]

def monthIntegers (i : Nat) : List Computed × Bool :=
  let newT := monthTime p zone base rule i
  let offsets := monthOffsets p zone base rule i
  if newT = -1 then (offsets, false)
  else
    let instanceStart := p.ofTimeT newT
    let numbers := offsets ++ [⟨64, instanceStart⟩]
    if deadline < instanceStart then (numbers, true)
    else if pastUntil rule instanceStart then (numbers, true)
    else if isExcluded zone (p.second instanceStart) exdates then (numbers, false)
    else (numbers ++ [endOf base instanceStart], false)

/-- The integers that `recurrence_expander::for_freq(freq).expand` computes. -/
def expandIntegers : List Computed :=
  match rule.freq with
  | .daily => ⟨64, duration base⟩ ::
      collect (dailyIntegers p zone base rule windowStart deadline exdates) (List.range 365)
  | .weekly => ⟨64, duration base⟩ ::
      collect (weekIntegers p zone base rule windowStart deadline exdates) (List.range 520)
  | .monthly => ⟨64, duration base⟩ ::
      collect (monthIntegers p zone base rule deadline exdates) (List.range 24)
  | .yearly => []

end Passes

end DivoomDev.Ics.ExactIntegers
