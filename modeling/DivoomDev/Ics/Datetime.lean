import DivoomDev.Library.Gregorian
import DivoomDev.Ics.Timezone
import DivoomDev.Ics.Models

/-! Reading calendar date-times and writing local ones. What the C library makes of a
broken-down time in the process's time zone is a parameter, with the exact Gregorian
conversions at a fixed offset as its instance. -/

namespace DivoomDev.Ics.Datetime
open DivoomDev.Library DivoomDev.Library.Bytes TextUtils Timezone Models

/-- `std::tm`. -/
structure Tm where
  tmSec : Int := 0
  tmMin : Int := 0
  tmHour : Int := 0
  tmMday : Int := 0
  tmMon : Int := 0
  tmYear : Int := 0
  tmWday : Int := 0
  tmIsdst : Int := 0
  deriving DecidableEq, Repr

/-- `mktime`, `_mkgmtime` and `localtime_s` in the time zone of the process. A conversion
that fails returns -1, as the C functions do. -/
structure SystemZone where
  mktime : Tm → Int
  mkgmtime : Tm → Int
  localtime : Int → Tm

def utcSeconds (tm : Tm) : Int :=
  Gregorian.wallSeconds (tm.tmYear + 1900) tm.tmMon tm.tmMday tm.tmHour tm.tmMin tm.tmSec

def utcTm (seconds : Int) : Tm :=
  let days := seconds / 86400
  let second := seconds % 86400
  let (year, month, day) := Gregorian.civilFromDays days
  { tmSec := second % 60, tmMin := second / 60 % 60, tmHour := second / 3600,
    tmMday := day, tmMon := month - 1, tmYear := year - 1900,
    tmWday := Gregorian.weekday days }

/-- A system zone that is `offset` seconds ahead of UTC at all times. -/
def SystemZone.fixed (offset : Int) : SystemZone where
  mktime tm := utcSeconds tm - offset
  mkgmtime tm := utcSeconds tm
  localtime seconds := utcTm (seconds + offset)

/-- What the C library promises of its conversions: days of the week count from Sunday, the
offset from UTC stays within a day of one value, and no time is in front of its midnight. -/
structure SystemZone.Sound (zone : SystemZone) : Prop where
  weekday : ∀ seconds, 0 ≤ (zone.localtime seconds).tmWday ∧ (zone.localtime seconds).tmWday ≤ 6
  near : ∃ offset, ∀ tm, zone.mktime tm ≠ -1 → |zone.mktime tm - (utcSeconds tm - offset)| ≤ 86400
  midnight : ∀ seconds,
    zone.mktime { zone.localtime seconds with tmHour := 0, tmMin := 0, tmSec := 0 } ≤ seconds

theorem utcSeconds_midnight (seconds : Int) :
    utcSeconds { utcTm seconds with tmHour := 0, tmMin := 0, tmSec := 0 } = seconds / 86400 * 86400 := by
  have back := Gregorian.daysFromCivil_civilFromDays (seconds / 86400)
  have inYear := Gregorian.civilFromDays_month (seconds / 86400)
  simp only [utcSeconds, utcTm, Gregorian.wallSeconds]
  generalize Gregorian.civilFromDays (seconds / 86400) = civil at back inYear
  have low : 0 ≤ civil.2.1 - 1 := by omega
  have high : civil.2.1 - 1 < 12 := by omega
  rw [Int.ediv_eq_zero_of_lt low high, Int.emod_eq_of_lt low high]
  simp only [Int.sub_add_cancel, Int.add_zero, Int.zero_mul, back]

theorem fixed_sound (offset : Int) : (SystemZone.fixed offset).Sound where
  weekday seconds := by
    simp only [SystemZone.fixed, utcTm, Gregorian.weekday]
    omega
  near := ⟨offset, fun tm _ => by simp [SystemZone.fixed]⟩
  midnight seconds := by
    simp only [SystemZone.fixed, utcSeconds_midnight]
    omega

structure DatetimeInfo where
  timezone : Text := []
  isDate : Bool := false
  isUtc : Bool := false
  value : Text := []
  deriving DecidableEq, Repr

/-- The text behind `name` up to the next semicolon, if `name` occurs in the parameters. -/
def paramAfter (name : Text) (params : Text) : Option Text :=
  (find name params).map (fun pos => (params.drop (pos + name.length)).takeWhile (· != byte ';'))

def makeDatetimeInfo (params value : Text) : DatetimeInfo :=
  let timezone := (paramAfter (text "TZID=") params).getD []
  let isUtc := value.getLast? = some (byte 'Z')
  let bareDate := timezone = [] ∧ ¬isUtc ∧ value.length = 8 ∧ value.head?.any isDigit
  { timezone := timezone,
    isDate := (find (text "VALUE=DATE") params).isSome || decide bareDate,
    isUtc := isUtc,
    value := value }

/-- The year, month and day at the front of a date or a date-time. -/
def readDate (val : Text) : Except StdError Tm := do
  let year ← readNumber val 0 4
  let month ← readNumber val 4 2
  let day ← readNumber val 6 2
  pure { tmYear := year - 1900, tmMon := month - 1, tmMday := day }

/-- The six numbers of YYYYMMDDTHHMMSS, whatever stands at the T and behind. -/
def readDateTime (val : Text) : Except StdError Tm := do
  let date ← readDate val
  let hour ← readNumber val 9 2
  let minute ← readNumber val 11 2
  let second ← readNumber val 13 2
  pure { date with tmHour := hour, tmMin := minute, tmSec := second }

/-- A value that has neither form leaves the broken-down time at zeroes. -/
def readWall (info : DatetimeInfo) : Except StdError Tm :=
  if info.isDate ∧ info.value.length = 8 then readDate info.value
  else if 15 ≤ info.value.length then readDateTime info.value
  else pure {}

/-- The time point of a C time, with the failure value -1 mapped to the epoch. -/
def pointOf (t : Int) : TimePoint := if t = -1 then 0 else fromTimeT t

def parseIcsDatetime (zone : SystemZone) (tz : TimezoneResolver) (info : DatetimeInfo) :
    Except StdError TimePoint := do
  let wall ← readWall info
  let tm := { wall with tmIsdst := -1 }
  let off := offsetHours tz info.timezone
  pure (pointOf (
    if info.isUtc then zone.mkgmtime tm
    else if info.timezone ≠ [] ∧ ¬info.isDate then
      if off ≠ kUnknownOffset then zone.mkgmtime tm - off * 3600 else zone.mktime tm
    else zone.mktime tm))

/-- CREATED, LAST-MODIFIED and DTSTAMP. A value that does not read is the epoch. -/
def parseStamp (zone : SystemZone) (value : Text) : TimePoint :=
  if value.length < 15 then 0
  else match readDateTime value with
    | .ok tm => pointOf (zone.mkgmtime tm)
    | .error _ => 0

/-! ## Local date-times as text -/

def digit (value : Int) : UInt8 := UInt8.ofNat (48 + value.toNat % 10)

def twoDigits (value : Int) : Text := [digit (value / 10), digit value]

/-- `strftime` with "%Y%m%dT%H%M%S". -/
def strftimeKey (tm : Tm) : Text :=
  decimal (tm.tmYear + 1900) ++ twoDigits (tm.tmMon + 1) ++ twoDigits tm.tmMday ++ [byte 'T'] ++
    twoDigits tm.tmHour ++ twoDigits tm.tmMin ++ twoDigits tm.tmSec

/-- The text that `strftime` leaves in a buffer of `size` bytes; one that does not fit with
its terminator leaves the buffer empty. -/
def strftime (size : Nat) (tm : Tm) : Text :=
  if (strftimeKey tm).length < size then strftimeKey tm else []

def formatLocalDt (zone : SystemZone) (tp : TimePoint) : Text :=
  strftime 20 (zone.localtime (toTimeT tp))

example : parseIcsDatetime (.fixed 0) ∅
    (makeDatetimeInfo (text "TZID=Europe/Moscow") (text "20231202T120000")) =
    .ok (fromTimeT 1701507600) := by decide

example : formatLocalDt (.fixed 10800) (fromTimeT 1701507600) = text "20231202T120000" := by decide

end DivoomDev.Ics.Datetime
