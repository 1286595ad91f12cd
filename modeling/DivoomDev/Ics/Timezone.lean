import DivoomDev.Ics.TextUtils

/-! Offsets of time zones from UTC: those that the VTIMEZONE blocks of a calendar give, and
behind them a fixed table of Windows and IANA names. -/

namespace DivoomDev.Ics.Timezone
open DivoomDev.Library.Bytes TextUtils

/-- The value that stands for an offset nobody knows. -/
def kUnknownOffset : Int := intMin

/-- The number in `count` bytes from `start`, or the exception of `substr` or `stoi`. -/
def readNumber (s : Text) (start count : Nat) : Except StdError Int := do
  stoi (← substr s start count)

/-- Whole hours of a TZOFFSETTO value such as "+0300"; half hours round up. -/
def parseTzoffset (s : Text) : Int :=
  if s.length < 5 then kUnknownOffset
  else
    let (sign, i) : Int × Nat :=
      if s.head? = some (byte '+') then (1, 1)
      else if s.head? = some (byte '-') then (-1, 1) else (1, 0)
    if s.length < i + 4 then kUnknownOffset
    else
      let hours : Except StdError Int := do
        let hh ← readNumber s i 2
        let mm ← readNumber s (i + 2) 2
        pure (hh + if 30 ≤ mm then 1 else 0)
      match hours with
      | .ok hours => sign * hours
      | .error _ => kUnknownOffset

abbrev TimezoneResolver := Std.ExtTreeMap Text Int

/-- The local variables of `collect_vtimezones`. -/
structure VtimezoneScan where
  vtzOffsets : TimezoneResolver := ∅
  inTz : Bool := false
  inStd : Bool := false
  curTzid : Text := []
  stdOffset : Int := kUnknownOffset

def startsWith (s : String) (line : Text) : Bool := (text s).isPrefixOf line

/-- One line of the scan for VTIMEZONE blocks. -/
def VtimezoneScan.line (scan : VtimezoneScan) (physical : Text) : VtimezoneScan :=
  let t := trim (dropCarriageReturn physical)
  if startsWith "BEGIN:VTIMEZONE" t then
    { scan with inTz := true, inStd := false, curTzid := [], stdOffset := kUnknownOffset }
  else if !scan.inTz then scan
  else if startsWith "END:VTIMEZONE" t then
    { scan with
      vtzOffsets := if scan.curTzid ≠ [] ∧ scan.stdOffset ≠ kUnknownOffset then
        scan.vtzOffsets.insert scan.curTzid scan.stdOffset else scan.vtzOffsets,
      inTz := false, inStd := false }
  else if startsWith "BEGIN:STANDARD" t then { scan with inStd := true }
  else if startsWith "BEGIN:DAYLIGHT" t then { scan with inStd := false }
  else if startsWith "TZID:" t then { scan with curTzid := t.drop 5 }
  else if scan.inStd && startsWith "TZOFFSETTO:" t then
    { scan with stdOffset := parseTzoffset (t.drop 11) }
  else scan

/-- The lines are those of the text as it came, before it is unfolded. -/
def collectVtimezones (icsContent : Text) : TimezoneResolver :=
  ((getlines lineFeed icsContent).foldl VtimezoneScan.line {}).vtzOffsets

def kOffsets : List (String × Int) :=
  [("UTC", 0), ("EUROPE/KALININGRAD", 2), ("EUROPE/MOSCOW", 3), ("EUROPE/VOLGOGRAD", 3),
    ("EUROPE/SAMARA", 4), ("ASIA/YEKATERINBURG", 5), ("ASIA/BANGKOK", 7), ("EUROPE/LONDON", 1),
    ("RUSSIAN STANDARD TIME", 3), ("GMT STANDARD TIME", 0), ("SE ASIA STANDARD TIME", 7),
    ("EKATERINBURG STANDARD TIME", 5), ("RUSSIA TIME ZONE 3", 4)]

def staticOffset (tz : Text) : Int :=
  match kOffsets.find? (fun e => toUpper tz = text e.1) with
  | some e => e.2
  | none => kUnknownOffset

def offsetHours (resolver : TimezoneResolver) (tz : Text) : Int :=
  match resolver[tz]? with
  | some offset => offset
  | none => staticOffset tz

example : [parseTzoffset (text "+0300"), parseTzoffset (text "-0700"), parseTzoffset (text "+0530")] =
    [3, -7, 6] := by decide

example : parseTzoffset (text "abcde") = kUnknownOffset := by decide

end DivoomDev.Ics.Timezone
