import DivoomDev.Library.Loop
import DivoomDev.Ics.Datetime

/-! Recurrence rules: reading an RRULE and expanding a series inside a window. The source
searches the RRULE with one regular expression per part; each is the function of the
position that matches there. Times and intervals are exact integers here. -/

namespace DivoomDev.Ics.Recurrence
open DivoomDev.Library.Bytes DivoomDev.Library.Loop TextUtils Timezone Models Datetime

/-! ## Reading an RRULE -/

/-- A pattern that starts with a literal and captures what follows it. -/
def behind {α : Type} (literal : String) (capture : Text → Option α) (s : Text) : Option α :=
  if (text literal).isPrefixOf s then capture (s.drop (text literal).length) else none

def some1 (class' : UInt8 → Bool) (s : Text) : Option Text :=
  if s.takeWhile class' = [] then none else some (s.takeWhile class')

def freqNames : List (String × Freq) :=
  [("YEARLY", .yearly), ("MONTHLY", .monthly), ("WEEKLY", .weekly), ("DAILY", .daily)]

/-- FREQ=(YEARLY|MONTHLY|WEEKLY|DAILY) -/
def freqRe : Text → Option Freq :=
  behind "FREQ=" (fun s => (freqNames.find? (fun name => (text name.1).isPrefixOf s)).map Prod.snd)

/-- INTERVAL=([0-9]+) -/
def intervalRe : Text → Option Text := behind "INTERVAL=" (some1 isDigit)

/-- UNTIL=([0-9]+T[0-9]+Z?), without the Z, which the source pops from the match. -/
def untilRe : Text → Option Text :=
  behind "UNTIL=" (fun s => do
    let date ← some1 isDigit s
    let rest := s.drop date.length
    if rest.head? = some (byte 'T') then
      let time ← some1 isDigit rest.tail
      pure (date ++ byte 'T' :: time)
    else none)

def isBydayByte (c : UInt8) : Bool :=
  (65 ≤ c.toNat && c.toNat ≤ 90) || isDigit c || c == byte ','

/-- BYDAY=([A-Z0-9,]+) -/
def bydayRe : Text → Option Text := behind "BYDAY=" (some1 isBydayByte)

def dayNames : List (String × Nat) :=
  [("MO", 1), ("TU", 2), ("WE", 3), ("TH", 4), ("FR", 5), ("SA", 6), ("SU", 7)]

/-- The days of a BYDAY list; a name with an ordinal in front is not known and is dropped. -/
def readByday (byday : Text) : Std.ExtTreeSet Nat :=
  (getlines (byte ',') byday).foldl (fun days day =>
    match dayNames.find? (fun name => toUpper day = text name.1) with
    | some name => days.insert name.2
    | none => days) ∅

def readInterval (rrule : Text) : Except StdError Int :=
  match search intervalRe rrule with
  | some digits => stoi digits
  | none => pure 1

/-- The bound that UNTIL gives, read as UTC; without UNTIL, and where the conversion fails,
there is none. -/
def readUntil (zone : SystemZone) (rrule : Text) : Except StdError TimePoint :=
  match search untilRe rrule with
  | some untilStr => do
      let tm ← readDateTime untilStr
      pure (pointOf (zone.mkgmtime tm))
  | none => pure 0

def ruleDays (rrule : Text) : Std.ExtTreeSet Nat :=
  match search bydayRe rrule with
  | some byday => readByday byday
  | none => ∅

def parseRruleData (zone : SystemZone) (rrule : Text) : Except StdError RruleData :=
  if rrule = [] then pure {}
  else do
    let interval ← readInterval rrule
    let until_ ← readUntil zone rrule
    pure { freq := (search freqRe rrule).getD .daily, interval, until_, byday := ruleDays rrule }

/-! ## Expanding a series -/

/-- Whether an EXDATE excludes an instance: the raw EXDATE texts are compared with the
instance's start written as a local date-time. -/
def isExcluded (zone : SystemZone) (instanceStart : TimePoint) (exdates : Std.ExtTreeSet Text) :
    Bool :=
  exdates.contains (strftime 16 (zone.localtime (toTimeT instanceStart)))

def applyRepeatMetadata (ev : ScheduledEvent) (rule : RruleData) : ScheduledEvent :=
  { ev with
    repeat_ := match rule.freq with
      | .daily => .daily
      | .weekly => .weekly
      | .monthly => .monthly
      | .yearly => .yearly
    recurrenceInterval := rule.interval
    bydayMask := rule.byday.toList.foldl (fun mask d => mask ||| 1 <<< (d - 1)) ev.bydayMask
    recurrenceEnd := if rule.until_ ≠ 0 then rule.until_ else ev.recurrenceEnd }

/-- A copy of the base event moved to another start, with the base's duration. -/
def occurrence (base : ScheduledEvent) (instanceStart : TimePoint) : ScheduledEvent :=
  { base with start := instanceStart, end_ := instanceStart + (base.end_ - base.start) }

/-- The instance lies behind the UNTIL of the rule. -/
def pastUntil (rule : RruleData) (instanceStart : TimePoint) : Prop :=
  rule.until_ ≠ 0 ∧ rule.until_ < instanceStart

instance (rule : RruleData) (instanceStart : TimePoint) :
    Decidable (pastUntil rule instanceStart) := inferInstanceAs (Decidable (_ ∧ _))

section Expanders
variable (zone : SystemZone) (base : ScheduledEvent) (rule : RruleData)
  (windowStart deadline : TimePoint) (exdates : Std.ExtTreeSet Text)

def dailyStart (i : Nat) : TimePoint := base.start + hours 24 * i * rule.interval

def dailyPass (i : Nat) : Verdict ScheduledEvent :=
  let instanceStart := dailyStart base rule i
  if instanceStart < windowStart then .skip
  else if deadline < instanceStart then .stop
  else if pastUntil rule instanceStart then .stop
  else if isExcluded zone instanceStart exdates then .skip
  else .emit (occurrence base instanceStart)

/-- `daily_expander::expand`: at most 365 repetitions. -/
def dailyExpand : List ScheduledEvent :=
  scan (dailyPass zone base rule windowStart deadline exdates) (List.range 365)

def localDow (tp : TimePoint) : Int :=
  let dow := (zone.localtime (toTimeT tp)).tmWday
  if dow = 0 then 7 else dow

/-- The days of the rule, or the day of DTSTART when it names none. -/
def weeklyDays : List Nat :=
  if rule.byday.isEmpty then [(localDow zone base.start).toNat] else rule.byday.toList

def weeklyStart (week : Nat) (day : Nat) : TimePoint :=
  base.start + hours 24 * ((day - localDow zone base.start + 7).tmod 7 + week * 7 * rule.interval)

def weeklyAnchor (week : Nat) : TimePoint :=
  base.start + hours 24 * (week * 7 * rule.interval)

/-- One pass of the inner loop, which has no `break`. -/
def weeklyDay (week : Nat) (day : Nat) : Verdict ScheduledEvent :=
  let instanceStart := weeklyStart zone base rule week day
  if instanceStart < windowStart then .skip
  else if deadline < instanceStart then .skip
  else if pastUntil rule instanceStart then .skip
  else if isExcluded zone instanceStart exdates then .skip
  else .emit (occurrence base instanceStart)

def weeklyPass (week : Nat) : Verdict (List ScheduledEvent) :=
  if deadline < weeklyAnchor base rule week then .stop
  else .emit (scan (weeklyDay zone base rule windowStart deadline exdates week)
    (weeklyDays zone base rule))

/-- `weekly_expander::expand`: at most 520 weeks. -/
def weeklyExpand : List ScheduledEvent :=
  (scan (weeklyPass zone base rule windowStart deadline exdates) (List.range 520)).flatten

/-- The C time of the i-th month of a series, with the time of day zeroed. -/
def monthlyTime (i : Nat) : Int :=
  let tm := zone.localtime (toTimeT base.start)
  zone.mktime { tm with tmMon := tm.tmMon + i * rule.interval, tmHour := 0, tmMin := 0, tmSec := 0 }

/-- One pass of the monthly loop; the start of the window is not looked at. -/
def monthlyPass (i : Nat) : Verdict ScheduledEvent :=
  let newT := monthlyTime zone base rule i
  if newT = -1 then .skip
  else
    let instanceStart := fromTimeT newT
    if deadline < instanceStart then .stop
    else if pastUntil rule instanceStart then .stop
    else if isExcluded zone instanceStart exdates then .skip
    else .emit (occurrence base instanceStart)

/-- `monthly_expander::expand`: at most 24 months. -/
def monthlyExpand : List ScheduledEvent :=
  scan (monthlyPass zone base rule deadline exdates) (List.range 24)

/-- `recurrence_expander::for_freq(freq).expand`; a yearly rule gives no instance. -/
def expand : List ScheduledEvent :=
  match rule.freq with
  | .daily => dailyExpand zone base rule windowStart deadline exdates
  | .weekly => weeklyExpand zone base rule windowStart deadline exdates
  | .monthly => monthlyExpand zone base rule deadline exdates
  | .yearly => []

end Expanders

example : (parseRruleData (.fixed 0) (text "FREQ=WEEKLY;INTERVAL=2;BYDAY=MO,WE,FR")).toOption.map
    (fun rule => (rule.freq, rule.interval, rule.byday.toList)) = some (.weekly, 2, [1, 3, 5]) := by
  decide +kernel

end DivoomDev.Ics.Recurrence
