import DivoomDev.Ics.Recurrence

/-! The builder that turns the lines of a VEVENT block into a raw event. A line is read on its
own and changes the raw event built so far, so a block is a fold over its lines. -/

namespace DivoomDev.Ics.EventBuilder
open DivoomDev.Library.Bytes TextUtils Timezone Models Datetime Recurrence

/-! ## VALARM -/

/-- The local variables of `parse_alarm` while it reads the lines. -/
structure AlarmText where
  triggerStr : Text := []
  action : Text := text "DISPLAY"
  description : Text := []
  deriving DecidableEq, Repr

def AlarmText.line (al : AlarmText) (line : Text) : AlarmText :=
  let trimmed := trim line
  match trimmed.idxOf? (byte ':') with
  | none => al
  | some colonPos =>
      let key := toUpper (trim (trimmed.take colonPos))
      let value := unescape (trim (trimmed.drop (colonPos + 1)))
      if key = text "TRIGGER" then { al with triggerStr := value }
      else if key = text "ACTION" then { al with action := value }
      else if key = text "DESCRIPTION" then { al with description := value }
      else al

def alarmText (lines : List Text) : AlarmText := lines.foldl AlarmText.line {}

/-- The number in front of a unit and the text behind the unit, where the unit occurs. -/
def beforeUnit (unit : Char) (s : Text) : Except StdError (Int × Text) :=
  match s.idxOf? (byte unit) with
  | none => pure (0, s)
  | some pos => do
      let count ← stoi (s.take pos)
      pure (count, s.drop (pos + 1))

/-- The minutes of the part of a duration behind its T. -/
def timeMinutes (timePart : Text) : Except StdError Int := do
  let (hours, rest) ← beforeUnit 'H' timePart
  let (minutes, _) ← beforeUnit 'M' rest
  pure (hours * 60 + minutes)

/-- The minutes of a duration whose P has been cut off. -/
def durationMinutes (duration : Text) : Except StdError Int := do
  let (days, rest) ← beforeUnit 'D' duration
  match rest.idxOf? (byte 'T') with
  | some tPos => do
      let minutes ← timeMinutes (rest.drop (tPos + 1))
      pure (days * 1440 + minutes)
  | none =>
      if rest.head?.any isDigit then do
        let minutes ← stoi rest
        pure (days * 1440 + minutes)
      else pure (days * 1440)

def unsignedTrigger (triggerStr : Text) : Text :=
  if triggerStr.head? = some (byte '-') then triggerStr.tail else triggerStr

/-- What `parse_alarm` appends to the alarms of the event. -/
def parseAlarm (lines : List Text) : Except StdError (List Alarm) :=
  let al := alarmText lines
  if al.triggerStr = [] then pure []
  else
    let trigger := unsignedTrigger al.triggerStr
    if trigger.head? = some (byte 'P') then do
      let minutes ← durationMinutes trigger.tail
      pure [{ triggerMinutes := some minutes, action := al.action, description := al.description }]
    else pure [{ action := al.action, description := al.description }]

/-! ## VEVENT -/

def paramValue (params : Text) (name : String) : Text :=
  (paramAfter (text name ++ [byte '=']) params).getD []

def exdateParts (value : Text) : List Text :=
  ((getlines (byte ',') value).map trim).filter (· ≠ [])

/-- The text behind the last colon, or all of it. -/
def behindLastColon (value : Text) : Text :=
  match rfind (byte ':') value with
  | none => value
  | some colonPos => value.drop (colonPos + 1)

def readStatus (value : Text) : EventStatus :=
  let statusUpper := toUpper value
  if statusUpper = text "CANCELED" then .canceled
  else if statusUpper = text "TENTATIVE" then .tentative
  else .confirmed

/-- An ORGANIZER value without what stands before and in its "mailto:". -/
def mailAddress (value : Text) : Text :=
  match find (text "mailto:") value with
  | some mailPos => value.drop (mailPos + 7)
  | none => value

/-- One property applied to the raw event built so far. -/
def applyProperty (zone : SystemZone) (tz : TimezoneResolver) (re : RawEvent)
    (key params value : Text) : Except StdError RawEvent :=
  if key = text "SUMMARY" then pure { re with ev.summary := trim (unescape value) }
  else if key = text "DESCRIPTION" then pure { re with ev.description := unescape value }
  else if key = text "UID" then pure { re with ev.uid := value }
  else if key = text "LOCATION" then pure { re with ev.location := unescape value }
  else if key = text "SEQUENCE" then
    -- the only number whose exceptions the builder swallows
    pure (match stoi value with
      | .ok sequence => { re with ev.sequence := sequence }
      | .error _ => re)
  else if key = text "URL" then pure { re with ev.url := value }
  else if key = text "CATEGORIES" then pure { re with ev.categories := unescape value }
  else if key = text "STATUS" then pure { re with ev.status := readStatus value }
  else if key = text "DTSTART" then do
    let start ← parseIcsDatetime zone tz (makeDatetimeInfo params value)
    pure { re with ev.start := start }
  else if key = text "DTEND" then do
    let end_ ← parseIcsDatetime zone tz (makeDatetimeInfo params value)
    pure { re with ev.end_ := end_ }
  else if key = text "CREATED" then pure { re with ev.created := parseStamp zone value }
  else if key = text "LAST-MODIFIED" then pure { re with ev.lastModified := parseStamp zone value }
  else if key = text "DTSTAMP" then pure { re with ev.stamp := parseStamp zone value }
  else if key = text "ORGANIZER" then
    pure { re with
      ev.organizer := mailAddress value
      ev.organizerName := unescape (paramValue params "CN") }
  else if key = text "RRULE" then do
    let rrule ← parseRruleData zone value
    pure { re with rrule := rrule, hasRrule := true }
  else if key = text "RECURRENCE-ID" then
    pure { re with hasRecurrenceId := true, recurrenceId := behindLastColon value }
  else if key = text "EXDATE" then
    pure { re with
      exdates := re.exdates.insertMany (exdateParts value)
      ev.exdates := re.ev.exdates.insertMany (exdateParts value) }
  else pure re

/-- One content line of the block. A line without a colon or without a name is passed over. -/
def applyLine (zone : SystemZone) (tz : TimezoneResolver) (re : RawEvent) (line : Text) :
    Except StdError RawEvent :=
  let (key, params, value) := splitIcsLine (trim line)
  if key = [] then pure re else applyProperty zone tz re key params value

/-- `event_builder::build`. -/
def build (zone : SystemZone) (tz : TimezoneResolver) (contentLines alarmLines : List Text) :
    Except StdError RawEvent := do
  let re ← contentLines.foldlM (applyLine zone tz) {}
  let alarms ← parseAlarm alarmLines
  pure { re with ev.alarms := re.ev.alarms ++ alarms }

end DivoomDev.Ics.EventBuilder
