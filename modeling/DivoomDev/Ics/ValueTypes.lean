import DivoomDev.Library.Separated
import DivoomDev.Ics.Datetime

/-! The parameter VALUE=DATE-TIME, which names the default type of a date-time value, and the
instant that is read where it is written out. -/

namespace DivoomDev.Ics.ValueTypes
open DivoomDev.Library.Bytes DivoomDev.Library.Separated TextUtils Timezone Models Datetime

/-- The parameters with the default value type written out behind them. -/
def withValueType (params : Text) : Text :=
  if params = [] then text "VALUE=DATE-TIME" else params ++ byte ';' :: text "VALUE=DATE-TIME"

theorem find_inside {pattern s : Text} {pos : Nat} (found : find pattern s = some pos) :
    pos + pattern.length ≤ s.length := by
  induction s generalizing pos with
  | nil =>
    rw [find] at found
    split_ifs at found with empty
    cases found
    rw [empty]
    exact Nat.le_refl _
  | cons c rest ih =>
    rw [find] at found
    split_ifs at found with here
    · cases found
      rw [Nat.zero_add]
      exact (List.isPrefixOf_iff_prefix.mp here).length_le
    · obtain ⟨next, later, rfl⟩ := Option.map_eq_some_iff.mp found
      have inside := ih later
      rw [List.length_cons]
      omega

theorem paramAfter_withValueType (params : Text) :
    paramAfter (text "TZID=") (withValueType params) = paramAfter (text "TZID=") params := by
  unfold withValueType
  split_ifs with empty
  · rw [empty]
    decide +kernel
  · have notBehind : find (text "TZID=") (text "VALUE=DATE-TIME") = none := by decide +kernel
    have found : find (text "TZID=") (params ++ byte ';' :: text "VALUE=DATE-TIME") = _ :=
      find_separated (by decide) (by decide) params (text "VALUE=DATE-TIME")
    rw [notBehind, Option.map_none, Option.or_none] at found
    rw [paramAfter, paramAfter, found]
    cases inside : find (text "TZID=") params with
    | none => rfl
    | some pos =>
      have bound := find_inside inside
      rw [Option.map_some, Option.map_some, List.drop_append_of_le_length bound, List.takeWhile_append]
      split_ifs with whole
      · have taken := (List.takeWhile_prefix (fun c => c != byte ';')).eq_of_length whole
        simp [taken]
      · rfl

theorem find_withValueType (params : Text) : (find (text "VALUE=DATE") (withValueType params)).isSome = true := by
  unfold withValueType
  split_ifs
  · decide +kernel
  · rw [find_separated (by decide) (by decide), Option.isSome_or, Option.isSome_map,
      show (find (text "VALUE=DATE") (text "VALUE=DATE-TIME")).isSome = true by decide +kernel, Bool.or_true]

/-- The parameter only makes the value count as a date. -/
theorem makeDatetimeInfo_withValueType (params value : Text) :
    makeDatetimeInfo (withValueType params) value = { makeDatetimeInfo params value with isDate := true } := by
  simp only [makeDatetimeInfo, paramAfter_withValueType, find_withValueType, Bool.true_or]

variable {zone : SystemZone} {tz : TimezoneResolver} {params value : Text}

/-- The instant of a wall time, as the flags of the value and its TZID have it. -/
def instantOf (zone : SystemZone) (tz : TimezoneResolver) (isUtc isDate : Bool) (timezone : Text) (wall : Tm) :
    TimePoint :=
  let tm := { wall with tmIsdst := -1 }
  pointOf (
    if isUtc then zone.mkgmtime tm
    else if timezone ≠ [] ∧ isDate = false ∧ offsetHours tz timezone ≠ kUnknownOffset then
      zone.mkgmtime tm - offsetHours tz timezone * 3600
    else zone.mktime tm)

theorem parseIcsDatetime_long (info : DatetimeInfo) (long : 15 ≤ info.value.length) :
    parseIcsDatetime zone tz info =
      (readDateTime info.value).map (instantOf zone tz info.isUtc info.isDate info.timezone) := by
  have notDate : ¬(info.isDate ∧ info.value.length = 8) := by omega
  rw [parseIcsDatetime, readWall, if_neg notDate, if_pos long]
  cases readDateTime info.value with
  | error e => rfl
  | ok wall =>
    simp only [bind, Except.bind, pure, Except.pure, Except.map, instantOf, Except.ok.injEq]
    split_ifs <;> simp_all

/-- The TZID of the parameters, empty where there is none. -/
def tzidOf (params : Text) : Text := (paramAfter (text "TZID=") params).getD []

/-- The value type plays no part: the value is in UTC, no TZID is given, the parameters count as
those of a date already, the offset of the TZID is not known, or the system's time zone has the
same instant for the wall time as this offset. -/
def TypeIndifferent (zone : SystemZone) (tz : TimezoneResolver) (params value : Text) : Prop :=
  value.getLast? = some (byte 'Z') ∨ tzidOf params = [] ∨ (find (text "VALUE=DATE") params).isSome ∨
    offsetHours tz (tzidOf params) = kUnknownOffset ∨
    ∀ wall, readDateTime value = .ok wall →
      pointOf (zone.mkgmtime { wall with tmIsdst := -1 } - offsetHours tz (tzidOf params) * 3600) =
        pointOf (zone.mktime { wall with tmIsdst := -1 })

/-- Writing the default value type out keeps the instant exactly where the type plays no part. -/
theorem parseIcsDatetime_withValueType_iff (long : value.length = 15 ∨ value.length = 16) :
    parseIcsDatetime zone tz (makeDatetimeInfo (withValueType params) value) =
        parseIcsDatetime zone tz (makeDatetimeInfo params value) ↔
      TypeIndifferent zone tz params value := by
  have bound : 15 ≤ (makeDatetimeInfo params value).value.length := by
    show 15 ≤ value.length
    omega
  have isDate : (makeDatetimeInfo params value).isDate = (find (text "VALUE=DATE") params).isSome := by
    have notBare : value.length ≠ 8 := by omega
    simp [makeDatetimeInfo, notBare]
  have isUtc : (makeDatetimeInfo params value).isUtc = decide (value.getLast? = some (byte 'Z')) := rfl
  have timezone : (makeDatetimeInfo params value).timezone = tzidOf params := rfl
  have sameValue : (makeDatetimeInfo params value).value = value := rfl
  rw [makeDatetimeInfo_withValueType, parseIcsDatetime_long (makeDatetimeInfo params value) bound,
    parseIcsDatetime_long { makeDatetimeInfo params value with isDate := true } bound]
  simp only [isDate, isUtc, timezone, sameValue, TypeIndifferent]
  cases readDateTime value with
  | error e => simp [Except.map]
  | ok wall =>
    simp only [Except.map, Except.ok.injEq, instantOf]
    by_cases utc : value.getLast? = some (byte 'Z')
    · simp [utc]
    by_cases bare : tzidOf params = []
    · simp [bare]
    by_cases date : (find (text "VALUE=DATE") params).isSome = true
    · simp [date]
    by_cases unknown : offsetHours tz (tzidOf params) = kUnknownOffset
    · simp [unknown]
    simp [utc, bare, date, unknown, eq_comm]

/-- A value with the offset of Moscow on a system in UTC: DTSTART;TZID=Europe/Moscow. -/
theorem parseIcsDatetime_withValueType_iff_moscow :
    parseIcsDatetime (.fixed 0) ∅ (makeDatetimeInfo (withValueType (text "TZID=Europe/Moscow")) (text "20260904T100000")) =
        parseIcsDatetime (.fixed 0) ∅ (makeDatetimeInfo (text "TZID=Europe/Moscow") (text "20260904T100000")) ↔
      TypeIndifferent (.fixed 0) ∅ (text "TZID=Europe/Moscow") (text "20260904T100000") :=
  parseIcsDatetime_withValueType_iff (by decide)

/-- Ten o'clock in Moscow becomes ten o'clock of the system. -/
theorem valueType_moves_instant :
    ¬∀ (zone : SystemZone) (tz : TimezoneResolver) (params value : Text),
      find (text "VALUE=") params = none → value.length = 15 ∨ value.length = 16 →
      parseIcsDatetime zone tz (makeDatetimeInfo (withValueType params) value) =
        parseIcsDatetime zone tz (makeDatetimeInfo params value) := by
  intro always
  have same := always (.fixed 0) ∅ (text "TZID=Europe/Moscow") (text "20260904T100000") (by decide +kernel) (by decide)
  exact absurd same (by decide +kernel)

end DivoomDev.Ics.ValueTypes
