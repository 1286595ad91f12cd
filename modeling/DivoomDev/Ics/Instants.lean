import DivoomDev.Ics.Datetime

/-! Two notations of one instant: a wall-clock time in a zone of known offset, and the same
time in UTC. -/

namespace DivoomDev.Ics.Instants
open DivoomDev.Library DivoomDev.Library.Bytes TextUtils Timezone Models Datetime

/-- YYYYMMDDTHHMMSS. -/
def dateTimeText (time : Gregorian.DateTime) : Text :=
  twoDigits (time.year / 100) ++ twoDigits time.year ++ twoDigits time.month ++ twoDigits time.day ++
    [byte 'T'] ++ twoDigits time.hour ++ twoDigits time.minute ++ twoDigits time.second

def wallTm (time : Gregorian.DateTime) : Tm :=
  { tmYear := time.year - 1900, tmMon := time.month - 1, tmMday := time.day, tmHour := time.hour,
    tmMin := time.minute, tmSec := time.second }

/-! ## Reading what was written -/

theorem digit_toNat (value : Int) : (digit value).toNat = 48 + value.toNat % 10 := by
  rw [digit, UInt8.toNat_ofNat']
  omega

theorem digit_isDigit (value : Int) : isDigit (digit value) = true := by
  rw [isDigit_iff, digit_toNat]
  omega

theorem stoi_twoDigits {n : Int} (range : 0 ≤ n ∧ n ≤ 99) : stoi (twoDigits n) = .ok n := by
  have value : (digitsValue (twoDigits n) : Int) = n := by
    simp only [twoDigits, digitsValue, List.foldl_cons, List.foldl_nil, digit_toNat]
    omega
  have small : (digitsValue (twoDigits n) : Int) ≤ intMax := by
    rw [value, intMax]
    omega
  rw [stoi_digits (by simp [twoDigits]) (by simp [twoDigits, digit_isDigit]) small, value]

theorem stoi_fourDigits {n : Int} (range : 0 ≤ n ∧ n ≤ 9999) :
    stoi (twoDigits (n / 100) ++ twoDigits n) = .ok n := by
  have value : (digitsValue (twoDigits (n / 100) ++ twoDigits n) : Int) = n := by
    simp only [twoDigits, digitsValue, List.cons_append, List.nil_append, List.foldl_cons, List.foldl_nil,
      digit_toNat]
    omega
  have small : (digitsValue (twoDigits (n / 100) ++ twoDigits n) : Int) ≤ intMax := by
    rw [value, intMax]
    omega
  rw [stoi_digits (by simp [twoDigits]) (by simp [twoDigits, digit_isDigit]) small, value]

theorem readNumber_piece {val : Text} {start count : Nat} {n : Int} (inside : start ≤ val.length)
    (read : stoi (piece val start count) = .ok n) : readNumber val start count = .ok n := by
  rw [readNumber, substr_of_le inside]
  exact read

theorem readDateTime_text {time : Gregorian.DateTime} (valid : time.Valid)
    (year : 0 ≤ time.year ∧ time.year ≤ 9999) (rest : Text) :
    readDateTime (dateTimeText time ++ rest) = .ok (wallTm time) := by
  obtain ⟨⟨month, day⟩, hour, minute, second⟩ := valid
  have long := Gregorian.daysInMonth_bounds time.year time.month
  have read (start count : Nat) {n : Int} (low : start ≤ 15)
      (number : stoi (piece (dateTimeText time ++ rest) start count) = .ok n) :
      readNumber (dateTimeText time ++ rest) start count = .ok n := by
    apply readNumber_piece _ number
    simp only [dateTimeText, twoDigits, List.length_append, List.length_cons, List.length_nil]
    omega
  have readYear := read 0 4 (by decide) (stoi_fourDigits year)
  have readMonth := read 4 2 (by decide) (stoi_twoDigits (n := time.month) (by omega))
  have readDay := read 6 2 (by decide) (stoi_twoDigits (n := time.day) (by omega))
  have readHour := read 9 2 (by decide) (stoi_twoDigits (n := time.hour) (by omega))
  have readMinute := read 11 2 (by decide) (stoi_twoDigits (n := time.minute) (by omega))
  have readSecond := read 13 2 (by decide) (stoi_twoDigits (n := time.second) (by omega))
  simp only [readDateTime, readDate, readYear, readMonth, readDay, readHour, readMinute, readSecond, bind,
    Except.bind, pure, Except.pure]
  rfl

/-! ## The two notations -/

theorem utcSeconds_wallTm {time : Gregorian.DateTime} (valid : time.Valid) (isdst : Int) :
    utcSeconds { wallTm time with tmIsdst := isdst } = time.seconds := by
  have month := valid.date.month
  have sameYear : (time.month - 1) / 12 = 0 := by omega
  have sameMonth : (time.month - 1) % 12 + 1 = time.month := by omega
  simp only [utcSeconds, wallTm, Gregorian.wallSeconds, sameYear, sameMonth, Int.sub_add_cancel, Int.add_zero]
  rfl

theorem dateTimeText_last (time : Gregorian.DateTime) : (dateTimeText time).getLast? ≠ some (byte 'Z') := by
  have number : byte 'Z' ≠ digit time.second := fun same =>
    absurd (same ▸ digit_isDigit time.second) (by decide)
  simpa [dateTimeText, twoDigits] using number.symm

theorem length_dateTimeText (time : Gregorian.DateTime) : (dateTimeText time).length = 15 := rfl

theorem find_prefix {pattern : Text} (some : pattern ≠ []) (s : Text) : find pattern (pattern ++ s) = .some 0 := by
  obtain ⟨c, rest, rfl⟩ := List.exists_cons_of_ne_nil some
  rw [List.cons_append, find, if_pos]
  simp [List.isPrefixOf_iff_prefix]

/-- A pattern is not found to begin where its first byte does not occur. -/
theorem find_behind {c : UInt8} {pattern front : Text} (missing : c ∉ front) (s : Text) :
    (find (c :: pattern) (front ++ s)).isSome = (find (c :: pattern) s).isSome := by
  induction front with
  | nil => rfl
  | cons d front ih =>
    have differs : c ≠ d := List.ne_of_not_mem_cons missing
    have noPrefix : (c :: pattern).isPrefixOf (d :: (front ++ s)) = false := by
      simp [List.isPrefixOf, differs]
    rw [List.cons_append, find, if_neg (by simp [noPrefix]), Option.isSome_map,
      ih (List.not_mem_of_not_mem_cons missing)]

theorem makeDatetimeInfo_zoned {tzid : Text} (named : tzid ≠ []) (whole : byte ';' ∉ tzid)
    (noDate : find (text "VALUE=DATE") tzid = none) (time : Gregorian.DateTime) :
    makeDatetimeInfo (text "TZID=" ++ tzid) (dateTimeText time) =
      { timezone := tzid, value := dateTimeText time } := by
  have param : paramAfter (text "TZID=") (text "TZID=" ++ tzid) = some tzid := by
    rw [paramAfter, find_prefix (by decide), Option.map_some, Nat.zero_add, List.drop_left,
      List.takeWhile_eq_self_iff.mpr]
    intro c member
    simp only [bne_iff_ne, ne_eq]
    exact fun same => whole (same ▸ member)
  have noValue : (find (text "VALUE=DATE") (text "TZID=" ++ tzid)).isSome = false := by
    have skipped : (find (text "VALUE=DATE") (text "TZID=" ++ tzid)).isSome =
        (find (text "VALUE=DATE") tzid).isSome :=
      find_behind (show byte 'V' ∉ text "TZID=" by decide) tzid
    rw [skipped, noDate]
    rfl
  simp [makeDatetimeInfo, param, noValue, named, dateTimeText_last]

theorem makeDatetimeInfo_utc (time : Gregorian.DateTime) :
    makeDatetimeInfo [] (dateTimeText time ++ [byte 'Z']) =
      { isUtc := true, value := dateTimeText time ++ [byte 'Z'] } := by
  have noValue : find (text "VALUE=DATE") [] = none := by decide
  have noParam : paramAfter (text "TZID=") [] = none := by decide
  simp [makeDatetimeInfo, noValue, noParam]

/-- A value that begins with a valid time is read as it, whatever else is known of it. -/
theorem readWall_text {info : DatetimeInfo} {time : Gregorian.DateTime} (valid : time.Valid)
    (year : 0 ≤ time.year ∧ time.year ≤ 9999) {rest : Text} (value : info.value = dateTimeText time ++ rest) :
    readWall info = .ok (wallTm time) := by
  have long : info.value.length = 15 + rest.length := by rw [value, List.length_append, length_dateTimeText]
  rw [readWall, if_neg (by omega), if_pos (by omega), value]
  exact readDateTime_text valid year rest

section
variable {zone : SystemZone} (gregorian : ∀ tm, zone.mkgmtime tm = utcSeconds tm) {tz : TimezoneResolver}
  {time : Gregorian.DateTime} (valid : time.Valid)

include gregorian valid

theorem parseIcsDatetime_zoned {tzid : Text} {hours : Int} (named : tzid ≠ []) (whole : byte ';' ∉ tzid)
    (noDate : find (text "VALUE=DATE") tzid = none) (offset : offsetHours tz tzid = hours)
    (known : hours ≠ kUnknownOffset) (year : 0 ≤ time.year ∧ time.year ≤ 9999) :
    parseIcsDatetime zone tz (makeDatetimeInfo (text "TZID=" ++ tzid) (dateTimeText time)) =
      .ok (pointOf (time.seconds - hours * 3600)) := by
  have wall : readWall { timezone := tzid, value := dateTimeText time } = .ok (wallTm time) :=
    readWall_text valid year (List.append_nil _).symm
  rw [makeDatetimeInfo_zoned named whole noDate]
  simp only [parseIcsDatetime, wall, bind, Except.bind]
  simp [offset, known, named, gregorian, utcSeconds_wallTm valid, pure, Except.pure]

theorem parseIcsDatetime_utc (year : 0 ≤ time.year ∧ time.year ≤ 9999) :
    parseIcsDatetime zone tz (makeDatetimeInfo [] (dateTimeText time ++ [byte 'Z'])) =
      .ok (pointOf time.seconds) := by
  have wall : readWall { isUtc := true, value := dateTimeText time ++ [byte 'Z'] } = .ok (wallTm time) :=
    readWall_text valid year rfl
  rw [makeDatetimeInfo_utc]
  simp only [parseIcsDatetime, wall, bind, Except.bind]
  simp [gregorian, utcSeconds_wallTm valid, pure, Except.pure]

/-- A time in a zone that is ahead of UTC by whole hours is read as the UTC time that is those
hours earlier by the calendar. -/
theorem zoned_eq_utc {tzid : Text} {hours : Int} (named : tzid ≠ []) (whole : byte ';' ∉ tzid)
    (noDate : find (text "VALUE=DATE") tzid = none) (offset : offsetHours tz tzid = hours)
    (small : |hours| ≤ 100) (year : 1971 ≤ time.year ∧ time.year ≤ 2999) :
    ∃ tp, parseIcsDatetime zone tz (makeDatetimeInfo (text "TZID=" ++ tzid) (dateTimeText time)) = .ok tp ∧
      parseIcsDatetime zone tz
        (makeDatetimeInfo [] (dateTimeText (time.addHours (-hours)) ++ [byte 'Z'])) = .ok tp := by
  have known : hours ≠ kUnknownOffset := by
    rw [abs_le] at small
    simp only [kUnknownOffset, intMin]
    omega
  have shiftedYear := Gregorian.addDays_year valid.date
    (show |(time.hour + -hours) / 24| ≤ 28 by
      have inDay := valid.hour
      rw [abs_le] at small ⊢
      omega)
  have inRange : 0 ≤ (time.addHours (-hours)).year ∧ (time.addHours (-hours)).year ≤ 9999 := by
    rw [abs_le] at shiftedYear
    simp only [Gregorian.DateTime.addHours]
    omega
  refine ⟨_, parseIcsDatetime_zoned gregorian valid named whole noDate offset known (by omega), ?_⟩
  rw [parseIcsDatetime_utc gregorian (Gregorian.addHours_valid valid _) inRange,
    Gregorian.addHours_seconds valid, Int.neg_mul, ← Int.sub_eq_add_neg]

end

def firstOfMarch : Gregorian.DateTime := ⟨⟨2024, 3, 1⟩, 1, 30, 0⟩

/-- Half past one on the first of March in Moscow is still the leap day in UTC. -/
theorem zoned_eq_utc_leapDay :
    ∃ tp, parseIcsDatetime (.fixed 0) ∅
        (makeDatetimeInfo (text "TZID=" ++ text "Europe/Moscow") (text "20240301T013000")) = .ok tp ∧
      parseIcsDatetime (.fixed 0) ∅ (makeDatetimeInfo [] (text "20240229T223000" ++ [byte 'Z'])) = .ok tp := by
  have wall : text "20240301T013000" = dateTimeText firstOfMarch := by decide
  have utc : text "20240229T223000" = dateTimeText (firstOfMarch.addHours (-3)) := by decide
  have valid : firstOfMarch.Valid := ⟨⟨by decide, by decide⟩, by decide, by decide, by decide⟩
  have offset : offsetHours ∅ (text "Europe/Moscow") = 3 := by decide
  rw [wall, utc]
  exact zoned_eq_utc (fun _ => rfl) valid (by decide) (by decide) (by decide) offset (by decide) (by decide)

end DivoomDev.Ics.Instants
