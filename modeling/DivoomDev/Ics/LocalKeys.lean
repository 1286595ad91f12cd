import DivoomDev.Ics.Instants

/-! The local date-time as a key. In a zone of fixed offset the text of an instant reads back as
that instant, and instants that are a second apart have different texts. -/

namespace DivoomDev.Ics.LocalKeys
open DivoomDev.Library DivoomDev.Library.Bytes TextUtils Timezone Models Datetime Instants

/-! ## Writing -/

theorem digitChar_toUInt8 {d : Nat} (small : d < 10) : (Nat.digitChar d).toUInt8 = UInt8.ofNat (48 + d) := by
  have each : ∀ d < 10, (Nat.digitChar d).toUInt8 = UInt8.ofNat (48 + d) := by decide
  exact each d small

theorem decimal_fourDigits {n : Int} (range : 1000 ≤ n ∧ n ≤ 9999) :
    decimal n = twoDigits (n / 100) ++ twoDigits n := by
  obtain ⟨k, rfl⟩ := Int.eq_ofNat_of_zero_le (show 0 ≤ n by omega)
  have digits : Nat.toDigits 10 k =
      [Nat.digitChar (k / 10 / 10 / 10), Nat.digitChar (k / 10 / 10 % 10), Nat.digitChar (k / 10 % 10),
        Nat.digitChar (k % 10)] := by
    rw [Nat.toDigits_of_base_le (by decide) (by omega), Nat.toDigits_of_base_le (by decide) (by omega),
      Nat.toDigits_of_base_le (by decide) (by omega), Nat.toDigits_of_lt_base (by omega)]
    rfl
  have same (d : Nat) (value : Int) (small : d < 10) (last : value.toNat % 10 = d) :
      (Nat.digitChar d).toUInt8 = digit value := by
    rw [digitChar_toUInt8 small, digit, last]
  rw [decimal, if_neg (by omega), Int.natAbs_natCast, digits, twoDigits, twoDigits, List.nil_append,
    List.map_cons, List.map_cons, List.map_cons, List.map_singleton,
    same _ ((k : Int) / 100 / 10) (by omega) (by omega), same _ ((k : Int) / 100) (by omega) (by omega),
    same _ ((k : Int) / 10) (by omega) (by omega), same _ (k : Int) (by omega) (by omega)]
  rfl

theorem strftimeKey_utcTm {seconds : Int}
    (year : 1000 ≤ (Gregorian.timeOf seconds).year ∧ (Gregorian.timeOf seconds).year ≤ 9999) :
    strftimeKey (utcTm seconds) = dateTimeText (Gregorian.timeOf seconds) := by
  have sameYear : (utcTm seconds).tmYear + 1900 = (Gregorian.timeOf seconds).year := Int.sub_add_cancel _ _
  have sameMonth : (utcTm seconds).tmMon + 1 = (Gregorian.timeOf seconds).month := Int.sub_add_cancel _ _
  have sameSecond : (utcTm seconds).tmSec = (Gregorian.timeOf seconds).second := rfl
  rw [strftimeKey, sameYear, sameMonth, decimal_fourDigits year, dateTimeText]
  rfl

/-- The text is that of the local time, which fits the buffer. -/
theorem formatLocalDt_fixed {offset : Int} {tp : TimePoint}
    (year : 1000 ≤ (Gregorian.timeOf (toTimeT tp + offset)).year ∧
      (Gregorian.timeOf (toTimeT tp + offset)).year ≤ 9999) :
    formatLocalDt (.fixed offset) tp = dateTimeText (Gregorian.timeOf (toTimeT tp + offset)) := by
  have key : strftimeKey ((SystemZone.fixed offset).localtime (toTimeT tp)) =
      dateTimeText (Gregorian.timeOf (toTimeT tp + offset)) := strftimeKey_utcTm year
  rw [formatLocalDt, strftime, key, length_dateTimeText, if_pos (by decide)]

/-! ## Reading -/

theorem dateTimeText_injective {time other : Gregorian.DateTime} (valid : time.Valid) (validOther : other.Valid)
    (year : 0 ≤ time.year ∧ time.year ≤ 9999) (yearOther : 0 ≤ other.year ∧ other.year ≤ 9999)
    (same : dateTimeText time = dateTimeText other) : time = other := by
  have read := readDateTime_text valid year []
  rw [same, readDateTime_text validOther yearOther, Except.ok.injEq] at read
  obtain ⟨⟨y, m, d⟩, hour, minute, second⟩ := time
  obtain ⟨⟨y', m', d'⟩, hour', minute', second'⟩ := other
  simp only [wallTm, Tm.mk.injEq] at read
  simp only [Gregorian.DateTime.mk.injEq, Gregorian.Date.mk.injEq]
  omega

theorem makeDatetimeInfo_local (time : Gregorian.DateTime) :
    makeDatetimeInfo [] (dateTimeText time) = { value := dateTimeText time } := by
  have noValue : find (text "VALUE=DATE") [] = none := by decide
  have noParam : paramAfter (text "TZID=") [] = none := by decide
  simp [makeDatetimeInfo, noValue, noParam, dateTimeText_last, length_dateTimeText]

theorem parseIcsDatetime_local {offset : Int} (tz : TimezoneResolver) {time : Gregorian.DateTime}
    (valid : time.Valid) (year : 0 ≤ time.year ∧ time.year ≤ 9999) :
    parseIcsDatetime (.fixed offset) tz (makeDatetimeInfo [] (dateTimeText time)) =
      .ok (pointOf (time.seconds - offset)) := by
  have wall : readWall { value := dateTimeText time } = .ok (wallTm time) :=
    readWall_text valid year (List.append_nil _).symm
  rw [makeDatetimeInfo_local]
  simp only [parseIcsDatetime, wall, bind, Except.bind]
  simp [SystemZone.fixed, utcSeconds_wallTm valid, pure, Except.pure]

/-! ## Instants and their keys -/

/-- The local year of the instant, in the years that a key is looked at for. -/
def InYears (zone : SystemZone) (tp : TimePoint) : Prop :=
  1971 ≤ (zone.localtime (toTimeT tp)).tmYear + 1900 ∧ (zone.localtime (toTimeT tp)).tmYear + 1900 ≤ 2999

instance (zone : SystemZone) : DecidablePred (InYears zone) := fun _ => inferInstanceAs (Decidable (_ ∧ _))

def startOf1971 : Int := 365 * 86400

theorem startOf1971_le {time : Gregorian.DateTime} (valid : time.Valid) (year : 1971 ≤ time.year) :
    startOf1971 ≤ time.seconds := by
  have days := Gregorian.yearStart_le_days valid.date year
  have first : Gregorian.daysFromCivil 1971 1 1 = 365 := by decide
  obtain ⟨_, hour, minute, second⟩ := valid
  simp only [startOf1971, Gregorian.DateTime.seconds]
  omega

section
variable {offset : Int}

theorem inYears_fixed (tp : TimePoint) : InYears (.fixed offset) tp ↔
    1971 ≤ (Gregorian.timeOf (toTimeT tp + offset)).year ∧
      (Gregorian.timeOf (toTimeT tp + offset)).year ≤ 2999 := by
  have sameYear : ((SystemZone.fixed offset).localtime (toTimeT tp)).tmYear + 1900 =
      (Gregorian.timeOf (toTimeT tp + offset)).year := Int.sub_add_cancel _ _
  rw [InYears, sameYear]

theorem formatLocalDt_inYears {tp : TimePoint} (inYears : InYears (.fixed offset) tp) :
    formatLocalDt (.fixed offset) tp = dateTimeText (Gregorian.timeOf (toTimeT tp + offset)) := by
  rw [inYears_fixed] at inYears
  exact formatLocalDt_fixed (by omega)

-- no zone is a year ahead of UTC
variable (near : offset < startOf1971)

include near

theorem format_parse_local (tz : TimezoneResolver) {time : Gregorian.DateTime} (regular : time.Regular)
    (year : 1971 ≤ time.year ∧ time.year ≤ 2999) :
    ∃ tp, parseIcsDatetime (.fixed offset) tz (makeDatetimeInfo [] (dateTimeText time)) = .ok tp ∧
      formatLocalDt (.fixed offset) tp = dateTimeText time := by
  have late := startOf1971_le regular.valid year.1
  have noFailure : time.seconds - offset ≠ -1 := by omega
  have back : Gregorian.timeOf (toTimeT (fromTimeT (time.seconds - offset)) + offset) = time := by
    rw [toTimeT_fromTimeT, Int.sub_add_cancel, Gregorian.seconds_timeOf regular]
  refine ⟨_, parseIcsDatetime_local tz regular.valid (by omega), ?_⟩
  rw [pointOf, if_neg noFailure, formatLocalDt_fixed (by rw [back]; omega), back]

/-- Behind the epoch `to_time_t` rounds down. -/
theorem toTimeT_inYears {tp : TimePoint} (inYears : InYears (.fixed offset) tp) :
    toTimeT tp = tp / ticksPerSecond := by
  have late := startOf1971_le (Gregorian.timeOf_regular (toTimeT tp + offset)).valid
    ((inYears_fixed tp).mp inYears).1
  rw [Gregorian.timeOf_seconds] at late
  have positive : (0 : Int) ≤ tp := by
    by_contra before
    have negative := Int.tdiv_nonneg (show (0 : Int) ≤ -tp by omega) (show 0 ≤ ticksPerSecond by decide)
    rw [Int.neg_tdiv, ← toTimeT] at negative
    omega
  exact Int.tdiv_eq_ediv_of_nonneg positive

theorem formatLocalDt_apart {a b : TimePoint} (inYears : InYears (.fixed offset) a)
    (inYearsOther : InYears (.fixed offset) b) (apart : ticksPerSecond ≤ |a - b|) :
    formatLocalDt (.fixed offset) a ≠ formatLocalDt (.fixed offset) b := by
  intro same
  rw [formatLocalDt_inYears inYears, formatLocalDt_inYears inYearsOther] at same
  have year := (inYears_fixed a).mp inYears
  have yearOther := (inYears_fixed b).mp inYearsOther
  have time := dateTimeText_injective (Gregorian.timeOf_regular _).valid (Gregorian.timeOf_regular _).valid
    (by omega) (by omega) same
  have seconds := congrArg Gregorian.DateTime.seconds time
  rw [Gregorian.timeOf_seconds, Gregorian.timeOf_seconds, toTimeT_inYears near inYears,
    toTimeT_inYears near inYearsOther] at seconds
  simp only [ticksPerSecond, le_abs] at *
  omega

/-- A valid local time comes back from its instant, instants that are a second apart have
different keys, and so of such instants a key names one at most. -/
theorem localKey_roundTrip (tz : TimezoneResolver) :
    (∀ time : Gregorian.DateTime, time.Regular → 1971 ≤ time.year ∧ time.year ≤ 2999 →
      ∃ tp, parseIcsDatetime (.fixed offset) tz (makeDatetimeInfo [] (dateTimeText time)) = .ok tp ∧
        formatLocalDt (.fixed offset) tp = dateTimeText time) ∧
    (∀ a b, InYears (.fixed offset) a → InYears (.fixed offset) b → ticksPerSecond ≤ |a - b| →
      formatLocalDt (.fixed offset) a ≠ formatLocalDt (.fixed offset) b) ∧
    (∀ key (starts : List TimePoint), (∀ tp ∈ starts, InYears (.fixed offset) tp) →
      starts.Pairwise (fun a b => ticksPerSecond ≤ |a - b|) →
      (starts.filter (fun tp => formatLocalDt (.fixed offset) tp = key)).length ≤ 1) := by
  refine ⟨fun time regular year => format_parse_local near tz regular year,
    fun a b inYears inYearsOther apart => formatLocalDt_apart near inYears inYearsOther apart, ?_⟩
  intro key starts inYears apart
  have named := apart.filter (fun tp => decide (formatLocalDt (.fixed offset) tp = key))
  have member (tp : TimePoint) (inside : tp ∈ starts.filter (fun tp => formatLocalDt (.fixed offset) tp = key)) :
      InYears (.fixed offset) tp ∧ formatLocalDt (.fixed offset) tp = key := by
    obtain ⟨inStarts, isKey⟩ := List.mem_filter.mp inside
    exact ⟨inYears tp inStarts, of_decide_eq_true isKey⟩
  match found : starts.filter (fun tp => formatLocalDt (.fixed offset) tp = key) with
  | [] => exact Nat.zero_le 1
  | [_] => exact Nat.le_refl 1
  | a :: b :: rest =>
    rw [found] at named member
    obtain ⟨inYearsA, isKeyA⟩ := member a List.mem_cons_self
    obtain ⟨inYearsB, isKeyB⟩ := member b (List.mem_cons_of_mem a List.mem_cons_self)
    have far := (List.pairwise_cons.mp named).1 b List.mem_cons_self
    exact absurd (isKeyA.trans isKeyB.symm) (formatLocalDt_apart near inYearsA inYearsB far)

end

/-- The last second of a leap day in Moscow. -/
theorem localKey_roundTrip_leapDay :
    ∃ tp, parseIcsDatetime (.fixed 10800) ∅ (makeDatetimeInfo [] (text "20280229T235959")) = .ok tp ∧
      formatLocalDt (.fixed 10800) tp = text "20280229T235959" := by
  have written : text "20280229T235959" = dateTimeText ⟨⟨2028, 2, 29⟩, 23, 59, 59⟩ := by decide
  rw [written]
  exact (localKey_roundTrip (show 10800 < startOf1971 by decide) ∅).1 _
    ⟨⟨⟨by decide, by decide⟩, by decide, by decide, by decide⟩, by decide⟩ (by decide)

end DivoomDev.Ics.LocalKeys
