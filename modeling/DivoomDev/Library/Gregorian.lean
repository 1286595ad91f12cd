import Mathlib

/-! Day counts in the proleptic Gregorian calendar, with 1970-01-01 as day zero. A year
starts in March here, which puts the leap day at its end. -/

namespace DivoomDev.Library.Gregorian

/-- The day number of a civil date. The month is 1 to 12; the day may lie outside its
month, and then counts on from the month's first day. -/
def daysFromCivil (year month day : Int) : Int :=
  let y := if month ≤ 2 then year - 1 else year
  let era := y / 400
  let yearOfEra := y - era * 400
  let monthOfYear := if 2 < month then month - 3 else month + 9
  let dayOfYear := (153 * monthOfYear + 2) / 5 + day - 1
  let dayOfEra := yearOfEra * 365 + yearOfEra / 4 - yearOfEra / 100 + dayOfYear
  era * 146097 + dayOfEra - 719468

def civilFromDays (days : Int) : Int × Int × Int :=
  let z := days + 719468
  let era := z / 146097
  let dayOfEra := z - era * 146097
  let yearOfEra := (dayOfEra - dayOfEra / 1460 + dayOfEra / 36524 - dayOfEra / 146096) / 365
  let dayOfYear := dayOfEra - (365 * yearOfEra + yearOfEra / 4 - yearOfEra / 100)
  let monthOfYear := (5 * dayOfYear + 2) / 153
  let day := dayOfYear - (153 * monthOfYear + 2) / 5 + 1
  let month := if monthOfYear < 10 then monthOfYear + 3 else monthOfYear - 9
  (if month ≤ 2 then yearOfEra + era * 400 + 1 else yearOfEra + era * 400, month, day)

def isLeapYear (year : Int) : Prop := year % 4 = 0 ∧ (year % 100 ≠ 0 ∨ year % 400 = 0)

instance : DecidablePred isLeapYear := fun _ => inferInstanceAs (Decidable (_ ∧ _))

def weekday (days : Int) : Int := (days + 4) % 7

/-- The seconds from the epoch to a wall-clock reading. A month outside 0 to 11 carries
into the year, and the other fields carry as far as they reach. -/
def wallSeconds (year month0 day hour minute second : Int) : Int :=
  daysFromCivil (year + month0 / 12) (month0 % 12 + 1) day * 86400 +
    hour * 3600 + minute * 60 + second

/-! ## From a day number and back -/

theorem dayOfYear_bounds {dayOfEra year : Int} (low : 0 ≤ dayOfEra) (high : dayOfEra ≤ 146096)
    (isYear : year = (dayOfEra - dayOfEra / 1460 + dayOfEra / 36524 - dayOfEra / 146096) / 365) :
    0 ≤ dayOfEra - (365 * year + year / 4 - year / 100) ∧
      dayOfEra - (365 * year + year / 4 - year / 100) ≤ 365 := by
  have century : dayOfEra / 36524 = 0 ∨ dayOfEra / 36524 = 1 ∨ dayOfEra / 36524 = 2 ∨
      dayOfEra / 36524 = 3 ∨ dayOfEra / 36524 = 4 := by omega
  rcases century with c | c | c | c | c
  · have : year / 100 = 0 := by omega
    omega
  · have : year / 100 = 1 := by omega
    omega
  · have : year / 100 = 2 := by omega
    omega
  · have : year / 100 = 3 := by omega
    omega
  · -- the last day of an era, which belongs to its last century
    have : year / 100 = 3 := by omega
    omega

/-- The year that has a day more is the one that ends in February of a leap year. -/
theorem dayOfYear_last {dayOfEra year : Int} (low : 0 ≤ dayOfEra) (high : dayOfEra ≤ 146096)
    (isYear : year = (dayOfEra - dayOfEra / 1460 + dayOfEra / 36524 - dayOfEra / 146096) / 365)
    (last : dayOfEra - (365 * year + year / 4 - year / 100) = 365) : isLeapYear (year + 1) := by
  unfold isLeapYear
  have century : dayOfEra / 36524 = 0 ∨ dayOfEra / 36524 = 1 ∨ dayOfEra / 36524 = 2 ∨
      dayOfEra / 36524 = 3 ∨ dayOfEra / 36524 = 4 := by omega
  have inCentury : (dayOfEra / 36524 = year / 100 ∧ dayOfEra / 146096 = 0) ∨ dayOfEra = 146096 := by
    rcases century with c | c | c | c | c <;> omega
  rcases inCentury with ⟨hundred, inEra⟩ | atEnd
  · rw [hundred, inEra] at isYear
    have inYears : 0 ≤ year ∧ year ≤ 399 := by omega
    have fourth : year % 4 = 3 := by
      -- in the other years the last day lies before the next quotient by 1460
      by_contra other
      have isDay : dayOfEra = 1461 * (year / 4) + 365 * (year % 4 + 1) - year / 100 := by omega
      have quotient : dayOfEra / 1460 ≤ year / 4 := by omega
      omega
    omega
  · subst atEnd
    omega

theorem daysFromCivil_march {era yearOfEra monthOfYear month year : Int} (day : Int)
    (inEra : 0 ≤ yearOfEra ∧ yearOfEra < 400) (inYear : 0 ≤ monthOfYear ∧ monthOfYear ≤ 11)
    (isMonth : month = if monthOfYear < 10 then monthOfYear + 3 else monthOfYear - 9)
    (isYear : year = if month ≤ 2 then yearOfEra + era * 400 + 1 else yearOfEra + era * 400) :
    daysFromCivil year month day = era * 146097 +
      (yearOfEra * 365 + yearOfEra / 4 - yearOfEra / 100 +
        ((153 * monthOfYear + 2) / 5 + day - 1)) - 719468 := by
  have shifted : (if month ≤ 2 then year - 1 else year) = yearOfEra + era * 400 := by
    rw [isYear]
    split_ifs <;> omega
  have back : (if 2 < month then month - 3 else month + 9) = monthOfYear := by
    rw [isMonth]
    split_ifs <;> omega
  have sameEra : (yearOfEra + era * 400) / 400 = era := by omega
  simp only [daysFromCivil, shifted, back, sameEra, Int.add_sub_cancel]

/-- A day number splits into its era, the year of the era, the day of the year and the month,
both counted from March. -/
theorem civilFromDays_march (days : Int) : ∃ era yearOfEra dayOfYear monthOfYear month year : Int,
    (0 ≤ yearOfEra ∧ yearOfEra < 400) ∧ (0 ≤ dayOfYear ∧ dayOfYear ≤ 365) ∧
    (dayOfYear = 365 → isLeapYear (yearOfEra + 1)) ∧ monthOfYear = (5 * dayOfYear + 2) / 153 ∧
    (month = if monthOfYear < 10 then monthOfYear + 3 else monthOfYear - 9) ∧
    (year = if month ≤ 2 then yearOfEra + era * 400 + 1 else yearOfEra + era * 400) ∧
    civilFromDays days = (year, month, dayOfYear - (153 * monthOfYear + 2) / 5 + 1) ∧
    days = era * 146097 + (yearOfEra * 365 + yearOfEra / 4 - yearOfEra / 100 + dayOfYear) - 719468 := by
  simp only [civilFromDays]
  obtain ⟨dayOfEra, isDay⟩ : ∃ d, d = days + 719468 - (days + 719468) / 146097 * 146097 := ⟨_, rfl⟩
  have low : 0 ≤ dayOfEra := by omega
  have high : dayOfEra ≤ 146096 := by omega
  simp only [← isDay]
  obtain ⟨year, isYear⟩ : ∃ y,
      y = (dayOfEra - dayOfEra / 1460 + dayOfEra / 36524 - dayOfEra / 146096) / 365 := ⟨_, rfl⟩
  have inYear := dayOfYear_bounds low high isYear
  have last := dayOfYear_last low high isYear
  have inEra : 0 ≤ year ∧ year < 400 := by omega
  simp only [← isYear]
  obtain ⟨dayOfYear, isDayOfYear⟩ : ∃ d, d = dayOfEra - (365 * year + year / 4 - year / 100) := ⟨_, rfl⟩
  simp only [← isDayOfYear] at inYear last ⊢
  exact ⟨(days + 719468) / 146097, year, dayOfYear, _, _, _, inEra, inYear, last, rfl, rfl, rfl, rfl,
    by omega⟩

theorem daysFromCivil_civilFromDays (days : Int) :
    daysFromCivil (civilFromDays days).1 (civilFromDays days).2.1 (civilFromDays days).2.2 = days := by
  obtain ⟨_, _, _, _, _, _, inEra, inYear, _, isMonthOfYear, isMonth, isYear, civil, same⟩ :=
    civilFromDays_march days
  rw [civil, daysFromCivil_march _ inEra (by omega) isMonth isYear]
  dsimp only
  omega

theorem civilFromDays_month (days : Int) : 1 ≤ (civilFromDays days).2.1 ∧ (civilFromDays days).2.1 ≤ 12 := by
  obtain ⟨_, _, _, _, _, _, _, inYear, _, isMonthOfYear, isMonth, _, civil, _⟩ := civilFromDays_march days
  rw [civil]
  dsimp only
  split_ifs at isMonth <;> omega

/-! ## Months in order -/

theorem daysFromCivil_nextMonth (year day : Int) {month : Int} (low : 1 ≤ month) (high : month ≤ 11) :
    daysFromCivil year month day + 28 ≤ daysFromCivil year (month + 1) day := by
  unfold daysFromCivil
  dsimp only
  split_ifs <;> omega

theorem daysFromCivil_nextYear (year day : Int) :
    daysFromCivil year 12 day + 28 ≤ daysFromCivil (year + 1) 1 day := by
  simp only [daysFromCivil]
  omega

theorem wallSeconds_nextMonth (year month0 day hour minute second : Int) :
    wallSeconds year month0 day hour minute second + 28 * 86400 ≤
      wallSeconds year (month0 + 1) day hour minute second := by
  have days : daysFromCivil (year + month0 / 12) (month0 % 12 + 1) day + 28 ≤
      daysFromCivil (year + (month0 + 1) / 12) ((month0 + 1) % 12 + 1) day := by
    by_cases december : month0 % 12 = 11
    · have carried : (month0 + 1) / 12 = month0 / 12 + 1 := by omega
      have january : (month0 + 1) % 12 = 0 := by omega
      rw [carried, january, december, ← Int.add_assoc]
      exact daysFromCivil_nextYear _ _
    · have sameYear : (month0 + 1) / 12 = month0 / 12 := by omega
      have next : (month0 + 1) % 12 = month0 % 12 + 1 := by omega
      rw [sameYear, next]
      exact daysFromCivil_nextMonth _ _ (by omega) (by omega)
  simp only [wallSeconds]
  omega

/-- Months later, a wall-clock reading is at least 28 days later for each of them. -/
theorem wallSeconds_months (year month0 day hour minute second : Int) (months : Nat) :
    wallSeconds year month0 day hour minute second + months * (28 * 86400) ≤
      wallSeconds year (month0 + months) day hour minute second := by
  induction months with
  | zero => simp
  | succ months ih =>
    have next := wallSeconds_nextMonth year (month0 + months) day hour minute second
    have same : month0 + ((months + 1 : Nat) : Int) = month0 + months + 1 := by omega
    rw [same]
    omega

/-! ## Dates -/

/-- How many days a month has, from January at 1. -/
def daysInMonth (year month : Int) : Int :=
  if month = 2 then if isLeapYear year then 29 else 28
  else if month = 4 ∨ month = 6 ∨ month = 9 ∨ month = 11 then 30 else 31

/-- The first day of a month counted from January of the year zero. -/
def monthStart (index : Int) : Int := daysFromCivil (index / 12) (index % 12 + 1) 1

theorem daysFromCivil_day (year month day : Int) :
    daysFromCivil year month day = daysFromCivil year month 1 + (day - 1) := by
  simp only [daysFromCivil]
  omega

theorem daysInMonth_bounds (year month : Int) : 28 ≤ daysInMonth year month ∧ daysInMonth year month ≤ 31 := by
  unfold daysInMonth
  split_ifs <;> omega

theorem daysInMonth_pos (year month : Int) : 1 ≤ daysInMonth year month :=
  le_trans (by decide) (daysInMonth_bounds year month).1

/-- The lengths of the months from March on, of which February is the last. -/
theorem daysInMonth_march (year : Int) {monthOfYear month : Int} (range : 0 ≤ monthOfYear ∧ monthOfYear ≤ 10)
    (isMonth : month = if monthOfYear < 10 then monthOfYear + 3 else monthOfYear - 9) :
    daysInMonth year month = (153 * (monthOfYear + 1) + 2) / 5 - (153 * monthOfYear + 2) / 5 := by
  obtain ⟨low, high⟩ := range
  subst isMonth
  interval_cases monthOfYear <;> simp [daysInMonth]

theorem daysFromCivil_nextMonth_eq (year : Int) {month : Int} (low : 1 ≤ month) (high : month ≤ 11) :
    daysFromCivil year (month + 1) 1 = daysFromCivil year month 1 + daysInMonth year month := by
  rcases lt_trichotomy month 2 with before | rfl | behind
  · obtain rfl : month = 1 := by omega
    simp [daysFromCivil, daysInMonth]
    omega
  · simp only [daysFromCivil, daysInMonth, isLeapYear]
    split_ifs <;> omega
  · have march : month = if month - 3 < 10 then month - 3 + 3 else month - 3 - 9 := by
      rw [if_pos (by omega), Int.sub_add_cancel]
    have sameYear : ¬month ≤ 2 := by omega
    have nextYear : ¬month + 1 ≤ 2 := by omega
    have next : 2 < month + 1 := by omega
    rw [daysInMonth_march year (show 0 ≤ month - 3 ∧ month - 3 ≤ 10 by omega) march]
    simp only [daysFromCivil, if_neg sameYear, if_neg nextYear, if_pos next, if_pos behind]
    omega

theorem daysFromCivil_nextYear_eq (year : Int) :
    daysFromCivil (year + 1) 1 1 = daysFromCivil year 12 1 + 31 := by
  simp only [daysFromCivil]
  norm_num
  omega

theorem monthStart_next (index : Int) :
    monthStart (index + 1) = monthStart index + daysInMonth (index / 12) (index % 12 + 1) := by
  unfold monthStart
  by_cases december : index % 12 = 11
  · have carried : (index + 1) / 12 = index / 12 + 1 := by omega
    have january : (index + 1) % 12 = 0 := by omega
    rw [carried, january, december]
    exact daysFromCivil_nextYear_eq _
  · have sameYear : (index + 1) / 12 = index / 12 := by omega
    have next : (index + 1) % 12 = index % 12 + 1 := by omega
    rw [sameYear, next]
    exact daysFromCivil_nextMonth_eq _ (by omega) (by omega)

theorem monthStart_lt {index later : Int} (before : index < later) :
    monthStart index + daysInMonth (index / 12) (index % 12 + 1) ≤ monthStart later := by
  obtain ⟨n, rfl⟩ : ∃ n : Nat, later = index + 1 + n := ⟨(later - index - 1).toNat, by omega⟩
  clear before
  induction n with
  | zero => 
    rw [← monthStart_next]
    simp
  | succ n ih =>
    have next := monthStart_next (index + 1 + n)
    have long := daysInMonth_bounds ((index + 1 + n) / 12) ((index + 1 + n) % 12 + 1)
    have same : index + 1 + ((n + 1 : Nat) : Int) = index + 1 + n + 1 := by omega
    rw [same]
    omega

theorem monthStart_gap {index later : Int} (before : index < later) :
    monthStart index + 28 ≤ monthStart later := calc
  monthStart index + 28 ≤ monthStart index + daysInMonth (index / 12) (index % 12 + 1) :=
    Int.add_le_add_left (daysInMonth_bounds _ _).1 _
  _ ≤ monthStart later := monthStart_lt before

theorem monthStart_mono {index later : Int} (le : index ≤ later) : monthStart index ≤ monthStart later := by
  rcases le.eq_or_lt with rfl | before
  · rfl
  · have gap := monthStart_gap before
    omega

/-! ## Valid dates -/

structure Date where
  year : Int
  month : Int
  day : Int
  deriving DecidableEq, Repr

structure Date.Valid (date : Date) : Prop where
  month : 1 ≤ date.month ∧ date.month ≤ 12
  day : 1 ≤ date.day ∧ date.day ≤ daysInMonth date.year date.month

/-- The day number. -/
def Date.days (date : Date) : Int := daysFromCivil date.year date.month date.day

/-- The year and the month of an index that is made of them. -/
theorem monthIndex_split (year : Int) {month0 : Int} (inYear : 0 ≤ month0 ∧ month0 ≤ 11) :
    (12 * year + month0) / 12 = year ∧ (12 * year + month0) % 12 = month0 := by
  omega

theorem days_eq_monthStart {date : Date} (month : 1 ≤ date.month ∧ date.month ≤ 12) :
    date.days = monthStart (12 * date.year + (date.month - 1)) + (date.day - 1) := by
  obtain ⟨sameYear, sameMonth⟩ :=
    monthIndex_split date.year (show 0 ≤ date.month - 1 ∧ date.month - 1 ≤ 11 by omega)
  rw [Date.days, daysFromCivil_day, monthStart, sameYear, sameMonth, Int.sub_add_cancel]

theorem days_in_month {date : Date} (valid : date.Valid) :
    monthStart (12 * date.year + (date.month - 1)) ≤ date.days ∧
      ∀ index, 12 * date.year + (date.month - 1) < index → date.days < monthStart index := by
  obtain ⟨month, ⟨low, high⟩⟩ := valid
  rw [days_eq_monthStart month]
  apply And.intro
  · omega
  · intro index later
    have ends := monthStart_lt later
    obtain ⟨sameYear, sameMonth⟩ :=
      monthIndex_split date.year (show 0 ≤ date.month - 1 ∧ date.month - 1 ≤ 11 by omega)
    rw [sameYear, sameMonth, Int.sub_add_cancel] at ends
    omega

/-- A day has one date. -/
theorem days_injective {date other : Date} (valid : date.Valid) (validOther : other.Valid)
    (same : date.days = other.days) : date = other := by
  obtain ⟨from', until'⟩ := days_in_month valid
  obtain ⟨fromOther, untilOther⟩ := days_in_month validOther
  have sameMonth : 12 * date.year + (date.month - 1) = 12 * other.year + (other.month - 1) := by
    rcases lt_trichotomy (12 * date.year + (date.month - 1)) (12 * other.year + (other.month - 1)) with
      before | equal | behind
    · have := until' _ before
      omega
    · exact equal
    · have := untilOther _ behind
      omega
  have months := valid.month
  have monthsOther := validOther.month
  have year : date.year = other.year := by omega
  have month : date.month = other.month := by omega
  rw [Date.days, Date.days, daysFromCivil_day, daysFromCivil_day other.year, year, month] at same
  have day : date.day = other.day := by omega
  cases date
  cases other
  simp_all

/-! ## Neighbouring days -/

def Date.next (date : Date) : Date :=
  if date.day < daysInMonth date.year date.month then { date with day := date.day + 1 }
  else if date.month < 12 then ⟨date.year, date.month + 1, 1⟩
  else ⟨date.year + 1, 1, 1⟩

def Date.previous (date : Date) : Date :=
  if 1 < date.day then { date with day := date.day - 1 }
  else if 1 < date.month then ⟨date.year, date.month - 1, daysInMonth date.year (date.month - 1)⟩
  else ⟨date.year - 1, 12, daysInMonth (date.year - 1) 12⟩

theorem next_valid {date : Date} (valid : date.Valid) : date.next.Valid := by
  obtain ⟨⟨first, last⟩, ⟨low, high⟩⟩ := valid
  unfold Date.next
  split_ifs with inMonth inYear
  · exact ⟨⟨first, last⟩, ⟨by dsimp only; omega, by dsimp only; omega⟩⟩
  · exact ⟨⟨by dsimp only; omega, by dsimp only; omega⟩, ⟨le_rfl, daysInMonth_pos _ _⟩⟩
  · exact ⟨⟨le_rfl, show (1 : Int) ≤ 12 by norm_num⟩, ⟨le_rfl, daysInMonth_pos _ _⟩⟩

theorem days_next {date : Date} (valid : date.Valid) : date.next.days = date.days + 1 := by
  obtain ⟨⟨first, last⟩, ⟨low, high⟩⟩ := valid
  unfold Date.next
  split_ifs with inMonth inYear
  · simp only [Date.days]
    rw [daysFromCivil_day, daysFromCivil_day date.year date.month date.day]
    omega
  · have month := daysFromCivil_nextMonth_eq date.year first (by omega)
    simp only [Date.days]
    rw [month, daysFromCivil_day date.year date.month date.day]
    omega
  · have december : date.month = 12 := by omega
    have whole : daysInMonth date.year 12 = 31 := by simp [daysInMonth]
    simp only [Date.days]
    rw [december] at inMonth high ⊢
    rw [daysFromCivil_nextYear_eq, daysFromCivil_day date.year 12 date.day]
    omega

theorem previous_valid {date : Date} (valid : date.Valid) : date.previous.Valid := by
  obtain ⟨⟨first, last⟩, ⟨low, high⟩⟩ := valid
  unfold Date.previous
  split_ifs with inMonth inYear
  · exact ⟨⟨first, last⟩, ⟨by dsimp only; omega, by dsimp only; omega⟩⟩
  · exact ⟨⟨by dsimp only; omega, by dsimp only; omega⟩, ⟨daysInMonth_pos _ _, le_rfl⟩⟩
  · exact ⟨⟨show (1 : Int) ≤ 12 by norm_num, le_rfl⟩, ⟨daysInMonth_pos (date.year - 1) 12, le_rfl⟩⟩

theorem next_previous {date : Date} (valid : date.Valid) : date.previous.next = date := by
  obtain ⟨⟨first, last⟩, ⟨low, high⟩⟩ := valid
  obtain ⟨year, month, day⟩ := date
  simp only [Date.previous] at *
  split_ifs with inMonth inYear
  · rw [Date.next, if_pos (by dsimp only; omega), Int.sub_add_cancel]
  · have monthBegins : day = 1 := by omega
    rw [Date.next, if_neg (by simp), if_pos (by dsimp only; omega), Int.sub_add_cancel, monthBegins]
  · have yearBegins : month = 1 ∧ day = 1 := by omega
    rw [Date.next, if_neg (by simp), if_neg (by simp), Int.sub_add_cancel, yearBegins.1, yearBegins.2]

theorem days_previous {date : Date} (valid : date.Valid) : date.previous.days = date.days - 1 := by
  have forth := days_next (previous_valid valid)
  rw [next_previous valid] at forth
  omega

def Date.addDays (date : Date) : Int → Date
  | .ofNat n => Date.next^[n] date
  | .negSucc n => Date.previous^[n + 1] date

/-- Counting days forward or backward by carries adds to the day number. -/
theorem addDays_spec {date : Date} (valid : date.Valid) (days : Int) :
    (date.addDays days).Valid ∧ (date.addDays days).days = date.days + days := by
  have forward (n : Nat) : (Date.next^[n] date).Valid ∧ (Date.next^[n] date).days = date.days + n := by
    induction n with
    | zero => exact ⟨valid, by simp⟩
    | succ n ih =>
      rw [Function.iterate_succ_apply']
      refine ⟨next_valid ih.1, ?_⟩
      rw [days_next ih.1, ih.2]
      omega
  have backward (n : Nat) :
      (Date.previous^[n] date).Valid ∧ (Date.previous^[n] date).days = date.days - n := by
    induction n with
    | zero => exact ⟨valid, by simp⟩
    | succ n ih =>
      rw [Function.iterate_succ_apply']
      refine ⟨previous_valid ih.1, ?_⟩
      rw [days_previous ih.1, ih.2]
      omega
  cases days with
  | ofNat n => exact forward n
  | negSucc n =>
    refine ⟨(backward (n + 1)).1, ?_⟩
    rw [Date.addDays, (backward (n + 1)).2]
    omega

/-- Over fewer days than a month has, the year changes by one at most. -/
theorem addDays_year {date : Date} (valid : date.Valid) {days : Int} (few : |days| ≤ 28) :
    |(date.addDays days).year - date.year| ≤ 1 := by
  obtain ⟨validAdded, added⟩ := addDays_spec valid days
  -- a year further than the next one, and a whole year of days would lie between
  have apart {first second : Date} (validFirst : first.Valid) (validSecond : second.Valid)
      (far : first.year + 1 < second.year) : first.days + 28 < second.days := by
    have firstMonth := validFirst.month
    have secondMonth := validSecond.month
    have ends := (days_in_month validFirst).2 (12 * (first.year + 1)) (by omega)
    calc first.days + 28 < monthStart (12 * (first.year + 1)) + 28 := by omega
      _ ≤ monthStart (12 * (first.year + 2)) := monthStart_gap (by omega)
      _ ≤ monthStart (12 * second.year + (second.month - 1)) := monthStart_mono (by omega)
      _ ≤ second.days := (days_in_month validSecond).1
  rw [abs_le] at few ⊢
  apply And.intro
  · by_contra early
    have far := apart validAdded valid (by omega)
    omega
  · by_contra late
    have far := apart valid validAdded (by omega)
    omega

/-! ## Dates of day numbers -/

def dateOf (days : Int) : Date :=
  let civil := civilFromDays days
  ⟨civil.1, civil.2.1, civil.2.2⟩

theorem dateOf_valid (days : Int) : (dateOf days).Valid := by
  refine ⟨civilFromDays_month days, ?_⟩
  obtain ⟨era, yearOfEra, dayOfYear, monthOfYear, month, year, _, inYear, last, isMonthOfYear, isMonth,
    isYear, civil, _⟩ := civilFromDays_march days
  simp only [dateOf, civil]
  have range : 0 ≤ monthOfYear ∧ monthOfYear ≤ 11 := by omega
  by_cases february : monthOfYear = 11
  · obtain rfl : month = 2 := by omega
    obtain rfl : year = yearOfEra + era * 400 + 1 := by omega
    have leap : isLeapYear (yearOfEra + 1) → isLeapYear (yearOfEra + era * 400 + 1) := by
      unfold isLeapYear
      omega
    simp only [daysInMonth, if_true]
    split_ifs with leaps
    · omega
    · have short : dayOfYear ≠ 365 := fun isLast => leaps (leap (last isLast))
      omega
  · rw [daysInMonth_march _ (show 0 ≤ monthOfYear ∧ monthOfYear ≤ 10 by omega) isMonth]
    omega

theorem dateOf_days {date : Date} (valid : date.Valid) : dateOf date.days = date :=
  days_injective (dateOf_valid _) valid (daysFromCivil_civilFromDays _)

/-! ## Times of day -/

structure DateTime extends Date where
  hour : Int
  minute : Int
  second : Int
  deriving DecidableEq, Repr

/-- A wall-clock time, with the second 60 where a leap second is. -/
structure DateTime.Valid (time : DateTime) : Prop where
  date : time.toDate.Valid
  hour : 0 ≤ time.hour ∧ time.hour ≤ 23
  minute : 0 ≤ time.minute ∧ time.minute ≤ 59
  second : 0 ≤ time.second ∧ time.second ≤ 60

def DateTime.seconds (time : DateTime) : Int :=
  time.toDate.days * 86400 + time.hour * 3600 + time.minute * 60 + time.second

def DateTime.addHours (time : DateTime) (hours : Int) : DateTime where
  toDate := time.toDate.addDays ((time.hour + hours) / 24)
  hour := (time.hour + hours) % 24
  minute := time.minute
  second := time.second

theorem addHours_valid {time : DateTime} (valid : time.Valid) (hours : Int) : (time.addHours hours).Valid where
  date := (addDays_spec valid.date _).1
  hour := by
    simp only [DateTime.addHours]
    omega
  minute := valid.minute
  second := valid.second

theorem addHours_seconds {time : DateTime} (valid : time.Valid) (hours : Int) :
    (time.addHours hours).seconds = time.seconds + hours * 3600 := by
  have days := (addDays_spec valid.date ((time.hour + hours) / 24)).2
  simp only [DateTime.seconds, DateTime.addHours, days]
  omega

/-- A time of a day of 86400 seconds. -/
structure DateTime.Regular (time : DateTime) : Prop where
  valid : time.Valid
  second : time.second ≤ 59

/-- The time of a second, counted from the start of 1970. -/
def timeOf (seconds : Int) : DateTime where
  toDate := dateOf (seconds / 86400)
  hour := seconds % 86400 / 3600
  minute := seconds % 86400 / 60 % 60
  second := seconds % 86400 % 60

theorem timeOf_regular (seconds : Int) : (timeOf seconds).Regular := by
  refine ⟨⟨dateOf_valid _, ?_, ?_, ?_⟩, ?_⟩ <;> simp only [timeOf] <;> omega

theorem timeOf_seconds (seconds : Int) : (timeOf seconds).seconds = seconds := by
  have days : (dateOf (seconds / 86400)).days = seconds / 86400 := daysFromCivil_civilFromDays _
  simp only [DateTime.seconds, timeOf, days]
  omega

theorem seconds_timeOf {time : DateTime} (regular : time.Regular) : timeOf time.seconds = time := by
  obtain ⟨⟨date, hour, minute, low, _⟩, high⟩ := regular
  obtain ⟨days, isDays⟩ : ∃ days, days = time.toDate.days := ⟨_, rfl⟩
  have inDay : time.seconds / 86400 = days ∧
      time.seconds % 86400 = time.hour * 3600 + time.minute * 60 + time.second := by
    simp only [DateTime.seconds, ← isDays]
    omega
  have sameHour : (time.hour * 3600 + time.minute * 60 + time.second) / 3600 = time.hour := by omega
  have sameMinute : (time.hour * 3600 + time.minute * 60 + time.second) / 60 % 60 = time.minute := by omega
  have sameSecond : (time.hour * 3600 + time.minute * 60 + time.second) % 60 = time.second := by omega
  rw [timeOf, inDay.1, inDay.2, isDays, dateOf_days date, sameHour, sameMinute, sameSecond]

theorem yearStart_le_days {date : Date} (valid : date.Valid) {year : Int} (le : year ≤ date.year) :
    daysFromCivil year 1 1 ≤ date.days := by
  obtain ⟨sameYear, january⟩ := monthIndex_split year (show (0 : Int) ≤ 0 ∧ (0 : Int) ≤ 11 by decide)
  have start : daysFromCivil year 1 1 = monthStart (12 * year + 0) := by
    rw [monthStart, sameYear, january, Int.zero_add]
  have month := valid.month
  rw [start]
  exact (monthStart_mono (by omega)).trans (days_in_month valid).1

example : DateTime.addHours ⟨⟨2024, 2, 28⟩, 22, 30, 0⟩ 3 = ⟨⟨2024, 2, 29⟩, 1, 30, 0⟩ := by decide

example : DateTime.addHours ⟨⟨2027, 1, 1⟩, 1, 0, 0⟩ (-3) = ⟨⟨2026, 12, 31⟩, 22, 0, 0⟩ := by decide

example : daysFromCivil 1970 1 1 = 0 ∧ daysFromCivil 2026 9 4 = 20700 := by decide

example : civilFromDays 20700 = (2026, 9, 4) ∧ weekday 20700 = 5 := by decide

end DivoomDev.Library.Gregorian
