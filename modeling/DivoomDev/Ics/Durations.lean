import DivoomDev.Ics.EventBuilder

/-! The grammar of durations, their length, and the minutes that the reader of TRIGGER values
finds in them. -/

namespace DivoomDev.Ics.Durations
open DivoomDev.Library.Bytes TextUtils EventBuilder

/-! ## Numbers and units -/

structure Number where
  digits : Text
  filled : digits ≠ []
  all : ∀ c ∈ digits, isDigit c = true
  deriving DecidableEq

namespace Number

def value (n : Number) : Nat := digitsValue n.digits

/-- The number with the letter of its unit behind it. -/
def of (n : Number) (unit : Char) : Text := n.digits ++ [byte unit]

theorem not_mem (n : Number) {c : UInt8} (mark : isDigit c = false) : c ∉ n.digits :=
  fun inside => absurd (n.all c inside) (Bool.eq_false_iff.mp mark)

theorem not_mem_of (n : Number) {c : UInt8} {unit : Char} (mark : isDigit c = false) (other : c ≠ byte unit) :
    c ∉ n.of unit := by
  simp only [of, List.mem_append, n.not_mem mark, List.mem_singleton, other, or_self, not_false_eq_true]

theorem stoi_of (n : Number) {unit : Char} (letter : isDigit (byte unit) = false)
    (small : (n.value : Int) ≤ intMax) : stoi (n.of unit) = .ok n.value := by
  have stop : ∀ c ∈ ([byte unit] : Text).head?, isDigit c = false := by
    intro c first
    cases first
    exact letter
  have read := strtol_number (List.forall_mem_nil _) (.inl rfl) n.filled n.all stop
  rw [List.nil_append, List.nil_append, Int.one_mul] at read
  have inRange : intMin ≤ (digitsValue n.digits : Int) ∧ (digitsValue n.digits : Int) ≤ intMax :=
    ⟨(show intMin ≤ 0 by decide).trans (Int.natCast_nonneg _), small⟩
  simp only [stoi, of, read, if_pos inRange, value]

theorem beforeUnit_of (n : Number) {unit : Char} (letter : isDigit (byte unit) = false)
    (small : (n.value : Int) ≤ intMax) (rest : Text) :
    beforeUnit unit (n.of unit ++ rest) = .ok ((n.value : Int), rest) := by
  have found : (n.digits ++ byte unit :: rest).idxOf? (byte unit) = some n.digits.length :=
    idxOf?_append (n.not_mem letter) rest
  have behind : (n.digits ++ byte unit :: rest).drop (n.digits.length + 1) = rest := by
    rw [← List.drop_drop, List.drop_left]
    rfl
  have read : stoi n.digits = .ok (n.value : Int) := stoi_digits n.filled n.all small
  rw [of, List.append_assoc, List.singleton_append, beforeUnit, found]
  simp only [List.take_left, read, behind]
  rfl

end Number

theorem beforeUnit_absent {unit : Char} {s : Text} (absent : byte unit ∉ s) :
    beforeUnit unit s = .ok (0, s) := by
  have notFound : s.idxOf? (byte unit) = none := by simpa [List.idxOf?_eq_none_iff] using absent
  rw [beforeUnit, notFound]
  rfl

/-! ## The grammar -/

/-- Minutes, and seconds behind them. -/
structure MinutePart where
  minutes : Number
  seconds : Option Number := none
  deriving DecidableEq

inductive TimePart where
  | hours (hours : Number) (rest : Option MinutePart)
  | minutes (part : MinutePart)
  | seconds (seconds : Number)
  deriving DecidableEq

inductive Span where
  | weeks (weeks : Number)
  | days (days : Number) (part : Option TimePart)
  | time (part : TimePart)
  deriving DecidableEq

inductive Sign where
  | none
  | plus
  | minus
  deriving DecidableEq, Repr

structure Duration where
  sign : Sign := .none
  span : Span
  deriving DecidableEq

def MinutePart.text (part : MinutePart) : Text :=
  part.minutes.of 'M' ++ part.seconds.elim [] (·.of 'S')

def TimePart.text : TimePart → Text
  | hours h rest => h.of 'H' ++ rest.elim [] MinutePart.text
  | minutes part => part.text
  | seconds s => s.of 'S'

def Span.text : Span → Text
  | weeks w => w.of 'W'
  | days d part => d.of 'D' ++ part.elim [] (fun part => byte 'T' :: part.text)
  | time part => byte 'T' :: part.text

def Sign.text : Sign → Text
  | none => []
  | plus => [byte '+']
  | minus => [byte '-']

def Duration.text (d : Duration) : Text := d.sign.text ++ byte 'P' :: d.span.text

/-! ## Lengths -/

structure Clock where
  hours : Nat := 0
  minutes : Nat := 0
  seconds : Nat := 0
  deriving DecidableEq, Repr

def Clock.wholeMinutes (c : Clock) : Nat := c.hours * 60 + c.minutes

def MinutePart.clock (part : MinutePart) : Clock where
  minutes := part.minutes.value
  seconds := part.seconds.elim 0 Number.value

/-- The numbers of a time, with zero for what is not written. -/
def TimePart.clock : TimePart → Clock
  | hours h rest => { rest.elim {} MinutePart.clock with hours := h.value }
  | minutes part => part.clock
  | seconds s => { seconds := s.value }

def Span.clock : Span → Clock
  | weeks _ => {}
  | days _ part => part.elim {} TimePart.clock
  | time part => part.clock

def Span.wholeDays : Span → Nat
  | weeks w => w.value * 7
  | days d _ => d.value
  | time _ => 0

def Span.totalSeconds (s : Span) : Nat :=
  s.wholeDays * 86400 + s.clock.wholeMinutes * 60 + s.clock.seconds

/-- The whole minutes of a duration, without its sign. -/
def Duration.totalMinutes (d : Duration) : Nat := d.span.totalSeconds / 60

/-! ## Reading -/

theorem MinutePart.read_text {part : MinutePart} (small : (part.minutes.value : Int) ≤ intMax) :
    beforeUnit 'M' part.text = .ok ((part.minutes.value : Int), part.seconds.elim [] (·.of 'S')) :=
  part.minutes.beforeUnit_of (by decide) small _

theorem MinutePart.not_mem (part : MinutePart) {c : UInt8} (mark : isDigit c = false)
    (other : c ≠ byte 'M' ∧ c ≠ byte 'S') : c ∉ part.text := by
  have seconds : c ∉ part.seconds.elim [] (·.of 'S') := by
    cases part.seconds with
    | none => exact List.not_mem_nil
    | some s => exact s.not_mem_of mark other.2
  rw [MinutePart.text, List.mem_append, not_or]
  exact ⟨part.minutes.not_mem_of mark other.1, seconds⟩

theorem TimePart.day_not_mem (part : TimePart) : byte 'D' ∉ part.text := by
  cases part with
  | hours h rest =>
    have behind : byte 'D' ∉ rest.elim [] MinutePart.text := by
      cases rest with
      | none => exact List.not_mem_nil
      | some part => exact part.not_mem (by decide) (by decide)
    rw [TimePart.text, List.mem_append, not_or]
    exact ⟨h.not_mem_of (by decide) (by decide), behind⟩
  | minutes part => exact part.not_mem (by decide) (by decide)
  | seconds s => exact s.not_mem_of (by decide) (by decide)

theorem timeMinutes_text {part : TimePart} (small : (part.clock.wholeMinutes : Int) ≤ intMax) :
    timeMinutes part.text = .ok (part.clock.wholeMinutes : Int) := by
  cases part with
  | hours h rest =>
    cases rest with
    | none =>
      have bound : (h.value : Int) ≤ intMax := by
        simp only [TimePart.clock, Clock.wholeMinutes, Option.elim] at small
        omega
      have first : beforeUnit 'H' (TimePart.hours h none).text = .ok ((h.value : Int), []) :=
        h.beforeUnit_of (by decide) bound []
      have second : beforeUnit 'M' [] = .ok (0, []) := beforeUnit_absent List.not_mem_nil
      rw [timeMinutes, first]
      simp only [bind, Except.bind, second, pure, Except.pure]
      rfl
    | some part =>
      simp only [TimePart.clock, Clock.wholeMinutes, Option.elim, MinutePart.clock] at small
      have first : beforeUnit 'H' (TimePart.hours h (some part)).text = .ok ((h.value : Int), part.text) :=
        h.beforeUnit_of (by decide) (by omega) part.text
      rw [timeMinutes, first]
      simp only [bind, Except.bind, part.read_text (by omega), pure, Except.pure]
      rfl
  | minutes part =>
    have bound : (part.minutes.value : Int) ≤ intMax := by
      simp only [TimePart.clock, Clock.wholeMinutes, MinutePart.clock] at small
      omega
    have first : beforeUnit 'H' (TimePart.minutes part).text = .ok (0, part.text) :=
      beforeUnit_absent (part.not_mem (by decide) (by decide))
    rw [timeMinutes, first]
    simp only [bind, Except.bind, part.read_text bound, pure, Except.pure]
    simp [TimePart.clock, Clock.wholeMinutes, MinutePart.clock]
  | seconds s =>
    have hours : beforeUnit 'H' (s.of 'S') = .ok (0, s.of 'S') :=
      beforeUnit_absent (s.not_mem_of (by decide) (by decide))
    have minutes : beforeUnit 'M' (s.of 'S') = .ok (0, s.of 'S') :=
      beforeUnit_absent (s.not_mem_of (by decide) (by decide))
    simp only [timeMinutes, TimePart.text, hours, bind, Except.bind, minutes, pure, Except.pure]
    rfl

/-- What the reader makes of a span: weeks are taken for minutes, and seconds are not read. -/
def Span.readMinutes : Span → Nat
  | weeks w => w.value
  | days d part => d.value * 1440 + (days d part).clock.wholeMinutes
  | time part => part.clock.wholeMinutes

theorem durationMinutes_time {days : Int} {before : Text} {part : TimePart}
    (small : (part.clock.wholeMinutes : Int) ≤ intMax)
    (read : beforeUnit 'D' before = .ok (days, byte 'T' :: part.text)) :
    durationMinutes before = .ok (days * 1440 + (part.clock.wholeMinutes : Int)) := by
  have found : (byte 'T' :: part.text).idxOf? (byte 'T') = some 0 := by simp [List.idxOf?_cons]
  rw [durationMinutes, read]
  simp only [bind, Except.bind, found, List.drop_succ_cons, List.drop_zero, timeMinutes_text small]
  rfl

theorem durationMinutes_text {s : Span} (small : (s.readMinutes : Int) ≤ intMax) :
    durationMinutes s.text = .ok (s.readMinutes : Int) := by
  cases s with
  | weeks w =>
    have days : beforeUnit 'D' (w.of 'W') = .ok (0, w.of 'W') :=
      beforeUnit_absent (w.not_mem_of (by decide) (by decide))
    have noTime : (w.of 'W').idxOf? (byte 'T') = none := by
      rw [List.idxOf?_eq_none_iff]
      exact w.not_mem_of (by decide) (by decide)
    have number : (w.of 'W').head?.any isDigit = true := by
      obtain ⟨first, rest, same⟩ := List.exists_cons_of_ne_nil w.filled
      have digit : isDigit first = true := w.all first (same ▸ List.mem_cons_self)
      rw [Number.of, same, List.cons_append, List.head?_cons, Option.any_some, digit]
    rw [durationMinutes, Span.text, days]
    simp only [bind, Except.bind, noTime, number, if_true, w.stoi_of (show isDigit (byte 'W') = false by decide) small]
    simp [pure, Except.pure, Span.readMinutes]
  | days d part =>
    have bound : (d.value : Int) ≤ intMax := by
      simp only [Span.readMinutes] at small
      omega
    have read : beforeUnit 'D' (Span.days d part).text =
        .ok ((d.value : Int), part.elim [] (fun part => byte 'T' :: part.text)) :=
      d.beforeUnit_of (by decide) bound _
    cases part with
    | none =>
      have noTime : ([] : Text).idxOf? (byte 'T') = none := rfl
      rw [durationMinutes, read]
      simp only [bind, Except.bind, Option.elim, noTime, List.head?_nil, Option.any_none, Bool.false_eq_true,
        if_false, pure, Except.pure, Span.readMinutes, Span.clock, Clock.wholeMinutes, Nat.zero_mul,
        Nat.add_zero, Int.natCast_mul, Int.cast_ofNat_Int]
    | some part =>
      have timeSmall : (part.clock.wholeMinutes : Int) ≤ intMax := by
        simp only [Span.readMinutes, Span.clock, Option.elim] at small
        omega
      rw [durationMinutes_time timeSmall read]
      rfl
  | time part =>
    have days : beforeUnit 'D' (Span.time part).text = .ok (0, byte 'T' :: part.text) := by
      apply beforeUnit_absent
      rw [Span.text, List.mem_cons, not_or]
      exact ⟨by decide, part.day_not_mem⟩
    rw [durationMinutes_time small days, Int.zero_mul, Int.zero_add]
    rfl

/-- The reader finds the whole minutes: it is not a duration in weeks, and has less than a
minute in seconds. -/
def Span.ReadRight : Span → Prop
  | weeks w => w.value = 0
  | s => s.clock.seconds < 60

instance : DecidablePred Span.ReadRight
  | .weeks w => inferInstanceAs (Decidable (w.value = 0))
  | .days d part => inferInstanceAs (Decidable ((Span.days d part).clock.seconds < 60))
  | .time part => inferInstanceAs (Decidable ((Span.time part).clock.seconds < 60))

theorem readMinutes_iff (s : Span) : s.readMinutes = s.totalSeconds / 60 ↔ s.ReadRight := by
  cases s with
  | weeks w =>
    simp only [Span.readMinutes, Span.totalSeconds, Span.wholeDays, Span.clock, Clock.wholeMinutes,
      Span.ReadRight]
    omega
  | days d part =>
    simp only [Span.readMinutes, Span.totalSeconds, Span.wholeDays, Span.ReadRight]
    omega
  | time part =>
    simp only [Span.readMinutes, Span.totalSeconds, Span.wholeDays, Span.ReadRight, Span.clock]
    omega

theorem readMinutes_le (s : Span) : s.readMinutes ≤ s.totalSeconds / 60 := by
  cases s with
  | weeks w =>
    simp only [Span.readMinutes, Span.totalSeconds, Span.wholeDays]
    omega
  | days d part =>
    simp only [Span.readMinutes, Span.totalSeconds, Span.wholeDays]
    omega
  | time part =>
    simp only [Span.readMinutes, Span.totalSeconds, Span.wholeDays, Span.clock]
    omega

end DivoomDev.Ics.Durations
