import DivoomDev.Ics.Models

/-! The clocks of the standard libraries that the calendar code is built with, and what their types
hold of an integer. The rest of the model counts time in 100 ns and without a bound; here are the
ticks that a clock counts instead. -/

namespace DivoomDev.Ics.Clocks
open DivoomDev.Library.Bytes Models

/-! ## Platforms -/

/-- The standard libraries that the calendar code is built with. -/
inductive Platform where
  | msvc
  | libstdcxx
  deriving DecidableEq, Repr

/-- The width of the representation of `std::chrono::hours`. -/
def Platform.hoursWidth : Platform → Nat
  | .msvc => 32
  | .libstdcxx => 64

/-- The ticks of the system clock in 100 ns. -/
def Platform.perTick : Platform → Int
  | .msvc => 1
  | .libstdcxx => 100

section Clock
variable (p : Platform)

/-- A time point in the ticks of the clock. -/
def Platform.point (tp : TimePoint) : Int := tp * p.perTick

/-- Hours as a duration of the clock. -/
def Platform.ticks (count : Int) : Int := hours count * p.perTick

def Platform.ofTimeT (seconds : Int) : Int := fromTimeT seconds * p.perTick

def Platform.toTimeT (tp : Int) : Int := tp.tdiv (ticksPerSecond * p.perTick)

/-- A rule whose UNTIL counts the ticks of the clock. -/
def Platform.rule (rule : RruleData) : RruleData := { rule with until_ := rule.until_ * p.perTick }

/-- The second of a time point, from which the C library makes a local time. -/
def Platform.second (tp : Int) : TimePoint := fromTimeT (p.toTimeT tp)

def Platform.atSecond (base : ScheduledEvent) : ScheduledEvent := { base with start := p.second base.start }

/-- A time point that the clock can hold, in the years from 1971 to 2999. -/
structure Platform.Dated (tp : Int) : Prop where
  from1971 : p.ofTimeT 31536000 ≤ tp
  to2999 : tp < p.ofTimeT 32503680000
  held : tp < 2 ^ 63

/-- The base event of a series, as the clock can hold it. -/
structure Platform.DatedEvent (base : ScheduledEvent) : Prop where
  start : p.Dated base.start
  end_ : p.Dated base.end_

/-- The window of a calendar, as the clock can hold it. -/
structure Platform.DatedWindow (windowStart deadline : Int) : Prop where
  start : p.Dated windowStart
  deadline : p.Dated deadline

end Clock

/-- An integer that the code computes, with the width of its signed type. -/
structure Computed where
  width : Nat
  value : Int
  deriving DecidableEq, Repr

def Computed.Fits (c : Computed) : Prop := -2 ^ (c.width - 1) ≤ c.value ∧ c.value < 2 ^ (c.width - 1)

instance : DecidablePred Computed.Fits := fun _ => inferInstanceAs (Decidable (_ ∧ _))

/-! ## What the types hold -/

/-- A result that does not fit wraps around. -/
def Computed.held (c : Computed) : Int := c.value.bmod (2 ^ c.width)

def int32 (value : Int) : Int := Computed.held ⟨32, value⟩

def int64 (value : Int) : Int := Computed.held ⟨64, value⟩

/-- The representation of `std::chrono::hours`. -/
def Platform.inHours (p : Platform) (count : Int) : Int := Computed.held ⟨p.hoursWidth, count⟩

theorem Computed.held_eq {c : Computed} (width : 0 < c.width) (fits : c.Fits) : c.held = c.value := by
  obtain ⟨lower, upper⟩ := fits
  obtain ⟨half, isHalf⟩ := Nat.exists_eq_add_of_lt width
  rw [Nat.zero_add] at isHalf
  rw [isHalf, Nat.add_sub_cancel] at lower upper
  have twice : 2 ^ (half + 1) = 2 * 2 ^ half := Nat.pow_succ'
  have same : (2 : Int) ^ half = ((2 ^ half : Nat) : Int) := (Int.natCast_pow 2 half).symm
  rw [held, isHalf, twice]
  apply Int.bmod_eq_of_le <;> omega

section Held
variable {value : Int}

theorem int32_eq (fits : (⟨32, value⟩ : Computed).Fits) : int32 value = value :=
  Computed.held_eq (Nat.succ_pos _) fits

theorem int64_eq (fits : (⟨64, value⟩ : Computed).Fits) : int64 value = value :=
  Computed.held_eq (Nat.succ_pos _) fits

theorem Platform.inHours_eq {p : Platform} (fits : (⟨p.hoursWidth, value⟩ : Computed).Fits) :
    p.inHours value = value :=
  Computed.held_eq (by cases p <;> exact Nat.succ_pos _) fits

end Held

/-! ## Time points of a clock -/

/-- An event whose times count the ticks of the clock. -/
def Platform.event (p : Platform) (e : ScheduledEvent) : ScheduledEvent :=
  { e with
    start := p.point e.start
    end_ := p.point e.end_
    created := p.point e.created
    lastModified := p.point e.lastModified
    stamp := p.point e.stamp
    recurrenceEnd := p.point e.recurrenceEnd }

/-- An event as the clock holds it, whose times are multiples of the tick that wrap around. -/
def Platform.heldEvent (p : Platform) (e : ScheduledEvent) : ScheduledEvent :=
  { e with
    start := int64 (p.point e.start)
    end_ := int64 (p.point e.end_)
    created := int64 (p.point e.created)
    lastModified := int64 (p.point e.lastModified)
    stamp := int64 (p.point e.stamp)
    recurrenceEnd := int64 (p.point e.recurrenceEnd) }

/-- The times of an event. -/
def Platform.eventPoints (p : Platform) (e : ScheduledEvent) : List Computed :=
  [e.start, e.end_, e.created, e.lastModified, e.stamp, e.recurrenceEnd].map (fun tp => ⟨64, p.point tp⟩)

section Points
variable {p : Platform} {a b : TimePoint} {e : ScheduledEvent}

theorem Platform.perTick_pos (p : Platform) : 0 < p.perTick := by cases p <;> decide

theorem Platform.ticks_msvc (count : Int) : Platform.ticks .msvc count = hours count := Int.mul_one _

@[simp] theorem Platform.point_zero : p.point 0 = 0 := Int.zero_mul _

theorem Platform.point_inj : p.point a = p.point b ↔ a = b :=
  ⟨fun same => Int.eq_of_mul_eq_mul_right p.perTick_pos.ne' same, fun same => same ▸ rfl⟩

theorem Platform.point_lt : p.point a < p.point b ↔ a < b :=
  ⟨fun less => Int.lt_of_mul_lt_mul_right less p.perTick_pos.le,
    fun less => Int.mul_lt_mul_of_pos_right less p.perTick_pos⟩

theorem Platform.point_le : p.point a ≤ p.point b ↔ a ≤ b := by
  rw [← not_lt, point_lt, not_lt]

theorem Platform.point_eq_zero : p.point a = 0 ↔ a = 0 :=
  ⟨fun zero => point_inj.mp (zero.trans point_zero.symm), fun zero => (congrArg p.point zero).trans point_zero⟩

theorem Platform.point_injective (p : Platform) : Function.Injective p.point := fun _ _ same => point_inj.mp same

theorem Platform.toTimeT_point : p.toTimeT (p.point a) = Models.toTimeT a :=
  Int.mul_tdiv_mul_of_pos_left _ _ p.perTick_pos

theorem Platform.heldEvent_eq (fits : ∀ c ∈ p.eventPoints e, c.Fits) : p.heldEvent e = p.event e := by
  simp only [eventPoints, List.map_cons, List.map_nil, List.forall_mem_cons] at fits
  obtain ⟨start, end_, created, lastModified, stamp, recurrenceEnd, _⟩ := fits
  rw [heldEvent, int64_eq start, int64_eq end_, int64_eq created, int64_eq lastModified, int64_eq stamp,
    int64_eq recurrenceEnd, event]

end Points

end DivoomDev.Ics.Clocks
