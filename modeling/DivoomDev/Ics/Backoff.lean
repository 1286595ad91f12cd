import DivoomDev.Ics.HttpSource

/-! The delays between the requests of one fetch: they double, as far as the integers that compute
them go. -/

namespace DivoomDev.Ics.Backoff
open DivoomDev.Library.Bytes HttpSource

/-! ## The loop with its delays -/

/-- The delay is in milliseconds. -/
structure PacedOptions extends HttpOptions where
  retryDelay : Int := 500
  deriving DecidableEq, Repr

inductive Step where
  | sleep (milliseconds : Int)
  | get
  deriving DecidableEq, Repr

/-- `1 << n` as an `int` of 32 bits; nothing where that is undefined. -/
def shiftedOne (n : Nat) : Option Int :=
  if n < 32 then some (Int.bmod (2 ^ n) (2 ^ 32)) else none

/-- The product of a delay and an `int`, as a `long long`; nothing where that is undefined. -/
def scaled (delay factor : Int) : Option Int :=
  if -(2 ^ 63) ≤ delay * factor ∧ delay * factor < 2 ^ 63 then some (delay * factor) else none

namespace PacedOptions

/-- What is done in front of the request of an attempt. -/
def delay (opts : PacedOptions) (attempt : Nat) : Option (List Step) :=
  if 0 < attempt then do
    let factor ← shiftedOne (attempt - 1)
    let delay ← scaled opts.retryDelay factor
    some [.sleep delay]
  else some []

/-- The loop of `fetch` from an attempt on, with so many passes left. -/
def stepsFrom (opts : PacedOptions) (get : Nat → Response) : (left attempt : Nat) → Option (List Step)
  | 0, _ => some []
  | left + 1, attempt => do
      let steps := (← opts.delay attempt) ++ [.get]
      let response := get attempt
      if response.statusCode = 200 then some steps
      else if 400 ≤ response.statusCode ∧ response.statusCode < 500 ∧ response.statusCode ≠ 429 then some steps
      else if !isTransientError response.errorMessage then some steps
      else do
        let later ← opts.stepsFrom get left (attempt + 1)
        some (steps ++ later)

/-- What `fetch` does in turn; nothing where that is undefined. -/
def steps (opts : PacedOptions) (get : Nat → Response) : Option (List Step) :=
  opts.stepsFrom get (opts.retries + 1).toNat 0

/-! ## Doubling delays -/

/-- The delay as it is meant, each twice the one before. -/
def wait (opts : PacedOptions) (attempt : Nat) : List Step :=
  if 0 < attempt then [.sleep (opts.retryDelay * 2 ^ (attempt - 1))] else []

def attemptSteps (opts : PacedOptions) (attempt : Nat) : List Step := opts.wait attempt ++ [.get]

def doubling (opts : PacedOptions) (attempts : Nat) : List Step := (List.range attempts).flatMap opts.attemptSteps

end PacedOptions

theorem shiftedOne_small {n : Nat} (small : n ≤ 30) : shiftedOne n = some (2 ^ n) := by
  rw [shiftedOne, if_pos (by omega)]
  have least : (0 : Int) < 2 ^ n := by positivity
  have most : (2 : Int) ^ n ≤ 2 ^ 30 := pow_le_pow_right₀ (by decide) small
  rw [Int.bmod_eq_of_le (by omega) (by omega)]

section Loop
variable (opts : PacedOptions) {get : Nat → Response} {attempt : Nat}

theorem fetchFrom_final_attempts (final : (get attempt).Final) (left : Nat) :
    (fetchFrom get (left + 1) attempt).attempts = attempt + 1 := by
  simp only [fetchFrom]
  rcases final with success | client | permanent
  · rw [if_pos success]
  · rw [if_neg (show (get attempt).statusCode ≠ 200 by omega), if_pos client]
  · split_ifs
    · rfl
    · rfl
    · rfl
    · simp_all

theorem attempt_le_fetchFrom (left : Nat) : attempt ≤ (fetchFrom get left attempt).attempts := by
  induction left generalizing attempt with
  | zero => exact Nat.le_refl _
  | succ left ih =>
    by_cases final : (get attempt).Final
    · rw [fetchFrom_final_attempts final]
      exact Nat.le_succ _
    · rw [fetchFrom_goesOn final]
      exact (Nat.le_succ _).trans ih

theorem stepsFrom_final (final : (get attempt).Final) (left : Nat) :
    opts.stepsFrom get (left + 1) attempt = (opts.delay attempt).map (· ++ [.get]) := by
  simp only [PacedOptions.stepsFrom]
  cases opts.delay attempt with
  | none => rfl
  | some pause =>
    simp only [Option.bind_eq_bind, Option.bind_some, Option.map_some]
    rcases final with success | client | permanent
    · rw [if_pos success]
    · rw [if_neg (show (get attempt).statusCode ≠ 200 by omega), if_pos client]
    · split_ifs
      · rfl
      · rfl
      · rfl
      · simp_all

theorem stepsFrom_goesOn (goesOn : ¬(get attempt).Final) (left : Nat) :
    opts.stepsFrom get (left + 1) attempt = (opts.delay attempt).bind (fun pause =>
      (opts.stepsFrom get left (attempt + 1)).map (pause ++ [.get] ++ ·)) := by
  simp only [Response.Final, not_or, Bool.not_eq_false] at goesOn
  simp only [PacedOptions.stepsFrom, if_neg goesOn.1, if_neg goesOn.2.1, goesOn.2.2, Bool.not_true, if_false,
    Bool.false_eq_true]
  cases opts.delay attempt with
  | none => rfl
  | some pause => cases opts.stepsFrom get left (attempt + 1) <;> rfl

theorem delay_wait {opts : PacedOptions} (nonneg : 0 ≤ opts.retryDelay) (few : attempt ≤ 31)
    (fits : opts.retryDelay * 2 ^ (attempt - 1) < 2 ^ 63) : opts.delay attempt = some (opts.wait attempt) := by
  have least : 0 ≤ opts.retryDelay * 2 ^ (attempt - 1) := by positivity
  have inRange : -(2 ^ 63) ≤ opts.retryDelay * 2 ^ (attempt - 1) := by omega
  rw [PacedOptions.delay, PacedOptions.wait, shiftedOne_small (show attempt - 1 ≤ 30 by omega)]
  split_ifs
  · simp only [Option.bind_eq_bind, Option.bind_some, scaled, if_pos (And.intro inRange fits)]
  · rfl

/-- Up to the thirty-second attempt the shift is a power of two. -/
theorem stepsFrom_doubling {left : Nat} (nonneg : 0 ≤ opts.retryDelay) (few : attempt + left ≤ 32)
    (fits : ∀ i < attempt + left, opts.retryDelay * 2 ^ (i - 1) < 2 ^ 63) :
    opts.stepsFrom get left attempt = some ((List.range' attempt
      ((fetchFrom get left attempt).attempts - attempt)).flatMap opts.attemptSteps) := by
  induction left generalizing attempt with
  | zero => simp [PacedOptions.stepsFrom, fetchFrom]
  | succ left ih =>
    have pause : opts.delay attempt = some (opts.wait attempt) :=
      delay_wait nonneg (by omega) (fits attempt (by omega))
    by_cases final : (get attempt).Final
    · rw [stepsFrom_final opts final, fetchFrom_final_attempts final, pause, Nat.add_sub_cancel_left]
      simp [PacedOptions.attemptSteps]
    · have onward : attempt + 1 ≤ (fetchFrom get left (attempt + 1)).attempts := attempt_le_fetchFrom left
      have count : (fetchFrom get left (attempt + 1)).attempts - attempt =
          (fetchFrom get left (attempt + 1)).attempts - (attempt + 1) + 1 := by omega
      rw [stepsFrom_goesOn opts final, fetchFrom_goesOn final, pause, ih (by omega)
        (fun i below => fits i (by omega)), count, List.range'_succ]
      simp [PacedOptions.attemptSteps]

end Loop

/-! ## Too many attempts -/

/-- A timeout at every attempt. -/
def timeouts (_ : Nat) : Response := { errorMessage := text "timeout" }

theorem timeouts_goOn (attempt : Nat) : ¬(timeouts attempt).Final := by
  show ¬(timeouts 0).Final
  decide +kernel

/-- Where every request times out, the delay in front of each attempt is made. -/
theorem delay_made (opts : PacedOptions) {left attempt : Nat} {steps : List Step}
    (made : opts.stepsFrom timeouts left attempt = some steps) {i : Nat} (reached : attempt ≤ i)
    (below : i < attempt + left) :
    ∃ pause, opts.delay i = some pause ∧ ∀ step ∈ pause, step ∈ steps := by
  induction left generalizing attempt steps with
  | zero => omega
  | succ left ih =>
    rw [stepsFrom_goesOn opts (timeouts_goOn attempt)] at made
    obtain ⟨pause, before, rest⟩ := Option.bind_eq_some_iff.mp made
    obtain ⟨later, onward, rfl⟩ := Option.map_eq_some_iff.mp rest
    rcases Nat.lt_or_eq_of_le reached with behind | rfl
    · obtain ⟨pause', here, inside⟩ := ih onward behind (by omega)
      exact ⟨pause', here, fun step member => List.mem_append_right _ (inside step member)⟩
    · exact ⟨pause, before, fun step member => List.mem_append_left _ (List.mem_append_left _ member)⟩

theorem delay_sleep {opts : PacedOptions} {attempt : Nat} (positive : 0 < attempt) {factor : Int}
    (shifted : shiftedOne (attempt - 1) = some factor) {pause : List Step} (made : opts.delay attempt = some pause) :
    pause = [.sleep (opts.retryDelay * factor)] ∧ opts.retryDelay * factor < 2 ^ 63 := by
  rw [PacedOptions.delay, if_pos positive, shifted] at made
  simp only [Option.bind_eq_bind, Option.bind_some, scaled] at made
  split_ifs at made with fits
  · cases made
    exact ⟨rfl, fits.2⟩
  · cases made

theorem sleep_nonneg {opts : PacedOptions} (nonneg : 0 ≤ opts.retryDelay) {n : Nat} {milliseconds : Int}
    (inside : .sleep milliseconds ∈ opts.doubling n) : 0 ≤ milliseconds := by
  obtain ⟨attempt, _, member⟩ := List.mem_flatMap.mp inside
  simp only [PacedOptions.attemptSteps, PacedOptions.wait] at member
  split_ifs at member
  · simp only [List.cons_append, List.nil_append, List.mem_cons, Step.sleep.injEq, reduceCtorEq, List.not_mem_nil,
      or_false] at member
    rw [member]
    positivity
  · simp at member

/-- A fetch makes its requests with delays that double, whatever comes back, exactly where it may
make no more than 31 retries and its longest delay fits. -/
theorem steps_doubling_iff {opts : PacedOptions} (delayed : 0 < opts.retryDelay) (inRange : opts.retryDelay < 2 ^ 63)
    (valid : 0 ≤ opts.retries) :
    (∀ get, opts.steps get = some (opts.doubling (fetch opts.toHttpOptions get).attempts)) ↔
      opts.retries ≤ 31 ∧ opts.retryDelay * 2 ^ (opts.retries - 1).toNat < 2 ^ 63 := by
  apply Iff.intro
  · intro always
    have made := always timeouts
    have few : opts.retries ≤ 31 := by
      by_contra many
      obtain ⟨pause, paused, inside⟩ := delay_made opts made (show 0 ≤ 32 by decide) (by omega)
      have wrapped : shiftedOne (32 - 1) = some (-2147483648) := by decide +kernel
      obtain ⟨rfl, _⟩ := delay_sleep (by decide) wrapped paused
      have nonneg := sleep_nonneg delayed.le (inside _ List.mem_cons_self)
      omega
    refine ⟨few, ?_⟩
    by_cases none : opts.retries = 0
    · rw [none]
      simpa using inRange
    · obtain ⟨pause, paused, _⟩ := delay_made opts made (Nat.zero_le opts.retries.toNat) (by omega)
      have shifted := shiftedOne_small (show opts.retries.toNat - 1 ≤ 30 by omega)
      have last : opts.retries.toNat - 1 = (opts.retries - 1).toNat := by omega
      rw [← last]
      exact (delay_sleep (by omega) shifted paused).2
  · rintro ⟨few, fits⟩ get
    have shorter (i : Nat) (below : i < 0 + (opts.retries + 1).toNat) :
        opts.retryDelay * 2 ^ (i - 1) < 2 ^ 63 := by
      have least : (2 : Int) ^ (i - 1) ≤ 2 ^ (opts.retries - 1).toNat :=
        pow_le_pow_right₀ (by decide) (by omega)
      exact (Int.mul_le_mul_of_nonneg_left least delayed.le).trans_lt fits
    rw [PacedOptions.steps, stepsFrom_doubling opts delayed.le (by omega) shorter, PacedOptions.doubling, fetch,
      List.range_eq_range', Nat.sub_zero]

theorem steps_doubling_iff_default :
    (∀ get, ({} : PacedOptions).steps get = some (({} : PacedOptions).doubling (fetch {} get).attempts)) ↔
      ({} : PacedOptions).retries ≤ 31 ∧
        ({} : PacedOptions).retryDelay * 2 ^ (({} : PacedOptions).retries - 1).toNat < 2 ^ 63 :=
  steps_doubling_iff (by decide) (by decide) (by decide)

end DivoomDev.Ics.Backoff
