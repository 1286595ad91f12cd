import DivoomDev.Library.Run

/-! The service under the control of Windows: `service_main`, its worker thread with the loop
of `run`, and the control handler, one atomic access after the other in any order. -/

namespace DivoomDev.Service.Lifecycle
open DivoomDev.Library.Run

inductive ServiceStatus where
  | startPending
  | running
  | stopPending
  | pausePending
  | paused
  | continuePending
  | stopped
  deriving DecidableEq, Repr

inductive Control where
  | stop
  | shutdown
  | pause
  | continue_
  deriving DecidableEq, Repr

/-- One thing that the control handler does. `stop` is the `stop` of the service, which resets
`g_service_running`. -/
inductive Action where
  | setPaused (value : Bool)
  | stop
  | report (status : ServiceStatus)
  deriving DecidableEq, Repr

/-- `service_ctrl_handler`. The `pause` and the `resume` of the service set the flag once more. -/
def serviceCtrlHandler : Control → List Action
  | .stop | .shutdown => [.setPaused false, .stop, .report .stopPending]
  | .pause => [.setPaused true, .report .pausePending, .setPaused true, .report .paused]
  | .continue_ => [.setPaused false, .report .continuePending, .setPaused false, .report .running]

inductive Main where
  | registering
  | unregistered
  | starting
  | spawning
  | waiting
  | joining
  | stopping
  | returned
  deriving DecidableEq, Repr

/-- Where the worker thread stands. Both conditions of `run` read the two flags one after the
other; the counter is that of the 100 ms slices. -/
inductive Worker where
  | absent
  | created
  | entering
  | loadRunning
  | loadPaused
  | cycle
  | waitCount (i : Nat)
  | waitRunning (i : Nat)
  | waitPaused (i : Nat)
  | sleeping (i : Nat)
  | leaving
  | finished
  deriving DecidableEq, Repr

def Worker.inLoop : Worker → Bool
  | .loadRunning | .loadPaused | .cycle => true
  | .waitCount _ | .waitRunning _ | .waitPaused _ | .sleeping _ => true
  | _ => false

/-- The worker has come to the loop. -/
def Worker.started : Worker → Bool
  | .absent | .created | .entering => false
  | _ => true

/-- The two flags, the last status reported, and where each party stands. The handler is given
by what it has still to do. -/
structure State where
  running : Bool := true
  paused : Bool := false
  status : Option ServiceStatus := none
  main : Main := .registering
  worker : Worker := .absent
  handler : List Action := []
  deriving DecidableEq, Repr

/-- The next step of a party, a control that the handler is called with, or a handler that
cannot be registered. -/
inductive Move where
  | main
  | registerFails
  | worker
  | control (control : Control)
  | handler
  deriving DecidableEq, Repr

/-- `total_ms / 100`, with the conversion of the count to an unsigned number. -/
def slices (updateInterval : Int) : Nat := (updateInterval * 60000 % 2 ^ 64).toNat / 100

/-- `service_main` starts the worker and waits until `g_service_running` is reset. -/
def mainStep (s : State) : Option State :=
  match s.main with
  | .registering => some { s with main := .starting }
  | .unregistered => none
  | .starting => some { s with status := some .startPending, main := .spawning }
  | .spawning => some { s with worker := .created, main := .waiting }
  | .waiting => some (if s.running then s else { s with main := .joining })
  | .joining => if s.worker = .finished then some { s with main := .stopping } else none
  | .stopping => some { s with status := some .stopped, main := .returned }
  | .returned => none

/-- The worker reports RUNNING and runs the loop. A cycle catches whatever it throws. -/
def workerStep (updateInterval : Int) (s : State) : Option State :=
  match s.worker with
  | .absent => none
  | .created => some { s with status := some .running, worker := .entering }
  | .entering => some { s with worker := .loadRunning }
  | .loadRunning => some { s with worker := if s.running then .loadPaused else .leaving }
  | .loadPaused => some { s with worker := if s.paused then .leaving else .cycle }
  | .cycle => some { s with worker := .waitCount 0 }
  | .waitCount i => some { s with worker := if i < slices updateInterval then .waitRunning i else .loadRunning }
  | .waitRunning i => some { s with worker := if s.running then .waitPaused i else .loadRunning }
  | .waitPaused i => some { s with worker := if s.paused then .loadRunning else .sleeping i }
  | .sleeping i => some { s with worker := .waitCount (i + 1) }
  | .leaving => some { s with worker := .finished }
  | .finished => none

def Action.perform (s : State) : Action → State
  | .setPaused value => { s with paused := value }
  | .stop => { s with running := false }
  | .report status => { s with status := some status }

/-- One step of the system. The handler is registered before it is called, and is called for
one control at a time. -/
def step (updateInterval : Int) (s : State) : Move → Option State
  | .main => mainStep s
  | .registerFails => if s.main = .registering then some { s with main := .unregistered } else none
  | .worker => workerStep updateInterval s
  | .control control =>
      if s.main ≠ .registering ∧ s.main ≠ .unregistered ∧ s.handler = [] then
        some { s with handler := serviceCtrlHandler control }
      else none
  | .handler =>
      match s.handler with
      | [] => none
      | action :: rest => some (action.perform { s with handler := rest })

/-! ## What keeps the worker in the loop -/

/-- The service is started, neither stopped nor paused, and reported as running. -/
structure Resumed (s : State) : Prop where
  started : s.worker.started = true
  running : s.running = true
  notPaused : s.paused = false
  reported : s.status = some .running

/-- The worker leaves the loop only for a stop: it does not find the pause flag set when it
checks the condition of the loop, unless the service is stopped. -/
def PauseUnseen (s : State) (move : Move) : Prop :=
  move = .worker → s.worker = .loadPaused → s.paused = true → s.running = false

instance (s : State) (move : Move) : Decidable (PauseUnseen s move) :=
  inferInstanceAs (Decidable (_ → _ → _ → _))

/-- A worker behind the loop has been stopped, and stays so. -/
def LeftStopped (s : State) : Prop := s.worker = .leaving ∨ s.worker = .finished → s.running = false

/-- What a step of `service_main` can be. -/
inductive MainStep (s : State) : State → Prop where
  | registered (place : s.main = .registering) : MainStep s { s with main := .starting }
  | reported (place : s.main = .starting) : MainStep s { s with status := some .startPending, main := .spawning }
  | spawned (place : s.main = .spawning) : MainStep s { s with worker := .created, main := .waiting }
  | waited (place : s.main = .waiting) (running : s.running = true) : MainStep s s
  | woke (place : s.main = .waiting) (stopped : s.running = false) : MainStep s { s with main := .joining }
  | joined (place : s.main = .joining) (finished : s.worker = .finished) : MainStep s { s with main := .stopping }
  | returned (place : s.main = .stopping) : MainStep s { s with status := some .stopped, main := .returned }

theorem mainStep_cases {s s' : State} (moved : mainStep s = some s') : MainStep s s' := by
  unfold mainStep at moved
  split at moved
  case h_1 place => cases moved; exact .registered place
  case h_3 place => cases moved; exact .reported place
  case h_4 place => cases moved; exact .spawned place
  case h_5 place =>
    cases moved
    split
    next running => exact .waited place running
    next stopped => exact .woke place (Bool.eq_false_of_not_eq_true stopped)
  case h_6 place =>
    split at moved <;> cases moved
    next finished => exact .joined place finished
  case h_7 place => cases moved; exact .returned place
  all_goals cases moved

theorem step_registerFails {updateInterval : Int} {s s' : State}
    (moved : step updateInterval s .registerFails = some s') :
    s.main = .registering ∧ s' = { s with main := .unregistered } := by
  simp only [step] at moved
  split_ifs at moved with place
  exact ⟨place, (Option.some.inj moved).symm⟩

theorem step_control {updateInterval : Int} {s s' : State} {control : Control}
    (moved : step updateInterval s (.control control) = some s') :
    (s.main ≠ .registering ∧ s.main ≠ .unregistered) ∧ s' = { s with handler := serviceCtrlHandler control } := by
  simp only [step] at moved
  split_ifs at moved with called
  exact ⟨⟨called.1, called.2.1⟩, (Option.some.inj moved).symm⟩

theorem step_handler {updateInterval : Int} {s s' : State} (moved : step updateInterval s .handler = some s') :
    ∃ action rest, s.handler = action :: rest ∧ s' = action.perform { s with handler := rest } := by
  simp only [step] at moved
  split at moved
  · cases moved
  · next action rest pending => exact ⟨action, rest, pending, (Option.some.inj moved).symm⟩

/-- What a step of the worker can be. -/
inductive WorkerStep (updateInterval : Int) (s : State) : State → Prop where
  | reported (place : s.worker = .created) :
      WorkerStep updateInterval s { s with status := some .running, worker := .entering }
  | entered (place : s.worker = .entering) : WorkerStep updateInterval s { s with worker := .loadRunning }
  | runs (place : s.worker = .loadRunning) (running : s.running = true) :
      WorkerStep updateInterval s { s with worker := .loadPaused }
  | stops (place : s.worker = .loadRunning) (stopped : s.running = false) :
      WorkerStep updateInterval s { s with worker := .leaving }
  | begins (place : s.worker = .loadPaused) (unpaused : s.paused = false) :
      WorkerStep updateInterval s { s with worker := .cycle }
  | pauses (place : s.worker = .loadPaused) (paused : s.paused = true) :
      WorkerStep updateInterval s { s with worker := .leaving }
  | cycled (place : s.worker = .cycle) : WorkerStep updateInterval s { s with worker := .waitCount 0 }
  | waits (i : Nat) (place : s.worker = .waitCount i) (more : i < slices updateInterval) :
      WorkerStep updateInterval s { s with worker := .waitRunning i }
  | waited (i : Nat) (place : s.worker = .waitCount i) (done : ¬i < slices updateInterval) :
      WorkerStep updateInterval s { s with worker := .loadRunning }
  | waitRuns (i : Nat) (place : s.worker = .waitRunning i) (running : s.running = true) :
      WorkerStep updateInterval s { s with worker := .waitPaused i }
  | waitStops (i : Nat) (place : s.worker = .waitRunning i) (stopped : s.running = false) :
      WorkerStep updateInterval s { s with worker := .loadRunning }
  | sleeps (i : Nat) (place : s.worker = .waitPaused i) (unpaused : s.paused = false) :
      WorkerStep updateInterval s { s with worker := .sleeping i }
  | waitPauses (i : Nat) (place : s.worker = .waitPaused i) (paused : s.paused = true) :
      WorkerStep updateInterval s { s with worker := .loadRunning }
  | slept (i : Nat) (place : s.worker = .sleeping i) :
      WorkerStep updateInterval s { s with worker := .waitCount (i + 1) }
  | left (place : s.worker = .leaving) : WorkerStep updateInterval s { s with worker := .finished }

theorem workerStep_cases {updateInterval : Int} {s s' : State}
    (moved : workerStep updateInterval s = some s') : WorkerStep updateInterval s s' := by
  unfold workerStep at moved
  split at moved <;> cases moved
  case h_2 place => exact .reported place
  case h_3 place => exact .entered place
  case h_4 place =>
    split
    next running => exact .runs place running
    next stopped => exact .stops place (Bool.eq_false_of_not_eq_true stopped)
  case h_5 place =>
    split
    next paused => exact .pauses place paused
    next unpaused => exact .begins place (Bool.eq_false_of_not_eq_true unpaused)
  case h_6 place => exact .cycled place
  case h_7 i place =>
    split
    next more => exact .waits i place more
    next done => exact .waited i place done
  case h_8 i place =>
    split
    next running => exact .waitRuns i place running
    next stopped => exact .waitStops i place (Bool.eq_false_of_not_eq_true stopped)
  case h_9 i place =>
    split
    next paused => exact .waitPauses i place paused
    next unpaused => exact .sleeps i place (Bool.eq_false_of_not_eq_true unpaused)
  case h_10 i place => exact .slept i place
  case h_11 place => exact .left place

theorem workerStep_frame {updateInterval : Int} {s s' : State}
    (stepped : workerStep updateInterval s = some s') : s'.running = s.running ∧ s'.paused = s.paused := by
  cases workerStep_cases stepped <;> exact ⟨rfl, rfl⟩

/-- The worker comes behind the loop from one of its two checks, or is there already. -/
theorem workerStep_leaves {updateInterval : Int} {s s' : State}
    (stepped : workerStep updateInterval s = some s') (left : s'.worker = .leaving ∨ s'.worker = .finished) :
    (s.worker = .loadRunning ∧ s.running = false) ∨ (s.worker = .loadPaused ∧ s.paused = true) ∨
      s.worker = .leaving := by
  cases workerStep_cases stepped with
  | stops place stopped => exact .inl ⟨place, stopped⟩
  | pauses place paused => exact .inr (.inl ⟨place, paused⟩)
  | left place => exact .inr (.inr place)
  | _ => simp at left

theorem step_leftStopped {updateInterval : Int} (s : State) (move : Move) (s' : State) (inv : LeftStopped s)
    (unseen : PauseUnseen s move) (stepped : step updateInterval s move = some s') : LeftStopped s' := by
  intro left
  cases move with
  | main =>
    cases mainStep_cases stepped with
    | spawned => simp at left
    | _ => exact inv left
  | registerFails =>
    obtain ⟨_, rfl⟩ := step_registerFails stepped
    exact inv left
  | worker =>
    rw [(workerStep_frame stepped).1]
    rcases workerStep_leaves stepped left with ⟨_, stopped⟩ | ⟨place, paused⟩ | place
    · exact stopped
    · exact unseen rfl place paused
    · exact inv (.inl place)
  | control control =>
    obtain ⟨_, rfl⟩ := step_control stepped
    exact inv left
  | handler =>
    obtain ⟨action, rest, _, rfl⟩ := step_handler stepped
    cases action with
    | setPaused value => exact inv left
    | stop => rfl
    | report status => exact inv left

/-! ## The next cycle -/

/-- How far the worker is from the next cycle while nobody touches the flags. -/
def Worker.distance (updateInterval : Int) : Worker → Nat
  | .cycle => 0
  | .loadPaused => 1
  | .loadRunning => 2
  | .waitCount i => 4 * (slices updateInterval - i) + 3
  | .sleeping i => 4 * (slices updateInterval - (i + 1)) + 4
  | .waitPaused i => 4 * (slices updateInterval - (i + 1)) + 5
  | .waitRunning i => 4 * (slices updateInterval - (i + 1)) + 6
  | _ => 0

/-- The worker is in the loop and nothing asks it to leave. -/
structure Looping (s : State) : Prop where
  inLoop : s.worker.inLoop = true
  running : s.running = true
  notPaused : s.paused = false

theorem Looping.step (updateInterval : Int) {s : State} (looping : Looping s) :
    ∃ s', step updateInterval s .worker = some s' ∧ Looping s' ∧
      (s.worker ≠ .cycle → s'.worker.distance updateInterval < s.worker.distance updateInterval) := by
  obtain ⟨inLoop, running, notPaused⟩ := looping
  have moves : ∀ place : Worker, place.inLoop = true → Looping { s with worker := place } :=
    fun place inside => ⟨inside, running, notPaused⟩
  cases place : s.worker with
  | loadRunning =>
    refine ⟨{ s with worker := .loadPaused }, ?_, moves _ rfl, fun _ => Nat.lt_succ_self 1⟩
    simp only [Lifecycle.step, workerStep, place, running, if_true]
  | loadPaused =>
    refine ⟨{ s with worker := .cycle }, ?_, moves _ rfl, fun _ => Nat.zero_lt_one⟩
    simp only [Lifecycle.step, workerStep, place, notPaused, Bool.false_eq_true, if_false]
  | cycle =>
    refine ⟨{ s with worker := .waitCount 0 }, ?_, moves _ rfl, fun elsewhere => absurd rfl elsewhere⟩
    simp only [Lifecycle.step, workerStep, place]
  | waitCount i =>
    by_cases more : i < slices updateInterval
    · refine ⟨{ s with worker := .waitRunning i }, ?_, moves _ rfl, fun _ => ?_⟩
      · simp only [Lifecycle.step, workerStep, place, more, if_true]
      · simp only [Worker.distance]
        omega
    · refine ⟨{ s with worker := .loadRunning }, ?_, moves _ rfl, fun _ => ?_⟩
      · simp only [Lifecycle.step, workerStep, place, more, if_false]
      · simp only [Worker.distance]
        omega
  | waitRunning i =>
    refine ⟨{ s with worker := .waitPaused i }, ?_, moves _ rfl, fun _ => Nat.lt_succ_self _⟩
    simp only [Lifecycle.step, workerStep, place, running, if_true]
  | waitPaused i =>
    refine ⟨{ s with worker := .sleeping i }, ?_, moves _ rfl, fun _ => Nat.lt_succ_self _⟩
    simp only [Lifecycle.step, workerStep, place, notPaused, Bool.false_eq_true, if_false]
  | sleeping i =>
    refine ⟨{ s with worker := .waitCount (i + 1) }, ?_, moves _ rfl, fun _ => Nat.lt_succ_self _⟩
    simp only [Lifecycle.step, workerStep, place]
  | absent | created | entering | leaving | finished => simp [place, Worker.inLoop] at inLoop

theorem Looping.further_cycle {updateInterval : Int} {s : State} (looping : Looping s) :
    ∃ n s', run (Lifecycle.step updateInterval) s (List.replicate (n + 1) .worker) = some s' ∧ s'.worker = .cycle := by
  obtain ⟨next, first, kept, _⟩ := looping.step updateInterval
  have progress : ∀ s : State, Looping s → ¬s.worker = .cycle →
      ∃ s', Lifecycle.step updateInterval s .worker = some s' ∧ Looping s' ∧
        s'.worker.distance updateInterval < s.worker.distance updateInterval := by
    intro s looping elsewhere
    obtain ⟨s', stepped, kept, lower⟩ := looping.step updateInterval
    exact ⟨s', stepped, kept, lower elsewhere⟩
  obtain ⟨n, s', later, cycle⟩ := reaches_of_rank _ _ progress kept
  refine ⟨n, s', ?_, cycle⟩
  rw [List.replicate_succ, run, first]
  exact later

/-! ## Pausing and resuming -/

/-- In every run whose worker leaves the loop for stops only, a service that is reported as
running and is neither stopped nor paused has its worker in the loop, which then comes to
further cycles. -/
theorem resumed_inLoop {updateInterval : Int} {moves : List Move} {s : State}
    (along : Along PauseUnseen (step updateInterval) {} moves)
    (reached : run (step updateInterval) {} moves = some s) (resumed : Resumed s) :
    s.worker.inLoop = true ∧ ∃ n s',
      run (step updateInterval) s (List.replicate (n + 1) .worker) = some s' ∧ s'.worker = .cycle := by
  have start : LeftStopped {} := fun left => by simp at left
  have stopped : LeftStopped s := run_invariant_along step_leftStopped start along reached
  have inLoop : s.worker.inLoop = true := by
    have stays : ¬(s.worker = .leaving ∨ s.worker = .finished) := by
      intro left
      exact Bool.false_ne_true ((stopped left).symm.trans resumed.running)
    have started := resumed.started
    cases place : s.worker with
    | absent | created | entering => simp [place, Worker.started] at started
    | leaving | finished => simp [place] at stays
    | _ => rfl
  exact ⟨inLoop, Looping.further_cycle ⟨inLoop, resumed.running, resumed.notPaused⟩⟩

/-- The service is started, and paused and continued while the worker sleeps in its wait. -/
theorem resumed_inLoop_asleep :
    let moves : List Move := [.main, .main, .main, .worker, .worker, .worker, .worker, .worker, .worker,
      .worker, .worker, .control .pause, .handler, .handler, .handler, .handler, .control .continue_,
      .handler, .handler, .handler, .handler]
    ∃ s, run (step 5) {} moves = some s ∧ s.worker = .sleeping 0 ∧ s.worker.inLoop = true ∧ ∃ n s',
      run (step 5) s (List.replicate (n + 1) .worker) = some s' ∧ s'.worker = .cycle := by
  intro moves
  have along : Along PauseUnseen (step 5) {} moves := by decide +kernel
  let s : State := { status := some .running, main := .waiting, worker := .sleeping 0 }
  have reached : run (step 5) {} moves = some s := by decide +kernel
  exact ⟨s, reached, rfl, resumed_inLoop along reached ⟨rfl, rfl, rfl, rfl⟩⟩

/-- The worker checks the condition between a pause and the resume that follows, and is gone
although the service is reported as running. -/
theorem resumed_behind_loop : ¬∀ (updateInterval : Int) (moves : List Move) (s : State),
    run (step updateInterval) {} moves = some s → Resumed s → s.worker.inLoop = true := by
  intro claim
  let moves : List Move := [.main, .main, .main, .worker, .worker, .worker, .control .pause, .handler, .handler,
    .handler, .handler, .worker, .control .continue_, .handler, .handler, .handler, .handler, .worker]
  let s : State := { status := some .running, main := .waiting, worker := .finished }
  have reached : run (step 5) {} moves = some s := by decide +kernel
  exact Bool.false_ne_true (claim 5 moves s reached ⟨rfl, rfl, rfl, rfl⟩)

end DivoomDev.Service.Lifecycle
