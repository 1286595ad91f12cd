import DivoomDev.Service.Lifecycle

/-! How often the worker of the Windows service comes to a cycle, and how a stopped service comes
to its end, for every order in which the parties take their steps. -/

namespace DivoomDev.Service.Shutdown
open DivoomDev.Library.Run Lifecycle

/-! ## Counting -/

/-- A state with the cycles and the 100 ms sleeps that the worker has behind it. -/
structure Tally where
  state : State := {}
  cycles : Nat := 0
  sleeps : Nat := 0
  deriving DecidableEq, Repr

/-- The cycles that the next step of the worker is, and its sleeps. -/
def Worker.cycles : Worker → Nat
  | .cycle => 1
  | _ => 0

def Worker.sleeps : Worker → Nat
  | .sleeping _ => 1
  | _ => 0

def tallyStep (updateInterval : Int) (t : Tally) (move : Move) : Option Tally :=
  (step updateInterval t.state move).map (fun s => {
    state := s
    cycles := t.cycles + if move = .worker then Worker.cycles t.state.worker else 0
    sleeps := t.sleeps + if move = .worker then Worker.sleeps t.state.worker else 0 })

/-! ## The pace of the cycles -/

/-- The slices of the wait that the worker has still in front of it. -/
def Worker.slicesLeft (updateInterval : Int) : Worker → Nat
  | .waitCount i | .waitRunning i | .waitPaused i | .sleeping i => slices updateInterval - i
  | _ => 0

/-- The worker goes on waiting only where slices are left. -/
def Worker.withinWait (updateInterval : Int) : Worker → Prop
  | .waitRunning i | .waitPaused i | .sleeping i => i < slices updateInterval
  | _ => True

/-- Neither of the two flags asks the worker to leave the loop. -/
def Untouched (s : State) : Prop := s.running = true ∧ s.paused = false

/-- The worker is there only once `service_main` has made it. -/
def Spawned (s : State) : Prop :=
  s.main = .registering ∨ s.main = .starting ∨ s.main = .spawning → s.worker = .absent

/-- The cycles have no more sleeps behind them, or still in front of them, than their waits have
slices. -/
structure Paced (updateInterval : Int) (t : Tally) : Prop where
  spawned : Spawned t.state
  within : Worker.withinWait updateInterval t.state.worker
  atMost : t.sleeps + Worker.slicesLeft updateInterval t.state.worker ≤ slices updateInterval * t.cycles

/-- No wait was cut short. -/
def Exact (updateInterval : Int) (t : Tally) : Prop :=
  t.sleeps + Worker.slicesLeft updateInterval t.state.worker = slices updateInterval * t.cycles

section
variable {updateInterval : Int} {t t' : Tally}

/-- What a step of another party than the worker leaves to it. -/
theorem step_worker_same {s s' : State} {move : Move} (other : move ≠ .worker)
    (stepped : step updateInterval s move = some s') :
    (s'.worker = s.worker ∧ (Spawned s → Spawned s')) ∨
      (s.main = .spawning ∧ s'.main = .waiting ∧ s'.worker = .created) := by
  cases move with
  | worker => exact absurd rfl other
  | main =>
    cases mainStep_cases stepped with
    | registered place => exact .inl ⟨rfl, fun spawned _ => spawned (.inl place)⟩
    | reported place => exact .inl ⟨rfl, fun spawned _ => spawned (.inr (.inl place))⟩
    | spawned place => exact .inr ⟨place, rfl, rfl⟩
    | waited => exact .inl ⟨rfl, id⟩
    | woke | joined | returned => exact .inl ⟨rfl, fun _ early => by simp at early⟩
  | registerFails =>
    obtain ⟨_, rfl⟩ := step_registerFails stepped
    exact .inl ⟨rfl, fun _ early => by simp at early⟩
  | control control =>
    obtain ⟨_, rfl⟩ := step_control stepped
    exact .inl ⟨rfl, id⟩
  | handler =>
    obtain ⟨action, rest, _, rfl⟩ := step_handler stepped
    cases action <;> exact .inl ⟨rfl, id⟩

/-- A cycle begins a wait of all slices, and a sleep takes one of them; only the flags cut a wait
short. -/
theorem workerStep_slices {s s' : State} (within : Worker.withinWait updateInterval s.worker)
    (moved : workerStep updateInterval s = some s') :
    Worker.withinWait updateInterval s'.worker ∧
      Worker.sleeps s.worker + Worker.slicesLeft updateInterval s'.worker ≤
        Worker.slicesLeft updateInterval s.worker + slices updateInterval * Worker.cycles s.worker ∧
      (Untouched s → Worker.sleeps s.worker + Worker.slicesLeft updateInterval s'.worker =
        Worker.slicesLeft updateInterval s.worker + slices updateInterval * Worker.cycles s.worker) := by
  cases workerStep_cases moved with
  | waited i place done =>
    have none : slices updateInterval - i = 0 := by omega
    simp [place, none, Worker.withinWait, Worker.sleeps, Worker.slicesLeft, Worker.cycles]
  | waits i place more =>
    simp [place, more, Worker.withinWait, Worker.sleeps, Worker.slicesLeft, Worker.cycles]
  | slept i place =>
    rw [place] at within ⊢
    simp only [Worker.withinWait] at within
    refine ⟨trivial, ?_, fun _ => ?_⟩
    · simp only [Worker.sleeps, Worker.slicesLeft, Worker.cycles]
      omega
    · simp only [Worker.sleeps, Worker.slicesLeft, Worker.cycles]
      omega
  | waitRuns i place | sleeps i place =>
    rw [place] at within ⊢
    exact ⟨within, by simp [Worker.sleeps, Worker.slicesLeft, Worker.cycles],
      fun _ => by simp [Worker.sleeps, Worker.slicesLeft, Worker.cycles]⟩
  -- a flag that is set cuts the wait short
  | waitStops i place stopped =>
    simp [place, stopped, Untouched, Worker.withinWait, Worker.sleeps, Worker.slicesLeft, Worker.cycles]
  | waitPauses i place paused =>
    simp [place, paused, Untouched, Worker.withinWait, Worker.sleeps, Worker.slicesLeft, Worker.cycles]
  | reported place | entered place | runs place | stops place | begins place | pauses place | cycled place
  | left place =>
    simp [place, Worker.withinWait, Worker.sleeps, Worker.slicesLeft, Worker.cycles]

/-- A step of the worker leaves the other parties where they are. -/
theorem workerStep_others {s s' : State} (moved : workerStep updateInterval s = some s') :
    s'.main = s.main ∧ s'.handler = s.handler := by
  cases workerStep_cases moved <;> exact ⟨rfl, rfl⟩

theorem workerStep_spawned {s s' : State} (spawned : Spawned s) (moved : workerStep updateInterval s = some s') :
    Spawned s' := by
  intro early
  rw [(workerStep_others moved).1] at early
  rw [workerStep, spawned early] at moved
  cases moved

/-- One step for both: the bound is kept, and so is exactness where neither flag is set. -/
theorem tallyStep_paced {move : Move} (paced : Paced updateInterval t)
    (stepped : tallyStep updateInterval t move = some t') :
    Paced updateInterval t' ∧ (Untouched t.state → Exact updateInterval t → Exact updateInterval t') := by
  obtain ⟨s, moved, rfl⟩ := Option.map_eq_some_iff.mp stepped
  by_cases byWorker : move = .worker
  · subst byWorker
    obtain ⟨within, atMost, exact_⟩ := workerStep_slices paced.within moved
    have before := paced.atMost
    refine ⟨⟨workerStep_spawned paced.spawned moved, within, ?_⟩, fun untouched balanced => ?_⟩
    · simp only [if_true, Nat.mul_add]
      omega
    · have balance := exact_ untouched
      simp only [Exact, if_true, Nat.mul_add] at balanced ⊢
      omega
  · simp only [if_neg byWorker, Nat.add_zero]
    rcases step_worker_same byWorker moved with ⟨same, spawned⟩ | ⟨spawning, waiting, created⟩
    · refine ⟨⟨spawned paced.spawned, same ▸ paced.within, ?_⟩, fun _ balanced => ?_⟩
      · simpa only [same] using paced.atMost
      · simpa only [Exact, same] using balanced
    · have absent := paced.spawned (.inr (.inr spawning))
      have atMost := paced.atMost
      rw [absent] at atMost
      refine ⟨⟨fun early => by simp [waiting] at early, ?_, ?_⟩, fun _ balanced => ?_⟩
      · rw [created]
        trivial
      · rw [created]
        exact atMost
      · rw [Exact, absent] at balanced
        rw [Exact, created]
        exact balanced

/-- The two threads of the service themselves touch no flag. -/
theorem untouched_alone {moves : List Move} (alone : ∀ move ∈ moves, move = .main ∨ move = .worker)
    (untouched : Untouched t.state) :
    Along (fun t _ => Untouched t.state) (tallyStep updateInterval) t moves := by
  induction moves generalizing t with
  | nil => trivial
  | cons move rest ih =>
    obtain ⟨here, later⟩ := List.forall_mem_cons.mp alone
    refine ⟨untouched, fun t' stepped => ih later ?_⟩
    obtain ⟨s, moved, rfl⟩ := Option.map_eq_some_iff.mp stepped
    rcases here with rfl | rfl
    · cases mainStep_cases moved <;> exact untouched
    · obtain ⟨running, paused⟩ := workerStep_frame moved
      exact ⟨running.trans untouched.1, paused.trans untouched.2⟩

/-- For every order of steps the worker sleeps at most through the waits of its cycles; and where
the service is never paused or stopped, it comes to each cycle after exactly all their slices. -/
theorem cycles_paced {moves : List Move} (reached : run (tallyStep updateInterval) {} moves = some t) :
    t.sleeps ≤ slices updateInterval * t.cycles ∧
      (Along (fun t _ => Untouched t.state) (tallyStep updateInterval) {} moves → t.state.worker = .cycle →
        t.sleeps = slices updateInterval * t.cycles) := by
  have start : Paced updateInterval {} := ⟨fun _ => rfl, trivial, Nat.zero_le _⟩
  have paced := run_invariant_of_step (I := Paced updateInterval)
    (fun _ _ _ paced stepped => (tallyStep_paced paced stepped).1) start reached
  refine ⟨(Nat.le_add_right _ _).trans paced.atMost, fun along atCycle => ?_⟩
  have balanced := run_invariant_along (I := fun t => Paced updateInterval t ∧ Exact updateInterval t)
    (fun _ _ _ both untouched stepped =>
      have kept := tallyStep_paced both.1 stepped
      ⟨kept.1, kept.2 untouched both.2⟩) ⟨start, rfl⟩ along reached
  have exact_ := balanced.2
  rw [Exact, atCycle] at exact_
  exact exact_

/-! ## The end of a stopped service -/

/-- How many steps the worker has left once the service is stopped. -/
def Worker.toFinish : Worker → Nat
  | .finished => 0
  | .leaving => 1
  | .loadRunning => 2
  | .waitRunning _ | .entering => 3
  | .waitCount _ | .created => 4
  | .cycle | .sleeping _ | .absent => 5
  | .loadPaused | .waitPaused _ => 6

def Main.toReturn : Main → Nat
  | .returned | .unregistered => 0
  | .stopping => 1
  | .joining => 2
  | .waiting => 3
  | .spawning => 4
  | .starting => 5
  | .registering => 6

/-- A cycle for which the worker has checked the flags already is still made. -/
def Worker.cyclesLeft : Worker → Nat
  | .cycle | .loadPaused => 1
  | _ => 0

/-- The handler is called once it is registered, and `service_main` returns behind its worker. -/
structure Ordered (s : State) : Prop where
  spawned : Spawned s
  registered : s.handler ≠ [] ∨ s.running = false → s.main ≠ .registering ∧ s.main ≠ .unregistered
  joined : s.main = .stopping ∨ s.main = .returned → s.worker = .finished
  waitedFor : s.main = .waiting ∨ s.main = .joining → s.worker ≠ .absent

theorem workerStep_ends {s s' : State} (stopped : s.running = false)
    (moved : workerStep updateInterval s = some s') :
    Worker.toFinish s'.worker < Worker.toFinish s.worker ∧
      Worker.cycles s.worker + Worker.cyclesLeft s'.worker ≤ Worker.cyclesLeft s.worker := by
  cases workerStep_cases moved with
  | runs place running => simp [stopped] at running
  | waitRuns i place running => simp [stopped] at running
  | waits i place | waited i place | waitStops i place | sleeps i place | waitPauses i place | slept i place =>
    simp [place, Worker.toFinish, Worker.cycles, Worker.cyclesLeft]
  | reported place | entered place | stops place | begins place | pauses place | cycled place | left place =>
    simp [place, Worker.toFinish, Worker.cycles, Worker.cyclesLeft]

theorem workerStep_ordered {s s' : State} (ordered : Ordered s) (moved : workerStep updateInterval s = some s') :
    Ordered s' := by
  have unfinished : s.worker ≠ .finished := by
    intro finished
    rw [workerStep, finished] at moved
    cases moved
  have present : s'.worker ≠ .absent := by
    cases workerStep_cases moved <;> simp
  obtain ⟨main, handler⟩ := workerStep_others moved
  have running := (workerStep_frame moved).1
  refine ⟨workerStep_spawned ordered.spawned moved, ?_, ?_, fun _ => present⟩
  · rw [main, handler, running]
    exact ordered.registered
  · rw [main]
    exact fun late => absurd (ordered.joined late) unfinished

theorem mainStep_ordered {s s' : State} (ordered : Ordered s) (moved : mainStep s = some s') :
    Ordered s' ∧ s'.running = s.running ∧
      (s.running = false → Main.toReturn s'.main < Main.toReturn s.main ∧
        Worker.toFinish s'.worker ≤ Worker.toFinish s.worker ∧
        Worker.cyclesLeft s'.worker ≤ Worker.cyclesLeft s.worker) := by
  cases mainStep_cases moved with
  | registered place =>
    refine ⟨⟨fun _ => ordered.spawned (.inl place), fun _ => by simp, by simp, by simp⟩, rfl, fun _ => ?_⟩
    simp [Main.toReturn, place]
  | reported place =>
    refine ⟨⟨fun _ => ordered.spawned (.inr (.inl place)), fun _ => by simp, by simp, by simp⟩, rfl,
      fun _ => ?_⟩
    simp [Main.toReturn, place]
  | spawned place =>
    refine ⟨⟨by simp [Spawned], fun _ => by simp, by simp, by simp⟩, rfl, fun _ => ?_⟩
    simp [Main.toReturn, place, ordered.spawned (.inr (.inr place)), Worker.toFinish, Worker.cyclesLeft]
  | waited place running => exact ⟨ordered, rfl, fun stopped => by simp [running] at stopped⟩
  | woke place stopped =>
    refine ⟨⟨by simp [Spawned], fun _ => by simp, by simp, fun _ => ordered.waitedFor (.inl place)⟩, rfl,
      fun _ => ?_⟩
    simp [Main.toReturn, place]
  | joined place finished =>
    refine ⟨⟨by simp [Spawned], fun _ => by simp, fun _ => finished, by simp⟩, rfl, fun _ => ?_⟩
    simp [Main.toReturn, place]
  | returned place =>
    refine ⟨⟨by simp [Spawned], fun _ => by simp, fun _ => ordered.joined (.inl place), by simp⟩, rfl,
      fun _ => ?_⟩
    simp [Main.toReturn, place]

/-- What the handler does leaves the other parties where they are, and never starts the service
again. -/
theorem step_frame {s s' : State} {move : Move} (notMain : move ≠ .main) (notWorker : move ≠ .worker)
    (ordered : Ordered s) (moved : step updateInterval s move = some s') :
    Ordered s' ∧ (s.running = false → s'.running = false ∧ s'.main = s.main ∧ s'.worker = s.worker) := by
  cases move with
  | main => exact absurd rfl notMain
  | worker => exact absurd rfl notWorker
  | registerFails =>
    obtain ⟨place, rfl⟩ := step_registerFails moved
    have early : s.running = true := by
      by_contra stopped
      exact (ordered.registered (.inr (by simpa using stopped))).1 place
    exact ⟨⟨by simp [Spawned], fun late => absurd place (ordered.registered late).1, by simp, by simp⟩,
      fun stopped => by simp [early] at stopped⟩
  | control control =>
    obtain ⟨registered, rfl⟩ := step_control moved
    exact ⟨⟨ordered.spawned, fun _ => registered, ordered.joined, ordered.waitedFor⟩,
      fun stopped => ⟨stopped, rfl, rfl⟩⟩
  | handler =>
    obtain ⟨action, rest, pending, rfl⟩ := step_handler moved
    have registered := ordered.registered (.inl (by simp [pending]))
    cases action with
    | stop =>
      exact ⟨⟨ordered.spawned, fun _ => registered, ordered.joined, ordered.waitedFor⟩,
        fun _ => ⟨rfl, rfl, rfl⟩⟩
    | _ =>
      exact ⟨⟨ordered.spawned, fun _ => registered, ordered.joined, ordered.waitedFor⟩,
        fun stopped => ⟨stopped, rfl, rfl⟩⟩

theorem step_ordered {s s' : State} {move : Move} (ordered : Ordered s)
    (moved : step updateInterval s move = some s') : Ordered s' := by
  by_cases byWorker : move = .worker
  · subst byWorker
    exact workerStep_ordered ordered moved
  by_cases byMain : move = .main
  · subst byMain
    exact (mainStep_ordered ordered moved).1
  · exact (step_frame byMain byWorker ordered moved).1

/-- A stopped service with the steps that it has left at most. -/
structure Winding (t : Tally) : Prop where
  ordered : Ordered t.state
  stopped : t.state.running = false

theorem tallyStep_winds {move : Move} (winding : Winding t) (stepped : tallyStep updateInterval t move = some t') :
    Winding t' ∧
      (if move = .worker then 1 else 0) + Worker.toFinish t'.state.worker ≤ Worker.toFinish t.state.worker ∧
      (if move = .main then 1 else 0) + Main.toReturn t'.state.main ≤ Main.toReturn t.state.main ∧
      t'.cycles + Worker.cyclesLeft t'.state.worker ≤ t.cycles + Worker.cyclesLeft t.state.worker := by
  obtain ⟨ordered, stopped⟩ := winding
  obtain ⟨s, moved, rfl⟩ := Option.map_eq_some_iff.mp stepped
  have ordered' := step_ordered ordered moved
  by_cases byWorker : move = .worker
  · subst byWorker
    obtain ⟨finish, cycles⟩ := workerStep_ends stopped moved
    have main := (workerStep_others moved).1
    simp only [if_true, main, reduceCtorEq, if_false]
    exact ⟨⟨ordered', (workerStep_frame moved).1.trans stopped⟩, by omega, by omega, by omega⟩
  by_cases byMain : move = .main
  · subst byMain
    obtain ⟨_, running, ends⟩ := mainStep_ordered ordered moved
    obtain ⟨return_, finish, cycles⟩ := ends stopped
    simp only [reduceCtorEq, if_false, if_true]
    exact ⟨⟨ordered', running.trans stopped⟩, by omega, by omega, by omega⟩
  · obtain ⟨running, main, worker⟩ := (step_frame byMain byWorker ordered moved).2 stopped
    simp only [byWorker, byMain, if_false, main, worker]
    exact ⟨⟨ordered', running⟩, by omega, by omega, by omega⟩

theorem run_winds {moves : List Move} (winding : Winding t)
    (reached : run (tallyStep updateInterval) t moves = some t') :
    Winding t' ∧
      moves.count .worker + Worker.toFinish t'.state.worker ≤ Worker.toFinish t.state.worker ∧
      moves.count .main + Main.toReturn t'.state.main ≤ Main.toReturn t.state.main ∧
      t'.cycles + Worker.cyclesLeft t'.state.worker ≤ t.cycles + Worker.cyclesLeft t.state.worker := by
  induction moves generalizing t with
  | nil =>
    obtain rfl : t = t' := Option.some.inj reached
    exact ⟨winding, by simp, by simp, le_rfl⟩
  | cons move rest ih =>
    obtain ⟨middle, first, later⟩ := Option.bind_eq_some_iff.mp reached
    obtain ⟨winding₁, worker₁, main₁, cycles₁⟩ := tallyStep_winds winding first
    obtain ⟨winding₂, worker₂, main₂, cycles₂⟩ := ih winding₁ later
    refine ⟨winding₂, ?_, ?_, cycles₂.trans cycles₁⟩
    · rw [List.count_cons]
      simp only [beq_iff_eq]
      omega
    · rw [List.count_cons]
      simp only [beq_iff_eq]
      omega

/-- As long as `service_main` has not returned, it or its worker can take a step. -/
theorem Winding.goes_on (winding : Winding t) (updateInterval : Int) : t.state.main = .returned ∨
    ∃ move ∈ [Move.main, .worker], (step updateInterval t.state move).isSome := by
  obtain ⟨ordered, stopped⟩ := winding
  obtain ⟨registered, attached⟩ := ordered.registered (.inr stopped)
  cases place : t.state.main with
  | registering => exact absurd place registered
  | unregistered => exact absurd place attached
  | returned => exact .inl rfl
  | joining =>
    right
    cases worker : t.state.worker with
    | absent => exact absurd worker (ordered.waitedFor (.inr place))
    | finished => exact ⟨.main, by simp, by simp [step, mainStep, place, worker]⟩
    | _ => exact ⟨.worker, by simp, by simp [step, workerStep, worker]⟩
  | _ => exact .inr ⟨.main, by simp, by simp [step, mainStep, place]⟩

/-- Once the service is stopped, whatever controls still come: its worker takes at most six steps
more, at most one of them a cycle, and `service_main` at most five; one of the two can go on until
`service_main` returns, and then the worker has finished. -/
theorem stop_completes {moves later : List Move} {s : State}
    (reached : run (step updateInterval) {} moves = some s) (stopped : s.running = false)
    (further : run (tallyStep updateInterval) ⟨s, 0, 0⟩ later = some t) :
    later.count .worker ≤ 6 ∧ later.count .main ≤ 5 ∧ t.cycles ≤ 1 ∧
      (t.state.main = .returned ∨ ∃ move ∈ [Move.main, .worker], (step updateInterval t.state move).isSome) ∧
      (t.state.main = .returned → t.state.worker = .finished) := by
  have start : Ordered {} := ⟨fun _ => rfl, by simp, by simp, by simp⟩
  have ordered := run_invariant_of_step (I := Ordered) (fun _ _ _ => step_ordered) start reached
  have winding : Winding ⟨s, 0, 0⟩ := ⟨ordered, stopped⟩
  obtain ⟨winding', worker, main, cycles⟩ := run_winds winding further
  have finish : Worker.toFinish s.worker ≤ 6 := by cases s.worker <;> simp [Worker.toFinish]
  have return_ : Main.toReturn s.main ≤ 5 := by
    have registered := (ordered.registered (.inr stopped)).1
    cases place : s.main <;> simp [Main.toReturn]
    exact registered place
  have left : Worker.cyclesLeft s.worker ≤ 1 := by cases s.worker <;> simp [Worker.cyclesLeft]
  simp only at worker main cycles
  exact ⟨by omega, by omega, by omega, winding'.goes_on updateInterval,
    fun done => winding'.ordered.joined (.inr done)⟩

/-! ## The last report -/

/-- STOPPED stays the status where the handler does nothing more once `service_main` has returned. -/
theorem stopped_lasts {moves : List Move} {s : State}
    (along : Along (fun s move => move = .handler → s.main ≠ .returned) (step updateInterval) {} moves)
    (reached : run (step updateInterval) {} moves = some s) (done : s.main = .returned) :
    s.status = some .stopped := by
  have kept := run_invariant_along
    (I := fun s => Ordered s ∧ (s.main = .returned → s.status = some .stopped))
    (fun s move s' inv idle moved => ?_) ⟨⟨fun _ => rfl, by simp, by simp, by simp⟩, by simp⟩ along reached
  · exact kept.2 done
  obtain ⟨ordered, reported⟩ := inv
  refine ⟨step_ordered ordered moved, fun returned => ?_⟩
  cases move with
  | main =>
    cases mainStep_cases moved with
    | returned => rfl
    | waited => exact reported returned
    | _ => cases returned
  | worker =>
    have finished := ordered.joined (.inr ((workerStep_others moved).1 ▸ returned))
    simp only [step, workerStep, finished] at moved
    cases moved
  | registerFails =>
    obtain ⟨_, rfl⟩ := step_registerFails moved
    cases returned
  | control control =>
    obtain ⟨_, rfl⟩ := step_control moved
    exact reported returned
  | handler =>
    obtain ⟨action, rest, _, rfl⟩ := step_handler moved
    have behind : s.main = .returned := by cases action <;> exact returned
    exact absurd behind (idle rfl)

/-- Else the handler may report STOP_PENDING behind it. -/
example : (run (step 5) {} [.main, .main, .main, .control .stop, .handler, .handler, .main, .worker, .worker,
    .worker, .worker, .main, .main, .handler]).map State.status = some (some .stopPending) := by decide +kernel

end

/-- From the start of the service to its second cycle, with an interval of one minute. -/
def twoCycles : List Move := [.main, .main, .main] ++ List.replicate 2408 .worker

theorem cycles_paced_minute :
    ∃ t, run (tallyStep 1) {} twoCycles = some t ∧ t.state.worker = .cycle ∧ t.cycles = 1 ∧
      t.sleeps = slices 1 * t.cycles := by
  have reached : run (tallyStep 1) {} twoCycles =
      some ⟨{ status := some .running, main := .waiting, worker := .cycle }, 1, 600⟩ := by decide +kernel
  have untouched : Along (fun t _ => Untouched t.state) (tallyStep 1) {} twoCycles := by
    refine untouched_alone (fun move member => ?_) ⟨rfl, rfl⟩
    rcases List.mem_append.mp member with first | worker
    · exact .inl (by simpa using first)
    · exact .inr (List.eq_of_mem_replicate worker)
  exact ⟨_, reached, rfl, rfl, (cycles_paced reached).2 untouched rfl⟩

/-- The service is stopped while its worker sleeps, and paused before the worker sees it. -/
theorem stop_completes_asleep :
    let later : List Move := [.main, .worker, .handler, .control .pause, .handler, .worker, .worker, .worker,
      .worker, .main, .main]
    ∃ t : Tally, t.state.main = .returned ∧ later.count .worker ≤ 6 ∧ later.count .main ≤ 5 ∧ t.cycles ≤ 1 ∧
      (t.state.main = .returned ∨ ∃ move ∈ [Move.main, .worker], (step 5 t.state move).isSome) ∧
      (t.state.main = .returned → t.state.worker = .finished) := by
  intro later
  have reached : run (step 5) {} ([.main, .main, .main] ++ List.replicate 8 .worker ++
      [.control .stop, .handler, .handler]) = some {
        running := false
        status := some .running
        main := .waiting
        worker := .sleeping 0
        handler := [.report .stopPending] } := by decide +kernel
  have further : run (tallyStep 5) ⟨{
        running := false
        status := some .running
        main := .waiting
        worker := .sleeping 0
        handler := [.report .stopPending] }, 0, 0⟩ later = some ⟨{
          running := false
          paused := true
          status := some .stopped
          main := .returned
          worker := .finished
          handler := [.report .pausePending, .setPaused true, .report .paused] }, 0, 1⟩ := by decide +kernel
  exact ⟨_, rfl, stop_completes reached rfl further⟩

end DivoomDev.Service.Shutdown
