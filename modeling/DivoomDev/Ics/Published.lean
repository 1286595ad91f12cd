import DivoomDev.Ics.EventLedger
import DivoomDev.Ics.WrittenEvents

/-! The event manager over calendars that are served as a writer writes them. What it shows is
told from the plans of their events: no text, no cache and no error is left. -/

namespace DivoomDev.Ics.Published
open DivoomDev.Library.Bytes DivoomDev.Library.Fallible DivoomDev.Library.View Models Datetime Window Pipeline
  Clocks ClockPipeline Cache Loading WrittenProperties WrittenEvents EventLedger

/-! ## Served calendars -/

/-- A calendar with the lines that are written of it, each with its line break. -/
structure Publication (zone : SystemZone) where
  calendar : Calendar
  layout : Layout calendar
  lines : List (Text × Bool)
  broken : lines.map Prod.fst = layout.physical
  filled : lines ≠ []
  converts : ∀ a ∈ calendar.arrangements, ∀ m ∈ a.plan.times, m.Converts zone

variable {zone : SystemZone}

namespace Publication

def body (p : Publication zone) : Text := RoundTrip.writeLines p.lines

/-- What the plans come to on a clock. -/
def events (clock : Platform) (p : Publication zone) (now : TimePoint) (settings : CalendarSettings) :
    List ScheduledEvent :=
  selectEventsOn clock zone (clock.point now) settings
    (p.calendar.arrangements.map (fun a => heldRaw clock (a.plan.raw zone)))

theorem body_filled (p : Publication zone) : p.body ≠ [] := by
  obtain ⟨line, rest, same⟩ := List.exists_cons_of_ne_nil p.filled
  have ends : RoundTrip.lineBreak line.2 ≠ [] := by cases line.2 <;> decide
  simp [body, RoundTrip.writeLines, same, ends]

theorem parse_body (clock : Platform) (p : Publication zone) (now : TimePoint) (settings : CalendarSettings) :
    parseCalendarOn clock zone (clock.point now) settings p.body = .ok (p.events clock now settings) := by
  rw [body, parseCalendarOn_eq_traced, calendarVevents_written p.layout p.converts p.broken]
  simp only [Except.map, tracedEventsOn_map, List.map_map]
  rfl

end Publication

/-- What a server gives for one calendar, if it is there, and the clock at each call that reads it. -/
structure Serving (zone : SystemZone) where
  getNow : TimePoint
  publication : Option (Publication zone)
  putNow : TimePoint
  staleNow : TimePoint
  parseNow : TimePoint

def Serving.answers (s : Serving zone) : Answers where
  getNow := s.getNow
  fetched := s.publication.elim [] Publication.body
  putNow := s.putNow
  staleNow := s.staleNow
  parseNow := s.parseNow

/-- A publication with the time at which it was taken over. -/
structure Copy (zone : SystemZone) where
  publication : Publication zone
  takenAt : TimePoint

def Copy.entry (c : Copy zone) : Entry := ⟨c.publication.body, c.takenAt⟩

def taken (duration : Int) (now : TimePoint) (copy : Option (Copy zone)) : Option (Publication zone) :=
  (copy.filter (fun c => younger duration now c.entry)).map Copy.publication

/-- The publication that is shown of a calendar, and the copy that is then held of it. -/
def latest (lifetimes : Option Lifetimes) (copy : Option (Copy zone)) (s : Serving zone) :
    Option (Publication zone) × Option (Copy zone) :=
  match lifetimes with
  | none => (s.publication, copy)
  | some life =>
      match taken life.ttl s.getNow copy with
      | some p => (some p, copy)
      | none =>
          match s.publication with
          | some p => (some p, some ⟨p, s.putNow⟩)
          | none => (taken (life.ttl + life.staleTtl) s.staleNow copy, copy)

/-! ## The shelf -/

/-- The calls on a manager whose calendars are all published. -/
inductive ReaderCall (zone : SystemZone) where
  | addCalendarUrl (url : Text)
  | addEvent (event : ScheduledEvent)
  | setSettings (settings : CalendarSettings)
  | nextEvents (now : TimePoint) (serving : Text → Serving zone)
  | nextEventsScheduled (now : TimePoint) (serving : Text → Serving zone)

def ReaderCall.call : ReaderCall zone → ManagerCall
  | addCalendarUrl url => .addCalendarUrl url
  | addEvent event => .addEvent event
  | setSettings settings => .setSettings settings
  | nextEvents now serving => .nextEvents now (fun url => (serving url).answers)
  | nextEventsScheduled now serving => .nextEventsScheduled now (fun url => (serving url).answers)

/-- What the manager was told, and the copy held of each calendar. -/
structure Shelf (zone : SystemZone) where
  lifetimes : Option Lifetimes
  settings : CalendarSettings := {}
  manual : List ScheduledEvent := []
  urls : Std.ExtTreeSet Text := ∅
  held : Text → Option (Copy zone) := fun _ => none

namespace Shelf

def calendarEvents (clock : Platform) (serving : Text → Serving zone) (shelf : Shelf zone) (url : Text) :
    List ScheduledEvent :=
  (latest shelf.lifetimes (shelf.held url) (serving url)).1.elim []
    (fun p => p.events clock (serving url).parseNow shelf.settings)

def events (clock : Platform) (serving : Text → Serving zone) (shelf : Shelf zone) : List ScheduledEvent :=
  shelf.manual ++ shelf.urls.toList.flatMap (shelf.calendarEvents clock serving)

def learn (serving : Text → Serving zone) (shelf : Shelf zone) : Shelf zone :=
  { shelf with
    held := fun url =>
      if shelf.urls.contains url then (latest shelf.lifetimes (shelf.held url) (serving url)).2
      else shelf.held url }

def step (shelf : Shelf zone) : ReaderCall zone → Shelf zone
  | .addCalendarUrl url => { shelf with urls := shelf.urls.insert url }
  | .addEvent event => { shelf with manual := shelf.manual ++ [event] }
  | .setSettings settings => { shelf with settings }
  | .nextEvents _ serving => shelf.learn serving
  | .nextEventsScheduled _ serving => shelf.learn serving

/-- A query shows a view of the events on the shelf. -/
def Shows (clock : Platform) (shelf : Shelf zone) : ReaderCall zone → Outcome → Prop
  | .nextEvents now serving, outcome => ∃ shown, outcome = .shown shown ∧
      IsView (fun event : ScheduledEvent => event.start)
        (fun event =>
          inWindow event.start (computeWindowOn clock zone (clock.point now) shelf.settings) = true ∧
            clock.point now < event.end_)
        (shelf.events clock serving) shown
  | .nextEventsScheduled now serving, outcome => ∃ shown, outcome = .shown shown ∧
      IsView (fun event : ScheduledEvent => event.start)
        (fun event => event.start ≤ int64 (clock.point now + int64 (clock.ticks shelf.settings.horizon)))
        (shelf.events clock serving) shown
  | _, outcome => outcome = .done

def Conforms (clock : Platform) : Shelf zone → EventManager → List (ReaderCall zone) → Prop
  | _, _, [] => True
  | shelf, manager, call :: rest =>
      shelf.Shows clock call (perform clock zone manager call.call).1 ∧
        Conforms clock (shelf.step call) (perform clock zone manager call.call).2 rest

/-- The bodies of what is on the shelf. -/
def ledger (shelf : Shelf zone) : Ledger where
  lifetimes := shelf.lifetimes
  settings := shelf.settings
  manual := shelf.manual
  urls := shelf.urls
  known url := (shelf.held url).map Copy.entry

end Shelf

/-! ## The ledger of a shelf -/

theorem younger_copy (duration : Int) (now : TimePoint) (copy : Option (Copy zone)) :
    youngerContent duration now (copy.map Copy.entry) = (taken duration now copy).map Publication.body := by
  rw [youngerContent, Option.filter_map, Option.map_map, taken, Option.map_map]
  rfl

theorem newest_copy (lifetimes : Option Lifetimes) (copy : Option (Copy zone)) (s : Serving zone) :
    newest lifetimes (copy.map Copy.entry) s.answers =
      ((latest lifetimes copy s).1.map Publication.body, (latest lifetimes copy s).2.map Copy.entry) := by
  have fetched : (if s.answers.fetched = [] then none else some s.answers.fetched) =
      s.publication.map Publication.body := by
    cases served : s.publication with
    | none => simp [Serving.answers, served]
    | some p => simp [Serving.answers, served, p.body_filled]
  simp only [newest, latest, fetched]
  cases lifetimes with
  | none => rfl
  | some life =>
    have clock : s.answers.getNow = s.getNow := rfl
    simp only [younger_copy, clock]
    cases taken life.ttl s.getNow copy with
    | some p => rfl
    | none => cases s.publication <;> rfl

section Ledger
variable {clock : Platform} {shelf : Shelf zone} {serving : Text → Serving zone}

theorem calendarEvents_ledger (url : Text) :
    shelf.ledger.calendarEvents clock zone (fun url => (serving url).answers) url =
      .ok (shelf.calendarEvents clock serving url) := by
  rw [Ledger.calendarEvents, Shelf.ledger, newest_copy, Shelf.calendarEvents]
  cases (latest shelf.lifetimes (shelf.held url) (serving url)).1 with
  | none => rfl
  | some p => exact p.parse_body clock _ _

theorem events_ledger :
    shelf.ledger.events clock zone (fun url => (serving url).answers) = .ok (shelf.events clock serving) := by
  have read : (shelf.urls.toList.map id).mapM
        (shelf.ledger.calendarEvents clock zone (fun url => (serving url).answers)) =
      .ok (shelf.urls.toList.map (shelf.calendarEvents clock serving)) :=
    mapM_map_eq (fun url _ => calendarEvents_ledger url)
  rw [List.map_id] at read
  exact congrArg (Except.map (fun lists => shelf.manual ++ lists.flatten)) read

theorem asked_ledger (urls : List Text) :
    shelf.ledger.asked clock zone (fun url => (serving url).answers) urls = urls := by
  induction urls with
  | nil => rfl
  | cons url rest ih => rw [Ledger.asked, calendarEvents_ledger, ih]

theorem learn_ledger :
    shelf.ledger.learn clock zone (fun url => (serving url).answers) = (shelf.learn serving).ledger := by
  have known (url : Text) : (if shelf.urls.toList.contains url then
        (newest shelf.lifetimes ((shelf.held url).map Copy.entry) (serving url).answers).2
      else (shelf.held url).map Copy.entry) =
      (if shelf.urls.contains url then (latest shelf.lifetimes (shelf.held url) (serving url)).2
        else shelf.held url).map Copy.entry := by
    have same : shelf.urls.toList.contains url = shelf.urls.contains url := by
      rw [Bool.eq_iff_iff, List.contains_iff_mem, Std.ExtTreeSet.mem_toList, Std.ExtTreeSet.mem_iff_contains]
    rw [same, newest_copy]
    split_ifs <;> rfl
  rw [Ledger.learn, asked_ledger]
  exact congrArg (fun known => { shelf.ledger with known }) (funext known)

theorem step_ledger (call : ReaderCall zone) : shelf.ledger.step clock zone call.call = (shelf.step call).ledger := by
  cases call with
  | nextEvents now serving => exact learn_ledger
  | nextEventsScheduled now serving => exact learn_ledger
  | _ => rfl

theorem shows_of_allowed {call : ReaderCall zone} {outcome : Outcome}
    (allowed : shelf.ledger.Allowed clock zone call.call outcome) : shelf.Shows clock call outcome := by
  cases call with
  | nextEvents now serving =>
    rw [ReaderCall.call, Ledger.Allowed, events_ledger] at allowed
    exact allowed
  | nextEventsScheduled now serving =>
    rw [ReaderCall.call, Ledger.Allowed, events_ledger] at allowed
    exact allowed
  | _ => exact allowed

end Ledger

theorem conforms_of_ledger {clock : Platform} {shelf : Shelf zone} {manager : EventManager}
    (tracks : Tracks clock shelf.ledger manager) (calls : List (ReaderCall zone)) :
    shelf.Conforms clock manager calls := by
  induction calls generalizing shelf manager with
  | nil => trivial
  | cons call rest ih =>
    refine ⟨shows_of_allowed (perform_allowed tracks call.call), ih ?_⟩
    have stepped : shelf.ledger.step clock zone call.call = (shelf.step call).ledger := step_ledger call
    rw [← stepped]
    exact perform_tracks tracks call.call

/-- In every run over published calendars no query fails, and each shows a view of the plans of the
publications that are newest to the manager, however these were written and folded, as long as the
clock can hold the lifetimes of the cache. -/
theorem published_shown {clock : Platform} (zone : SystemZone) {lifetimes : Option Lifetimes}
    (held : ∀ life ∈ lifetimes, life.HeldBy clock) (calls : List (ReaderCall zone)) :
    Shelf.Conforms clock ({ lifetimes } : Shelf zone) (started lifetimes) calls := by
  have tracks : Tracks clock ({ lifetimes } : Shelf zone).ledger (started lifetimes) := tracks_started held
  exact conforms_of_ledger tracks calls

/-! ## A calendar that goes down -/

/-- The Fridays in Moscow, as they are written and cut. -/
def fridayPublication : Publication (.fixed 0) where
  calendar := fridayCalendar
  layout := fridayLayout
  lines := fridayLines
  broken := fridayLines_fst
  filled := by decide +kernel
  converts _ _ m _ := fixed_converts m

/-- The calendar is read, and ten minutes later the server does not answer. -/
def fridayCalls : List (ReaderCall (.fixed 0)) :=
  [.addCalendarUrl (text "u"),
    .nextEvents (fromTimeT 1789100000) (fun _ => ⟨fromTimeT 1789100000, some fridayPublication,
      fromTimeT 1789100000, 0, fromTimeT 1789100000⟩),
    .nextEvents (fromTimeT 1789100600) (fun _ => ⟨fromTimeT 1789100600, none, 0, fromTimeT 1789100600,
      fromTimeT 1789100600⟩)]

/-- Both queries show the Friday that is near. -/
theorem published_shown_fridays :
    ((fridayPublication.events .msvc (fromTimeT 1789100600) {}).map (fun event => event.start) =
        [fromTimeT 1789113600]) ∧
      Shelf.Conforms .msvc ({ lifetimes := some defaultLifetimes } : Shelf (.fixed 0))
        (started (some defaultLifetimes)) fridayCalls :=
  ⟨by decide +kernel, published_shown _ (by rintro life ⟨⟩; exact defaultLifetimes_held _) _⟩

end DivoomDev.Ics.Published
