import DivoomDev.Library.View
import DivoomDev.Ics.NextEvents

/-! The event manager against a ledger of what it was told. The ledger has no list of fetched
events and no cache: it knows the latest body of each calendar, and answers every query from these. -/

namespace DivoomDev.Ics.EventLedger
open DivoomDev.Library.Bytes DivoomDev.Library.Fallible DivoomDev.Library.View Models Datetime Window Pipeline
  Clocks ClockPipeline ParseErrors Cache Loading NextEvents

/-! ## Calls on the manager -/

inductive ManagerCall where
  | addCalendarUrl (url : Text)
  | addEvent (event : ScheduledEvent)
  | setSettings (settings : CalendarSettings)
  | nextEvents (now : TimePoint) (answers : Text → Answers)
  | nextEventsScheduled (now : TimePoint) (answers : Text → Answers)

inductive Outcome where
  | done
  | shown (events : List ScheduledEvent)
  | failed (e : StdError)

/-- The manager behind a load, whether or not it got through. -/
def afterLoad (p : Platform) (zone : SystemZone) (answers : Text → Answers) (manager : EventManager) : EventManager :=
  managerAfter p zone answers ({ manager with fetchedEvents := [] }, []) manager.calendarUrls.toList

def outcomeOf : Except StdError (EventManager × List ScheduledEvent) → Outcome
  | .ok (_, events) => .shown events
  | .error e => .failed e

def perform (p : Platform) (zone : SystemZone) (manager : EventManager) : ManagerCall → Outcome × EventManager
  | .addCalendarUrl url => (.done, manager.addCalendarUrl url)
  | .addEvent event => (.done, { manager with manualEvents := manager.manualEvents ++ [event] })
  | .setSettings settings => (.done, { manager with settings })
  | .nextEvents now answers =>
      (outcomeOf (getNextEvents p zone now answers manager), afterLoad p zone answers manager)
  | .nextEventsScheduled now answers =>
      (outcomeOf (getNextEventsScheduled p zone now answers manager), afterLoad p zone answers manager)

/-! ## The ledger -/

/-- How long a body counts as new, and how much longer it may stand in for a failed fetch. -/
structure Lifetimes where
  ttl : Int
  staleTtl : Int

/-- The clock can hold both durations and their sum. -/
structure Lifetimes.HeldBy (p : Platform) (life : Lifetimes) : Prop where
  fresh : Held p life.ttl
  whole : Held p (life.ttl + life.staleTtl)

/-- What the manager was told, and the latest body of each calendar, where bodies are kept at all. -/
structure Ledger where
  lifetimes : Option Lifetimes
  settings : CalendarSettings := {}
  manual : List ScheduledEvent := []
  urls : Std.ExtTreeSet Text := ∅
  known : Text → Option Entry := fun _ => none

/-- The content of an entry that is younger than this. -/
def youngerContent (duration : Int) (now : TimePoint) (entry : Option Entry) : Option Text :=
  (entry.filter (younger duration now)).map Entry.content

/-- The content that is taken for a calendar, and the entry that is then known of it. -/
def newest (lifetimes : Option Lifetimes) (entry : Option Entry) (a : Answers) : Option Text × Option Entry :=
  let fetched := if a.fetched = [] then none else some a.fetched
  match lifetimes with
  | none => (fetched, entry)
  | some life =>
      match youngerContent life.ttl a.getNow entry with
      | some content => (some content, entry)
      | none =>
          match fetched with
          | some content => (some content, some ⟨content, a.putNow⟩)
          | none => (youngerContent (life.ttl + life.staleTtl) a.staleNow entry, entry)

namespace Ledger

def calendarEvents (p : Platform) (zone : SystemZone) (answers : Text → Answers) (ledger : Ledger) (url : Text) :
    Except StdError (List ScheduledEvent) :=
  match (newest ledger.lifetimes (ledger.known url) (answers url)).1 with
  | none => pure []
  | some content => parseCalendarOn p zone (p.point (answers url).parseNow) ledger.settings content

/-- All events, or the error of the first calendar that does not read. -/
def events (p : Platform) (zone : SystemZone) (answers : Text → Answers) (ledger : Ledger) :
    Except StdError (List ScheduledEvent) :=
  (ledger.urls.toList.mapM (ledger.calendarEvents p zone answers)).map (fun lists => ledger.manual ++ lists.flatten)

/-- The calendars up to the first one that does not read. -/
def asked (p : Platform) (zone : SystemZone) (answers : Text → Answers) (ledger : Ledger) : List Text → List Text
  | [] => []
  | url :: rest =>
      match ledger.calendarEvents p zone answers url with
      | .ok _ => url :: ledger.asked p zone answers rest
      | .error _ => [url]

/-- Only the calendars that were asked are known anew. -/
def learn (p : Platform) (zone : SystemZone) (answers : Text → Answers) (ledger : Ledger) : Ledger :=
  { ledger with
    known := fun url =>
      if (ledger.asked p zone answers ledger.urls.toList).contains url then
        (newest ledger.lifetimes (ledger.known url) (answers url)).2
      else ledger.known url }

def step (p : Platform) (zone : SystemZone) (ledger : Ledger) : ManagerCall → Ledger
  | .addCalendarUrl url => { ledger with urls := ledger.urls.insert url }
  | .addEvent event => { ledger with manual := ledger.manual ++ [event] }
  | .setSettings settings => { ledger with settings }
  | .nextEvents _ answers => ledger.learn p zone answers
  | .nextEventsScheduled _ answers => ledger.learn p zone answers

/-- The answer is a view of all events in the order of their starts, or the error of a calendar. -/
def Answered (visible : ScheduledEvent → Prop) [DecidablePred visible] :
    Except StdError (List ScheduledEvent) → Outcome → Prop
  | .ok all, outcome => ∃ shown, outcome = .shown shown ∧
      IsView (fun event : ScheduledEvent => event.start) visible all shown
  | .error e, outcome => outcome = .failed e

/-- What a call may answer. -/
def Allowed (p : Platform) (zone : SystemZone) (ledger : Ledger) : ManagerCall → Outcome → Prop
  | .nextEvents now answers, outcome =>
      Answered (fun event =>
          inWindow event.start (computeWindowOn p zone (p.point now) ledger.settings) = true ∧
            p.point now < event.end_)
        (ledger.events p zone answers) outcome
  | .nextEventsScheduled now answers, outcome =>
      Answered (fun event => event.start ≤ int64 (p.point now + int64 (p.ticks ledger.settings.horizon)))
        (ledger.events p zone answers) outcome
  | _, outcome => outcome = .done

/-- Every call of the run answers what the ledger allows. -/
def Conforms (p : Platform) (zone : SystemZone) : Ledger → EventManager → List ManagerCall → Prop
  | _, _, [] => True
  | ledger, manager, call :: rest =>
      ledger.Allowed p zone call (perform p zone manager call).1 ∧
        Conforms p zone (ledger.step p zone call) (perform p zone manager call).2 rest

end Ledger

/-! ## One calendar -/

theorem lookup_eq_younger {c : IcsCache} {url : Text} {entry : Option Entry} (stored : c.store[url]? = entry)
    (duration : Int) (now : TimePoint) : c.lookup url (younger duration now) = youngerContent duration now entry := by
  rw [IcsCache.lookup, stored]
  cases entry with
  | none => rfl
  | some e => simp [youngerContent, Option.filter]

theorem younger_filled {entry : Option Entry} (filled : ∀ e ∈ entry, e.content ≠ []) {duration : Int}
    {now : TimePoint} {content : Text} (given : youngerContent duration now entry = some content) : content ≠ [] := by
  obtain ⟨e, kept, rfl⟩ := Option.map_eq_some_iff.mp given
  exact filled e (Option.filter_eq_some_iff.mp kept).1

/-- An entry of the cache as the ledger knows it. -/
def entryAs (lifetimes : Option Lifetimes) (entry : Option Entry) : Option (Int × Int × Option Entry) :=
  lifetimes.map (fun life => (life.ttl, life.staleTtl, entry))

/-- The cache has what the ledger knows of a calendar. -/
structure CacheKnows (p : Platform) (ledger : Ledger) (cache : Option IcsCache) (url : Text) : Prop where
  held : ∀ life ∈ ledger.lifetimes, life.HeldBy p
  entry : entryOf url cache = entryAs ledger.lifetimes (ledger.known url)
  filled : ∀ e ∈ ledger.known url, e.content ≠ []

theorem loadContent_newest {p : Platform} {ledger : Ledger} {cache : Option IcsCache} {url : Text}
    (knows : CacheKnows p ledger cache url) (a : Answers) :
    (loadContent p cache url a).parsed = (newest ledger.lifetimes (ledger.known url) a).1 ∧
      entryOf url (loadContent p cache url a).after =
        entryAs ledger.lifetimes (newest ledger.lifetimes (ledger.known url) a).2 := by
  obtain ⟨lives, entry, filled⟩ := knows
  cases cache with
  | none =>
    cases lifetimes : ledger.lifetimes with
    | none => by_cases failed : a.fetched = [] <;> simp [loadContent, newest, failed, entryOf, entryAs]
    | some life => simp [entryOf, entryAs, lifetimes] at entry
  | some c =>
    cases lifetimes : ledger.lifetimes with
    | none => simp [entryOf, entryAs, lifetimes] at entry
    | some life =>
      obtain ⟨fresh, whole⟩ := lives life lifetimes
      obtain ⟨ttl, staleTtl⟩ := life
      simp only [entryOf, entryAs, lifetimes, Option.map_some, Option.some.injEq, Prod.mk.injEq] at entry
      obtain ⟨rfl, rfl, held⟩ := entry
      simp only [newest, loadContent, Option.bind_some, IcsCache.get_eq fresh, lookup_eq_younger held]
      cases hit : youngerContent c.ttl a.getNow (ledger.known url) with
      | some content =>
        have some : content ≠ [] := younger_filled filled hit
        simp [some, held, entryOf, entryAs]
      | none =>
        by_cases failed : a.fetched = []
        · simp only [failed, if_true, Option.bind_some, IcsCache.getStale_eq whole,
            lookup_eq_younger held]
          cases late : youngerContent (c.ttl + c.staleTtl) a.staleNow (ledger.known url) with
          | some content =>
            have some : content ≠ [] := younger_filled filled late
            simp [some, held, entryOf, entryAs]
          | none => simp [held, entryOf, entryAs]
        · simp [failed, entryOf, entryAs]

theorem newest_filled {lifetimes : Option Lifetimes} {entry : Option Entry}
    (filled : ∀ e ∈ entry, e.content ≠ []) (a : Answers) :
    ∀ e ∈ (newest lifetimes entry a).2, e.content ≠ [] := by
  unfold newest
  cases lifetimes with
  | none => exact filled
  | some life =>
    dsimp only
    cases youngerContent life.ttl a.getNow entry with
    | some content => exact filled
    | none =>
      by_cases failed : a.fetched = []
      · simpa [failed] using filled
      · simp [failed]

/-! ## Loads -/

/-- The manager and the ledger were told the same. -/
structure Tracks (p : Platform) (ledger : Ledger) (manager : EventManager) : Prop where
  urls : manager.calendarUrls = ledger.urls
  settings : manager.settings = ledger.settings
  manual : manager.manualEvents = ledger.manual
  knows : ∀ url, CacheKnows p ledger manager.cache url

section Load
variable {p : Platform} {zone : SystemZone} {answers : Text → Answers} {ledger : Ledger}

theorem eventsOf_ledger {manager : EventManager} (settings : manager.settings = ledger.settings) {url : Text}
    (knows : CacheKnows p ledger manager.cache url) :
    eventsOf p zone answers manager url = ledger.calendarEvents p zone answers url := by
  rw [eventsOf, contentOf, (loadContent_newest knows (answers url)).1, settings]
  rfl

/-- Each calendar that is asked leaves its own entry and no other. -/
theorem managerAfter_entry {urls : List Text} (distinct : urls.Nodup) {done : EventManager × List UrlLoad}
    (settings : done.1.settings = ledger.settings) (knows : ∀ url ∈ urls, CacheKnows p ledger done.1.cache url)
    (other : Text) :
    entryOf other (managerAfter p zone answers done urls).cache =
      if other ∈ ledger.asked p zone answers urls then
        entryAs ledger.lifetimes (newest ledger.lifetimes (ledger.known other) (answers other)).2
      else entryOf other done.1.cache := by
  induction urls generalizing done with
  | nil => rfl
  | cons url rest ih =>
    obtain ⟨absent, distinct⟩ := List.nodup_cons.mp distinct
    obtain ⟨here, later⟩ := List.forall_mem_cons.mp knows
    have left := (loadContent_newest here (answers url)).2
    have frame (other : Text) (different : url ≠ other) :
        entryOf other (loadContent p done.1.cache url (answers url)).after = entryOf other done.1.cache :=
      loadContent_frame p _ different _
    have read : loadUrl p zone answers done url = (eventsOf p zone answers done.1 url).map _ :=
      loadUrl_eventsOf p zone answers rfl rfl
    rw [managerAfter, read, eventsOf_ledger settings here, Ledger.asked]
    cases ledger.calendarEvents p zone answers url with
    | error e =>
      show entryOf other (loadContent p done.1.cache url (answers url)).after = _
      by_cases same : url = other
      · simp [← same, left]
      · simp [Ne.symm same, frame other same]
    | ok events =>
      have kept (u : Text) (member : u ∈ rest) :
          CacheKnows p ledger (loadContent p done.1.cache url (answers url)).after u := by
        have different : url ≠ u := fun eq => absent (eq ▸ member)
        exact ⟨(later u member).held, (frame u different).trans (later u member).entry, (later u member).filled⟩
      have next := @ih distinct ({ done.1 with
        cache := (loadContent p done.1.cache url (answers url)).after
        fetchedEvents := done.1.fetchedEvents ++ events },
        done.2 ++ [loadContent p done.1.cache url (answers url)]) settings kept
      refine next.trans ?_
      by_cases same : url = other
      · simp [← same, left]
      · simp [Ne.symm same, frame other same]

theorem managerAfter_told (p : Platform) (zone : SystemZone) (answers : Text → Answers)
    (done : EventManager × List UrlLoad) (urls : List Text) :
    (managerAfter p zone answers done urls).settings = done.1.settings ∧
      (managerAfter p zone answers done urls).manualEvents = done.1.manualEvents := by
  induction urls generalizing done with
  | nil => exact ⟨rfl, rfl⟩
  | cons url rest ih =>
    have read : loadUrl p zone answers done url = (eventsOf p zone answers done.1 url).map _ :=
      loadUrl_eventsOf p zone answers rfl rfl
    rw [managerAfter, read]
    cases eventsOf p zone answers done.1 url with
    | error e => exact ⟨rfl, rfl⟩
    | ok events => exact ih _

theorem afterLoad_tracks {manager : EventManager} (tracks : Tracks p ledger manager) :
    Tracks p (ledger.learn p zone answers) (afterLoad p zone answers manager) where
  urls := (managerAfter_calendarUrls _ _ _ _ _).trans tracks.urls
  settings := (managerAfter_told _ _ _ _ _).1.trans tracks.settings
  manual := (managerAfter_told _ _ _ _ _).2.trans tracks.manual
  knows url := by
    have distinct : manager.calendarUrls.toList.Nodup :=
      Std.ExtTreeSet.distinct_toList.imp (fun different same =>
        different (Std.LawfulEqCmp.compare_eq_iff_eq.mpr same))
    have left : entryOf url (afterLoad p zone answers manager).cache =
        if url ∈ ledger.asked p zone answers manager.calendarUrls.toList then
          entryAs ledger.lifetimes (newest ledger.lifetimes (ledger.known url) (answers url)).2
        else entryOf url manager.cache :=
      managerAfter_entry distinct tracks.settings (fun url _ => tracks.knows url) url
    rw [tracks.urls] at left
    refine ⟨(tracks.knows url).held, ?_, ?_⟩
    · rw [left, (tracks.knows url).entry]
      simp only [Ledger.learn, List.contains_iff_mem]
      split_ifs <;> rfl
    · simp only [Ledger.learn, List.contains_iff_mem]
      split_ifs
      · exact newest_filled (tracks.knows url).filled _
      · exact (tracks.knows url).filled

/-- The load gets all events of the ledger, or its error. -/
theorem load_cases {manager : EventManager} (tracks : Tracks p ledger manager) :
    (∃ all, ledger.events p zone answers = .ok all ∧ ∃ done, loadFromSources p zone answers manager = .ok done ∧
        combined done.1 = all ∧ done.1.settings = ledger.settings) ∨
      ∃ e, ledger.events p zone answers = .error e ∧ loadFromSources p zone answers manager = .error e := by
  have lists : manager.calendarUrls.toList.mapM (eventsOf p zone answers manager) =
      ledger.urls.toList.mapM (ledger.calendarEvents p zone answers) := by
    have each : eventsOf p zone answers manager = ledger.calendarEvents p zone answers :=
      funext (fun url => eventsOf_ledger tracks.settings (tracks.knows url))
    rw [tracks.urls, each]
  have loaded := loadFromSources_eq p zone answers manager
  rw [lists, tracks.settings, tracks.manual] at loaded
  rw [Ledger.events]
  cases read : ledger.urls.toList.mapM (ledger.calendarEvents p zone answers) with
  | error e =>
    rw [read] at loaded
    cases load : loadFromSources p zone answers manager with
    | error e' =>
      rw [load] at loaded
      cases loaded
      exact .inr ⟨e, rfl, rfl⟩
    | ok done =>
      rw [load] at loaded
      cases loaded
  | ok found =>
    rw [read] at loaded
    obtain ⟨done, load, seen⟩ := map_eq_ok.mp loaded
    simp only [loadedEvents, Prod.mk.injEq] at seen
    exact .inl ⟨_, rfl, done, load, by rw [combined, seen.2.1, seen.2.2], seen.1⟩

end Load

/-! ## Runs -/

theorem isView_sortByStart (visible : ScheduledEvent → Prop) [DecidablePred visible] (all : List ScheduledEvent) :
    IsView (fun event : ScheduledEvent => event.start) visible all (sortByStart (all.filter visible)) where
  same := List.perm_insertionSort _ _
  sorted := List.pairwise_insertionSort _ _

theorem perform_allowed {p : Platform} {zone : SystemZone} {ledger : Ledger} {manager : EventManager}
    (tracks : Tracks p ledger manager) (call : ManagerCall) :
    ledger.Allowed p zone call (perform p zone manager call).1 := by
  cases call with
  | addCalendarUrl url => rfl
  | addEvent event => rfl
  | setSettings settings => rfl
  | nextEvents now answers =>
    show Ledger.Answered _ _ (outcomeOf (getNextEvents p zone now answers manager))
    rcases load_cases tracks with ⟨all, events, done, load, rfl, settings⟩ | ⟨e, events, load⟩
    · rw [events, getNextEvents, load, ← settings]
      have view := isView_sortByStart (fun event =>
        inWindow event.start (computeWindowOn p zone (p.point now) done.1.settings) = true ∧
          p.point now < event.end_) (combined done.1)
      exact ⟨_, rfl, by simpa using view⟩
    · rw [events, getNextEvents, load]
      rfl
  | nextEventsScheduled now answers =>
    show Ledger.Answered _ _ (outcomeOf (getNextEventsScheduled p zone now answers manager))
    rcases load_cases tracks with ⟨all, events, done, load, rfl, settings⟩ | ⟨e, events, load⟩
    · rw [events, getNextEventsScheduled, load, ← settings]
      exact ⟨_, rfl, isView_sortByStart _ (combined done.1)⟩
    · rw [events, getNextEventsScheduled, load]
      rfl

theorem perform_tracks {p : Platform} {zone : SystemZone} {ledger : Ledger} {manager : EventManager}
    (tracks : Tracks p ledger manager) (call : ManagerCall) :
    Tracks p (ledger.step p zone call) (perform p zone manager call).2 := by
  obtain ⟨urls, settings, manual, knows⟩ := tracks
  cases call with
  | addCalendarUrl url =>
    exact ⟨congrArg (·.insert url) urls, settings, manual,
      fun other => ⟨(knows other).1, (knows other).2, (knows other).3⟩⟩
  | addEvent event =>
    exact ⟨urls, settings, congrArg (· ++ [event]) manual,
      fun url => ⟨(knows url).1, (knows url).2, (knows url).3⟩⟩
  | setSettings new => exact ⟨urls, rfl, manual, fun url => ⟨(knows url).1, (knows url).2, (knows url).3⟩⟩
  | nextEvents now answers => exact afterLoad_tracks ⟨urls, settings, manual, knows⟩
  | nextEventsScheduled now answers => exact afterLoad_tracks ⟨urls, settings, manual, knows⟩

theorem conforms_of_tracks {p : Platform} {zone : SystemZone} {ledger : Ledger} {manager : EventManager}
    (tracks : Tracks p ledger manager) (calls : List ManagerCall) : ledger.Conforms p zone manager calls := by
  induction calls generalizing ledger manager with
  | nil => trivial
  | cons call rest ih => exact ⟨perform_allowed tracks call, ih (perform_tracks tracks call)⟩

/-- A manager with an empty cache of these lifetimes, or with none. -/
def started (lifetimes : Option Lifetimes) : EventManager where
  cache := lifetimes.map (fun life => { ttl := life.ttl, staleTtl := life.staleTtl })

theorem tracks_started {p : Platform} {lifetimes : Option Lifetimes} (held : ∀ life ∈ lifetimes, life.HeldBy p) :
    Tracks p { lifetimes } (started lifetimes) := by
  refine ⟨rfl, rfl, rfl, fun url => ⟨held, ?_, fun e member => by cases member⟩⟩
  cases lifetimes <;> simp [started, entryOf, entryAs]

/-- In every run the manager answers from its ledger, as long as the clock can hold the lifetimes of its
cache: a query shows the manual events and those of the latest bodies of all calendars, whatever was
fetched, kept or lost in earlier queries and whichever of these failed. -/
theorem manager_conforms {p : Platform} (zone : SystemZone) {lifetimes : Option Lifetimes}
    (held : ∀ life ∈ lifetimes, life.HeldBy p) (calls : List ManagerCall) :
    Ledger.Conforms p zone { lifetimes } (started lifetimes) calls :=
  conforms_of_tracks (tracks_started held) calls

/-- The lifetimes that a cache has by default. -/
def defaultLifetimes : Lifetimes := ⟨300000, 3600000⟩

theorem defaultLifetimes_held (p : Platform) : defaultLifetimes.HeldBy p := by
  cases p <;> exact ⟨by decide, by decide⟩

/-- A calendar is read, and ten minutes later its body stands in for a fetch that fails. -/
def staleCalls : List ManagerCall :=
  [.addCalendarUrl (text "u"),
    .nextEventsScheduled (fromTimeT 1788480000) (fun _ =>
      ⟨fromTimeT 1788480000, soundCalendar, fromTimeT 1788480000, 0, fromTimeT 1788480000⟩),
    .nextEventsScheduled (fromTimeT 1788480600) (fun _ =>
      ⟨fromTimeT 1788480600, [], 0, fromTimeT 1788480600, fromTimeT 1788480600⟩)]

theorem manager_conforms_stale : Ledger.Conforms .msvc (.fixed 0) { lifetimes := some defaultLifetimes }
    (started (some defaultLifetimes)) staleCalls :=
  manager_conforms _ (by rintro life ⟨⟩; exact defaultLifetimes_held _) _

end DivoomDev.Ics.EventLedger
