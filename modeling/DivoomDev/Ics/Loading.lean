import DivoomDev.Library.Run
import DivoomDev.Library.Fallible
import DivoomDev.Ics.Cache
import DivoomDev.Ics.ClockPipeline

/-! The event manager: it loads the registered URLs through the cache, parses what it gets
and selects events. What the network and the clock answer is the input of a load. The times of its
events count the ticks of the clock. -/

namespace DivoomDev.Ics.Loading
open DivoomDev.Library.Bytes DivoomDev.Library.Run DivoomDev.Library.Fallible Models Datetime Pipeline
  Window Clocks ClockPipeline Cache

/-- What the environment answers while one URL is loaded: the clock at each call that reads
it, and the body that `source.fetch` returns, empty when it failed. -/
structure Answers where
  getNow : TimePoint
  fetched : Text
  putNow : TimePoint
  staleNow : TimePoint
  parseNow : TimePoint
  deriving DecidableEq, Repr

/-- `event_manager` with a source. -/
structure EventManager where
  cache : Option IcsCache
  settings : CalendarSettings := {}
  manualEvents : List ScheduledEvent := []
  fetchedEvents : List ScheduledEvent := []
  calendarUrls : Std.ExtTreeSet Text := ∅

def EventManager.addCalendarUrl (manager : EventManager) (url : Text) : EventManager :=
  { manager with calendarUrls := manager.calendarUrls.insert url }

theorem EventManager.mem_addCalendarUrl (manager : EventManager) (url other : Text) :
    other ∈ (manager.addCalendarUrl url).calendarUrls ↔ url = other ∨ other ∈ manager.calendarUrls := by
  rw [addCalendarUrl, Std.ExtTreeSet.mem_insert, Std.LawfulEqCmp.compare_eq_iff_eq]

/-- How one URL was loaded: what the source returned, if it was asked, what was handed to the
parser, unless the URL was skipped, and the cache before and after. -/
structure UrlLoad where
  url : Text
  answers : Answers
  fetch : Option Text
  parsed : Option Text
  before : Option IcsCache
  after : Option IcsCache
  deriving DecidableEq, Repr

/-- The content of one URL: a fresh entry, else the network, else an entry not too old. -/
def loadContent (p : Platform) (cache : Option IcsCache) (url : Text) (a : Answers) : UrlLoad :=
  let (fetch, content, after) : Option Text × Text × Option IcsCache :=
    match cache.bind (fun c => c.get p a.getNow url) with
    | some content => (none, content, cache)
    | none => (some a.fetched, a.fetched,
        if a.fetched = [] then cache else cache.map (fun c => c.put a.putNow url a.fetched))
  let content :=
    if content = [] then (after.bind (fun c => c.getStale p a.staleNow url)).getD content else content
  { url, answers := a, fetch, parsed := if content = [] then none else some content,
    before := cache, after }

/-- One pass of the loop in `load_from_sources`. -/
def loadUrl (p : Platform) (zone : SystemZone) (answers : Text → Answers) (done : EventManager × List UrlLoad)
    (url : Text) : Except StdError (EventManager × List UrlLoad) :=
  let (manager, loads) := done
  let load := loadContent p manager.cache url (answers url)
  match load.parsed with
  | none => pure ({ manager with cache := load.after }, loads ++ [load])
  | some content => do
      let parsed ← parseCalendarOn p zone (p.point (answers url).parseNow) manager.settings content
      pure ({ manager with
        cache := load.after
        fetchedEvents := manager.fetchedEvents ++ parsed }, loads ++ [load])

/-- `load_from_sources`; the URLs come in their order in the set. -/
def loadFromSources (p : Platform) (zone : SystemZone) (answers : Text → Answers) (manager : EventManager) :
    Except StdError (EventManager × List UrlLoad) :=
  manager.calendarUrls.toList.foldlM (loadUrl p zone answers) ({ manager with fetchedEvents := [] }, [])

/-- The manager that a load leaves, also where parsing throws on the way. -/
def managerAfter (p : Platform) (zone : SystemZone) (answers : Text → Answers) :
    EventManager × List UrlLoad → List Text → EventManager
  | (manager, _), [] => manager
  | done, url :: rest =>
      match loadUrl p zone answers done url with
      | .ok done => managerAfter p zone answers done rest
      | .error _ => { done.1 with cache := (loadContent p done.1.cache url (answers url)).after }

def combined (manager : EventManager) : List ScheduledEvent :=
  manager.manualEvents ++ manager.fetchedEvents

/-- `get_next_events`, with the clock read before the load. -/
def getNextEvents (p : Platform) (zone : SystemZone) (now : TimePoint) (answers : Text → Answers)
    (manager : EventManager) : Except StdError (EventManager × List ScheduledEvent) := do
  let (manager, _) ← loadFromSources p zone answers manager
  let win := computeWindowOn p zone (p.point now) manager.settings
  pure (manager, sortByStart ((combined manager).filter
    (fun ev => inWindow ev.start win && p.point now < ev.end_)))

/-- `get_next_events_scheduled`, with the clock read behind the load. -/
def getNextEventsScheduled (p : Platform) (zone : SystemZone) (now : TimePoint) (answers : Text → Answers)
    (manager : EventManager) : Except StdError (EventManager × List ScheduledEvent) := do
  let (manager, _) ← loadFromSources p zone answers manager
  let deadline := int64 (p.point now + int64 (p.ticks manager.settings.horizon))
  pure (manager, sortByStart ((combined manager).filter (fun ev => ev.start ≤ deadline)))

theorem loadUrl_calendarUrls {p : Platform} {zone : SystemZone} {answers : Text → Answers}
    {done done' : EventManager × List UrlLoad} {url : Text}
    (loaded : loadUrl p zone answers done url = .ok done') : done'.1.calendarUrls = done.1.calendarUrls := by
  unfold loadUrl at loaded
  dsimp only at loaded
  split at loaded
  · cases loaded
    rfl
  · obtain ⟨parsed, _, next⟩ := bind_eq_ok.mp loaded
    cases next
    rfl

theorem loadFromSources_calendarUrls {p : Platform} {zone : SystemZone} {answers : Text → Answers}
    {manager manager' : EventManager} {loads : List UrlLoad}
    (loaded : loadFromSources p zone answers manager = .ok (manager', loads)) :
    manager'.calendarUrls = manager.calendarUrls :=
  foldlM_invariant (I := fun _ done => done.1.calendarUrls = manager.calendarUrls)
    (fun _ _ _ _ kept step => (loadUrl_calendarUrls step).trans kept) [] rfl loaded

theorem managerAfter_calendarUrls (p : Platform) (zone : SystemZone) (answers : Text → Answers)
    (done : EventManager × List UrlLoad) (urls : List Text) :
    (managerAfter p zone answers done urls).calendarUrls = done.1.calendarUrls := by
  induction urls generalizing done with
  | nil => rfl
  | cons url rest ih =>
    rw [managerAfter]
    cases loaded : loadUrl p zone answers done url with
    | error e => rfl
    | ok done' => exact (ih done').trans (loadUrl_calendarUrls loaded)

/-! ## Runs -/

/-- The calls on a manager. Both selections load in the same way. -/
inductive Call where
  | addCalendarUrl (url : Text)
  | addEvent (event : ScheduledEvent)
  | setSettings (settings : CalendarSettings)
  | load (answers : Text → Answers)

/-- A manager with the record of all its loads. -/
structure Session where
  manager : EventManager
  loads : List UrlLoad := []

/-- A manager with an empty cache of the given lifetimes. -/
def Session.start (ttl staleTtl : Int) (settings : CalendarSettings) : Session where
  manager := { cache := some { ttl := ttl, staleTtl := staleTtl }, settings := settings }

/-- A load whose parsing throws ends the run. -/
def Session.step (p : Platform) (zone : SystemZone) (s : Session) : Call → Option Session
  | .addCalendarUrl url =>
      some { s with manager := s.manager.addCalendarUrl url }
  | .addEvent event => some { s with manager.manualEvents := s.manager.manualEvents ++ [event] }
  | .setSettings settings => some { s with manager.settings := settings }
  | .load answers =>
      match loadFromSources p zone answers s.manager with
      | .error _ => none
      | .ok (manager, loads) => some { manager, loads := s.loads ++ loads }

/-! ## The cache holds the latest successful fetches -/

/-- A fetch of the URL that returned a body, as the entry it leaves. -/
def successfulFetch (url : Text) (load : UrlLoad) : Option Entry :=
  if load.url = url then
    match load.fetch with
    | some body => if body = [] then none else some ⟨body, load.answers.putNow⟩
    | none => none
  else none

/-- The body and the time of the latest successful fetch of a URL. -/
def latestFetch (url : Text) (loads : List UrlLoad) : Option Entry :=
  (loads.filterMap (successfulFetch url)).getLast?

/-- What a load of one URL promises, given the latest successful fetch of it before. -/
structure LoadSound (ttl staleTtl : Int) (latest : Option Entry) (load : UrlLoad) : Prop where
  network : ∀ body, load.fetch = some body → body ≠ [] → load.parsed = some body
  fresh : load.fetch = none → ∃ e, latest = some e ∧ load.parsed = some e.content ∧
    load.answers.getNow - e.fetchedAt < milliseconds (ttl + staleTtl)
  fallback : load.fetch = some [] → ∀ content, load.parsed = some content →
    ∃ e, latest = some e ∧ e.content = content ∧
      load.answers.staleNow - e.fetchedAt < milliseconds (ttl + staleTtl)
  nonempty : load.parsed ≠ some []
  skipped : load.parsed = none → load.fetch = some [] ∧ ∀ e, latest = some e →
    milliseconds (ttl + staleTtl) ≤ load.answers.staleNow - e.fetchedAt
  asked : load.fetch ≠ none → ∀ e, latest = some e →
    milliseconds ttl ≤ load.answers.getNow - e.fetchedAt
  failed : load.fetch = some [] → load.after = load.before

structure Holds (ttl staleTtl : Int) (loads : List UrlLoad) (cache : Option IcsCache) : Prop where
  current : ∃ c, cache = some c ∧ c.ttl = ttl ∧ c.staleTtl = staleTtl ∧
    ∀ url, c.store[url]? = latestFetch url loads

theorem latestFetch_snoc (url : Text) (loads : List UrlLoad) (load : UrlLoad) :
    latestFetch url (loads ++ [load]) = (successfulFetch url load).or (latestFetch url loads) := by
  simp only [latestFetch, List.filterMap_append, List.filterMap_cons, List.filterMap_nil]
  cases successfulFetch url load <;> simp

theorem latestFetch_content {url : Text} {loads : List UrlLoad} {e : Entry}
    (latest : latestFetch url loads = some e) : e.content ≠ [] := by
  obtain ⟨load, _, success⟩ := List.mem_filterMap.mp (List.mem_of_getLast? latest)
  unfold successfulFetch at success
  split_ifs at success
  split at success
  · split_ifs at success with empty
    cases success
    exact empty
  · cases success

section OneUrl
variable {p : Platform} {c : IcsCache} {loads : List UrlLoad} {url : Text} {a : Answers}

theorem holds_kept (stored : ∀ url, c.store[url]? = latestFetch url loads) {load : UrlLoad}
    (nothing : ∀ other, successfulFetch other load = none) :
    Holds c.ttl c.staleTtl (loads ++ [load]) (some c) := by
  refine ⟨c, rfl, rfl, rfl, fun other => ?_⟩
  rw [latestFetch_snoc, stored, nothing, Option.none_or]

/-- A fresh entry: nothing is fetched and the cache stays. -/
theorem loadContent_fresh (nonneg : 0 ≤ c.staleTtl) (held : Held p c.ttl)
    (stored : ∀ url, c.store[url]? = latestFetch url loads) {content : Text}
    (hit : c.get p a.getNow url = some content) :
    LoadSound c.ttl c.staleTtl (latestFetch url loads) (loadContent p (some c) url a) ∧
      Holds c.ttl c.staleTtl (loads ++ [loadContent p (some c) url a]) (loadContent p (some c) url a).after := by
  obtain ⟨e, found, rfl, young⟩ := IcsCache.lookup_eq_some.mp ((IcsCache.get_eq held).symm.trans hit)
  have latest := (stored url).symm.trans found
  have filled := latestFetch_content latest
  have within : a.getNow - e.fetchedAt < milliseconds (c.ttl + c.staleTtl) :=
    lt_of_lt_of_le (younger_iff.mp young) (milliseconds_mono (by omega))
  have shape : loadContent p (some c) url a = ⟨url, a, none, some e.content, some c, some c⟩ := by
    simp [loadContent, hit, filled]
  rw [shape]
  exact ⟨⟨by simp, fun _ => ⟨e, latest, rfl, within⟩, by simp, by simpa using filled, by simp,
    by simp, by simp⟩, holds_kept stored (by simp [successfulFetch])⟩

/-- The fetch failed: an entry that is not too old, or nothing. -/
theorem loadContent_failed (held : Held p c.ttl) (whole : Held p (c.ttl + c.staleTtl))
    (stored : ∀ url, c.store[url]? = latestFetch url loads)
    (missed : c.get p a.getNow url = none) (failed : a.fetched = []) :
    LoadSound c.ttl c.staleTtl (latestFetch url loads) (loadContent p (some c) url a) ∧
      Holds c.ttl c.staleTtl (loads ++ [loadContent p (some c) url a]) (loadContent p (some c) url a).after := by
  have old (e : Entry) (found : c.store[url]? = some e) : milliseconds c.ttl ≤ a.getNow - e.fetchedAt :=
    not_younger_iff.mp (IcsCache.lookup_eq_none.mp ((IcsCache.get_eq held).symm.trans missed) e found)
  have shape : loadContent p (some c) url a =
      ⟨url, a, some [], if (c.getStale p a.staleNow url).getD [] = [] then none
        else some ((c.getStale p a.staleNow url).getD []), some c, some c⟩ := by
    simp [loadContent, missed, failed]
  rw [shape]
  refine ⟨?_, holds_kept stored (by simp [successfulFetch])⟩
  cases late : c.getStale p a.staleNow url with
  | some content =>
    obtain ⟨e, found, rfl, young⟩ := IcsCache.lookup_eq_some.mp ((IcsCache.getStale_eq whole).symm.trans late)
    have latest := (stored url).symm.trans found
    have filled := latestFetch_content latest
    simp only [Option.getD_some, filled, if_false]
    exact ⟨by simp, by simp, fun _ content same => ⟨e, latest, by simpa using same, younger_iff.mp young⟩,
      by simpa using filled, by simp, fun _ e found => old e ((stored url).trans found), by simp⟩
  | none =>
    have expired (e : Entry) (found : c.store[url]? = some e) :=
      not_younger_iff.mp (IcsCache.lookup_eq_none.mp ((IcsCache.getStale_eq whole).symm.trans late) e found)
    simp only [Option.getD_none, if_true]
    exact ⟨by simp, by simp, by simp, by simp,
      fun _ => ⟨rfl, fun e found => expired e ((stored url).trans found)⟩,
      fun _ e found => old e ((stored url).trans found), by simp⟩

/-- A body came from the network and replaces the entry. -/
theorem loadContent_fetched (held : Held p c.ttl) (stored : ∀ url, c.store[url]? = latestFetch url loads)
    (missed : c.get p a.getNow url = none) (fetched : a.fetched ≠ []) :
    LoadSound c.ttl c.staleTtl (latestFetch url loads) (loadContent p (some c) url a) ∧
      Holds c.ttl c.staleTtl (loads ++ [loadContent p (some c) url a]) (loadContent p (some c) url a).after := by
  have old (e : Entry) (found : c.store[url]? = some e) : milliseconds c.ttl ≤ a.getNow - e.fetchedAt :=
    not_younger_iff.mp (IcsCache.lookup_eq_none.mp ((IcsCache.get_eq held).symm.trans missed) e found)
  have shape : loadContent p (some c) url a = ⟨url, a, some a.fetched, some a.fetched, some c,
      some (c.put a.putNow url a.fetched)⟩ := by
    simp [loadContent, missed, fetched]
  rw [shape]
  refine ⟨⟨by simp, by simp, by simp [fetched], by simpa using fetched, by simp,
    fun _ e found => old e ((stored url).trans found), by simp [fetched]⟩,
    ⟨_, rfl, rfl, rfl, fun other => ?_⟩⟩
  rw [latestFetch_snoc, IcsCache.put_store, Std.ExtTreeMap.getElem?_insert]
  by_cases same : url = other
  · simp [successfulFetch, same, fetched]
  · simp [successfulFetch, same, stored]

end OneUrl

/-- One URL, loaded through a cache that holds the latest successful fetches. -/
theorem loadContent_sound {p : Platform} {ttl staleTtl : Int} (nonneg : 0 ≤ staleTtl) (fresh : Held p ttl)
    (whole : Held p (ttl + staleTtl)) {loads : List UrlLoad} {cache : Option IcsCache}
    (holds : Holds ttl staleTtl loads cache) (url : Text) (a : Answers) :
    LoadSound ttl staleTtl (latestFetch url loads) (loadContent p cache url a) ∧
      Holds ttl staleTtl (loads ++ [loadContent p cache url a]) (loadContent p cache url a).after := by
  obtain ⟨c, rfl, rfl, rfl, stored⟩ := holds.current
  cases hit : c.get p a.getNow url with
  | some content => exact loadContent_fresh nonneg fresh stored hit
  | none =>
    by_cases failed : a.fetched = []
    · exact loadContent_failed fresh whole stored hit failed
    · exact loadContent_fetched fresh stored hit failed

/-- Every load so far was sound for the loads before it. -/
def AllSound (ttl staleTtl : Int) (loads : List UrlLoad) : Prop :=
  ∀ before load after, loads = before ++ load :: after →
    LoadSound ttl staleTtl (latestFetch load.url before) load

theorem allSound_snoc {ttl staleTtl : Int} {loads : List UrlLoad} {load : UrlLoad}
    (all : AllSound ttl staleTtl loads)
    (last : LoadSound ttl staleTtl (latestFetch load.url loads) load) :
    AllSound ttl staleTtl (loads ++ [load]) := by
  intro before member after split
  rcases List.eq_nil_or_concat after with rfl | ⟨front, final, rfl⟩
  · obtain ⟨rfl, same⟩ := List.append_inj' split rfl
    cases same
    exact last
  · rw [List.concat_eq_append, ← List.cons_append, ← List.append_assoc] at split
    exact all before member front (List.append_inj' split rfl).1

/-- What all steps of a run preserve. -/
structure SessionSound (ttl staleTtl : Int) (loads : List UrlLoad) (manager : EventManager) : Prop where
  sound : AllSound ttl staleTtl loads
  holds : Holds ttl staleTtl loads manager.cache

theorem loadUrl_sound {p : Platform} {zone : SystemZone} {answers : Text → Answers} {ttl staleTtl : Int}
    (nonneg : 0 ≤ staleTtl) (fresh : Held p ttl) (whole : Held p (ttl + staleTtl))
    {earlier loads loads' : List UrlLoad} {manager manager' : EventManager}
    {url : Text} (inv : SessionSound ttl staleTtl (earlier ++ loads) manager)
    (loaded : loadUrl p zone answers (manager, loads) url = .ok (manager', loads')) :
    SessionSound ttl staleTtl (earlier ++ loads') manager' := by
  obtain ⟨sound, holds⟩ := loadContent_sound nonneg fresh whole inv.holds url (answers url)
  have next : SessionSound ttl staleTtl
      (earlier ++ (loads ++ [loadContent p manager.cache url (answers url)]))
      { manager with cache := (loadContent p manager.cache url (answers url)).after } := by
    rw [← List.append_assoc]
    exact ⟨allSound_snoc inv.sound sound, holds⟩
  unfold loadUrl at loaded
  dsimp only at loaded
  split at loaded
  · cases loaded
    exact next
  · obtain ⟨parsed, _, same⟩ := bind_eq_ok.mp loaded
    cases same
    exact ⟨next.sound, next.holds⟩

theorem step_sound {p : Platform} {zone : SystemZone} {ttl staleTtl : Int} (nonneg : 0 ≤ staleTtl)
    (fresh : Held p ttl) (whole : Held p (ttl + staleTtl)) (s : Session) (call : Call) (s' : Session)
    (inv : SessionSound ttl staleTtl s.loads s.manager) (stepped : s.step p zone call = some s') :
    SessionSound ttl staleTtl s'.loads s'.manager := by
  cases call with
  | addCalendarUrl url => cases stepped; exact ⟨inv.sound, inv.holds⟩
  | addEvent event => cases stepped; exact ⟨inv.sound, inv.holds⟩
  | setSettings settings => cases stepped; exact ⟨inv.sound, inv.holds⟩
  | load answers =>
    simp only [Session.step] at stepped
    split at stepped
    · cases stepped
    · next manager loads loaded =>
      cases stepped
      exact foldlM_invariant
        (I := fun _ done => SessionSound ttl staleTtl (s.loads ++ done.2) done.1)
        (fun _ _ _ _ kept loaded => loadUrl_sound nonneg fresh whole kept loaded)
        [] ⟨by simpa using inv.sound, by simpa using inv.holds⟩ loaded

/-! ## What a load leaves -/

/-- The events that a load of one URL adds. -/
def UrlLoad.events (p : Platform) (zone : SystemZone) (settings : CalendarSettings) (load : UrlLoad) :
    Except StdError (List ScheduledEvent) :=
  match load.parsed with
  | none => pure []
  | some content => parseCalendarOn p zone (p.point load.answers.parseNow) settings content

/-- The loads of some URLs, one for each with the answers to it, and the events of all of them. -/
structure LoadsOf (p : Platform) (zone : SystemZone) (settings : CalendarSettings) (answers : Text → Answers)
    (urls : List Text) (loads : List UrlLoad) (events : List ScheduledEvent) : Prop where
  urls : loads.map UrlLoad.url = urls
  answers : ∀ load ∈ loads, load.answers = answers load.url
  events : ∃ lists, loads.mapM (UrlLoad.events p zone settings) = .ok lists ∧ events = lists.flatten

theorem loadsOf_snoc {p : Platform} {zone : SystemZone} {settings : CalendarSettings} {answers : Text → Answers}
    {urls : List Text} {loads : List UrlLoad} {earlier added : List ScheduledEvent} {load : UrlLoad}
    (sofar : LoadsOf p zone settings answers urls loads earlier) (answered : load.answers = answers load.url)
    (read : load.events p zone settings = .ok added) :
    LoadsOf p zone settings answers (urls ++ [load.url]) (loads ++ [load]) (earlier ++ added) := by
  obtain ⟨same, each, lists, all, rfl⟩ := sofar
  refine ⟨by simp [same], ?_, lists ++ [added], ?_, by simp⟩
  · simp only [List.forall_mem_append, List.forall_mem_singleton]
    exact ⟨each, answered⟩
  · rw [List.mapM_append, all, List.mapM_cons, read]
    rfl

/-- Every registered URL is loaded once, in the order of the set, and the fetched events are those of
these loads. -/
theorem loadFromSources_loads {p : Platform} {zone : SystemZone} {answers : Text → Answers}
    {manager manager' : EventManager} {loads : List UrlLoad}
    (loaded : loadFromSources p zone answers manager = .ok (manager', loads)) :
    LoadsOf p zone manager.settings answers manager.calendarUrls.toList loads manager'.fetchedEvents := by
  have kept := foldlM_invariant
    (I := fun urls done => done.1.settings = manager.settings ∧
      LoadsOf p zone manager.settings answers urls done.2 done.1.fetchedEvents)
    (fun urls done url done' inv step => ?_) []
    (show _ ∧ LoadsOf _ _ _ _ [] [] [] from ⟨rfl, rfl, fun _ none => (List.not_mem_nil none).elim, [], rfl, rfl⟩)
    loaded
  · exact kept.2
  · obtain ⟨current, before⟩ := done
    obtain ⟨settings, sofar⟩ := inv
    dsimp only at settings sofar
    have next (added : List ScheduledEvent)
        (read : (loadContent p current.cache url (answers url)).events p zone manager.settings = .ok added) :=
      loadsOf_snoc sofar rfl read
    unfold loadUrl at step
    dsimp only at step
    split at step
    · next skipped =>
      cases step
      have none := next [] (by rw [UrlLoad.events, skipped]; rfl)
      rw [List.append_nil] at none
      exact ⟨settings, none⟩
    · next content given =>
      obtain ⟨parsed, read, same⟩ := bind_eq_ok.mp step
      cases same
      rw [settings] at read
      exact ⟨settings, next parsed (by rw [UrlLoad.events, given]; exact read)⟩

/-- In every run of a manager with a cache, whatever the clock shows and the network answers,
each load of a URL uses the body just fetched or the latest one fetched before it, asks the
source only when that one is no longer fresh, and skips the URL only when it is too old. A further
load loads every URL once, and leaves the events of these loads. -/
theorem loads_sound {p : Platform} {zone : SystemZone} {ttl staleTtl : Int} {settings : CalendarSettings}
    (nonneg : 0 ≤ staleTtl) (fresh : Held p ttl) (whole : Held p (ttl + staleTtl)) {calls : List Call} {s : Session}
    (reached : run (Session.step p zone) (Session.start ttl staleTtl settings) calls = some s) :
    AllSound ttl staleTtl s.loads ∧ ∀ answers s', s.step p zone (.load answers) = some s' →
      ∃ loads, s'.loads = s.loads ++ loads ∧ AllSound ttl staleTtl s'.loads ∧
        LoadsOf p zone s.manager.settings answers s.manager.calendarUrls.toList loads s'.manager.fetchedEvents := by
  have start : SessionSound ttl staleTtl (Session.start ttl staleTtl settings).loads
      (Session.start ttl staleTtl settings).manager :=
    ⟨fun before load after split => by simp [Session.start] at split,
      ⟨_, rfl, rfl, rfl, fun url => by simp [latestFetch, Session.start]⟩⟩
  have here := run_invariant_of_step (I := fun s => SessionSound ttl staleTtl s.loads s.manager)
    (fun s call s' inv stepped => step_sound nonneg fresh whole s call s' inv stepped) start reached
  refine ⟨here.sound, fun answers s' stepped => ?_⟩
  have there := step_sound nonneg fresh whole s (.load answers) s' here stepped
  simp only [Session.step] at stepped
  split at stepped
  · cases stepped
  · next manager loads loaded =>
    cases stepped
    exact ⟨loads, rfl, there.sound, loadFromSources_loads loaded⟩

/-- A body that is served again when the network fails ten minutes later. -/
theorem loads_sound_stale : ∃ s, run (Session.step .msvc (.fixed 0)) (Session.start 300000 3600000 {})
      [.addCalendarUrl (text "u"), .load (fun _ => ⟨0, text "x", 0, 0, 0⟩),
        .load (fun _ => ⟨6000000000, [], 0, 6000000000, 0⟩)] = some s ∧
    s.loads.map (fun load => (load.fetch, load.parsed)) =
      [(some (text "x"), some (text "x")), (some [], some (text "x"))] ∧
    AllSound 300000 3600000 s.loads := by
  have shown : (run (Session.step .msvc (.fixed 0)) (Session.start 300000 3600000 {})
      [.addCalendarUrl (text "u"), .load (fun _ => ⟨0, text "x", 0, 0, 0⟩),
        .load (fun _ => ⟨6000000000, [], 0, 6000000000, 0⟩)]).map
      (fun s => s.loads.map (fun load => (load.fetch, load.parsed))) =
      some [(some (text "x"), some (text "x")), (some [], some (text "x"))] := by decide +kernel
  obtain ⟨s, reached, parsed⟩ := Option.map_eq_some_iff.mp shown
  exact ⟨s, reached, parsed, (loads_sound (by decide) (by decide) (by decide) reached).1⟩

end DivoomDev.Ics.Loading
