import DivoomDev.Ics.ParseErrors
import DivoomDev.Ics.Cancellation
import DivoomDev.Ics.Selection
import DivoomDev.Ics.Loading

/-! From the parser to the manager: which of the events that the calendars of a manager hold
does a selection return. The parser bounds the start of an event and the manager its end. -/

namespace DivoomDev.Ics.NextEvents
open DivoomDev.Library.Bytes DivoomDev.Library.Fallible Models Datetime Recurrence Window
  OverrideApplier Pipeline Clocks ClockArithmetic ClockPipeline ParseErrors Series Properties Exclusion
  Cancellation Selection Cache Loading

/-! ## A load, URL by URL -/

/-- What a load of one URL can see of a cache. -/
def entryOf (url : Text) (cache : Option IcsCache) : Option (Int × Int × Option Entry) :=
  cache.map (fun c => (c.ttl, c.staleTtl, c.store[url]?))

theorem get_congr {p : Platform} {c c' : IcsCache} {url : Text}
    (same : entryOf url (some c) = entryOf url (some c')) (now : TimePoint) :
    c.get p now url = c'.get p now url ∧ c.getStale p now url = c'.getStale p now url := by
  simp only [entryOf, Option.map_some, Option.some.injEq, Prod.mk.injEq] at same
  obtain ⟨ttl, staleTtl, entry⟩ := same
  have fresh : c.isFresh p now = c'.isFresh p now := funext fun e => by rw [IcsCache.isFresh, IcsCache.isFresh, ttl]
  have stale : c.isStale p now = c'.isStale p now :=
    funext fun e => by rw [IcsCache.isStale, IcsCache.isStale, ttl, staleTtl]
  simp only [IcsCache.get, IcsCache.getStale, IcsCache.lookup, fresh, stale, entry, and_self]

theorem entryOf_put {c c' : IcsCache} {url : Text} (same : entryOf url (some c) = entryOf url (some c'))
    (now : TimePoint) (content : Text) :
    entryOf url (some (c.put now url content)) = entryOf url (some (c'.put now url content)) := by
  simp only [entryOf, Option.map_some, Option.some.injEq, Prod.mk.injEq] at same ⊢
  obtain ⟨ttl, staleTtl, _⟩ := same
  simp [ttl, staleTtl]

/-- What is handed to the parser depends on the cache through the entry of the URL alone. -/
theorem loadContent_congr {p : Platform} {cache cache' : Option IcsCache} {url : Text}
    (same : entryOf url cache = entryOf url cache') (a : Answers) :
    (loadContent p cache url a).parsed = (loadContent p cache' url a).parsed := by
  cases cache with
  | none =>
    cases cache' with
    | none => rfl
    | some c' => simp [entryOf] at same
  | some c =>
    cases cache' with
    | none => simp [entryOf] at same
    | some c' =>
      obtain ⟨get, _⟩ := get_congr (p := p) same a.getNow
      obtain ⟨_, getStale⟩ := get_congr (p := p) same a.staleNow
      obtain ⟨_, putStale⟩ := get_congr (p := p) (entryOf_put same a.putNow a.fetched) a.staleNow
      simp only [loadContent, Option.bind_some, get]
      cases c'.get p a.getNow url with
      | some content => simp only [Option.bind_some, getStale]
      | none =>
        by_cases failed : a.fetched = []
        · simp only [failed, if_true, Option.bind_some, getStale]
        · simp only [failed, if_false]

theorem loadContent_frame (p : Platform) (cache : Option IcsCache) {url other : Text} (different : url ≠ other)
    (a : Answers) : entryOf other (loadContent p cache url a).after = entryOf other cache := by
  cases cache with
  | none =>
    simp only [loadContent, Option.bind_none, Option.map_none]
    split_ifs <;> rfl
  | some c =>
    have put : entryOf other (some (c.put a.putNow url a.fetched)) = entryOf other (some c) := by
      simp [entryOf, Std.ExtTreeMap.getElem?_insert, different]
    simp only [loadContent, Option.bind_some]
    cases c.get p a.getNow url with
    | some content => rfl
    | none =>
      dsimp only
      split_ifs
      · rfl
      · exact put

/-- The text that a load hands to the parser for a URL. -/
def contentOf (p : Platform) (answers : Text → Answers) (manager : EventManager) (url : Text) : Option Text :=
  (loadContent p manager.cache url (answers url)).parsed

/-- The events of one URL; a URL without a content is skipped. -/
def eventsOf (p : Platform) (zone : SystemZone) (answers : Text → Answers) (manager : EventManager) (url : Text) :
    Except StdError (List ScheduledEvent) :=
  match contentOf p answers manager url with
  | none => pure []
  | some content => parseCalendarOn p zone (p.point (answers url).parseNow) manager.settings content

/-- What a selection can see of a manager that has been loaded. -/
def loadedEvents (done : EventManager × List UrlLoad) :
    CalendarSettings × List ScheduledEvent × List ScheduledEvent :=
  (done.1.settings, done.1.manualEvents, done.1.fetchedEvents)

theorem loadUrl_eventsOf (p : Platform) (zone : SystemZone) (answers : Text → Answers) {manager : EventManager}
    {done : EventManager × List UrlLoad} {url : Text} (settings : done.1.settings = manager.settings)
    (same : entryOf url done.1.cache = entryOf url manager.cache) :
    loadUrl p zone answers done url = (eventsOf p zone answers manager url).map (fun events =>
      ({ done.1 with
        cache := (loadContent p done.1.cache url (answers url)).after
        fetchedEvents := done.1.fetchedEvents ++ events },
        done.2 ++ [loadContent p done.1.cache url (answers url)])) := by
  obtain ⟨current, loads⟩ := done
  have parsed := loadContent_congr (p := p) same (answers url)
  dsimp only at settings parsed ⊢
  unfold loadUrl eventsOf contentOf
  dsimp only
  rw [← parsed, settings]
  cases (loadContent p current.cache url (answers url)).parsed with
  | none => simp [pure, Except.pure, Except.map]
  | some content => rfl

/-- A load reads the URLs one by one, each as if it were the only one. -/
theorem foldlM_loadUrl (p : Platform) (zone : SystemZone) (answers : Text → Answers) {manager : EventManager}
    {urls : List Text} (distinct : urls.Nodup) {done : EventManager × List UrlLoad}
    (settings : done.1.settings = manager.settings)
    (same : ∀ url ∈ urls, entryOf url done.1.cache = entryOf url manager.cache) :
    (urls.foldlM (loadUrl p zone answers) done).map loadedEvents =
      (urls.mapM (eventsOf p zone answers manager)).map (fun lists =>
        (manager.settings, done.1.manualEvents, done.1.fetchedEvents ++ lists.flatten)) := by
  induction urls generalizing done with
  | nil => simp [pure, Except.pure, Except.map, loadedEvents, settings]
  | cons url rest ih =>
    obtain ⟨absent, distinct⟩ := List.nodup_cons.mp distinct
    rw [List.foldlM_cons, List.mapM_cons,
      loadUrl_eventsOf p zone answers settings (same url List.mem_cons_self)]
    cases eventsOf p zone answers manager url with
    | error e => rfl
    | ok events =>
      have later (other : Text) (member : other ∈ rest) :
          entryOf other (loadContent p done.1.cache url (answers url)).after = entryOf other manager.cache := by
        have different : url ≠ other := fun eq => absent (eq ▸ member)
        exact (loadContent_frame p _ different _).trans (same other (List.mem_cons_of_mem _ member))
      have next := @ih distinct ({ done.1 with
        cache := (loadContent p done.1.cache url (answers url)).after
        fetchedEvents := done.1.fetchedEvents ++ events },
        done.2 ++ [loadContent p done.1.cache url (answers url)]) settings later
      refine next.trans ?_
      cases rest.mapM (eventsOf p zone answers manager) with
      | error e => rfl
      | ok lists => simp [Except.map, pure, Except.pure, bind, Except.bind]

theorem loadFromSources_eq (p : Platform) (zone : SystemZone) (answers : Text → Answers) (manager : EventManager) :
    (loadFromSources p zone answers manager).map loadedEvents =
      (manager.calendarUrls.toList.mapM (eventsOf p zone answers manager)).map (fun lists =>
        (manager.settings, manager.manualEvents, lists.flatten)) := by
  have distinct : manager.calendarUrls.toList.Nodup :=
    Std.ExtTreeSet.distinct_toList.imp (fun different same =>
      different (Std.LawfulEqCmp.compare_eq_iff_eq.mpr same))
  exact foldlM_loadUrl p zone answers distinct rfl (fun _ _ => rfl)

/-- Every text that some content of the manager makes the parser read as a number outside a
`try` denotes an `int`. -/
def AllNumbers (p : Platform) (answers : Text → Answers) (manager : EventManager) : Prop :=
  ∀ url ∈ manager.calendarUrls, ∀ content, contentOf p answers manager url = some content →
    ∀ block ∈ veventBlocks content, ∀ field ∈ blockFields block, IsNumber field

theorem returns_eventsOf (p : Platform) (zone : SystemZone) (answers : Text → Answers) (manager : EventManager)
    (url : Text) :
    Returns (eventsOf p zone answers manager url) ↔
      ∀ content, contentOf p answers manager url = some content →
        ∀ block ∈ veventBlocks content, ∀ field ∈ blockFields block, IsNumber field := by
  unfold eventsOf
  cases contentOf p answers manager url with
  | none => simp
  | some content =>
    dsimp only
    rw [parseCalendarOn_eq_traced, returns_map, returns_calendarVevents]
    simp

theorem returns_loadFromSources (p : Platform) (zone : SystemZone) (answers : Text → Answers)
    (manager : EventManager) :
    Returns (loadFromSources p zone answers manager) ↔ AllNumbers p answers manager := by
  rw [← returns_map _ loadedEvents, loadFromSources_eq, returns_map,
    returns_mapM (returns_eventsOf p zone answers manager)]
  simp only [Std.ExtTreeSet.mem_toList, AllNumbers]

/-- A selection returns the manual events and those of all URLs that start in the window and
end behind `now`. -/
theorem mem_getNextEvents {p : Platform} {zone : SystemZone} {now : TimePoint} {answers : Text → Answers}
    {manager manager' : EventManager} {selected : List ScheduledEvent}
    (returned : getNextEvents p zone now answers manager = .ok (manager', selected)) (event : ScheduledEvent) :
    event ∈ selected ↔
      (event ∈ manager.manualEvents ∨ ∃ url ∈ manager.calendarUrls, ∃ events,
          eventsOf p zone answers manager url = .ok events ∧ event ∈ events) ∧
        inWindow event.start (computeWindowOn p zone (p.point now) manager.settings) = true ∧
        p.point now < event.end_ := by
  obtain ⟨⟨loaded, loads⟩, load, rest⟩ := bind_eq_ok.mp returned
  cases rest
  have fetched := loadFromSources_eq p zone answers manager
  rw [load] at fetched
  obtain ⟨lists, read⟩ : Returns (manager.calendarUrls.toList.mapM (eventsOf p zone answers manager)) := by
    rw [← returns_map _ (fun lists => (manager.settings, manager.manualEvents, lists.flatten)), ← fetched]
    exact ⟨_, rfl⟩
  rw [read] at fetched
  simp only [Except.map, loadedEvents, Except.ok.injEq, Prod.mk.injEq] at fetched
  obtain ⟨settings, manual, events⟩ := fetched
  have member : event ∈ lists.flatten ↔ ∃ url ∈ manager.calendarUrls, ∃ events,
      eventsOf p zone answers manager url = .ok events ∧ event ∈ events := by
    simp only [List.mem_flatten, mem_mapM read, Std.ExtTreeSet.mem_toList]
    apply Iff.intro
    · intro given
      obtain ⟨events, ⟨url, registered, of⟩, inside⟩ := given
      exact ⟨url, registered, events, of, inside⟩
    · intro given
      obtain ⟨url, registered, events, of, inside⟩ := given
      exact ⟨events, ⟨url, registered, of⟩, inside⟩
  rw [← member]
  simp only [sortByStart, List.mem_insertionSort, List.mem_filter, combined, List.mem_append, settings,
    manual, events, Bool.and_eq_true, decide_eq_true_eq]

/-! ## What a VEVENT shows -/

/-- The VEVENT shows an event at the instant: as an override at its start, and otherwise where
it is due and not taken from it. -/
def Shows (zone : SystemZone) (win : TimeWindow) (vevents : List Vevent) (v : Vevent) (instant : TimePoint) :
    Prop :=
  if v.raw.hasRecurrenceId then overrideShown win v.raw = true ∧ v.raw.ev.start = instant
  else MasterDue zone win v.raw instant ∧ ¬TakenByText zone vevents v instant

theorem shows_iff {zone : SystemZone} {icsContent : Text} {vevents : List Vevent}
    (read : calendarVevents zone icsContent = .ok vevents) (sound : zone.Sound) (now : TimePoint)
    (settings : CalendarSettings) {v : Vevent} (member : v ∈ vevents) (instant : TimePoint) :
    (∃ traced ∈ tracedEvents zone now settings vevents,
        traced.source = v ∧ traced.event.start = instant) ↔
      Shows zone (computeWindow zone now settings) vevents v instant := by
  unfold Shows
  split_ifs with override
  · apply Iff.intro
    · intro given
      obtain ⟨traced, inside, rfl, rfl⟩ := given
      obtain ⟨_, shown, same⟩ := (mem_tracedEvents_override traced override).mp inside
      rw [same]
      exact ⟨shown, rfl⟩
    · intro given
      obtain ⟨shown, rfl⟩ := given
      exact ⟨⟨v, v.raw.ev⟩, (mem_tracedEvents_override _ override).mpr ⟨member, shown, rfl⟩, rfl, rfl⟩
  · exact shown_iff read sound now settings member (Bool.eq_false_iff.mpr override) instant

theorem tracedEvents_source {zone : SystemZone} {now : TimePoint} {settings : CalendarSettings}
    {vevents : List Vevent} {traced : TracedEvent}
    (inside : traced ∈ tracedEvents zone now settings vevents) : traced.source ∈ vevents := by
  by_cases override : traced.source.raw.hasRecurrenceId = true
  · exact ((mem_tracedEvents_override traced override).mp inside).1
  · exact ((mem_tracedEvents_master traced (Bool.eq_false_iff.mpr override)).mp inside).1

/-- The length that the events of a VEVENT have. A VEVENT without a DTEND ends at the epoch. -/
def length (v : Vevent) : Int := v.raw.ev.end_ - v.raw.ev.start

theorem single_end (v : Vevent) : v.raw.ev.end_ = v.raw.ev.start + length v :=
  (add_sub_cancel v.raw.ev.start v.raw.ev.end_).symm

theorem tracedEvents_end {zone : SystemZone} {now : TimePoint} {settings : CalendarSettings}
    {vevents : List Vevent} {traced : TracedEvent}
    (inside : traced ∈ tracedEvents zone now settings vevents) :
    traced.event.end_ = traced.event.start + length traced.source := by
  by_cases override : traced.source.raw.hasRecurrenceId = true
  · obtain ⟨_, _, same⟩ := (mem_tracedEvents_override traced override).mp inside
    rw [same]
    exact single_end traced.source
  · have master : traced.source.raw.hasRecurrenceId = false := Bool.eq_false_iff.mpr override
    have shown := ((mem_tracedEvents_master traced master).mp inside).2
    by_cases canceled : traced.source.raw.ev.status = .canceled
    · simp [masterEvents, canceled] at shown
    by_cases repeats : traced.source.raw.hasRrule = true
    · rw [masterEvents_series master canceled repeats] at shown
      have copy := (expand_inBounds (List.mem_filter.mp shown).1).1
      rw [copy]
      rfl
    · rw [masterEvents_single master canceled repeats] at shown
      split_ifs at shown
      · rw [List.mem_singleton.mp shown]
        exact single_end traced.source
      · cases shown

theorem toTimeT_le {now seconds : Int} (later : now < seconds * ticksPerSecond) :
    toTimeT now ≤ seconds := by
  have floor : now / ticksPerSecond < seconds := Int.ediv_lt_of_lt_mul (by decide) later
  have sign : ticksPerSecond.sign = 1 := rfl
  rw [toTimeT, Int.tdiv_eq_ediv, sign]
  split_ifs <;> omega

/-- A whole second behind `now` is not in front of the window, wherever its day starts. -/
theorem windowStart_le_seconds {zone : SystemZone} (sound : zone.Sound) {now : TimePoint}
    (settings : CalendarSettings) {seconds : Int} (later : now < fromTimeT seconds) :
    (computeWindow zone now settings).start ≤ fromTimeT seconds := by
  simp only [computeWindow, dayStart]
  split_ifs
  · exact later.le
  · apply Int.mul_le_mul_of_nonneg_right _ (by decide)
    exact (sound.midnight (toTimeT now)).trans (toTimeT_le later)
  · exact later.le

theorem windowStart_le_shown {zone : SystemZone} (sound : zone.Sound) {now : TimePoint}
    {settings : CalendarSettings} {vevents : List Vevent} {v : Vevent} (rules : RuleSound v.raw.rrule)
    {instant : TimePoint} (shown : Shows zone (computeWindow zone now settings) vevents v instant)
    (later : now < instant) : (computeWindow zone now settings).start ≤ instant := by
  unfold Shows at shown
  split_ifs at shown with override
  · obtain ⟨inside, rfl⟩ := shown
    simp only [overrideShown, Bool.and_eq_true] at inside
    exact ((inWindow_iff _ _).mp inside.2).2.1
  · obtain ⟨⟨_, due⟩, _⟩ := shown
    split_ifs at due with repeats
    · obtain ⟨recurs, bounds⟩ := (due_iff sound rules.forward).mp due
      rcases bounds.1 with monthly | lower
      · rw [Recurs, monthly] at recurs
        obtain ⟨i, _, _, rfl⟩ := recurs
        exact windowStart_le_seconds sound settings later
      · exact lower
    · obtain ⟨rfl, inside⟩ := due
      exact ((inWindow_iff _ _).mp inside).2.1

/-! ## Upcoming events -/

/-- The instant lies behind `now` and not behind the horizon. -/
def Upcoming (now : TimePoint) (settings : CalendarSettings) (instant : TimePoint) : Prop :=
  now < instant ∧ instant ≤ now + hours settings.horizon

/-- Each event that the parser returns for a content of the manager and that starts behind `now` and
not behind the horizon is returned by the manager. -/
def UpcomingReturned (p : Platform) (zone : SystemZone) (now : TimePoint) (answers : Text → Answers)
    (manager : EventManager) : Prop :=
  ∀ url ∈ manager.calendarUrls, ∀ content, contentOf p answers manager url = some content →
    ∀ events, parseCalendarOn p zone (p.point now) manager.settings content = .ok events →
      ∀ event ∈ events, p.point now < event.start →
        event.start ≤ p.point (now + hours manager.settings.horizon) →
        ∃ manager' selected, getNextEvents p zone now answers manager = .ok (manager', selected) ∧
          event ∈ selected

/-- Where a VEVENT has something upcoming to show, its length leads from there to behind `now`
and not to the epoch, and no content of the manager makes the parser throw. -/
def UpcomingEndLater (p : Platform) (zone : SystemZone) (now : TimePoint) (answers : Text → Answers)
    (manager : EventManager) : Prop :=
  ∀ url ∈ manager.calendarUrls, ∀ content, contentOf p answers manager url = some content →
    ∀ vevents, calendarVevents zone content = .ok vevents →
      ∀ v ∈ vevents, ∀ instant, Upcoming now manager.settings instant →
        Shows zone (computeWindow zone now manager.settings) vevents v instant →
          AllNumbers p answers manager ∧ instant ≠ 0 ∧ now < instant + length v

/-- No time of a content of the manager overflows. -/
def ContentsFit (p : Platform) (zone : SystemZone) (now : TimePoint) (answers : Text → Answers)
    (manager : EventManager) : Prop :=
  ∀ url ∈ manager.calendarUrls, ∀ content, contentOf p answers manager url = some content →
    NoOverflow p zone now manager.settings content

/-- The manager returns an upcoming event of one of its calendars exactly where no calendar makes
the parser throw and the event itself passes the two filters. -/
theorem traced_returned_iff {p : Platform} {zone : SystemZone} (sound : zone.Sound) {now : TimePoint}
    {answers : Text → Answers} {manager : EventManager} {url content : Text} {vevents : List Vevent}
    {traced : TracedEvent} (registered : url ∈ manager.calendarUrls)
    (fits : ∀ c ∈ callIntegers p zone now manager.settings vevents, c.Fits)
    (loaded : eventsOf p zone answers manager url =
      .ok ((tracedEvents zone now manager.settings vevents).map (fun traced => p.event traced.event)))
    (read : calendarVevents zone content = .ok vevents)
    (inside : traced ∈ tracedEvents zone now manager.settings vevents)
    (upcoming : Upcoming now manager.settings traced.event.start) :
    (∃ manager' selected, getNextEvents p zone now answers manager = .ok (manager', selected) ∧
        p.event traced.event ∈ selected) ↔
      AllNumbers p answers manager ∧ traced.event.start ≠ 0 ∧
        now < traced.event.start + length traced.source := by
  have window : computeWindowOn p zone (p.point now) manager.settings = _ :=
    computeWindowOn_eq (fun c member => fits c (List.mem_append_left _ member))
  have inside_iff : inWindow (p.event traced.event).start (computeWindowOn p zone (p.point now) manager.settings) =
      inWindow traced.event.start (computeWindow zone now manager.settings) := by
    rw [window]
    exact inWindow_point _ _
  have later_iff : p.point now < (p.event traced.event).end_ ↔
      now < traced.event.start + length traced.source := by
    rw [← tracedEvents_end inside]
    exact Platform.point_lt
  apply Iff.intro
  · intro returned
    obtain ⟨manager', selected, call, isSelected⟩ := returned
    obtain ⟨_, load, _⟩ := bind_eq_ok.mp call
    obtain ⟨inTime, endsLater⟩ := ((mem_getNextEvents call (p.event traced.event)).mp isSelected).2
    rw [inside_iff] at inTime
    exact ⟨(returns_loadFromSources p zone answers manager).mp ⟨_, load⟩, ((inWindow_iff _ _).mp inTime).1,
      later_iff.mp endsLater⟩
  · intro given
    obtain ⟨numbers, notEpoch, endsLater⟩ := given
    obtain ⟨⟨after, loads⟩, load⟩ := (returns_loadFromSources p zone answers manager).mpr numbers
    have call : ∃ selected, getNextEvents p zone now answers manager = .ok (after, selected) := by
      rw [getNextEvents, load]
      exact ⟨_, rfl⟩
    obtain ⟨selected, call⟩ := call
    have shown := (shows_iff read sound now manager.settings (tracedEvents_source inside) _).mp
      ⟨traced, inside, rfl, rfl⟩
    have lower := windowStart_le_shown sound
      (calendarVevents_keeps read (tracedEvents_source inside)).rule shown upcoming.1
    have inTime : inWindow traced.event.start (computeWindow zone now manager.settings) = true :=
      (inWindow_iff _ _).mpr ⟨notEpoch, lower, upcoming.2⟩
    rw [← inside_iff] at inTime
    have ofUrl : ∃ url ∈ manager.calendarUrls, ∃ events,
        eventsOf p zone answers manager url = .ok events ∧ p.event traced.event ∈ events :=
      ⟨url, registered, _, loaded, List.mem_map_of_mem inside⟩
    exact ⟨after, selected, call, (mem_getNextEvents call (p.event traced.event)).mpr
      ⟨.inr ofUrl, inTime, later_iff.mpr endsLater⟩⟩

/-- An upcoming event is returned, where no time overflows, exactly where its own end lies behind
`now`: an event without a DTEND ends long before. -/
theorem upcomingReturned_iff {p : Platform} {zone : SystemZone} (sound : zone.Sound) {now : TimePoint}
    {answers : Text → Answers} (oneNow : ∀ url, (answers url).parseNow = now) {manager : EventManager}
    (fits : ContentsFit p zone now answers manager) :
    UpcomingReturned p zone now answers manager ↔ UpcomingEndLater p zone now answers manager := by
  refine forall_congr' fun url => forall_congr' fun registered => forall_congr' fun content =>
    forall_congr' fun given => ?_
  have fit := fits url registered content given
  have eventsOf_eq : eventsOf p zone answers manager url =
      parseCalendarOn p zone (p.point now) manager.settings content := by
    rw [eventsOf, given, oneNow]
  have parsed {vevents : List Vevent} (read : calendarVevents zone content = .ok vevents) :
      parseCalendarOn p zone (p.point now) manager.settings content =
        .ok ((tracedEvents zone now manager.settings vevents).map (fun traced => p.event traced.event)) := by
    rw [parseCalendarOn_eq fit, parseCalendarAt_eq_traced, read]
    simp only [Except.map, List.map_map]
    rfl
  apply Iff.intro
  · intro returned vevents read v member instant upcoming shown
    obtain ⟨traced, inside, rfl, rfl⟩ := (shows_iff read sound now manager.settings member instant).mpr shown
    apply (traced_returned_iff sound registered (fit vevents read) (eventsOf_eq.trans (parsed read)) read inside
      upcoming).mp
    exact returned _ (parsed read) (p.event traced.event) (List.mem_map_of_mem inside)
      (Platform.point_lt.mpr upcoming.1) (Platform.point_le.mpr upcoming.2)
  · intro later events answered event member behind ahead
    cases read : calendarVevents zone content with
    | error e =>
      rw [parseCalendarOn_eq_traced, read] at answered
      cases answered
    | ok vevents =>
      rw [parsed read] at answered
      cases answered
      obtain ⟨traced, inside, rfl⟩ := List.mem_map.mp member
      have upcoming : Upcoming now manager.settings traced.event.start :=
        ⟨Platform.point_lt.mp behind, Platform.point_le.mp ahead⟩
      apply (traced_returned_iff sound registered (fit vevents read) (eventsOf_eq.trans (parsed read)) read inside
        upcoming).mpr
      apply later vevents read traced.source (tracedEvents_source inside) traced.event.start upcoming
      exact (shows_iff read sound now manager.settings (tracedEvents_source inside) _).mp ⟨traced, inside, rfl, rfl⟩

/-- A manager whose one calendar has an event without a DTEND. -/
def openEndedManager : EventManager where
  cache := none
  calendarUrls := {text "u"}

def openEndedAnswers (_ : Text) : Answers where
  getNow := fromTimeT 1788480000
  fetched := soundCalendar
  putNow := fromTimeT 1788480000
  staleNow := fromTimeT 1788480000
  parseNow := fromTimeT 1788480000

theorem openEnded_content : contentOf .msvc openEndedAnswers openEndedManager (text "u") = some soundCalendar := by
  decide +kernel

theorem openEnded_fits : ContentsFit .msvc (.fixed 0) (fromTimeT 1788480000) openEndedAnswers openEndedManager := by
  intro url registered content given
  have same : text "u" = url := by
    simpa [openEndedManager, Std.LawfulEqCmp.compare_eq_iff_eq] using registered
  rw [← same, openEnded_content] at given
  cases given
  intro vevents read
  have all : (calendarVevents (.fixed 0) soundCalendar).toOption.all (fun vevents =>
      decide (∀ c ∈ callIntegers .msvc (.fixed 0) (fromTimeT 1788480000) {} vevents, c.Fits)) = true := by
    decide +kernel
  rw [read] at all
  exact of_decide_eq_true all

theorem upcomingReturned_iff_openEnded :
    UpcomingReturned .msvc (.fixed 0) (fromTimeT 1788480000) openEndedAnswers openEndedManager ↔
      UpcomingEndLater .msvc (.fixed 0) (fromTimeT 1788480000) openEndedAnswers openEndedManager :=
  upcomingReturned_iff (fixed_sound 0) (fun _ => rfl) openEnded_fits

/-- An event of the same day is parsed but not returned, since it has no DTEND. -/
theorem openEnded_dropped :
    ¬∀ p zone now answers manager, (∀ url, (answers url : Answers).parseNow = now) →
      UpcomingReturned p zone now answers manager := by
  intro always
  have parsed : parseCalendarOn .msvc (.fixed 0) (fromTimeT 1788480000) {} soundCalendar =
      .ok [{ uid := text "a", start := fromTimeT 1788516000 }] := by decide +kernel
  obtain ⟨manager', selected, call, member⟩ := always .msvc (.fixed 0) (fromTimeT 1788480000) openEndedAnswers
    openEndedManager (fun _ => rfl) (text "u") (by decide +kernel) soundCalendar openEnded_content _ parsed _
    List.mem_cons_self (by decide) (by decide)
  have nothing : (getNextEvents .msvc (.fixed 0) (fromTimeT 1788480000) openEndedAnswers openEndedManager).map
      Prod.snd = .ok [] := by decide +kernel
  rw [call] at nothing
  cases nothing
  cases member

end DivoomDev.Ics.NextEvents
