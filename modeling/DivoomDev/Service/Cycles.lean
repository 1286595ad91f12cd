import DivoomDev.Ics.Loading
import DivoomDev.Service.Updater
import DivoomDev.Storage.SqliteBackend

/-! The loop of the service: in each cycle it reads the storage and then updates the devices,
while others edit the storage between the cycles. -/

namespace DivoomDev.Service.Cycles
open DivoomDev.Library.Bytes DivoomDev.Library.Run DivoomDev.Ics.Models DivoomDev.Ics.Datetime
  DivoomDev.Ics.Loading DivoomDev.Storage.Models DivoomDev.Storage.SqliteBackend
  DivoomDev.Divoom.Models DivoomDev.Divoom.Client Updater

/-- The service with the storage it was opened with, and what its client has sent so far. -/
structure ServiceState where
  storage : Tables
  calendarManager : EventManager
  deviceUpdater : DeviceUpdater
  sent : List Exchange

structure World where
  cloud : Env
  hash : Text → UInt64
  zone : SystemZone

/-- The manager that `run` makes, with a horizon of 24 hours and no cache. -/
def newManager : EventManager := { cache := none, settings := { horizon := 24 } }

/-- The loop of `get_db_info` over the sources. -/
def addSources (service : ServiceState) : ServiceState :=
  { service with
    calendarManager := service.storage.listCalendarSources.foldl
      (fun manager item => manager.addCalendarUrl item.url) service.calendarManager }

/-- Nothing is returned where the process crashes. -/
def getDbInfo (world : World) (service : ServiceState) : Option ServiceState :=
  let service := addSources service
  match service.storage.getAccount (text "divoom") with
  | none => some service
  | some account =>
      (updateCredentials world.cloud.client account.login account.password service.deviceUpdater
        service.sent).map (fun r => { service with deviceUpdater := r.1, sent := r.2 })

/-- `process_cycle`, where `value` is the text that it makes of the events and of what Jira
and Jenkins answer, or nothing where that throws. An exception ends the cycle. The clock has ticks
of 100 ns. -/
def processCycle (world : World) (answers : Text → Answers) (value : Option Text) (service : ServiceState) :
    Option ServiceState :=
  let manager := service.calendarManager
  match loadFromSources .msvc world.zone answers manager with
  | .error _ =>
      some { service with
        calendarManager := managerAfter .msvc world.zone answers ({ manager with fetchedEvents := [] }, [])
          manager.calendarUrls.toList }
  | .ok (calendarManager, _) =>
      match value with
      | none => some { service with calendarManager }
      | some value =>
          match update world.cloud.client world.hash 1 value service.deviceUpdater service.sent with
          | .error _ => none
          | .ok (deviceUpdater, sent) => some { service with calendarManager, deviceUpdater, sent }

/-- An edit of the storage, a start of `run` and one of its cycles. -/
inductive Input where
  | edit (operation : Operation)
  | start
  | cycle (answers : Text → Answers) (value : Option Text)

def step (world : World) (service : ServiceState) : Input → Option ServiceState
  | .edit operation => some { service with storage := (service.storage.perform operation).2 }
  | .start => some { service with calendarManager := newManager }
  | .cycle answers value => (getDbInfo world service).bind (processCycle world answers value)

/-! ## The URLs of the manager -/

def listedUrls (t : Tables) : List Text := t.listCalendarSources.map CalendarSource.url

def enabledUrls (t : Tables) : List Text :=
  (t.listCalendarSources.filter CalendarSource.enabled).map CalendarSource.url

theorem mem_enabledUrls {t : Tables} {url : Text} :
    url ∈ enabledUrls t ↔ ∃ src ∈ t.listCalendarSources, src.url = url ∧ src.enabled := by
  simp only [enabledUrls, List.mem_map, List.mem_filter, and_assoc]
  exact exists_congr (fun src => and_congr_right (fun _ => and_comm))

section
variable {world : World} {service service' : ServiceState}

/-- Every listed URL is added, enabled or not, and none is taken away. -/
theorem mem_addSources (service : ServiceState) (url : Text) :
    url ∈ (addSources service).calendarManager.calendarUrls ↔
      url ∈ service.calendarManager.calendarUrls ∨ url ∈ listedUrls service.storage := by
  simp only [addSources, listedUrls]
  generalize service.calendarManager = manager
  induction service.storage.listCalendarSources generalizing manager with
  | nil => simp
  | cons src rest ih =>
    rw [List.foldl_cons, ih, EventManager.mem_addCalendarUrl, List.map_cons, List.mem_cons]
    tauto

theorem getDbInfo_cases (returned : getDbInfo world service = some service') :
    (service.storage.getAccount (text "divoom") = none ∧ service' = addSources service) ∨
      ∃ account, service.storage.getAccount (text "divoom") = some account ∧
        ∃ r, updateCredentials world.cloud.client account.login account.password service.deviceUpdater
            service.sent = some r ∧
          service' = { addSources service with deviceUpdater := r.1, sent := r.2 } := by
  have storage : (addSources service).storage = service.storage := rfl
  simp only [getDbInfo, storage] at returned
  cases stored : service.storage.getAccount (text "divoom") with
  | none =>
    rw [stored] at returned
    exact .inl ⟨rfl, (Option.some.inj returned).symm⟩
  | some account =>
    rw [stored] at returned
    obtain ⟨r, updated, same⟩ := Option.map_eq_some_iff.mp returned
    exact .inr ⟨account, rfl, r, updated, same.symm⟩

theorem getDbInfo_addSources (returned : getDbInfo world service = some service') :
    service'.calendarManager = (addSources service).calendarManager ∧ service'.storage = service.storage := by
  rcases getDbInfo_cases returned with ⟨_, rfl⟩ | ⟨_, _, _, _, rfl⟩
  · exact ⟨rfl, rfl⟩
  · exact ⟨rfl, rfl⟩

/-- What `process_cycle` keeps: the storage, the URLs, and all of the updater but its hash. It
sends requests for clocks only. -/
structure Processed (service service' : ServiceState) : Prop where
  storage : service'.storage = service.storage
  urls : service'.calendarManager.calendarUrls = service.calendarManager.calendarUrls
  updater : ∃ hash, service'.deviceUpdater = { service.deviceUpdater with previousTextHash := hash }
  sent : ∃ new, service'.sent = service.sent ++ new ∧ ∀ ex ∈ new, ∃ deviceId, ForClock deviceId ex.request

theorem processCycle_processed {answers : Text → Answers} {value : Option Text}
    (returned : processCycle world answers value service = some service') : Processed service service' := by
  have quiet : ∃ new, service.sent = service.sent ++ new ∧ ∀ ex ∈ new, ∃ deviceId, ForClock deviceId ex.request :=
    ⟨[], by simp, by simp⟩
  simp only [processCycle] at returned
  split at returned
  · cases returned
    exact ⟨rfl, managerAfter_calendarUrls _ _ _ _ _, ⟨_, rfl⟩, quiet⟩
  · next manager _ loaded =>
    have urls := loadFromSources_calendarUrls loaded
    cases value with
    | none =>
      cases returned
      exact ⟨rfl, urls, ⟨_, rfl⟩, quiet⟩
    | some value =>
      obtain ⟨new, updated, forClock⟩ :=
        update_sent world.cloud world.hash 0 value service.deviceUpdater service.sent
      simp only [updated] at returned
      cases returned
      refine ⟨rfl, urls, ?_, new, rfl, forClock⟩
      dsimp only
      split_ifs
      · exact ⟨_, rfl⟩
      · exact ⟨_, rfl⟩

/-- Behind `get_db_info` the manager has exactly the URLs of the enabled sources. -/
def InSync (world : World) (service : ServiceState) : Input → Prop
  | .cycle _ _ => ∀ service', getDbInfo world service = some service' → ∀ url,
      url ∈ service'.calendarManager.calendarUrls ↔ url ∈ enabledUrls service'.storage
  | _ => True

/-- No URL is that of a disabled source only, and the manager has none that is no longer listed. -/
def UpToDate (world : World) (service : ServiceState) : Input → Prop
  | .cycle _ _ => (getDbInfo world service).isSome →
      (∀ src ∈ service.storage.listCalendarSources,
        ∃ other ∈ service.storage.listCalendarSources, other.url = src.url ∧ other.enabled) ∧
      ∀ url ∈ service.calendarManager.calendarUrls, url ∈ listedUrls service.storage
  | _ => True

theorem upToDate_iff_inSync (world : World) (service : ServiceState) (input : Input) :
    UpToDate world service input ↔ InSync world service input := by
  cases input with
  | edit _ => exact Iff.rfl
  | start => exact Iff.rfl
  | cycle answers value =>
    simp only [UpToDate, InSync]
    cases read : getDbInfo world service with
    | none => simp
    | some service' =>
      obtain ⟨manager, storage⟩ := getDbInfo_addSources read
      simp only [Option.isSome_some, true_implies, Option.some.injEq, forall_eq', manager, storage,
        mem_addSources]
      apply Iff.intro
      · intro upToDate url
        obtain ⟨allEnabled, kept⟩ := upToDate
        apply Iff.intro
        · intro inManager
          have listed : url ∈ listedUrls service.storage := inManager.elim (kept url) id
          obtain ⟨src, inside, rfl⟩ := List.mem_map.mp listed
          exact mem_enabledUrls.mpr (allEnabled src inside)
        · intro isEnabled
          obtain ⟨src, inside, rfl, _⟩ := mem_enabledUrls.mp isEnabled
          exact .inr (List.mem_map_of_mem inside)
      · intro same
        refine ⟨fun src inside => mem_enabledUrls.mp ((same _).mp (.inr (List.mem_map_of_mem inside))),
          fun url inManager => ?_⟩
        obtain ⟨src, inside, rfl, _⟩ := mem_enabledUrls.mp ((same url).mp (.inl inManager))
        exact List.mem_map_of_mem inside

/-- The manager follows the enabled sources through a run exactly where no cycle finds a
disabled source or an URL that was removed from the storage. -/
theorem cycles_inSync_iff (world : World) (service : ServiceState) (inputs : List Input) :
    Along (UpToDate world) (step world) service inputs ↔ Along (InSync world) (step world) service inputs :=
  along_congr (upToDate_iff_inSync world)

end

/-! ## A disabled source -/

def sampleWorld : World where
  cloud := sampleEnv clockAnswer (answerCode 0)
  hash _ := 1
  zone := .fixed 0

def startedService : ServiceState where
  storage := Tables.openTables {}
  calendarManager := newManager
  deviceUpdater := {}
  sent := []

/-- A source that is disabled between two cycles stays with the manager. -/
theorem disabled_source_kept : ¬∀ (world : World) (service : ServiceState) (inputs : List Input),
    Along (InSync world) (step world) service inputs := by
  intro always
  have along := always sampleWorld startedService
    [.edit (.upsertCalendarSource ⟨text "u", 0, true⟩), .cycle (fun _ => ⟨0, [], 0, 0, 0⟩) (some []),
      .edit (.upsertCalendarSource ⟨text "u", 0, false⟩), .cycle (fun _ => ⟨0, [], 0, 0, 0⟩) (some [])]
  have inSync := (((along.2 _ rfl).2 _ rfl).2 _ rfl).1 _ rfl (text "u")
  have kept := inSync.mp (by decide +kernel)
  exact absurd kept (by decide +kernel)

end DivoomDev.Service.Cycles
