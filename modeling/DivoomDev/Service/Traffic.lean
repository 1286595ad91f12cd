import DivoomDev.Service.Cycles
import DivoomDev.Service.WriteBack

/-! The traffic of the service with the cloud, as a monitor between the two sees it: whatever the
server answers and whatever is edited in the storage, it follows one protocol. -/

namespace DivoomDev.Service.Traffic
open DivoomDev.Library.Bytes DivoomDev.Library.JsonValues DivoomDev.Library.Run DivoomDev.Ics.Loading
  DivoomDev.Divoom DivoomDev.Divoom.Models DivoomDev.Divoom.Client DivoomDev.Storage.Models
  DivoomDev.Storage.SqliteBackend Updater WriteBack Cycles

/-! ## The monitor -/

/-- What has to come, or may come, next. -/
inductive Expected where
  | anything
  | devices (user : UserInfo)
  | write (deviceId : Int)
  deriving DecidableEq, Repr

/-- The user and the devices of the session, and the devices whose clocks are still to be read. -/
structure Monitor where
  user : UserInfo := {}
  devices : List Int := []
  queue : List Int := []
  expected : Expected := .anything
  deriving DecidableEq, Repr

/-- What a client keeps of a reply to a login. -/
def userOf (lib : JsonLib) (reply : Reply) : UserInfo := ((receive (Handlers.login lib) reply).getD none).getD {}

def devicesOf (lib : JsonLib) (reply : Reply) : List Device :=
  ((receive (Handlers.devices lib) reply).getD none).getD []

/-- An exchange is accepted in its place only. A session begins with a list of devices, for the
user of the login right before it, or for nobody. The clocks of all devices are read in the order
of the list, for this user, and each is written to at most once, right behind its reading. -/
def Monitor.step (lib : JsonLib) (m : Monitor) (ex : Exchange) : Option Monitor :=
  match ex.request, m.expected with
  | .login _ _, .devices _ => none
  | .login _ _, _ => if m.queue = [] then some { m with expected := .devices (userOf lib ex.reply) } else none
  | .devices, expected =>
      if m.queue = [] then
        some {
          user := match expected with
            | .devices user => user
            | _ => {}
          devices := (devicesOf lib ex.reply).map Device.id }
      else none
  | .getConfig _ _ _, .devices _ => none
  | .getConfig deviceId clockId user, _ =>
      match if m.queue = [] then m.devices else m.queue with
      | [] => none
      | next :: rest =>
          if deviceId = next ∧ clockId = currentClockId ∧ user = m.user
          then some { m with queue := rest, expected := .write deviceId } else none
  | .setConfig deviceId clockId user _, expected =>
      if expected = .write deviceId ∧ clockId = currentClockId ∧ user = m.user
      then some { m with expected := .anything } else none

/-- The monitor behind some traffic, if all of it is accepted. -/
def Monitor.watch (lib : JsonLib) (sent : List Exchange) : Monitor → Option Monitor :=
  sent.foldlM (Monitor.step lib)

theorem Monitor.watch_append {lib : JsonLib} {sent new : List Exchange} {m m' : Monitor}
    (first : m.watch lib sent = some m') : m.watch lib (sent ++ new) = m'.watch lib new := by
  rw [watch, List.foldlM_append]
  show (m.watch lib sent).bind (Monitor.watch lib new) = _
  rw [first]
  rfl

/-- No session is begun and no round through the devices is left unfinished. -/
structure Monitor.Idle (m : Monitor) : Prop where
  queue : m.queue = []
  expected : ∀ user, m.expected ≠ .devices user

/-! ## A session begins -/

section
variable {env : Env} {sent sent' : List Exchange} {m : Monitor}

/-- A request is sent with its reply, or cannot be written. -/
theorem execute_cases {α : Type} {request : Request} {handle : Text → Except Handlers.Fault (Option α)}
    {result : Option α} (executed : env.execute request handle sent = some (result, sent')) :
    (request.body env.lib = none ∧ sent' = sent ∧ result = none) ∨
      (sent' = sent ++ [⟨request, env.server sent request⟩] ∧
        receive handle (env.server sent request) = some result) := by
  unfold Env.execute at executed
  split at executed
  · next unwritten =>
    cases executed
    exact .inl ⟨unwritten, rfl, rfl⟩
  · obtain ⟨received, handled, same⟩ := Option.map_eq_some_iff.mp executed
    cases same
    exact .inr ⟨rfl, handled⟩

theorem login_watched {email password : Text} {user : UserInfo}
    (called : env.login email password sent = some (user, sent')) :
    (sent' = sent ∧ user = {}) ∨
      ∃ reply, sent' = sent ++ [⟨.login email (env.computeMd5 password), reply⟩] ∧ user = userOf env.lib reply := by
  obtain ⟨⟨result, _⟩, executed, same⟩ := Option.bind_eq_some_iff.mp called
  cases same
  rcases execute_cases executed with ⟨_, unsent, rfl⟩ | ⟨asked, received⟩
  · exact .inl ⟨unsent, rfl⟩
  · exact .inr ⟨_, asked, by rw [userOf, received]; rfl⟩

/-- A request for the devices can always be written. -/
theorem getDevices_watched {list : List Device} (called : env.getDevices sent = some (list, sent')) :
    ∃ reply, sent' = sent ++ [⟨.devices, reply⟩] ∧ list = devicesOf env.lib reply := by
  obtain ⟨⟨result, _⟩, executed, same⟩ := Option.bind_eq_some_iff.mp called
  cases same
  rcases execute_cases executed with ⟨unwritten, _⟩ | ⟨asked, received⟩
  · cases unwritten
  · exact ⟨_, asked, by rw [devicesOf, received]; rfl⟩

theorem session_watched (idle : m.Idle) {email password : Text} {user : UserInfo} {list : List Device}
    {sent₁ sent₂ : List Exchange} (called : env.login email password sent = some (user, sent₁))
    (got : env.getDevices sent₁ = some (list, sent₂)) :
    ∃ new, sent₂ = sent ++ new ∧
      m.watch env.lib new = some { user, devices := list.map Device.id } := by
  obtain ⟨listing, rfl, rfl⟩ := getDevices_watched got
  rcases login_watched called with ⟨rfl, rfl⟩ | ⟨reply, rfl, rfl⟩
  · refine ⟨_, rfl, ?_⟩
    cases expected : m.expected with
    | devices user => exact absurd expected (idle.expected user)
    | _ => simp [Monitor.watch, Monitor.step, idle.queue, expected]
  · refine ⟨[_, _], by rw [List.append_assoc]; rfl, ?_⟩
    cases expected : m.expected with
    | devices user => exact absurd expected (idle.expected user)
    | _ => simp [Monitor.watch, Monitor.step, idle.queue, expected]

/-! ## A round through the devices -/

variable (utf8 : Utf8Lib env.lib) {user : UserInfo} {value : Text}
include utf8

theorem updateDevice_watched (value : Text) (sent : List Exchange) {dev : Device} {rest : List Int}
    (next : (if m.queue = [] then m.devices else m.queue) = dev.id :: rest) (same : m.user = user)
    (expected : ∀ user, m.expected ≠ .devices user) :
    ∃ new expected', updateDevice env.client user dev.id value sent = some (.ok (), sent ++ new) ∧
      (∀ user, expected' ≠ .devices user) ∧
      m.watch env.lib new = some { m with queue := rest, expected := expected' } := by
  have sends := updateDevice_sends utf8 user dev.id value sent
  have read : m.step env.lib (readOf env user dev.id sent) =
      some { m with queue := rest, expected := .write dev.id } := by
    cases place : m.expected with
    | devices user => exact absurd place (expected user)
    | _ => simp [Monitor.step, readOf, place, next, same]
  split_ifs at sends with written
  · refine ⟨_, .anything, sends, by simp, ?_⟩
    have write (reply : Reply) : Monitor.step env.lib { m with queue := rest, expected := .write dev.id }
        ⟨writeOf env user dev.id value sent, reply⟩ = some { m with queue := rest, expected := .anything } := by
      simp [Monitor.step, writeOf, same]
    rw [Monitor.watch, List.foldlM_cons, read]
    simp only [Option.bind_eq_bind, Option.bind_some, List.foldlM_cons, write, List.foldlM_nil]
    rfl
  · refine ⟨_, .write dev.id, sends, by simp, ?_⟩
    rw [Monitor.watch, List.foldlM_cons, read]
    rfl

theorem updateDevices_watched (value : Text) (sent : List Exchange) {devices : List Device}
    (queued : devices = [] → m.queue = [])
    (next : devices ≠ [] → (if m.queue = [] then m.devices else m.queue) = devices.map Device.id)
    (same : m.user = user) (expected : ∀ user, m.expected ≠ .devices user) :
    ∃ new expected', updateDevices env.client user value devices sent = some (.ok (), sent ++ new) ∧
      (∀ user, expected' ≠ .devices user) ∧
      m.watch env.lib new = some { m with queue := [], expected := expected' } := by
  induction devices generalizing sent m with
  | nil =>
    refine ⟨[], m.expected, by simp [updateDevices], expected, ?_⟩
    rw [← queued rfl]
    rfl
  | cons dev rest ih =>
    obtain ⟨first, between, here, notDevices, watched⟩ := updateDevice_watched utf8 value sent
       (next (List.cons_ne_nil _ _)) same expected
    have later : rest ≠ [] → (if rest.map Device.id = [] then m.devices else rest.map Device.id) =
        rest.map Device.id := fun filled => if_neg (by simpa using filled)
    obtain ⟨second, last, onward, notDevices', watched'⟩ := ih (sent ++ first)
      (m := { m with queue := rest.map Device.id, expected := between }) (fun none => by simp [none]) later same
      notDevices
    refine ⟨first ++ second, last, by simp [updateDevices, here, onward], notDevices', ?_⟩
    rw [Monitor.watch_append watched, watched']

omit utf8 in
/-- An update leaves the updater as it is, or runs one round and stores the hash. -/
theorem update_rounds {hash : Text → UInt64} {updater updater' : DeviceUpdater}
    (updated : update env.client hash 1 value updater sent = .ok (updater', sent')) :
    (updater' = updater ∧ sent' = sent) ∨ ∃ user devices new, updater.userInfo = some user ∧
      updater.devices = some devices ∧
      updateDevices env.client user value devices sent = some (.ok (), sent ++ new) ∧ sent' = sent ++ new ∧
      updater' = { updater with previousTextHash := hash value } := by
  rw [update] at updated
  split_ifs at updated with same
  · cases updated
    exact .inl ⟨rfl, rfl⟩
  · cases listed : updater.devices with
    | none =>
      rw [listed] at updated
      cases updated
      exact .inl ⟨rfl, rfl⟩
    | some devices =>
      cases isUser : updater.userInfo with
      | none =>
        rw [listed, isUser] at updated
        cases updated
        exact .inl ⟨rfl, rfl⟩
      | some user =>
        obtain ⟨new, looped, _⟩ := updateDevices_sent env user value devices sent
        simp only [listed, isUser, looped, Except.ok.injEq, Prod.mk.injEq] at updated
        obtain ⟨rfl, rfl⟩ := updated
        exact .inr ⟨user, devices, new, rfl, rfl, looped, rfl, rfl⟩

end

/-! ## Runs -/

/-- The monitor is idle, and has the session that the updater has. -/
structure Watched (lib : JsonLib) (service : ServiceState) (m : Monitor) : Prop where
  accepted : Monitor.watch lib service.sent {} = some m
  idle : m.Idle
  session : ∀ devices, service.deviceUpdater.devices = some devices →
    m.devices = devices.map Device.id ∧ service.deviceUpdater.userInfo = some m.user

section
variable {world : World} (utf8 : Utf8Lib world.cloud.lib) {service service' : ServiceState} {m : Monitor}

theorem getDbInfo_watched (watched : Watched world.cloud.lib service m)
    (returned : getDbInfo world service = some service') : ∃ m', Watched world.cloud.lib service' m' := by
  rcases getDbInfo_cases returned with ⟨_, rfl⟩ | ⟨account, _, r, updated, rfl⟩
  · exact ⟨m, watched.accepted, watched.idle, watched.session⟩
  · rcases updateCredentials_cloud updated with ⟨_, rfl⟩ | ⟨_, user, sent₁, list, sent₂, called, got, rfl⟩
    · exact ⟨m, watched.accepted, watched.idle, watched.session⟩
    · obtain ⟨new, rfl, begun⟩ := session_watched watched.idle called got
      refine ⟨_, (Monitor.watch_append watched.accepted).trans begun, ⟨rfl, by simp⟩, fun devices listed => ?_⟩
      cases listed
      exact ⟨rfl, rfl⟩

include utf8

theorem processCycle_watched {answers : Text → Answers} {value : Option Text}
    (watched : Watched world.cloud.lib service m)
    (returned : processCycle world answers value service = some service') :
    ∃ m', Watched world.cloud.lib service' m' := by
  simp only [processCycle] at returned
  split at returned
  · cases returned
    exact ⟨m, watched.accepted, watched.idle, watched.session⟩
  · cases value with
    | none =>
      cases returned
      exact ⟨m, watched.accepted, watched.idle, watched.session⟩
    | some value =>
      dsimp only at returned
      split at returned
      · cases returned
      · next updated =>
        cases returned
        rcases update_rounds updated with ⟨rfl, rfl⟩ | ⟨user, devices, new, isUser, listed, looped, rfl, rfl⟩
        · exact ⟨m, watched.accepted, watched.idle, watched.session⟩
        · obtain ⟨sameDevices, sameUser⟩ := watched.session devices listed
          have queue := watched.idle.queue
          obtain ⟨new', last, looped', notDevices, round⟩ := updateDevices_watched (m := m) utf8 value
            service.sent (fun _ => queue)
            (fun _ => by rw [if_pos queue, sameDevices]) (Option.some.inj (sameUser.symm.trans isUser))
            watched.idle.expected
          obtain rfl : new = new' := by simpa [looped] using looped'
          exact ⟨_, (Monitor.watch_append watched.accepted).trans round, ⟨rfl, notDevices⟩,
            fun list same => watched.session list same⟩

theorem step_watched {input : Input} (watched : Watched world.cloud.lib service m)
    (stepped : step world service input = some service') : ∃ m', Watched world.cloud.lib service' m' := by
  cases input with
  | edit operation =>
    cases stepped
    exact ⟨m, watched.accepted, watched.idle, watched.session⟩
  | start =>
    cases stepped
    exact ⟨m, watched.accepted, watched.idle, watched.session⟩
  | cycle answers value =>
    obtain ⟨middle, read, processed⟩ := Option.bind_eq_some_iff.mp stepped
    obtain ⟨m₁, watched₁⟩ := getDbInfo_watched watched read
    exact processCycle_watched utf8 watched₁ processed

/-- Whatever the server answers in whatever cycles, the monitor accepts all that is sent, finds no
round unfinished, and knows the user and the devices of the updater. -/
theorem traffic_watched {storage : Tables} {inputs : List Input}
    (reached : run (step world) ⟨storage, newManager, {}, []⟩ inputs = some service') :
    ∃ m, Monitor.watch world.cloud.lib service'.sent {} = some m ∧ m.Idle ∧
      ∀ devices, service'.deviceUpdater.devices = some devices →
        m.devices = devices.map Device.id ∧ service'.deviceUpdater.userInfo = some m.user := by
  have start : ∃ m, Watched world.cloud.lib ⟨storage, newManager, {}, []⟩ m :=
    ⟨{}, rfl, ⟨rfl, by simp⟩, fun devices none => by cases none⟩
  obtain ⟨m, watched⟩ := run_invariant_of_step (I := fun service => ∃ m, Watched world.cloud.lib service m)
    (fun _ _ _ given stepped => given.elim fun _ watched => step_watched utf8 watched stepped) start reached
  exact ⟨m, watched.accepted, watched.idle, watched.session⟩

end

/-! ## A session with one device -/

def watchedWorld : World where
  cloud := { sampleEnv clockAnswer (answerCode 0) with
    lib := utf8Lib [loginAnswer, devicesAnswer, clockAnswer, answerCode 0] }
  hash _ := 1
  zone := .fixed 0

def watchedInputs : List Input :=
  [.edit (.upsertAccount ⟨text "divoom", text "u", text "p"⟩), .cycle (fun _ => ⟨0, [], 0, 0, 0⟩) (some (text "a"))]

theorem traffic_watched_one_device :
    ∃ service, run (step watchedWorld) ⟨Tables.openTables {}, newManager, {}, []⟩ watchedInputs = some service ∧
      ∃ m, Monitor.watch watchedWorld.cloud.lib service.sent {} = some m ∧ m.Idle ∧
        ∀ devices, service.deviceUpdater.devices = some devices →
          m.devices = devices.map Device.id ∧ service.deviceUpdater.userInfo = some m.user := by
  have reached : ∃ service, run (step watchedWorld) ⟨Tables.openTables {}, newManager, {}, []⟩ watchedInputs =
      some service := ⟨_, rfl⟩
  obtain ⟨service, reached⟩ := reached
  exact ⟨service, reached, traffic_watched (show Utf8Lib watchedWorld.cloud.lib from utf8Lib_utf8 _) reached⟩

/-- Four requests: a login, the devices, and the clock of the one device read and written. -/
example : (Monitor.watch watchedWorld.cloud.lib
    [⟨.login (text "u") (text "p"), .response 200 loginAnswer.compact⟩,
      ⟨.devices, .response 200 devicesAnswer.compact⟩, ⟨.getConfig 1 598 ⟨7, 5⟩, .error⟩,
      ⟨.setConfig 1 598 ⟨7, 5⟩ [], .error⟩] {}).map Monitor.devices = some [1] := by
  decide +kernel

end DivoomDev.Service.Traffic
