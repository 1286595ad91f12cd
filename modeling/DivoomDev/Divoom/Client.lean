import DivoomDev.Divoom.Handlers

/-! The client of the Divoom cloud. The requests sent so far and their replies are its state,
and the server may answer by all of them. -/

namespace DivoomDev.Divoom.Client
open DivoomDev.Library.Bytes DivoomDev.Library.JsonValues Models Handlers

/-- The libraries and the world around the client: the JSON library, the MD5 of a password as
hexadecimal text, the server, and what the items of a reply find in uninitialised memory. -/
structure Env where
  lib : JsonLib
  computeMd5 : Text → Text
  server : List Exchange → Request → Reply
  memory : List Exchange → Nat → Int × Int

/-- The operations that the updater calls. Nothing is returned where the process crashes. -/
structure ClientOps (σ : Type) where
  login : Text → Text → σ → Option (Except Exception UserInfo × σ)
  getDevices : σ → Option (Except Exception (List Device) × σ)
  getClockConfig : Int → Int → UserInfo → σ → Option (Except Exception ClockConfig × σ)
  setClockConfig : Int → Int → UserInfo → ClockConfig → σ → Option (Except Exception Bool × σ)

/-- `execute` from the reply on: a result where `handle` returned true. It catches everything
that is thrown, but not a crash. -/
def receive {α : Type} (handle : Text → Except Fault (Option α)) : Reply → Option (Option α)
  | .error => some none
  | .response statusCode body =>
      if statusCode ≠ 200 then some none
      else
        match handle body with
        | .ok result => some result
        | .error (.raised _) => some none
        | .error .nullPointer => none

namespace Env

/-- Where the request cannot be written as text, none is sent. -/
def execute {α : Type} (env : Env) (request : Request) (handle : Text → Except Fault (Option α))
    (sent : List Exchange) : Option (Option α × List Exchange) :=
  match request.body env.lib with
  | none => some (none, sent)
  | some _ =>
      (receive handle (env.server sent request)).map
        (fun result => (result, sent ++ [⟨request, env.server sent request⟩]))

def login (env : Env) (email password : Text) (sent : List Exchange) :
    Option (UserInfo × List Exchange) := do
  let (result, sent) ← env.execute (.login email (env.computeMd5 password)) (Handlers.login env.lib) sent
  pure (result.getD {}, sent)

def getDevices (env : Env) (sent : List Exchange) : Option (List Device × List Exchange) := do
  let (result, sent) ← env.execute .devices (Handlers.devices env.lib) sent
  pure (result.getD [], sent)

def getClockConfig (env : Env) (deviceId clockId : Int) (user : UserInfo) (sent : List Exchange) :
    Option (ClockConfig × List Exchange) := do
  let (result, sent) ← env.execute (.getConfig deviceId clockId user)
    (Handlers.getConfig env.lib (env.memory sent)) sent
  pure (result.getD {}, sent)

def setClockConfig (env : Env) (deviceId clockId : Int) (user : UserInfo) (clockConfig : ClockConfig)
    (sent : List Exchange) : Option (Bool × List Exchange) := do
  let (result, sent) ← env.execute (.setConfig deviceId clockId user clockConfig.itemList)
    (Handlers.setConfig env.lib) sent
  pure (result.isSome, sent)

/-- The client of the cloud. None of its calls throws. -/
def client (env : Env) : ClientOps (List Exchange) where
  login email password sent := (env.login email password sent).map (fun r => (.ok r.1, r.2))
  getDevices sent := (env.getDevices sent).map (fun r => (.ok r.1, r.2))
  getClockConfig deviceId clockId user sent :=
    (env.getClockConfig deviceId clockId user sent).map (fun r => (.ok r.1, r.2))
  setClockConfig deviceId clockId user clockConfig sent :=
    (env.setClockConfig deviceId clockId user clockConfig sent).map (fun r => (.ok r.1, r.2))

/-! ## What a call sends -/

variable {env : Env} {sent sent' : List Exchange}

theorem execute_sent {α : Type} {request : Request} {handle : Text → Except Fault (Option α)}
    {result : Option α} (executed : env.execute request handle sent = some (result, sent')) :
    ∃ new, sent' = sent ++ new ∧ ∀ ex ∈ new, ex.request = request := by
  unfold execute at executed
  split at executed
  · cases executed
    exact ⟨[], by simp, by simp⟩
  · obtain ⟨received, _, same⟩ := Option.map_eq_some_iff.mp executed
    cases same
    exact ⟨_, rfl, by simp⟩

theorem execute_result {α : Type} {request : Request} {handle : Text → Except Fault (Option α)}
    {result : α} (executed : env.execute request handle sent = some (some result, sent')) :
    sent' = sent ++ [⟨request, env.server sent request⟩] ∧
      receive handle (env.server sent request) = some (some result) := by
  unfold execute at executed
  split at executed
  · cases executed
  · obtain ⟨received, handled, same⟩ := Option.map_eq_some_iff.mp executed
    cases same
    exact ⟨rfl, handled⟩

theorem receive_returns {α : Type} {handle : Text → Except Fault (Option α)}
    (checked : ∀ body, handle body ≠ .error .nullPointer) (reply : Reply) :
    ∃ result, receive handle reply = some result := by
  unfold receive
  split
  · exact ⟨_, rfl⟩
  · split_ifs
    · exact ⟨_, rfl⟩
    · split
      · exact ⟨_, rfl⟩
      · exact ⟨_, rfl⟩
      · next crashed => exact absurd crashed (checked _)

theorem execute_returns {α : Type} {handle : Text → Except Fault (Option α)}
    (checked : ∀ body, handle body ≠ .error .nullPointer) (request : Request) (sent : List Exchange) :
    ∃ r, env.execute request handle sent = some r := by
  obtain ⟨result, received⟩ := receive_returns checked (env.server sent request)
  unfold execute
  split
  · exact ⟨_, rfl⟩
  · rw [received]
    exact ⟨_, rfl⟩

theorem login_sent {email password : Text} {user : UserInfo}
    (called : env.login email password sent = some (user, sent')) :
    ∃ new, sent' = sent ++ new ∧ ∀ ex ∈ new, ex.request = .login email (env.computeMd5 password) := by
  obtain ⟨⟨result, _⟩, executed, same⟩ := Option.bind_eq_some_iff.mp called
  cases same
  exact execute_sent executed

theorem getDevices_sent {list : List Device} (called : env.getDevices sent = some (list, sent')) :
    ∃ new, sent' = sent ++ new ∧ ∀ ex ∈ new, ex.request = .devices := by
  obtain ⟨⟨result, _⟩, executed, same⟩ := Option.bind_eq_some_iff.mp called
  cases same
  exact execute_sent executed

theorem getClockConfig_sent {deviceId clockId : Int} {user : UserInfo} {config : ClockConfig}
    (called : env.getClockConfig deviceId clockId user sent = some (config, sent')) :
    ∃ new, sent' = sent ++ new ∧ ∀ ex ∈ new, ex.request = .getConfig deviceId clockId user := by
  obtain ⟨⟨result, _⟩, executed, same⟩ := Option.bind_eq_some_iff.mp called
  cases same
  exact execute_sent executed

theorem setClockConfig_sent {deviceId clockId : Int} {user : UserInfo} {config : ClockConfig}
    {ok : Bool} (called : env.setClockConfig deviceId clockId user config sent = some (ok, sent')) :
    ∃ new, sent' = sent ++ new ∧
      ∀ ex ∈ new, ex.request = .setConfig deviceId clockId user config.itemList := by
  obtain ⟨⟨result, _⟩, executed, same⟩ := Option.bind_eq_some_iff.mp called
  cases same
  exact execute_sent executed

/-- A call that returns true ends with the reply that acknowledges its request. -/
theorem setClockConfig_true {deviceId clockId : Int} {user : UserInfo} {config : ClockConfig}
    (called : env.setClockConfig deviceId clockId user config sent = some (true, sent')) :
    ∃ reply, sent' = sent ++ [⟨.setConfig deviceId clockId user config.itemList, reply⟩] ∧
      receive (Handlers.setConfig env.lib) reply = some (some ()) := by
  obtain ⟨⟨result, _⟩, executed, same⟩ := Option.bind_eq_some_iff.mp called
  cases result with
  | none => cases same
  | some _ =>
    cases same
    exact ⟨_, execute_result executed⟩

theorem getClockConfig_returns (env : Env) (deviceId clockId : Int) (user : UserInfo)
    (sent : List Exchange) : ∃ r, env.getClockConfig deviceId clockId user sent = some r := by
  obtain ⟨r, executed⟩ := execute_returns (getConfig_checked env.lib (env.memory sent))
    (.getConfig deviceId clockId user) sent
  exact ⟨_, by rw [getClockConfig, executed]; rfl⟩

theorem setClockConfig_returns (env : Env) (deviceId clockId : Int) (user : UserInfo)
    (config : ClockConfig) (sent : List Exchange) :
    ∃ r, env.setClockConfig deviceId clockId user config sent = some r := by
  obtain ⟨r, executed⟩ := execute_returns (setConfig_checked env.lib)
    (.setConfig deviceId clockId user config.itemList) sent
  exact ⟨_, by rw [setClockConfig, executed]; rfl⟩

end Env

/-! ## A sample cloud -/

def loginAnswer : Json :=
  .object [(text "ReturnCode", .integer 0), (text "Token", .integer 7), (text "UserId", .integer 5)]

def devicesAnswer : Json :=
  .object [(text "DeviceList", .array [.object [(text "DeviceId", .integer 1)]]),
    (text "ReturnCode", .integer 0)]

def clockAnswer : Json :=
  .object [(text "ItemList", .array [.object [(text "ItemType", .integer 25)]]),
    (text "ReturnCode", .integer 0)]

def answerCode (code : Int) : Json := .object [(text "ReturnCode", .integer code)]

def textItem (value : Text) : Item := { invisible := 0, itemType := 25, itemValue := value }

def sampleEnv (clock set : Json) : Env where
  lib := compactLib ([loginAnswer, devicesAnswer, clock, set] ++
    [Request.login (text "u") (text "p"), .getConfig 1 598 ⟨7, 5⟩, .setConfig 1 598 ⟨7, 5⟩ [],
      .setConfig 1 598 ⟨7, 5⟩ [textItem (text "a")]].filterMap Request.command)
  computeMd5 := id
  server _ request := .response 200 (match request with
    | .login _ _ => loginAnswer
    | .devices => devicesAnswer
    | .getConfig _ _ _ => clock
    | .setConfig _ _ _ _ => set).compact
  memory _ _ := (0, 0)

end DivoomDev.Divoom.Client
