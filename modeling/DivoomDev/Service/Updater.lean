import DivoomDev.Divoom.Client

/-! The device updater over any client, and what it does with the client of the cloud. -/

namespace DivoomDev.Service.Updater
open DivoomDev.Library.Bytes DivoomDev.Divoom.Models DivoomDev.Divoom.Client

structure DeviceUpdater where
  login_ : Text := []
  password_ : Text := []
  previousTextHash : UInt64 := 0
  userInfo : Option UserInfo := none
  devices : Option (List Device) := none
  deriving DecidableEq, Repr

/-- Why a call does not return: the process crashed, or it was still calling itself when its
fuel ran out. -/
inductive Stuck where
  | crashed
  | unfinished
  deriving DecidableEq, Repr

def currentClockId : Int := 598

/-- The text goes into every item of type 25. -/
def setText (value : Text) (clockConfig : ClockConfig) : ClockConfig :=
  { clockConfig with
    itemList := clockConfig.itemList.map
      (fun item => if item.itemType = 25 then { item with itemValue := value } else item) }

/-! ## The updater -/

section Updater
variable {σ : Type} (client : ClientOps σ) (hash : Text → UInt64)

/-- `login`, whose result says only whether the client returned. -/
def login (updater : DeviceUpdater) (s : σ) : Option (Bool × DeviceUpdater × σ) := do
  match ← client.login updater.login_ updater.password_ s with
  | (.ok user, s) => pure (true, { updater with userInfo := some user }, s)
  | (.error _, s) => pure (false, updater, s)

def getDevices (updater : DeviceUpdater) (s : σ) : Option (Bool × DeviceUpdater × σ) := do
  match ← client.getDevices s with
  | (.ok list, s) => pure (true, { updater with devices := some list }, s)
  | (.error _, s) => pure (false, updater, s)

def updateCredentials (loginName password : Text) (updater : DeviceUpdater) (s : σ) :
    Option (DeviceUpdater × σ) := do
  if loginName ≠ updater.login_ ∨ password ≠ updater.password_ then do
    let updater := { updater with login_ := loginName, password_ := password }
    let (_, updater, s) ← login client updater s
    let (_, updater, s) ← getDevices client updater s
    pure (updater, s)
  else pure (updater, s)

/-- `update_device`; what `set_clock_config` returns is only logged. -/
def updateDevice (user : UserInfo) (deviceId : Int) (value : Text) (s : σ) :
    Option (Except Exception Unit × σ) := do
  match ← client.getClockConfig deviceId currentClockId user s with
  | (.error e, s) => pure (.error e, s)
  | (.ok clockConfig, s) =>
      match ← client.setClockConfig deviceId currentClockId user (setText value clockConfig) s with
      | (.error e, s) => pure (.error e, s)
      | (.ok _, s) => pure (.ok (), s)

/-- The loop of `update`, which an exception leaves. -/
def updateDevices (user : UserInfo) (value : Text) : List Device → σ → Option (Except Exception Unit × σ)
  | [], s => some (.ok (), s)
  | dev :: rest, s => do
      match ← updateDevice client user dev.id value s with
      | (.error e, s) => pure (.error e, s)
      | (.ok (), s) => updateDevices user value rest s

/-- `update`, where `fuel` bounds how deep it calls itself. -/
def update : (fuel : Nat) → (value : Text) → DeviceUpdater → σ → Except Stuck (DeviceUpdater × σ)
  | 0, _, _, _ => .error .unfinished
  | fuel + 1, value, updater, s =>
      if hash value = updater.previousTextHash then .ok (updater, s)
      else
        match updater.devices, updater.userInfo with
        | some devices, some user =>
            match updateDevices client user value devices s with
            | none => .error .crashed
            | some (.ok (), s) => .ok ({ updater with previousTextHash := hash value }, s)
            | some (.error .other, s) => .ok (updater, s)
            | some (.error _, s) =>
                -- `retry_with_login`, for a wrong password, a wrong user or an expired token
                match login client updater s with
                | none => .error .crashed
                | some (false, updater, s) => .ok (updater, s)
                | some (true, updater, s) =>
                    match getDevices client updater s with
                    | none => .error .crashed
                    | some (_, updater, s) => update fuel value updater s
        | _, _ => .ok (updater, s)

end Updater

/-! ## With the client of the cloud -/

section Cloud
variable {env : Env} {user : UserInfo} {value : Text} {sent : List Exchange}

theorem login_cloud {updater : DeviceUpdater} {r : Bool × DeviceUpdater × List Exchange}
    (returned : login env.client updater sent = some r) :
    ∃ user sent', env.login updater.login_ updater.password_ sent = some (user, sent') ∧
      r = (true, { updater with userInfo := some user }, sent') := by
  obtain ⟨called, loggedIn, same⟩ := Option.bind_eq_some_iff.mp returned
  obtain ⟨⟨user, sent'⟩, answered, rfl⟩ := Option.map_eq_some_iff.mp loggedIn
  exact ⟨user, sent', answered, (Option.some.inj same).symm⟩

theorem getDevices_cloud {updater : DeviceUpdater} {r : Bool × DeviceUpdater × List Exchange}
    (returned : getDevices env.client updater sent = some r) :
    ∃ list sent', env.getDevices sent = some (list, sent') ∧
      r = (true, { updater with devices := some list }, sent') := by
  obtain ⟨called, listed, same⟩ := Option.bind_eq_some_iff.mp returned
  obtain ⟨⟨list, sent'⟩, answered, rfl⟩ := Option.map_eq_some_iff.mp listed
  exact ⟨list, sent', answered, (Option.some.inj same).symm⟩

/-- New credentials take what the server answers to a login and to a request for the devices. -/
theorem updateCredentials_cloud {loginName password : Text} {updater : DeviceUpdater}
    {r : DeviceUpdater × List Exchange}
    (returned : updateCredentials env.client loginName password updater sent = some r) :
    ((loginName = updater.login_ ∧ password = updater.password_) ∧ r = (updater, sent)) ∨
      ((loginName ≠ updater.login_ ∨ password ≠ updater.password_) ∧
        ∃ user sent₁ list sent₂, env.login loginName password sent = some (user, sent₁) ∧
          env.getDevices sent₁ = some (list, sent₂) ∧
          r = ({ updater with
            login_ := loginName
            password_ := password
            userInfo := some user
            devices := some list }, sent₂)) := by
  rw [updateCredentials] at returned
  split_ifs at returned with needReauth
  · obtain ⟨_, loggedIn, rest⟩ := Option.bind_eq_some_iff.mp returned
    obtain ⟨user, sent₁, answered, rfl⟩ := login_cloud loggedIn
    obtain ⟨_, listed, same⟩ := Option.bind_eq_some_iff.mp rest
    obtain ⟨list, sent₂, got, rfl⟩ := getDevices_cloud listed
    exact .inr ⟨needReauth, user, sent₁, list, sent₂, answered, got, (Option.some.inj same).symm⟩
  · rw [not_or, not_not, not_not] at needReauth
    exact .inl ⟨needReauth, (Option.some.inj returned).symm⟩

def ForClock (deviceId : Int) : Request → Prop
  | .getConfig id _ _ => id = deviceId
  | .setConfig id _ _ _ => id = deviceId
  | _ => False

/-- The values that a request sets items of type 25 to. -/
def sentTexts : Request → List Text
  | .setConfig _ _ _ itemList => (itemList.filter (fun item => item.itemType = 25)).map Item.itemValue
  | _ => []

theorem sentTexts_setText (deviceId clockId : Int) (user : UserInfo) (value : Text) (config : ClockConfig) :
    ∀ t ∈ sentTexts (.setConfig deviceId clockId user (setText value config).itemList), t = value := by
  intro t member
  obtain ⟨item, inside, rfl⟩ := List.mem_map.mp member
  obtain ⟨changed, typed⟩ := List.mem_filter.mp inside
  obtain ⟨original, _, rfl⟩ := List.mem_map.mp changed
  split_ifs at typed ⊢ with textItem
  · rfl
  · simp [textItem] at typed

theorem mem_sentTexts_setText {deviceId clockId : Int} {user : UserInfo} {value : Text}
    {config : ClockConfig} {item : Item} (member : item ∈ config.itemList) (typed : item.itemType = 25) :
    value ∈ sentTexts (.setConfig deviceId clockId user (setText value config).itemList) := by
  refine List.mem_map.mpr ⟨{ item with itemValue := value }, List.mem_filter.mpr ⟨?_, by simpa using typed⟩, rfl⟩
  exact List.mem_map.mpr ⟨item, member, if_pos typed⟩

/-- The requests for one device: they are for its clock, and set no other text. -/
theorem updateDevice_sent (env : Env) (user : UserInfo) (deviceId : Int) (value : Text)
    (sent : List Exchange) :
    ∃ new, updateDevice env.client user deviceId value sent = some (.ok (), sent ++ new) ∧
      ∀ ex ∈ new, ForClock deviceId ex.request ∧ ∀ t ∈ sentTexts ex.request, t = value := by
  obtain ⟨⟨config, sent₁⟩, got⟩ := env.getClockConfig_returns deviceId currentClockId user sent
  obtain ⟨⟨ok, sent₂⟩, set⟩ :=
    env.setClockConfig_returns deviceId currentClockId user (setText value config) sent₁
  obtain ⟨asked, rfl, forGet⟩ := Env.getClockConfig_sent got
  obtain ⟨answered, rfl, forSet⟩ := Env.setClockConfig_sent set
  refine ⟨asked ++ answered, ?_, fun ex member => ?_⟩
  · simp [updateDevice, Env.client, got, set]
  · rcases List.mem_append.mp member with first | second
    · rw [forGet ex first]
      exact ⟨rfl, by simp [sentTexts]⟩
    · rw [forSet ex second]
      exact ⟨rfl, sentTexts_setText _ _ _ _ _⟩

theorem updateDevices_sent (env : Env) (user : UserInfo) (value : Text) (devices : List Device)
    (sent : List Exchange) :
    ∃ new, updateDevices env.client user value devices sent = some (.ok (), sent ++ new) ∧
      ∀ ex ∈ new, (∃ deviceId, ForClock deviceId ex.request) ∧ ∀ t ∈ sentTexts ex.request, t = value := by
  induction devices generalizing sent with
  | nil => exact ⟨[], by simp [updateDevices], by simp⟩
  | cons dev rest ih =>
    obtain ⟨first, here, forDevice⟩ := updateDevice_sent env user dev.id value sent
    obtain ⟨later, onward, forRest⟩ := ih (sent ++ first)
    refine ⟨first ++ later, ?_, fun ex member => ?_⟩
    · simp [updateDevices, here, onward]
    · rcases List.mem_append.mp member with inFirst | inLater
      · exact ⟨⟨_, (forDevice ex inFirst).1⟩, (forDevice ex inFirst).2⟩
      · exact forRest ex inLater

/-- An update returns without calling itself: the hash of the text is stored where the loop
ran, and only requests for the clock of a device are sent. -/
theorem update_sent (env : Env) (hash : Text → UInt64) (fuel : Nat) (value : Text)
    (updater : DeviceUpdater) (sent : List Exchange) :
    ∃ new, update env.client hash (fuel + 1) value updater sent =
        .ok (if updater.devices.isSome ∧ updater.userInfo.isSome
          then { updater with previousTextHash := hash value } else updater, sent ++ new) ∧
      ∀ ex ∈ new, ∃ deviceId, ForClock deviceId ex.request := by
  rw [update]
  by_cases same : hash value = updater.previousTextHash
  · refine ⟨[], ?_, by simp⟩
    rw [if_pos same]
    simp [same]
  rw [if_neg same]
  cases devices : updater.devices with
  | none => exact ⟨[], by simp, by simp⟩
  | some list =>
    cases userInfo : updater.userInfo with
    | none => exact ⟨[], by simp, by simp⟩
    | some user =>
      obtain ⟨new, looped, forClock⟩ := updateDevices_sent env user value list sent
      exact ⟨new, by simp [looped], fun ex member => (forClock ex member).1⟩

end Cloud

end DivoomDev.Service.Updater
