import DivoomDev.Library.Run
import DivoomDev.Service.Updater

/-! What the stored hash says about the devices: runs of an updater with the client of the
cloud, under a server that answers as it likes. -/

namespace DivoomDev.Service.Delivery
open DivoomDev.Library.Bytes DivoomDev.Library.JsonValues DivoomDev.Library.Run
  DivoomDev.Divoom.Models DivoomDev.Divoom.Client Updater

/-! ## Runs -/

inductive Call where
  | updateCredentials (login password : Text)
  | update (value : Text)
  deriving DecidableEq, Repr

/-- An updater and all that its client has sent. The ids of the devices that were in the list
when the hash was stored last are recorded, too. -/
structure Process where
  updater : DeviceUpdater := {}
  sent : List Exchange := []
  served : List Int := []
  deriving DecidableEq, Repr

/-- The devices for which the loop of an update runs to its end and stores the hash. -/
def looped (hash : Text → UInt64) (updater : DeviceUpdater) (value : Text) : Option (UserInfo × List Device) :=
  if hash value = updater.previousTextHash then none
  else do
    let devices ← updater.devices
    let user ← updater.userInfo
    pure (user, devices)

/-- One call; the run ends where the process crashes. The client throws nothing, so an update
does not call itself. -/
def step (env : Env) (hash : Text → UInt64) (p : Process) : Call → Option Process
  | .updateCredentials login password =>
      (updateCredentials env.client login password p.updater p.sent).map
        (fun r => { p with updater := r.1, sent := r.2 })
  | .update value =>
      match update env.client hash 1 value p.updater p.sent with
      | .error _ => none
      | .ok (updater, sent) =>
          some {
            updater, sent
            served :=
              match looped hash p.updater value with
              | some (_, devices) => devices.map Device.id
              | none => p.served }

/-! ## What a device shows -/

/-- The device acknowledged a request for its clock. -/
def Acknowledges (lib : JsonLib) (deviceId : Int) (ex : Exchange) : Prop :=
  (∃ clockId user itemList, ex.request = .setConfig deviceId clockId user itemList) ∧
    receive (Divoom.Handlers.setConfig lib) ex.reply = some (some ())

/-- The device has acknowledged a request with the text, and none with another text later. -/
def Shows (lib : JsonLib) (sent : List Exchange) (deviceId : Int) (value : Text) : Prop :=
  ∃ before ex after, sent = before ++ ex :: after ∧ Acknowledges lib deviceId ex ∧
    value ∈ sentTexts ex.request ∧
    ∀ later ∈ after, Acknowledges lib deviceId later → ∀ t ∈ sentTexts later.request, t = value

/-- Where an update returns early by the hash, every device shows the text. -/
def EarlyReturnShown (env : Env) (hash : Text → UInt64) (p : Process) : Call → Prop
  | .updateCredentials _ _ => True
  | .update value => hash value = p.updater.previousTextHash →
      ∀ devices, p.updater.devices = some devices → ∀ dev ∈ devices, Shows env.lib p.sent dev.id value

/-- For each device in turn the server answers GetClockConfig with an item of type 25 and
acknowledges SetClockConfig. -/
def DeliversAll (env : Env) (user : UserInfo) (value : Text) : List Device → List Exchange → Prop
  | [], _ => True
  | dev :: rest, sent =>
      ∃ config sent₁ sent₂, env.getClockConfig dev.id currentClockId user sent = some (config, sent₁) ∧
        (∃ item ∈ config.itemList, item.itemType = 25) ∧
        env.setClockConfig dev.id currentClockId user (setText value config) sent₁ = some (true, sent₂) ∧
        DeliversAll env user value rest sent₂

/-- An update that runs its loop reaches all devices; and a device list that is read while a
hash is stored has only devices that were in the list when the hash was stored. -/
def Delivers (env : Env) (hash : Text → UInt64) (p : Process) : Call → Prop
  | .updateCredentials login password =>
      (login ≠ p.updater.login_ ∨ password ≠ p.updater.password_) → p.updater.previousTextHash ≠ 0 →
        ∀ user sent list sent', env.login login password p.sent = some (user, sent) →
          env.getDevices sent = some (list, sent') → ∀ dev ∈ list, dev.id ∈ p.served
  | .update value => ∀ user devices, looped hash p.updater value = some (user, devices) →
      DeliversAll env user value devices p.sent

section
variable {env : Env} {hash : Text → UInt64} {lib : JsonLib} {sent new : List Exchange} {value : Text}

theorem Shows.append {deviceId : Int} (shows_ : Shows lib sent deviceId value)
    (same : ∀ ex ∈ new, ∀ t ∈ sentTexts ex.request, t = value) :
    Shows lib (sent ++ new) deviceId value := by
  obtain ⟨before, ex, after, rfl, acknowledges, carries, none⟩ := shows_
  refine ⟨before, ex, after ++ new, by simp, acknowledges, carries, fun later member acknowledged => ?_⟩
  rcases List.mem_append.mp member with inAfter | inNew
  · exact none later inAfter acknowledged
  · exact same later inNew

theorem shows_of_mem {deviceId : Int} {ex : Exchange} (member : ex ∈ new)
    (acknowledges : Acknowledges lib deviceId ex) (carries : value ∈ sentTexts ex.request)
    (same : ∀ ex ∈ new, ∀ t ∈ sentTexts ex.request, t = value) :
    Shows lib (sent ++ new) deviceId value := by
  obtain ⟨before, after, rfl⟩ := List.append_of_mem member
  exact ⟨sent ++ before, ex, after, by simp, acknowledges, carries,
    fun later inAfter _ => same later (by simp [inAfter])⟩

/-! ## Steps -/

theorem deliversAll_shows {user : UserInfo} {devices : List Device}
    (delivers : DeliversAll env user value devices sent) :
    ∃ new, updateDevices env.client user value devices sent = some (.ok (), sent ++ new) ∧
      (∀ ex ∈ new, ∀ t ∈ sentTexts ex.request, t = value) ∧
      ∀ dev ∈ devices, Shows env.lib (sent ++ new) dev.id value := by
  induction devices generalizing sent with
  | nil => exact ⟨[], by simp [updateDevices], by simp, by simp⟩
  | cons dev rest ih =>
    obtain ⟨config, sent₁, sent₂, got, ⟨item, inside, typed⟩, set, later⟩ := delivers
    obtain ⟨first, here, forDevice⟩ := updateDevice_sent env user dev.id value sent
    have whole : sent₂ = sent ++ first := by
      simpa [updateDevice, Env.client, got, set] using here
    obtain ⟨reply, last, acknowledged⟩ := Env.setClockConfig_true set
    obtain ⟨asked, rfl, _⟩ := Env.getClockConfig_sent got
    have sentLast : ⟨.setConfig dev.id currentClockId user (setText value config).itemList, reply⟩ ∈ first := by
      rw [last, List.append_assoc, List.append_cancel_left_eq] at whole
      simp [← whole]
    have carries : value ∈ sentTexts
        (.setConfig dev.id currentClockId user (setText value config).itemList) :=
      mem_sentTexts_setText inside typed
    obtain ⟨rest', onward, sameRest, showsRest⟩ := ih later
    rw [whole] at onward showsRest
    have same : ∀ ex ∈ first ++ rest', ∀ t ∈ sentTexts ex.request, t = value := fun ex member =>
      (List.mem_append.mp member).elim (fun inFirst => (forDevice ex inFirst).2) (sameRest ex)
    refine ⟨first ++ rest', by simp [updateDevices, here, onward], same, fun other member => ?_⟩
    rcases List.mem_cons.mp member with rfl | inRest
    · exact shows_of_mem (List.mem_append_left _ sentLast) ⟨⟨_, _, _, rfl⟩, acknowledged⟩ carries same
    · rw [← List.append_assoc]
      exact showsRest other inRest

theorem step_update {p p' : Process} (stepped : step env hash p (.update value) = some p') :
    (looped hash p.updater value = none ∧ p' = p) ∨
      ∃ user devices new, looped hash p.updater value = some (user, devices) ∧
        updateDevices env.client user value devices p.sent = some (.ok (), p.sent ++ new) ∧
        p.updater.devices = some devices ∧
        p' = ⟨{ p.updater with previousTextHash := hash value }, p.sent ++ new, devices.map Device.id⟩ := by
  simp only [step, update, looped] at stepped ⊢
  by_cases same : hash value = p.updater.previousTextHash
  · simp only [same, if_true] at stepped ⊢
    cases stepped
    exact .inl ⟨trivial, rfl⟩
  simp only [same, if_false] at stepped ⊢
  cases devices : p.updater.devices with
  | none =>
    simp only [devices] at stepped
    cases stepped
    exact .inl ⟨rfl, rfl⟩
  | some list =>
    cases userInfo : p.updater.userInfo with
    | none =>
      simp only [devices, userInfo] at stepped
      cases stepped
      exact .inl ⟨rfl, rfl⟩
    | some user =>
      obtain ⟨new, reached, _⟩ := updateDevices_sent env user value list p.sent
      simp only [devices, userInfo, reached] at stepped
      cases stepped
      exact .inr ⟨user, list, new, rfl, reached, rfl, by simp⟩

theorem step_updateCredentials {p p' : Process} {login password : Text}
    (stepped : step env hash p (.updateCredentials login password) = some p') :
    p'.served = p.served ∧ p'.updater.previousTextHash = p.updater.previousTextHash ∧
      (∃ new, p'.sent = p.sent ++ new ∧ ∀ ex ∈ new, sentTexts ex.request = []) ∧
      (p'.updater.devices = p.updater.devices ∨
        ((login ≠ p.updater.login_ ∨ password ≠ p.updater.password_) ∧
          ∃ user sent list, env.login login password p.sent = some (user, sent) ∧
            env.getDevices sent = some (list, p'.sent) ∧ p'.updater.devices = some list)) := by
  obtain ⟨r, returned, rfl⟩ := Option.map_eq_some_iff.mp stepped
  rcases updateCredentials_cloud returned with ⟨_, rfl⟩ | ⟨needReauth, user, sent₁, list, sent₂, called, got, rfl⟩
  · exact ⟨rfl, rfl, ⟨[], by simp, by simp⟩, .inl rfl⟩
  · obtain ⟨first, rfl, forLogin⟩ := Env.login_sent called
    obtain ⟨second, rfl, forDevices⟩ := Env.getDevices_sent got
    refine ⟨rfl, rfl, ⟨first ++ second, by simp, fun ex member => ?_⟩,
      .inr ⟨needReauth, user, _, list, called, got, rfl⟩⟩
    rcases List.mem_append.mp member with inFirst | inSecond
    · rw [forLogin ex inFirst]
      rfl
    · rw [forDevices ex inSecond]
      rfl

/-! ## Runs that deliver -/

/-- A stored hash is that of a text which every device of the recorded list shows, and the
devices in the list are among them. -/
structure Delivered (lib : JsonLib) (hash : Text → UInt64) (texts : Set Text) (p : Process) : Prop where
  shown : p.updater.previousTextHash ≠ 0 →
    ∃ t ∈ texts, hash t = p.updater.previousTextHash ∧ ∀ deviceId ∈ p.served, Shows lib p.sent deviceId t
  listed : p.updater.previousTextHash ≠ 0 →
    ∀ devices, p.updater.devices = some devices → ∀ dev ∈ devices, dev.id ∈ p.served

theorem step_delivered {texts : Set Text} (p : Process) (call : Call) (p' : Process)
    (delivered : Delivered env.lib hash texts p) (inTexts : ∀ value, call = .update value → value ∈ texts)
    (delivers : Delivers env hash p call) (stepped : step env hash p call = some p') :
    Delivered env.lib hash texts p' := by
  cases call with
  | update value =>
    rcases step_update stepped with ⟨_, rfl⟩ | ⟨user, devices, new, loops, reached, inList, rfl⟩
    · exact delivered
    · obtain ⟨new', reached', same, shows_⟩ := deliversAll_shows (delivers user devices loops)
      obtain rfl : new = new' := by simpa [reached] using reached'
      refine ⟨fun _ => ⟨value, inTexts value rfl, rfl, fun deviceId member => ?_⟩,
        fun _ list listed dev member => ?_⟩
      · obtain ⟨dev, inside, rfl⟩ := List.mem_map.mp member
        exact shows_ dev inside
      · obtain rfl : devices = list := Option.some.inj (inList.symm.trans listed)
        exact List.mem_map_of_mem member
  | updateCredentials login password =>
    obtain ⟨served, stored, ⟨new, sent, noText⟩, listing⟩ := step_updateCredentials stepped
    refine ⟨fun nonzero => ?_, fun nonzero list listed dev member => ?_⟩
    · rw [stored] at nonzero ⊢
      obtain ⟨t, inside, hashed, shows_⟩ := delivered.shown nonzero
      refine ⟨t, inside, hashed, fun deviceId member => ?_⟩
      rw [served] at member
      rw [sent]
      exact (shows_ deviceId member).append (fun ex inNew t inTexts => by simp [noText ex inNew] at inTexts)
    · rw [stored] at nonzero
      rw [served]
      rcases listing with kept | ⟨needReauth, user, sent, list', called, got, replaced⟩
      · exact delivered.listed nonzero list (kept ▸ listed) dev member
      · obtain rfl : list' = list := Option.some.inj (replaced.symm.trans listed)
        exact delivers needReauth nonzero user sent list' _ called got dev member

/-- Where the updates of a run reach all devices and the lists it reads later bring no other
ones, a device that an update skips by the hash shows the text. -/
theorem early_returns_shown {login password : Text} {calls : List Call}
    (noCollision : Set.InjOn hash {value | Call.update value ∈ calls})
    (nonzero : ∀ value, Call.update value ∈ calls → hash value ≠ 0)
    (delivers : Along (Delivers env hash) (step env hash)
      { updater := { login_ := login, password_ := password } } calls) :
    Along (EarlyReturnShown env hash) (step env hash)
      { updater := { login_ := login, password_ := password } } calls := by
  refine along_imp (I := Delivered env.lib hash {value | Call.update value ∈ calls})
    (fun p call p' delivered condition stepped => step_delivered p call p' delivered
      (fun value same => show Call.update value ∈ calls from same ▸ condition.1) condition.2 stepped)
    (fun p call delivered condition => ?_)
    ⟨fun none => absurd rfl none, fun none => absurd rfl none⟩ (along_mem (fun _ member => member) delivers)
  cases call with
  | updateCredentials _ _ => trivial
  | update value =>
    intro same devices listed dev member
    have stored : p.updater.previousTextHash ≠ 0 := same ▸ nonzero value condition.1
    obtain ⟨t, inside, hashed, shows_⟩ := delivered.shown stored
    obtain rfl : t = value := noCollision inside condition.1 (hashed.trans same.symm)
    exact shows_ dev.id (delivered.listed stored devices listed dev member)

end

/-! ## Runs on a sample -/

def loggedIn (env : Env) : Process where
  updater := {
    login_ := text "u"
    password_ := text "p"
    userInfo := some ⟨7, 5⟩
    devices := some [⟨[], 1, [], [], 0⟩] }
  sent :=
    [⟨.login (text "u") (text "p"), env.server [] (.login (text "u") (text "p"))⟩,
      ⟨.devices, env.server [] .devices⟩]

def afterUpdate (env : Env) : Process where
  updater := { (loggedIn env).updater with previousTextHash := 1 }
  sent := (loggedIn env).sent ++
    [⟨.getConfig 1 598 ⟨7, 5⟩, env.server [] (.getConfig 1 598 ⟨7, 5⟩)⟩,
      ⟨.setConfig 1 598 ⟨7, 5⟩ [textItem (text "a")],
        env.server [] (.setConfig 1 598 ⟨7, 5⟩ [textItem (text "a")])⟩]
  served := [1]

def takingEnv : Env := sampleEnv clockAnswer (answerCode 0)
def refusingEnv : Env := sampleEnv clockAnswer (answerCode 1)

def sampleCalls : List Call :=
  [.updateCredentials (text "u") (text "p"), .update (text "a"), .update (text "a")]

theorem sample_texts {value : Text} (member : Call.update value ∈ sampleCalls) : value = text "a" := by
  simpa [sampleCalls] using member

theorem early_returns_shown_taken : Along (EarlyReturnShown takingEnv (fun _ => 1))
    (step takingEnv (fun _ => 1)) {} sampleCalls := by
  refine early_returns_shown (fun a inA b inB _ => ?_) (fun _ _ => by decide)
    ⟨fun _ stored => absurd rfl stored, fun p first => ?_⟩
  · rw [sample_texts inA, sample_texts inB]
  · obtain rfl : p = loggedIn takingEnv := Option.some.inj (first.symm.trans (by decide +kernel))
    refine ⟨fun user devices loops => ?_, fun p second => ?_⟩
    · obtain ⟨rfl, rfl⟩ : (⟨7, 5⟩ : UserInfo) = user ∧ [⟨[], 1, [], [], 0⟩] = devices := by
        simpa [looped, loggedIn] using loops
      exact ⟨{
          albumShapePicId := some []
          clockExPlain := some []
          itemList := [{ invisible := 0, itemType := 25 }] },
        (afterUpdate takingEnv).sent.take 3, (afterUpdate takingEnv).sent, by decide +kernel,
        by decide +kernel, by decide +kernel, trivial⟩
    · obtain rfl : p = afterUpdate takingEnv := Option.some.inj (second.symm.trans (by decide +kernel))
      exact ⟨fun user devices loops => by simp [looped, afterUpdate] at loops, fun _ _ => trivial⟩

/-- The device refuses the text; the hash is stored, and the next update skips the device. -/
theorem update_forgets_refusal :
    ¬∀ (env : Env) (hash : Text → UInt64) (login password : Text) (calls : List Call),
      Set.InjOn hash {value | Call.update value ∈ calls} →
      (∀ value, Call.update value ∈ calls → hash value ≠ 0) →
      Along (EarlyReturnShown env hash) (step env hash)
        { updater := { login_ := login, password_ := password } } calls := by
  intro always
  have along := always refusingEnv (fun _ => 1) [] [] sampleCalls
    (fun a inA b inB _ => by rw [sample_texts inA, sample_texts inB]) (fun _ _ => by decide)
  have shown := ((along.2 (loggedIn refusingEnv) (by decide +kernel)).2 (afterUpdate refusingEnv)
    (by decide +kernel)).1
  obtain ⟨before, ex, after, sent, ⟨⟨clockId, user, itemList, request⟩, acknowledged⟩, _⟩ :=
    shown rfl _ rfl _ List.mem_cons_self
  have member : ex ∈ (afterUpdate refusingEnv).sent := by simp [sent]
  simp only [afterUpdate, loggedIn, List.cons_append, List.nil_append, List.mem_cons, List.not_mem_nil,
    or_false] at member
  rcases member with rfl | rfl | rfl | rfl
  · cases request
  · cases request
  · cases request
  · exact absurd acknowledged (by decide +kernel)

end DivoomDev.Service.Delivery
