import DivoomDev.Service.TokenErrors

/-! How often one update logs in. It calls itself after each login, and nothing counts how
often it has done so; but with a client of the cloud it comes to no login. -/

namespace DivoomDev.Service.Retries
open DivoomDev.Library.Bytes DivoomDev.Divoom.Models DivoomDev.Divoom.Client Updater

/-! ## Counting the logins -/

section Counting
variable {σ : Type} (client : ClientOps σ) (hash : Text → UInt64) (value : Text)

/-- The client, which counts the logins beside its own state. -/
def counted : ClientOps (σ × Nat) where
  login email password s := (client.login email password s.1).map (fun r => (r.1, r.2, s.2 + 1))
  getDevices s := (client.getDevices s.1).map (fun r => (r.1, r.2, s.2))
  getClockConfig deviceId clockId user s :=
    (client.getClockConfig deviceId clockId user s.1).map (fun r => (r.1, r.2, s.2))
  setClockConfig deviceId clockId user clockConfig s :=
    (client.setClockConfig deviceId clockId user clockConfig s.1).map (fun r => (r.1, r.2, s.2))

/-- Each call returns or throws. -/
structure Returning : Prop where
  login : ∀ email password s, (client.login email password s).isSome
  getDevices : ∀ s, (client.getDevices s).isSome
  getClockConfig : ∀ deviceId clockId user s, (client.getClockConfig deviceId clockId user s).isSome
  setClockConfig : ∀ deviceId clockId user clockConfig s,
    (client.setClockConfig deviceId clockId user clockConfig s).isSome

/-- The update returns, and at most so many logins were tried. -/
def LogsInAtMost (bound : Nat) (updater : DeviceUpdater) (s : σ) : Prop :=
  ∃ fuel updater' s' logins,
    update (counted client) hash fuel value updater (s, 0) = .ok (updater', s', logins) ∧ logins ≤ bound

theorem login_counted (updater : DeviceUpdater) (s : σ) (n : Nat) :
    login (counted client) updater (s, n) =
      (login client updater s).map (fun r => (r.1, r.2.1, r.2.2, n + 1)) := by
  simp only [login, counted]
  cases client.login updater.login_ updater.password_ s with
  | none => rfl
  | some r => rcases r with ⟨_ | _, _⟩ <;> rfl

theorem getDevices_counted (updater : DeviceUpdater) (s : σ) (n : Nat) :
    getDevices (counted client) updater (s, n) =
      (getDevices client updater s).map (fun r => (r.1, r.2.1, r.2.2, n)) := by
  simp only [getDevices, counted]
  cases client.getDevices s with
  | none => rfl
  | some r => rcases r with ⟨_ | _, _⟩ <;> rfl

theorem updateDevice_counted (user : UserInfo) (deviceId : Int) (s : σ) (n : Nat) :
    updateDevice (counted client) user deviceId value (s, n) =
      (updateDevice client user deviceId value s).map (fun r => (r.1, r.2, n)) := by
  simp only [updateDevice, counted]
  cases client.getClockConfig deviceId currentClockId user s with
  | none => rfl
  | some read =>
    rcases read with ⟨_ | clockConfig, s₁⟩
    · rfl
    · simp only [Option.map_some, Option.bind_eq_bind, Option.bind_some]
      cases client.setClockConfig deviceId currentClockId user (setText value clockConfig) s₁ with
      | none => rfl
      | some written => rcases written with ⟨_ | _, _⟩ <;> rfl

/-- The requests for the devices do not log in. -/
theorem updateDevices_counted (user : UserInfo) (devices : List Device) (s : σ) (n : Nat) :
    updateDevices (counted client) user value devices (s, n) =
      (updateDevices client user value devices s).map (fun r => (r.1, r.2, n)) := by
  induction devices generalizing s with
  | nil => rfl
  | cons dev rest ih =>
    rw [updateDevices, updateDevices, updateDevice_counted]
    cases updateDevice client user dev.id value s with
    | none => rfl
    | some r =>
      rcases r with ⟨_ | _, s₁⟩
      · rfl
      · exact ih s₁

/-- Counting changes nothing else. -/
theorem update_counted (fuel : Nat) (updater : DeviceUpdater) (s : σ) (n : Nat) :
    (update (counted client) hash fuel value updater (s, n)).map (fun r => (r.1, r.2.1)) =
      update client hash fuel value updater s := by
  induction fuel generalizing updater s n with
  | zero => rfl
  | succ fuel ih =>
    rw [update, update]
    split_ifs with unchanged
    · rfl
    cases updater.devices with
    | none => rfl
    | some devices =>
      cases updater.userInfo with
      | none => rfl
      | some user =>
        simp only [updateDevices_counted]
        rcases updateDevices client user value devices s with _ | ⟨e | _, s₁⟩
        · rfl
        · -- the three exceptions that lead to a login, and the one that does not
          cases e <;> first
            | rfl
            | simp only [Option.map_some, login_counted]
              rcases login client updater s₁ with _ | ⟨_ | _, updater₁, s₂⟩
              · rfl
              · rfl
              · simp only [Option.map_some, getDevices_counted]
                cases getDevices client updater₁ s₂ with
                | none => rfl
                | some r => exact ih r.2.1 r.2.2 (n + 1)
        · rfl

/-! ## What the client answers after each login -/

/-- Where the requests for the devices end with an exception for which `update` logs in. -/
def rejected (updater : DeviceUpdater) (s : σ) : Option σ :=
  if hash value = updater.previousTextHash then none
  else
    match updater.devices, updater.userInfo with
    | some devices, some user =>
        match updateDevices client user value devices s with
        | some (.error e, s) => if e = .other then none else some s
        | _ => none
    | _, _ => none

/-- Where the updater and the client stand when the devices are tried once more. -/
def retried (updater : DeviceUpdater) (s : σ) : Option (DeviceUpdater × σ) := do
  let s ← rejected client hash value updater s
  match ← login client updater s with
  | (false, _, _) => none
  | (true, updater, s) => do
      let (_, updater, s) ← getDevices client updater s
      pure (updater, s)

def afterRetries : Nat → DeviceUpdater × σ → Option (DeviceUpdater × σ)
  | 0, p => some p
  | n + 1, p => (retried client hash value p.1 p.2).bind (afterRetries n)

end Counting

/-! ## One round of the update -/

section Rounds
variable {σ : Type} {client : ClientOps σ} {hash : Text → UInt64} {value : Text}

theorem updateDevice_isSome (returning : Returning client) (value : Text) (user : UserInfo) (deviceId : Int)
    (s : σ) :
    (updateDevice client user deviceId value s).isSome := by
  obtain ⟨⟨read, s₁⟩, answered⟩ :=
    Option.isSome_iff_exists.mp (returning.getClockConfig deviceId currentClockId user s)
  rw [updateDevice, answered]
  cases read with
  | error e => rfl
  | ok clockConfig =>
    obtain ⟨⟨written, s₂⟩, replied⟩ := Option.isSome_iff_exists.mp
      (returning.setClockConfig deviceId currentClockId user (setText value clockConfig) s₁)
    simp only [Option.bind_eq_bind, Option.bind_some, replied]
    cases written <;> rfl

theorem updateDevices_isSome (returning : Returning client) (value : Text) (user : UserInfo)
    (devices : List Device) (s : σ) :
    (updateDevices client user value devices s).isSome := by
  induction devices generalizing s with
  | nil => rfl
  | cons dev rest ih =>
    obtain ⟨⟨outcome, s₁⟩, updated⟩ :=
      Option.isSome_iff_exists.mp (updateDevice_isSome returning value user dev.id s)
    rw [updateDevices, updated]
    cases outcome with
    | error e => rfl
    | ok => exact ih s₁

/-- Where no request is rejected, the update is over without a login. -/
theorem update_accepted {updater : DeviceUpdater} {s : σ}
    (returns : ∀ user devices, (updateDevices client user value devices s).isSome)
    (accepted : rejected client hash value updater s = none) (fuel n : Nat) :
    ∃ updater' s', update (counted client) hash (fuel + 1) value updater (s, n) = .ok (updater', s', n) := by
  rw [update]
  rw [rejected] at accepted
  split_ifs at accepted ⊢ with unchanged
  · exact ⟨_, _, rfl⟩
  · cases devices : updater.devices with
    | none => exact ⟨_, _, rfl⟩
    | some list =>
      cases userInfo : updater.userInfo with
      | none => exact ⟨_, _, rfl⟩
      | some user =>
        obtain ⟨⟨outcome, s₁⟩, looped⟩ :=
          Option.isSome_iff_exists.mp (returns user list)
        rw [devices, userInfo] at accepted
        simp only [looped] at accepted
        simp only [updateDevices_counted, looped, Option.map_some]
        rcases outcome with e | _
        · cases e <;> first | exact ⟨_, _, rfl⟩ | simp at accepted
        · exact ⟨_, _, rfl⟩

/-- Where a request is rejected, the rest of the update is the login and what follows it. -/
theorem update_rejected {updater : DeviceUpdater} {s s₁ : σ}
    (refused : rejected client hash value updater s = some s₁) (fuel n : Nat) :
    update (counted client) hash (fuel + 1) value updater (s, n) =
      match login (counted client) updater (s₁, n) with
      | none => .error .crashed
      | some (false, updater, s) => .ok (updater, s)
      | some (true, updater, s) =>
          match getDevices (counted client) updater s with
          | none => .error .crashed
          | some (_, updater, s) => update (counted client) hash fuel value updater s := by
  rw [rejected] at refused
  split_ifs at refused with unchanged
  rw [update, if_neg unchanged]
  cases devices : updater.devices with
  | none => simp [devices] at refused
  | some list =>
    cases userInfo : updater.userInfo with
    | none => simp [devices, userInfo] at refused
    | some user =>
      rw [devices, userInfo] at refused
      simp only at refused
      split at refused
      · next e s₂ looped =>
        split_ifs at refused with other
        obtain rfl := Option.some.inj refused
        simp only [updateDevices_counted, looped, Option.map_some]
        rcases login (counted client) updater (s₂, n) with _ | ⟨_ | _, updater₁, s₃⟩
        · rfl
        · rfl
        · simp only
          cases getDevices (counted client) updater₁ s₃ <;> rfl
      · exact absurd refused (by simp)

/-- An update is over in this round, or the login fails, or there is another round. -/
theorem round_cases (hash : Text → UInt64) (value : Text) (returning : Returning client) (updater : DeviceUpdater)
    (s : σ) :
    rejected client hash value updater s = none ∨
      (retried client hash value updater s = none ∧ ∀ fuel n, ∃ updater' s',
        update (counted client) hash (fuel + 1) value updater (s, n) = .ok (updater', s', n + 1)) ∨
      ∃ updater' s', retried client hash value updater s = some (updater', s') ∧
        ∀ fuel n, update (counted client) hash (fuel + 1) value updater (s, n) =
          update (counted client) hash fuel value updater' (s', n + 1) := by
  cases refused : rejected client hash value updater s with
  | none => exact .inl rfl
  | some s₁ =>
    obtain ⟨⟨answer, s₂⟩, answered⟩ :=
      Option.isSome_iff_exists.mp (returning.login updater.login_ updater.password_ s₁)
    cases answer with
    | error e =>
      have failed : login client updater s₁ = some (false, updater, s₂) := by simp [login, answered]
      refine .inr (.inl ⟨by simp [retried, refused, failed], fun fuel n => ⟨updater, s₂, ?_⟩⟩)
      rw [update_rejected refused, login_counted, failed]
      rfl
    | ok user =>
      have loggedIn : login client updater s₁ = some (true, { updater with userInfo := some user }, s₂) := by
        simp [login, answered]
      obtain ⟨⟨found, updater', s'⟩, listed⟩ : ∃ r,
          getDevices client { updater with userInfo := some user } s₂ = some r := by
        obtain ⟨⟨list, s₃⟩, got⟩ := Option.isSome_iff_exists.mp (returning.getDevices s₂)
        cases list <;> exact ⟨_, by rw [getDevices, got]; rfl⟩
      refine .inr (.inr ⟨updater', s', by simp [retried, refused, loggedIn, listed], fun fuel n => ?_⟩)
      rw [update_rejected refused, login_counted, loggedIn]
      simp only [Option.map_some, getDevices_counted, listed]

/-! ## The bound -/

/-- The count of the logins never falls. -/
theorem update_logins (returning : Returning client) {fuel : Nat} {updater updater' : DeviceUpdater}
    {s s' : σ} {n logins : Nat}
    (returned : update (counted client) hash fuel value updater (s, n) = .ok (updater', s', logins)) :
    n ≤ logins := by
  induction fuel generalizing updater s n with
  | zero => cases returned
  | succ fuel ih =>
    rcases round_cases hash value returning updater s with accepted | ⟨_, failed⟩ | ⟨updater₁, s₁, _, again⟩
    · obtain ⟨_, _, ended⟩ := update_accepted (updateDevices_isSome returning value · · s) accepted fuel n
      rw [ended] at returned
      cases returned
      exact Nat.le_refl _
    · obtain ⟨_, _, ended⟩ := failed fuel n
      rw [ended] at returned
      cases returned
      exact Nat.le_succ _
    · rw [again] at returned
      exact Nat.le_of_succ_le (ih returned)

/-- The bound, counted from any number of logins on. -/
theorem bounded_iff (hash : Text → UInt64) (value : Text) (returning : Returning client) (bound : Nat)
    (updater : DeviceUpdater) (s : σ) (n : Nat) :
    (∃ fuel updater' s' logins,
      update (counted client) hash fuel value updater (s, n) = .ok (updater', s', logins) ∧
        logins ≤ n + bound) ↔
    ∀ p, afterRetries client hash value bound (updater, s) = some p →
      rejected client hash value p.1 p.2 = none := by
  induction bound generalizing updater s n with
  | zero =>
    simp only [afterRetries, Option.some.injEq, forall_eq']
    constructor
    · rintro ⟨fuel, updater', s', logins, returned, few⟩
      cases fuel with
      | zero => cases returned
      | succ fuel =>
        rcases round_cases hash value returning updater s with accepted | ⟨_, failed⟩ | ⟨updater₁, s₁, _, again⟩
        · exact accepted
        · obtain ⟨_, _, ended⟩ := failed fuel n
          rw [ended] at returned
          cases returned
          omega
        · rw [again] at returned
          have more := update_logins returning returned
          omega
    · intro accepted
      obtain ⟨updater', s', ended⟩ := update_accepted (updateDevices_isSome returning value · · s) accepted 0 n
      exact ⟨1, updater', s', n, ended, Nat.le_refl n⟩
  | succ bound ih =>
    rcases round_cases hash value returning updater s with accepted | ⟨stopped, failed⟩ | ⟨updater₁, s₁, onward, again⟩
    · obtain ⟨updater', s', ended⟩ := update_accepted (updateDevices_isSome returning value · · s) accepted 0 n
      refine iff_of_true ⟨1, updater', s', n, ended, Nat.le_add_right n _⟩ (fun p later => ?_)
      simp [afterRetries, retried, accepted] at later
    · obtain ⟨updater', s', ended⟩ := failed 0 n
      refine iff_of_true ⟨1, updater', s', n + 1, ended, by omega⟩ (fun p later => ?_)
      simp [afterRetries, stopped] at later
    · have rest := ih updater₁ s₁ (n + 1)
      simp only [afterRetries, onward, Option.bind_some]
      rw [← rest]
      constructor
      · rintro ⟨fuel, updater', s', logins, returned, few⟩
        cases fuel with
        | zero => cases returned
        | succ fuel => exact ⟨fuel, updater', s', logins, (again fuel n).symm.trans returned, by omega⟩
      · rintro ⟨fuel, updater', s', logins, returned, few⟩
        exact ⟨fuel + 1, updater', s', logins, (again fuel n).trans returned, by omega⟩

/-- One update tries at most so many logins exactly where the requests after the last of them,
if it comes so far, are not rejected again. -/
theorem logsInAtMost_iff (returning : Returning client) (bound : Nat) (updater : DeviceUpdater) (s : σ) :
    LogsInAtMost client hash value bound updater s ↔
      ∀ p, afterRetries client hash value bound (updater, s) = some p →
        rejected client hash value p.1 p.2 = none := by
  have counts := bounded_iff hash value returning bound updater s 0
  rwa [Nat.zero_add] at counts

end Rounds

/-! ## Clients of the cloud, and one that throws -/

/-- A client of the cloud, whose logins and device lists may come from anywhere: they may return or
throw whatever they like, in any order. Its requests for a clock are those of `divoom::client`, which
nothing overrides. -/
def cloudClient {σ : Type} (env : Env) (loginWith : Text → Text → σ × List Exchange →
      Option (Except Exception UserInfo × σ × List Exchange))
    (devicesFrom : σ × List Exchange → Option (Except Exception (List Device) × σ × List Exchange)) :
    ClientOps (σ × List Exchange) where
  login := loginWith
  getDevices := devicesFrom
  getClockConfig deviceId clockId user s :=
    (env.client.getClockConfig deviceId clockId user s.2).map (fun r => (r.1, s.1, r.2))
  setClockConfig deviceId clockId user clockConfig s :=
    (env.client.setClockConfig deviceId clockId user clockConfig s.2).map (fun r => (r.1, s.1, r.2))

section Cloud
variable {σ : Type} {env : Env} {loginWith : Text → Text → σ × List Exchange →
    Option (Except Exception UserInfo × σ × List Exchange)}
  {devicesFrom : σ × List Exchange → Option (Except Exception (List Device) × σ × List Exchange)} {value : Text}

theorem updateDevice_cloudClient (user : UserInfo) (deviceId : Int) (s : σ) (sent : List Exchange) :
    updateDevice (cloudClient env loginWith devicesFrom) user deviceId value (s, sent) =
      (updateDevice env.client user deviceId value sent).map (fun r => (r.1, s, r.2)) := by
  simp only [updateDevice, cloudClient]
  cases env.client.getClockConfig deviceId currentClockId user sent with
  | none => rfl
  | some read =>
    rcases read with ⟨_ | clockConfig, sent₁⟩
    · rfl
    · simp only [Option.map_some, Option.bind_eq_bind, Option.bind_some]
      cases env.client.setClockConfig deviceId currentClockId user (setText value clockConfig) sent₁ with
      | none => rfl
      | some written => rcases written with ⟨_ | _, _⟩ <;> rfl

/-- The requests for the devices never end with an exception. -/
theorem updateDevices_cloudClient (user : UserInfo) (devices : List Device) (s : σ) (sent : List Exchange) :
    ∃ sent', updateDevices (cloudClient env loginWith devicesFrom) user value devices (s, sent) =
      some (.ok (), s, sent') := by
  induction devices generalizing sent with
  | nil => exact ⟨sent, rfl⟩
  | cons dev rest ih =>
    obtain ⟨new, updated, _⟩ := updateDevice_sent env user dev.id value sent
    rw [updateDevices, updateDevice_cloudClient, updated]
    exact ih (sent ++ new)

end Cloud

/-- One update with a client of the cloud returns and logs in not once: `execute` swallows what the
answers to its requests throw, also where each of them rejects the token. -/
theorem update_cloud_logsInAtMost {σ : Type} (env : Env) (loginWith : Text → Text → σ × List Exchange →
      Option (Except Exception UserInfo × σ × List Exchange))
    (devicesFrom : σ × List Exchange → Option (Except Exception (List Device) × σ × List Exchange))
    (hash : Text → UInt64) (value : Text) (updater : DeviceUpdater) (s : σ) (sent : List Exchange) :
    LogsInAtMost (cloudClient env loginWith devicesFrom) hash value 0 updater (s, sent) := by
  have looped (user : UserInfo) (devices : List Device) : ∃ sent', updateDevices
      (cloudClient env loginWith devicesFrom) user value devices (s, sent) = some (.ok (), s, sent') :=
    updateDevices_cloudClient user devices s sent
  have returns : ∀ user devices,
      (updateDevices (cloudClient env loginWith devicesFrom) user value devices (s, sent)).isSome := by
    intro user devices
    obtain ⟨sent', ended⟩ := looped user devices
    rw [ended]
    rfl
  have accepted : rejected (cloudClient env loginWith devicesFrom) hash value updater (s, sent) = none := by
    unfold rejected
    split_ifs
    · rfl
    · split
      · next devices user _ _ =>
        obtain ⟨sent', ended⟩ := looped user devices
        rw [ended]
      · rfl
  obtain ⟨updater', ⟨s', sent'⟩, ended⟩ := update_accepted returns accepted 0 0
  exact ⟨1, updater', (s', sent'), 0, ended, Nat.le_refl 0⟩

/-- Each login succeeds and each request for a clock is answered with an expired token, for as
long as there is a next state. -/
def expiring {σ : Type} (next : σ → Option σ) : ClientOps σ where
  login _ _ s := some (.ok {}, s)
  getDevices s := some (.ok [⟨[], 1, [], [], 0⟩], s)
  getClockConfig _ _ _ s :=
    match next s with
    | some s => some (.error .tokenExpired, s)
    | none => some (.ok {}, s)
  setClockConfig _ _ _ _ s := some (.ok true, s)

theorem expiring_returning {σ : Type} (next : σ → Option σ) : Returning (expiring next) where
  login _ _ _ := rfl
  getDevices _ := rfl
  getClockConfig _ _ _ s := by
    simp only [expiring]
    cases next s <;> rfl
  setClockConfig _ _ _ _ _ := rfl

/-- The token expires twice: two logins. -/
theorem logsInAtMost_expiring_twice :
    LogsInAtMost (expiring Nat.ppred) (fun _ => 1) [] 2 TokenErrors.loggedIn 2 :=
  (logsInAtMost_iff (expiring_returning Nat.ppred) 2 TokenErrors.loggedIn 2).mpr (by
    intro p later
    have stands : afterRetries (expiring Nat.ppred) (fun _ => 1) [] 2 (TokenErrors.loggedIn, 2) =
        some ({ TokenErrors.loggedIn with userInfo := some {} }, 0) := by decide +kernel
    obtain rfl := Option.some.inj (stands.symm.trans later)
    decide +kernel)

/-- The token is always expired, and the update never ends. -/
theorem update_expired (fuel n : Nat) (updater : DeviceUpdater) (unchanged : updater.previousTextHash = 0)
    (listed : updater.devices = some [⟨[], 1, [], [], 0⟩]) (known : updater.userInfo.isSome) :
    update (counted (expiring (fun s : Unit => some s))) (fun _ => 1) fuel [] updater ((), n) =
      .error .unfinished := by
  induction fuel generalizing updater n with
  | zero => rfl
  | succ fuel ih =>
    obtain ⟨user, found⟩ := Option.isSome_iff_exists.mp known
    rw [update, unchanged, listed, found]
    exact ih (n + 1) _ unchanged rfl rfl

/-- No number bounds the logins of an update over every client. -/
theorem logins_unbounded :
    ¬∃ bound, ∀ (σ : Type) (client : ClientOps σ), Returning client → ∀ (hash : Text → UInt64) (value : Text)
      (updater : DeviceUpdater) (s : σ), LogsInAtMost client hash value bound updater s := by
  rintro ⟨bound, always⟩
  obtain ⟨fuel, updater', s', logins, returned, _⟩ := always Unit (expiring (fun s => some s))
    (expiring_returning _) (fun _ => 1) [] TokenErrors.loggedIn ()
  rw [update_expired fuel 0 TokenErrors.loggedIn rfl rfl rfl] at returned
  cases returned

end DivoomDev.Service.Retries
