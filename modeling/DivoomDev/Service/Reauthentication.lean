import DivoomDev.Service.Cycles

/-! Logins over a run of the service. What the server has accepted is watched beside the
service, which keeps no record of it. -/

namespace DivoomDev.Service.Reauthentication
open DivoomDev.Library.Bytes DivoomDev.Library.JsonValues DivoomDev.Library.Run DivoomDev.Ics.Loading
  DivoomDev.Storage.Models DivoomDev.Storage.SqliteBackend DivoomDev.Divoom DivoomDev.Divoom.Models
  DivoomDev.Divoom.Client Updater Cycles

def storedCredentials (t : Tables) : Option (Text × Text) :=
  (t.getAccount (text "divoom")).map (fun account => (account.login, account.password))

def isLogin : Request → Bool
  | .login _ _ => true
  | _ => false

/-- The server took the credentials: the client makes a user of its reply. -/
def accepts (lib : JsonLib) (ex : Exchange) : Bool :=
  isLogin ex.request && ((receive (Handlers.login lib) ex.reply).bind id).isSome

/-- The service, and whether a login was accepted since the stored credentials last changed. -/
structure Watched where
  service : ServiceState
  accepted : Bool := false

def newExchanges (before after : ServiceState) : List Exchange := after.sent.drop before.sent.length

def Watched.next (world : World) (watched : Watched) (service' : ServiceState) : Watched where
  service := service'
  accepted :=
    if storedCredentials service'.storage ≠ storedCredentials watched.service.storage then false
    else watched.accepted || (newExchanges watched.service service').any (accepts world.cloud.lib)

def watchedStep (world : World) (watched : Watched) (input : Input) : Option Watched :=
  (step world watched.service input).map (watched.next world)

/-! ## The logins of a cycle -/

variable {world : World} {service service' : ServiceState}

def HasLogin (exchanges : List Exchange) : Prop := ∃ ex ∈ exchanges, isLogin ex.request = true

instance (exchanges : List Exchange) : Decidable (HasLogin exchanges) :=
  inferInstanceAs (Decidable (∃ ex ∈ exchanges, _))

theorem hasLogin_append (first later : List Exchange) :
    HasLogin (first ++ later) ↔ HasLogin first ∨ HasLogin later := by
  simp [HasLogin, List.mem_append, or_and_right, exists_or]

/-- A login is sent wherever its request can be written. -/
theorem login_hasLogin {env : Env} {email password : Text} {user : UserInfo} {sent sent' : List Exchange}
    (called : env.login email password sent = some (user, sent')) :
    ∃ new, sent' = sent ++ new ∧
      (HasLogin new ↔ ((Request.login email (env.computeMd5 password)).body env.lib).isSome) := by
  obtain ⟨⟨result, _⟩, executed, same⟩ := Option.bind_eq_some_iff.mp called
  cases same
  unfold Env.execute at executed
  cases written : (Request.login email (env.computeMd5 password)).body env.lib with
  | none =>
    simp only [written] at executed
    cases executed
    exact ⟨[], by simp [HasLogin]⟩
  | some body =>
    simp only [written] at executed
    obtain ⟨_, _, same⟩ := Option.map_eq_some_iff.mp executed
    cases same
    exact ⟨_, rfl, by simp [HasLogin, isLogin]⟩

def heldCredentials (updater : DeviceUpdater) : Text × Text := (updater.login_, updater.password_)

/-- The updater does not hold the stored credentials yet, and a login with them can be
written. -/
def Renewed (world : World) (service : ServiceState) : Prop :=
  ∃ credentials, storedCredentials service.storage = some credentials ∧
    credentials ≠ heldCredentials service.deviceUpdater ∧
    ((Request.login credentials.1 (world.cloud.computeMd5 credentials.2)).body world.cloud.lib).isSome

theorem getDbInfo_hasLogin (returned : getDbInfo world service = some service') :
    ∃ new, service'.sent = service.sent ++ new ∧ (HasLogin new ↔ Renewed world service) := by
  rcases getDbInfo_cases returned with ⟨stored, rfl⟩ | ⟨account, stored, r, updated, rfl⟩
  · exact ⟨[], by simp [addSources], by simp [HasLogin, Renewed, storedCredentials, stored]⟩
  · have credentials : storedCredentials service.storage = some (account.login, account.password) := by
      rw [storedCredentials, stored]
      rfl
    rcases updateCredentials_cloud updated with ⟨⟨sameLogin, samePassword⟩, rfl⟩ |
      ⟨changed, user, sent₁, list, sent₂, loggedIn, listed, rfl⟩
    · exact ⟨[], by simp, by simp [HasLogin, Renewed, heldCredentials, credentials, sameLogin, samePassword]⟩
    · obtain ⟨new, rfl, written⟩ := login_hasLogin loggedIn
      obtain ⟨asked, rfl, forDevices⟩ := Env.getDevices_sent listed
      have noLogin : ¬HasLogin asked := fun given => by
        obtain ⟨ex, member, logs⟩ := given
        rw [forDevices ex member] at logs
        cases logs
      refine ⟨new ++ asked, List.append_assoc _ _ _, ?_⟩
      rw [hasLogin_append, or_iff_left noLogin, written]
      simp only [Renewed, heldCredentials, credentials, Option.some.injEq, exists_eq_left', ne_eq,
        Prod.mk.injEq, not_and_or]
      exact (and_iff_right changed).symm

theorem processed_noLogin (processed : Processed service service') :
    ∃ new, service'.sent = service.sent ++ new ∧ ¬HasLogin new := by
  obtain ⟨new, sent, forClock⟩ := processed.sent
  refine ⟨new, sent, fun given => ?_⟩
  obtain ⟨ex, member, logs⟩ := given
  obtain ⟨deviceId, clock⟩ := forClock ex member
  cases request : ex.request <;> simp [request, isLogin, ForClock] at logs clock

theorem processed_held (processed : Processed service service') :
    heldCredentials service'.deviceUpdater = heldCredentials service.deviceUpdater := by
  obtain ⟨hash, updater⟩ := processed.updater
  rw [updater]
  rfl

theorem cycle_sent {answers : Text → Answers} {value : Option Text}
    (stepped : step world service (.cycle answers value) = some service') :
    ∃ new, service'.sent = service.sent ++ new ∧ (HasLogin new ↔ Renewed world service) := by
  obtain ⟨middle, read, processed⟩ := Option.bind_eq_some_iff.mp stepped
  obtain ⟨first, sent₁, logins⟩ := getDbInfo_hasLogin read
  obtain ⟨later, sent₂, quiet⟩ := processed_noLogin (processCycle_processed processed)
  refine ⟨first ++ later, ?_, ?_⟩
  · rw [sent₂, sent₁, List.append_assoc]
  · rw [hasLogin_append, logins]
    exact or_iff_left quiet

theorem cycle_hasLogin {answers : Text → Answers} {value : Option Text}
    (stepped : step world service (.cycle answers value) = some service') :
    HasLogin (newExchanges service service') ↔ Renewed world service := by
  obtain ⟨new, sent, logins⟩ := cycle_sent stepped
  rw [newExchanges, sent, List.drop_left, logins]

theorem getDbInfo_holds {credentials : Text × Text}
    (stored : storedCredentials service.storage = some credentials)
    (returned : getDbInfo world service = some service') :
    heldCredentials service'.deviceUpdater = credentials := by
  obtain ⟨account, found, rfl⟩ := Option.map_eq_some_iff.mp stored
  rcases getDbInfo_cases returned with ⟨missing, _⟩ | ⟨other, isStored, r, updated, rfl⟩
  · rw [missing] at found
    cases found
  · rw [isStored] at found
    cases found
    rcases updateCredentials_cloud updated with ⟨⟨sameLogin, samePassword⟩, rfl⟩ |
      ⟨_, user, sent₁, list, sent₂, _, _, rfl⟩
    · rw [heldCredentials, sameLogin, samePassword]
    · rfl

/-- Whatever the server answers, the updater holds the stored credentials behind a cycle. -/
theorem cycle_holds {answers : Text → Answers} {value : Option Text} {credentials : Text × Text}
    (stored : storedCredentials service.storage = some credentials)
    (stepped : step world service (.cycle answers value) = some service') :
    heldCredentials service'.deviceUpdater = credentials ∧
      storedCredentials service'.storage = some credentials := by
  obtain ⟨middle, read, processed⟩ := Option.bind_eq_some_iff.mp stepped
  have kept := processCycle_processed processed
  rw [processed_held kept, kept.storage, (getDbInfo_addSources read).2]
  exact ⟨getDbInfo_holds stored read, stored⟩

/-! ## Runs -/

/-- The stored credentials are these behind every step. -/
def Keeps (world : World) (credentials : Text × Text) (service : ServiceState) (input : Input) : Prop :=
  ∀ service', step world service input = some service' →
    storedCredentials service'.storage = some credentials

/-- Once the updater holds the stored credentials, no login is sent until they change: the
result of the first one does not matter. -/
theorem no_login_while_kept {credentials : Text × Text} {inputs : List Input}
    (held : heldCredentials service.deviceUpdater = credentials)
    (stored : storedCredentials service.storage = some credentials)
    (kept : Along (Keeps world credentials) (step world) service inputs)
    (reached : run (step world) service inputs = some service') :
    ∃ new, service'.sent = service.sent ++ new ∧ ¬HasLogin new := by
  have invariant := run_invariant_along
    (I := fun s => heldCredentials s.deviceUpdater = credentials ∧
      storedCredentials s.storage = some credentials ∧
      ∃ new, s.sent = service.sent ++ new ∧ ¬HasLogin new)
    (fun s input s' given keeps stepped => ?_) ⟨held, stored, [], by simp, by simp [HasLogin]⟩ kept reached
  · exact invariant.2.2
  · obtain ⟨holds, before, new, sent, quiet⟩ := given
    cases input with
    | edit operation =>
      have after := keeps s' stepped
      cases stepped
      exact ⟨holds, after, new, sent, quiet⟩
    | start =>
      cases stepped
      exact ⟨holds, before, new, sent, quiet⟩
    | cycle answers value =>
      obtain ⟨later, sent', logins⟩ := cycle_sent stepped
      have notRenewed : ¬Renewed world s := fun given => by
        obtain ⟨found, same, different, _⟩ := given
        rw [before, holds] at *
        exact different (Option.some.inj same).symm
      refine ⟨(cycle_holds before stepped).1, (cycle_holds before stepped).2, new ++ later, ?_, ?_⟩
      · rw [sent', sent, List.append_assoc]
      · rw [hasLogin_append, logins]
        exact not_or.mpr ⟨quiet, notRenewed⟩

/-- A login is sent in a cycle that begins without an accepted one. -/
def LogsIn (world : World) (watched : Watched) : Input → Prop
  | .cycle answers value => (storedCredentials watched.service.storage).isSome →
      watched.accepted = false →
      ∀ service', step world watched.service (.cycle answers value) = some service' →
        HasLogin (newExchanges watched.service service')
  | _ => True

/-- No cycle that returns begins without an accepted login where the updater holds the stored
credentials already, or where the login cannot be written. -/
def RenewedUntilAccepted (world : World) (watched : Watched) : Input → Prop
  | .cycle answers value => (storedCredentials watched.service.storage).isSome →
      watched.accepted = false → (step world watched.service (.cycle answers value)).isSome →
      Renewed world watched.service
  | _ => True

theorem renewedUntilAccepted_iff_logsIn (world : World) (watched : Watched) (input : Input) :
    RenewedUntilAccepted world watched input ↔ LogsIn world watched input := by
  cases input with
  | edit _ => exact Iff.rfl
  | start => exact Iff.rfl
  | cycle answers value =>
    simp only [RenewedUntilAccepted, LogsIn]
    apply imp_congr_right
    intro _
    apply imp_congr_right
    intro _
    cases stepped : step world watched.service (.cycle answers value) with
    | none => simp
    | some service' => simp [cycle_hasLogin stepped]

/-- Through a run the service logs in until a login is accepted exactly where each such cycle
finds credentials that the updater does not hold yet. -/
theorem cycles_logIn_iff (world : World) (watched : Watched) (inputs : List Input) :
    Along (RenewedUntilAccepted world) (watchedStep world) watched inputs ↔
      Along (LogsIn world) (watchedStep world) watched inputs :=
  along_congr (renewedUntilAccepted_iff_logsIn world)

/-! ## A login that is not answered -/

/-- The first request of all gets no answer. -/
def unreachedWorld : World :=
  { sampleWorld with
    cloud := { sampleWorld.cloud with
      server := fun sent request =>
        if sent = [] then .error else sampleWorld.cloud.server sent request } }

/-- The login of the first cycle fails, and the second cycle sends none. -/
theorem failed_login_not_repeated : ¬∀ (world : World) (service : ServiceState) (inputs : List Input),
    Along (LogsIn world) (watchedStep world) ⟨service, false⟩ inputs := by
  intro always
  have along := always unreachedWorld startedService
    [.edit (.upsertAccount ⟨text "divoom", text "u", text "p"⟩), .cycle (fun _ => ⟨0, [], 0, 0, 0⟩) none,
      .cycle (fun _ => ⟨0, [], 0, 0, 0⟩) none]
  have logsIn := ((along.2 _ rfl).2 _ rfl).1 (by decide +kernel) (by decide +kernel) _ rfl
  exact absurd logsIn (by decide +kernel)

end DivoomDev.Service.Reauthentication
