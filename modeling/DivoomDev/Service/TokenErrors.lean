import DivoomDev.Service.Updater

/-! What an update does where the server rejects the token: the client swallows the exception
that is meant to make the updater log in again. -/

namespace DivoomDev.Service.TokenErrors
open DivoomDev.Library.Bytes DivoomDev.Library.JsonValues DivoomDev.Divoom.Models
  DivoomDev.Divoom.Handlers DivoomDev.Divoom.Client Updater

/-- The server answered a request for the clock of a device with a return code for which
`parse_json` throws one of the exceptions that `update` handles by a login. -/
def RejectsToken (lib : JsonLib) (ex : Exchange) : Prop :=
  (∃ deviceId, ForClock deviceId ex.request) ∧
    ∃ statusCode body e, ex.reply = .response statusCode body ∧
      parseJson lib body = .error (.raised e) ∧ e ≠ .other

def IsLogin (request : Request) : Prop := ∃ email password, request = .login email password

/-- Among the exchanges of a call there is a login if there is a rejected token. -/
def LogsInAgain (lib : JsonLib) (new : List Exchange) : Prop :=
  (∃ ex ∈ new, RejectsToken lib ex) → ∃ ex ∈ new, IsLogin ex.request

theorem not_isLogin_of_forClock {request : Request} {deviceId : Int} (forClock : ForClock deviceId request) :
    ¬IsLogin request := by
  intro given
  obtain ⟨email, password, rfl⟩ := given
  exact forClock

/-- An update never logs in, so it does what it is meant to do exactly where the server rejects
the token in none of its requests. -/
theorem update_logsInAgain_iff (env : Env) (hash : Text → UInt64) (fuel : Nat) (value : Text)
    (updater : DeviceUpdater) (sent : List Exchange) :
    ∃ updater' new, update env.client hash (fuel + 1) value updater sent = .ok (updater', sent ++ new) ∧
      (LogsInAgain env.lib new ↔ ∀ ex ∈ new, ¬RejectsToken env.lib ex) := by
  obtain ⟨new, updated, forClock⟩ := update_sent env hash fuel value updater sent
  refine ⟨_, new, updated, fun again ex member rejects => ?_, fun none => ?_⟩
  · obtain ⟨login, inside, isLogin⟩ := again ⟨ex, member, rejects⟩
    obtain ⟨deviceId, forDevice⟩ := forClock login inside
    exact not_isLogin_of_forClock forDevice isLogin
  · intro given
    obtain ⟨ex, member, rejects⟩ := given
    exact absurd rejects (none ex member)

/-! ## A rejected token -/

def loggedIn : DeviceUpdater where
  userInfo := some ⟨7, 5⟩
  devices := some [⟨[], 1, [], [], 0⟩]

/-- The token is rejected twice, and the call stores the hash of the text without any login. -/
theorem update_swallows_token :
    ¬∀ (env : Env) (hash : Text → UInt64) (fuel : Nat) (value : Text) (updater updater' : DeviceUpdater)
      (sent new : List Exchange), updater.userInfo.isSome →
      (∃ dev rest, updater.devices = some (dev :: rest)) →
      update env.client hash (fuel + 1) value updater sent = .ok (updater', sent ++ new) →
      LogsInAgain env.lib new := by
  intro always
  have again := always (sampleEnv (answerCode 11) (answerCode 11)) (fun _ => 1) 0 [] loggedIn
    { loggedIn with previousTextHash := 1 } []
    [⟨.getConfig 1 598 ⟨7, 5⟩, .response 200 (answerCode 11).compact⟩,
      ⟨.setConfig 1 598 ⟨7, 5⟩ [], .response 200 (answerCode 11).compact⟩]
    rfl ⟨_, _, rfl⟩ (by decide +kernel)
  obtain ⟨ex, member, email, password, isLogin⟩ := again ⟨_, List.mem_cons_self, ⟨1, rfl⟩, 200,
    (answerCode 11).compact, .tokenExpired, rfl, by decide +kernel, by decide⟩
  simp only [List.mem_cons, List.not_mem_nil, or_false] at member
  rcases member with rfl | rfl <;> cases isLogin

end DivoomDev.Service.TokenErrors
