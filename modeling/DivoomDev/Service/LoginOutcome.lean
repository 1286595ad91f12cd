import DivoomDev.Service.Updater

/-! What a login of the updater reports, next to what the server answered. -/

namespace DivoomDev.Service.LoginOutcome
open DivoomDev.Library.Bytes DivoomDev.Library.JsonValues DivoomDev.Library.JsonValues.Json
  DivoomDev.Divoom DivoomDev.Divoom.Models DivoomDev.Divoom.Client Updater

/-- The reply to a request, which is not sent where it cannot be written. -/
def replyTo (env : Env) (sent : List Exchange) (request : Request) : Option Reply :=
  (request.body env.lib).map (fun _ => env.server sent request)

/-- The server answered with return code 0, a user and a token. -/
def Answered (lib : JsonLib) (reply : Option Reply) (userId token : Int) : Prop :=
  ∃ content j, reply = some (.response 200 content) ∧ lib.parse content = .ok j ∧
    j.field (text "ReturnCode") = .ok (.integer 0) ∧ j.field (text "UserId") = .ok (.integer userId) ∧
    j.field (text "Token") = .ok (.integer token)

def loginReply (env : Env) (updater : DeviceUpdater) (sent : List Exchange) : Option Reply :=
  replyTo env sent (.login updater.login_ (env.computeMd5 updater.password_))

/-- `login` returns true with the user and the token of the server, or false with the user that
the updater had. -/
def ReportsLogin (env : Env) (updater : DeviceUpdater) (sent : List Exchange) : Prop :=
  ∃ done updater' sent', login env.client updater sent = some (done, updater', sent') ∧
    ((∃ userId token, Answered env.lib (loginReply env updater sent) userId token ∧
        done = true ∧ updater'.userInfo = some ⟨token, userId⟩) ∨
      ((¬∃ userId token, Answered env.lib (loginReply env updater sent) userId token) ∧
        done = false ∧ updater'.userInfo = updater.userInfo))

/-- The server answered so, and both numbers are of type `int`. -/
def Accepted (env : Env) (updater : DeviceUpdater) (sent : List Exchange) : Prop :=
  ∃ userId token, Answered env.lib (loginReply env updater sent) userId token ∧
    (intMin ≤ userId ∧ userId ≤ intMax) ∧ (intMin ≤ token ∧ token ≤ intMax)

theorem login_answered {lib : JsonLib} {content : Text} {j : Json} {userId token : Int}
    (parsed : lib.parse content = .ok j) (returnCode : j.field (text "ReturnCode") = .ok (.integer 0))
    (user : j.field (text "UserId") = .ok (.integer userId))
    (secret : j.field (text "Token") = .ok (.integer token)) :
    Handlers.login lib content = .ok (some ⟨wrapInt token, wrapInt userId⟩) := by
  have accepted : Handlers.parseJson lib content = .ok (some j) := by
    simp [Handlers.parseJson, parsed, returnCode, Handlers.read, getInt, Handlers.ok, wrapInt, bind, Except.bind,
      pure, Except.pure, Except.mapError]
  simp [Handlers.login, accepted, user, secret, Handlers.read, getInt, bind, Except.bind, pure, Except.pure,
    Except.mapError]

/-- Whatever the server answers, the client returns a user, and the updater takes it. -/
theorem login_returns (env : Env) (updater : DeviceUpdater) (sent : List Exchange) :
    ∃ user sent', login env.client updater sent = some (true, { updater with userInfo := some user }, sent') ∧
      ∀ userId token, Answered env.lib (loginReply env updater sent) userId token →
        user = ⟨wrapInt token, wrapInt userId⟩ := by
  obtain ⟨⟨result, sent'⟩, executed⟩ : ∃ r, env.execute (.login updater.login_ (env.computeMd5 updater.password_))
      (Handlers.login env.lib) sent = some r := Env.execute_returns (Handlers.login_checked env.lib) _ sent
  refine ⟨result.getD {}, sent', ?_, fun userId token answered => ?_⟩
  · simp [login, Env.client, Env.login, executed]
  · obtain ⟨content, j, replied, parsed, returnCode, user, secret⟩ := answered
    obtain ⟨body, written, reply⟩ := Option.map_eq_some_iff.mp replied
    have read := login_answered parsed returnCode user secret
    simp only [Env.execute, written, reply, receive, read] at executed
    cases executed
    rfl

/-- A login is reported as the server answered it exactly where it was accepted. -/
theorem reportsLogin_iff (env : Env) (updater : DeviceUpdater) (sent : List Exchange) :
    ReportsLogin env updater sent ↔ Accepted env updater sent := by
  obtain ⟨user, sent', returned, same⟩ := login_returns env updater sent
  apply Iff.intro
  · intro reports
    obtain ⟨done, updater', sent'', returned', outcome⟩ := reports
    cases returned.symm.trans returned'
    rcases outcome with ⟨userId, token, answered, _, taken⟩ | ⟨_, failed, _⟩
    · have wrapped : user = ⟨token, userId⟩ := Option.some.inj taken
      rw [same userId token answered, UserInfo.mk.injEq] at wrapped
      refine ⟨userId, token, answered, ?_, ?_⟩
      · rw [← wrapped.2]
        exact wrapInt_range _
      · rw [← wrapped.1]
        exact wrapInt_range _
    · cases failed
  · intro accepted
    obtain ⟨userId, token, answered, userRange, tokenRange⟩ := accepted
    refine ⟨_, _, _, returned, .inl ⟨userId, token, answered, rfl, ?_⟩⟩
    rw [same userId token answered, wrapInt_eq userRange, wrapInt_eq tokenRange]

/-! ## A wrong password -/

/-- A cloud that answers every request with this code alone. -/
def codeEnv (code : Int) : Env where
  lib := compactLib [answerCode code, .object [(text "Command", .string (text "UserLogin")),
    (text "Email", .string (text "u")), (text "Language", .string (text "ru")),
    (text "Password", .string (text "p")), (text "TimeZone", .string (text "+3"))]]
  computeMd5 := id
  server _ _ := .response 200 (answerCode code).compact
  memory _ _ := (0, 0)

/-- A wrong password replaces the user of the updater by one that does not exist. -/
theorem wrong_password_reported : ¬∀ env updater sent, ReportsLogin env updater sent := by
  intro always
  obtain ⟨done, updater', sent', returned, outcome⟩ :=
    always (codeEnv 5) { login_ := text "u", password_ := text "p", userInfo := some ⟨7, 5⟩ } []
  have taken : login (codeEnv 5).client
      { login_ := text "u", password_ := text "p", userInfo := some ⟨7, 5⟩ } [] =
      some (true, { login_ := text "u", password_ := text "p", userInfo := some ⟨0, 0⟩ },
        [⟨.login (text "u") (text "p"), .response 200 (answerCode 5).compact⟩]) := by decide +kernel
  cases taken.symm.trans returned
  rcases outcome with ⟨userId, token, ⟨content, j, replied, parsed, returnCode, _⟩, _⟩ | ⟨_, failed, _⟩
  · have reply : loginReply (codeEnv 5) { login_ := text "u", password_ := text "p", userInfo := some ⟨7, 5⟩ }
        [] = some (.response 200 (answerCode 5).compact) := by decide +kernel
    cases reply.symm.trans replied
    have read : (codeEnv 5).lib.parse (answerCode 5).compact = .ok (answerCode 5) := by decide +kernel
    cases read.symm.trans parsed
    exact absurd returnCode (by decide)
  · cases failed

end DivoomDev.Service.LoginOutcome
