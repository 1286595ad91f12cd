import DivoomDev.Jenkins.Builds
import DivoomDev.Jenkins.Client

/-! The request of the Jenkins client for the builds of a job, and which replies it reads. -/

namespace DivoomDev.Jenkins.UserBuilds
open DivoomDev.Library.Bytes DivoomDev.Library.JsonValues Client Builds

structure Config where
  baseUrl : Text
  username : Text
  apiToken : Text

structure Request where
  url : Text
  authorization : Text
  params : List (Text × Text)
  deriving DecidableEq, Repr

/-- What `cpr::Get` returns: a text, and whether its error code is another one than OK. -/
structure Response where
  text : Text
  failed : Bool
  deriving DecidableEq, Repr

def buildsRequest (memory : Vector UInt8 3) (config : Config) (jobName : Text) (count : Int) : Request where
  url := config.baseUrl ++ (text "/job/" ++ jobName ++ text "/api/json")
  authorization := authorization memory config.username config.apiToken
  params :=
    [(text "tree", text "builds[number,timestamp,result,building,actions[causes[userId,username]]]"),
      (text "depth", text "1")] ++
    if 0 < count ∧ count < 1000 then [(text "max", decimal count)] else []

def isHtml (s : Text) : Bool := (find (text "<!DOCTYPE") s).isSome || (find (text "<html") s).isSome

/-- `j == 401`, which compares numbers by their values. -/
def isUnauthorized : Json → Bool
  | .integer n => n = 401
  | .float mantissa exponent =>
      if 0 ≤ exponent then mantissa * 10 ^ exponent.toNat = 401 else mantissa = 401 * 10 ^ (-exponent).toNat
  | _ => false

/-- The check of the authorization in a reply. An error that is no text throws where it is logged,
and then the reply is read. -/
def deniesAccess (lib : JsonLib) (s : Text) : Bool :=
  match lib.parse s with
  | .error _ => false
  | .ok checkAuth =>
      if ((checkAuth.lookup (text "status")).map isUnauthorized).getD false then true
      else
        match checkAuth.lookup (text "error") with
        | some (.string _) => true
        | _ => false

def getUserBuilds (lib : JsonLib) (userId : Text) (response : Response) : List BuildInfo :=
  if isHtml response.text then []
  else if response.failed then []
  else if deniesAccess lib response.text then []
  else parseBuildsJson lib response.text userId

/-- A build has its result as its status, too. -/
theorem readBuild_result {buildJson : Json} {info : BuildInfo} (read : readBuild buildJson = .ok info) :
    info.result = info.status := by
  simp only [readBuild, bind, Except.bind] at read
  repeat' split at read
  all_goals cases read <;> rfl

end DivoomDev.Jenkins.UserBuilds
