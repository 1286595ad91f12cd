import DivoomDev.Library.Fallible
import DivoomDev.Library.JsonValues
import DivoomDev.Library.Loop

/-! The builds that the Jenkins client makes of a reply, all of them or those of one user. -/

namespace DivoomDev.Jenkins.Builds
open DivoomDev.Library.Bytes DivoomDev.Library.JsonValues DivoomDev.Library.Loop

structure BuildInfo where
  number : Int
  status : Text
  result : Text
  building : Bool
  timestamp : UInt64
  deriving DecidableEq, Repr

/-! ## Reading one build -/

/-- An item of the queue, which has a text as its `why`. -/
def isQueueItem (buildJson : Json) : Bool :=
  match buildJson.lookup (text "why") with
  | some (.string _) => true
  | _ => false

def readBuild (buildJson : Json) : Except JsonError BuildInfo := do
  let number ← buildJson.value Json.getInt (text "number") 0
  let building ← buildJson.value Json.getBool (text "building") false
  let result ← buildJson.value pure (text "result") .null
  -- a build that is running may have null as its result
  let status ← if result ≠ .null then buildJson.value Json.getString (text "result") (text "UNKNOWN")
    else pure (text "IN_PROGRESS")
  let timestamp ← buildJson.value Json.getUint64 (text "timestamp") 0
  pure { number, status, result := status, building, timestamp }

/-! ## The user behind a build -/

/-- `cause.contains(key) && cause[key] == user_id`. -/
def hasText (cause : Json) (key : String) (userId : Text) : Bool :=
  cause.lookup (text key) = some (.string userId)

/-- The loop over the causes, which breaks at the first that names the user. -/
def causesMatch (userId : Text) : List Json → Bool
  | [] => false
  | cause :: rest =>
      if hasText cause "userId" userId || hasText cause "username" userId then true
      else causesMatch userId rest

def actionMatches (userId : Text) (action : Json) : Bool :=
  match action.lookup (text "causes") with
  | some causes => causesMatch userId causes.children
  | none => false

/-- The loop over the actions, which breaks behind the first with such a cause. -/
def actionsMatch (userId : Text) : List Json → Bool
  | [] => false
  | action :: rest => if actionMatches userId action then true else actionsMatch userId rest

def buildMatches (userId : Text) (buildJson : Json) : Bool :=
  match buildJson.lookup (text "actions") with
  | some actions => actionsMatch userId actions.children
  | none => false

/-- `user_matches`; without a user nothing is left out. -/
def userMatches (userId : Text) (buildJson : Json) : Bool :=
  if userId ≠ [] then buildMatches userId buildJson else true

/-! ## The loop over the builds -/

/-- One pass; an exception leaves the loop, and what was read is kept. -/
def visitBuild (userId : Text) (buildJson : Json) : Verdict BuildInfo :=
  if isQueueItem buildJson then .skip
  else match readBuild buildJson with
    | .error _ => .stop
    | .ok info => if userMatches userId buildJson then .emit info else .skip

/-- What the loop visits: nothing where the text is no JSON, or neither null nor an object. -/
def buildsOf (lib : JsonLib) (jsonString : Text) : List Json :=
  match lib.parse jsonString with
  | .error _ => []
  | .ok json =>
      match json.index (text "builds") with
      | .error _ => []
      | .ok builds => builds.children

def parseBuildsJson (lib : JsonLib) (jsonString userId : Text) : List BuildInfo :=
  scan (visitBuild userId) (buildsOf lib jsonString)

/-! ## The builds of a user -/

/-- The cause has the text as its `userId` or `username`. -/
def Names (userId : Text) (cause : Json) : Prop :=
  cause.lookup (text "userId") = some (.string userId) ∨ cause.lookup (text "username") = some (.string userId)

def ActionNames (userId : Text) (action : Json) : Prop :=
  ∃ causes, action.lookup (text "causes") = some causes ∧ ∃ cause ∈ causes.children, Names userId cause

/-- Some action of the build has some cause that names the user. -/
def StartedBy (userId : Text) (buildJson : Json) : Prop :=
  ∃ actions, buildJson.lookup (text "actions") = some actions ∧
    ∃ action ∈ actions.children, ActionNames userId action

theorem causesMatch_iff (userId : Text) (causes : List Json) :
    causesMatch userId causes = true ↔ ∃ cause ∈ causes, Names userId cause := by
  induction causes with
  | nil => simp [causesMatch]
  | cons cause rest ih =>
    have here : (hasText cause "userId" userId || hasText cause "username" userId) = true ↔ Names userId cause := by
      simp [hasText, Names]
    rw [causesMatch, List.exists_mem_cons_iff, ← here, ← ih]
    split_ifs with named <;> simp [named]

theorem actionMatches_iff (userId : Text) (action : Json) :
    actionMatches userId action = true ↔ ActionNames userId action := by
  unfold actionMatches ActionNames
  cases action.lookup (text "causes") with
  | none => simp
  | some causes => simp [causesMatch_iff]

theorem actionsMatch_iff (userId : Text) (actions : List Json) :
    actionsMatch userId actions = true ↔ ∃ action ∈ actions, ActionNames userId action := by
  induction actions with
  | nil => simp [actionsMatch]
  | cons action rest ih =>
    rw [actionsMatch, List.exists_mem_cons_iff, ← actionMatches_iff, ← ih]
    split_ifs with found <;> simp [found]

theorem buildMatches_iff (userId : Text) (buildJson : Json) :
    buildMatches userId buildJson = true ↔ StartedBy userId buildJson := by
  unfold buildMatches StartedBy
  cases buildJson.lookup (text "actions") with
  | none => simp
  | some actions => simp [actionsMatch_iff]

instance (userId : Text) : DecidablePred (StartedBy userId) := fun buildJson =>
  decidable_of_iff _ (buildMatches_iff userId buildJson)

/-- With a user each pass does what it does without one, but for the builds of others. -/
theorem visitBuild_user {userId : Text} (named : userId ≠ []) (buildJson : Json) :
    visitBuild userId buildJson = (visitBuild [] buildJson).filter (decide (StartedBy userId buildJson)) := by
  have started : decide (StartedBy userId buildJson) = buildMatches userId buildJson := by
    rw [Bool.eq_iff_iff, decide_eq_true_iff, buildMatches_iff]
  have ofUser : userMatches userId buildJson = buildMatches userId buildJson := if_pos named
  have ofAll : userMatches [] buildJson = true := rfl
  rw [started]
  by_cases queued : isQueueItem buildJson = true
  · simp only [visitBuild, if_pos queued]
    rfl
  · simp only [visitBuild, if_neg queued, ofUser, ofAll]
    cases readBuild buildJson with
    | error e => rfl
    | ok info => rfl

theorem readBuild_of_visit {userId : Text} {buildJson : Json} {info : BuildInfo}
    (visited : visitBuild userId buildJson = .emit info) : readBuild buildJson = .ok info := by
  unfold visitBuild at visited
  cases outcome : readBuild buildJson with
  | error e =>
    simp only [outcome] at visited
    split_ifs at visited
  | ok value =>
    simp only [outcome] at visited
    split_ifs at visited
    cases visited
    rfl

/-- There is one list of builds, each with its JSON, of which the call without a user returns all
and a call with a user those that the user started. It ends at the same build in all calls. -/
theorem parseBuildsJson_filtered (lib : JsonLib) (jsonString : Text) :
    ∃ builds : List (Json × BuildInfo),
      (builds.map Prod.fst).Sublist (buildsOf lib jsonString) ∧
      (∀ build ∈ builds, readBuild build.1 = .ok build.2) ∧
      parseBuildsJson lib jsonString [] = builds.map Prod.snd ∧
      ∀ userId, userId ≠ [] → parseBuildsJson lib jsonString userId =
        (builds.filter (fun build => StartedBy userId build.1)).map Prod.snd := by
  refine ⟨traced (visitBuild []) (buildsOf lib jsonString), traced_sublist _ _,
    fun build member => readBuild_of_visit (of_mem_traced member), (map_snd_traced _ _).symm, ?_⟩
  intro userId named
  have passes : visitBuild userId =
      fun buildJson => (visitBuild [] buildJson).filter (decide (StartedBy userId buildJson)) :=
    funext (visitBuild_user named)
  rw [parseBuildsJson, passes]
  exact scan_filter (visitBuild []) (fun buildJson => decide (StartedBy userId buildJson)) _

/-- A running build of eve, an item of the queue, and a build without a number. -/
def evesBuild : Json :=
  .object [(text "builds", .array
    [.object [(text "actions", .array [.null, .object [(text "causes", .array
        [.object [(text "userId", .string (text "bob"))], .object [(text "username", .string (text "eve"))]])]]),
      (text "number", .integer 7), (text "result", .null)],
    .object [(text "why", .string (text "In the quiet period"))],
    .object [(text "number", .string (text "eight"))],
    .object [(text "number", .integer 9)]])]

example : parseBuildsJson (compactLib [evesBuild]) evesBuild.compact (text "eve") =
    [⟨7, text "IN_PROGRESS", text "IN_PROGRESS", false, 0⟩] := by decide +kernel

end DivoomDev.Jenkins.Builds
