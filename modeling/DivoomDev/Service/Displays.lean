import DivoomDev.Service.Delivery
import DivoomDev.Service.ClockRoundTrip

/-! The updater under a cloud that answers honestly. Whatever calls are made in whatever order,
the clocks behave like a board that shows the text of the last update, and no clock is written
to when the text on the board does not change. -/

namespace DivoomDev.Service.Displays
open DivoomDev.Library.Bytes DivoomDev.Library.JsonValues DivoomDev.Library.Run DivoomDev.Divoom.Models
  DivoomDev.Divoom DivoomDev.Divoom.Client Updater Delivery WriteBack ClockRoundTrip
open DivoomDev.Divoom.Handlers (parseItem parseItemsArray)

/-! ## The board -/

/-- What a user sees: whether the devices are reached, the text on them, and how often a clock
was written to. -/
structure Board where
  attached : Bool := false
  shown : Option Text := none
  written : Nat := 0
  deriving DecidableEq, Repr

def Board.step (devices : Nat) (board : Board) : Call → Board
  | .updateCredentials _ _ => { board with attached := true }
  | .update value =>
      if board.attached ∧ board.shown ≠ some value
      then { board with shown := some value, written := board.written + devices } else board

/-! ## An honest cloud -/

/-- What the cloud has: its users by login and password, the devices, and the clock of each as
it was at first. -/
structure Cloud where
  accounts : Text → Text → Option UserInfo
  devices : List Device
  clocks : Int → List Item

def Cloud.hasUser (cloud : Cloud) (user : UserInfo) : Prop :=
  ∃ login password, cloud.accounts login password = some user

/-- What the clock of a device is behind some requests: the last list that was acknowledged. -/
def clockBehind (lib : JsonLib) (initial : List Item) (sent : List Exchange) (deviceId : Int) : List Item :=
  sent.foldl (fun items ex =>
    match ex.request with
    | .setConfig id _ _ list =>
        if id = deviceId ∧ receive (Handlers.setConfig lib) ex.reply = some (some ()) then list else items
    | _ => items) initial

def isWrite : Request → Bool
  | .setConfig _ _ _ _ => true
  | _ => false

def writes (sent : List Exchange) : Nat := sent.countP (fun ex => isWrite ex.request)

/-- The clocks were given none but these texts. -/
def OnlyTexts (cloud : Cloud) (texts : Set Text) (sent : List Exchange) : Prop :=
  ∀ ex ∈ sent, ∀ deviceId clockId user items, ex.request = .setConfig deviceId clockId user items →
    ∃ t ∈ texts, items = (cloud.clocks deviceId).map (setItem t)

/-- As long as the clocks are given none but these texts, the cloud knows its users, lists its
devices, returns what their clocks are and takes what they are to be. -/
structure Honest (env : Env) (cloud : Cloud) (texts : Set Text) : Prop where
  noEmptyLogin : cloud.accounts [] [] = none
  inRange : ∀ dev ∈ cloud.devices, ∀ item ∈ cloud.clocks dev.id, InRange item
  login : ∀ sent, OnlyTexts cloud texts sent → ∀ login password user,
    cloud.accounts login password = some user →
    ((Request.login login (env.computeMd5 password)).body env.lib).isSome ∧
      receive (Handlers.login env.lib) (env.server sent (.login login (env.computeMd5 password))) =
        some (some user)
  list : ∀ sent, OnlyTexts cloud texts sent →
    receive (Handlers.devices env.lib) (env.server sent .devices) = some (some cloud.devices)
  read : ∀ sent, OnlyTexts cloud texts sent → ∀ dev ∈ cloud.devices, ∀ user, cloud.hasUser user →
    Returned env.lib (env.server sent (.getConfig dev.id currentClockId user))
      ((clockBehind env.lib (cloud.clocks dev.id) sent dev.id).map Item.toJson)
  write : ∀ sent, OnlyTexts cloud texts sent → ∀ dev ∈ cloud.devices, ∀ user, cloud.hasUser user →
    ∀ t ∈ texts, receive (Handlers.setConfig env.lib) (env.server sent
      (.setConfig dev.id currentClockId user ((cloud.clocks dev.id).map (setItem t)))) = some (some ())

/-- The clock of a device under a board. -/
def Board.clock (board : Board) (cloud : Cloud) (deviceId : Int) : List Item :=
  match board.shown with
  | some t =>
      if deviceId ∈ cloud.devices.map Device.id then (cloud.clocks deviceId).map (setItem t)
      else cloud.clocks deviceId
  | none => cloud.clocks deviceId

/-- The credentials are those of a user, and the texts are UTF-8. -/
def Proper (cloud : Cloud) (texts : Set Text) : Call → Prop
  | .updateCredentials login password => (cloud.accounts login password).isSome
  | .update value => value ∈ texts ∧ ValidUtf8 value

/-! ## Clocks behind requests -/

section
variable {env : Env} {cloud : Cloud} {texts : Set Text} {sent new : List Exchange} {value : Text}

@[simp] theorem setItem_setItem (value other : Text) (item : Item) :
    setItem value (setItem other item) = setItem value item := by
  unfold setItem
  split_ifs <;> simp_all

theorem setItem_inRange {item : Item} (range : InRange item) (value : Text) : InRange (setItem value item) := by
  unfold setItem
  split_ifs
  · exact range
  · exact range

theorem parseItem_toJson {item : Item} (range : InRange item) (memory : Int × Int) :
    parseItem memory item.toJson = item := by
  have read := parseItem_same (.inl rfl : SameItem item.toJson item.toJson) memory
  rwa [Json.wrapInt_eq range.1, Json.wrapInt_eq range.2] at read

theorem parseItemsArray_toJson {items : List Item} (range : ∀ item ∈ items, InRange item)
    (memory : Nat → Int × Int) : parseItemsArray memory (some (.array (items.map Item.toJson))) = items := by
  apply List.ext_getElem
  · simp [parseItemsArray]
  · intro i _ inside
    simp only [parseItemsArray, List.getElem_mapIdx, List.getElem_map]
    exact parseItem_toJson (range _ (List.getElem_mem inside)) _

@[simp] theorem writes_append : writes (sent ++ new) = writes sent + writes new := List.countP_append

theorem OnlyTexts.append (only : OnlyTexts cloud texts sent) (onlyNew : OnlyTexts cloud texts new) :
    OnlyTexts cloud texts (sent ++ new) := by
  intro ex member
  rcases List.mem_append.mp member with before | behind
  · exact only ex before
  · exact onlyNew ex behind

/-- A request that writes to no clock. -/
theorem onlyTexts_read (cloud : Cloud) (texts : Set Text) {ex : Exchange}
    (reads : isWrite ex.request = false) : OnlyTexts cloud texts [ex] := by
  intro other member deviceId clockId user items isSet
  rw [List.mem_singleton.mp member] at isSet
  rw [isSet] at reads
  cases reads

theorem clockBehind_read {lib : JsonLib} {ex : Exchange} (reads : isWrite ex.request = false)
    (initial : List Item) (deviceId : Int) :
    clockBehind lib initial (sent ++ [ex]) deviceId = clockBehind lib initial sent deviceId := by
  rw [clockBehind, List.foldl_append]
  cases request : ex.request with
  | setConfig _ _ _ _ =>
    rw [request] at reads
    cases reads
  | _ => simp [request, clockBehind]

theorem clockBehind_reads {lib : JsonLib} (reads : ∀ ex ∈ new, isWrite ex.request = false)
    (initial : List Item) (deviceId : Int) :
    clockBehind lib initial (sent ++ new) deviceId = clockBehind lib initial sent deviceId := by
  induction new generalizing sent with
  | nil => rw [List.append_nil]
  | cons ex rest ih =>
    obtain ⟨first, later⟩ := List.forall_mem_cons.mp reads
    rw [List.append_cons, ih later, clockBehind_read first]

theorem clockBehind_write {lib : JsonLib} {clockId id : Int} {user : UserInfo} {items : List Item} {reply : Reply}
    (taken : receive (Handlers.setConfig lib) reply = some (some ())) (initial : List Item) (deviceId : Int) :
    clockBehind lib initial (sent ++ [⟨.setConfig id clockId user items, reply⟩]) deviceId =
      if id = deviceId then items else clockBehind lib initial sent deviceId := by
  simp [clockBehind, List.foldl_append, taken]

/-- A clock is as it was at first, or has one of the texts. -/
theorem clockBehind_cases (lib : JsonLib) (only : OnlyTexts cloud texts sent) (deviceId : Int) :
    clockBehind lib (cloud.clocks deviceId) sent deviceId = cloud.clocks deviceId ∨
      ∃ t ∈ texts, clockBehind lib (cloud.clocks deviceId) sent deviceId =
        (cloud.clocks deviceId).map (setItem t) := by
  induction sent using List.reverseRecOn with
  | nil => exact .inl rfl
  | append_singleton before ex ih =>
    have earlier := ih (fun other member => only other (List.mem_append_left _ member))
    rw [clockBehind, List.foldl_append]
    cases request : ex.request with
    | setConfig id clockId user items =>
      obtain ⟨t, inTexts, rfl⟩ := only ex (by simp) id clockId user items request
      simp only [List.foldl_cons, List.foldl_nil, request]
      split_ifs with taken
      · rw [taken.1]
        exact .inr ⟨t, inTexts, rfl⟩
      · exact earlier
    | _ =>
      simp only [List.foldl_cons, List.foldl_nil, request]
      exact earlier

theorem clockBehind_setItem {lib : JsonLib} (only : OnlyTexts cloud texts sent) (deviceId : Int) (value : Text) :
    (clockBehind lib (cloud.clocks deviceId) sent deviceId).map (setItem value) =
      (cloud.clocks deviceId).map (setItem value) := by
  rcases clockBehind_cases lib only deviceId with first | ⟨t, _, given⟩
  · rw [first]
  · simp [given, Function.comp_def]

theorem clockBehind_inRange {lib : JsonLib} (only : OnlyTexts cloud texts sent) {deviceId : Int}
    (range : ∀ item ∈ cloud.clocks deviceId, InRange item) :
    ∀ item ∈ clockBehind lib (cloud.clocks deviceId) sent deviceId, InRange item := by
  rcases clockBehind_cases lib only deviceId with first | ⟨t, _, given⟩
  · rwa [first]
  · rw [given]
    intro item member
    obtain ⟨original, inside, rfl⟩ := List.mem_map.mp member
    exact setItem_inRange (range original inside) t

/-! ## Calls under an honest cloud -/

section Honest
variable (utf8 : Utf8Lib env.lib) (honest : Honest env cloud texts)
include utf8 honest

omit utf8 in
theorem read_returned (only : OnlyTexts cloud texts sent) {dev : Device} (listed : dev ∈ cloud.devices)
    {user : UserInfo} (known : cloud.hasUser user) : Returned env.lib (readOf env user dev.id sent).reply
      ((clockBehind env.lib (cloud.clocks dev.id) sent dev.id).map Item.toJson) :=
  honest.read sent only dev listed user known

omit utf8 in
/-- The list that an update writes is the clock at first with the text in it. -/
theorem writtenItems_eq (only : OnlyTexts cloud texts sent) {dev : Device} (listed : dev ∈ cloud.devices)
    {user : UserInfo} (known : cloud.hasUser user) (value : Text) :
    writtenItems env user dev.id value sent = (cloud.clocks dev.id).map (setItem value) := by
  rw [writtenItems, configOf_returned (read_returned honest only listed known),
    parseItemsArray_toJson (clockBehind_inRange only (honest.inRange dev listed)),
    clockBehind_setItem only]

theorem updateDevice_follows (only : OnlyTexts cloud texts sent) {dev : Device} (listed : dev ∈ cloud.devices)
    {user : UserInfo} (known : cloud.hasUser user) (inTexts : value ∈ texts) (valid : ValidUtf8 value) :
    ∃ new, updateDevice env.client user dev.id value sent = some (.ok (), sent ++ new) ∧
      OnlyTexts cloud texts (sent ++ new) ∧ writes new = 1 ∧ ∀ deviceId,
        clockBehind env.lib (cloud.clocks deviceId) (sent ++ new) deviceId =
          if dev.id = deviceId then (cloud.clocks deviceId).map (setItem value)
          else clockBehind env.lib (cloud.clocks deviceId) sent deviceId := by
  have sends := updateDevice_sends utf8 user dev.id value sent
  have items := writtenItems_eq honest only listed known value
  have write : writeOf env user dev.id value sent =
      .setConfig dev.id currentClockId user ((cloud.clocks dev.id).map (setItem value)) := by
    rw [writeOf, items]
  have writable : ((writeOf env user dev.id value sent).body env.lib).isSome := by
    refine (setConfig_written utf8 _ _ _ _).mpr (fun item inside => ?_)
    obtain ⟨parsed, member, rfl⟩ := List.mem_map.mp inside
    have answered := read_returned honest only listed known
    rw [configOf_returned answered] at member
    exact (setItem_utf8 (returned_utf8 utf8 answered _ parsed member) value).mpr (fun _ => valid)
  rw [if_pos writable, write] at sends
  have reads : isWrite (readOf env user dev.id sent).request = false := rfl
  have onlyRead := only.append (onlyTexts_read cloud texts reads)
  have taken := honest.write _ onlyRead dev listed user known value inTexts
  refine ⟨_, sends, ?_, by simp [writes, isWrite, readOf], fun deviceId => ?_⟩
  · rw [List.append_cons]
    refine onlyRead.append (fun ex member deviceId clockId user' items' isSet => ?_)
    rw [List.mem_singleton.mp member] at isSet
    cases isSet
    exact ⟨value, inTexts, rfl⟩
  · rw [List.append_cons, clockBehind_write taken, clockBehind_read reads]
    split_ifs with same
    · rw [same]
    · rfl

theorem updateDevices_follows (only : OnlyTexts cloud texts sent) {devices : List Device}
    (listed : ∀ dev ∈ devices, dev ∈ cloud.devices) {user : UserInfo} (known : cloud.hasUser user)
    (inTexts : value ∈ texts) (valid : ValidUtf8 value) :
    ∃ new, updateDevices env.client user value devices sent = some (.ok (), sent ++ new) ∧
      OnlyTexts cloud texts (sent ++ new) ∧ writes new = devices.length ∧ ∀ deviceId,
        clockBehind env.lib (cloud.clocks deviceId) (sent ++ new) deviceId =
          if deviceId ∈ devices.map Device.id then (cloud.clocks deviceId).map (setItem value)
          else clockBehind env.lib (cloud.clocks deviceId) sent deviceId := by
  induction devices generalizing sent with
  | nil => exact ⟨[], by simp [updateDevices], by simpa using only, rfl, by simp⟩
  | cons dev rest ih =>
    obtain ⟨inCloud, restListed⟩ := List.forall_mem_cons.mp listed
    obtain ⟨first, here, onlyFirst, one, clocksFirst⟩ :=
      updateDevice_follows utf8 honest only inCloud known inTexts valid
    obtain ⟨later, onward, onlyLater, others, clocksLater⟩ := ih onlyFirst restListed
    refine ⟨first ++ later, by simp [updateDevices, here, onward], by rwa [← List.append_assoc],
      by simp [one, others, Nat.add_comm], fun deviceId => ?_⟩
    rw [← List.append_assoc, clocksLater, clocksFirst]
    by_cases inRest : deviceId ∈ rest.map Device.id
    · simp only [inRest, if_true, List.map_cons, List.mem_cons, or_true]
    · simp only [inRest, if_false, List.map_cons, List.mem_cons, or_false, eq_comm]

omit utf8 in
/-- New credentials log in as a user, and read the devices. -/
theorem updateCredentials_follows (only : OnlyTexts cloud texts sent) {login password : Text}
    (account : (cloud.accounts login password).isSome) {updater : DeviceUpdater}
    (differs : login ≠ updater.login_ ∨ password ≠ updater.password_) :
    ∃ user new, cloud.hasUser user ∧ (∀ ex ∈ new, isWrite ex.request = false) ∧
      updateCredentials env.client login password updater sent = some ({ updater with
        login_ := login
        password_ := password
        userInfo := some user
        devices := some cloud.devices }, sent ++ new) := by
  obtain ⟨user, found⟩ := Option.isSome_iff_exists.mp account
  obtain ⟨written, received⟩ := honest.login sent only login password user found
  obtain ⟨body, isBody⟩ := Option.isSome_iff_exists.mp written
  have onlyLogin := only.append (onlyTexts_read cloud texts
    (show isWrite (Exchange.request ⟨.login login (env.computeMd5 password),
      env.server sent (.login login (env.computeMd5 password))⟩) = false from rfl))
  have list := honest.list _ onlyLogin
  refine ⟨user, [
    ⟨.login login (env.computeMd5 password), env.server sent (.login login (env.computeMd5 password))⟩,
    ⟨.devices, env.server (sent ++ [⟨.login login (env.computeMd5 password),
      env.server sent (.login login (env.computeMd5 password))⟩]) .devices⟩],
    ⟨_, _, found⟩, by simp [isWrite], ?_⟩
  have devicesBody : ∃ text, (Request.devices).body env.lib = some text := ⟨_, rfl⟩
  obtain ⟨text, isText⟩ := devicesBody
  simp [updateCredentials, differs, Updater.login, Updater.getDevices, Env.client, Env.login, Env.getDevices,
    Env.execute, isBody, received, isText, list]

/-! ## Runs -/

/-- The updater and the clocks are as the board has it. -/
structure Follows (env : Env) (cloud : Cloud) (texts : Set Text) (hash : Text → UInt64) (board : Board)
    (p : Process) : Prop where
  only : OnlyTexts cloud texts p.sent
  clocks : ∀ deviceId, clockBehind env.lib (cloud.clocks deviceId) p.sent deviceId = board.clock cloud deviceId
  written : writes p.sent = board.written
  blank : board.shown = none → p.updater.previousTextHash = 0
  stored : ∀ t, board.shown = some t → t ∈ texts ∧ p.updater.previousTextHash = hash t
  attached : board.attached = true →
    p.updater.devices = some cloud.devices ∧ ∃ user, p.updater.userInfo = some user ∧ cloud.hasUser user
  apart : board.attached = false →
    p.updater.devices = none ∧ p.updater.login_ = [] ∧ p.updater.password_ = []

omit utf8 honest in
/-- What was served is not looked at. -/
theorem Follows.of_eq {hash : Text → UInt64} {board : Board} {p q : Process}
    (follows : Follows env cloud texts hash board p) (updater : q.updater = p.updater) (sent : q.sent = p.sent) :
    Follows env cloud texts hash board q := by
  obtain ⟨only, clocks, written, blank, stored, attached, apart⟩ := follows
  exact {
    only := sent ▸ only
    clocks := sent ▸ clocks
    written := sent ▸ written
    blank := updater ▸ blank
    stored := updater ▸ stored
    attached := updater ▸ attached
    apart := updater ▸ apart }

omit utf8 honest in
theorem follows_start (env : Env) (cloud : Cloud) (texts : Set Text) (hash : Text → UInt64) :
    Follows env cloud texts hash {} {} where
  only := fun ex member => by cases member
  clocks := fun _ => rfl
  written := rfl
  blank := fun _ => rfl
  stored := fun t shown => by cases shown
  attached := fun on => by cases on
  apart := fun _ => ⟨rfl, rfl, rfl⟩

variable {hash : Text → UInt64} {board : Board} {p : Process}

omit utf8 in
theorem step_credentials (follows : Follows env cloud texts hash board p) {login password : Text}
    (account : (cloud.accounts login password).isSome) :
    ∃ p', step env hash p (.updateCredentials login password) = some p' ∧
      Follows env cloud texts hash (board.step cloud.devices.length (.updateCredentials login password)) p' := by
  by_cases differs : login ≠ p.updater.login_ ∨ password ≠ p.updater.password_
  · obtain ⟨user, new, known, reads, updated⟩ := updateCredentials_follows honest follows.only account differs
    refine ⟨_, by rw [step, updated]; rfl, ?_⟩
    have quiet : writes new = 0 := by
      rw [writes, List.countP_eq_zero]
      exact fun ex member => by simp [reads ex member]
    have onlyNew : OnlyTexts cloud texts new := fun ex member =>
      onlyTexts_read cloud texts (reads ex member) ex (by simp)
    exact {
      only := follows.only.append onlyNew
      clocks := fun deviceId => (clockBehind_reads reads _ _).trans (follows.clocks deviceId)
      written := by rw [writes_append, quiet]; exact follows.written
      blank := follows.blank
      stored := follows.stored
      attached := fun _ => ⟨rfl, user, rfl, known⟩
      apart := fun off => by cases off }
  · -- without a login the updater has the empty credentials, which no user has
    have attached : board.attached = true := by
      by_contra off
      obtain ⟨_, noLogin, noPassword⟩ := follows.apart (by simpa using off)
      obtain ⟨rfl, rfl⟩ : login = [] ∧ password = [] := by simpa [noLogin, noPassword] using differs
      simp [honest.noEmptyLogin] at account
    have same : board.step cloud.devices.length (.updateCredentials login password) = board := by
      rw [Board.step, ← attached]
    refine ⟨p, ?_, same ▸ follows⟩
    rw [step, updateCredentials, if_neg differs]
    rfl

theorem step_text (injective : Set.InjOn hash texts) (nonzero : ∀ t ∈ texts, hash t ≠ 0)
    (follows : Follows env cloud texts hash board p) (inTexts : value ∈ texts) (valid : ValidUtf8 value) :
    ∃ p', step env hash p (.update value) = some p' ∧
      Follows env cloud texts hash (board.step cloud.devices.length (.update value)) p' := by
  have skipped : hash value = p.updater.previousTextHash ↔ board.shown = some value := by
    cases shown : board.shown with
    | none => simp [follows.blank shown, nonzero value inTexts]
    | some t =>
      obtain ⟨tInTexts, storedHash⟩ := follows.stored t shown
      rw [storedHash, Option.some.injEq]
      exact ⟨fun same => (injective inTexts tInTexts same).symm, fun same => by rw [same]⟩
  by_cases writing : board.attached = true ∧ board.shown ≠ some value
  · obtain ⟨listed, user, isUser, known⟩ := follows.attached writing.1
    obtain ⟨new, updated, only, count, clocks⟩ := updateDevices_follows utf8 honest follows.only
      (fun dev member => member) known inTexts valid
    have differs : hash value ≠ p.updater.previousTextHash := fun same => writing.2 (skipped.mp same)
    refine ⟨_, by simp only [step, update, if_neg differs, listed, isUser, updated]; rfl, ?_⟩
    rw [Board.step, if_pos writing]
    exact {
      only
      clocks := fun deviceId => by
        rw [clocks, Board.clock]
        split_ifs with inList
        · rfl
        · rw [follows.clocks, Board.clock]
          cases board.shown <;> simp [inList]
      written := by rw [writes_append, count, follows.written]
      blank := fun none => by cases none
      stored := fun t same => by cases same; exact ⟨inTexts, rfl⟩
      attached := fun _ => ⟨rfl, user, rfl, known⟩
      apart := fun off => by simp [writing.1] at off }
  · rw [Board.step, if_neg writing]
    refine ⟨p, ?_, follows⟩
    by_cases same : hash value = p.updater.previousTextHash
    · simp [step, update, looped, same]
    · have off : board.attached = false := by
        simpa [mt skipped.mpr same] using writing
      simp [step, update, looped, same, (follows.apart off).1]

theorem step_follows (injective : Set.InjOn hash texts) (nonzero : ∀ t ∈ texts, hash t ≠ 0)
    (follows : Follows env cloud texts hash board p) {call : Call} (proper : Proper cloud texts call) :
    ∃ p', step env hash p call = some p' ∧
      Follows env cloud texts hash (board.step cloud.devices.length call) p' := by
  cases call with
  | updateCredentials login password => exact step_credentials honest follows proper
  | update value => exact step_text utf8 honest injective nonzero follows proper.1 proper.2

theorem run_follows (injective : Set.InjOn hash texts) (nonzero : ∀ t ∈ texts, hash t ≠ 0)
    (follows : Follows env cloud texts hash board p) {calls : List Call}
    (proper : ∀ call ∈ calls, Proper cloud texts call) :
    ∃ p', run (step env hash) p calls = some p' ∧
      Follows env cloud texts hash (calls.foldl (Board.step cloud.devices.length) board) p' := by
  induction calls generalizing board p with
  | nil => exact ⟨p, rfl, follows⟩
  | cons call rest ih =>
    obtain ⟨here, later⟩ := List.forall_mem_cons.mp proper
    obtain ⟨p₁, stepped, follows₁⟩ := step_follows utf8 honest injective nonzero follows here
    obtain ⟨p₂, reached, follows₂⟩ := ih follows₁ later
    exact ⟨p₂, by rw [run, stepped]; exact reached, follows₂⟩

/-- Under an honest cloud the clocks show what the board shows, whatever calls are made in
whatever order; and they are written to just as often. -/
theorem displays_follow (injective : Set.InjOn hash texts) (nonzero : ∀ t ∈ texts, hash t ≠ 0)
    {calls : List Call} (proper : ∀ call ∈ calls, Proper cloud texts call) :
    ∃ p, run (step env hash) {} calls = some p ∧
      (∀ deviceId, clockBehind env.lib (cloud.clocks deviceId) p.sent deviceId =
        (calls.foldl (Board.step cloud.devices.length) {}).clock cloud deviceId) ∧
      writes p.sent = (calls.foldl (Board.step cloud.devices.length) {}).written := by
  obtain ⟨p, reached, follows⟩ := run_follows utf8 honest injective nonzero
    (follows_start env cloud texts hash) proper
  exact ⟨p, reached, follows.clocks, follows.written⟩

end Honest

end

/-! ## A cloud with one device -/

def oneDevice : Cloud where
  accounts login password := if login = text "u" ∧ password = text "p" then some ⟨7, 5⟩ else none
  devices := [⟨[], 1, [], [], 0⟩]
  clocks _ := [textItem (text "old")]

def emptyDay : Text := text " - Нет событий в календаре"

def clockAnswerOf (items : List Item) : Json :=
  .object [(text "ItemList", .array (items.map Item.toJson)), (text "ReturnCode", .integer 0)]

def oneDeviceLib : JsonLib :=
  utf8Lib ([loginAnswer, devicesAnswer, answerCode 0] ++
    [text "old", text "a", emptyDay].map (fun t => clockAnswerOf [textItem t]))

/-- It keeps what it is told and returns it. -/
def oneDeviceEnv : Env where
  lib := oneDeviceLib
  computeMd5 := id
  server sent request := .response 200 (match request with
    | .login _ _ => loginAnswer
    | .devices => devicesAnswer
    | .getConfig id _ _ => clockAnswerOf (clockBehind oneDeviceLib (oneDevice.clocks id) sent id)
    | .setConfig _ _ _ _ => answerCode 0).compact
  memory _ _ := (0, 0)

theorem oneDevice_honest : Honest oneDeviceEnv oneDevice {t | t = text "a" ∨ t = emptyDay} where
  noEmptyLogin := by decide +kernel
  inRange := by decide +kernel
  login sent only login password user found := by
    obtain ⟨⟨rfl, rfl⟩, rfl⟩ : (login = text "u" ∧ password = text "p") ∧ (⟨7, 5⟩ : UserInfo) = user := by
      simpa [oneDevice] using found
    exact ⟨by decide +kernel,
      show receive (Handlers.login oneDeviceLib) (.response 200 loginAnswer.compact) = _ by decide +kernel⟩
  list sent only :=
    show receive (Handlers.devices oneDeviceLib) (.response 200 devicesAnswer.compact) = _ by decide +kernel
  read sent only dev listed user known := by
    have answered : ∀ t ∈ [text "old", text "a", emptyDay],
        Handlers.parseJson oneDeviceLib (clockAnswerOf [textItem t]).compact =
          .ok (some (clockAnswerOf [textItem t])) := by decide +kernel
    have shows : ∃ t ∈ [text "old", text "a", emptyDay],
        clockBehind oneDeviceLib (oneDevice.clocks dev.id) sent dev.id = [textItem t] := by
      rcases clockBehind_cases oneDeviceLib only dev.id with first | ⟨t, inTexts, given⟩
      · exact ⟨text "old", by simp, first⟩
      · refine ⟨t, ?_, given.trans (by simp [oneDevice, setItem, textItem])⟩
        rcases inTexts with rfl | rfl <;> simp
    obtain ⟨t, inTexts, shows⟩ := shows
    refine ⟨_, clockAnswerOf [textItem t], ?_, answered t inTexts, ?_⟩
    · simp only [oneDeviceEnv, shows]
    · rw [show oneDeviceEnv.lib = oneDeviceLib from rfl, shows]
      rfl
  write sent only dev listed user known t inTexts :=
    show receive (Handlers.setConfig oneDeviceLib) (.response 200 (answerCode 0).compact) = _ by decide +kernel

theorem displays_follow_one_device :
    ∃ p, run (step oneDeviceEnv (fun t => if t = text "a" then 1 else 2)) {}
        [.updateCredentials (text "u") (text "p"), .update (text "a"), .update emptyDay] = some p ∧
      (∀ deviceId, clockBehind oneDeviceEnv.lib (oneDevice.clocks deviceId) p.sent deviceId =
        Board.clock ⟨true, some emptyDay, 2⟩ oneDevice deviceId) ∧
      writes p.sent = 2 :=
  displays_follow (show Utf8Lib oneDeviceEnv.lib from utf8Lib_utf8 _) oneDevice_honest
    (by rintro a (rfl | rfl) b (rfl | rfl) same <;> first | rfl | exact absurd same (by decide))
    (by rintro t (rfl | rfl) <;> decide)
    (by
      simp only [List.forall_mem_cons]
      exact ⟨show (oneDevice.accounts (text "u") (text "p")).isSome by decide, ⟨.inl rfl, by decide⟩,
        ⟨.inr rfl, by decide⟩, by simp⟩)

end DivoomDev.Service.Displays
