import DivoomDev.Divoom.Handlers

/-! The handlers that produce a result, with the member `result_` that they leave behind on each
of their ways out. -/

namespace DivoomDev.Divoom.Results
open DivoomDev.Library.Bytes DivoomDev.Library.JsonValues DivoomDev.Library.Fallible Models Handlers

/-! ## Data that the updater does not ask for -/

structure Clock where
  id : Int
  name : Text
  type : Int
  imagePixelId : Text
  position : Int
  deriving DecidableEq, Repr

structure Font where
  id : Int
  type : Int
  url : Text
  charSet : Text
  encryption : Text
  deriving DecidableEq, Repr

def parseClockObject (j : Json) : Except JsonError Clock := do
  let id ← j.value Json.getInt (text "ClockId") 0
  let name ← j.value Json.getString (text "ClockName") []
  let type ← j.value Json.getInt (text "ClockType") 0
  let imagePixelId ← j.value Json.getString (text "ImagePixelId") []
  let position ← j.value Json.getInt (text "Position") 0
  pure { id, name, type, imagePixelId, position }

def parseFontObject (j : Json) : Except JsonError Font := do
  let id ← j.value Json.getInt (text "id") 0
  let type ← j.value Json.getInt (text "type") 0
  let url ← j.value Json.getString (text "url") []
  let charSet ← j.value Json.getString (text "charSet") []
  let encryption ← j.value Json.getString (text "Encryption") []
  pure { id, type, url, charSet, encryption }

/-! ## Handling -/

/-- What `handle` does: it returns a truth value or fails, and leaves `result_`, which it empties
at the start. -/
structure Handled (α : Type) where
  outcome : Except Fault Bool
  result : Option α
  deriving Repr

/-- `get_result`, which takes the result away. -/
def getResult {α : Type} (result : Option α) : Except Exception α × Option α :=
  match result with
  | none => (.error .other, none)
  | some temp => (.ok temp, none)

/-- What the client sees of it: a result where `handle` returned true. -/
def Handled.received {α : Type} (handled : Handled α) : Except Fault (Option α) :=
  match handled.outcome with
  | .ok true => .ok handled.result
  | .ok false => .ok none
  | .error fault => .error fault

/-- A field of a result, which is assigned once it is read. -/
def readInt (j : Json) (key : String) : Except Fault Int := read (do (← j.field (text key)).getInt)

/-- `login::handle`, which engages `result_` in front of the two fields. -/
def handleLogin (lib : JsonLib) (data : Text) : Handled UserInfo :=
  match parseJson lib data with
  | .error fault => ⟨.error fault, none⟩
  | .ok none => ⟨.ok false, none⟩
  | .ok (some j) =>
      match readInt j "UserId" with
      | .error fault => ⟨.error fault, some {}⟩
      | .ok userId =>
          match readInt j "Token" with
          | .error fault => ⟨.error fault, some { userId }⟩
          | .ok token => ⟨.ok true, some { token, userId }⟩

section List
variable {α : Type} (key : String) (parseObject : Json → Except JsonError α)

/-- The loop over the items, which appends each to `result_`. -/
def handleItems : List α → List Json → Handled (List α)
  | result, [] => ⟨.ok true, some result⟩
  | result, item :: rest =>
      match read (parseObject item) with
      | .error fault => ⟨.error fault, some result⟩
      | .ok value => handleItems (result ++ [value]) rest

/-- The three handlers of lists, which do not check what `parse_json` returns. -/
def handleList (lib : JsonLib) (data : Text) : Handled (List α) :=
  match parseJson lib data with
  | .error fault => ⟨.error fault, none⟩
  | .ok none => ⟨.error .nullPointer, none⟩
  | .ok (some j) =>
      match (j.field (text key)).toOption with
      | some (.array list) => handleItems parseObject [] list
      | _ => ⟨.ok false, none⟩

end List

def handleDevices : JsonLib → Text → Handled (List Device) := handleList "DeviceList" parseDeviceObject

/-- `clock::get_list::handle`. -/
def handleClockList : JsonLib → Text → Handled (List Clock) := handleList "ClockList" parseClockObject

def handleFontList : JsonLib → Text → Handled (List Font) := handleList "FontList" parseFontObject

/-- `get_config::handle`, which assigns `result_` as a whole at its end. -/
def handleGetConfig (lib : JsonLib) (memory : Nat → Int × Int) (data : Text) : Handled ClockConfig :=
  match Handlers.getConfig lib memory data with
  | .error fault => ⟨.error fault, none⟩
  | .ok none => ⟨.ok false, none⟩
  | .ok (some config) => ⟨.ok true, some config⟩

/-! ## What the client sees -/

theorem handleLogin_received (lib : JsonLib) (data : Text) :
    (handleLogin lib data).received = Handlers.login lib data := by
  unfold handleLogin Handlers.login
  cases parseJson lib data with
  | error fault => rfl
  | ok parsed =>
    cases parsed with
    | none => rfl
    | some j =>
      dsimp only
      show Handled.received _ = readInt j "UserId" >>= fun userId => readInt j "Token" >>= fun token =>
        pure (some ({ token, userId } : UserInfo))
      cases readInt j "UserId" with
      | error fault => rfl
      | ok userId => cases readInt j "Token" <;> rfl

theorem handleItems_received {α : Type} (parseObject : Json → Except JsonError α) (result : List α)
    (items : List Json) : (handleItems parseObject result items).received =
      (read (items.mapM parseObject)).map (fun values => some (result ++ values)) := by
  induction items generalizing result with
  | nil => simp [handleItems, Handled.received, Handlers.read, Except.mapError, Except.map, pure, Except.pure]
  | cons item rest ih =>
    rw [handleItems, List.mapM_cons]
    cases parseObject item with
    | error e => rfl
    | ok value =>
      simp only [Handlers.read, Except.mapError, ih, bind, Except.bind]
      cases rest.mapM parseObject <;> simp [Except.map, pure, Except.pure]

theorem handleDevices_received (lib : JsonLib) (data : Text) :
    (handleDevices lib data).received = Handlers.devices lib data := by
  unfold handleDevices handleList Handlers.devices
  cases parseJson lib data with
  | error fault => rfl
  | ok parsed =>
    cases parsed with
    | none => rfl
    | some j =>
      simp only [bind, Except.bind]
      cases (j.field (text "DeviceList")).toOption with
      | none => rfl
      | some list =>
        cases list with
        | array items =>
          simp only [handleItems_received]
          cases read (items.mapM parseDeviceObject) <;> simp [Except.map, pure, Except.pure]
        | _ => rfl

/-! ## Sound handling -/

/-- `handle` returns true with a result that `get_result` takes, or returns false or throws
without one. -/
def Sound {α : Type} (handled : Handled α) : Prop :=
  (handled.outcome = .ok true ∧ ∃ value, getResult handled.result = (.ok value, none)) ∨
    (handled.outcome = .ok false ∧ handled.result = none) ∨
    ∃ e, handled.outcome = .error (.raised e) ∧ handled.result = none

def returnCode (j : Json) : Except JsonError Int := do (← j.field (text "ReturnCode")).getInt

/-- The body is JSON with the return code 0. -/
def Succeeded (lib : JsonLib) (data : Text) (j : Json) : Prop :=
  lib.parse data = .ok j ∧ returnCode j = .ok ok

/-- The body is no JSON, or has a return code for which nothing is thrown, and no message but a
text. -/
def Refused (lib : JsonLib) (data : Text) : Prop :=
  lib.parse data = .error .parseError ∨
    ∃ j code, lib.parse data = .ok j ∧ returnCode j = .ok code ∧
      code ∉ [ok, httpLoginErrorNoUser, httpLoginErrorPassword, httpErrorTokenMissmatch, forbidenError] ∧
      Returns (j.value Json.getString (text "ReturnMessage") (text "Unknown error"))

/-- What `parse_json` makes of a return code. -/
def ofCode (j : Json) (statusCode : Int) : Except Fault (Option Json) :=
  if statusCode = ok then pure (some j)
  else if statusCode = httpLoginErrorNoUser then .error (.raised .wrongUser)
  else if statusCode = httpLoginErrorPassword then .error (.raised .wrongPassword)
  else if statusCode = httpErrorTokenMissmatch then .error (.raised .tokenExpired)
  else if statusCode = forbidenError then .error (.raised .tokenExpired)
  else do
    let _ ← read (j.value Json.getString (text "ReturnMessage") (text "Unknown error"))
    pure none

theorem parseJson_of_parse {lib : JsonLib} {data : Text} {j : Json} (parsed : lib.parse data = .ok j) :
    parseJson lib data = read (returnCode j) >>= ofCode j := by
  rw [parseJson, parsed]
  rfl

theorem ofCode_some {j j' : Json} {code : Int} : ofCode j' code = .ok (some j) ↔ j' = j ∧ code = ok := by
  unfold ofCode
  split_ifs with isOk
  · simp [isOk, pure, Except.pure]
  all_goals simp [isOk]
  cases j'.value Json.getString (text "ReturnMessage") (text "Unknown error") <;>
    simp [Handlers.read, Except.mapError]

theorem ofCode_none {j : Json} {code : Int} : ofCode j code = .ok none ↔
    code ∉ [ok, httpLoginErrorNoUser, httpLoginErrorPassword, httpErrorTokenMissmatch, forbidenError] ∧
      Returns (j.value Json.getString (text "ReturnMessage") (text "Unknown error")) := by
  unfold ofCode
  split_ifs with isOk noUser password token forbidden
  · simp [isOk, pure, Except.pure]
  · simp [noUser]
  · simp [password]
  · simp [token]
  · simp [forbidden]
  · simp only [List.mem_cons, isOk, noUser, password, token, forbidden, List.not_mem_nil, or_self,
      not_false_eq_true, true_and]
    cases j.value Json.getString (text "ReturnMessage") (text "Unknown error") <;>
      simp [Handlers.read, Except.mapError, bind, Except.bind, pure, Except.pure]

theorem parseJson_some (lib : JsonLib) (data : Text) (j : Json) :
    parseJson lib data = .ok (some j) ↔ Succeeded lib data j := by
  cases parsed : lib.parse data with
  | error e => cases e <;> simp [parseJson, Succeeded, parsed, pure, Except.pure]
  | ok j' =>
    rw [parseJson_of_parse parsed, Succeeded, parsed]
    cases code : returnCode j' with
    | error e =>
      apply iff_of_false
      · simp [Handlers.read, Except.mapError, bind, Except.bind]
      · rintro ⟨same, returned⟩
        cases same
        cases code.symm.trans returned
    | ok code' =>
      rw [show (read (.ok code' : Except JsonError Int) >>= ofCode j') = ofCode j' code' from rfl, ofCode_some]
      apply Iff.intro
      · rintro ⟨rfl, rfl⟩
        exact ⟨rfl, code⟩
      · rintro ⟨same, returned⟩
        cases same
        exact ⟨rfl, Except.ok.inj (code.symm.trans returned)⟩

theorem parseJson_none (lib : JsonLib) (data : Text) :
    parseJson lib data = .ok none ↔ Refused lib data := by
  cases parsed : lib.parse data with
  | error e => cases e <;> simp [parseJson, Refused, parsed, pure, Except.pure]
  | ok j =>
    rw [parseJson_of_parse parsed, Refused, parsed]
    cases code : returnCode j with
    | error e =>
      apply iff_of_false
      · simp [Handlers.read, Except.mapError, bind, Except.bind]
      · rintro (clash | ⟨j', code', same, returned, _⟩)
        · cases clash
        · cases same
          cases code.symm.trans returned
    | ok code' =>
      rw [show (read (.ok code' : Except JsonError Int) >>= ofCode j) = ofCode j code' from rfl, ofCode_none]
      apply Iff.intro
      · exact fun given => .inr ⟨j, code', rfl, code, given⟩
      · rintro (clash | ⟨j', code'', same, returned, given⟩)
        · cases clash
        · cases same
          cases code.symm.trans returned
          exact given

theorem raised_of_error {α : Type} {x : Except Fault α} {fault : Fault} (checked : x ≠ .error .nullPointer)
    (failed : x = .error fault) : ∃ e, fault = .raised e := by
  cases fault with
  | raised e => exact ⟨e, rfl⟩
  | nullPointer => exact absurd failed checked

theorem sound_error {α : Type} {fault : Fault} (raised : ∃ e, fault = .raised e) :
    Sound (⟨.error fault, none⟩ : Handled α) := by
  obtain ⟨e, rfl⟩ := raised
  exact .inr (.inr ⟨e, rfl, rfl⟩)

/-- A failure that leaves a result is not sound. -/
theorem not_sound_error {α : Type} (fault : Fault) (value : α) :
    ¬Sound (⟨.error fault, some value⟩ : Handled α) := by
  rintro (⟨isTrue, _⟩ | ⟨isFalse, _⟩ | ⟨_, _, none⟩)
  · cases isTrue
  · cases isFalse
  · cases none

theorem sound_true {α : Type} (value : α) : Sound (⟨.ok true, some value⟩ : Handled α) :=
  .inl ⟨rfl, value, rfl⟩

theorem sound_false {α : Type} : Sound (⟨.ok false, none⟩ : Handled α) := .inr (.inl ⟨rfl, rfl⟩)

theorem handleLogin_sound (lib : JsonLib) (data : Text) : Sound (handleLogin lib data) ↔
    ∀ j, Succeeded lib data j → Returns (readInt j "UserId") ∧ Returns (readInt j "Token") := by
  simp only [← parseJson_some, handleLogin]
  cases parsed : parseJson lib data with
  | error fault => simp [sound_error (raised_of_error (parseJson_checked lib data) parsed)]
  | ok found =>
    cases found with
    | none => simp [sound_false]
    | some j =>
      simp only [Except.ok.injEq, Option.some.injEq, forall_eq']
      cases readInt j "UserId" with
      | error fault => simp [not_sound_error]
      | ok userId => cases readInt j "Token" <;> simp [not_sound_error, sound_true]

theorem handleItems_sound {α : Type} (parseObject : Json → Except JsonError α) (result : List α)
    (items : List Json) :
    Sound (handleItems parseObject result items) ↔ ∀ item ∈ items, Returns (parseObject item) := by
  induction items generalizing result with
  | nil => simp [handleItems, sound_true]
  | cons item rest ih =>
    rw [handleItems, List.forall_mem_cons]
    cases parseObject item with
    | error e => simp [Handlers.read, Except.mapError, not_sound_error]
    | ok value => simp [Handlers.read, Except.mapError, ih]

theorem handleList_sound {α : Type} (key : String) (parseObject : Json → Except JsonError α) (lib : JsonLib)
    (data : Text) : Sound (handleList key parseObject lib data) ↔
      ¬Refused lib data ∧ ∀ j, Succeeded lib data j → ∀ list, j.field (text key) = .ok (.array list) →
        ∀ item ∈ list, Returns (parseObject item) := by
  simp only [← parseJson_some, ← parseJson_none, handleList]
  cases parsed : parseJson lib data with
  | error fault => simp [sound_error (raised_of_error (parseJson_checked lib data) parsed)]
  | ok found =>
    cases found with
    | none => simp [Sound]
    | some j =>
      simp only [Except.ok.injEq, Option.some.injEq, reduceCtorEq, not_false_eq_true, true_and, forall_eq']
      cases field : j.field (text key) with
      | error e => simp [Except.toOption, sound_false]
      | ok v =>
        cases v with
        | array items => simp [Except.toOption, handleItems_sound]
        | _ => simp [Except.toOption, sound_false]

theorem handleGetConfig_sound (lib : JsonLib) (memory : Nat → Int × Int) (data : Text) :
    Sound (handleGetConfig lib memory data) := by
  unfold handleGetConfig
  cases got : Handlers.getConfig lib memory data with
  | error fault => exact sound_error (raised_of_error (getConfig_checked lib memory data) got)
  | ok result =>
    cases result with
    | none => exact sound_false
    | some config => exact sound_true config

/-- Each of the five handlers is sound exactly where the fields that it does not check can be
read, and the three of lists where `parse_json` returns no null pointer too. -/
theorem handle_sound_iff (lib : JsonLib) (memory : Nat → Int × Int) (data : Text) :
    (Sound (handleLogin lib data) ↔
      ∀ j, Succeeded lib data j → Returns (readInt j "UserId") ∧ Returns (readInt j "Token")) ∧
    (Sound (handleDevices lib data) ↔ ¬Refused lib data ∧ ∀ j, Succeeded lib data j →
      ∀ list, j.field (text "DeviceList") = .ok (.array list) → ∀ item ∈ list, Returns (parseDeviceObject item)) ∧
    (Sound (handleClockList lib data) ↔ ¬Refused lib data ∧ ∀ j, Succeeded lib data j →
      ∀ list, j.field (text "ClockList") = .ok (.array list) → ∀ item ∈ list, Returns (parseClockObject item)) ∧
    (Sound (handleFontList lib data) ↔ ¬Refused lib data ∧ ∀ j, Succeeded lib data j →
      ∀ list, j.field (text "FontList") = .ok (.array list) → ∀ item ∈ list, Returns (parseFontObject item)) ∧
    Sound (handleGetConfig lib memory data) :=
  ⟨handleLogin_sound lib data, handleList_sound _ _ lib data, handleList_sound _ _ lib data,
    handleList_sound _ _ lib data, handleGetConfig_sound lib memory data⟩

/-- The device list follows the null pointer of a body that is no JSON. -/
theorem empty_body_followed :
    ¬∀ (lib : JsonLib) (memory : Nat → Int × Int) (data : Text), Sound (handleLogin lib data) ∧
      Sound (handleDevices lib data) ∧ Sound (handleClockList lib data) ∧
      Sound (handleFontList lib data) ∧ Sound (handleGetConfig lib memory data) := by
  intro always
  rcases (always (compactLib []) (fun _ => (0, 0)) []).2.1 with ⟨isTrue, _⟩ | ⟨isFalse, _⟩ | ⟨_, raised, _⟩
  · cases isTrue
  · cases isFalse
  · cases raised

def userAlone : Json := .object [(text "ReturnCode", .integer 0), (text "UserId", .integer 5)]

/-- A login without a token throws with a result that it has begun. -/
example : (handleLogin (compactLib [userAlone]) userAlone.compact).result = some ⟨0, 5⟩ := by decide +kernel

end DivoomDev.Divoom.Results
