import DivoomDev.Divoom.Results

/-! The commands that go to a device itself, at its own address: what is sent of each, that a
device can tell them apart, and what the client makes of the replies. -/

namespace DivoomDev.Divoom.DeviceCommands
open DivoomDev.Library.Bytes DivoomDev.Library.JsonValues DivoomDev.Library.Fallible Models Handlers Results

/-! ## Commands -/

inductive DisplayType where
  | text
  | image
  | netData
  | time
  | date
  | weather
  | temperature
  | monYear
  | mday
  | year
  | month
  | week
  deriving DecidableEq, Repr

structure Display where
  id : Int := 0
  textMessage : Text := []
  deriving DecidableEq, Repr

/-- `display_rendered`, with its member `Type` as `typeText`. -/
structure DisplayRendered extends Display where
  type : DisplayType := .text
  typeText : Text := text "Text"
  startX : Int := 0
  startY : Int := 0
  width : Int := 0
  height : Int := 0
  align : Int := 0
  fontColor : Text := text "#FFFFFF"
  bgColor : Text := text "#000000"
  fontSize : Int := 0
  fontId : Int := 0
  url : Text := []
  ruleInfo : Text := []
  requestTime : Int := 30
  deriving DecidableEq, Repr

/-- The calls of the client with the address of a device. -/
inductive DeviceCall where
  | doReboot
  | doTurnScreen (turnOn : Int)
  | getAllConf
  | getClockInfo
  | getIndex
  | setBrightness (brightness : Int)
  | setHighLight (mode : Int)
  | setMirror (mode : Int)
  | setTimeFormat (mode : Int)
  | setClockId (clockId : Int)
  | patchClockInfo (patchList : List DisplayRendered)
  | customControlEnter (displayList : List DisplayRendered) (backgroudImageAddr : Text) (backgroudImageLocalFlag : Int)
  | customControlExit
  | customControlUpdateText (displayList : List Display)
  deriving DecidableEq, Repr

def Display.toJson (d : Display) : Json :=
  .object [(text "ID", .integer d.id), (text "TextMessage", .string d.textMessage)]

/-- Neither the alignment nor the enumerator is sent. -/
def DisplayRendered.toJson (d : DisplayRendered) : Json :=
  .object [(text "BgColor", .string d.bgColor), (text "FontColor", .string d.fontColor),
    (text "FontID", .integer d.fontId), (text "FontSize", .integer d.fontSize), (text "Height", .integer d.height),
    (text "ID", .integer d.id), (text "RequestTime", .integer d.requestTime), (text "RuleInfo", .string d.ruleInfo),
    (text "StartX", .integer d.startX), (text "StartY", .integer d.startY),
    (text "TextMessage", .string d.textMessage), (text "Type", .string d.typeText), (text "Url", .string d.url),
    (text "Width", .integer d.width)]

/-- A request that is the structure `command` and no more, or is written as that. -/
def plainCommand (name : String) : Json :=
  .object [(text "Command", .string (text name)), (text "ReturnCode", .integer 0), (text "ReturnMessage", .string [])]

def modeCommand (name : String) (mode : Int) : Json :=
  .object [(text "Command", .string (text name)), (text "Mode", .integer mode)]

/-- What the handler of the call has as its request. -/
def DeviceCall.command : DeviceCall → Json
  | doReboot => plainCommand "Device/SysReboot"
  | doTurnScreen turnOn =>
      .object [(text "Command", .string (text "Channel/OnOffScreen")), (text "OnOff", .integer turnOn)]
  | getAllConf => plainCommand "Channel/GetConfig"
  | getClockInfo => plainCommand "Device/GetLocalClockInfo"
  | getIndex => plainCommand "Channel/GetIndex"
  | setBrightness brightness =>
      .object [(text "Brightness", .integer brightness), (text "Command", .string (text "Channel/SetBrightness"))]
  | setHighLight mode => modeCommand "Device/SetHighLightMode" mode
  | setMirror mode => modeCommand "Device/SetMirrorMode" mode
  | setTimeFormat mode => modeCommand "Device/SetTime24Flag" mode
  | setClockId clockId =>
      .object [(text "ClockId", .integer clockId), (text "Command", .string (text "Channel/SetClockSelectId"))]
  | patchClockInfo patchList =>
      -- the name is that of the query for the clock
      .object [(text "Command", .string (text "Device/GetLocalClockInfo")),
        (text "ItemPatchList", .array (patchList.map DisplayRendered.toJson)),
        (text "UseCurrentDisplayClock", .boolean true)]
  | customControlEnter displayList backgroudImageAddr backgroudImageLocalFlag =>
      .object [(text "BackgroudImageAddr", .string backgroudImageAddr),
        (text "BackgroudImageLocalFlag", .integer backgroudImageLocalFlag),
        (text "Command", .string (text "Device/EnterCustomControlMode")),
        (text "DispList", .array (displayList.map DisplayRendered.toJson))]
  | customControlExit => plainCommand "Device/ExitCustomControlMode"
  | customControlUpdateText displayList =>
      .object [(text "Command", .string (text "Device/UpdateDisplayItems")),
        (text "DispList", .array (displayList.map Display.toJson))]

/-! ## The client -/

/-- One exchange with a device. -/
structure DeviceExchange where
  path : Text
  body : Text
  reply : Reply
  deriving DecidableEq, Repr

/-- The JSON library and the devices, which may answer by all exchanges so far. -/
structure DeviceEnv where
  lib : JsonLib
  device : List DeviceExchange → Text → Text → Reply

def getPath (host : Text) : Text := text "http://" ++ host ++ text ":9000/divoom_api"

/-- `handle` of these handlers, in `execute`: true where `parse_json` returned something. -/
def acknowledged (lib : JsonLib) : Reply → Bool
  | .error => false
  | .response statusCode body =>
      statusCode = 200 && (match parseJson lib body with
        | .ok (some _) => true
        | _ => false)

/-- The constructor of its handler writes the request as text for the log. -/
def DeviceCall.logsRequest : DeviceCall → Bool
  | customControlEnter _ _ _ => true
  | _ => false

/-- `execute`, and in front of it the constructor of the handler, whose exceptions it does not
catch. Where the request cannot be written as text, none is sent. -/
def DeviceEnv.execute (env : DeviceEnv) (sent : List DeviceExchange) (host : Text) (call : DeviceCall) :
    Except Exception Bool × List DeviceExchange :=
  match env.lib.dump call.command with
  | none => (if call.logsRequest then .error .other else .ok false, sent)
  | some body =>
      let reply := env.device sent (getPath host) body
      (.ok (acknowledged env.lib reply), sent ++ [⟨getPath host, body, reply⟩])

/-- The results of calls one after the other, and the exchanges that they add. -/
def DeviceEnv.executeAll (env : DeviceEnv) (sent : List DeviceExchange) :
    List (Text × DeviceCall) → List (Except Exception Bool) × List DeviceExchange
  | [] => ([], sent)
  | (host, call) :: rest =>
      let (result, sent) := env.execute sent host call
      let (results, sent) := env.executeAll sent rest
      (result :: results, sent)

/-! ## What a device can read -/

def numberAt (key : String) (j : Json) : Except JsonError Int := do
  match ← j.field (text key) with
  | .integer n => pure n
  | _ => .error .typeError

def textAt (key : String) (j : Json) : Except JsonError Text := do (← j.field (text key)).getString

def listAt {α : Type} (key : String) (readItem : Json → Except JsonError α) (j : Json) : Except JsonError (List α) := do
  match ← j.field (text key) with
  | .array items => items.mapM readItem
  | _ => .error .typeError

def readDisplay (j : Json) : Except JsonError Display := do
  pure { id := ← numberAt "ID" j, textMessage := ← textAt "TextMessage" j }

def readDisplayRendered (j : Json) : Except JsonError DisplayRendered := do
  pure {
    id := ← numberAt "ID" j
    textMessage := ← textAt "TextMessage" j
    typeText := ← textAt "Type" j
    startX := ← numberAt "StartX" j
    startY := ← numberAt "StartY" j
    width := ← numberAt "Width" j
    height := ← numberAt "Height" j
    fontColor := ← textAt "FontColor" j
    bgColor := ← textAt "BgColor" j
    fontSize := ← numberAt "FontSize" j
    fontId := ← numberAt "FontID" j
    url := ← textAt "Url" j
    ruleInfo := ← textAt "RuleInfo" j
    requestTime := ← numberAt "RequestTime" j }

/-- The call that a request stands for. Its name alone does not tell, as two calls share one. -/
def readCall (j : Json) : Except JsonError DeviceCall := do
  let name ← textAt "Command" j
  if name = text "Device/SysReboot" then pure .doReboot
  else if name = text "Channel/OnOffScreen" then pure (.doTurnScreen (← numberAt "OnOff" j))
  else if name = text "Channel/GetConfig" then pure .getAllConf
  else if name = text "Channel/GetIndex" then pure .getIndex
  else if name = text "Channel/SetBrightness" then pure (.setBrightness (← numberAt "Brightness" j))
  else if name = text "Device/SetHighLightMode" then pure (.setHighLight (← numberAt "Mode" j))
  else if name = text "Device/SetMirrorMode" then pure (.setMirror (← numberAt "Mode" j))
  else if name = text "Device/SetTime24Flag" then pure (.setTimeFormat (← numberAt "Mode" j))
  else if name = text "Channel/SetClockSelectId" then pure (.setClockId (← numberAt "ClockId" j))
  else if name = text "Device/EnterCustomControlMode" then
    pure (.customControlEnter (← listAt "DispList" readDisplayRendered j) (← textAt "BackgroudImageAddr" j)
      (← numberAt "BackgroudImageLocalFlag" j))
  else if name = text "Device/ExitCustomControlMode" then pure .customControlExit
  else if name = text "Device/UpdateDisplayItems" then
    pure (.customControlUpdateText (← listAt "DispList" readDisplay j))
  else if j.contains (text "ItemPatchList") then
    pure (.patchClockInfo (← listAt "ItemPatchList" readDisplayRendered j))
  else pure .getClockInfo

/-- The widget as far as it is sent. -/
def DisplayRendered.seen (d : DisplayRendered) : DisplayRendered := { d with align := 0, type := .text }

def DeviceCall.seen : DeviceCall → DeviceCall
  | patchClockInfo patchList => .patchClockInfo (patchList.map DisplayRendered.seen)
  | customControlEnter displayList addr flag => .customControlEnter (displayList.map DisplayRendered.seen) addr flag
  | call => call

theorem readDisplayRendered_toJson (d : DisplayRendered) : readDisplayRendered d.toJson = .ok d.seen := rfl

theorem readDisplay_toJson (d : Display) : readDisplay d.toJson = .ok d := rfl

theorem mapM_rendered (list : List DisplayRendered) :
    (list.map DisplayRendered.toJson).mapM readDisplayRendered = .ok (list.map DisplayRendered.seen) := by
  induction list with
  | nil => rfl
  | cons d rest ih =>
    rw [List.map_cons, List.mapM_cons, readDisplayRendered_toJson, ih]
    rfl

theorem mapM_displays (list : List Display) : (list.map Display.toJson).mapM readDisplay = .ok list :=
  mapM_map (fun d _ => readDisplay_toJson d)

/-- Every request can be told from every other one, with all that it carries. -/
theorem readCall_command (call : DeviceCall) : readCall call.command = .ok call.seen := by
  cases call with
  | patchClockInfo list =>
    show ((list.map DisplayRendered.toJson).mapM readDisplayRendered).map DeviceCall.patchClockInfo = _
    rw [mapM_rendered]
    rfl
  | customControlEnter list addr flag =>
    show ((list.map DisplayRendered.toJson).mapM readDisplayRendered).map
      (fun read => DeviceCall.customControlEnter read addr flag) = _
    rw [mapM_rendered]
    rfl
  | customControlUpdateText list =>
    show ((list.map Display.toJson).mapM readDisplay).map DeviceCall.customControlUpdateText = _
    rw [mapM_displays]
    rfl
  | _ => rfl

/-! ## Runs of calls -/

/-- A reply that stands for success. -/
def Acknowledges (lib : JsonLib) (reply : Reply) : Prop :=
  ∃ body j, reply = .response 200 body ∧ Succeeded lib body j

theorem acknowledged_iff (lib : JsonLib) (reply : Reply) :
    acknowledged lib reply = true ↔ Acknowledges lib reply := by
  cases reply with
  | error => simp [acknowledged, Acknowledges]
  | response statusCode body =>
    by_cases good : statusCode = 200
    · subst good
      have found : acknowledged lib (.response 200 body) = true ↔ ∃ j, parseJson lib body = .ok (some j) := by
        cases parsed : parseJson lib body with
        | error e => simp [acknowledged, parsed]
        | ok j? => cases j? <;> simp [acknowledged, parsed]
      rw [found]
      simp only [parseJson_some]
      apply Iff.intro
      · rintro ⟨j, succeeded⟩
        exact ⟨body, j, rfl, succeeded⟩
      · rintro ⟨_, j, same, succeeded⟩
        cases same
        exact ⟨j, succeeded⟩
    · simp [acknowledged, Acknowledges, good]

/-- Calls, what they return and what the devices get: each call that can be written arrives at its
device as itself, and returns true exactly for a reply that stands for success. -/
inductive Served (lib : JsonLib) :
    List (Text × DeviceCall) → List (Except Exception Bool) → List DeviceExchange → Prop where
  | done : Served lib [] [] []
  | unwritten {host call rest results log} (fails : lib.dump call.command = none) (later : Served lib rest results log) :
      Served lib ((host, call) :: rest) ((if call.logsRequest then .error .other else .ok false) :: results) log
  | arrived {host call rest results log} {result : Bool} {ex : DeviceExchange} (path : ex.path = getPath host)
      (read : (lib.parse ex.body >>= readCall) = .ok call.seen) (answer : result = true ↔ Acknowledges lib ex.reply)
      (later : Served lib rest results log) : Served lib ((host, call) :: rest) (.ok result :: results) (ex :: log)

/-- Whatever the devices answer, every run of calls is served. -/
theorem executeAll_served {env : DeviceEnv} (roundTrips : RoundTrips env.lib) (calls : List (Text × DeviceCall))
    (sent : List DeviceExchange) :
    ∃ log, (env.executeAll sent calls).2 = sent ++ log ∧ Served env.lib calls (env.executeAll sent calls).1 log := by
  induction calls generalizing sent with
  | nil => exact ⟨[], (List.append_nil sent).symm, .done⟩
  | cons first rest ih =>
    obtain ⟨host, call⟩ := first
    simp only [DeviceEnv.executeAll, DeviceEnv.execute]
    cases written : env.lib.dump call.command with
    | none =>
      obtain ⟨log, grown, served⟩ := ih sent
      exact ⟨log, grown, .unwritten written served⟩
    | some body =>
      obtain ⟨log, grown, served⟩ := ih (sent ++ [⟨getPath host, body, env.device sent (getPath host) body⟩])
      refine ⟨_ :: log, by rw [grown, List.append_assoc]; rfl, .arrived rfl ?_ (acknowledged_iff _ _) served⟩
      rw [roundTrips _ _ written]
      exact readCall_command call

def brightCalls : List (Text × DeviceCall) := [(text "10.0.0.7", .setBrightness 40), (text "10.0.0.7", .doReboot)]

/-- A device that is gone once it reboots. -/
def brightEnv : DeviceEnv where
  lib := compactLib [(DeviceCall.setBrightness 40).command, DeviceCall.doReboot.command,
    .object [(text "ReturnCode", .integer 0)]]
  device sent _ _ :=
    if sent = [] then .response 200 (Json.object [(text "ReturnCode", .integer 0)]).compact else .error

theorem executeAll_served_reboot :
    (brightEnv.executeAll [] brightCalls).1 = [.ok true, .ok false] ∧
      ∃ log, (brightEnv.executeAll [] brightCalls).2 = [] ++ log ∧
        Served brightEnv.lib brightCalls (brightEnv.executeAll [] brightCalls).1 log :=
  ⟨by decide +kernel, executeAll_served (tableLib_roundTrips (by decide +kernel)) brightCalls []⟩

end DivoomDev.Divoom.DeviceCommands
