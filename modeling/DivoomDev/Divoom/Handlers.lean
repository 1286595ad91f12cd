import DivoomDev.Library.Fallible
import DivoomDev.Divoom.Models

/-! What the handlers make of the text of a reply: a result, nothing where `handle` returns
false, or a fault. -/

namespace DivoomDev.Divoom.Handlers
open DivoomDev.Library.Bytes DivoomDev.Library.JsonValues Models

/-- How a handler fails: it throws, or it follows the null pointer that `parse_json` returned. -/
inductive Fault where
  | raised (e : Exception)
  | nullPointer
  deriving DecidableEq, Repr

/-- The exceptions of the JSON library among those of a handler. -/
def read {α : Type} (x : Except JsonError α) : Except Fault α := x.mapError (fun _ => .raised .other)

/-! ## Return codes -/

def ok : Int := 0
def httpLoginErrorNoUser : Int := 4
def httpLoginErrorPassword : Int := 5
def httpErrorTokenMissmatch : Int := 11
def forbidenError : Int := 23

/-- `parse_json`; nothing stands for the null pointer. -/
def parseJson (lib : JsonLib) (data : Text) : Except Fault (Option Json) := do
  match lib.parse data with
  | .error .parseError => pure none
  | .error _ => .error (.raised .other)
  | .ok j =>
      let statusCode ← read (do (← j.field (text "ReturnCode")).getInt)
      if statusCode = ok then pure (some j)
      else if statusCode = httpLoginErrorNoUser then .error (.raised .wrongUser)
      else if statusCode = httpLoginErrorPassword then .error (.raised .wrongPassword)
      else if statusCode = httpErrorTokenMissmatch then .error (.raised .tokenExpired)
      else if statusCode = forbidenError then .error (.raised .tokenExpired)
      else do
        -- the message is read for the log
        let _ ← read (j.value Json.getString (text "ReturnMessage") (text "Unknown error"))
        pure none

/-! ## Handlers -/

def login (lib : JsonLib) (data : Text) : Except Fault (Option UserInfo) := do
  match ← parseJson lib data with
  | none => pure none
  | some j =>
      let userId ← read (do (← j.field (text "UserId")).getInt)
      let token ← read (do (← j.field (text "Token")).getInt)
      pure (some { token, userId })

def parseDeviceObject (j : Json) : Except JsonError Device := do
  let name ← j.value Json.getString (text "DeviceName") []
  let id ← j.value Json.getInt (text "DeviceId") 0
  let privateIp ← j.value Json.getString (text "DevicePrivateIP") []
  let mac ← j.value Json.getString (text "DeviceMac") []
  let hardware ← j.value Json.getInt (text "Hardware") 0
  pure { name, id, privateIp, mac, hardware }

/-- `devices::handle`, which does not check what `parse_json` returns. -/
def devices (lib : JsonLib) (data : Text) : Except Fault (Option (List Device)) := do
  match ← parseJson lib data with
  | none => .error .nullPointer
  | some j =>
      match (j.field (text "DeviceList")).toOption with
      | some (.array list) => pure (some (← read (list.mapM parseDeviceObject)))
      | _ => pure none

def numberMember? (j : Json) (key : String) : Option Int :=
  match (j.field (text key)).toOption with
  | some (.integer n) => some (Json.wrapInt n)
  | some (.float mantissa exponent) => some (Json.wrapInt (Json.wholePart mantissa exponent))
  | _ => none

def numberMember (j : Json) (key : String) (default : Int) : Int := (numberMember? j key).getD default

def stringMember (j : Json) (key : String) : Text :=
  match (j.field (text key)).toOption with
  | some (.string s) => s
  | _ => []

def stringItems : Json → List Text
  | .array items => items.filterMap (fun v => v.getString.toOption)
  | _ => []

/-- `parse_item`. The two numbers of an item are not initialised, so where a member is missing
they are what the memory held. -/
def parseItem (memory : Int × Int) (j : Json) : Item where
  invisible := numberMember j "Invisible" memory.1
  itemId := stringMember j "ItemId"
  itemName := stringMember j "ItemName"
  itemType := numberMember j "ItemType" memory.2
  itemValue := stringMember j "ItemValue"
  itemValueName := stringMember j "ItemValueName"
  showByOtherItemId := stringMember j "ShowByOtherItemId"
  showByOtherItemValue := stringMember j "ShowByOtherItemValue"
  controlOtherItemShow := stringItems (((j.field (text "ControlOtherItemShow")).toOption).getD .null)

/-- `parse_items_array`, where `memory` is what each item finds uninitialised. -/
def parseItemsArray (memory : Nat → Int × Int) : Option Json → List Item
  | some (.array items) => items.mapIdx (fun i j => parseItem (memory i) j)
  | _ => []

/-- `get_config::handle`; the second list is read behind the first. -/
def getConfig (lib : JsonLib) (memory : Nat → Int × Int) (data : Text) :
    Except Fault (Option ClockConfig) := do
  match ← parseJson lib data with
  | none => pure none
  | some j =>
      let itemList := parseItemsArray memory (j.field (text "ItemList")).toOption
      pure (some {
        albumShapePicId := some (stringMember j "AlbumShapePicId")
        authorUserId := numberMember? j "AuthorUserId"
        clockExPlain := some (stringMember j "ClockExPlain")
        isMyLike := numberMember j "IsMyLike" 0
        likeCnt := numberMember j "LikeCnt" 0
        deviceId := numberMember j "DeviceId" 0
        itemList
        itemList2 := parseItemsArray (fun i => memory (itemList.length + i))
          (j.field (text "ItemList2")).toOption })

def setConfig (lib : JsonLib) (data : Text) : Except Fault (Option Unit) := do
  pure ((← parseJson lib data).map (fun _ => ()))

/-! ## Null pointers -/

theorem read_checked {α : Type} (x : Except JsonError α) : read x ≠ .error .nullPointer := by
  cases x <;> simp [read, Except.mapError]

theorem bind_checked {α β : Type} {x : Except Fault α} {next : α → Except Fault β}
    (first : x ≠ .error .nullPointer) (later : ∀ a, next a ≠ .error .nullPointer) :
    x >>= next ≠ .error .nullPointer := by
  cases x with
  | error e => simpa [bind, Except.bind] using first
  | ok a => exact later a

theorem parseJson_checked (lib : JsonLib) (data : Text) : parseJson lib data ≠ .error .nullPointer := by
  unfold parseJson
  split
  · simp [pure, Except.pure]
  · simp
  · apply bind_checked (read_checked _)
    intro statusCode
    split_ifs
    · simp [pure, Except.pure]
    · simp
    · simp
    · simp
    · simp
    · exact bind_checked (read_checked _) (fun _ => by simp [pure, Except.pure])

theorem login_checked (lib : JsonLib) (data : Text) : login lib data ≠ .error .nullPointer := by
  apply bind_checked (parseJson_checked lib data)
  intro j
  cases j with
  | none => simp [pure, Except.pure]
  | some j => exact bind_checked (read_checked _) (fun _ => bind_checked (read_checked _) (fun _ => by
      simp [pure, Except.pure]))

theorem getConfig_checked (lib : JsonLib) (memory : Nat → Int × Int) (data : Text) :
    getConfig lib memory data ≠ .error .nullPointer := by
  apply bind_checked (parseJson_checked lib data)
  intro j
  cases j <;> simp [pure, Except.pure]

theorem setConfig_checked (lib : JsonLib) (data : Text) : setConfig lib data ≠ .error .nullPointer :=
  bind_checked (parseJson_checked lib data) (fun _ => by simp [pure, Except.pure])

end DivoomDev.Divoom.Handlers
