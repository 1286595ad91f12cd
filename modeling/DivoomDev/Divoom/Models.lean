import DivoomDev.Library.JsonValues

/-! The data of the Divoom cloud API: what the requests carry and what their answers hold. -/

namespace DivoomDev.Divoom.Models
open DivoomDev.Library.Bytes DivoomDev.Library.JsonValues

structure UserInfo where
  token : Int := 0
  userId : Int := 0
  deriving DecidableEq, Repr

structure Device where
  name : Text
  id : Int
  privateIp : Text
  mac : Text
  hardware : Int
  deriving DecidableEq, Repr

structure Item where
  invisible : Int
  itemId : Text := []
  itemName : Text := []
  itemType : Int
  itemValue : Text := []
  itemValueName : Text := []
  showByOtherItemId : Text := []
  showByOtherItemValue : Text := []
  controlOtherItemShow : List Text := []
  deriving DecidableEq, Repr

structure ClockConfig where
  albumShapePicId : Option Text := none
  authorUserId : Option Int := none
  clockExPlain : Option Text := none
  isMyLike : Int := 0
  likeCnt : Int := 0
  deviceId : Int := 0
  itemList : List Item := []
  itemList2 : List Item := []
  deriving DecidableEq, Repr

/-- The exceptions that a call of the client may end with. -/
inductive Exception where
  | tokenExpired
  | wrongUser
  | wrongPassword
  | other
  deriving DecidableEq, Repr

/-! ## Requests -/

/-- The requests to `/UserLogin` (with the MD5 of the password), `/Device/ReturnSameLANDevice`,
`/Channel/GetClockConfig` and `/Channel/SetClockConfig`. -/
inductive Request where
  | login (email password : Text)
  | devices
  | getConfig (deviceId clockId : Int) (user : UserInfo)
  | setConfig (deviceId clockId : Int) (user : UserInfo) (itemList : List Item)
  deriving DecidableEq, Repr

def Item.toJson (item : Item) : Json :=
  .object [(text "ControlOtherItemShow", .array (item.controlOtherItemShow.map Json.string)),
    (text "Invisible", .integer item.invisible), (text "ItemId", .string item.itemId),
    (text "ItemName", .string item.itemName), (text "ItemType", .integer item.itemType),
    (text "ItemValue", .string item.itemValue), (text "ItemValueName", .string item.itemValueName),
    (text "ShowByOtherItemId", .string item.showByOtherItemId),
    (text "ShowByOtherItemValue", .string item.showByOtherItemValue)]

namespace Request

/-- What a POST sends; the device list is a GET. -/
def command : Request → Option Json
  | .login email password => some (.object [(text "Command", .string (text "UserLogin")),
      (text "Email", .string email), (text "Language", .string (text "ru")),
      (text "Password", .string password), (text "TimeZone", .string (text "+3"))])
  | .devices => none
  | .getConfig deviceId clockId user => some (.object [(text "ClockId", .integer clockId),
      (text "Command", .string (text "Channel/GetClockConfig")), (text "DeviceId", .integer deviceId),
      (text "DeviceType", .string (text "Frame")), (text "Token", .integer user.token),
      (text "UserId", .integer user.userId)])
  | .setConfig deviceId clockId user itemList => some (.object [(text "ClockId", .integer clockId),
      (text "Command", .string (text "Channel/SetClockConfig")), (text "DeviceId", .integer deviceId),
      (text "ItemList", .array (itemList.map Item.toJson)), (text "Language", .string (text "ru")),
      (text "LcdIndependence", .integer 0), (text "LcdIndex", .integer 0),
      (text "PageIndex", .integer 0), (text "ParentClockId", .integer 0),
      (text "ParentItemId", .string (text "ru")), (text "Token", .integer user.token),
      (text "UserId", .integer user.userId)])

/-- `get_request`; nothing where the text cannot be written. -/
def body (lib : JsonLib) (request : Request) : Option Text :=
  match request.command with
  | none => some []
  | some j => lib.dump j

end Request

/-- What comes back for a request: a transport error, or a status and a text. -/
inductive Reply where
  | error
  | response (statusCode : Int) (body : Text)
  deriving DecidableEq, Repr

structure Exchange where
  request : Request
  reply : Reply
  deriving DecidableEq, Repr

end DivoomDev.Divoom.Models
