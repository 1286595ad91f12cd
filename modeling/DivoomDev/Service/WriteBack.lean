import DivoomDev.Service.Updater

/-! What an update writes to the clock of a device, next to what it read there. -/

namespace DivoomDev.Service.WriteBack
open DivoomDev.Library.Bytes DivoomDev.Library.JsonValues DivoomDev.Library.JsonValues.Json
  DivoomDev.Library.Fallible DivoomDev.Divoom DivoomDev.Divoom.Models DivoomDev.Divoom.Handlers
  DivoomDev.Divoom.Client Updater

/-- A JSON library that writes and reads text in UTF-8 and no other. -/
structure Utf8Lib (lib : JsonLib) : Prop where
  dumps : ∀ j, (lib.dump j).isSome ↔ EachText ValidUtf8 j
  parses : ∀ content j, lib.parse content = .ok j → EachText ValidUtf8 j

/-- An item as it was returned, but for the value where its type is 25. -/
def SameItem (returned written : Json) : Prop :=
  returned = written ∨
    ∃ members v, returned = .object members ∧ member members (text "ItemType") = some (.integer 25) ∧
      written = .object (setMember members (text "ItemValue") v)

/-- A reply to GetClockConfig that the client reads, with the list of items in it. -/
def Returned (lib : JsonLib) (reply : Reply) (items : List Json) : Prop :=
  ∃ content j, reply = .response 200 content ∧ parseJson lib content = .ok (some j) ∧
    j.field (text "ItemList") = .ok (.array items)

/-- Each SetClockConfig is right behind a GetClockConfig for its device, and carries the list
that was returned there, with other values at most in items of type 25. -/
def WritesBack (lib : JsonLib) (exchanges : List Exchange) : Prop :=
  ∀ earlier ex later deviceId clockId user written, exchanges = earlier ++ ex :: later →
    ex.request = .setConfig deviceId clockId user written →
    ∃ before read clockId' user' returned, earlier = before ++ [read] ∧
      read.request = .getConfig deviceId clockId' user' ∧ Returned lib read.reply returned ∧
      List.Forall₂ SameItem returned (written.map Item.toJson)

/-! ## One item -/

theorem SameItem.field {returned written : Json} (same : SameItem returned written) {key : Text}
    (other : text "ItemValue" ≠ key) : returned.field key = written.field key := by
  rcases same with rfl | ⟨members, v, rfl, _, rfl⟩
  · rfl
  · simp only [Json.field, member_setMember, if_neg other]

theorem toJson_members (item : Item) : ∃ members, item.toJson = .object members ∧
    member members (text "ItemType") = some (.integer item.itemType) ∧
    ∀ value, ({ item with itemValue := value } : Item).toJson =
      .object (setMember members (text "ItemValue") (.string value)) :=
  ⟨_, rfl, rfl, fun _ => rfl⟩

/-- The numbers of an item are `int`. -/
def InRange (item : Item) : Prop :=
  (intMin ≤ item.invisible ∧ item.invisible ≤ intMax) ∧ (intMin ≤ item.itemType ∧ item.itemType ≤ intMax)

instance : DecidablePred InRange := fun _ => inferInstanceAs (Decidable (_ ∧ _))

/-- An item that the client reads whole: an object of its nine members with their types, where
the value may be anything if the type is 25. -/
def Known (j : Json) : Prop := ∃ item, InRange item ∧ SameItem j (Item.toJson item)

theorem parseItem_same {j : Json} {item : Item} (same : SameItem j item.toJson) (memory : Int × Int) :
    parseItem memory j = { item with
      invisible := wrapInt item.invisible
      itemType := wrapInt item.itemType
      itemValue := stringMember j "ItemValue" } := by
  have read (key : String) (other : text "ItemValue" ≠ text key) := same.field other
  simp only [parseItem, numberMember, numberMember?, read "Invisible" (by decide),
    read "ItemType" (by decide)]
  simp only [stringMember, read "ItemId" (by decide), read "ItemName" (by decide),
    read "ItemValueName" (by decide), read "ShowByOtherItemId" (by decide),
    read "ShowByOtherItemValue" (by decide), read "ControlOtherItemShow" (by decide)]
  have strings (items : List Text) : stringItems (.array (items.map Json.string)) = items := by
    simp [stringItems, Json.getString, pure, Except.pure, Except.toOption]
  have shown : ((item.toJson.field (text "ControlOtherItemShow")).toOption).getD .null =
      .array (item.controlOtherItemShow.map Json.string) := rfl
  rw [shown, strings]
  rfl

/-- The loop over the items in `update_device`. -/
def setItem (value : Text) (item : Item) : Item :=
  if item.itemType = 25 then { item with itemValue := value } else item

theorem known_of_same {value : Text} {memory : Int × Int} {j : Json}
    (same : SameItem j (setItem value (parseItem memory j)).toJson) : Known j := by
  have read := parseItem_same same memory
  have invisible : (setItem value (parseItem memory j)).invisible = (parseItem memory j).invisible := by
    unfold setItem
    split_ifs <;> rfl
  have itemType : (setItem value (parseItem memory j)).itemType = (parseItem memory j).itemType := by
    unfold setItem
    split_ifs <;> rfl
  refine ⟨_, ⟨?_, ?_⟩, same⟩
  · rw [invisible, read]
    exact wrapInt_range _
  · rw [itemType, read]
    exact wrapInt_range _

theorem same_of_known {j : Json} (known : Known j) (value : Text) (memory : Int × Int) :
    SameItem j (setItem value (parseItem memory j)).toJson := by
  obtain ⟨item, ⟨invisible, itemType⟩, same⟩ := known
  have read := parseItem_same same memory
  rw [wrapInt_eq invisible, wrapInt_eq itemType] at read
  obtain ⟨members, whole, typed, setValue⟩ := toJson_members item
  by_cases isText : item.itemType = 25
  · have written : setItem value (parseItem memory j) = { item with itemValue := value } := by
      rw [read, setItem, if_pos isText]
    rw [isText] at typed
    rw [written, setValue]
    rcases same with rfl | ⟨others, v, rfl, typed', changed⟩
    · exact .inr ⟨members, _, whole, typed, rfl⟩
    · rw [whole, Json.object.injEq] at changed
      rw [changed, setMember_setMember]
      exact .inr ⟨others, _, rfl, typed', rfl⟩
  · have written : setItem value (parseItem memory j) =
        { item with itemValue := stringMember j "ItemValue" } := by
      rw [read, setItem, if_neg isText]
    rcases same with rfl | ⟨others, v, rfl, typed', changed⟩
    · rw [written]
      exact .inl rfl
    · rw [whole, Json.object.injEq] at changed
      rw [changed, member_setMember, if_neg (by decide), typed'] at typed
      exact absurd (Json.integer.inj (Option.some.inj typed)).symm isText

/-- Written back, an item is as it was returned exactly when the client reads all of it. -/
theorem same_iff_known (value : Text) (memory : Int × Int) (j : Json) :
    SameItem j (setItem value (parseItem memory j)).toJson ↔ Known j :=
  ⟨known_of_same, fun known => same_of_known known value memory⟩

/-! ## The list -/

theorem list_same_iff (value : Text) (memory : Nat → Int × Int) (returned : List Json) :
    List.Forall₂ SameItem returned
        (((parseItemsArray memory (some (.array returned))).map (setItem value)).map Item.toJson) ↔
      ∀ j ∈ returned, Known j := by
  simp only [parseItemsArray, List.forall₂_iff_get, List.length_map, List.length_mapIdx, true_and,
    List.get_eq_getElem, List.getElem_map, List.getElem_mapIdx, same_iff_known, List.forall_mem_iff_getElem]
  exact ⟨fun all i inside => all i inside inside, fun all i inside _ => all i inside⟩

/-- What `get_clock_config` returns for this reply. -/
def configOf (env : Env) (sent : List Exchange) (reply : Reply) : ClockConfig :=
  ((receive (Handlers.getConfig env.lib (env.memory sent)) reply).getD none).getD {}

theorem configOf_returned {env : Env} {sent : List Exchange} {reply : Reply} {returned : List Json}
    (answered : Returned env.lib reply returned) :
    (configOf env sent reply).itemList = parseItemsArray (env.memory sent) (some (.array returned)) := by
  obtain ⟨content, j, rfl, parsed, listed⟩ := answered
  simp [configOf, receive, Handlers.getConfig, parsed, listed, bind, Except.bind, pure, Except.pure, Except.toOption]

theorem configOf_not_returned {env : Env} {sent : List Exchange} {reply : Reply}
    (failed : ¬∃ returned, Returned env.lib reply returned) : (configOf env sent reply).itemList = [] := by
  cases reply with
  | error => rfl
  | response statusCode content =>
    by_cases okay : statusCode = 200
    · subst okay
      cases parsed : parseJson env.lib content with
      | error fault =>
        cases fault <;> simp [configOf, receive, Handlers.getConfig, parsed, bind, Except.bind]
      | ok result =>
        cases result with
        | none => simp [configOf, receive, Handlers.getConfig, parsed, bind, Except.bind, pure, Except.pure]
        | some j =>
          have noList : ∀ items, j.field (text "ItemList") ≠ .ok (.array items) := fun items listed =>
            failed ⟨items, content, j, rfl, parsed, listed⟩
          simp only [configOf, receive, Handlers.getConfig, parsed, bind, Except.bind, pure, Except.pure]
          cases listed : j.field (text "ItemList") with
          | error e => rfl
          | ok list =>
            cases list with
            | array items => exact absurd listed (noList items)
            | _ => rfl
    · simp [configOf, receive, okay]

/-! ## Requests that can be written -/

theorem field_utf8 {j v : Json} {key : Text} (valid : EachText ValidUtf8 j) (found : j.field key = .ok v) :
    EachText ValidUtf8 v := by
  cases valid with
  | @object members keys values =>
    cases inside : member members key with
    | none => simp [Json.field, inside] at found
    | some w =>
      obtain ⟨m, isMember, rfl⟩ := Option.map_eq_some_iff.mp inside
      simp only [Json.field, inside, pure, Except.pure, Except.ok.injEq] at found
      exact found ▸ values m (List.mem_of_find?_eq_some isMember)
  | _ => cases found

theorem parseJson_parsed {lib : JsonLib} {content : Text} {j : Json}
    (parsed : parseJson lib content = .ok (some j)) : lib.parse content = .ok j := by
  unfold parseJson at parsed
  split at parsed
  · cases parsed
  · cases parsed
  · next found =>
    obtain ⟨statusCode, _, rest⟩ := bind_eq_ok.mp parsed
    split_ifs at rest
    · cases rest
      exact found
    · obtain ⟨_, _, none⟩ := bind_eq_ok.mp rest
      cases none

theorem stringMember_utf8 {j : Json} (valid : EachText ValidUtf8 j) (key : String) :
    ValidUtf8 (stringMember j key) := by
  have empty : ValidUtf8 [] := by decide
  unfold stringMember
  cases found : j.field (text key) with
  | error e => exact empty
  | ok v =>
    cases field_utf8 valid found with
    | string holds => exact holds
    | _ => exact empty

theorem stringItems_utf8 {j : Json} (valid : EachText ValidUtf8 j) : ∀ s ∈ stringItems j, ValidUtf8 s := by
  intro s member
  cases valid with
  | array each =>
    obtain ⟨item, inside, read⟩ := List.mem_filterMap.mp member
    cases each item inside with
    | string holds =>
      cases read
      exact holds
    | _ => cases read
  | _ => cases member

theorem toJson_utf8 (item : Item) : EachText ValidUtf8 item.toJson ↔
    (∀ s ∈ item.controlOtherItemShow, ValidUtf8 s) ∧ ValidUtf8 item.itemId ∧ ValidUtf8 item.itemName ∧
      ValidUtf8 item.itemValue ∧ ValidUtf8 item.itemValueName ∧ ValidUtf8 item.showByOtherItemId ∧
      ValidUtf8 item.showByOtherItemValue := by
  have keys : ∀ key ∈ ["ControlOtherItemShow", "Invisible", "ItemId", "ItemName", "ItemType", "ItemValue",
      "ItemValueName", "ShowByOtherItemId", "ShowByOtherItemValue"], ValidUtf8 (text key) := by decide +kernel
  simp only [List.forall_mem_cons] at keys
  simp [Item.toJson, eachText_object, eachText_string, eachText_array, eachText_integer, keys]

theorem parseItem_utf8 {j : Json} (valid : EachText ValidUtf8 j) (memory : Int × Int) :
    EachText ValidUtf8 (parseItem memory j).toJson := by
  rw [toJson_utf8]
  refine ⟨?_, stringMember_utf8 valid _, stringMember_utf8 valid _, stringMember_utf8 valid _,
    stringMember_utf8 valid _, stringMember_utf8 valid _, stringMember_utf8 valid _⟩
  apply stringItems_utf8
  cases found : j.field (text "ControlOtherItemShow") with
  | error e => exact .null
  | ok v => exact field_utf8 valid found

theorem setItem_utf8 {item : Item} (valid : EachText ValidUtf8 item.toJson) (value : Text) :
    EachText ValidUtf8 (setItem value item).toJson ↔ (item.itemType = 25 → ValidUtf8 value) := by
  rw [toJson_utf8] at valid ⊢
  unfold setItem
  split_ifs with isText
  · simp only [isText, true_implies]
    tauto
  · simp only [isText, false_implies, iff_true]
    exact valid

theorem setConfig_written {lib : JsonLib} (utf8 : Utf8Lib lib) (deviceId clockId : Int) (user : UserInfo)
    (items : List Item) : ((Request.setConfig deviceId clockId user items).body lib).isSome ↔
      ∀ item ∈ items, EachText ValidUtf8 item.toJson := by
  have texts : ∀ s ∈ ["ClockId", "Command", "Channel/SetClockConfig", "DeviceId", "ItemList", "Language",
      "ru", "LcdIndependence", "LcdIndex", "PageIndex", "ParentClockId", "ParentItemId", "Token", "UserId"],
      ValidUtf8 (text s) := by decide +kernel
  simp only [List.forall_mem_cons] at texts
  simp [Request.body, Request.command, utf8.dumps, eachText_object, eachText_string, eachText_array,
    eachText_integer, texts]

theorem getConfig_written {lib : JsonLib} (utf8 : Utf8Lib lib) (deviceId clockId : Int) (user : UserInfo) :
    ((Request.getConfig deviceId clockId user).body lib).isSome := by
  have texts : ∀ s ∈ ["ClockId", "Command", "Channel/GetClockConfig", "DeviceId", "DeviceType", "Frame",
      "Token", "UserId"], ValidUtf8 (text s) := by decide +kernel
  simp only [List.forall_mem_cons] at texts
  simp [Request.body, Request.command, utf8.dumps, eachText_object, eachText_string, eachText_integer, texts]

/-! ## One update -/

section Update
variable {env : Env} (utf8 : Utf8Lib env.lib) (user : UserInfo) (deviceId : Int) (value : Text)
  (sent : List Exchange)

/-- The GetClockConfig of an update, with its reply. -/
def readOf (env : Env) (user : UserInfo) (deviceId : Int) (sent : List Exchange) : Exchange :=
  ⟨.getConfig deviceId currentClockId user, env.server sent (.getConfig deviceId currentClockId user)⟩

def writtenItems (env : Env) (user : UserInfo) (deviceId : Int) (value : Text) (sent : List Exchange) :
    List Item :=
  (configOf env sent (readOf env user deviceId sent).reply).itemList.map (setItem value)

/-- The SetClockConfig of an update. -/
def writeOf (env : Env) (user : UserInfo) (deviceId : Int) (value : Text) (sent : List Exchange) : Request :=
  .setConfig deviceId currentClockId user (writtenItems env user deviceId value sent)

include utf8

theorem getClockConfig_read :
    env.getClockConfig deviceId currentClockId user sent =
      some (configOf env sent (readOf env user deviceId sent).reply,
        sent ++ [readOf env user deviceId sent]) := by
  obtain ⟨body, written⟩ := Option.isSome_iff_exists.mp (getConfig_written utf8 deviceId currentClockId user)
  obtain ⟨result, received⟩ := Env.receive_returns (getConfig_checked env.lib (env.memory sent))
    (readOf env user deviceId sent).reply
  simp only [readOf] at received
  simp [Env.getClockConfig, Env.execute, written, configOf, readOf, received]

/-- The clock is read, and written where the request for it can be. -/
theorem updateDevice_sends :
    updateDevice env.client user deviceId value sent =
      some (.ok (), sent ++ readOf env user deviceId sent ::
        if ((writeOf env user deviceId value sent).body env.lib).isSome
        then [⟨writeOf env user deviceId value sent,
          env.server (sent ++ [readOf env user deviceId sent]) (writeOf env user deviceId value sent)⟩]
        else []) := by
  have read := getClockConfig_read utf8 user deviceId sent
  obtain ⟨⟨ok, sent'⟩, set⟩ := env.setClockConfig_returns deviceId currentClockId user
    (setText value (configOf env sent (readOf env user deviceId sent).reply))
    (sent ++ [readOf env user deviceId sent])
  have updated : updateDevice env.client user deviceId value sent = some (.ok (), sent') := by
    simp [updateDevice, Env.client, read, set]
  rw [updated, Option.some.injEq, Prod.mk.injEq]
  refine ⟨rfl, ?_⟩
  obtain ⟨⟨result, _⟩, executed, same⟩ := Option.bind_eq_some_iff.mp set
  cases same
  have items : (setText value (configOf env sent (readOf env user deviceId sent).reply)).itemList =
      writtenItems env user deviceId value sent := rfl
  rw [items, Env.execute] at executed
  rw [writeOf]
  cases body : (Request.setConfig deviceId currentClockId user
      (writtenItems env user deviceId value sent)).body env.lib with
  | none =>
    rw [body] at executed
    cases executed
    rfl
  | some content =>
    rw [body] at executed
    obtain ⟨_, _, same⟩ := Option.map_eq_some_iff.mp executed
    cases same
    simp

/-- The configuration is read, and written back where the request can be written. -/
theorem updateDevice_exchanges :
    ∃ new, updateDevice env.client user deviceId value sent = some (.ok (), sent ++ new) ∧
      ((new = [readOf env user deviceId sent] ∧ ∃ item ∈ writtenItems env user deviceId value sent,
          ¬EachText ValidUtf8 item.toJson) ∨
        ∃ reply, new = [readOf env user deviceId sent,
            ⟨.setConfig deviceId currentClockId user (writtenItems env user deviceId value sent), reply⟩] ∧
          ∀ item ∈ writtenItems env user deviceId value sent, EachText ValidUtf8 item.toJson) := by
  have sends := updateDevice_sends utf8 user deviceId value sent
  have writable := setConfig_written utf8 deviceId currentClockId user
    (writtenItems env user deviceId value sent)
  split_ifs at sends with written
  · exact ⟨_, sends, .inr ⟨_, rfl, writable.mp written⟩⟩
  · have unwritable := (not_congr writable).mp written
    simp only [not_forall, exists_prop] at unwritable
    exact ⟨_, sends, .inl ⟨rfl, unwritable⟩⟩

omit utf8

theorem writesBack_read : WritesBack env.lib [readOf env user deviceId sent] := by
  intro earlier ex later _ _ _ _ split isSet
  have member : ex ∈ [readOf env user deviceId sent] := by
    rw [split]
    simp
  rw [List.mem_singleton.mp member] at isSet
  cases isSet

theorem writesBack_pair (items : List Item) (reply : Reply) :
    WritesBack env.lib [readOf env user deviceId sent, ⟨.setConfig deviceId currentClockId user items, reply⟩] ↔
      ∃ returned, Returned env.lib (readOf env user deviceId sent).reply returned ∧
        List.Forall₂ SameItem returned (items.map Item.toJson) := by
  apply Iff.intro
  · intro writesBack
    obtain ⟨before, read, _, _, returned, single, _, answered, same⟩ :=
      writesBack [readOf env user deviceId sent] _ [] _ _ _ _ rfl rfl
    obtain ⟨rfl, rfl⟩ : before = [] ∧ read = readOf env user deviceId sent := by
      cases before with
      | nil => exact ⟨rfl, (List.cons.inj single).1.symm⟩
      | cons ex before => simp at single
    exact ⟨returned, answered, same⟩
  · intro given earlier ex later id clockId user' written split isSet
    obtain ⟨returned, answered, same⟩ := given
    cases earlier with
    | nil =>
      rw [← (List.cons.inj split).1] at isSet
      cases isSet
    | cons first rest =>
      obtain ⟨isRead, tail⟩ := List.cons.inj split
      cases rest with
      | nil =>
        rw [← (List.cons.inj tail).1] at isSet
        cases isSet
        subst isRead
        exact ⟨[], _, _, _, returned, rfl, rfl, answered, same⟩
      | cons second rest => simp at tail

/-- GetClockConfig is answered with a list of items that the client reads whole, or else the
text is not UTF-8 and one of the items takes it. -/
def Restorable (env : Env) (user : UserInfo) (deviceId : Int) (value : Text) (sent : List Exchange) : Prop :=
  ∃ returned, Returned env.lib (readOf env user deviceId sent).reply returned ∧
    ((∀ j ∈ returned, Known j) ∨
      ¬ValidUtf8 value ∧
        ∃ item ∈ parseItemsArray (env.memory sent) (some (.array returned)), item.itemType = 25)

include utf8

theorem returned_utf8 {reply : Reply} {returned : List Json} (answered : Returned env.lib reply returned)
    (memory : Nat → Int × Int) :
    ∀ item ∈ parseItemsArray memory (some (.array returned)), EachText ValidUtf8 item.toJson := by
  intro item member
  obtain ⟨content, j, rfl, parsed, listed⟩ := answered
  have valid := field_utf8 (utf8.parses content j (parseJson_parsed parsed)) listed
  obtain ⟨i, inside, rfl⟩ := List.mem_mapIdx.mp member
  exact parseItem_utf8 ((eachText_array returned).mp valid _ (List.getElem_mem inside)) _

/-- An update changes nothing but the values it is for exactly when it could read the clock. -/
theorem updateDevice_writesBack_iff :
    ∃ new, updateDevice env.client user deviceId value sent = some (.ok (), sent ++ new) ∧
      (WritesBack env.lib new ↔ Restorable env user deviceId value sent) := by
  obtain ⟨new, updated, outcome⟩ := updateDevice_exchanges utf8 user deviceId value sent
  refine ⟨new, updated, ?_⟩
  rcases outcome with ⟨rfl, item, member, invalid⟩ | ⟨reply, rfl, valid⟩
  · apply iff_of_true (writesBack_read user deviceId sent)
    obtain ⟨parsed, inside, rfl⟩ := List.mem_map.mp member
    by_cases answered : ∃ returned, Returned env.lib (readOf env user deviceId sent).reply returned
    · obtain ⟨returned, answered⟩ := answered
      rw [configOf_returned answered] at inside
      rw [setItem_utf8 (returned_utf8 utf8 answered _ _ inside), Classical.not_imp] at invalid
      exact ⟨returned, answered, .inr ⟨invalid.2, parsed, inside, invalid.1⟩⟩
    · rw [configOf_not_returned answered] at inside
      cases inside
  · rw [writesBack_pair]
    apply exists_congr
    intro returned
    apply and_congr_right
    intro answered
    rw [writtenItems, configOf_returned answered] at valid ⊢
    rw [list_same_iff]
    apply Iff.intro .inl
    intro given
    rcases given with known | ⟨invalid, item, inside, isText⟩
    · exact known
    · have written := valid _ (List.mem_map_of_mem inside)
      rw [setItem_utf8 (returned_utf8 utf8 answered _ _ inside)] at written
      exact absurd (written isText) invalid

end Update

/-! ## A clock that is read and one that is not -/

def utf8Lib (answers : List Json) : JsonLib where
  parse content :=
    match answers.find? (fun j => EachText ValidUtf8 j ∧ j.compact = content) with
    | some j => .ok j
    | none => .error .parseError
  dump j := if EachText ValidUtf8 j then some j.compact else none

theorem utf8Lib_utf8 (answers : List Json) : Utf8Lib (utf8Lib answers) where
  dumps j := by simp [utf8Lib]
  parses content j parsed := by
    simp only [utf8Lib] at parsed
    split at parsed
    · next found =>
      cases parsed
      have valid := List.find?_some found
      simp only [decide_eq_true_eq] at valid
      exact valid.1
    · cases parsed

/-- A cloud that answers a request for the clock so, and acknowledges every other one. -/
def clockEnv (clock : Json) : Env where
  lib := utf8Lib [clock, answerCode 0]
  computeMd5 := id
  server _ request := .response 200 (match request with
    | .getConfig _ _ _ => clock
    | _ => answerCode 0).compact
  memory _ _ := (0, 0)

def fullClock : Json :=
  .object [(text "ItemList", .array [(textItem (text "old")).toJson]), (text "ReturnCode", .integer 0)]

theorem updateDevice_restores :
    ∃ new, updateDevice (clockEnv fullClock).client ⟨7, 5⟩ 1 (text "new") [] = some (.ok (), [] ++ new) ∧
      WritesBack (clockEnv fullClock).lib new := by
  obtain ⟨new, updated, same⟩ := updateDevice_writesBack_iff
    (show Utf8Lib (clockEnv fullClock).lib from utf8Lib_utf8 _) ⟨7, 5⟩ 1 (text "new") []
  refine ⟨new, updated, same.mpr ⟨[(textItem (text "old")).toJson], ?_, .inl ?_⟩⟩
  · exact ⟨fullClock.compact, fullClock, rfl, by decide +kernel, by decide +kernel⟩
  · intro j member
    rw [List.mem_singleton.mp member]
    exact ⟨textItem (text "old"), by decide, .inl rfl⟩

/-- A clock whose token has expired is written an empty list. -/
theorem expired_clock_blanked :
    let env := clockEnv (answerCode 11)
    let blank : Exchange := ⟨.setConfig 1 598 ⟨7, 5⟩ [], .response 200 (answerCode 0).compact⟩
    Utf8Lib env.lib ∧
      updateDevice env.client ⟨7, 5⟩ 1 (text "new") [] =
        some (.ok (), [⟨.getConfig 1 598 ⟨7, 5⟩, .response 200 (answerCode 11).compact⟩, blank]) ∧
      ¬WritesBack env.lib [⟨.getConfig 1 598 ⟨7, 5⟩, .response 200 (answerCode 11).compact⟩, blank] := by
  refine ⟨utf8Lib_utf8 _, by decide +kernel, fun writesBack => ?_⟩
  obtain ⟨returned, ⟨content, j, same, parsed, _⟩, _⟩ :=
    (writesBack_pair ⟨7, 5⟩ 1 [] [] _).mp writesBack
  have raised : parseJson (clockEnv (answerCode 11)).lib (answerCode 11).compact =
      .error (.raised .tokenExpired) := by decide +kernel
  cases same
  rw [raised] at parsed
  cases parsed

end DivoomDev.Service.WriteBack
