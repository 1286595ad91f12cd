import DivoomDev.Service.WriteBack

/-! What an update writes to a clock whose items have just the members that the client knows:
the list that it read, with the text in it. -/

namespace DivoomDev.Service.ClockRoundTrip
open DivoomDev.Library.Bytes DivoomDev.Library.JsonValues DivoomDev.Library.JsonValues.Json
  DivoomDev.Divoom.Models DivoomDev.Divoom.Handlers DivoomDev.Divoom.Client Updater WriteBack

/-! ## Items by their members -/

inductive Kind where
  | integer
  | string
  | strings
  deriving DecidableEq, Repr

def HasKind : Kind → Json → Prop
  | .integer, .integer n => intMin ≤ n ∧ n ≤ intMax
  | .string, .string _ => True
  | .strings, .array items => ∃ texts : List Text, items = texts.map Json.string
  | _, _ => False

/-- The members of an item, in the order of `item_t`. -/
def itemMembers : List (String × Kind) :=
  [("Invisible", .integer), ("ItemId", .string), ("ItemName", .string), ("ItemType", .integer),
    ("ItemValue", .string), ("ItemValueName", .string), ("ShowByOtherItemId", .string),
    ("ShowByOtherItemValue", .string), ("ControlOtherItemShow", .strings)]

/-- An object with the members of an item, each of its type, and no other. -/
structure Whole (members : List (Text × Json)) : Prop where
  sorted : KeySorted members
  known : ∀ m ∈ members, ∃ field ∈ itemMembers, m.1 = text field.1 ∧ HasKind field.2 m.2
  present : ∀ field ∈ itemMembers, ∃ m ∈ members, m.1 = text field.1

/-- The text in the value of an item of type 25. -/
def withText (value : Text) : Json → Json
  | .object members =>
      if member members (text "ItemType") = some (.integer 25)
      then .object (setMember members (text "ItemValue") (.string value)) else .object members
  | j => j

theorem Whole.read {members : List (Text × Json)} (whole : Whole members) :
    ∀ field ∈ itemMembers, ∃ v, (text field.1, v) ∈ members ∧ HasKind field.2 v := by
  have distinct : (itemMembers.map (fun field => text field.1)).Nodup := by decide +kernel
  intro field listed
  obtain ⟨m, inside, key⟩ := whole.present field listed
  obtain ⟨field', listed', key', kind⟩ := whole.known m inside
  obtain rfl := List.inj_on_of_nodup_map distinct listed listed' (key.symm.trans key')
  exact ⟨m.2, key ▸ inside, kind⟩

theorem hasKind_integer {j : Json} (kind : HasKind .integer j) :
    ∃ n, j = .integer n ∧ intMin ≤ n ∧ n ≤ intMax := by
  cases j <;> simp_all [HasKind]

theorem hasKind_string {j : Json} (kind : HasKind .string j) : ∃ s, j = .string s := by
  cases j <;> simp_all [HasKind]

theorem hasKind_strings {j : Json} (kind : HasKind .strings j) :
    ∃ texts : List Text, j = .array (texts.map Json.string) := by
  cases j <;> simp_all [HasKind]

/-- Sorted members that hold all of others with the same keys are these. -/
theorem eq_of_keys {a b : List (Text × Json)} (sortedA : KeySorted a) (sortedB : KeySorted b)
    (subset : ∀ m ∈ b, m ∈ a) (keys : ∀ m ∈ a, m.1 ∈ b.map Prod.fst) : a = b := by
  refine sortedA.ext sortedB (fun m => ⟨fun inside => ?_, subset m⟩)
  obtain ⟨m', inside', key⟩ := List.mem_map.mp (keys m inside)
  obtain rfl := List.inj_on_of_nodup_map sortedA.distinct inside (subset m' inside') key.symm
  exact inside'

/-- The macro of `item_t` writes whole items. -/
theorem toJson_whole {item : Item} (range : InRange item) {members : List (Text × Json)}
    (written : item.toJson = .object members) : Whole members := by
  have order : [text "ControlOtherItemShow", text "Invisible", text "ItemId", text "ItemName", text "ItemType",
      text "ItemValue", text "ItemValueName", text "ShowByOtherItemId", text "ShowByOtherItemValue"].Pairwise
      (fun a b => compare a b = .lt) := by decide +kernel
  have keys : ∀ field ∈ itemMembers, text field.1 ∈ [text "ControlOtherItemShow", text "Invisible",
      text "ItemId", text "ItemName", text "ItemType", text "ItemValue", text "ItemValueName",
      text "ShowByOtherItemId", text "ShowByOtherItemValue"] := by decide +kernel
  cases written
  refine ⟨?_, ?_, fun field listed => ?_⟩
  · exact (List.pairwise_map (f := Prod.fst) (R := fun a b => compare a b = .lt)).mp (by exact order)
  · simp only [List.forall_mem_cons]
    refine ⟨⟨("ControlOtherItemShow", .strings), by decide, rfl, item.controlOtherItemShow, rfl⟩,
      ⟨("Invisible", .integer), by decide, rfl, range.1⟩, ⟨("ItemId", .string), by decide, rfl, trivial⟩,
      ⟨("ItemName", .string), by decide, rfl, trivial⟩, ⟨("ItemType", .integer), by decide, rfl, range.2⟩,
      ⟨("ItemValue", .string), by decide, rfl, trivial⟩, ⟨("ItemValueName", .string), by decide, rfl, trivial⟩,
      ⟨("ShowByOtherItemId", .string), by decide, rfl, trivial⟩,
      ⟨("ShowByOtherItemValue", .string), by decide, rfl, trivial⟩, by simp⟩
  · exact List.mem_map.mp (keys field listed)

/-- A whole item is what the macro writes for some item. -/
theorem Whole.written {members : List (Text × Json)} (whole : Whole members) :
    ∃ item : Item, InRange item ∧ item.toJson = .object members := by
  have read := whole.read
  simp only [itemMembers, List.forall_mem_cons] at read
  obtain ⟨⟨_, invisible, isInvisible⟩, ⟨_, itemId, isItemId⟩, ⟨_, itemName, isItemName⟩,
    ⟨_, itemType, isItemType⟩, ⟨_, itemValue, isItemValue⟩, ⟨_, valueName, isValueName⟩,
    ⟨_, byId, isById⟩, ⟨_, byValue, isByValue⟩, ⟨_, shown, isShown⟩, _⟩ := read
  obtain ⟨invisibleNumber, rfl, invisibleRange⟩ := hasKind_integer isInvisible
  obtain ⟨itemIdText, rfl⟩ := hasKind_string isItemId
  obtain ⟨itemNameText, rfl⟩ := hasKind_string isItemName
  obtain ⟨itemTypeNumber, rfl, itemTypeRange⟩ := hasKind_integer isItemType
  obtain ⟨itemValueText, rfl⟩ := hasKind_string isItemValue
  obtain ⟨valueNameText, rfl⟩ := hasKind_string isValueName
  obtain ⟨byIdText, rfl⟩ := hasKind_string isById
  obtain ⟨byValueText, rfl⟩ := hasKind_string isByValue
  obtain ⟨shownTexts, rfl⟩ := hasKind_strings isShown
  let item : Item := {
    invisible := invisibleNumber
    itemId := itemIdText
    itemName := itemNameText
    itemType := itemTypeNumber
    itemValue := itemValueText
    itemValueName := valueNameText
    showByOtherItemId := byIdText
    showByOtherItemValue := byValueText
    controlOtherItemShow := shownTexts }
  have range : InRange item := ⟨invisibleRange, itemTypeRange⟩
  have macroWhole := toJson_whole range rfl
  refine ⟨item, range, ?_⟩
  rw [Item.toJson, Json.object.injEq]
  refine (eq_of_keys whole.sorted macroWhole.sorted ?_ (fun m inside => ?_)).symm
  · simp only [List.forall_mem_cons]
    exact ⟨shown, invisible, itemId, itemName, itemType, itemValue, valueName, byId, byValue, by simp⟩
  · obtain ⟨field, listed, key, _⟩ := whole.known m inside
    obtain ⟨m', inside', key'⟩ := macroWhole.present field listed
    exact List.mem_map.mpr ⟨m', inside', key'.trans key.symm⟩

/-! ## The list -/

/-- Read, set and written again, an item is as it was but for the text in it. -/
theorem setItem_parseItem {item : Item} (range : InRange item) (value : Text) (memory : Int × Int) :
    (setItem value (parseItem memory item.toJson)).toJson = withText value item.toJson := by
  have read := parseItem_same (.inl rfl : SameItem item.toJson item.toJson) memory
  rw [wrapInt_eq range.1, wrapInt_eq range.2] at read
  have unchanged : parseItem memory item.toJson = item := read
  obtain ⟨members, whole, typed, setValue⟩ := toJson_members item
  rw [unchanged, whole, withText, typed, setItem]
  simp only [Option.some.injEq, Json.integer.injEq]
  split_ifs with isText
  · exact setValue value
  · exact whole

def WholeItem (j : Json) : Prop := ∃ members, j = .object members ∧ Whole members

theorem list_withText {returned : List Json} (whole : ∀ j ∈ returned, WholeItem j) (value : Text)
    (memory : Nat → Int × Int) :
    ((parseItemsArray memory (some (.array returned))).map (setItem value)).map Item.toJson =
      returned.map (withText value) := by
  apply List.ext_getElem
  · simp [parseItemsArray]
  · intro i _ inside
    rw [List.length_map] at inside
    obtain ⟨members, isObject, isWhole⟩ := whole _ (List.getElem_mem inside)
    obtain ⟨item, range, written⟩ := isWhole.written
    simp only [parseItemsArray, List.getElem_map, List.getElem_mapIdx]
    rw [isObject, ← written]
    exact setItem_parseItem range value (memory i)

/-! ## The update -/

section Update
variable {env : Env} (utf8 : Utf8Lib env.lib) (user : UserInfo) (deviceId : Int) (value : Text)
  (sent : List Exchange)

include utf8

/-- Where the list that was read has only whole items, the list that is written is that list
with the text in it; it is sent at least where the text is UTF-8. -/
theorem updateDevice_roundTrip {returned : List Json}
    (answered : Returned env.lib (readOf env user deviceId sent).reply returned)
    (whole : ∀ j ∈ returned, WholeItem j) :
    ∃ items command, Request.command (.setConfig deviceId currentClockId user items) = some command ∧
      command.field (text "ItemList") = .ok (.array (returned.map (withText value))) ∧
      (ValidUtf8 value → (env.lib.dump command).isSome) ∧
      updateDevice env.client user deviceId value sent =
        some (.ok (), sent ++ readOf env user deviceId sent ::
          if (env.lib.dump command).isSome
          then [⟨.setConfig deviceId currentClockId user items,
            env.server (sent ++ [readOf env user deviceId sent])
              (.setConfig deviceId currentClockId user items)⟩]
          else []) := by
  refine ⟨writtenItems env user deviceId value sent, _, rfl, ?_, fun validValue => ?_,
    updateDevice_sends utf8 user deviceId value sent⟩
  · rw [← list_withText whole value (env.memory sent), ← configOf_returned answered]
    rfl
  · refine (setConfig_written utf8 deviceId currentClockId user _).mpr (fun item inside => ?_)
    obtain ⟨parsed, listed, rfl⟩ := List.mem_map.mp inside
    rw [configOf_returned answered] at listed
    exact (setItem_utf8 (returned_utf8 utf8 answered _ parsed listed) value).mpr (fun _ => validValue)

end Update

theorem updateDevice_roundTrip_full :
    ∃ items command, Request.command (.setConfig 1 currentClockId ⟨7, 5⟩ items) = some command ∧
      command.field (text "ItemList") = .ok (.array ([(textItem (text "old")).toJson].map (withText (text "new")))) ∧
      (ValidUtf8 (text "new") → ((clockEnv fullClock).lib.dump command).isSome) ∧
      updateDevice (clockEnv fullClock).client ⟨7, 5⟩ 1 (text "new") [] =
        some (.ok (), [] ++ readOf (clockEnv fullClock) ⟨7, 5⟩ 1 [] ::
          if ((clockEnv fullClock).lib.dump command).isSome
          then [⟨.setConfig 1 currentClockId ⟨7, 5⟩ items,
            (clockEnv fullClock).server ([] ++ [readOf (clockEnv fullClock) ⟨7, 5⟩ 1 []])
              (.setConfig 1 currentClockId ⟨7, 5⟩ items)⟩]
          else []) :=
  updateDevice_roundTrip (show Utf8Lib (clockEnv fullClock).lib from utf8Lib_utf8 _) ⟨7, 5⟩ 1 (text "new") []
    ⟨fullClock.compact, fullClock, rfl, by decide +kernel, by decide +kernel⟩ (by
      intro j member
      rw [List.mem_singleton.mp member]
      exact ⟨_, rfl, toJson_whole (show InRange (textItem (text "old")) by decide) rfl⟩)

end DivoomDev.Service.ClockRoundTrip
