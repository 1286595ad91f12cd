import DivoomDev.Storage.Simulation

/-! What the JSON file holds beside the data that a call names: members that the backend does not
know, further members of its records, records of other shapes. No call may change them. -/

namespace DivoomDev.Storage.Bystanders
open DivoomDev.Library.Bytes DivoomDev.Library.JsonValues DivoomDev.Library.Fallible DivoomDev.Library.Run Models
  JsonBackend Durability Simulation

/-! ## Places in a document -/

def ownKeys : List Text := [accountsKey, sourcesKey, metaKey]

/-- A place that is found by a key: a member that is not the backend's own, the accounts of a
service, the sources of a URL, or the metadata of a key. -/
inductive Place where
  | member (key : Text) (foreign : key ∉ ownKeys)
  | account (service : Text)
  | source (url : Text)
  | metaValue (key : Text)

/-- The text by which a loop over the items knows this one. -/
def itemKey (name : String) (item : Json) : Option Text := (item.value Json.getString (text name) []).toOption

def itemsOf (name : String) (key : Text) (list : Json) : List Json :=
  list.children.filter (fun item => itemKey name item = some key)

def memberOf (key : Text) : Json → Option Json
  | .object members => Json.member members key
  | _ => none

/-- All that the document has at the place, as it stands there. -/
def Place.look (doc : Document) : Place → List Json
  | .member key _ => doc[key]?.toList
  | .account service => itemsOf "service" service (part doc accountsKey)
  | .source url => itemsOf "url" url (part doc sourcesKey)
  | .metaValue key => (memberOf key (part doc metaKey)).toList

def Names : Operation → Place → Prop
  | .upsertAccount acc, .account service => acc.service = service
  | .deleteAccount gone, .account service => gone = service
  | .upsertCalendarSource src, .source url => src.url = url
  | .removeCalendarSource gone, .source url => gone = url
  | .setMeta set _, .metaValue key => set = key
  | .deleteMeta gone, .metaValue key => gone = key
  | .clear, .account _ => True
  | .clear, .source _ => True
  | .clear, .metaValue _ => True
  | _, _ => False

/-! ## Lists -/

section Lists
variable {α : Type} {p : α → Bool} {xs : List α} {i : Nat} {a : α}

theorem filter_set_of_not (found : xs[i]? = some a) (old : p a = false) {b : α} (new : p b = false) :
    (xs.set i b).filter p = xs.filter p := by
  induction xs generalizing i with
  | nil => rfl
  | cons x rest ih =>
    cases i with
    | zero =>
      obtain rfl := Option.some.inj found
      simp [old, new]
    | succ i =>
      have later : rest[i]? = some a := by simpa using found
      simp [List.filter_cons, ih later]

theorem filter_eraseIdx_of_not (found : xs[i]? = some a) (old : p a = false) :
    (xs.eraseIdx i).filter p = xs.filter p := by
  induction xs generalizing i with
  | nil => rfl
  | cons x rest ih =>
    cases i with
    | zero =>
      obtain rfl := Option.some.inj found
      simp [old]
    | succ i =>
      have later : rest[i]? = some a := by simpa using found
      simp [List.filter_cons, ih later]

end Lists

theorem findItem_some {name : String} {wanted : Text} {items : List Json} {i : Nat}
    (found : findItem name wanted items = .ok (some i)) :
    ∃ item, items[i]? = some item ∧ itemKey name item = some wanted := by
  induction items generalizing i with
  | nil => cases found
  | cons item rest ih =>
    obtain ⟨key, read, next⟩ := bind_eq_ok.mp found
    split_ifs at next with same
    · cases next
      exact ⟨item, rfl, by rw [itemKey, read, same]; rfl⟩
    · obtain ⟨later, looked, moved⟩ := bind_eq_ok.mp next
      obtain ⟨j, rfl, rfl⟩ := Option.map_eq_some_iff.mp (Except.ok.inj moved)
      exact ih looked

/-- Where an item has a key, the list is one of items or an object of them. -/
theorem itemKey_object {name : String} {item : Json} {key : Text} (named : itemKey name item = some key) :
    ∃ members, item = .object members := by
  cases item with
  | object members => exact ⟨members, rfl⟩
  | _ => cases named

theorem children_setChild {list item : Json} {i : Nat} (found : list.children[i]? = some item)
    (isObject : ∃ members, item = .object members) (v : Json) :
    (list.setChild i v).children = list.children.set i v := by
  obtain ⟨members, rfl⟩ := isObject
  cases list with
  | array items => rfl
  | object others =>
    apply List.ext_getElem?
    intro j
    by_cases here : i = j
    · simp only [Json.setChild, Json.children, List.getElem?_map, List.getElem?_modify, List.getElem?_set, here,
        if_true, List.length_map]
      by_cases inside : j < others.length <;> simp [inside]
    · simp [Json.setChild, Json.children, here]
  | null => cases found
  | _ => cases i <;> cases found

theorem children_eraseChild {list item : Json} {i : Nat} (found : list.children[i]? = some item)
    (isObject : ∃ members, item = .object members) :
    (list.eraseChild i).children = list.children.eraseIdx i := by
  obtain ⟨members, rfl⟩ := isObject
  cases list with
  | array items => rfl
  | object others => exact (List.eraseIdx_map _ _ _).symm
  | null => cases found
  | _ => cases i <;> cases found

theorem children_pushBack {list list' v : Json} (pushed : list.pushBack v = .ok list') :
    list'.children = list.children ++ [v] := by
  cases list with
  | null => cases pushed; rfl
  | array items => cases pushed; rfl
  | _ => cases pushed

section Items
variable {name : String} {wanted key : Text} {list list' : Json}

theorem itemsOf_upsertItem {item : Json} (named : itemKey name item = some wanted) (different : wanted ≠ key)
    (changed : upsertItem name wanted item list = .ok list') : itemsOf name key list' = itemsOf name key list := by
  have other (j : Json) (its : itemKey name j = some wanted) : decide (itemKey name j = some key) = false := by
    simp [its, different]
  obtain ⟨found, looked, rest⟩ := bind_eq_ok.mp changed
  cases found with
  | none =>
    rw [itemsOf, children_pushBack rest, List.filter_append]
    simp [itemsOf, named, different]
  | some i =>
    cases rest
    obtain ⟨old, at_, its⟩ := findItem_some looked
    rw [itemsOf, children_setChild at_ (itemKey_object its), itemsOf]
    exact filter_set_of_not at_ (other old its) (other item named)

theorem itemsOf_deleteItem (different : wanted ≠ key) (changed : deleteItem name wanted list = .ok (some list')) :
    itemsOf name key list' = itemsOf name key list := by
  obtain ⟨found, looked, rest⟩ := bind_eq_ok.mp changed
  obtain ⟨i, rfl, rfl⟩ := Option.map_eq_some_iff.mp (Except.ok.inj rest)
  obtain ⟨old, at_, its⟩ := findItem_some looked
  rw [itemsOf, children_eraseChild at_ (itemKey_object its), itemsOf]
  exact filter_eraseIdx_of_not at_ (by simp [its, different])

end Items

theorem memberOf_setMeta {set key value : Text} {j j' : Json} (different : set ≠ key)
    (changed : setMeta set value j = .ok j') : memberOf key j' = memberOf key j := by
  cases j with
  | null =>
    cases changed
    simp [memberOf, Json.member, different]
  | object members =>
    cases changed
    rw [memberOf, Json.member_setMember, if_neg different, memberOf]
  | _ => cases changed

theorem memberOf_deleteMeta {gone key : Text} {j j' : Json} (different : gone ≠ key)
    (changed : deleteMeta gone j = .ok j') : memberOf key j' = memberOf key j := by
  cases j with
  | object members =>
    cases changed
    have kept (m : Text × Json) : (m.1 ≠ gone ∧ m.1 = key) ↔ m.1 = key :=
      ⟨And.right, fun same => ⟨fun other => different (other.symm.trans same), same⟩⟩
    simp [memberOf, Json.member, Json.eraseMember, List.find?_filter, kept]
  | _ => cases changed

/-! ## One call -/

/-- The member of the document that the place is in. -/
def Place.root : Place → Text
  | .member key _ => key
  | .account _ => accountsKey
  | .source _ => sourcesKey
  | .metaValue _ => metaKey

/-- A call that rewrites one member of the document. -/
theorem look_insert {place : Place} {key : Text} {doc : Document} {v : Json}
    (inside : key = place.root → place.look (doc.insert key v) = place.look doc) :
    place.look (doc.insert key v) = place.look doc := by
  by_cases here : key = place.root
  · exact inside here
  · cases place with
    | member other _ =>
      have away : key ≠ other := here
      simp [Place.look, Std.ExtTreeMap.getElem?_insert, away]
    | account service => exact congrArg (itemsOf "service" service) (part_insert_of_ne doc here v)
    | source url => exact congrArg (itemsOf "url" url) (part_insert_of_ne doc here v)
    | metaValue name => exact congrArg (fun j => (memberOf name j).toList) (part_insert_of_ne doc here v)

/-- The members that are the backend's own, with the places in them. -/
def slots : List (Text × (Text → Place)) :=
  [(accountsKey, .account), (sourcesKey, .source), (metaKey, .metaValue)]

theorem root_slot {key : Text} {slot : Text → Place} (own : (key, slot) ∈ slots) {place : Place}
    (inside : key = place.root) : ∃ name, place = slot name := by
  simp only [slots, List.mem_cons, Prod.mk.injEq, List.not_mem_nil, or_false] at own
  rcases own with ⟨rfl, rfl⟩ | ⟨rfl, rfl⟩ | ⟨rfl, rfl⟩ <;> cases place with
  | member key foreign =>
    cases inside
    exact absurd (by decide) foreign
  | _ => first
    | exact ⟨_, rfl⟩
    | exact absurd inside (by simp only [Place.root]; decide)

/-- A call that rewrites one of these members leaves the document where it leaves the places in it. -/
theorem look_slot {key : Text} {slot : Text → Place} (own : (key, slot) ∈ slots) {place : Place} {doc : Document}
    {v : Json} (kept : ∀ name, place = slot name → (slot name).look (doc.insert key v) = (slot name).look doc) :
    place.look (doc.insert key v) = place.look doc := by
  refine look_insert (fun inside => ?_)
  obtain ⟨name, rfl⟩ := root_slot own inside
  exact kept name rfl

theorem account_slot : (accountsKey, Place.account) ∈ slots := by simp [slots]

theorem source_slot : (sourcesKey, Place.source) ∈ slots := by simp [slots]

theorem meta_slot : (metaKey, Place.metaValue) ∈ slots := by simp [slots]

/-- A call leaves every place that it does not name. -/
theorem change_look {doc doc' : Document} {operation : Operation} {place : Place}
    (changed : change doc operation = .ok (some doc')) (spared : ¬Names operation place) :
    place.look doc' = place.look doc := by
  cases operation with
  | upsertAccount acc =>
    obtain ⟨list, made, rest⟩ := bind_eq_ok.mp changed
    cases rest
    apply look_slot account_slot
    rintro service rfl
    rw [Place.look, part_insert]
    exact itemsOf_upsertItem rfl spared made
  | deleteAccount gone =>
    obtain ⟨list, made, rest⟩ := bind_eq_ok.mp changed
    obtain ⟨list', rfl, rfl⟩ := Option.map_eq_some_iff.mp (Except.ok.inj rest)
    apply look_slot account_slot
    rintro service rfl
    rw [Place.look, part_insert]
    exact itemsOf_deleteItem spared made
  | upsertCalendarSource src =>
    obtain ⟨list, made, rest⟩ := bind_eq_ok.mp changed
    cases rest
    apply look_slot source_slot
    rintro url rfl
    rw [Place.look, part_insert]
    exact itemsOf_upsertItem rfl spared made
  | removeCalendarSource gone =>
    obtain ⟨list, made, rest⟩ := bind_eq_ok.mp changed
    obtain ⟨list', rfl, rfl⟩ := Option.map_eq_some_iff.mp (Except.ok.inj rest)
    apply look_slot source_slot
    rintro url rfl
    rw [Place.look, part_insert]
    exact itemsOf_deleteItem spared made
  | setMeta set value =>
    obtain ⟨object, made, rest⟩ := bind_eq_ok.mp changed
    cases rest
    apply look_slot meta_slot
    rintro key rfl
    rw [Place.look, part_insert, memberOf_setMeta spared made, Place.look]
  | deleteMeta gone =>
    obtain ⟨object, made, rest⟩ := bind_eq_ok.mp changed
    cases rest
    apply look_slot meta_slot
    rintro key rfl
    rw [Place.look, part_insert, memberOf_deleteMeta spared made, Place.look]
  | clear =>
    cases changed
    cases place with
    | member key foreign =>
      have apart (own : Text) (inside : own ∈ ownKeys) : own ≠ key := fun same => foreign (same ▸ inside)
      simp [Place.look, Std.ExtTreeMap.getElem?_insert, apart accountsKey (by decide),
        apart sourcesKey (by decide), apart metaKey (by decide)]
    | _ => exact absurd trivial spared
  | _ => cases changed

/-! ## Runs -/

/-- A save gets through, or it does not touch the file. -/
def KeepsFile (lib : JsonLib) (p : Process) : Input → Prop
  | .openBackend _ => True
  | .mutate operation io => ∀ doc doc', p.doc = some doc → change doc operation = .ok (some doc') →
      Completes lib io doc' ∨ LeavesFile lib io doc' p.disk

def Spares (place : Place) : Input → Prop
  | .openBackend _ => True
  | .mutate operation _ => ¬Names operation place

/-- The file has this at the place, and so has the document of an open backend. -/
structure Shows (lib : JsonLib) (place : Place) (found : List Json) (p : Process) : Prop where
  present : p.disk.dest ≠ none
  file : ∃ doc, loadedDocument lib p.disk = some doc ∧ place.look doc = found
  memory : ∀ doc, p.doc = some doc → place.look doc = found

theorem load_loaded {lib : JsonLib} {disk : Disk} {doc : Document} (loaded : loadedDocument lib disk = some doc)
    (present : disk.dest ≠ none) (io : SaveIo) : load lib io disk = (some doc, disk) := by
  unfold load
  cases held : disk.dest with
  | none => exact absurd held present
  | some content => rw [loaded]

theorem step_shows {lib : JsonLib} (roundTrips : RoundTrips lib) {place : Place} {found : List Json} {p p' : Process}
    {input : Input} (sound : Sound p) (shows : Shows lib place found p) (keeps : KeepsFile lib p input)
    (spares : Spares place input) (stepped : step lib p input = some p') : Shows lib place found p' := by
  obtain ⟨held, loaded, here⟩ := shows.file
  cases input with
  | openBackend io =>
    simp only [step, load_loaded loaded shows.present] at stepped
    cases stepped
    exact ⟨shows.present, shows.file, fun doc same => Option.some.inj same ▸ here⟩
  | mutate operation io =>
    cases opened : p.doc with
    | none => simp [step, opened] at stepped
    | some doc =>
      cases changed : change doc operation with
      | error e =>
        simp only [step, opened, changed] at stepped
        cases stepped
        exact shows
      | ok changed? =>
        cases changed? with
        | none =>
          simp only [step, opened, changed] at stepped
          cases stepped
          exact shows
        | some doc' =>
          have disk := step_mutate_disk opened changed stepped
          have same : place.look doc' = found := (change_look changed spares).trans (shows.memory doc opened)
          have memory : ∀ d, p'.doc = some d → place.look d = found := by
            intro d open'
            simp only [step, opened, changed] at stepped
            split at stepped
            · cases stepped
              cases open'
            · cases stepped
              cases open'
              exact same
          rcases keeps doc doc' opened changed with ⟨content, dumped, renamed, whole⟩ | leaves
          · have written : p'.disk.dest = some content := by rw [disk, save_renamed renamed dumped, whole]
            exact ⟨by simp [written], ⟨doc', loadedDocument_dumped roundTrips
              (complete_change (sound doc opened) changed) dumped written, same⟩, memory⟩
          · have untouched : p'.disk.dest = p.disk.dest := by rw [disk, save_untouched leaves]
            exact ⟨untouched ▸ shows.present, ⟨held, (loadedDocument_congr untouched).trans loaded, here⟩,
              memory⟩

/-- In every run whose saves get through or do not touch the file, everything stays as it was that
no call names: members and records of any shape that others wrote into the file. -/
theorem run_untouched {lib : JsonLib} (roundTrips : RoundTrips lib) {place : Place} {disk : Disk} {doc : Document}
    (present : disk.dest ≠ none) (loaded : loadedDocument lib disk = some doc) {inputs : List Input}
    (keeps : Along (KeepsFile lib) (step lib) { disk := disk } inputs) (spared : ∀ input ∈ inputs, Spares place input)
    {p : Process} (reached : run (step lib) { disk := disk } inputs = some p) :
    Shows lib place (place.look doc) p :=
  (run_invariant_along (I := fun p => Sound p ∧ Shows lib place (place.look doc) p)
    (fun _ _ _ inv given stepped => ⟨step_sound _ _ _ inv.1 stepped,
      step_shows roundTrips inv.1 inv.2 given.2 (spared _ given.1) stepped⟩)
    ⟨fun _ none => (by cases none), present, ⟨doc, loaded, rfl⟩, fun _ none => (by cases none)⟩
    (along_mem (fun _ member => member) keeps) reached).2

/-! ## A file with notes of its owner -/

def notedAccount : Json := .object [(text "service", .string (text "a")), (text "since", .integer 2020)]

def noted (metadata : List (Text × Json)) : Document :=
  ((defaultDocument.insert accountsKey (.array [notedAccount])).insert metaKey (.object metadata)).insert
    (text "note") (.string (text "mine"))

def notedLib : JsonLib := compactLib [toJson (noted []), toJson (noted [(text "k", .string (text "v"))])]

/-- The document as a file, which a process may have open. -/
def holding (metadata : List (Text × Json)) (open' : Bool) : Process where
  disk := { dest := notedLib.dump (toJson (noted metadata)) }
  doc := if open' then some (noted metadata) else none

theorem noted_open : step notedLib (holding [] false) (.openBackend {}) = some (holding [] true) := by
  decide +kernel

theorem noted_changed : change (noted []) (.setMeta (text "k") (text "v")) =
    .ok (some (noted [(text "k", .string (text "v"))])) := by decide +kernel

theorem noted_setMeta : step notedLib (holding [] true) (.mutate (.setMeta (text "k") (text "v")) {}) =
    some (holding [(text "k", .string (text "v"))] true) := by decide +kernel

theorem notedLib_roundTrips : RoundTrips notedLib := tableLib_roundTrips (by decide +kernel)

def notedInputs : List Input := [.openBackend {}, .mutate (.setMeta (text "k") (text "v")) {}]

theorem noted_keepsFile : Along (KeepsFile notedLib) (step notedLib) (holding [] false) notedInputs := by
  refine ⟨trivial, fun p first => ⟨fun doc doc' held changed => ?_, fun _ _ => trivial⟩⟩
  obtain rfl : holding [] true = p := Option.some.inj (noted_open.symm.trans first)
  cases held
  obtain rfl : noted [(text "k", .string (text "v"))] = doc' :=
    Option.some.inj (Except.ok.inj (noted_changed.symm.trans changed))
  exact .inl ⟨_, rfl, ⟨⟨rfl, by decide, by decide, by decide⟩, by decide, rfl⟩, rfl⟩

theorem run_untouched_noted :
    Shows notedLib (.account (text "a")) [notedAccount] (holding [(text "k", .string (text "v"))] true) := by
  have reached : run (step notedLib) (holding [] false) notedInputs =
      some (holding [(text "k", .string (text "v"))] true) := by
    rw [notedInputs, run, noted_open, Option.bind_some, run, noted_setMeta]
    rfl
  have looked : (Place.account (text "a")).look (noted []) = [notedAccount] := by decide +kernel
  have spared : ∀ input ∈ notedInputs, Spares (.account (text "a")) input := by
    intro input member
    simp only [notedInputs, List.mem_cons, List.not_mem_nil, or_false] at member
    rcases member with rfl | rfl
    · trivial
    · exact id
  rw [← looked]
  exact run_untouched notedLib_roundTrips (by decide +kernel)
    (show loadedDocument notedLib (holding [] false).disk = some (noted []) by decide +kernel) noted_keepsFile spared
    reached

end DivoomDev.Storage.Bystanders
