import DivoomDev.Storage.Equivalence

/-! What the operations of the JSON backend rely on, and the files for which the loaded document
gives it: arrays of objects with distinct keys, and members of the right types. -/

namespace DivoomDev.Storage.Representation
open DivoomDev.Library.Bytes DivoomDev.Library.JsonValues DivoomDev.Library.KeyedList
  DivoomDev.Library.Fallible DivoomDev.Library.Run Models JsonBackend Durability Simulation
open Json (EachText)

/-! ## Shapes -/

def IsString (v : Json) : Prop := ∃ s, v = .string s
def IsBoolean (v : Json) : Prop := ∃ b, v = .boolean b
def IsNumber (v : Json) : Prop := IsBoolean v ∨ (∃ n, v = .integer n) ∨ ∃ m e, v = .float m e

/-- The member, where it is there, is of the type. -/
def Typed (type : Json → Prop) (name : String) (members : List (Text × Json)) : Prop :=
  ∀ v, Json.member members (text name) = some v → type v

/-- An object with a string as its key. -/
structure Record (name : String) (shape : List (Text × Json) → Prop) where
  members : List (Text × Json)
  key : Text
  keyed : Json.member members (text name) = some (.string key)
  shaped : shape members

def Record.json {name : String} {shape : List (Text × Json) → Prop} (r : Record name shape) : Json :=
  .object r.members

/-- An array of objects with pairwise distinct keys. -/
def Records (name : String) (shape : List (Text × Json) → Prop) (j : Json) : Prop :=
  ∃ list : List (Record name shape), j = .array (list.map Record.json) ∧ (list.map Record.key).Nodup

def Strings (j : Json) : Prop := ∃ members, j = .object members ∧ ∀ m ∈ members, IsString m.2

def AccountShape (members : List (Text × Json)) : Prop :=
  Typed IsString "login" members ∧ Typed IsString "password" members

def SourceShape (members : List (Text × Json)) : Prop :=
  Typed IsNumber "priority" members ∧ Typed IsBoolean "enabled" members

/-! ## What the operations rely on -/

/-- The invariant of the document. -/
structure Invariant (doc : Document) : Prop where
  accounts : Records "service" (fun _ => True) (part doc accountsKey)
  sources : Records "url" (fun _ => True) (part doc sourcesKey)
  meta_ : Strings (part doc metaKey)

/-- The texts that an operation stores are UTF-8. -/
def Storable : Operation → Prop
  | .upsertAccount acc => ValidUtf8 acc.service ∧ ValidUtf8 acc.login ∧ ValidUtf8 acc.password
  | .upsertCalendarSource src => ValidUtf8 src.url
  | .setMeta key value => ValidUtf8 key ∧ ValidUtf8 value
  | _ => True

/-- The way to the answer or to the change comes on a value of the wrong type. -/
def MeetsWrongType (doc : Document) (operation : Operation) : Prop :=
  answer doc operation = .error .typeError ∨ change doc operation = .error .typeError

def EmptyBehindDelete (doc : Document) : Prop :=
  ∀ service changed, change doc (.deleteAccount service) = .ok changed →
    getAccount (changed.getD doc) service = .ok none

/-- The document behind a call; one that throws leaves it. -/
def next (doc : Document) (operation : Operation) : Option Document :=
  match change doc operation with
  | .ok changed => some (changed.getD doc)
  | .error _ => some doc

/-- The invariant holds; in every run no call meets a wrong type, and an account is gone right
behind its removal; and where the texts to store are UTF-8, `dump` writes every document. -/
structure Represented (lib : JsonLib) (doc : Document) : Prop where
  invariant : Invariant doc
  calls : ∀ operations,
    Along (fun doc operation => ¬MeetsWrongType doc operation ∧ EmptyBehindDelete doc) next doc operations
  saves : ∀ operations, (∀ operation ∈ operations, Storable operation) →
    Along (fun doc operation => ∀ doc', change doc operation = .ok (some doc') → (lib.dump (toJson doc')).isSome)
      next doc operations

/-- What a file holds under a key: of several members with it the last one counts. -/
def lastMember (members : List (Text × Json)) (key : Text) : Option Json :=
  (members.findRev? (fun m => m.1 = key)).map Prod.snd

/-- A file whose accounts, sources and metadata, where it has them, are of the right shape. -/
structure ShapedFile (members : List (Text × Json)) : Prop where
  accounts : ∀ v, lastMember members accountsKey = some v → Records "service" AccountShape v
  sources : ∀ v, lastMember members sourcesKey = some v → Records "url" SourceShape v
  meta_ : ∀ v, lastMember members metaKey = some v → Strings v

/-- A JSON library that reads UTF-8 only and writes all of it. -/
structure Utf8Json (lib : JsonLib) : Prop where
  dumps : ∀ j, EachText ValidUtf8 j → (lib.dump j).isSome
  parses : ∀ content j, lib.parse content = .ok j → EachText ValidUtf8 j

/-! ## Reading members -/

theorem returns_getString (v : Json) : Returns v.getString ↔ IsString v := by
  cases v <;> simp [Json.getString, IsString, pure, Except.pure]

theorem returns_getBool (v : Json) : Returns v.getBool ↔ IsBoolean v := by
  cases v <;> simp [Json.getBool, IsBoolean, pure, Except.pure]

theorem returns_getInt (v : Json) : Returns v.getInt ↔ IsNumber v := by
  cases v <;> simp [Json.getInt, IsNumber, IsBoolean, pure, Except.pure]

theorem returns_value {α : Type} {get : Json → Except JsonError α} {type : Json → Prop}
    (reads : ∀ v, Returns (get v) ↔ type v) (members : List (Text × Json)) (name : String) (default : α) :
    Returns ((Json.object members).value get (text name) default) ↔ Typed type name members := by
  cases found : Json.member members (text name) <;> simp [Json.value, Typed, found, reads]

theorem returns_readAccount (members : List (Text × Json)) :
    Returns (readAccount (.object members)) ↔ Typed IsString "service" members ∧ AccountShape members := by
  have string (name : String) := returns_value returns_getString members name []
  rw [readAccount, returns_bind (fun _ _ => returns_bind (fun _ _ => returns_bind_pure _ _)), string, string,
    string, AccountShape]

theorem returns_readSource (members : List (Text × Json)) :
    Returns (readSource (.object members)) ↔ Typed IsString "url" members ∧ SourceShape members := by
  rw [readSource, returns_bind (fun _ _ => returns_bind (fun _ _ => returns_bind_pure _ _)),
    returns_value returns_getString, returns_value returns_getInt, returns_value returns_getBool, SourceShape]

/-- The library has other errors, but reading an account or a source gives a type error only. -/
def TypeErrorsOnly {α : Type} (x : Except JsonError α) : Prop := ∀ e, x = .error e → e = .typeError

theorem typeErrorsOnly_pure {α : Type} (a : α) : TypeErrorsOnly (pure a : Except JsonError α) := by
  intro e same
  cases same

theorem typeErrorsOnly_bind {α β : Type} {x : Except JsonError α} {rest : α → Except JsonError β}
    (first : TypeErrorsOnly x) (later : ∀ a, TypeErrorsOnly (rest a)) : TypeErrorsOnly (x >>= rest) := by
  cases x with
  | error e =>
    intro e' same
    cases same
    exact first e rfl
  | ok a => exact later a

theorem typeErrorsOnly_value {α : Type} {get : Json → Except JsonError α} (reads : ∀ v, TypeErrorsOnly (get v))
    (j : Json) (key : Text) (default : α) : TypeErrorsOnly (j.value get key default) := by
  cases j with
  | object members =>
    cases found : Json.member members key with
    | none =>
      simp only [Json.value, found]
      exact typeErrorsOnly_pure default
    | some v =>
      simp only [Json.value, found]
      exact reads v
  | _ => exact fun e same => (Except.error.inj same).symm

theorem typeErrorsOnly_mapM {α β : Type} {f : α → Except JsonError β} (each : ∀ a, TypeErrorsOnly (f a))
    (items : List α) : TypeErrorsOnly (items.mapM f) := by
  induction items with
  | nil => exact typeErrorsOnly_pure []
  | cons item rest ih =>
    rw [List.mapM_cons]
    exact typeErrorsOnly_bind (each item) (fun _ => typeErrorsOnly_bind ih (fun _ => typeErrorsOnly_pure _))

theorem typeErrorsOnly_getString (v : Json) : TypeErrorsOnly v.getString := by
  cases v <;> first | exact typeErrorsOnly_pure _ | exact fun e same => (Except.error.inj same).symm

theorem typeErrorsOnly_getBool (v : Json) : TypeErrorsOnly v.getBool := by
  cases v <;> first | exact typeErrorsOnly_pure _ | exact fun e same => (Except.error.inj same).symm

theorem typeErrorsOnly_getInt (v : Json) : TypeErrorsOnly v.getInt := by
  cases v <;> first | exact typeErrorsOnly_pure _ | exact fun e same => (Except.error.inj same).symm

theorem typeErrorsOnly_readAccount (j : Json) : TypeErrorsOnly (readAccount j) := by
  have string := fun name => typeErrorsOnly_value typeErrorsOnly_getString j (text name) []
  exact typeErrorsOnly_bind (string _) (fun _ => typeErrorsOnly_bind (string _) (fun _ =>
    typeErrorsOnly_bind (string _) (fun _ => typeErrorsOnly_pure _)))

theorem typeErrorsOnly_readSource (j : Json) : TypeErrorsOnly (readSource j) :=
  typeErrorsOnly_bind (typeErrorsOnly_value typeErrorsOnly_getString j _ _) (fun _ =>
    typeErrorsOnly_bind (typeErrorsOnly_value typeErrorsOnly_getInt j _ _) (fun _ =>
      typeErrorsOnly_bind (typeErrorsOnly_value typeErrorsOnly_getBool j _ _) (fun _ => typeErrorsOnly_pure _)))

/-- Without a type error the list is read. -/
theorem returns_of_typeErrorsOnly {α : Type} {x : Except JsonError α} (only : TypeErrorsOnly x)
    (fine : x ≠ .error .typeError) : Returns x := by
  cases x with
  | error e => exact absurd (congrArg Except.error (only e rfl)) fine
  | ok a => exact ⟨a, rfl⟩

/-! ## Records -/

section Records
variable {name : String} {shape : List (Text × Json) → Prop} {j : Json}

theorem Record.reads (r : Record name shape) : r.json.value Json.getString (text name) [] = .ok r.key := by
  simp [Record.json, Json.value, r.keyed, Json.getString, pure, Except.pure]

theorem Records.upsert (records : Records name shape j) (r : Record name shape) :
    ∃ j', upsertItem name r.key r.json j = .ok j' ∧ Records name shape j' := by
  obtain ⟨list, rfl, distinct⟩ := records
  exact ⟨_, upsertItem_map Record.reads r list, _, rfl, upsert_distinct distinct⟩

/-- Behind a removal no record has the key. -/
theorem Records.delete (records : Records name shape j) (wanted : Text) :
    ∃ changed, deleteItem name wanted j = .ok changed ∧ Records name shape (changed.getD j) ∧
      findItem name wanted (changed.getD j).children = .ok none := by
  obtain ⟨list, rfl, distinct⟩ := records
  have kept : Records name shape (.array ((Library.KeyedList.remove Record.key wanted list).map Record.json)) :=
    ⟨_, rfl, remove_distinct distinct⟩
  have gone : findItem name wanted ((Library.KeyedList.remove Record.key wanted list).map Record.json) =
      .ok none := by
    rw [findItem_map Record.reads, List.findIdx?_eq_none_iff.mpr]
    intro r member
    simpa using ((mem_remove distinct r).mp member).2
  rcases deleteItem_map Record.reads wanted list with found | ⟨missing, same⟩
  · exact ⟨_, found, kept, gone⟩
  · rw [same] at kept gone
    exact ⟨_, missing, kept, gone⟩

theorem Records.find (records : Records name shape j) (wanted : Text) :
    findItem name wanted j.children = .ok none ∨
      ∃ i, ∃ r : Record name shape, findItem name wanted j.children = .ok (some i) ∧
        j.children[i]? = some r.json := by
  obtain ⟨list, rfl, distinct⟩ := records
  have looked := findItem_map Record.reads wanted list
  cases found : list.findIdx? (fun r => r.key = wanted) with
  | none => exact .inl (looked.trans (by rw [found]))
  | some i =>
    obtain ⟨inside, _, _⟩ := List.findIdx?_eq_some_iff_getElem.mp found
    refine .inr ⟨i, list[i], looked.trans (by rw [found]), ?_⟩
    simp [Json.children, inside]

theorem Records.returns_mapM {α : Type} {decode : Json → Except JsonError α} (records : Records name shape j)
    (reads : ∀ r : Record name shape, Returns (decode r.json)) : Returns (j.children.mapM decode) := by
  obtain ⟨list, rfl, _⟩ := records
  rw [Json.children, Library.Fallible.returns_mapM (fun _ => Iff.rfl)]
  intro item member
  obtain ⟨r, _, rfl⟩ := List.mem_map.mp member
  exact reads r

/-- Records of which each has another shape as well. -/
theorem Records.refine {shape' : List (Text × Json) → Prop} (records : Records name shape j)
    (finer : ∀ r : Record name shape, r.json ∈ j.children → shape' r.members) : Records name shape' j := by
  obtain ⟨list, rfl, distinct⟩ := records
  have each : ∀ r ∈ list, shape' r.members := fun r member => finer r (List.mem_map_of_mem member)
  refine ⟨list.pmap (fun r shaped => ⟨r.members, r.key, r.keyed, shaped⟩) each, ?_, ?_⟩
  · rw [List.map_pmap]
    exact congrArg Json.array (List.pmap_eq_map ..).symm
  · rw [List.map_pmap]
    exact (List.pmap_eq_map ..).symm ▸ distinct

end Records

/-! ## Documents of the right shape -/

/-- The document that every operation of a run keeps. -/
structure Shaped (doc : Document) : Prop where
  accounts : Records "service" AccountShape (part doc accountsKey)
  sources : Records "url" SourceShape (part doc sourcesKey)
  meta_ : Strings (part doc metaKey)

def accountRecord (acc : Account) : Record "service" AccountShape where
  members := [(text "login", .string acc.login), (text "password", .string acc.password),
    (text "service", .string acc.service)]
  key := acc.service
  keyed := rfl
  shaped := ⟨fun _ found => ⟨acc.login, (Option.some.inj found).symm⟩,
    fun _ found => ⟨acc.password, (Option.some.inj found).symm⟩⟩

def sourceRecord (src : CalendarSource) : Record "url" SourceShape where
  members := [(text "enabled", .boolean src.enabled), (text "priority", .integer src.priority),
    (text "url", .string src.url)]
  key := src.url
  keyed := rfl
  shaped := ⟨fun _ found => .inr (.inl ⟨src.priority, (Option.some.inj found).symm⟩),
    fun _ found => ⟨src.enabled, (Option.some.inj found).symm⟩⟩

section Shaped
variable {doc : Document}

theorem Shaped.withAccounts (shaped : Shaped doc) {j : Json} (records : Records "service" AccountShape j) :
    Shaped (doc.insert accountsKey j) where
  accounts := by rw [part_insert]; exact records
  sources := by rw [part_insert_of_ne _ sources_ne_accounts.symm]; exact shaped.sources
  meta_ := by rw [part_insert_of_ne _ meta_ne_accounts.symm]; exact shaped.meta_

theorem Shaped.withSources (shaped : Shaped doc) {j : Json} (records : Records "url" SourceShape j) :
    Shaped (doc.insert sourcesKey j) where
  accounts := by rw [part_insert_of_ne _ sources_ne_accounts]; exact shaped.accounts
  sources := by rw [part_insert]; exact records
  meta_ := by rw [part_insert_of_ne _ meta_ne_sources.symm]; exact shaped.meta_

theorem Shaped.withMeta (shaped : Shaped doc) {j : Json} (strings : Strings j) :
    Shaped (doc.insert metaKey j) where
  accounts := by rw [part_insert_of_ne _ meta_ne_accounts]; exact shaped.accounts
  sources := by rw [part_insert_of_ne _ meta_ne_sources]; exact shaped.sources
  meta_ := by rw [part_insert]; exact strings

theorem records_nil (name : String) (shape : List (Text × Json) → Prop) : Records name shape (.array []) :=
  ⟨[], rfl, List.nodup_nil⟩

theorem strings_nil : Strings (.object []) := ⟨[], rfl, fun _ member => nomatch member⟩

theorem change_shaped (shaped : Shaped doc) (operation : Operation) :
    ∃ changed, change doc operation = .ok changed ∧ Shaped (changed.getD doc) := by
  obtain ⟨members, isObject, strings⟩ := shaped.meta_
  cases operation with
  | upsertAccount acc =>
    obtain ⟨j, changed, records⟩ := shaped.accounts.upsert (accountRecord acc)
    have upserted : upsertItem "service" acc.service (accountJson acc) (part doc accountsKey) = .ok j := changed
    exact ⟨some _, by rw [change, upserted]; rfl, shaped.withAccounts records⟩
  | deleteAccount service =>
    obtain ⟨changed, found, records, _⟩ := shaped.accounts.delete service
    cases changed with
    | none => exact ⟨none, by rw [change, found]; rfl, shaped⟩
    | some j => exact ⟨some _, by rw [change, found]; rfl, shaped.withAccounts records⟩
  | upsertCalendarSource src =>
    obtain ⟨j, changed, records⟩ := shaped.sources.upsert (sourceRecord src)
    have upserted : upsertItem "url" src.url (sourceJson src) (part doc sourcesKey) = .ok j := changed
    exact ⟨some _, by rw [change, upserted]; rfl, shaped.withSources records⟩
  | removeCalendarSource url =>
    obtain ⟨changed, found, records, _⟩ := shaped.sources.delete url
    cases changed with
    | none => exact ⟨none, by rw [change, found]; rfl, shaped⟩
    | some j => exact ⟨some _, by rw [change, found]; rfl, shaped.withSources records⟩
  | setMeta key value =>
    refine ⟨some _, by rw [change, isObject]; rfl, shaped.withMeta ⟨_, rfl, fun m inside => ?_⟩⟩
    rcases Json.mem_of_mem_setMember inside with rfl | kept
    · exact ⟨value, rfl⟩
    · exact strings m kept
  | deleteMeta key =>
    exact ⟨some _, by rw [change, isObject]; rfl, shaped.withMeta ⟨_, rfl, fun m inside =>
      strings m (List.mem_of_mem_filter inside)⟩⟩
  | clear =>
    exact ⟨some _, rfl, ((shaped.withAccounts (records_nil _ _)).withSources (records_nil _ _)).withMeta
      strings_nil⟩
  | getAccount service => exact ⟨none, rfl, shaped⟩
  | listAccounts => exact ⟨none, rfl, shaped⟩
  | listCalendarSources => exact ⟨none, rfl, shaped⟩
  | getMeta key => exact ⟨none, rfl, shaped⟩
  | listMeta => exact ⟨none, rfl, shaped⟩
  | reopen => exact ⟨none, rfl, shaped⟩

theorem record_readAccount (r : Record "service" AccountShape) : Returns (readAccount r.json) :=
  (returns_readAccount r.members).mpr ⟨fun _ found => ⟨r.key, Option.some.inj (found.symm.trans r.keyed)⟩,
    r.shaped⟩

theorem record_readSource (r : Record "url" SourceShape) : Returns (readSource r.json) :=
  (returns_readSource r.members).mpr ⟨fun _ found => ⟨r.key, Option.some.inj (found.symm.trans r.keyed)⟩,
    r.shaped⟩

theorem getAccount_returns (shaped : Shaped doc) (service : Text) : Returns (getAccount doc service) := by
  rcases shaped.accounts.find service with missing | ⟨i, r, found, held⟩
  · exact ⟨none, by rw [getAccount, missing]; rfl⟩
  · obtain ⟨acc, read⟩ := record_readAccount r
    exact ⟨some acc, by simp [getAccount, found, held, read, bind, Except.bind, pure, Except.pure]⟩

theorem getMeta_returns (shaped : Shaped doc) (key : Text) : Returns (getMeta doc key) := by
  obtain ⟨members, isObject, strings⟩ := shaped.meta_
  rw [getMeta, isObject]
  cases found : Json.member members key with
  | none => exact ⟨none, by simp [found, pure, Except.pure]⟩
  | some v =>
    obtain ⟨m, inside, rfl⟩ := Option.map_eq_some_iff.mp found
    obtain ⟨s, isString⟩ := strings m (List.mem_of_find?_eq_some inside)
    exact ⟨some s, by simp [found, isString, Json.getString, bind, Except.bind, pure, Except.pure]⟩

theorem listMeta_returns (shaped : Shaped doc) : Returns (listMeta doc) := by
  obtain ⟨members, isObject, strings⟩ := shaped.meta_
  have reads (m : Text × Json) : Returns (do pure (m.1, ← m.2.getString) : Except JsonError (Text × Text)) ↔
      IsString m.2 := by rw [returns_bind_pure, returns_getString]
  rw [listMeta, isObject, metaItems, returns_mapM reads]
  exact strings

theorem answer_returns (shaped : Shaped doc) (operation : Operation) : Returns (answer doc operation) := by
  cases operation with
  | getAccount service =>
    rw [answer, returns_bind_pure]
    exact getAccount_returns shaped service
  | listAccounts =>
    rw [answer, returns_bind_pure]
    exact shaped.accounts.returns_mapM record_readAccount
  | listCalendarSources =>
    rw [answer, returns_bind_pure, listCalendarSources, returns_bind_pure]
    exact shaped.sources.returns_mapM record_readSource
  | getMeta key =>
    rw [answer, returns_bind_pure]
    exact getMeta_returns shaped key
  | listMeta =>
    rw [answer, returns_bind_pure]
    exact listMeta_returns shaped
  | _ => exact ⟨.done, rfl⟩

theorem emptyBehindDelete_shaped (shaped : Shaped doc) : EmptyBehindDelete doc := by
  intro service changed deleted
  obtain ⟨list, found, _, gone⟩ := shaped.accounts.delete service
  rw [change, found] at deleted
  cases deleted
  have accounts : part ((list.map (doc.insert accountsKey)).getD doc) accountsKey =
      list.getD (part doc accountsKey) := by
    cases list with
    | none => rfl
    | some j => exact part_insert doc accountsKey j
  rw [getAccount, accounts, gone]
  rfl

/-- In every run from a document of the right shape the calls are as they should be. -/
theorem calls_shaped (shaped : Shaped doc) (operations : List Operation) :
    Along (fun doc operation => ¬MeetsWrongType doc operation ∧ EmptyBehindDelete doc) next doc operations := by
  induction operations generalizing doc with
  | nil => trivial
  | cons operation rest ih =>
    obtain ⟨changed, change, kept⟩ := change_shaped shaped operation
    refine ⟨⟨?_, emptyBehindDelete_shaped shaped⟩, fun doc' stepped => ?_⟩
    · rintro (answered | changing)
      · obtain ⟨a, returned⟩ := answer_returns shaped operation
        rw [returned] at answered
        cases answered
      · rw [change] at changing
        cases changing
    · rw [next, change] at stepped
      cases stepped
      exact ih kept

end Shaped

/-! ## Documents in UTF-8 -/

section Utf8
variable {doc doc' : Document}

theorem part_utf8 (utf8 : Utf8Document doc) (key : Text) : EachText ValidUtf8 (part doc key) := by
  unfold part
  cases found : doc[key]? with
  | none => exact .null
  | some v => exact (utf8 key v found).2

theorem upsertItem_utf8 {name : String} {wanted : Text} {item list list' : Json}
    (valid : EachText ValidUtf8 list) (validItem : EachText ValidUtf8 item)
    (upserted : upsertItem name wanted item list = .ok list') : EachText ValidUtf8 list' := by
  obtain ⟨position, _, placed⟩ := bind_eq_ok.mp upserted
  cases position with
  | none => exact Json.eachText_pushBack valid validItem placed
  | some i =>
    cases placed
    exact Json.eachText_setChild valid validItem i

theorem deleteItem_utf8 {name : String} {wanted : Text} {list list' : Json} (valid : EachText ValidUtf8 list)
    (deleted : deleteItem name wanted list = .ok (some list')) : EachText ValidUtf8 list' := by
  obtain ⟨position, _, erased⟩ := bind_eq_ok.mp deleted
  obtain ⟨i, _, rfl⟩ := Option.map_eq_some_iff.mp (Except.ok.inj erased)
  exact Json.eachText_eraseChild valid i

theorem setMeta_utf8 {key value : Text} {j j' : Json} (valid : EachText ValidUtf8 j) (validKey : ValidUtf8 key)
    (validValue : ValidUtf8 value) (set : setMeta key value j = .ok j') : EachText ValidUtf8 j' := by
  cases j with
  | null =>
    cases set
    exact .object (by simpa using validKey) (by simpa using EachText.string validValue)
  | object members =>
    cases set
    exact Json.eachText_setMember valid validKey (.string validValue)
  | _ => cases set

theorem deleteMeta_utf8 {key : Text} {j j' : Json} (valid : EachText ValidUtf8 j)
    (deleted : deleteMeta key j = .ok j') : EachText ValidUtf8 j' := by
  cases j with
  | object members =>
    cases deleted
    exact Json.eachText_eraseMember valid key
  | _ => cases deleted

/-- Whatever the shape of the document: storing UTF-8 keeps it in UTF-8. -/
theorem change_utf8 (utf8 : Utf8Document doc) {operation : Operation} (storable : Storable operation)
    (changed : change doc operation = .ok (some doc')) : Utf8Document doc' := by
  cases operation with
  | upsertAccount acc =>
    obtain ⟨list, upserted, same⟩ := bind_eq_ok.mp changed
    cases same
    exact utf8Document_insert utf8 (by decide)
      (upsertItem_utf8 (part_utf8 utf8 _) (accountJson_valid storable.1 storable.2.1 storable.2.2) upserted)
  | deleteAccount service =>
    obtain ⟨found, deleted, same⟩ := bind_eq_ok.mp changed
    obtain ⟨list, rfl, rfl⟩ := Option.map_eq_some_iff.mp (Except.ok.inj same)
    exact utf8Document_insert utf8 (by decide) (deleteItem_utf8 (part_utf8 utf8 _) deleted)
  | upsertCalendarSource src =>
    obtain ⟨list, upserted, same⟩ := bind_eq_ok.mp changed
    cases same
    exact utf8Document_insert utf8 (by decide)
      (upsertItem_utf8 (part_utf8 utf8 _) (sourceJson_valid storable) upserted)
  | removeCalendarSource url =>
    obtain ⟨found, deleted, same⟩ := bind_eq_ok.mp changed
    obtain ⟨list, rfl, rfl⟩ := Option.map_eq_some_iff.mp (Except.ok.inj same)
    exact utf8Document_insert utf8 (by decide) (deleteItem_utf8 (part_utf8 utf8 _) deleted)
  | setMeta key value =>
    obtain ⟨object, set, same⟩ := bind_eq_ok.mp changed
    cases same
    exact utf8Document_insert utf8 (by decide) (setMeta_utf8 (part_utf8 utf8 _) storable.1 storable.2 set)
  | deleteMeta key =>
    obtain ⟨object, deleted, same⟩ := bind_eq_ok.mp changed
    cases same
    exact utf8Document_insert utf8 (by decide) (deleteMeta_utf8 (part_utf8 utf8 _) deleted)
  | clear =>
    cases changed
    exact utf8Document_insert (utf8Document_insert (utf8Document_insert utf8 (by decide) (.array (by simp)))
      (by decide) (.array (by simp))) (by decide) (.object (by simp) (by simp))
  | getAccount _ => cases changed
  | listAccounts => cases changed
  | listCalendarSources => cases changed
  | getMeta _ => cases changed
  | listMeta => cases changed
  | reopen => cases changed

theorem saves_utf8 {lib : JsonLib} (dumps : ∀ j, EachText ValidUtf8 j → (lib.dump j).isSome)
    {operations : List Operation} (utf8 : Utf8Document doc)
    (storable : ∀ operation ∈ operations, Storable operation) :
    Along (fun doc operation => ∀ doc', change doc operation = .ok (some doc') → (lib.dump (toJson doc')).isSome)
      next doc operations := by
  induction operations generalizing doc with
  | nil => trivial
  | cons operation rest ih =>
    obtain ⟨here, later⟩ := List.forall_mem_cons.mp storable
    refine ⟨fun doc' changed => dumps _ (utf8Document_toJson (change_utf8 utf8 here changed)),
      fun doc' stepped => ih ?_ later⟩
    rw [next] at stepped
    cases changed : change doc operation with
    | error e =>
      rw [changed] at stepped
      exact Option.some.inj stepped ▸ utf8
    | ok result =>
      rw [changed] at stepped
      cases result with
      | none => exact Option.some.inj stepped ▸ utf8
      | some saved => exact Option.some.inj stepped ▸ change_utf8 utf8 here changed

end Utf8

/-! ## The loaded document -/

section Load
variable {members : List (Text × Json)}

theorem loaded_getElem? (members : List (Text × Json)) (key : Text) :
    (defaultDocument.insertMany members)[key]? = (lastMember members key).or defaultDocument[key]? := by
  have inserted : (defaultDocument.insertMany (members.map (fun m => (m.1, m.2))))[key]? =
      (lastMember members key).or defaultDocument[key]? := getElem?_insertMany members defaultDocument key
  rwa [List.map_id'] at inserted

theorem part_loaded (members : List (Text × Json)) (key : Text) :
    part (defaultDocument.insertMany members) key = (lastMember members key).getD (part defaultDocument key) := by
  rw [part, loaded_getElem?]
  cases lastMember members key <;> rfl

theorem loaded_utf8 (valid : EachText ValidUtf8 (.object members)) :
    Utf8Document (defaultDocument.insertMany members) := by
  intro key v found
  rw [loaded_getElem?] at found
  cases last : lastMember members key with
  | none =>
    rw [last, Option.none_or] at found
    exact Equivalence.simulates_default.utf8 key v found
  | some w =>
    rw [last, Option.some_or] at found
    obtain rfl := Option.some.inj found
    obtain ⟨m, isLast, rfl⟩ := Option.map_eq_some_iff.mp last
    rw [List.findRev?_eq_find?_reverse] at isLast
    have inside := List.mem_reverse.mp (List.mem_of_find?_eq_some isLast)
    have key : m.1 = key := by simpa using List.find?_some isLast
    exact key ▸ (Json.eachText_object members).mp valid m inside

theorem shaped_loaded (shaped : ShapedFile members) : Shaped (defaultDocument.insertMany members) := by
  refine ⟨?_, ?_, ?_⟩
  · rw [part_loaded]
    cases last : lastMember members accountsKey with
    | none => exact records_nil _ _
    | some v => exact shaped.accounts v last
  · rw [part_loaded]
    cases last : lastMember members sourcesKey with
    | none => exact records_nil _ _
    | some v => exact shaped.sources v last
  · rw [part_loaded]
    cases last : lastMember members metaKey with
    | none => exact strings_nil
    | some v => exact shaped.meta_ v last

theorem Records.weaken {name : String} {shape : List (Text × Json) → Prop} {j : Json}
    (records : Records name shape j) : Records name (fun _ => True) j :=
  records.refine (fun _ _ => trivial)

theorem shapedFile_of_represented {lib : JsonLib}
    (represented : Represented lib (defaultDocument.insertMany members)) : ShapedFile members := by
  have fine (operation : Operation) : ¬MeetsWrongType (defaultDocument.insertMany members) operation :=
    (represented.calls [operation]).1.1
  have accounts : Returns (listAccounts (defaultDocument.insertMany members)) :=
    returns_of_typeErrorsOnly (typeErrorsOnly_mapM typeErrorsOnly_readAccount _) (fun raised =>
      fine .listAccounts (.inl (by rw [answer, raised]; rfl)))
  have sources : Returns ((part (defaultDocument.insertMany members) sourcesKey).children.mapM readSource) :=
    returns_of_typeErrorsOnly (typeErrorsOnly_mapM typeErrorsOnly_readSource _) (fun raised =>
      fine .listCalendarSources (.inl (by rw [answer, listCalendarSources, raised]; rfl)))
  rw [listAccounts, returns_mapM (fun _ => Iff.rfl)] at accounts
  rw [returns_mapM (fun _ => Iff.rfl)] at sources
  have invariant := represented.invariant
  refine ⟨fun v last => ?_, fun v last => ?_, fun v last => ?_⟩
  · have records := invariant.accounts.refine (fun r inside => ((returns_readAccount r.members).mp
      (accounts _ inside)).2)
    rwa [part_loaded, last] at records
  · have records := invariant.sources.refine (fun r inside => ((returns_readSource r.members).mp
      (sources _ inside)).2)
    rwa [part_loaded, last] at records
  · have strings := invariant.meta_
    rwa [part_loaded, last] at strings

/-- For every content that the constructor accepts: the document is as the operations rely on
exactly where the accounts, the sources and the metadata in the file have the right shape. -/
theorem loaded_represented_iff {lib : JsonLib} (utf8 : Utf8Json lib) {disk : Disk} {content : Text}
    {doc : Document} (held : disk.dest = some content) (accepted : loadedDocument lib disk = some doc) :
    Represented lib doc ↔ ∃ members, lib.parse content = .ok (.object members) ∧ ShapedFile members := by
  simp only [loadedDocument, held] at accepted
  split at accepted
  · next members parsed =>
    obtain rfl := Option.some.inj accepted
    constructor
    · exact fun represented => ⟨members, parsed, shapedFile_of_represented represented⟩
    · rintro ⟨members', parsed', shapedFile⟩
      obtain rfl := Json.object.inj (Except.ok.inj (parsed.symm.trans parsed'))
      have shaped := shaped_loaded shapedFile
      exact ⟨⟨shaped.accounts.weaken, shaped.sources.weaken, shaped.meta_⟩, calls_shaped shaped,
        fun _ storable => saves_utf8 utf8.dumps (loaded_utf8 (utf8.parses _ _ parsed)) storable⟩
  · cases accepted

end Load

/-- Where text is stored that is not UTF-8, `dump` throws whatever the file was. -/
theorem setMeta_refused {lib : JsonLib} (refuses : ∀ j, (lib.dump j).isSome → EachText ValidUtf8 j)
    {doc doc' : Document} {key value : Text} (invalid : ¬ValidUtf8 value)
    (changed : change doc (.setMeta key value) = .ok (some doc')) : lib.dump (toJson doc') = none := by
  obtain ⟨object, set, same⟩ := bind_eq_ok.mp changed
  cases same
  by_contra written
  have valid := refuses _ (Option.isSome_iff_ne_none.mpr written)
  have stored : (metaKey, object) ∈ (doc.insert metaKey object).toList :=
    Std.ExtTreeMap.mem_toList_iff_getElem?_eq_some.mpr (by simp)
  have validObject := ((Json.eachText_object _).mp valid _ stored).2
  obtain ⟨members, rfl, found⟩ : ∃ members, object = .object members ∧
      Json.member members key = some (.string value) := by
    generalize part doc metaKey = before at set
    cases before with
    | null =>
      cases set
      exact ⟨_, rfl, by simp [Json.member]⟩
    | object members =>
      cases set
      exact ⟨_, rfl, by rw [Json.member_setMember, if_pos rfl]⟩
    | _ => cases set
  obtain ⟨m, inside, isValue⟩ := Option.map_eq_some_iff.mp found
  have validValue := ((Json.eachText_object _).mp validObject m (List.mem_of_find?_eq_some inside)).2
  rw [isValue, Json.eachText_string] at validValue
  exact invalid validValue

/-! ## Two files -/

/-- A library that reads these values, and writes every value without blanks. -/
def fileLib (values : List Json) : JsonLib := { compactLib values with dump := fun j => some j.compact }

theorem fileLib_utf8 {values : List Json} (valid : ∀ j ∈ values, EachText ValidUtf8 j) :
    Utf8Json (fileLib values) where
  dumps _ _ := rfl
  parses content j parsed := by
    simp only [fileLib, compactLib, tableLib] at parsed
    split at parsed
    · next row found =>
      obtain ⟨v, inside, rfl⟩ := List.mem_map.mp (List.mem_of_find?_eq_some found)
      cases parsed
      exact valid v inside
    · cases parsed

def accountsFile (accounts : Json) : Json := .object [(accountsKey, accounts)]

def twoAccounts : Json :=
  .array [.object [(text "service", .string (text "divoom"))],
    .object [(text "login", .string (text "a")), (text "service", .string (text "jira"))]]

/-- A file with the accounts of two services, one of them without a login. -/
theorem loaded_represented_two :
    Represented (fileLib [accountsFile twoAccounts]) (defaultDocument.insertMany [(accountsKey, twoAccounts)]) := by
  have held : ({ dest := some (accountsFile twoAccounts).compact } : Disk).dest =
      some (accountsFile twoAccounts).compact := rfl
  refine (loaded_represented_iff (fileLib_utf8 (by decide +kernel)) held (by decide +kernel)).mpr
    ⟨[(accountsKey, twoAccounts)], by decide +kernel, ?_⟩
  refine ⟨fun v last => ?_, fun v last => ?_, fun v last => ?_⟩
  · cases last
    have divoom : AccountShape [(text "service", .string (text "divoom"))] := by
      constructor <;> (intro v found; cases found)
    have jira : AccountShape [(text "login", .string (text "a")), (text "service", .string (text "jira"))] := by
      constructor
      · intro v found
        cases found
        exact ⟨_, rfl⟩
      · intro v found
        cases found
    exact ⟨[⟨_, text "divoom", rfl, divoom⟩, ⟨_, text "jira", rfl, jira⟩], rfl,
      show [text "divoom", text "jira"].Nodup by decide +kernel⟩
  · cases last
  · cases last

/-- The constructor accepts a number in the place of the accounts, and the first call throws. -/
theorem number_for_accounts_loaded :
    ¬∀ (lib : JsonLib) (disk : Disk) (content : Text) (doc : Document), Utf8Json lib →
      disk.dest = some content → loadedDocument lib disk = some doc → Represented lib doc := by
  intro always
  have represented := always (fileLib [accountsFile (.integer 5)])
    { dest := some (accountsFile (.integer 5)).compact } _ (defaultDocument.insertMany [(accountsKey, .integer 5)])
    (fileLib_utf8 (by decide +kernel)) rfl (by decide +kernel)
  exact (represented.calls [.listAccounts]).1.1 (.inl (by decide +kernel))

end DivoomDev.Storage.Representation
