import DivoomDev.Storage.Durability
import DivoomDev.Storage.SqliteBackend

/-! A simulation between the JSON document and the SQLite tables: every operation keeps it,
and answers alike on both sides. -/

namespace DivoomDev.Storage.Simulation
open DivoomDev.Library.Bytes DivoomDev.Library.JsonValues DivoomDev.Library.KeyedList
  DivoomDev.Library.Fallible Models JsonBackend Durability SqliteBackend
open Json (EachText)

def CleanText (s : Text) : Prop := ValidUtf8 s ∧ 0 ∉ s

instance : DecidablePred CleanText := fun _ => inferInstanceAs (Decidable (_ ∧ _))

def CleanAccount (acc : Account) : Prop :=
  CleanText acc.service ∧ CleanText acc.login ∧ CleanText acc.password

/-- The priority is an `int`. -/
def CleanSource (src : CalendarSource) : Prop :=
  CleanText src.url ∧ intMin ≤ src.priority ∧ src.priority ≤ intMax

/-- Clean text, and metadata keys other than that of the schema version. -/
def Clean : Operation → Prop
  | .upsertAccount acc => CleanAccount acc
  | .upsertCalendarSource src => CleanSource src
  | .setMeta key value => CleanText key ∧ CleanText value ∧ key ≠ schemaVersion
  | .getAccount s | .deleteAccount s | .removeCalendarSource s => CleanText s
  | .getMeta key | .deleteMeta key => CleanText key ∧ key ≠ schemaVersion
  | .listAccounts | .listCalendarSources | .listMeta | .clear | .reopen => True

/-- Equal answers, where the order of the accounts and the row of the schema version do not
count. -/
def Agree : Answer → Answer → Prop
  | .accounts json, .accounts sql => json.Perm sql
  | .metaRows json, .metaRows sql => json = sql.filter (fun row => row.1 ≠ schemaVersion)
  | json, sql => json = sql

theorem columnText_clean {s : Text} (clean : CleanText s) : columnText s = s :=
  List.takeWhile_eq_self_iff.mpr (fun c member => by
    simpa using fun zero : c = 0 => clean.2 (zero ▸ member))

/-! ## Lists of encoded records -/

section Encoded
variable {α : Type} {encode : α → Json} {name : String} {keyOf : α → Text}

theorem findItem_map (reads : ∀ a, (encode a).value Json.getString (text name) [] = .ok (keyOf a))
    (wanted : Text) (list : List α) :
    findItem name wanted (list.map encode) = .ok (list.findIdx? (fun a => keyOf a = wanted)) := by
  induction list with
  | nil => rfl
  | cons a rest ih =>
    simp only [List.map_cons, findItem, reads, ih, List.findIdx?_cons, bind, Except.bind, pure,
      Except.pure, decide_eq_true_eq]
    split_ifs <;> rfl

theorem upsertItem_map (reads : ∀ a, (encode a).value Json.getString (text name) [] = .ok (keyOf a))
    (a : α) (list : List α) :
    upsertItem name (keyOf a) (encode a) (.array (list.map encode)) =
      .ok (.array ((upsert keyOf a list).map encode)) := by
  rw [← upsert_of_findIdx?]
  simp only [upsertItem, Json.children, findItem_map reads, bind, Except.bind]
  cases list.findIdx? (fun b => keyOf b = keyOf a) with
  | none => simp [Json.pushBack, pure, Except.pure]
  | some i => simp [Json.setChild, pure, Except.pure, List.map_set]

theorem deleteItem_map (reads : ∀ a, (encode a).value Json.getString (text name) [] = .ok (keyOf a))
    (wanted : Text) (list : List α) :
    deleteItem name wanted (.array (list.map encode)) =
        .ok (some (.array ((remove keyOf wanted list).map encode))) ∨
      (deleteItem name wanted (.array (list.map encode)) = .ok none ∧ remove keyOf wanted list = list) := by
  rw [← remove_of_findIdx?]
  simp only [deleteItem, Json.children, findItem_map reads, bind, Except.bind]
  cases list.findIdx? (fun b => keyOf b = wanted) with
  | none => exact .inr ⟨rfl, rfl⟩
  | some i => exact .inl (by simp [Json.eraseChild, pure, Except.pure, List.eraseIdx_map])

end Encoded

theorem accountJson_service (acc : Account) :
    (accountJson acc).value Json.getString (text "service") [] = .ok acc.service := rfl

theorem readAccount_accountJson (acc : Account) : JsonBackend.readAccount (accountJson acc) = .ok acc := rfl

theorem sourceJson_url (src : CalendarSource) :
    (sourceJson src).value Json.getString (text "url") [] = .ok src.url := rfl

theorem readSource_sourceJson {src : CalendarSource} (low : intMin ≤ src.priority)
    (high : src.priority ≤ intMax) : readSource (sourceJson src) = .ok src := by
  have same : Json.wrapInt src.priority = src.priority := Json.wrapInt_eq ⟨low, high⟩
  have read : readSource (sourceJson src) = .ok ⟨src.url, Json.wrapInt src.priority, src.enabled⟩ := rfl
  rw [read, same]

/-! ## Metadata -/

/-- The metadata of the tables as the members of a JSON object. -/
def metaMembers (rows : Std.ExtTreeMap Text Text) : List (Text × Json) :=
  (rows.toList.filter (fun row => row.1 ≠ schemaVersion)).map (fun row => (row.1, .string row.2))

theorem mem_metaMembers (rows : Std.ExtTreeMap Text Text) (m : Text × Json) :
    m ∈ metaMembers rows ↔ m.1 ≠ schemaVersion ∧ ∃ value, rows[m.1]? = some value ∧ m.2 = .string value := by
  obtain ⟨key, v⟩ := m
  simp only [metaMembers, List.mem_map, List.mem_filter, Prod.exists, Prod.mk.injEq,
    Std.ExtTreeMap.mem_toList_iff_getElem?_eq_some, decide_eq_true_eq]
  apply Iff.intro
  · intro given
    obtain ⟨key, value, ⟨found, other⟩, rfl, rfl⟩ := given
    exact ⟨other, value, found, rfl⟩
  · intro given
    obtain ⟨other, value, found, rfl⟩ := given
    exact ⟨key, value, ⟨found, other⟩, rfl, rfl⟩

theorem metaMembers_sorted (rows : Std.ExtTreeMap Text Text) : Json.KeySorted (metaMembers rows) :=
  List.pairwise_map.mpr (rows.ordered_keys_toList.filter _)

theorem setMember_metaMembers {key : Text} (other : key ≠ schemaVersion) (value : Text)
    (rows : Std.ExtTreeMap Text Text) :
    Json.setMember (metaMembers rows) key (.string value) = metaMembers (rows.insert key value) := by
  refine (Json.setMember_sorted (metaMembers_sorted rows) key _).ext (metaMembers_sorted _) (fun m => ?_)
  rw [Json.mem_setMember (metaMembers_sorted rows), mem_metaMembers, mem_metaMembers,
    Std.ExtTreeMap.getElem?_insert]
  obtain ⟨k, v⟩ := m
  by_cases same : key = k
  · subst same
    simp [other, eq_comm]
  · simp [same, Ne.symm same]

theorem eraseMember_metaMembers (key : Text) (rows : Std.ExtTreeMap Text Text) :
    Json.eraseMember (metaMembers rows) key = metaMembers (rows.erase key) := by
  refine (Json.eraseMember_sorted (metaMembers_sorted rows) key).ext (metaMembers_sorted _) (fun m => ?_)
  rw [Json.mem_eraseMember, mem_metaMembers, mem_metaMembers, Std.ExtTreeMap.getElem?_erase]
  obtain ⟨k, v⟩ := m
  by_cases same : key = k
  · subst same
    simp
  · simp [same, Ne.symm same]

theorem member_metaMembers {key : Text} (other : key ≠ schemaVersion) (rows : Std.ExtTreeMap Text Text) :
    Json.member (metaMembers rows) key = (rows[key]?).map Json.string := by
  apply Option.ext
  intro v
  rw [Json.member_eq_some (metaMembers_sorted rows), mem_metaMembers, Option.map_eq_some_iff]
  simp only [ne_eq, other, not_false_eq_true, true_and, eq_comm]

/-! ## The simulation -/

def accountRow (acc : Account) : Text × Text := (acc.login, acc.password)
def sourceRow (src : CalendarSource) : Int × Int := (src.priority, if src.enabled then 1 else 0)

/-- A JSON list holds the encoded records that a table holds as rows. -/
structure Agrees {α ρ : Type} (encode : α → Json) (keyOf : α → Text) (row : α → ρ) (Clean : α → Prop)
    (j : Json) (table : Std.ExtTreeMap Text ρ) (list : List α) : Prop where
  encoded : j = .array (list.map encode)
  represents : Represents keyOf row list table
  clean : ∀ a ∈ list, Clean a

abbrev AccountsAgree := Agrees accountJson Account.service accountRow CleanAccount
abbrev SourcesAgree := Agrees sourceJson CalendarSource.url sourceRow CleanSource

section Agrees
variable {α ρ : Type} {encode : α → Json} {keyOf : α → Text} {row : α → ρ} {Clean : α → Prop} {j : Json}
  {table : Std.ExtTreeMap Text ρ} {list : List α} {name : String}

theorem agrees_nil : Agrees encode keyOf row Clean (.array []) ∅ [] := ⟨rfl, represents_nil, by simp⟩

theorem Agrees.upsert (agrees : Agrees encode keyOf row Clean j table list)
    (reads : ∀ a, (encode a).value Json.getString (text name) [] = .ok (keyOf a)) {a : α} (clean : Clean a) :
    ∃ j', upsertItem name (keyOf a) (encode a) j = .ok j' ∧
      Agrees encode keyOf row Clean j' (table.insert (keyOf a) (row a)) (upsert keyOf a list) := by
  refine ⟨_, by rw [agrees.encoded, upsertItem_map reads], rfl, agrees.represents.upsert a,
    fun b member => ?_⟩
  rcases (mem_upsert agrees.represents.distinct b).mp member with rfl | ⟨inside, _⟩
  · exact clean
  · exact agrees.clean b inside

theorem Agrees.remove (agrees : Agrees encode keyOf row Clean j table list)
    (reads : ∀ a, (encode a).value Json.getString (text name) [] = .ok (keyOf a)) (wanted : Text) :
    ∃ changed, deleteItem name wanted j = .ok changed ∧
      Agrees encode keyOf row Clean (changed.getD j) (table.erase wanted) (remove keyOf wanted list) := by
  have kept : Agrees encode keyOf row Clean (.array ((Library.KeyedList.remove keyOf wanted list).map encode))
      (table.erase wanted) (Library.KeyedList.remove keyOf wanted list) :=
    ⟨rfl, agrees.represents.remove wanted, fun b member =>
      agrees.clean b ((mem_remove agrees.represents.distinct b).mp member).1⟩
  rw [agrees.encoded]
  rcases deleteItem_map reads wanted list with found | ⟨missing, same⟩
  · exact ⟨_, found, kept⟩
  · refine ⟨_, missing, ?_⟩
    rw [same] at kept ⊢
    exact kept

theorem Agrees.eachText {P : Text → Prop} (agrees : Agrees encode keyOf row Clean j table list)
    (each : ∀ a, Clean a → EachText P (encode a)) : EachText P j := by
  rw [agrees.encoded]
  refine .array (fun item member => ?_)
  obtain ⟨a, inside, rfl⟩ := List.mem_map.mp member
  exact each a (agrees.clean a inside)

end Agrees

def CleanRows (rows : Std.ExtTreeMap Text Text) : Prop :=
  ∀ key value, rows[key]? = some value → CleanText key ∧ CleanText value

theorem CleanRows.insert {rows : Std.ExtTreeMap Text Text} {key value : Text} (clean : CleanRows rows)
    (cleanKey : CleanText key) (cleanValue : CleanText value) : CleanRows (rows.insert key value) := by
  intro k v found
  rw [Std.ExtTreeMap.getElem?_insert] at found
  split_ifs at found with same
  · cases found
    rw [← Std.LawfulEqCmp.eq_of_compare same]
    exact ⟨cleanKey, cleanValue⟩
  · exact clean k v found

theorem CleanRows.erase {rows : Std.ExtTreeMap Text Text} (clean : CleanRows rows) (key : Text) :
    CleanRows (rows.erase key) := by
  intro k v found
  rw [Std.ExtTreeMap.getElem?_erase] at found
  split_ifs at found
  exact clean k v found

def Utf8Document (doc : Document) : Prop :=
  ∀ key v, doc[key]? = some v → ValidUtf8 key ∧ EachText ValidUtf8 v

/-- The document holds what the tables hold. -/
structure Simulates (doc : Document) (t : Tables) : Prop where
  complete : Complete doc
  utf8 : Utf8Document doc
  version : t.userVersion ≠ 0
  accounts : ∃ list, AccountsAgree (part doc accountsKey) t.accounts list
  sources : ∃ list, SourcesAgree (part doc sourcesKey) t.calendarSources list
  meta_ : part doc metaKey = .object (metaMembers t.meta_)
  metaClean : CleanRows t.meta_

theorem part_insert (doc : Document) (key : Text) (v : Json) : part (doc.insert key v) key = v := by
  simp [part]

theorem part_insert_of_ne (doc : Document) {key other : Text} (differs : key ≠ other) (v : Json) :
    part (doc.insert key v) other = part doc other := by
  simp [part, Std.ExtTreeMap.getElem?_insert, differs]

theorem sources_ne_accounts : sourcesKey ≠ accountsKey := by decide
theorem meta_ne_accounts : metaKey ≠ accountsKey := by decide
theorem meta_ne_sources : metaKey ≠ sourcesKey := by decide

theorem utf8Document_insert {doc : Document} (utf8 : Utf8Document doc) {key : Text} {v : Json}
    (validKey : ValidUtf8 key) (validValue : EachText ValidUtf8 v) : Utf8Document (doc.insert key v) := by
  intro other w found
  rw [Std.ExtTreeMap.getElem?_insert] at found
  split_ifs at found with same
  · cases found
    rw [← Std.LawfulEqCmp.eq_of_compare same]
    exact ⟨validKey, validValue⟩
  · exact utf8 other w found

theorem utf8Document_toJson {doc : Document} (utf8 : Utf8Document doc) :
    EachText ValidUtf8 (toJson doc) := by
  have valid (m : Text × Json) (member : m ∈ doc.toList) : ValidUtf8 m.1 ∧ EachText ValidUtf8 m.2 :=
    utf8 m.1 m.2 (Std.ExtTreeMap.mem_toList_iff_getElem?_eq_some.mp member)
  exact .object (fun m member => (valid m member).1) (fun m member => (valid m member).2)

theorem accountJson_valid {acc : Account} (service : ValidUtf8 acc.service) (login : ValidUtf8 acc.login)
    (password : ValidUtf8 acc.password) : EachText ValidUtf8 (accountJson acc) := by
  apply EachText.object (by simp only [List.forall_mem_cons]; decide)
  simpa using ⟨EachText.string login, EachText.string password, EachText.string service⟩

theorem accountJson_utf8 {acc : Account} (clean : CleanAccount acc) : EachText ValidUtf8 (accountJson acc) := by
  obtain ⟨service, login, password⟩ := clean
  exact accountJson_valid service.1 login.1 password.1

theorem sourceJson_valid {src : CalendarSource} (url : ValidUtf8 src.url) :
    EachText ValidUtf8 (sourceJson src) := by
  apply EachText.object (by simp only [List.forall_mem_cons]; decide)
  simpa using ⟨EachText.boolean src.enabled, EachText.integer src.priority, EachText.string url⟩

theorem sourceJson_utf8 {src : CalendarSource} (clean : CleanSource src) : EachText ValidUtf8 (sourceJson src) :=
  sourceJson_valid clean.1.1

theorem metaMembers_utf8 {rows : Std.ExtTreeMap Text Text} (clean : CleanRows rows) :
    EachText ValidUtf8 (.object (metaMembers rows)) := by
  have valid (m : Text × Json) (member : m ∈ metaMembers rows) :
      ValidUtf8 m.1 ∧ EachText ValidUtf8 m.2 := by
    obtain ⟨_, value, found, same⟩ := (mem_metaMembers rows m).mp member
    rw [same]
    exact ⟨(clean _ _ found).1.1, .string (clean _ _ found).2.1⟩
  exact .object (fun m member => (valid m member).1) (fun m member => (valid m member).2)

section Steps
variable {doc : Document} {t : Tables}

theorem Simulates.withAccounts (simulates : Simulates doc t) {j : Json} {list : List Account}
    {table : Std.ExtTreeMap Text (Text × Text)} (agree : AccountsAgree j table list) :
    Simulates (doc.insert accountsKey j) { t with accounts := table } where
  complete := complete_insert simulates.complete _ _
  utf8 := utf8Document_insert simulates.utf8 (by decide) (agree.eachText (fun _ => accountJson_utf8))
  version := simulates.version
  accounts := ⟨list, by rw [part_insert]; exact agree⟩
  sources := by rw [part_insert_of_ne _ sources_ne_accounts.symm]; exact simulates.sources
  meta_ := by rw [part_insert_of_ne _ meta_ne_accounts.symm]; exact simulates.meta_
  metaClean := simulates.metaClean

theorem Simulates.withSources (simulates : Simulates doc t) {j : Json} {list : List CalendarSource}
    {table : Std.ExtTreeMap Text (Int × Int)} (agree : SourcesAgree j table list) :
    Simulates (doc.insert sourcesKey j) { t with calendarSources := table } where
  complete := complete_insert simulates.complete _ _
  utf8 := utf8Document_insert simulates.utf8 (by decide) (agree.eachText (fun _ => sourceJson_utf8))
  version := simulates.version
  accounts := by rw [part_insert_of_ne _ sources_ne_accounts]; exact simulates.accounts
  sources := ⟨list, by rw [part_insert]; exact agree⟩
  meta_ := by rw [part_insert_of_ne _ meta_ne_sources.symm]; exact simulates.meta_
  metaClean := simulates.metaClean

theorem Simulates.withMeta (simulates : Simulates doc t) {rows : Std.ExtTreeMap Text Text}
    (clean : CleanRows rows) :
    Simulates (doc.insert metaKey (.object (metaMembers rows))) { t with meta_ := rows } where
  complete := complete_insert simulates.complete _ _
  utf8 := utf8Document_insert simulates.utf8 (by decide) (metaMembers_utf8 clean)
  version := simulates.version
  accounts := by rw [part_insert_of_ne _ meta_ne_accounts]; exact simulates.accounts
  sources := by rw [part_insert_of_ne _ meta_ne_sources]; exact simulates.sources
  meta_ := part_insert _ _ _
  metaClean := clean

/-- Each operation changes the document as it changes the tables. -/
theorem change_simulates (simulates : Simulates doc t) {operation : Operation} (clean : Clean operation) :
    ∃ changed, change doc operation = .ok changed ∧
      Simulates (changed.getD doc) (t.perform operation).2 := by
  obtain ⟨accounts, inAccounts⟩ := simulates.accounts
  obtain ⟨sources, inSources⟩ := simulates.sources
  cases operation with
  | upsertAccount acc =>
    obtain ⟨j, changed, agree⟩ := inAccounts.upsert accountJson_service clean
    exact ⟨some _, by rw [change, changed]; rfl, simulates.withAccounts agree⟩
  | deleteAccount service =>
    obtain ⟨changed, found, agree⟩ := inAccounts.remove accountJson_service service
    cases changed with
    | none => exact ⟨none, by rw [change, found]; rfl, { simulates with accounts := ⟨_, agree⟩ }⟩
    | some j => exact ⟨some _, by rw [change, found]; rfl, simulates.withAccounts agree⟩
  | upsertCalendarSource src =>
    obtain ⟨j, changed, agree⟩ := inSources.upsert sourceJson_url clean
    exact ⟨some _, by rw [change, changed]; rfl, simulates.withSources agree⟩
  | removeCalendarSource url =>
    obtain ⟨changed, found, agree⟩ := inSources.remove sourceJson_url url
    cases changed with
    | none => exact ⟨none, by rw [change, found]; rfl, { simulates with sources := ⟨_, agree⟩ }⟩
    | some j => exact ⟨some _, by rw [change, found]; rfl, simulates.withSources agree⟩
  | setMeta key value =>
    obtain ⟨cleanKey, cleanValue, other⟩ := clean
    refine ⟨some _, ?_, simulates.withMeta (simulates.metaClean.insert cleanKey cleanValue)⟩
    rw [change, simulates.meta_, JsonBackend.setMeta, setMember_metaMembers other]
    rfl
  | deleteMeta key =>
    refine ⟨some _, ?_, simulates.withMeta (simulates.metaClean.erase key)⟩
    rw [change, simulates.meta_, JsonBackend.deleteMeta, eraseMember_metaMembers]
    rfl
  | clear =>
    have noMeta : CleanRows ∅ := by simp [CleanRows]
    exact ⟨some _, rfl, ((simulates.withAccounts agrees_nil).withSources agrees_nil).withMeta noMeta⟩
  | getAccount service => exact ⟨none, rfl, simulates⟩
  | listAccounts => exact ⟨none, rfl, simulates⟩
  | listCalendarSources => exact ⟨none, rfl, simulates⟩
  | getMeta key => exact ⟨none, rfl, simulates⟩
  | listMeta => exact ⟨none, rfl, simulates⟩
  | reopen =>
    refine ⟨none, rfl, ?_⟩
    rw [Tables.perform, Tables.openTables, if_neg simulates.version]
    exact simulates

/-! ## Answers -/

theorem readAccount_row {acc : Account} (clean : CleanAccount acc) :
    Tables.readAccount (acc.service, accountRow acc) = acc := by
  obtain ⟨service, login, password⟩ := clean
  simp only [Tables.readAccount, accountRow, columnText_clean service, columnText_clean login,
    columnText_clean password]

theorem storedSource_row (src : CalendarSource) : Tables.storedSource (src.url, sourceRow src) = src := by
  obtain ⟨url, priority, enabled⟩ := src
  cases enabled <;> rfl

theorem getAccount_simulates (simulates : Simulates doc t) (service : Text) :
    getAccount doc service = .ok (t.getAccount service) := by
  obtain ⟨list, agree⟩ := simulates.accounts
  have looked := agree.represents.find? service
  rw [List.find?_eq_bind_findIdx?_getElem?] at looked
  simp only [getAccount, agree.encoded, Json.children, findItem_map accountJson_service, Tables.getAccount,
    ← looked]
  cases found : list.findIdx? (fun acc => acc.service = service) with
  | none => rfl
  | some i =>
    obtain ⟨inside, same, _⟩ := List.findIdx?_eq_some_iff_getElem.mp found
    have key : list[i].service = service := by simpa using same
    have row : Tables.readAccount (service, accountRow list[i]) = list[i] := by
      rw [← key]
      exact readAccount_row (agree.clean _ (List.getElem_mem inside))
    simp only [bind, Except.bind, pure, Except.pure, List.getElem?_map, List.getElem?_eq_getElem inside,
      Option.map_some, Option.getD_some, readAccount_accountJson, Option.bind_some, row]

theorem listAccounts_simulates (simulates : Simulates doc t) :
    ∃ list, listAccounts doc = .ok list ∧ list.Perm t.listAccounts := by
  obtain ⟨list, agree⟩ := simulates.accounts
  refine ⟨list, ?_, ?_⟩
  · rw [listAccounts, agree.encoded]
    exact mapM_map (fun acc _ => readAccount_accountJson acc)
  · have rows : list.map (fun acc => Tables.readAccount (acc.service, accountRow acc)) = list :=
      (List.map_congr_left (fun acc member => readAccount_row (agree.clean acc member))).trans
        (List.map_id' list)
    have perm := agree.represents.perm.map Tables.readAccount
    rw [List.map_map] at perm
    exact rows ▸ perm

theorem listCalendarSources_simulates (simulates : Simulates doc t) :
    listCalendarSources doc = .ok t.listCalendarSources := by
  obtain ⟨list, agree⟩ := simulates.sources
  have read : (list.map sourceJson).mapM readSource = .ok list :=
    mapM_map (fun src member => readSource_sourceJson (agree.clean src member).2.1 (agree.clean src member).2.2)
  have perm := agree.represents.perm.map Tables.storedSource
  rw [List.map_map, Function.comp_def] at perm
  simp only [storedSource_row, List.map_id'] at perm
  have sorted := sortSources_congr perm agree.represents.distinct
  have clean (src : CalendarSource) (member : src ∈ sortSources list) :
      { src with url := columnText src.url } = src := by
    have inside := (List.mem_insertionSort sourceBefore).mp member
    rw [columnText_clean (agree.clean src inside).1]
  simp only [listCalendarSources, agree.encoded, Json.children, read, bind, Except.bind, pure, Except.pure,
    Tables.listCalendarSources, ← sorted]
  rw [List.map_congr_left clean, List.map_id']

theorem getMeta_simulates (simulates : Simulates doc t) {key : Text} (other : key ≠ schemaVersion) :
    getMeta doc key = .ok (t.getMeta key) := by
  simp only [getMeta, simulates.meta_, member_metaMembers other, Tables.getMeta]
  cases found : t.meta_[key]? with
  | none => rfl
  | some value =>
    simp [Json.getString, bind, Except.bind, pure, Except.pure,
      columnText_clean (simulates.metaClean key value found).2]

theorem listMeta_simulates (simulates : Simulates doc t) :
    listMeta doc = .ok (t.listMeta.filter (fun row => row.1 ≠ schemaVersion)) := by
  have rows : t.listMeta = t.meta_.toList := by
    refine (List.map_congr_left (fun row member => ?_)).trans (List.map_id' _)
    have clean := simulates.metaClean row.1 row.2 (Std.ExtTreeMap.mem_toList_iff_getElem?_eq_some.mp member)
    rw [columnText_clean clean.1, columnText_clean clean.2]
  have read (row : Text × Text) : (do pure (row.1, ← (Json.string row.2).getString) :
      Except JsonError (Text × Text)) = .ok row := rfl
  rw [listMeta, simulates.meta_, rows]
  exact mapM_map (fun row _ => read row)

theorem answer_simulates (simulates : Simulates doc t) {operation : Operation} (clean : Clean operation) :
    ∃ a, answer doc operation = .ok a ∧ Agree a (t.perform operation).1 := by
  cases operation with
  | getAccount service =>
    exact ⟨.account (t.getAccount service), by rw [answer, getAccount_simulates simulates]; rfl, rfl⟩
  | listAccounts =>
    obtain ⟨list, read, perm⟩ := listAccounts_simulates simulates
    exact ⟨.accounts list, by rw [answer, read]; rfl, perm⟩
  | listCalendarSources =>
    exact ⟨.sources t.listCalendarSources, by rw [answer, listCalendarSources_simulates simulates]; rfl, rfl⟩
  | getMeta key =>
    exact ⟨.metaValue (t.getMeta key), by rw [answer, getMeta_simulates simulates clean.2]; rfl, rfl⟩
  | listMeta =>
    exact ⟨.metaRows _, by rw [answer, listMeta_simulates simulates]; rfl, rfl⟩
  | upsertAccount _ => exact ⟨.done, rfl, rfl⟩
  | deleteAccount _ => exact ⟨.done, rfl, rfl⟩
  | upsertCalendarSource _ => exact ⟨.done, rfl, rfl⟩
  | removeCalendarSource _ => exact ⟨.done, rfl, rfl⟩
  | setMeta _ _ => exact ⟨.done, rfl, rfl⟩
  | deleteMeta _ => exact ⟨.done, rfl, rfl⟩
  | clear => exact ⟨.done, rfl, rfl⟩
  | reopen => exact ⟨.done, rfl, rfl⟩

end Steps

end DivoomDev.Storage.Simulation
