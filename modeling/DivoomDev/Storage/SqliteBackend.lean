import DivoomDev.Storage.Models

/-! The SQLite backend over tables that hold at most one row for each key, as the schema's
UNIQUE and PRIMARY KEY constraints have it. Text compares bytewise. -/

namespace DivoomDev.Storage.SqliteBackend
open DivoomDev.Library.Bytes Models

/-- The tables of the schema without the columns that nothing reads. -/
structure Tables where
  userVersion : Int := 0
  accounts : Std.ExtTreeMap Text (Text × Text) := ∅
  calendarSources : Std.ExtTreeMap Text (Int × Int) := ∅
  meta_ : Std.ExtTreeMap Text Text := ∅
  deriving DecidableEq, Repr

/-- What `sqlite3_column_text` hands to a `std::string`: the bytes up to the first NUL. -/
def columnText (value : Text) : Text := value.takeWhile (· ≠ 0)

namespace Tables

/-- The baseline script of an empty database. -/
def baseline (t : Tables) : Tables :=
  { t with
    userVersion := 1
    meta_ := t.meta_.insertIfNew schemaVersion (text "1") }

/-- Opening: the baseline where no version is stored yet. There are no migrations. -/
def openTables (t : Tables) : Tables := if t.userVersion = 0 then t.baseline else t

def upsertAccount (t : Tables) (acc : Account) : Tables :=
  { t with accounts := t.accounts.insert acc.service (acc.login, acc.password) }

def readAccount (row : Text × Text × Text) : Account :=
  ⟨columnText row.1, columnText row.2.1, columnText row.2.2⟩

def getAccount (t : Tables) (service : Text) : Option Account :=
  (t.accounts[service]?).map (fun row => readAccount (service, row))

/-- ORDER BY service -/
def listAccounts (t : Tables) : List Account := t.accounts.toList.map readAccount

def deleteAccount (t : Tables) (service : Text) : Tables :=
  { t with accounts := t.accounts.erase service }

def upsertCalendarSource (t : Tables) (src : CalendarSource) : Tables :=
  { t with calendarSources :=
      t.calendarSources.insert src.url (src.priority, if src.enabled then 1 else 0) }

/-- A row as it is stored. -/
def storedSource (row : Text × Int × Int) : CalendarSource := ⟨row.1, row.2.1, row.2.2 ≠ 0⟩

/-- ORDER BY priority DESC, url -/
def listCalendarSources (t : Tables) : List CalendarSource :=
  (sortSources (t.calendarSources.toList.map storedSource)).map
    (fun src => { src with url := columnText src.url })

def removeCalendarSource (t : Tables) (url : Text) : Tables :=
  { t with calendarSources := t.calendarSources.erase url }

def setMeta (t : Tables) (key value : Text) : Tables := { t with meta_ := t.meta_.insert key value }

def getMeta (t : Tables) (key : Text) : Option Text := (t.meta_[key]?).map columnText

/-- ORDER BY key -/
def listMeta (t : Tables) : List (Text × Text) :=
  t.meta_.toList.map (fun row => (columnText row.1, columnText row.2))

def deleteMeta (t : Tables) (key : Text) : Tables := { t with meta_ := t.meta_.erase key }

/-- All rows go, that of the schema version too; the stored version stays. -/
def clear (t : Tables) : Tables := { userVersion := t.userVersion }

/-- One operation, with all its SQL steps succeeding. -/
def perform (t : Tables) : Operation → Answer × Tables
  | .upsertAccount acc => (.done, t.upsertAccount acc)
  | .getAccount service => (.account (t.getAccount service), t)
  | .listAccounts => (.accounts t.listAccounts, t)
  | .deleteAccount service => (.done, t.deleteAccount service)
  | .upsertCalendarSource src => (.done, t.upsertCalendarSource src)
  | .listCalendarSources => (.sources t.listCalendarSources, t)
  | .removeCalendarSource url => (.done, t.removeCalendarSource url)
  | .setMeta key value => (.done, t.setMeta key value)
  | .getMeta key => (.metaValue (t.getMeta key), t)
  | .listMeta => (.metaRows t.listMeta, t)
  | .deleteMeta key => (.done, t.deleteMeta key)
  | .clear => (.done, t.clear)
  | .reopen => (.done, t.openTables)

end Tables

/-- The answers to a sequence of operations on the database of a new path. -/
def answers (operations : List Operation) : List Answer :=
  go (Tables.openTables {}) operations
where
  go (t : Tables) : List Operation → List Answer
    | [] => []
    | operation :: rest => (t.perform operation).1 :: go (t.perform operation).2 rest

end DivoomDev.Storage.SqliteBackend
