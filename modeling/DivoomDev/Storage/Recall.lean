import DivoomDev.Library.History
import DivoomDev.Library.Run
import DivoomDev.Storage.SqliteBackend

/-! What the storage is for, told without its tables: a call answers what was written last.
The SQLite backend does so for text of any bytes, cut off at a NUL where it is read. -/

namespace DivoomDev.Storage.Recall
open DivoomDev.Library.Bytes DivoomDev.Library.History DivoomDev.Library.Run Models SqliteBackend

/-! ## The calls as events of a history -/

def accountEvent : Operation → Option (Event Text (Text × Text))
  | .upsertAccount acc => some (.put acc.service (acc.login, acc.password))
  | .deleteAccount service => some (.drop service)
  | .clear => some .wipe
  | _ => none

def sourceEvent : Operation → Option (Event Text (Int × Int))
  | .upsertCalendarSource src => some (.put src.url (src.priority, if src.enabled then 1 else 0))
  | .removeCalendarSource url => some (.drop url)
  | .clear => some .wipe
  | _ => none

def metaEvent : Operation → Option (Event Text Text)
  | .setMeta key value => some (.put key value)
  | .deleteMeta key => some (.drop key)
  | .clear => some .wipe
  | _ => none

def accountHistory (done : List Operation) : List (Event Text (Text × Text)) := done.filterMap accountEvent

def sourceHistory (done : List Operation) : List (Event Text (Int × Int)) := done.filterMap sourceEvent

/-- The schema writes its version before all calls. -/
def metaHistory (done : List Operation) : List (Event Text Text) :=
  .put schemaVersion (text "1") :: done.filterMap metaEvent

/-- What a call answers behind the calls that are done. -/
def recalled (done : List Operation) : Operation → Answer
  | .getAccount service => .account ((held service (accountHistory done)).map
      (fun row => Tables.readAccount (service, row)))
  | .listAccounts => .accounts ((sortRows (rows (accountHistory done))).map Tables.readAccount)
  | .listCalendarSources => .sources ((sortSources ((sortRows (rows (sourceHistory done))).map
      Tables.storedSource)).map (fun src => { src with url := columnText src.url }))
  | .getMeta key => .metaValue ((held key (metaHistory done)).map columnText)
  | .listMeta => .metaRows ((sortRows (rows (metaHistory done))).map
      (fun row => (columnText row.1, columnText row.2)))
  | _ => .done

/-! ## The tables keep the histories -/

structure Keeps (done : List Operation) (t : Tables) : Prop where
  opened : t.userVersion ≠ 0
  accounts : t.accounts = replay (accountHistory done)
  sources : t.calendarSources = replay (sourceHistory done)
  meta_ : t.meta_ = replay (metaHistory done)

theorem keeps_open : Keeps [] (Tables.openTables {}) where
  opened := by decide
  accounts := rfl
  sources := rfl
  meta_ := by decide +kernel

theorem recalled_eq {done : List Operation} {t : Tables} (keeps : Keeps done t) (operation : Operation) :
    (t.perform operation).1 = recalled done operation := by
  cases operation <;> simp only [Tables.perform, recalled]
  · rw [Tables.getAccount, keeps.accounts, getElem?_replay]
  · rw [Tables.listAccounts, keeps.accounts, toList_replay]
  · rw [Tables.listCalendarSources, keeps.sources, toList_replay]
  · rw [Tables.getMeta, keeps.meta_, getElem?_replay]
  · rw [Tables.listMeta, keeps.meta_, toList_replay]

theorem perform_accounts (t : Tables) (operation : Operation) :
    (t.perform operation).2.accounts = (accountEvent operation).elim t.accounts (apply t.accounts) := by
  cases operation
  case reopen =>
    simp only [Tables.perform, Tables.openTables]
    split_ifs <;> rfl
  all_goals rfl

theorem perform_sources (t : Tables) (operation : Operation) :
    (t.perform operation).2.calendarSources =
      (sourceEvent operation).elim t.calendarSources (apply t.calendarSources) := by
  cases operation
  case reopen =>
    simp only [Tables.perform, Tables.openTables]
    split_ifs <;> rfl
  all_goals rfl

theorem perform_meta {t : Tables} (opened : t.userVersion ≠ 0) (operation : Operation) :
    (t.perform operation).2.meta_ = (metaEvent operation).elim t.meta_ (apply t.meta_) ∧
      (t.perform operation).2.userVersion ≠ 0 := by
  cases operation
  case reopen =>
    rw [Tables.perform, Tables.openTables, if_neg opened]
    exact ⟨rfl, opened⟩
  all_goals exact ⟨rfl, opened⟩

theorem perform_keeps {done : List Operation} {t : Tables} (keeps : Keeps done t) (operation : Operation) :
    Keeps (done ++ [operation]) (t.perform operation).2 where
  opened := (perform_meta keeps.opened operation).2
  accounts := by
    rw [perform_accounts, keeps.accounts]
    exact (replay_filterMap_append accountEvent [] done operation).symm
  sources := by
    rw [perform_sources, keeps.sources]
    exact (replay_filterMap_append sourceEvent [] done operation).symm
  meta_ := by
    rw [(perform_meta keeps.opened operation).1, keeps.meta_]
    exact (replay_filterMap_append metaEvent [.put schemaVersion (text "1")] done operation).symm

theorem answers_eq_outputs (operations : List Operation) :
    answers operations = outputs Tables.perform (Tables.openTables {}) operations := by
  have go (t : Tables) : answers.go t operations = outputs Tables.perform t operations := by
    induction operations generalizing t with
    | nil => rfl
    | cons operation rest ih => rw [answers.go, outputs, ih]
  exact go _

/-- On a new path every call, after whatever calls with whatever text, answers what was written
last and neither deleted nor cleared since. -/
theorem answers_recalled (operations : List Operation) :
    answers operations = outputsBy recalled [] operations := by
  rw [answers_eq_outputs]
  exact outputs_eq_outputsBy (P := fun _ => True) (I := Keeps)
    (fun _ _ operation _ keeps => ⟨recalled_eq keeps operation, perform_keeps keeps operation⟩) keeps_open
    (fun _ _ => trivial)

end DivoomDev.Storage.Recall
