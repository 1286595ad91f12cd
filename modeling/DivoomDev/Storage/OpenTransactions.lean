import DivoomDev.Library.Run
import DivoomDev.Storage.SqliteBackend
import DivoomDev.Storage.Transaction

/-! The two functions of the SQLite backend that open a transaction, called one after the other
on one connection while any of their statements may fail. -/

namespace DivoomDev.Storage.OpenTransactions
open DivoomDev.Library.Bytes DivoomDev.Library.Run SqliteBackend Transaction

/-- A statement, and whether it fails this time. One that fails changes nothing. -/
structure Statement (Data : Type) where
  effect : Data → Data
  fails : Bool := false

section Statements
variable {Data : Type}

/-- `exec` of a script: its statements up to the first that fails. -/
def exec : List (Statement Data) → Connection Data → Bool × Connection Data
  | [], c => (true, c)
  | statement :: rest, c =>
      let (ok, c) := execScript statement.fails statement.effect c
      if ok then exec rest c else (false, c)

/-- `run_in_transaction`, with its script statement by statement. -/
def runInTransaction (sql : List (Statement Data)) (beginFails commitFails : Bool) (c : Connection Data) :
    Bool × Connection Data :=
  let (begun, c) := beginTransaction beginFails c
  if !begun then (false, c)
  else
    let (ran, c) := exec sql c
    if !ran then (false, rollback c)
    else
      let (committed, c) := commitTransaction commitFails c
      if !committed then (false, rollback c) else (true, c)

def scriptEffect (sql : List (Statement Data)) (data : Data) : Data :=
  sql.foldl (fun data statement => statement.effect data) data

def scriptFails (sql : List (Statement Data)) : Bool := sql.any Statement.fails

/-- Inside a transaction a script works on the copy, and leaves part of its effect there when
it fails. -/
theorem exec_pending (sql : List (Statement Data)) (stored working : Data) :
    ∃ left, exec sql ⟨stored, some working⟩ = (!scriptFails sql, ⟨stored, some left⟩) ∧
      (scriptFails sql = false → left = scriptEffect sql working) := by
  induction sql generalizing working with
  | nil => exact ⟨working, rfl, fun _ => rfl⟩
  | cons statement rest ih =>
    cases fails : statement.fails with
    | true => exact ⟨working, by simp [exec, execScript, scriptFails, fails], by simp [scriptFails, fails]⟩
    | false =>
      obtain ⟨left, ran, whole⟩ := ih (statement.effect working)
      refine ⟨left, ?_, ?_⟩
      · simpa [exec, execScript, scriptFails, fails] using ran
      · simpa [scriptFails, scriptEffect, fails] using whole

/-- Outside a transaction, the script as a whole is one step that fails or takes effect. -/
theorem runInTransaction_eq (sql : List (Statement Data)) (beginFails commitFails : Bool) (data : Data) :
    runInTransaction sql beginFails commitFails ⟨data, none⟩ =
      Transaction.runInTransaction (scriptEffect sql) ⟨beginFails, scriptFails sql, commitFails⟩
        ⟨data, none⟩ := by
  obtain ⟨left, ran, whole⟩ := exec_pending sql data data
  cases fails : scriptFails sql with
  | true =>
    rw [fails] at ran
    cases beginFails <;> cases commitFails <;>
      simp [runInTransaction, Transaction.runInTransaction, beginTransaction, execScript, rollback, ran]
  | false =>
    rw [fails] at ran
    obtain rfl := whole fails
    cases beginFails <;> cases commitFails <;>
      simp [runInTransaction, Transaction.runInTransaction, beginTransaction, execScript,
        commitTransaction, rollback, ran]

end Statements

/-! ## Clearing -/

structure ClearFaults where
  begin_ : Bool := false
  accounts : Bool := false
  calendarSources : Bool := false
  meta_ : Bool := false
  commit : Bool := false
  deriving DecidableEq, Repr

def deleteAccounts (t : Tables) : Tables := { t with accounts := ∅ }
def deleteCalendarSources (t : Tables) : Tables := { t with calendarSources := ∅ }
def deleteMeta (t : Tables) : Tables := { t with meta_ := ∅ }

/-- `sqlite_backend::clear`, which does not look at what COMMIT returns. -/
def clear (faults : ClearFaults) (c : Connection Tables) : Connection Tables :=
  let (begun, c) := beginTransaction faults.begin_ c
  if !begun then c
  else
    let (ok1, c) := execScript faults.accounts deleteAccounts c
    let (ok2, c) := if ok1 then execScript faults.calendarSources deleteCalendarSources c else (false, c)
    let (ok3, c) := if ok2 then execScript faults.meta_ deleteMeta c else (false, c)
    if !ok3 then rollback c else (commitTransaction faults.commit c).2

inductive Call where
  | runInTransaction (sql : List (Statement Tables)) (beginFails commitFails : Bool)
  | clear (faults : ClearFaults)

namespace Call

def perform : Call → Connection Tables → Connection Tables
  | .runInTransaction sql beginFails commitFails, c =>
      (OpenTransactions.runInTransaction sql beginFails commitFails c).2
  | .clear faults, c => OpenTransactions.clear faults c

/-- All that a call is to change. -/
def effect : Call → Tables → Tables
  | .runInTransaction sql _ _ => scriptEffect sql
  | .clear _ => Tables.clear

/-- Only the COMMIT of a clearing fails. -/
def LeavesOpen : Call → Prop
  | .runInTransaction _ _ _ => False
  | .clear faults => faults = { commit := true }

end Call

def step (c : Connection Tables) (call : Call) : Option (Connection Tables) := some (call.perform c)

/-- No transaction is open behind the call, and its changes are all there or none of them. -/
def Atomic (c : Connection Tables) (call : Call) : Prop :=
  (call.perform c).pending = none ∧
    ((call.perform c).stored = call.effect c.stored ∨ (call.perform c).stored = c.stored)

theorem clear_cases (faults : ClearFaults) (t : Tables) :
    clear faults ⟨t, none⟩ = ⟨t.clear, none⟩ ∨ clear faults ⟨t, none⟩ = ⟨t, none⟩ ∨
      (faults = { commit := true } ∧ clear faults ⟨t, none⟩ = ⟨t, some t.clear⟩) := by
  obtain ⟨begin_, accounts, calendarSources, meta_, commit⟩ := faults
  cases begin_ <;> cases accounts <;> cases calendarSources <;> cases meta_ <;> cases commit <;>
    simp [clear, beginTransaction, execScript, commitTransaction, rollback, deleteAccounts,
      deleteCalendarSources, deleteMeta, Tables.clear]

theorem clear_leavesOpen (t : Tables) : clear { commit := true } ⟨t, none⟩ = ⟨t, some t.clear⟩ := by
  simp [clear, beginTransaction, execScript, commitTransaction, deleteAccounts, deleteCalendarSources,
    deleteMeta, Tables.clear]

/-- Outside a transaction a call is atomic exactly when it does not leave one open. -/
theorem atomic_iff (t : Tables) (call : Call) : Atomic ⟨t, none⟩ call ↔ ¬call.LeavesOpen := by
  cases call with
  | runInTransaction sql beginFails commitFails =>
    apply iff_of_true _ not_false
    simp only [Atomic, Call.perform, Call.effect, runInTransaction_eq]
    rcases runInTransaction_cases (scriptEffect sql) ⟨beginFails, scriptFails sql, commitFails⟩ t with
      committed | unchanged
    · rw [committed]
      exact ⟨rfl, .inl rfl⟩
    · rw [unchanged]
      exact ⟨rfl, .inr rfl⟩
  | clear faults =>
    apply Iff.intro
    · intro atomic leavesOpen
      obtain rfl : faults = { commit := true } := leavesOpen
      rw [Atomic, Call.perform, clear_leavesOpen] at atomic
      cases atomic.1
    · intro closes
      simp only [Atomic, Call.perform, Call.effect]
      rcases clear_cases faults t with cleared | unchanged | ⟨leavesOpen, _⟩
      · rw [cleared]
        exact ⟨rfl, .inl rfl⟩
      · rw [unchanged]
        exact ⟨rfl, .inr rfl⟩
      · exact absurd leavesOpen closes

/-- Every call of a sequence is atomic exactly when none of them leaves a transaction open. -/
theorem calls_atomic_iff (t : Tables) (calls : List Call) :
    Along Atomic step ⟨t, none⟩ calls ↔ ∀ call ∈ calls, ¬call.LeavesOpen := by
  induction calls generalizing t with
  | nil => simp [Along]
  | cons call rest ih =>
    rw [Along, atomic_iff, List.forall_mem_cons]
    apply and_congr_right
    intro closes
    have closed : (call.perform ⟨t, none⟩).pending = none := ((atomic_iff t call).mpr closes).1
    obtain ⟨t', next⟩ : ∃ t', call.perform ⟨t, none⟩ = ⟨t', none⟩ := by
      cases performed : call.perform ⟨t, none⟩ with
      | mk stored pending =>
        rw [performed] at closed
        exact ⟨stored, by rw [show pending = none from closed]⟩
    rw [← ih t', ← next]
    exact ⟨fun later => later _ rfl, fun later s' stepped => Option.some.inj stepped ▸ later⟩

/-- Behind a clearing whose COMMIT fails, a transaction is open. -/
theorem failed_commit_leaves_open : ¬∀ t calls, Along Atomic step ⟨t, none⟩ calls := by
  intro always
  have open_ := (always {} [.clear { commit := true }]).1.1
  rw [Call.perform, clear_leavesOpen] at open_
  cases open_

/-- Once a transaction is open, no call begins, commits or rolls back anything. -/
theorem perform_open (call : Call) (stored working : Tables) :
    call.perform ⟨stored, some working⟩ = ⟨stored, some working⟩ := by
  cases call with
  | runInTransaction sql beginFails commitFails =>
    cases beginFails <;> simp [Call.perform, runInTransaction, beginTransaction]
  | clear faults => simp [Call.perform, clear, beginTransaction]

theorem run_open (calls : List Call) (stored working : Tables) :
    run step ⟨stored, some working⟩ calls = some ⟨stored, some working⟩ := by
  induction calls with
  | nil => rfl
  | cons call rest ih => rw [run, step, perform_open, Option.bind_some, ih]

end DivoomDev.Storage.OpenTransactions
