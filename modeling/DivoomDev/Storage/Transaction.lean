import Mathlib

/-! Transactions on an SQLite connection, as far as the backend uses them: one statement at a
time, each of which may fail, on data of any kind. -/

namespace DivoomDev.Storage.Transaction

variable {Data : Type}

/-- The data on disk and, while a transaction is open, the working copy of it. -/
structure Connection (Data : Type) where
  stored : Data
  pending : Option Data := none

/-- Which steps of one transaction fail. -/
structure Faults where
  begin_ : Bool := false
  script : Bool := false
  commit : Bool := false
  deriving DecidableEq, Repr

/-- BEGIN fails inside an open transaction. -/
def beginTransaction (fails : Bool) (c : Connection Data) : Bool × Connection Data :=
  if fails || c.pending.isSome then (false, c) else (true, { c with pending := some c.stored })

/-- A script. What a failing one has done to the working copy is not followed here: every
caller rolls it back. -/
def execScript (fails : Bool) (effect : Data → Data) (c : Connection Data) : Bool × Connection Data :=
  if fails then (false, c)
  else match c.pending with
    | some working => (true, { c with pending := some (effect working) })
    | none => (true, { c with stored := effect c.stored })

def commitTransaction (fails : Bool) (c : Connection Data) : Bool × Connection Data :=
  if fails then (false, c)
  else match c.pending with
    | some working => (true, { stored := working })
    | none => (false, c)

def rollback (c : Connection Data) : Connection Data := { c with pending := none }

/-- `sqlite_backend::run_in_transaction`. -/
def runInTransaction (effect : Data → Data) (faults : Faults) (c : Connection Data) :
    Bool × Connection Data :=
  let (begun, c) := beginTransaction faults.begin_ c
  if !begun then (false, c)
  else
    let (ran, c) := execScript faults.script effect c
    if !ran then (false, rollback c)
    else
      let (committed, c) := commitTransaction faults.commit c
      if !committed then (false, rollback c) else (true, c)

/-- Outside a transaction, a script is committed as a whole or the data stay as they were, and
no transaction is left open. -/
theorem runInTransaction_cases (effect : Data → Data) (faults : Faults) (data : Data) :
    runInTransaction effect faults ⟨data, none⟩ = (true, ⟨effect data, none⟩) ∨
      runInTransaction effect faults ⟨data, none⟩ = (false, ⟨data, none⟩) := by
  obtain ⟨begin_, script, commit⟩ := faults
  cases begin_ <;> cases script <;> cases commit <;>
    simp [runInTransaction, beginTransaction, execScript, commitTransaction, rollback]

end DivoomDev.Storage.Transaction
