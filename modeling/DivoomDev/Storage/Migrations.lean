import DivoomDev.Library.Bytes
import DivoomDev.Library.Run
import DivoomDev.Storage.Transaction

/-! Opening the SQLite database: the baseline schema on an empty one, then the migrations
behind the stored version, each script in a transaction of its own. -/

namespace DivoomDev.Storage.Migrations
open DivoomDev.Library.Bytes DivoomDev.Library.Run Transaction

structure SqlScript where
  version : Int
  sql : Text
  deriving DecidableEq, Repr

/-- The stored `user_version` and, to speak of the past, the scripts committed so far. -/
structure Schema where
  userVersion : Int := 0
  committed : List Text := []
  deriving DecidableEq, Repr

/-- The exceptions that leave `apply_migrations`. -/
inductive OpenError where
  | baselineEmpty
  | baselineFailed
  | migrationFailed (version : Int)
  deriving DecidableEq, Repr

/-- The faults of one open; the transactions of the migrations are counted from zero. -/
structure OpenFaults where
  baseline : Faults := {}
  migration : Nat → Faults := fun _ => {}

section Source
variable (setsVersion : Text → Int)

/-- A script writes its version, whatever else it does. -/
def scriptEffect (sql : Text) (schema : Schema) : Schema where
  userVersion := setsVersion sql
  committed := schema.committed ++ [sql]

def currentVersion (c : Connection Schema) : Int := c.stored.userVersion

/-- The loop over the migrations, with its local variable `version`. -/
def migrate : List SqlScript → (Nat → Faults) → Int → Connection Schema →
    Connection Schema × Option OpenError
  | [], _, _, c => (c, none)
  | m :: rest, faults, version, c =>
      if m.version ≤ version then migrate rest (fun n => faults (n + 1)) version c
      else if m.sql = [] then migrate rest (fun n => faults (n + 1)) version c
      else
        let (ok, c) := runInTransaction (scriptEffect setsVersion m.sql) (faults 0) c
        if ok then migrate rest (fun n => faults (n + 1)) m.version c
        else (c, some (.migrationFailed m.version))

def applyMigrations (baselineSchema : Text) (migrations : List SqlScript) (faults : OpenFaults)
    (c : Connection Schema) : Connection Schema × Option OpenError :=
  let version := currentVersion c
  if version = 0 then
    if baselineSchema = [] then (c, some .baselineEmpty)
    else
      let (ok, c) := runInTransaction (scriptEffect setsVersion baselineSchema) faults.baseline c
      if ok then migrate setsVersion migrations faults.migration (currentVersion c) c
      else (c, some .baselineFailed)
  else migrate setsVersion migrations faults.migration version c

end Source

/-! ## Migration plans -/

/-- The scripts of a database as the rules for migrations ask for them: ascending versions
above 1, non-empty scripts, and each script writes its own version. -/
structure Plan where
  baseline : Text
  migrations : List SqlScript
  setsVersion : Text → Int
  baselineFilled : baseline ≠ []
  baselineVersion : setsVersion baseline = 1
  ascending : migrations.Pairwise (fun a b => a.version < b.version)
  above : ∀ m ∈ migrations, 1 < m.version
  filled : ∀ m ∈ migrations, m.sql ≠ []
  sets : ∀ m ∈ migrations, setsVersion m.sql = m.version

namespace Plan
variable (plan : Plan)

/-- The versions that the schema can have. -/
def versions : List Int := 1 :: plan.migrations.map SqlScript.version

/-- The baseline and the migrations up to a version, in ascending order. -/
def upTo (version : Int) : List Text :=
  plan.baseline :: (plan.migrations.filter (fun m => m.version ≤ version)).map SqlScript.sql

/-- One open of the database on disk: the schema it leaves, and its error. -/
def openDatabase (faults : OpenFaults) (schema : Schema) : Schema × Option OpenError :=
  let (c, error) := applyMigrations plan.setsVersion plan.baseline plan.migrations faults ⟨schema, none⟩
  (c.stored, error)

/-- Nothing is committed yet, or exactly the scripts up to the stored version are. -/
def Consistent (schema : Schema) : Prop :=
  (schema.userVersion = 0 ∧ schema.committed = []) ∨
    (schema.userVersion ∈ plan.versions ∧ schema.committed = plan.upTo schema.userVersion)

variable {plan}

theorem versions_pos {version : Int} (member : version ∈ plan.versions) : 0 < version := by
  rcases List.mem_cons.mp member with rfl | later
  · decide
  · obtain ⟨m, inPlan, rfl⟩ := List.mem_map.mp later
    have := plan.above m inPlan
    omega

theorem versions_ascending : plan.versions.Pairwise (· < ·) := by
  refine List.pairwise_cons.mpr ⟨fun version member => ?_, List.pairwise_map.mpr plan.ascending⟩
  obtain ⟨m, inPlan, rfl⟩ := List.mem_map.mp member
  exact plan.above m inPlan

/-- A version at which the plan splits: everything in front is applied, nothing behind. -/
theorem upTo_split {done rest : List SqlScript} {version : Int}
    (split : plan.migrations = done ++ rest) (below : ∀ m ∈ done, m.version ≤ version)
    (beyond : ∀ m ∈ rest, version < m.version) :
    plan.upTo version = plan.baseline :: done.map SqlScript.sql := by
  have front : done.filter (fun m => m.version ≤ version) = done :=
    List.filter_eq_self.mpr (fun m member => decide_eq_true (below m member))
  have back : rest.filter (fun m => m.version ≤ version) = [] :=
    List.filter_eq_nil_iff.mpr (fun m member => by simpa using beyond m member)
  rw [upTo, split, List.filter_append, front, back, List.append_nil]

theorem later_greater {done rest : List SqlScript} {m : SqlScript}
    (split : plan.migrations = done ++ m :: rest) : ∀ later ∈ rest, m.version < later.version := by
  have ascending := plan.ascending
  rw [split, List.pairwise_append, List.pairwise_cons] at ascending
  exact ascending.2.1.1

theorem upTo_next {done rest : List SqlScript} {m : SqlScript} {version : Int}
    (split : plan.migrations = done ++ m :: rest) (below : ∀ d ∈ done, d.version ≤ version)
    (next : version < m.version) : plan.upTo m.version = plan.upTo version ++ [m.sql] := by
  have later := later_greater split
  have before : plan.upTo version = plan.baseline :: done.map SqlScript.sql :=
    upTo_split split below (List.forall_mem_cons.mpr ⟨next, fun l member => next.trans (later l member)⟩)
  have after : plan.upTo m.version = plan.baseline :: (done ++ [m]).map SqlScript.sql := by
    refine upTo_split (by simpa using split) (fun d member => ?_) later
    rcases List.mem_append.mp member with front | last
    · exact (below d front).trans next.le
    · rw [List.mem_singleton.mp last]
  rw [before, after]
  simp

/-- A connection at a version of the plan, outside a transaction. -/
def atVersion (plan : Plan) (version : Int) : Connection Schema := ⟨⟨version, plan.upTo version⟩, none⟩

/-- From a version at which the plan splits, the loop ends at a version of the plan with
exactly the scripts up to it; without an error it is the highest. -/
theorem migrate_atVersion {done rest : List SqlScript} {version : Int} (faults : Nat → Faults)
    (split : plan.migrations = done ++ rest) (below : ∀ m ∈ done, m.version ≤ version)
    (member : version ∈ plan.versions) :
    ∃ final ∈ plan.versions,
      (migrate plan.setsVersion rest faults version (atVersion plan version)).1 = atVersion plan final ∧
      ((migrate plan.setsVersion rest faults version (atVersion plan version)).2 = none →
        ∀ v ∈ plan.versions, v ≤ final) := by
  induction rest generalizing done version faults with
  | nil =>
    refine ⟨version, member, rfl, fun _ => List.forall_mem_cons.mpr ⟨?_, fun v later => ?_⟩⟩
    · have := versions_pos member
      omega
    · obtain ⟨m, inPlan, rfl⟩ := List.mem_map.mp later
      exact below m (by simpa [split] using inPlan)
  | cons m rest ih =>
    have inPlan : m ∈ plan.migrations := by simp [split]
    have nextSplit : plan.migrations = (done ++ [m]) ++ rest := by simp [split]
    by_cases old : m.version ≤ version
    · simp only [migrate, if_pos old]
      exact ih _ nextSplit (List.forall_mem_append.mpr ⟨below, List.forall_mem_singleton.mpr old⟩) member
    · have next := not_le.mp old
      simp only [migrate, if_neg old, if_neg (plan.filled m inPlan)]
      have effect : scriptEffect plan.setsVersion m.sql ⟨version, plan.upTo version⟩ =
          ⟨m.version, plan.upTo m.version⟩ := by
        rw [scriptEffect, plan.sets m inPlan, upTo_next split below next]
      rcases runInTransaction_cases (scriptEffect plan.setsVersion m.sql) (faults 0)
        ⟨version, plan.upTo version⟩ with committed | failed
      · simp only [atVersion, committed, effect, if_true]
        have belowNext : ∀ d ∈ done ++ [m], d.version ≤ m.version := List.forall_mem_append.mpr
          ⟨fun d inDone => (below d inDone).trans next.le, List.forall_mem_singleton.mpr le_rfl⟩
        exact ih _ nextSplit belowNext (List.mem_cons_of_mem _ (List.mem_map_of_mem inPlan))
      · simp only [atVersion, failed, Bool.false_eq_true, if_false]
        exact ⟨version, member, rfl, fun none => by simp at none⟩

theorem migrate_consistent (faults : Nat → Faults) {version : Int} (member : version ∈ plan.versions)
    {outcome : Connection Schema × Option OpenError}
    (ran : migrate plan.setsVersion plan.migrations faults version (atVersion plan version) = outcome) :
    plan.Consistent outcome.1.stored ∧
      (outcome.2 = none → outcome.1.stored.userVersion ∈ plan.versions ∧
        ∀ v ∈ plan.versions, v ≤ outcome.1.stored.userVersion) := by
  obtain ⟨final, inPlan, reached, top⟩ :=
    migrate_atVersion faults (List.nil_append _).symm (by simp) member
  rw [ran] at reached top
  rw [reached]
  exact ⟨.inr ⟨inPlan, rfl⟩, fun none => ⟨inPlan, top none⟩⟩

theorem upTo_one : plan.upTo 1 = [plan.baseline] := by
  have splits : plan.upTo 1 = plan.baseline :: [] := upTo_split (List.nil_append _).symm (by simp) plan.above
  simpa using splits

theorem openDatabase_consistent (faults : OpenFaults) {schema : Schema}
    (consistent : plan.Consistent schema) :
    plan.Consistent (plan.openDatabase faults schema).1 ∧
      ((plan.openDatabase faults schema).2 = none →
        (plan.openDatabase faults schema).1.userVersion ∈ plan.versions ∧
        ∀ v ∈ plan.versions, v ≤ (plan.openDatabase faults schema).1.userVersion) := by
  obtain ⟨userVersion, committed⟩ := schema
  rcases consistent with ⟨zero, nothing⟩ | ⟨member, applied⟩
  · dsimp only at zero nothing
    subst zero nothing
    have effect : scriptEffect plan.setsVersion plan.baseline ⟨0, []⟩ = ⟨1, plan.upTo 1⟩ := by
      rw [scriptEffect, plan.baselineVersion, upTo_one, List.nil_append]
    rcases runInTransaction_cases (scriptEffect plan.setsVersion plan.baseline) faults.baseline
      ⟨0, []⟩ with ran | failed
    · simp only [openDatabase, applyMigrations, currentVersion, if_true, if_neg plan.baselineFilled,
        ran, effect]
      exact migrate_consistent faults.migration (by simp [versions]) rfl
    · simp only [openDatabase, applyMigrations, currentVersion, if_true, if_neg plan.baselineFilled,
        failed, Bool.false_eq_true, if_false]
      exact ⟨.inl ⟨rfl, rfl⟩, fun none => by simp at none⟩
  · dsimp only at member applied
    subst applied
    have filled : ¬userVersion = 0 := (versions_pos member).ne'
    simp only [openDatabase, applyMigrations, currentVersion, filled, if_false]
    exact migrate_consistent faults.migration member rfl

/-! ## Opens without a fault -/

theorem migrate_clean (setsVersion : Text → Int) (migrations : List SqlScript) (version : Int) (schema : Schema) :
    (migrate setsVersion migrations (fun _ => {}) version ⟨schema, none⟩).2 = none := by
  induction migrations generalizing version schema with
  | nil => rfl
  | cons m rest ih =>
    rw [migrate]
    split_ifs
    · exact ih _ _
    · exact ih _ _
    · exact ih m.version (scriptEffect setsVersion m.sql schema)

theorem openDatabase_clean (schema : Schema) : (plan.openDatabase {} schema).2 = none := by
  by_cases empty : schema.userVersion = 0
  · simp only [openDatabase, applyMigrations, currentVersion, empty, if_true, if_neg plan.baselineFilled]
    exact migrate_clean _ _ _ (scriptEffect plan.setsVersion plan.baseline schema)
  · simp only [openDatabase, applyMigrations, currentVersion, empty, if_false]
    exact migrate_clean _ _ _ schema

/-! ## Runs of opens -/

/-- A new database. -/
def fresh : Schema := {}

def openStep (plan : Plan) (schema : Schema) (faults : OpenFaults) : Option Schema :=
  some (plan.openDatabase faults schema).1

theorem upTo_nodup (version : Int) : (plan.upTo version).Nodup := by
  have distinct : (plan.versions).Nodup := versions_ascending.imp (fun lt => lt.ne)
  have marked : ((plan.upTo version).map plan.setsVersion).Sublist plan.versions := by
    have same : (plan.upTo version).map plan.setsVersion =
        1 :: (plan.migrations.filter (fun m => m.version ≤ version)).map SqlScript.version := by
      rw [upTo, List.map_cons, plan.baselineVersion, List.map_map]
      congr 1
      exact List.map_congr_left (fun m member => plan.sets m (List.mem_filter.mp member).1)
    rw [same]
    exact (List.filter_sublist.map SqlScript.version).cons_cons 1
  exact (marked.nodup distinct).of_map _

theorem upTo_injective {a b : Int} (inA : a ∈ plan.versions) (inB : b ∈ plan.versions)
    (same : plan.upTo a = plan.upTo b) : a = b := by
  have bound {a b : Int} (inA : a ∈ plan.versions) (inB : b ∈ plan.versions)
      (same : plan.upTo a = plan.upTo b) : a ≤ b := by
    rcases List.mem_cons.mp inA with rfl | later
    · have := versions_pos inB
      omega
    · obtain ⟨m, inPlan, rfl⟩ := List.mem_map.mp later
      have applied : m.sql ∈ plan.upTo b := by
        rw [← same]
        exact List.mem_cons_of_mem _ (List.mem_map_of_mem (List.mem_filter.mpr ⟨inPlan, by simp⟩))
      rcases List.mem_cons.mp applied with isBaseline | byMigration
      · have clash := plan.sets m inPlan
        rw [isBaseline, plan.baselineVersion] at clash
        have := plan.above m inPlan
        omega
      · obtain ⟨other, kept, sameSql⟩ := List.mem_map.mp byMigration
        obtain ⟨inOther, below⟩ := List.mem_filter.mp kept
        have sameVersion : other.version = m.version := by
          rw [← plan.sets m inPlan, ← plan.sets other inOther, sameSql]
        rw [← sameVersion]
        exact of_decide_eq_true below
  exact le_antisymm (bound inA inB same) (bound inB inA same.symm)

theorem run_consistent (opens : List OpenFaults) :
    ∃ schema, run (openStep plan) fresh opens = some schema ∧ plan.Consistent schema := by
  have total : ∀ (schema : Schema) (opens : List OpenFaults),
      ∃ last, run (openStep plan) schema opens = some last := by
    intro schema opens
    induction opens generalizing schema with
    | nil => exact ⟨schema, rfl⟩
    | cons faults rest ih => exact ih _
  obtain ⟨schema, reached⟩ := total fresh opens
  refine ⟨schema, reached, run_invariant_of_step (I := plan.Consistent) ?_ (.inl ⟨rfl, rfl⟩) reached⟩
  intro s faults s' consistent stepped
  cases stepped
  exact (openDatabase_consistent faults consistent).1

/-- After any sequence of opens with any faults, the stored version is a positive `v` exactly
when the scripts committed so far are the baseline and the migrations up to `v`, each once and
in ascending order; a further open that succeeds ends at the highest version, and one in which
nothing fails succeeds. -/
theorem opens_consistent (plan : Plan) (opens : List OpenFaults) :
    ∃ schema, run (openStep plan) fresh opens = some schema ∧
      (∀ v > 0, schema.userVersion = v ↔ v ∈ plan.versions ∧ schema.committed = plan.upTo v) ∧
      schema.committed.Nodup ∧
      (∀ faults, (plan.openDatabase faults schema).2 = none →
        (plan.openDatabase faults schema).1.userVersion ∈ plan.versions ∧
        ∀ v ∈ plan.versions, v ≤ (plan.openDatabase faults schema).1.userVersion) ∧
      (plan.openDatabase {} schema).2 = none := by
  obtain ⟨schema, reached, consistent⟩ : ∃ schema, run (openStep plan) fresh opens = some schema ∧
      plan.Consistent schema := run_consistent opens
  refine ⟨schema, reached, fun v positive => ?_, ?_,
    fun faults => (openDatabase_consistent faults consistent).2, openDatabase_clean schema⟩
  · rcases consistent with ⟨zero, nothing⟩ | ⟨member, applied⟩
    · apply Iff.intro
      · intro same
        omega
      · intro given
        obtain ⟨_, some⟩ := given
        rw [nothing] at some
        cases some
    · apply Iff.intro
      · intro same
        subst same
        exact ⟨member, applied⟩
      · intro given
        obtain ⟨inPlan, same⟩ := given
        exact upTo_injective member inPlan (applied.symm.trans same)
  · rcases consistent with ⟨_, nothing⟩ | ⟨_, applied⟩
    · rw [nothing]
      exact List.nodup_nil
    · rw [applied]
      exact upTo_nodup _

end Plan

/-! ## Two migrations -/

def baselineScript : Text := text "CREATE TABLE meta (key, value); PRAGMA user_version = 1;"

def titlesScript : Text := text "ALTER TABLE calendar_sources ADD title; PRAGMA user_version = 2;"

def noticesScript : Text := text "CREATE TABLE notices (body); PRAGMA user_version = 3;"

/-- The number behind the last blank of a script. -/
def pragmaVersion (sql : Text) : Int :=
  match (sql.reverse.takeWhile (· ≠ byte ' ')).reverse with
  | [digit, _] => digit.toNat - 48
  | _ => 0

def twoMigrations : Plan where
  baseline := baselineScript
  migrations := [⟨2, titlesScript⟩, ⟨3, noticesScript⟩]
  setsVersion := pragmaVersion
  baselineFilled := by decide +kernel
  baselineVersion := by decide +kernel
  ascending := by decide +kernel
  above := by decide +kernel
  filled := by decide +kernel
  sets := by decide +kernel

/-- The COMMIT of the second migration fails. -/
def secondCommitFails : OpenFaults where
  migration n := { commit := n = 1 }

/-- The first open leaves the schema in front of the migration whose COMMIT fails; the next one ends
at the highest version, with each script committed once. -/
theorem opens_consistent_retried :
    ∃ schema, run (Plan.openStep twoMigrations) Plan.fresh [secondCommitFails] = some schema ∧
      (twoMigrations.openDatabase secondCommitFails Plan.fresh).2 = some (.migrationFailed 3) ∧
      schema = ⟨2, [baselineScript, titlesScript]⟩ ∧
      twoMigrations.openDatabase {} schema = (⟨3, [baselineScript, titlesScript, noticesScript]⟩, none) ∧
      ∀ v ∈ twoMigrations.versions, v ≤ (twoMigrations.openDatabase {} schema).1.userVersion := by
  obtain ⟨schema, reached, _, _, highest, clean⟩ := Plan.opens_consistent twoMigrations [secondCommitFails]
  have first : schema = ⟨2, [baselineScript, titlesScript]⟩ :=
    Option.some.inj (reached.symm.trans (by decide +kernel))
  refine ⟨schema, reached, by decide +kernel, first, ?_, (highest {} clean).2⟩
  rw [first]
  decide +kernel

end DivoomDev.Storage.Migrations
