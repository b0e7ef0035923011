import DubEcosystem.ChatTypes
import DubEcosystem.DbNamespaces

/-!
# packages/db: the migration runner

`applyMigrations` of `migrations.ts`, over a database that runs one statement at a time.
What a statement does to the database is left to the engine; a call of D1 may also fail for
a reason of its own, and then does nothing.  `applied_at` is written and never read, and is
left out.  The world remembers which statements took effect.
-/

namespace DubEcosystem.Db

open Chat IdentityRoster

structure Migration where
  id : String
  ns : Namespace
  up : String
  deriving DecidableEq

inductive Status where
  | applied | skipped | failed
  deriving DecidableEq

structure MigrationResult where
  ns : Namespace
  id : String
  status : Status
  error : Option String := none

/-- A row of `dub_migrations`. -/
structure LedgerRow where
  ns : Namespace
  id : String
  hash : String

structure Effect where
  migration : Migration
  statement : String

/-- What SQLite makes of a statement: the database after it, or an error. -/
abbrev Engine (Database : Type) := String → Database → Except String Database

structure World (Database : Type) where
  database : Database
  ledger : List LedgerRow
  effects : List Effect

/-- The reason the `n`th call of a run fails for, if it does. -/
abbrev Faults := Nat → Option String

/-- The world during a run, and how many calls the run has made. -/
structure Session (Database : Type) where
  world : World Database
  calls : Nat

variable {Database : Type}

/-- A step of a run, which may throw a message. -/
abbrev Act (Database α : Type) := EStateM String (Session Database) α

def call (faults : Faults) {α : Type}
    (work : World Database → Except String (α × World Database)) : Act Database α :=
  fun session =>
    match faults session.calls with
    | some message => .error message ⟨session.world, session.calls + 1⟩
    | none =>
      match work session.world with
      | .error message => .error message ⟨session.world, session.calls + 1⟩
      | .ok (answer, world) => .ok answer ⟨world, session.calls + 1⟩

def hashOf (ledger : List LedgerRow) (ns : Namespace) (id : String) : Option String :=
  (ledger.find? fun row => row.ns == ns && row.id == id).map (·.hash)

/-- `CREATE TABLE IF NOT EXISTS`: a ledger that is not there has no rows. -/
def ensureLedger (faults : Faults) : Act Database Unit :=
  call faults fun world => .ok ((), world)

/-- `SELECT_HASH`. -/
def selectHash (faults : Faults) (ns : Namespace) (id : String) : Act Database (Option String) :=
  call faults fun world => .ok (hashOf world.ledger ns id, world)

/-- `INSERT_LEDGER`; `(namespace, id)` is the primary key. -/
def insertLedger (faults : Faults) (row : LedgerRow) : Act Database Unit :=
  call faults fun world =>
    match hashOf world.ledger row.ns row.id with
    | some _ => .error "UNIQUE constraint failed: dub_migrations.namespace, dub_migrations.id"
    | none => .ok ((), { world with ledger := world.ledger ++ [row] })

variable (engine : Engine Database)

/-- `d1.prepare(stmt).run()`. -/
def runStatement (faults : Faults) (migration : Migration)
    (statement : String) : Act Database Unit :=
  call faults fun world =>
    match engine statement world.database with
    | .error message => .error message
    | .ok database =>
      .ok ((), { world with
        database := database
        effects := world.effects ++ [⟨migration, statement⟩] })

def hashMigration (up : String) : String :=
  hexDigits (fnv1a (codeUnits up)).toNat

def splitStatements (up : String) : List String :=
  ((up.toList.splitOn ';').map fun piece => trim (String.ofList piece)).filter fun statement =>
    decide (0 < jsLength statement)

def nsIndex (ns : Namespace) : Nat :=
  namespaces.idxOf ns

/-- The order of two migrations, equal ones included. -/
def Migration.le (first second : Migration) : Prop :=
  nsIndex first.ns < nsIndex second.ns ∨
    nsIndex first.ns = nsIndex second.ns ∧ codeUnits first.id ≤ codeUnits second.id

instance : DecidableRel Migration.le :=
  fun _ _ => inferInstanceAs (Decidable (_ ∨ _))

/-- `.sort`, which is stable. -/
def orderMigrations (migrations : List Migration) : List Migration :=
  migrations.insertionSort Migration.le

/-- The variables of the loop. -/
structure Progress where
  results : List MigrationResult
  halted : Bool

def Progress.push (progress : Progress) (migration : Migration) (status : Status)
    (error : Option String) (halted : Bool) : Progress where
  results := progress.results ++ [⟨migration.ns, migration.id, status, error⟩]
  halted := halted

def runStatements (engine : Engine Database) (faults : Faults) (migration : Migration) :
    List String → Act Database Unit
  | [] => pure ()
  | statement :: rest => do
    runStatement engine faults migration statement
    runStatements engine faults migration rest

/-- The body of `try`. -/
def applyUp (faults : Faults) (migration : Migration) :
    Act Database Unit := do
  runStatements engine faults migration (splitStatements migration.up)
  insertLedger faults ⟨migration.ns, migration.id, hashMigration migration.up⟩

/-- The body of the loop. -/
def applyMigration (faults : Faults) (progress : Progress)
    (migration : Migration) : Act Database Progress :=
  if progress.halted then
    pure (progress.push migration .skipped none true)
  else do
    match ← selectHash faults migration.ns migration.id with
    | some existing =>
      if existing ≠ hashMigration migration.up then
        pure (progress.push migration .failed
          (some "DB_MIGRATION_DRIFT: applied content differs from ledger") true)
      else
        pure (progress.push migration .skipped none false)
    | none =>
      tryCatch (do
          applyUp engine faults migration
          pure (progress.push migration .applied none false))
        fun message =>
          pure (progress.push migration .failed (some ("DB_MIGRATION_FAILED: " ++ message)) true)

def applyInOrder (engine : Engine Database) (faults : Faults) :
    List Migration → Progress → Act Database Progress
  | [], progress => pure progress
  | migration :: rest, progress => do
    let progress ← applyMigration engine faults progress migration
    applyInOrder engine faults rest progress

def applyMigrations (faults : Faults)
    (migrations : List Migration) : Act Database (List MigrationResult) := do
  ensureLedger faults
  let progress ← applyInOrder engine faults (orderMigrations migrations) ⟨[], false⟩
  return progress.results

end DubEcosystem.Db
