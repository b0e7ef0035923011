import DubEcosystem.DbMigrations

/-!
# packages/db: migrations apply once

A script is cut at every semicolon and its statements run one by one; the ledger row comes
last.  A call that fails after the first statement of a migration leaves a part of it in
effect and no row, and the next run executes that part again.  Where no run breaks off
within a migration, each one is applied once or not at all.
-/

namespace DubEcosystem.Db

open Chat IdentityRoster Relation List

variable {Database : Type} {engine : Engine Database} {faults : Faults}

/-- The world a step leaves, whether it returned or threw. -/
def worldAfter {α : Type} : EStateM.Result String (Session Database) α → World Database
  | .ok _ session => session.world
  | .error _ session => session.world

def World.afterRun (world : World Database) (engine : Engine Database) (faults : Faults)
    (migrations : List Migration) : World Database :=
  worldAfter (applyMigrations engine faults migrations ⟨world, 0⟩)

def applyFirst (engine : Engine Database) (faults : Faults) (first : List Migration) :
    Act Database Progress := do
  ensureLedger faults
  applyInOrder engine faults first ⟨[], false⟩

def World.Recorded (world : World Database) (migration : Migration) : Prop :=
  hashOf world.ledger migration.ns migration.id = some (hashMigration migration.up)

def World.tookEffect (world : World Database) (migration : Migration) : List String :=
  (world.effects.filter fun effect => effect.migration == migration).map (·.statement)

/-- The migration has a row and each of its statements took effect once, in order; or it has
none and nothing of it took effect. -/
def World.Settled (world : World Database) (statementsOf : String → List String)
    (migration : Migration) : Prop :=
  world.Recorded migration ∧ world.tookEffect migration = statementsOf migration.up ∨
    ¬ world.Recorded migration ∧ world.tookEffect migration = []

/-- A run in which no call fails applies every migration or finds it applied. -/
def World.Completes (world : World Database) (engine : Engine Database)
    (migrations : List Migration) : Prop :=
  ∃ results after,
    applyMigrations engine (fun _ => none) migrations ⟨world, 0⟩ = .ok results after ∧
      ∀ result ∈ results, result.status ≠ .failed

def Reachable (engine : Engine Database) (migrations : List Migration)
    (condition : Faults → World Database → Prop) : World Database → World Database → Prop :=
  ReflTransGen fun before after =>
    ∃ faults, condition faults before ∧ after = before.afterRun engine faults migrations

/-- What holds of every world that runs with the same list lead to, `statementsOf` being how
SQLite reads a script. -/
structure AppliesOnce (engine : Engine Database) (statementsOf : String → List String)
    (migrations : List Migration) (condition : Faults → World Database → Prop)
    (start : World Database) : Prop where
  settled : ∀ world, Reachable engine migrations condition start world →
    ∀ migration ∈ migrations, world.Settled statementsOf migration
  ordered : ∀ world faults, Reachable engine migrations condition start world →
    condition faults world →
      ∃ taken, (world.afterRun engine faults migrations).effects = world.effects ++ taken ∧
        taken.Pairwise fun first second => first.migration.le second.migration
  halts : ∀ world faults first rest, Reachable engine migrations condition start world →
    condition faults world → orderMigrations migrations = first ++ rest →
      match applyFirst engine faults first ⟨world, 0⟩ with
      | .ok progress between => (∃ result ∈ progress.results, result.status = .failed) →
          world.afterRun engine faults migrations = between.world
      | .error _ between => world.afterRun engine faults migrations = between.world
  completes : ∀ world, Reachable engine migrations condition start world →
    start.Completes engine migrations → world.Completes engine migrations

def MigrationsApplyOnce (engine : Engine Database) (statementsOf : String → List String)
    (migrations : List Migration) (condition : Faults → World Database → Prop) : Prop :=
  ∀ start : World Database, (∀ migration ∈ migrations, start.Settled statementsOf migration) →
    AppliesOnce engine statementsOf migrations condition start

def runsTo (engine : Engine Database) : List String → Database → Except String Database
  | [], database => .ok database
  | statement :: rest, database =>
    match engine statement database with
    | .error message => .error message
    | .ok between => runsTo engine rest between

/-- Once the first statement took effect, no call for the migration fails: the calls are
numbered from `calls`, and one for the ledger follows those for the statements. -/
def Carries (engine : Engine Database) (faults : Faults) (statements : List String)
    (database : Database) (calls : Nat) : Prop :=
  ∀ first rest, statements = first :: rest → faults calls = none →
    ∀ between, engine first database = .ok between →
      (∀ later < statements.length, faults (calls + 1 + later) = none) ∧
        ∃ final, runsTo engine rest between = .ok final

def OnceBegun (engine : Engine Database) (faults : Faults) (migration : Migration)
    (session : Session Database) : Prop :=
  hashOf session.world.ledger migration.ns migration.id = none →
    Carries engine faults (splitStatements migration.up) session.world.database (session.calls + 1)

/-- No migration that the run comes to is broken off. -/
def Unbroken (engine : Engine Database) (faults : Faults) : List Migration → Session Database → Prop
  | [], _ => True
  | migration :: rest, session =>
    OnceBegun engine faults migration session ∧ ∀ progress next after, progress.halted = false →
        applyMigration engine faults progress migration session = .ok next after →
          next.halted = false → Unbroken engine faults rest after

/-- A run that does not break off within a migration. -/
def whole (engine : Engine Database) (migrations : List Migration) (faults : Faults)
    (world : World Database) : Prop :=
  faults 0 = none → Unbroken engine faults (orderMigrations migrations) ⟨world, 1⟩

/-- The scripts hold semicolons between their statements only, and the ledger tells the
migrations of the list apart. -/
structure PlainScripts (statementsOf : String → List String) (migrations : List Migration) :
    Prop where
  reads : ∀ migration ∈ migrations,
    splitStatements migration.up = statementsOf migration.up
  distinct : ∀ first ∈ migrations, ∀ second ∈ migrations, first.ns = second.ns →
    first.id = second.id → hashMigration first.up = hashMigration second.up → first = second

section Calls

variable {before after : Session Database}

theorem bind_of_ok {α β : Type} {act : Act Database α} {next : α → Act Database β}
    {answer : α} (returns : act before = .ok answer after) :
    (act >>= next) before = next answer after := by
  simp [bind, EStateM.bind, returns]

theorem bind_of_error {α β : Type} {act : Act Database α} {next : α → Act Database β}
    {message : String}
    (throws : act before = .error message after) :
    (act >>= next) before = .error message after := by
  simp [bind, EStateM.bind, throws]

variable {α : Type} {work : World Database → Except String (α × World Database)}
  {session : Session Database}

theorem call_of_fault {message : String} (fails : faults session.calls = some message) :
    call faults work session = .error message ⟨session.world, session.calls + 1⟩ := by
  simp [call, fails]

theorem call_of_ok {answer : α} {world : World Database}
    (clear : faults session.calls = none) (works : work session.world = .ok (answer, world)) :
    call faults work session = .ok answer ⟨world, session.calls + 1⟩ := by
  simp [call, clear, works]

theorem call_of_error {message : String} (clear : faults session.calls = none)
    (errs : work session.world = .error message) :
    call faults work session = .error message ⟨session.world, session.calls + 1⟩ := by
  simp [call, clear, errs]

end Calls

def World.effected (world : World Database) (migration : Migration) (statements : List String)
    (database : Database) : World Database where
  database := database
  ledger := world.ledger
  effects := world.effects ++ statements.map (⟨migration, ·⟩)

def World.recording (world : World Database) (migration : Migration) : World Database where
  database := world.database
  ledger := world.ledger ++ [⟨migration.ns, migration.id, hashMigration migration.up⟩]
  effects := world.effects

@[simp] theorem World.effected_ledger (world : World Database) (migration : Migration)
    (statements : List String) (database : Database) :
    (world.effected migration statements database).ledger = world.ledger := rfl

theorem World.effected_nil (world : World Database) (migration : Migration) :
    world.effected migration [] world.database = world := by
  simp [World.effected]

theorem World.effected_cons (world : World Database) (migration : Migration)
    (first : String) (rest : List String) (between final : Database) :
    (world.effected migration [first] between).effected migration rest final =
      world.effected migration (first :: rest) final := by
  simp [World.effected]

theorem runsTo_cons_of_ok {first : String} {rest : List String} {database between : Database}
    (works : engine first database = .ok between) :
    runsTo engine (first :: rest) database = runsTo engine rest between := by
  simp [runsTo, works]

theorem runStatement_of_ok {migration : Migration} {statement : String}
    {session : Session Database} {database : Database}
    (clear : faults session.calls = none)
    (works : engine statement session.world.database = .ok database) :
    runStatement engine faults migration statement session =
      .ok () ⟨session.world.effected migration [statement] database, session.calls + 1⟩ := by
  apply call_of_ok clear
  simp [works, World.effected]

theorem runStatements_of_clear {migration : Migration} {statements : List String}
    {session : Session Database} {database : Database}
    (clear : ∀ call < statements.length, faults (session.calls + call) = none)
    (runs : runsTo engine statements session.world.database = .ok database) :
    runStatements engine faults migration statements session =
      .ok () ⟨session.world.effected migration statements database,
        session.calls + statements.length⟩ := by
  induction statements generalizing session with
  | nil =>
    cases runs
    rw [World.effected_nil]
    rfl
  | cons first rest ih =>
    have firstClear : faults session.calls = none := by
      simpa using clear 0 (by simp)
    cases works : engine first session.world.database with
    | error message => simp [runsTo, works] at runs
    | ok between =>
      rw [runsTo_cons_of_ok works] at runs
      rw [runStatements, bind_of_ok (runStatement_of_ok firstClear works), ih _ runs,
        World.effected_cons, length_cons]
      · simp [Nat.add_assoc, Nat.add_comm 1]
      · intro call callLt
        have later := clear (call + 1) (by simpa using callLt)
        rwa [Nat.add_comm call, ← Nat.add_assoc] at later

/-- The statements run to the end, or a first part of them took effect. -/
theorem runStatements_cases (migration : Migration) (statements : List String)
    (session : Session Database) :
    (∃ database, runsTo engine statements session.world.database = .ok database ∧
      (statements ≠ [] → faults session.calls = none) ∧
      runStatements engine faults migration statements session =
        .ok () ⟨session.world.effected migration statements database,
          session.calls + statements.length⟩) ∨
    ∃ message calls done database, done <+: statements ∧
      runsTo engine done session.world.database = .ok database ∧
      (done ≠ [] → faults session.calls = none) ∧
      runStatements engine faults migration statements session =
        .error message ⟨session.world.effected migration done database, calls⟩ := by
  induction statements generalizing session with
  | nil =>
    left
    exact ⟨session.world.database, rfl, fun nonempty => absurd rfl nonempty,
      by rw [World.effected_nil]; rfl⟩
  | cons first rest ih =>
    cases clear : faults session.calls with
    | some message =>
      right
      have throws := @call_of_fault Database faults Unit
        (fun world => match engine first world.database with
          | .error message => .error message
          | .ok database => .ok ((), { world with
              database := database
              effects := world.effects ++ [⟨migration, first⟩] })) session _ clear
      exact ⟨message, session.calls + 1, [], session.world.database, nil_prefix, rfl,
        fun nonempty => absurd rfl nonempty,
        by rw [World.effected_nil]; exact bind_of_error throws⟩
    | none =>
      cases works : engine first session.world.database with
      | error message =>
        right
        have throws : runStatement engine faults migration first session =
            .error message ⟨session.world, session.calls + 1⟩ :=
          call_of_error clear (by simp [works])
        exact ⟨message, session.calls + 1, [], session.world.database, nil_prefix,
          rfl, fun _ => rfl, by rw [World.effected_nil]; exact bind_of_error throws⟩
      | ok between =>
        have returns := @runStatement_of_ok Database engine faults migration first
          session between clear works
        rw [runStatements, bind_of_ok returns, runsTo_cons_of_ok works]
        rcases ih ⟨session.world.effected migration [first] between, session.calls + 1⟩ with
          ⟨database, runs, -, ends⟩ | ⟨message, calls, done, database, isPrefix, runs, -, ends⟩
        · left
          refine ⟨database, runs, fun _ => rfl, ?_⟩
          rw [ends, World.effected_cons, length_cons]
          simp [Nat.add_assoc, Nat.add_comm 1]
        · right
          refine ⟨message, calls, first :: done, database,
            cons_prefix_cons.2 ⟨rfl, isPrefix⟩, ?_, fun _ => rfl, ?_⟩
          · rwa [runsTo_cons_of_ok works]
          · rw [ends, World.effected_cons]

/-- How the handling of migrations ends. -/
inductive Ends where
  | thrown | halted | going

def endsOf : EStateM.Result String (Session Database) Progress → Ends
  | .ok progress _ => if progress.halted then .halted else .going
  | .error _ _ => .thrown

/-- One migration, come to in `world`; `unbroken` says that it is not broken off. -/
inductive Handles (engine : Engine Database) (unbroken : Prop) (world : World Database)
    (migration : Migration) : Ends → World Database → Prop
  | thrown : Handles engine unbroken world migration .thrown world
  | drifted {hash} (found : hashOf world.ledger migration.ns migration.id = some hash)
      (differs : hash ≠ hashMigration migration.up) :
      Handles engine unbroken world migration .halted world
  | skipped (recorded : world.Recorded migration) :
      Handles engine unbroken world migration .going world
  | applied {database} (absent : hashOf world.ledger migration.ns migration.id = none)
      (runs : runsTo engine (splitStatements migration.up) world.database = .ok database) :
      Handles engine unbroken world migration .going
        ((world.effected migration (splitStatements migration.up) database).recording migration)
  | failed {done database} (absent : hashOf world.ledger migration.ns migration.id = none)
      (isPrefix : done <+: splitStatements migration.up)
      (runs : runsTo engine done world.database = .ok database)
      (nothing : unbroken → done = []) :
      Handles engine unbroken world migration .halted (world.effected migration done database)

theorem applyUp_of_clear {migration : Migration} {session : Session Database} {database : Database}
    (absent : hashOf session.world.ledger migration.ns migration.id = none)
    (clear : ∀ call ≤ (splitStatements migration.up).length, faults (session.calls + call) = none)
    (runs : runsTo engine (splitStatements migration.up) session.world.database = .ok database) :
    ∃ calls, applyUp engine faults migration session =
      .ok () ⟨(session.world.effected migration (splitStatements migration.up)
        database).recording migration, calls⟩ := by
  have returns := @runStatements_of_clear _ engine faults migration _ _ _
    (fun call callLt => clear call (Nat.le_of_lt callLt)) runs
  rw [applyUp, bind_of_ok returns]
  refine ⟨_, call_of_ok (clear _ (Nat.le_refl _)) ?_⟩
  simp [absent, World.recording]

/-- `applyUp` applies the migration, or throws after a first part of it. -/
theorem applyUp_cases {migration : Migration} {session : Session Database}
    (absent : hashOf session.world.ledger migration.ns migration.id = none) :
    (∃ database calls,
      runsTo engine (splitStatements migration.up) session.world.database = .ok database ∧
      applyUp engine faults migration session =
        .ok () ⟨(session.world.effected migration (splitStatements migration.up)
          database).recording migration, calls⟩) ∨
    ∃ message calls done database, done <+: splitStatements migration.up ∧
      runsTo engine done session.world.database = .ok database ∧
      (done ≠ [] → faults session.calls = none) ∧
      applyUp engine faults migration session =
        .error message ⟨session.world.effected migration done database, calls⟩ := by
  rcases runStatements_cases migration (splitStatements migration.up) session with
    ⟨database, runs, begins, returns⟩ |
      ⟨message, calls, done, database, isPrefix, runs, begins, throws⟩
  · rw [applyUp, bind_of_ok returns]
    cases clear : faults (session.calls + (splitStatements migration.up).length) with
    | none =>
      left
      refine ⟨database, _, runs, call_of_ok clear ?_⟩
      simp [absent, World.recording]
    | some message =>
      right
      exact ⟨message, _, splitStatements migration.up, database, prefix_rfl, runs, begins,
        call_of_fault clear⟩
  · right
    rw [applyUp, bind_of_error throws]
    exact ⟨message, calls, done, database, isPrefix, runs, begins, rfl⟩

/-- A migration that is not broken off and throws took no effect. -/
theorem eq_nil_of_carries {migration : Migration} {session after : Session Database}
    {done : List String} {database : Database} {message : String}
    (absent : hashOf session.world.ledger migration.ns migration.id = none)
    (carries : Carries engine faults (splitStatements migration.up) session.world.database
      session.calls)
    (isPrefix : done <+: splitStatements migration.up)
    (runs : runsTo engine done session.world.database = .ok database)
    (begins : done ≠ [] → faults session.calls = none)
    (throws : applyUp engine faults migration session = .error message after) :
    done = [] := by
  cases done with
  | nil => rfl
  | cons first others =>
    exfalso
    obtain ⟨rest, split⟩ := isPrefix
    have split : splitStatements migration.up = first :: (others ++ rest) := split.symm
    have clear := begins (cons_ne_nil _ _)
    cases works : engine first session.world.database with
    | error message => simp [runsTo, works] at runs
    | ok between =>
      obtain ⟨laterClear, final, restRuns⟩ := carries first _ split clear between works
      have allClear : ∀ call ≤ (splitStatements migration.up).length,
          faults (session.calls + call) = none := by
        intro call callLe
        cases call with
        | zero => exact clear
        | succ call =>
          have later := laterClear call (by omega)
          rwa [Nat.add_assoc, Nat.add_comm 1] at later
      have allRun : runsTo engine (splitStatements migration.up) session.world.database =
          .ok final := by
        rw [split, runsTo_cons_of_ok works, restRuns]
      obtain ⟨calls, returns⟩ := applyUp_of_clear absent allClear allRun
      rw [throws] at returns
      cases returns

variable {unbroken : Prop}

/-- What the body of the loop does where the run has not halted. -/
theorem applyMigration_cases {progress : Progress} {migration : Migration}
    {session : Session Database} (going : progress.halted = false)
    (onceBegun : unbroken → OnceBegun engine faults migration session) :
    (∃ message, applyMigration engine faults progress migration session =
      .error message ⟨session.world, session.calls + 1⟩) ∨
    ∃ status error after, applyMigration engine faults progress migration session =
        .ok (progress.push migration status error (decide (status = .failed))) after ∧
      Handles engine unbroken session.world migration
        (if status = .failed then .halted else .going) after.world := by
  rw [applyMigration, going]
  simp only [Bool.false_eq_true, if_false]
  cases clear : faults session.calls with
  | some message => exact .inl ⟨message, bind_of_error (call_of_fault clear)⟩
  | none =>
    right
    have returns : selectHash faults migration.ns migration.id session =
        .ok (hashOf session.world.ledger migration.ns migration.id)
          ⟨session.world, session.calls + 1⟩ := call_of_ok clear rfl
    rw [bind_of_ok returns]
    cases found : hashOf session.world.ledger migration.ns migration.id with
    | some hash =>
      by_cases same : hash = hashMigration migration.up
      · have recorded : session.world.Recorded migration := by
          rw [World.Recorded, found, same]
        simp only [same, ne_eq, not_true_eq_false, if_false]
        exact ⟨.skipped, none, _, rfl, .skipped recorded⟩
      · simp only [same, ne_eq, not_false_eq_true, if_true]
        exact ⟨.failed, _, _, rfl, .drifted found same⟩
    | none =>
      have arrives := @applyUp_cases Database engine faults migration
        ⟨session.world, session.calls + 1⟩ found
      simp only [tryCatch, tryCatchThe, MonadExceptOf.tryCatch, EStateM.tryCatch]
      rcases arrives with
        ⟨database, calls, runs, applies⟩ |
          ⟨message, calls, done, database, isPrefix, runs, begins, throws⟩
      · rw [bind_of_ok applies]
        exact ⟨.applied, none, _, rfl, .applied found runs⟩
      · rw [bind_of_error throws]
        have nothing : unbroken → done = [] := by
          intro holds
          exact @eq_nil_of_carries _ engine faults migration
            ⟨session.world, session.calls + 1⟩ _ _ _ _ found (onceBegun holds found)
            isPrefix runs begins throws
        exact ⟨.failed, _, _, rfl, .failed found isPrefix runs nothing⟩

inductive Runs (engine : Engine Database) (unbroken : Prop) :
    World Database → List Migration → Ends → World Database → Prop
  | nil {world} : Runs engine unbroken world [] .going world
  | stops {world migration rest ends after}
      (handles : Handles engine unbroken world migration ends after) (ended : ends ≠ .going) :
      Runs engine unbroken world (migration :: rest) ends after
  | goes {world migration rest between ends after}
      (handles : Handles engine unbroken world migration .going between)
      (later : Runs engine unbroken between rest ends after) :
      Runs engine unbroken world (migration :: rest) ends after

theorem applyInOrder_of_halted {progress : Progress} (halted : progress.halted = true)
    (migrations : List Migration) (session : Session Database) :
    ∃ final, applyInOrder engine faults migrations progress session = .ok final session ∧
      final.halted = true := by
  induction migrations generalizing progress with
  | nil => exact ⟨progress, rfl, halted⟩
  | cons migration rest ih =>
    have skips : applyMigration engine faults progress migration session =
        .ok (progress.push migration .skipped none true) session := by
      rw [applyMigration, if_pos halted]
      rfl
    rw [applyInOrder, bind_of_ok skips]
    exact @ih (progress.push migration .skipped none true) rfl

theorem runs_applyInOrder {progress : Progress}
    {migrations : List Migration} {session : Session Database}
    (going : progress.halted = false)
    (holds : unbroken → Unbroken engine faults migrations session) :
    Runs engine unbroken session.world migrations
      (endsOf (applyInOrder engine faults migrations progress session))
      (worldAfter (applyInOrder engine faults migrations progress session)) := by
  induction migrations generalizing progress session with
  | nil =>
    have ends : endsOf (applyInOrder engine faults [] progress session) = .going := by
      simp [applyInOrder, pure, EStateM.pure, endsOf, going]
    rw [ends]
    exact .nil
  | cons migration rest ih =>
    rcases applyMigration_cases going fun isUnbroken => (holds isUnbroken).1 with
      ⟨message, throws⟩ | ⟨status, error, after, returns, handles⟩
    · rw [applyInOrder, bind_of_error throws]
      exact .stops .thrown nofun
    · rw [applyInOrder, bind_of_ok returns]
      by_cases failed : status = .failed
      · rw [if_pos failed] at handles
        obtain ⟨final, skips, isHalted⟩ := @applyInOrder_of_halted Database engine faults
          (progress.push migration status error (decide (status = .failed)))
          (decide_eq_true failed) rest after
        rw [skips]
        simp only [endsOf, isHalted, if_true]
        exact .stops handles nofun
      · rw [if_neg failed] at handles
        have goesOn : (progress.push migration status error
            (decide (status = .failed))).halted = false := decide_eq_false failed
        exact .goes handles (ih goesOn fun isUnbroken =>
          (holds isUnbroken).2 progress _ after going returns goesOn)

def Progress.Honest (progress : Progress) : Prop :=
  progress.halted = true ↔ ∃ result ∈ progress.results, result.status = .failed

theorem Progress.Honest.push {progress : Progress} {migration : Migration} {status : Status}
    {error : Option String} (honest : progress.Honest) (going : progress.halted = false) :
    (progress.push migration status error (decide (status = .failed))).Honest := by
  have noneFailed : ¬∃ result ∈ progress.results, result.status = .failed := by
    intro failed
    rw [honest.mpr failed] at going
    cases going
  simp only [Progress.Honest, Progress.push, decide_eq_true_eq, mem_append, mem_singleton]
  constructor
  · exact fun failed => ⟨_, .inr rfl, failed⟩
  · rintro ⟨result, member | rfl, failed⟩
    · exact absurd ⟨result, member, failed⟩ noneFailed
    · exact failed

variable {migrations : List Migration}

theorem honest_applyInOrder {progress final : Progress}
    {session after : Session Database} (honest : progress.Honest)
    (returns : applyInOrder engine faults migrations progress session = .ok final after) :
    final.Honest := by
  induction migrations generalizing progress session with
  | nil =>
    cases returns
    exact honest
  | cons migration rest ih =>
    cases halts : progress.halted with
    | true =>
      have skips : applyMigration engine faults progress migration session =
          .ok (progress.push migration .skipped none true) session := by
        rw [applyMigration, if_pos halts]
        rfl
      rw [applyInOrder, bind_of_ok skips] at returns
      apply ih _ returns
      obtain ⟨result, member, failed⟩ := honest.mp halts
      exact iff_of_true rfl ⟨result, mem_append_left _ member, failed⟩
    | false =>
      rcases @applyMigration_cases _ _ _ False _ _ _ halts nofun with
        ⟨message, throws⟩ | ⟨status, error, between, goesOn, -⟩
      · rw [applyInOrder, bind_of_error throws] at returns
        cases returns
      · rw [applyInOrder, bind_of_ok goesOn] at returns
        exact ih (honest.push halts) returns

variable {statementsOf : String → List String} {migrations : List Migration}

theorem hashOf_append {ledger : List LedgerRow} {row : LedgerRow} {ns : Namespace} {id : String} :
    hashOf (ledger ++ [row]) ns id =
      (hashOf ledger ns id).or (if row.ns = ns ∧ row.id = id then some row.hash else none) := by
  unfold hashOf
  rw [find?_append]
  cases found : ledger.find? fun row => row.ns == ns && row.id == id with
  | some earlier => rfl
  | none =>
    by_cases same : row.ns = ns ∧ row.id = id
    · simp [same]
    · have other : (row.ns == ns && row.id == id) = false := by
        simpa using same
      simp [same, other]

variable {unbroken : Prop} {world after : World Database} {ends : Ends}

variable {migration : Migration}

variable {other : Migration}

theorem Handles.recorded_mono
    (handles : Handles engine unbroken world migration ends after) (recorded : world.Recorded other) :
    after.Recorded other := by
  cases handles with
  | thrown | drifted _ _ | skipped _ | failed _ _ _ _ => exact recorded
  | applied _ _ =>
    unfold World.Recorded at recorded
    simp [World.Recorded, World.recording, hashOf_append, recorded]

theorem Handles.recorded
    (handles : Handles engine unbroken world migration .going after) : after.Recorded migration := by
  cases handles with
  | skipped recorded => exact recorded
  | applied absent runs => simp [World.Recorded, World.recording, hashOf_append, absent]

theorem Runs.recorded_mono
    (runs : Runs engine unbroken world migrations ends after) (recorded : world.Recorded other) :
    after.Recorded other := by
  induction runs with
  | nil => exact recorded
  | stops handles _ => exact handles.recorded_mono recorded
  | goes handles _ ih => exact ih (handles.recorded_mono recorded)

theorem Handles.eq_of_ended
    (handles : Handles engine True world migration ends after) (ended : ends ≠ .going) :
    after = world := by
  cases handles with
  | thrown | drifted _ _ => rfl
  | skipped _ | applied _ _ => exact absurd rfl ended
  | failed _ _ runs nothing =>
    obtain rfl := nothing trivial
    cases runs
    exact World.effected_nil world migration

theorem World.tookEffect_applied (world : World Database) (migration other : Migration)
    (statements : List String) (database : Database) :
    ((world.effected migration statements database).recording migration).tookEffect other =
      world.tookEffect other ++ if migration = other then statements else [] := by
  by_cases same : migration = other
  · simp [World.tookEffect, World.effected, World.recording, same, Function.comp_def, filter_map]
  · simp [World.tookEffect, World.effected, World.recording, same, Function.comp_def, filter_map]

theorem Handles.settled {migration : Migration}
    (handles : Handles engine True world migration ends after)
    (plain : PlainScripts statementsOf migrations) (listed : migration ∈ migrations)
    (settled : ∀ other ∈ migrations, world.Settled statementsOf other) :
    ∀ other ∈ migrations, after.Settled statementsOf other := by
  by_cases ended : ends = .going
  · subst ended
    have isRecorded := handles.recorded
    cases handles with
    | skipped _ => exact settled
    | @applied database absent runs =>
      intro other member
      unfold World.Settled
      rw [World.tookEffect_applied]
      by_cases same : migration = other
      · subst same
        left
        rcases settled migration listed with ⟨recorded, -⟩ | ⟨-, nothing⟩
        · rw [World.Recorded, absent] at recorded
          cases recorded
        · rw [nothing, if_pos rfl, plain.reads migration listed]
          exact ⟨isRecorded, rfl⟩
      · rw [if_neg same, append_nil]
        rcases settled other member with ⟨recorded, exact⟩ | ⟨notRecorded, nothing⟩
        · exact .inl ⟨(Handles.applied absent runs : Handles engine True _ _ _ _).recorded_mono
            recorded, exact⟩
        · right
          refine ⟨?_, nothing⟩
          intro recorded
          simp only [World.Recorded, World.recording, World.effected_ledger, hashOf_append,
            Option.or_eq_some_iff, Option.ite_none_right_eq_some, Option.some.injEq] at recorded
          rcases recorded with recorded | ⟨-, ⟨sameNs, sameId⟩, sameHash⟩
          · exact notRecorded recorded
          · exact same (plain.distinct migration listed other member sameNs sameId sameHash)
  · rw [handles.eq_of_ended ended]
    exact settled

theorem Runs.settled {ordered : List Migration} (runs : Runs engine True world ordered ends after)
    (plain : PlainScripts statementsOf migrations) (listed : ordered ⊆ migrations)
    (settled : ∀ other ∈ migrations, world.Settled statementsOf other) :
    ∀ other ∈ migrations, after.Settled statementsOf other := by
  induction runs with
  | nil => exact settled
  | stops handles _ => exact handles.settled plain (listed (.head _)) settled
  | goes handles _ ih =>
    exact ih (fun _ member => listed (.tail _ member))
      (handles.settled plain (listed (.head _)) settled)

theorem Handles.effects (handles : Handles engine unbroken world migration ends after) :
    ∃ taken, after.effects = world.effects ++ taken ∧
      ∀ effect ∈ taken, effect.migration = migration := by
  cases handles with
  | thrown | drifted _ _ | skipped _ => exact ⟨[], by simp⟩
  | applied _ _ | failed _ _ _ _ => exact ⟨_, rfl, by simp⟩

variable {ordered : List Migration}

theorem Runs.effects
    (runs : Runs engine unbroken world ordered ends after) (sorted : ordered.Pairwise Migration.le) :
    ∃ taken, after.effects = world.effects ++ taken ∧
      (∀ effect ∈ taken, effect.migration ∈ ordered) ∧
      taken.Pairwise fun first second => first.migration.le second.migration := by
  have le_refl : ∀ migration : Migration, migration.le migration :=
    fun migration => .inr ⟨rfl, le_refl _⟩
  have alike : ∀ {migration : Migration} {taken : List Effect},
      (∀ effect ∈ taken, effect.migration = migration) →
        taken.Pairwise fun first second => first.migration.le second.migration := by
    intro migration taken same
    apply pairwise_of_forall_mem_list
    intro first firstMem second secondMem
    rw [same first firstMem, same second secondMem]
    exact le_refl migration
  induction runs with
  | nil => exact ⟨[], by simp⟩
  | stops handles _ =>
    obtain ⟨taken, isTaken, same⟩ := handles.effects
    exact ⟨taken, isTaken, fun effect member => by simp [same effect member], alike same⟩
  | goes handles _ ih =>
    obtain ⟨taken, isTaken, same⟩ := handles.effects
    obtain ⟨below, tail⟩ := pairwise_cons.mp sorted
    obtain ⟨later, isLater, listed, inOrder⟩ := ih tail
    refine ⟨taken ++ later, by rw [isLater, isTaken, append_assoc], ?_, ?_⟩
    · intro effect member
      rcases mem_append.mp member with member | member
      · simp [same effect member]
      · exact .tail _ (listed effect member)
    · rw [pairwise_append]
      refine ⟨alike same, inOrder, ?_⟩
      intro first firstMem second secondMem
      rw [same first firstMem]
      exact below _ (listed second secondMem)

def World.Ready (world : World Database) (engine : Engine Database)
    (ordered : List Migration) : Prop :=
  ∃ after, Runs engine False world ordered .going after

theorem Handles.after_unique {other : Prop} {first second : World Database}
    {migration : Migration} (one : Handles engine unbroken world migration .going first)
    (another : Handles engine other world migration .going second) : first = second := by
  cases one with
  | skipped recorded =>
    cases another with
    | skipped _ => rfl
    | applied absent _ => simp [World.Recorded, absent] at recorded
  | applied absent runs =>
    cases another with
    | skipped recorded => simp [World.Recorded, absent] at recorded
    | applied _ same =>
      rw [runs] at same
      cases same
      rfl

/-- A run that is not broken off leaves a list that can be worked off. -/
theorem Runs.ready
    (runs : Runs engine True world ordered ends after) (ready : world.Ready engine ordered) :
    after.Ready engine ordered := by
  induction runs with
  | nil => exact ready
  | stops handles ended => rwa [handles.eq_of_ended ended]
  | goes handles later ih =>
    obtain ⟨final, clean⟩ := ready
    cases clean with
    | stops _ ended => exact absurd rfl ended
    | goes cleanly rest =>
      obtain rfl := handles.after_unique cleanly
      obtain ⟨last, restRuns⟩ := ih ⟨final, rest⟩
      exact ⟨last, .goes (.skipped (later.recorded_mono handles.recorded)) restRuns⟩

theorem applyInOrder_of_ready {world after : World Database} {ordered : List Migration}
    {ends : Ends} (runs : Runs engine False world ordered ends after) (going : ends = .going)
    {progress : Progress} (goesOn : progress.halted = false) (calls : Nat) :
    ∃ final last, applyInOrder engine (fun _ => none) ordered progress ⟨world, calls⟩ =
      .ok final last ∧ final.halted = false := by
  induction runs generalizing progress calls with
  | nil => exact ⟨progress, _, rfl, goesOn⟩
  | stops _ ended => exact absurd going ended
  | @goes world migration rest between ends after handles _ ih =>
    have selects : @selectHash Database (fun _ => none) migration.ns migration.id ⟨world, calls⟩ =
        .ok (hashOf world.ledger migration.ns migration.id) ⟨world, calls + 1⟩ :=
      call_of_ok rfl rfl
    have returns : ∃ status later, status ≠ Status.failed ∧
        applyMigration engine (fun _ => none) progress migration ⟨world, calls⟩ =
          .ok (progress.push migration status none false) ⟨between, later⟩ := by
      rw [applyMigration, goesOn]
      simp only [Bool.false_eq_true, if_false]
      rw [bind_of_ok selects]
      cases handles with
      | skipped recorded =>
        rw [World.Recorded] at recorded
        simp only [recorded, ne_eq, not_true_eq_false, if_false]
        exact ⟨.skipped, calls + 1, nofun, rfl⟩
      | applied absent applies =>
        obtain ⟨later, applied⟩ := @applyUp_of_clear Database engine (fun _ => none) migration
          ⟨world, calls + 1⟩ _ absent (fun _ _ => rfl) applies
        simp only [absent, tryCatch, tryCatchThe, MonadExceptOf.tryCatch, EStateM.tryCatch]
        rw [bind_of_ok applied]
        exact ⟨.applied, later, nofun, rfl⟩
    obtain ⟨status, later, -, returns⟩ := returns
    rw [applyInOrder, bind_of_ok returns]
    exact @ih going (progress.push migration status none false) rfl later

theorem ensureLedger_of_fault {message : String} (fails : faults 0 = some message) :
    ensureLedger faults ⟨world, 0⟩ = .error message ⟨world, 1⟩ :=
  call_of_fault fails

theorem ensureLedger_of_clear {world : World Database} (clear : faults 0 = none) :
    ensureLedger faults ⟨world, 0⟩ = .ok () ⟨world, 1⟩ :=
  call_of_ok clear rfl

theorem applyMigrations_eq (engine : Engine Database) (faults : Faults)
    (migrations : List Migration) :
    applyMigrations engine faults migrations =
      applyFirst engine faults (orderMigrations migrations) >>= fun progress =>
        pure progress.results := by
  simp only [applyMigrations, applyFirst, bind_assoc]

theorem afterRun_eq (world : World Database) (migrations : List Migration) :
    world.afterRun engine faults migrations =
      worldAfter (applyFirst engine faults (orderMigrations migrations) ⟨world, 0⟩) := by
  rw [World.afterRun, applyMigrations_eq]
  cases result : applyFirst engine faults (orderMigrations migrations) ⟨world, 0⟩ with
  | ok progress after => rw [bind_of_ok result]; rfl
  | error message after => rw [bind_of_error result]; rfl

theorem runs_afterRun {world : World Database} {migrations : List Migration}
    (holds : unbroken → whole engine migrations faults world) :
    world.afterRun engine faults migrations = world ∨
      ∃ ends, Runs engine unbroken world (orderMigrations migrations) ends
        (world.afterRun engine faults migrations) := by
  rw [afterRun_eq]
  cases clear : faults 0 with
  | some message =>
    left
    rw [applyFirst, bind_of_error (ensureLedger_of_fault clear)]
    rfl
  | none =>
    right
    rw [applyFirst, bind_of_ok (ensureLedger_of_clear clear)]
    exact ⟨_, @runs_applyInOrder _ engine faults unbroken ⟨[], false⟩ _ ⟨world, 1⟩ rfl
      fun isUnbroken => holds isUnbroken clear⟩

theorem completes_iff :
    world.Completes engine migrations ↔ world.Ready engine (orderMigrations migrations) := by
  have clear := @ensureLedger_of_clear Database (fun _ => none) world rfl
  simp only [World.Completes, applyMigrations_eq, applyFirst]
  constructor
  · rintro ⟨results, after, returns, noneFailed⟩
    have runs := @runs_applyInOrder _ engine (fun _ => none) False ⟨[], false⟩
      (orderMigrations migrations) ⟨world, 1⟩ rfl nofun
    cases result : applyInOrder engine (fun _ => none) (orderMigrations migrations) ⟨[], false⟩
        ⟨world, 1⟩ with
    | error message last =>
      rw [bind_of_error ((bind_of_ok clear).trans result)] at returns
      cases returns
    | ok progress last =>
      rw [bind_of_ok ((bind_of_ok clear).trans result)] at returns
      cases returns
      have honest := honest_applyInOrder (by simp [Progress.Honest]) result
      have going : progress.halted = false := by
        rw [Bool.eq_false_iff]
        intro halted
        obtain ⟨failed, member, isFailed⟩ := honest.mp halted
        exact noneFailed failed member isFailed
      rw [result, endsOf, going] at runs
      exact ⟨_, runs⟩
  · rintro ⟨after, runs⟩
    obtain ⟨final, last, returns, going⟩ :=
      @applyInOrder_of_ready _ engine _ _ _ _ runs rfl ⟨[], false⟩ rfl 1
    have honest := honest_applyInOrder (by simp [Progress.Honest]) returns
    refine ⟨final.results, last, bind_of_ok ((bind_of_ok clear).trans returns), ?_⟩
    intro result member failed
    rw [honest.mpr ⟨result, member, failed⟩] at going
    cases going

theorem applyInOrder_append (engine : Engine Database) (faults : Faults)
    (first rest : List Migration) (progress : Progress) :
    applyInOrder engine faults (first ++ rest) progress =
      applyInOrder engine faults first progress >>= applyInOrder engine faults rest := by
  induction first generalizing progress with
  | nil => simp [applyInOrder]
  | cons migration first ih =>
    simp only [cons_append, applyInOrder, bind_assoc, ih]

instance : Std.Total Migration.le where
  total first second := by
    unfold Migration.le
    rcases Nat.lt_trichotomy (nsIndex first.ns) (nsIndex second.ns) with less | same | more
    · exact .inl (.inl less)
    · rcases le_total (codeUnits first.id) (codeUnits second.id) with below | above
      · exact .inl (.inr ⟨same, below⟩)
      · exact .inr (.inr ⟨same.symm, above⟩)
    · exact .inr (.inl more)

instance : IsTrans Migration Migration.le where
  trans first second third := by
    rintro (less | ⟨same, below⟩) (lessToo | ⟨sameToo, belowToo⟩)
    · exact .inl (Nat.lt_trans less lessToo)
    · exact .inl (sameToo ▸ less)
    · exact .inl (same ▸ lessToo)
    · exact .inr ⟨same.trans sameToo, le_trans below belowToo⟩

theorem halts_of_failed {migrations first rest : List Migration}
    (split : orderMigrations migrations = first ++ rest) :
    match applyFirst engine faults first ⟨world, 0⟩ with
    | .ok progress between => (∃ result ∈ progress.results, result.status = .failed) →
        world.afterRun engine faults migrations = between.world
    | .error _ between => world.afterRun engine faults migrations = between.world := by
  have continues : applyFirst engine faults (first ++ rest) =
      applyFirst engine faults first >>= applyInOrder engine faults rest := by
    simp only [applyFirst, applyInOrder_append, bind_assoc]
  rw [afterRun_eq, split, continues]
  cases result : applyFirst engine faults first ⟨world, 0⟩ with
  | error message between => rw [bind_of_error result]; rfl
  | ok progress between =>
    intro failed
    have honest : progress.Honest := by
      cases clear : faults 0 with
      | some message =>
        rw [applyFirst, bind_of_error (ensureLedger_of_fault clear)] at result
        cases result
      | none =>
        rw [applyFirst, bind_of_ok (ensureLedger_of_clear clear)] at result
        exact honest_applyInOrder (by simp [Progress.Honest]) result
    obtain ⟨final, skips, -⟩ := @applyInOrder_of_halted _ engine faults progress
      (honest.mpr failed) rest between
    rw [bind_of_ok result, skips]
    rfl

/-- The ledger tells the scripts of the list apart, they hold semicolons between statements only,
and the run is not broken off. -/
def appliesWhole (engine : Engine Database) (statementsOf : String → List String)
    (migrations : List Migration) (faults : Faults) (world : World Database) : Prop :=
  PlainScripts statementsOf migrations ∧ whole engine migrations faults world

def twoInserts : Migration where
  id := "0002_seed_links"
  ns := .lp
  up := "INSERT INTO lp_links (name) VALUES ('a');\nINSERT INTO lp_links (name) VALUES ('b');"

end DubEcosystem.Db
