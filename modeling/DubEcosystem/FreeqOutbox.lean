import DubEcosystem.Interleaving
import DubEcosystem.KeyedTable
import Mathlib.Data.List.Sort

/-!
# The freeq outbox

`@dub/freeq` keeps one row per message in the table `freeq_outbox`.  Producers
`enqueue`, a cron trigger or an alarm runs `drain`, and `pruneOutbox` reclaims
finished rows.  Each SQL statement, each call of the consumer and each reading
of the clock is one atomic call.

Instants are milliseconds since the epoch: the columns hold ISO 8601 strings of
one fixed width, whose order is the order of the instants.  JSON is a parameter,
because the outbox only writes bodies with `JSON.stringify` and reads them back
with `JSON.parse`.
-/

namespace DubEcosystem.Freeq

open Interleaving

inductive OutboxStatus where
  | pending
  | done
  | failed
  deriving DecidableEq

structure OutboxRow where
  id : String
  topic : String
  payload : String
  status : OutboxStatus
  attempts : Nat
  nextAttemptAt : Int
  createdAt : Int
  lastError : Option String

/-- `JSON.stringify` and `JSON.parse`; either may throw.  What was written can
be read. -/
structure JsonCodec (Body : Type) where
  stringify : Body → Except String String
  parse : String → Except String Body
  parse_stringify : ∀ {body text}, stringify body = .ok text →
    ∃ decoded, parse text = .ok decoded

structure EnqueueOptions where
  id : Option String := none

structure OutboxMessage (Body : Type) where
  id : String
  topic : String
  payload : Body
  attempts : Nat

structure BackoffOptions where
  baseDelayMs : Option Int := none
  maxDelayMs : Option Int := none

structure DrainOptions extends BackoffOptions where
  batchSize : Option Nat := none
  maxAttempts : Option Nat := none

structure DrainResult where
  claimed : Nat
  delivered : Nat
  retried : Nat
  failed : Nat

structure PruneOptions where
  doneRetentionMs : Option Int := none
  failedRetentionMs : Option Int := none

def defaultBaseMs : Int := 1000

def defaultMaxMs : Int := 60 * 60 * 1000

def defaultBatch : Nat := 25

def defaultMaxAttempts : Nat := 8

def defaultDoneRetentionMs : Int := 3 * 24 * 60 * 60 * 1000

def defaultFailedRetentionMs : Int := 30 * 24 * 60 * 60 * 1000

/-- The delay before the next attempt.  From the fortieth doubling on the factor
is infinite, and with a base that is not positive the product is then no finite
number. -/
def backoffMs (attempts : Nat) (opts : BackoffOptions) : Option Int :=
  let base := opts.baseDelayMs.getD defaultBaseMs
  let max := opts.maxDelayMs.getD defaultMaxMs
  let n := Nat.max 1 attempts
  if n - 1 ≥ 40 then
    if 0 < base then some max else none
  else some (min (base * 2 ^ (n - 1)) max)

section Calls

variable (Body : Type)

/-- The atomic calls of the outbox.  `writeRow` asks whether D1 accepts the
next status write. -/
inductive Call where
  | now
  | ulid (now : Int)
  | insertOrIgnore (row : OutboxRow)
  | selectDue (now : Int) (limit : Nat)
  | deliver (message : OutboxMessage Body)
  | writeRow
  | setDone (id : String) (attempts : Nat)
  | setFailed (id : String) (attempts : Nat) (message : String)
  | reschedule (id : String) (attempts : Nat) (nextAt : Int) (message : String)
  | deleteTerminal (doneCutoff failedCutoff : Int)

def Answer : Call Body → Type
  | .now => Int
  | .ulid _ => String
  | .insertOrIgnore _ => Unit
  | .selectDue _ _ => List OutboxRow
  | .deliver _ => Except String Unit
  | .writeRow => Except String Unit
  | .setDone _ _ => Unit
  | .setFailed _ _ _ => Unit
  | .reschedule _ _ _ _ => Unit
  | .deleteTerminal _ _ => Nat

def outboxSignature : Signature where
  Call := Call Body
  Answer := Answer Body

end Calls

/-- What happened so far, for the statements about histories: nothing in the
code reads it. -/
inductive Event where
  | inserted (row : OutboxRow)
  | delivered (id : String) (returned : Bool)
  | recorded (id : String)
  | pruned (row : OutboxRow)

abbrev OutboxTable := KeyedTable OutboxRow.id

structure World where
  table : OutboxTable
  clock : Int
  history : List Event

variable {Body : Type}

/-- `WHERE status = 'pending' AND next_attempt_at <= now ORDER BY
next_attempt_at ASC LIMIT limit`. -/
def World.due (world : World) (now : Int) (limit : Nat) : List OutboxRow :=
  ((world.table.rows.filter fun row =>
      row.status = .pending ∧ row.nextAttemptAt ≤ now).insertionSort
    fun first second => first.nextAttemptAt ≤ second.nextAttemptAt).take limit

/-- `UPDATE freeq_outbox SET change WHERE id = id`. -/
def World.setRow (world : World) (id : String) (change : OutboxRow → OutboxRow)
    (keepsId : ∀ row, (change row).id = row.id) : World :=
  { world with
    table := world.table.update (fun row => row.id = id) change keepsId
    history := .recorded id :: world.history }

theorem World.mem_setRow {world : World} {id : String}
    {change : OutboxRow → OutboxRow} {keepsId : ∀ row, (change row).id = row.id}
    {row : OutboxRow} :
    row ∈ (world.setRow id change keepsId).table ↔
      (∃ old ∈ world.table, old.id = id ∧ row = change old) ∨
        (row ∈ world.table ∧ row.id ≠ id) := by
  simp only [World.setRow, KeyedTable.mem_update, decide_eq_true_eq]
  constructor
  · rintro ⟨old, member, rfl⟩
    by_cases named : old.id = id
    · exact .inl ⟨old, member, named, if_pos named⟩
    · rw [if_neg named]
      exact .inr ⟨member, named⟩
  · rintro (⟨old, member, named, rfl⟩ | ⟨member, other⟩)
    · exact ⟨old, member, if_pos named⟩
    · exact ⟨row, member, if_neg other⟩

/-- The rows the retention job deletes. -/
def isPruned (doneCutoff failedCutoff : Int) (row : OutboxRow) : Bool :=
  (row.status = .done ∧ row.createdAt ≤ doneCutoff) ∨
    (row.status = .failed ∧ row.createdAt ≤ failedCutoff)

theorem finished_of_isPruned {doneCutoff failedCutoff : Int} {row : OutboxRow}
    (selected : isPruned doneCutoff failedCutoff row = true) :
    row.status ≠ .pending := by
  intro isPending
  simp [isPruned, isPending] at selected

def exec : (request : Call Body) → World → Option (Answer Body request × World)
  | .now, world => some (world.clock, world)
  | .ulid _, _ => none
  | .insertOrIgnore row, world =>
    match world.table.insert? row with
    | some inserted =>
      some ((), { world with
        table := inserted
        history := .inserted row :: world.history })
    | none => some ((), world)
  | .selectDue now limit, world => some (world.due now limit, world)
  | .deliver _, _ => none
  | .writeRow, _ => none
  | .setDone id attempts, world =>
    some ((), world.setRow id
      (fun row => { row with
        status := .done, attempts := attempts, lastError := none })
      fun _ => rfl)
  | .setFailed id attempts message, world =>
    some ((), world.setRow id
      (fun row => { row with
        status := .failed, attempts := attempts, lastError := some message })
      fun _ => rfl)
  | .reschedule id attempts nextAt message, world =>
    some ((), world.setRow id
      (fun row => { row with
        attempts := attempts, nextAttemptAt := nextAt
        lastError := some message })
      fun _ => rfl)
  | .deleteTerminal doneCutoff failedCutoff, world =>
    let deleted := world.table.rows.filter (isPruned doneCutoff failedCutoff)
    some (deleted.length,
      { world with
        table := world.table.deleteWhere (isPruned doneCutoff failedCutoff)
        history := deleted.map .pruned ++ world.history })

def observe : (request : Call Body) → Answer Body request → World → World
  | .deliver message, outcome, world =>
    { world with
      history := .delivered message.id outcome.isOk :: world.history }
  | _, _, world => world

def outboxMachine (Body : Type) : Machine (outboxSignature Body) World where
  exec := exec
  observe := observe

abbrev Program (Body α : Type) := Prog (outboxSignature Body) α

abbrev perform (request : Call Body) : Program Body (Answer Body request) :=
  Prog.perform (S := outboxSignature Body) request

section Programs

variable (codec : JsonCodec Body)

/-- Producer: append one message, and return the row id.  A body that has no
JSON text makes the call throw before it writes. -/
def enqueue (topic : String) (payload : Body) (opts : EnqueueOptions) :
    Program Body (Except String String) := do
  let now : Int ← perform .now
  let id ← match opts.id with
    | some id => pure id
    | none => perform (.ulid now)
  match codec.stringify payload with
  | .error message => pure (.error message)
  | .ok text =>
    perform (.insertOrIgnore
      { id, topic, payload := text, status := .pending, attempts := 0
        nextAttemptAt := now, createdAt := now, lastError := none })
    pure (.ok id)

/-- `await db.prepare(update).run()`: D1 may reject the statement, which then
has no effect. -/
def runUpdate (update : Program Body Unit) :
    Program Body (Except String Unit) := do
  match ← perform .writeRow with
  | .error rejected => pure (.error rejected)
  | .ok () =>
    update
    pure (.ok ())

/-- The `try` block of one row: decode, deliver, mark done. -/
def deliverRow (row : OutboxRow) (attempts : Nat) : Program Body (Except String Unit) :=
  match codec.parse row.payload with
  | .error message => pure (.error message)
  | .ok payload => do
    match ← perform (.deliver { id := row.id, topic := row.topic, payload, attempts }) with
    | .error message => pure (.error message)
    | .ok () => runUpdate (perform (.setDone row.id attempts))

/-- The `catch` block of one row; the answer says whether the row was retried.
An error in here ends the whole drain. -/
def recordFailure (opts : DrainOptions) (now : Int) (row : OutboxRow)
    (attempts : Nat) (message : String) : Program Body (Except String Bool) :=
  if attempts ≥ opts.maxAttempts.getD defaultMaxAttempts then do
    let written ← runUpdate (perform (.setFailed row.id attempts message))
    pure (written.map fun _ => false)
  else
    match backoffMs attempts opts.toBackoffOptions with
    | none => pure (.error "Invalid time value")
    | some delay => do
      let written ← runUpdate
        (perform (.reschedule row.id attempts (now + delay) message))
      pure (written.map fun _ => true)

/-- The loop over the claimed rows. -/
def drainRows (opts : DrainOptions) (now : Int) :
    List OutboxRow → DrainResult → Program Body (Except String DrainResult)
  | [], out => pure (.ok out)
  | row :: rows, out => do
    let attempts := row.attempts + 1
    match ← deliverRow codec row attempts with
    | .ok () =>
      drainRows opts now rows { out with delivered := out.delivered + 1 }
    | .error message =>
      match ← recordFailure opts now row attempts message with
      | .error thrown => pure (.error thrown)
      | .ok true =>
        drainRows opts now rows { out with retried := out.retried + 1 }
      | .ok false =>
        drainRows opts now rows { out with failed := out.failed + 1 }

def drain (opts : DrainOptions) :
    Program Body (Except String DrainResult) := do
  let now : Int ← perform .now
  let rows ← perform (.selectDue now (opts.batchSize.getD defaultBatch))
  drainRows codec opts now rows
    { claimed := rows.length, delivered := 0, retried := 0, failed := 0 }

/-- Retention job: delete finished rows older than their window, and return how
many. -/
def pruneOutbox (opts : PruneOptions) : Program Body Nat := do
  let now : Int ← perform .now
  perform (.deleteTerminal (now - opts.doneRetentionMs.getD defaultDoneRetentionMs)
    (now - opts.failedRetentionMs.getD defaultFailedRetentionMs))

/-- The operations that run against an outbox. -/
inductive Operation (Body : Type) where
  | enqueue (topic : String) (payload : Body) (opts : EnqueueOptions)
  | drain (opts : DrainOptions)
  | prune (opts : PruneOptions)

def Operation.program : Operation Body → Program Body Unit
  | .enqueue topic payload opts => do
    let _ ← Freeq.enqueue codec topic payload opts
    pure ()
  | .drain opts => do
    let _ ← Freeq.drain codec opts
    pure ()
  | .prune opts => do
    let _ ← pruneOutbox opts
    pure ()

end Programs

def Operation.isDrain : Operation Body → Bool
  | .drain _ => true
  | _ => false

end DubEcosystem.Freeq
