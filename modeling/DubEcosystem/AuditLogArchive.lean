import DubEcosystem.InterleavingBystanders
import DubEcosystem.KeyedTable
import Mathlib.Data.String.Basic

/-!
# audit-log: the records and their archive

`insertRecord` of `repo.ts` appends to D1, and `archiveOldRecords` of `archive.ts` moves what is
older than the retention window to one R2 object for each month.  Every statement and every put
is a call of its own, and a run may die before any of them.
-/

namespace DubEcosystem.AuditLog

open Interleaving Function

inductive AuditResult where
  | success
  | failure
  | denied
  | intent
  deriving DecidableEq

/-- `details` is its JSON text. -/
structure AuditRecordInput where
  action : String
  actorId : Option String
  orgId : String
  result : AuditResult
  resourceType : Option String
  resourceId : Option String
  requestId : String
  occurredAt : String
  details : Option String

/-- A row of `audit_logs`. -/
structure AuditRow where
  id : String
  action : String
  actorId : Option String
  orgId : String
  result : AuditResult
  resourceType : Option String
  resourceId : Option String
  requestId : String
  occurredAt : String
  recordedAt : String
  detailsJson : Option String

structure AuditRecord where
  id : String
  action : String
  actorId : Option String
  orgId : String
  result : AuditResult
  resourceType : Option String
  resourceId : Option String
  requestId : String
  occurredAt : String
  recordedAt : String
  details : Option String
  deriving DecidableEq

def rowToRecord (r : AuditRow) : AuditRecord where
  id := r.id
  action := r.action
  actorId := r.actorId
  orgId := r.orgId
  result := r.result
  resourceType := r.resourceType
  resourceId := r.resourceId
  requestId := r.requestId
  occurredAt := r.occurredAt
  recordedAt := r.recordedAt
  details := r.detailsJson.filter fun json => json ≠ ""

/-- The row that `insertRecord` writes. -/
def rowOf (id : String) (input : AuditRecordInput) (recordedAt : String) : AuditRow where
  id := id
  action := input.action
  actorId := input.actorId
  orgId := input.orgId
  result := input.result
  resourceType := input.resourceType
  resourceId := input.resourceId
  requestId := input.requestId
  occurredAt := input.occurredAt
  recordedAt := recordedAt
  detailsJson := input.details

/-- `Date.parse`, `toISOString`, and an instant some months earlier by `setUTCMonth`. -/
structure Host where
  parseDate : String → Option Int
  toISOString : Int → String
  monthsBefore : Nat → Int → Int

variable (host : Host)

def RETENTION_MONTHS : Nat := 3

def ARCHIVE_PREFIX : String := "audit-archive"

def retentionCutoffIso (now : Int) : String :=
  host.toISOString (host.monthsBefore RETENTION_MONTHS now)

/-- `occurredAt.slice(0, 7)`. -/
def monthKey (occurredAt : String) : String :=
  String.ofList (occurredAt.toList.take 7)

def objectKey (month : String) : String :=
  ARCHIVE_PREFIX ++ "/" ++ month ++ ".ndjson"

variable (records : List AuditRecord)

def byMonth (month : String) : List AuditRecord :=
  records.filter fun r => monthKey r.occurredAt = month

def monthsOf : List String :=
  (records.map fun r => monthKey r.occurredAt).dedup.mergeSort fun first second => first ≤ second

structure ArchiveSummary where
  cutoff : String
  archived : Nat
  months : List String

/-- D1 and its clock, and R2, where an object is the list of its lines.  `inserted` is for the
statements only: every record that an insert has written. -/
structure World where
  rows : KeyedTable AuditRow.id
  objects : String → Option (List AuditRecord)
  clock : Int
  inserted : List AuditRecord

namespace World

def empty (clock : Int) : World :=
  ⟨.empty, fun _ => none, clock, []⟩

variable (world : World)

/-- `INSERT OR IGNORE`. -/
def insert (row : AuditRow) : World :=
  match world.rows.insert? row with
  | none => world
  | some rows => { world with rows, inserted := rowToRecord row :: world.inserted }

/-- `SELECT * FROM audit_logs WHERE occurred_at < ? ORDER BY occurred_at ASC`. -/
def selectBefore (cutoffIso : String) : List AuditRecord :=
  ((world.rows.rows.filter fun row => row.occurredAt < cutoffIso).mergeSort
    fun first second => first.occurredAt ≤ second.occurredAt).map rowToRecord

def put (key : String) (lines : List AuditRecord) : World :=
  { world with objects := update world.objects key (some lines) }

theorem objects_put_self (key : String) (lines : List AuditRecord) :
    (world.put key lines).objects key = some lines :=
  update_self ..

theorem objects_put_of_ne {key other : String} (lines : List AuditRecord)
    (apart : other ≠ key) : (world.put key lines).objects other = world.objects other :=
  update_of_ne apart ..

/-- The `audit_logs_no_delete` trigger: one row inside the window rejects the statement. -/
def noDelete (cutoffIso : String) : Bool :=
  world.rows.selects fun row =>
    row.occurredAt < cutoffIso ∧ retentionCutoffIso host world.clock ≤ row.occurredAt

/-- `DELETE FROM audit_logs WHERE occurred_at < ?`; `none` where it is rejected. -/
def deleteBefore (cutoffIso : String) : Option Nat × World :=
  if world.noDelete host cutoffIso then (none, world)
  else
    (some (world.rows.rows.countP fun row => row.occurredAt < cutoffIso),
      { world with rows := world.rows.deleteWhere fun row => row.occurredAt < cutoffIso })

end World

/-- The atomic calls.  `now` and `selected` of a delete are for the statements only: the instant
of the run, and what it has selected. -/
inductive Call where
  | nowIso
  | insert (row : AuditRow)
  | selectBefore (cutoffIso : String)
  | put (key : String) (lines : List AuditRecord)
  | deleteBefore (now : Int) (selected : List AuditRecord) (cutoffIso : String)

abbrev Answer : Call → Type
  | .nowIso => String
  | .insert _ => Unit
  | .selectBefore _ => List AuditRecord
  | .put _ _ => Unit
  | .deleteBefore _ _ _ => Option Nat

abbrev calls : Signature where
  Call := Call
  Answer := Answer

def exec : (request : Call) → World → Option (Answer request × World)
  | .nowIso, _ => none
  | .insert row, world => some ((), world.insert row)
  | .selectBefore cutoffIso, world => some (world.selectBefore cutoffIso, world)
  | .put key lines, world => some ((), world.put key lines)
  | .deleteBefore _ _ cutoffIso, world => some (world.deleteBefore host cutoffIso)

abbrev Program (α : Type) := Prog calls α

abbrev perform (request : Call) : Program (Answer request) :=
  Prog.perform (S := calls) request

def insertRecord (id : String) (input : AuditRecordInput) : Program String := do
  let recordedAt : String ← perform .nowIso
  perform (.insert (rowOf id input recordedAt))
  pure id

def putMonths (records : List AuditRecord) : List String → Program Unit
  | [] => pure ()
  | m :: months => do
    perform (.put (objectKey m) (byMonth records m))
    putMonths records months

/-- `none` where the delete throws. -/
def archiveOldRecords (now : Int) : Program (Option ArchiveSummary) := do
  let cutoff := retentionCutoffIso host now
  let records : List AuditRecord ← perform (.selectBefore cutoff)
  if records.length = 0 then pure (some ⟨cutoff, 0, []⟩)
  else do
    let months := monthsOf records
    putMonths records months
    let deleted : Option Nat ← perform (.deleteBefore now records cutoff)
    pure (deleted.map fun archived => ⟨cutoff, archived, months⟩)

inductive Operation where
  | insertRecord (id : String) (input : AuditRecordInput)
  | archiveOldRecords (now : Int)

def Operation.program : Operation → Program Unit
  | .insertRecord id input => do
    let _ ← AuditLog.insertRecord id input
    pure ()
  | .archiveOldRecords now => do
    let _ ← AuditLog.archiveOldRecords host now
    pure ()

/-- Inserts and runs of the archive over one store, while the clock goes on. -/
def auditLog : System calls World Operation where
  exec := exec host
  observe _ _ world := world
  program := Operation.program host
  startable _ _ := True
  environment world moved := ∃ clock, moved = { world with clock }

def World.Keeps (world : World) (record : AuditRecord) : Prop :=
  (∃ row ∈ world.rows, rowToRecord row = record) ∨
    ∃ lines, world.objects (objectKey (monthKey record.occurredAt)) = some lines ∧ record ∈ lines

def InWindow (now : Int) (row : AuditRow) : Prop :=
  ∃ time, host.parseDate row.occurredAt = some time ∧ host.monthsBefore RETENTION_MONTHS now ≤ time

/-- In every run that meets the condition, whether runs of the archive die and are repeated or
not, the records that are kept are at every moment those that were inserted; and no delete takes
a row that is inside the retention window of its run. -/
def KeepsRecords (condition : Host → RunCondition calls World Operation) (host : Host) : Prop :=
  ∀ clock config, (auditLog host).ReachableUnder (condition host) (.empty clock) config →
    (∀ record, config.world.Keeps record ↔ record ∈ config.world.inserted) ∧
    ∀ now selected cutoffIso deleted after,
      (auditLog host).CallUnder (condition host) (.deleteBefore now selected cutoffIso) deleted
        config after →
      ∀ row ∈ config.world.rows, row ∉ after.world.rows → ¬InWindow host now row

end DubEcosystem.AuditLog
