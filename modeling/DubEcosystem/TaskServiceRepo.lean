import DubEcosystem.Interleaving
import DubEcosystem.KeyedTable
import DubEcosystem.GanttCalcGraph

/-!
# task-service: the task store

The tables `task_tasks`, `task_dependencies` and `task_idempotency` of `repo.ts`
and `idempotency.ts`, and the atomic calls that requests make.  A write of the
repository is one call, with what it reads first.
-/

namespace DubEcosystem.TaskService

open Interleaving KeyedTable
open GanttCalc (distinct)
open scoped GanttCalc

inductive TaskStatus where
  | todo
  | in_progress
  | blocked
  | done
  | cancelled
  deriving DecidableEq

inductive TaskPriority where
  | low
  | medium
  | high
  | urgent
  deriving DecidableEq

inductive TaskOrigin where
  | internal
  | github
  deriving DecidableEq

structure Task (Id : Type) where
  id : Id
  eventId : Option String
  title : String
  description : Option String
  status : TaskStatus
  priority : TaskPriority
  assigneeId : Option String
  teamId : Option String
  parentTaskId : Option Id
  wbs : Option String
  createdBy : String
  startAt : Option String
  dueAt : Option String
  origin : TaskOrigin
  version : Nat
  archivedAt : Option String
  createdAt : String
  updatedAt : String
  deriving DecidableEq

/-- A row of `task_tasks`; a task shows all of it but the due-soon mark. -/
structure TaskRow (Id : Type) extends Task Id where
  dueSoonNotifiedAt : Option String
  deriving DecidableEq

/-- `taskId` depends on `dependsOnId`. -/
structure TaskDependency (Id : Type) where
  taskId : Id
  dependsOnId : Id
  deriving DecidableEq

structure DependencyRow (Id : Type) extends TaskDependency Id where
  createdAt : String

/-- The members of a bucket, as `listLiveTasksByEvent` returns them. -/
structure LiveTask (Id : Type) where
  id : Id
  teamId : Option String

structure ReplaceResult (Id : Type) where
  ok : Bool
  added : List Id
  removed : List Id

inductive EventSpec (Id : Type) where
  | created (taskId : Id) (eventId : Option String)
  | updated (taskId : Id) (eventId : Option String) (changed : List String)
  | statusChanged (taskId : Id) (eventId : Option String) (previousStatus status : TaskStatus)
  | assigned (taskId : Id) (eventId assigneeId : Option String)
  | dependencyChanged (taskId : Id) (eventId : Option String) (added removed : List Id)
  | archived (taskId : Id) (eventId : Option String)

inductive AuditDetails (Id : Type) where
  | event (eventId : Option String)
  | replaced (eventId : Option String) (added removed : List Id)

structure AuditRecordInput (Id : Type) where
  action : String
  actorId : String
  orgId : String
  result : String := "success"
  resourceType : String := "task"
  resourceId : Id
  details : AuditDetails Id
  requestId : String
  occurredAt : String

abbrev TaskTable (Id : Type) := KeyedTable fun row : TaskRow Id => row.id

/-- Its primary key is the whole edge. -/
abbrev DependencyTable (Id : Type) :=
  KeyedTable fun row : DependencyRow Id => row.toTaskDependency

structure World (Id : Type) where
  tasks : TaskTable Id
  dependencies : DependencyTable Id
  processed : List String

variable {Id : Type} [LinearOrder Id]

def TaskRow.isLive (row : TaskRow Id) : Bool :=
  row.archivedAt = none

variable (world : World Id)

def World.getById (id : Id) (includeArchived : Bool) : Option (Task Id) :=
  ((world.tasks.find? id).filter fun row => includeArchived || row.isLive).map TaskRow.toTask

def World.listLiveTasksByEvent (eventId : Option String) : List (LiveTask Id) :=
  (world.tasks.rows.filter fun row => row.eventId = eventId ∧ row.isLive).map
    fun row => ⟨row.id, row.teamId⟩

def World.listDependenciesByEvent (eventId : Option String) : List (TaskDependency Id) :=
  (world.dependencies.rows.filter fun row =>
    (world.tasks.find? row.taskId).any fun task => task.eventId = eventId).map
    DependencyRow.toTaskDependency

def World.getDependsOn (taskId : Id) : List Id :=
  (world.dependencies.rows.filter fun row => row.taskId = taskId).map fun row => row.dependsOnId

/-- `WHERE id = ? AND version = ? AND archived_at IS NULL`. -/
def isAtVersion (id : Id) (version : ℚ) (row : TaskRow Id) : Bool :=
  row.id = id ∧ (row.version : ℚ) = version ∧ row.isLive

/-- The batch: delete the edges of the task, insert the new ones.  After the
deletion no insert meets its own key. -/
def replaceEdges (table : DependencyTable Id) (taskId : Id) (dependsOnIds : List Id)
    (now : String) : DependencyTable Id :=
  (distinct dependsOnIds).foldl (fun table dep => table.insertOrIgnore ⟨⟨taskId, dep⟩, now⟩)
    (table.deleteWhere fun row => row.taskId = taskId)

def World.replaceDependencies (taskId : Id)
    (dependsOnIds : List Id) (expectedVersion : ℚ) (now : String) :
    ReplaceResult Id × World Id :=
  let prev := distinct (world.getDependsOn taskId)
  let next := distinct dependsOnIds
  let added := next.filter fun dep => dep ∉ prev
  let removed := prev.filter fun dep => dep ∉ next
  if world.tasks.selects (isAtVersion taskId expectedVersion) then
    (⟨true, added, removed⟩,
      { world with
        tasks := world.tasks.update (isAtVersion taskId expectedVersion)
          (fun row => { row with version := row.version + 1, updatedAt := now })
          fun _ => rfl
        dependencies := replaceEdges world.dependencies taskId dependsOnIds now })
  else (⟨false, [], []⟩, world)

/-- `UPDATE task_tasks SET archived_at = now ... WHERE selected`. -/
def World.archiveWhere (selected : TaskRow Id → Bool) (now : String) : World Id :=
  { world with
    tasks := world.tasks.update selected
      (fun row => { row with
        archivedAt := some now, updatedAt := now, version := row.version + 1 })
      fun _ => rfl }

def World.archive (id : Id) (now : String) : Bool × World Id :=
  let selected : TaskRow Id → Bool := fun row => row.id = id ∧ row.isLive
  (world.tasks.selects selected, world.archiveWhere selected now)

/-- The atomic calls.  `read` is for the statements only: the edges of the other
live tasks of the bucket, as the request has read them.  The store does not look
at it. -/
inductive Call (Id : Type) where
  | nowIso
  | getById (id : Id) (includeArchived : Bool)
  | listLiveTasksByEvent (eventId : Option String)
  | listDependenciesByEvent (eventId : Option String)
  | replaceDependencies (read : List (TaskDependency Id)) (taskId : Id)
      (dependsOnIds : List Id) (expectedVersion : ℚ) (now : String)
  | archive (id : Id) (now : String)
  | liveIdsOfEvent (eventId : String)
  | archiveLiveOfEvent (eventId now : String)
  | wasProcessed (envelopeId : String)
  | markProcessed (envelopeId : String)
  | emit (requestId actorId : String) (specs : List (EventSpec Id))
  | record (input : AuditRecordInput Id)

abbrev Answer : Call Id → Type
  | .nowIso => String
  | .getById _ _ => Option (Task Id)
  | .listLiveTasksByEvent _ => List (LiveTask Id)
  | .listDependenciesByEvent _ => List (TaskDependency Id)
  | .replaceDependencies _ _ _ _ _ => ReplaceResult Id
  | .archive _ _ => Bool
  | .liveIdsOfEvent _ => List Id
  | .archiveLiveOfEvent _ _ => Unit
  | .wasProcessed _ => Bool
  | .markProcessed _ => Unit
  | .emit _ _ _ => Unit
  | .record _ => Unit

abbrev taskSignature (Id : Type) : Signature where
  Call := Call Id
  Answer := Answer

def exec : (request : Call Id) → World Id → Option (Answer request × World Id)
  | .nowIso, _ => none
  | .getById id includeArchived, world =>
    some (world.getById id includeArchived, world)
  | .listLiveTasksByEvent eventId, world =>
    some (world.listLiveTasksByEvent eventId, world)
  | .listDependenciesByEvent eventId, world =>
    some (world.listDependenciesByEvent eventId, world)
  | .replaceDependencies _ taskId dependsOnIds expectedVersion now, world =>
    some (world.replaceDependencies taskId dependsOnIds expectedVersion now)
  | .archive id now, world => some (world.archive id now)
  | .liveIdsOfEvent eventId, world =>
    some ((world.listLiveTasksByEvent (some eventId)).map LiveTask.id, world)
  | .archiveLiveOfEvent eventId now, world =>
    some ((), world.archiveWhere (fun row => row.eventId = some eventId ∧ row.isLive) now)
  | .wasProcessed envelopeId, world =>
    some (decide (envelopeId ∈ world.processed), world)
  | .markProcessed envelopeId, world =>
    some ((), { world with processed := world.processed.insert envelopeId })
  | .emit _ _ _, _ => none
  | .record _, _ => none

def taskMachine (Id : Type) [LinearOrder Id] : Machine (taskSignature Id) (World Id) where
  exec := exec
  observe _ _ world := world

abbrev Program (Id α : Type) := Prog (taskSignature Id) α

abbrev perform (request : Call Id) : Program Id (Answer request) :=
  Prog.perform (S := taskSignature Id) request

/-- `id` is a live task of the bucket. -/
def World.LiveIn (bucket : Option String) (id : Id) : Prop :=
  ∃ row ∈ world.tasks, row.id = id ∧ row.eventId = bucket ∧ row.isLive

/-- An edge of the store leads from `u` to `v`, both live tasks of the bucket. -/
def World.BucketEdge (bucket : Option String) (u v : Id) : Prop :=
  (∃ row ∈ world.dependencies, row.toTaskDependency = ⟨v, u⟩) ∧
    world.LiveIn bucket u ∧ world.LiveIn bucket v

theorem getById_of_live {world : World Id} {row : TaskRow Id}
    (member : row ∈ world.tasks) (live : row.isLive) :
    world.getById row.id false = some row.toTask := by
  have found : world.tasks.find? row.id = some row :=
    find?_eq_some.mpr ⟨member, rfl⟩
  simp [World.getById, found, live]

omit [LinearOrder Id] in
/-- Rows that keep their id and their event, and of which none comes back to
life, bring no task into a bucket. -/
theorem World.LiveIn.of_rows {before after : World Id} {bucket : Option String} {id : Id}
    (rows : ∀ row ∈ after.tasks, ∃ old ∈ before.tasks, old.id = row.id ∧
      old.eventId = row.eventId ∧ (row.isLive → old.isLive))
    (live : after.LiveIn bucket id) : before.LiveIn bucket id := by
  obtain ⟨row, member, named, inBucket, isLive⟩ := live
  obtain ⟨old, oldMem, sameId, sameEvent, wasLive⟩ := rows row member
  exact ⟨old, oldMem, sameId.trans named, sameEvent.trans inBucket, wasLive isLive⟩

omit [LinearOrder Id] in
theorem World.LiveIn.of_archiveWhere {world : World Id} {selected : TaskRow Id → Bool}
    {now : String} {bucket : Option String} {id : Id}
    (live : (world.archiveWhere selected now).LiveIn bucket id) :
    world.LiveIn bucket id := by
  refine live.of_rows ?_
  simp only [World.archiveWhere, mem_update]
  rintro row ⟨old, oldMem, rfl⟩
  refine ⟨old, oldMem, ?_⟩
  by_cases chosen : selected old = true
  · simp [chosen, TaskRow.isLive]
  · simp [chosen]

theorem mem_replaceEdges {table : DependencyTable Id} {taskId : Id}
    {dependsOnIds : List Id} {now : String} {row : DependencyRow Id}
    (member : row ∈ replaceEdges table taskId dependsOnIds now) :
    (row ∈ table ∧ row.taskId ≠ taskId) ∨
      (row.taskId = taskId ∧ row.dependsOnId ∈ dependsOnIds) := by
  have inserted : ∀ (ids : List Id) (start : DependencyTable Id),
      row ∈ ids.foldl (fun table dep => table.insertOrIgnore ⟨⟨taskId, dep⟩, now⟩) start →
        row ∈ start ∨ (row.taskId = taskId ∧ row.dependsOnId ∈ ids) := by
    intro ids
    induction ids with
    | nil => exact fun start present => .inl present
    | cons dep rest ih =>
      intro start present
      rcases ih _ present with earlier | ⟨ofTask, later⟩
      · rcases mem_insertOrIgnore.mp earlier with old | ⟨rfl, -⟩
        · exact .inl old
        · exact .inr ⟨rfl, by simp⟩
      · exact .inr ⟨ofTask, by simp [later]⟩
  rcases inserted _ _ member with kept | ⟨ofTask, requested⟩
  · obtain ⟨present, other⟩ := mem_deleteWhere.mp kept
    exact .inl ⟨present, by simpa using other⟩
  · exact .inr ⟨ofTask, by simpa using requested⟩

theorem World.LiveIn.of_replaceDependencies {world : World Id} {taskId : Id}
    {dependsOnIds : List Id} {expectedVersion : ℚ} {now : String}
    {bucket : Option String} {id : Id}
    (live : (world.replaceDependencies taskId dependsOnIds expectedVersion now).2.LiveIn
      bucket id) : world.LiveIn bucket id := by
  unfold World.replaceDependencies at live
  split at live
  · refine live.of_rows ?_
    simp only [mem_update]
    rintro row ⟨old, oldMem, rfl⟩
    refine ⟨old, oldMem, ?_⟩
    by_cases chosen : isAtVersion taskId expectedVersion old = true
    · simp [chosen, TaskRow.isLive]
    · simp [chosen]
  · exact live

end DubEcosystem.TaskService
