import DubEcosystem.TaskServiceApp
import DubEcosystem.IdentityRosterTypes
import DubEcosystem.InterleavingHistories

/-!
# task-service: the statements of the store, one by one

Requests to create and to change a task, with the checks of `validate.ts`, and the
store as the handlers meet it: each read and each write is a call of its own.  Replacing
the dependencies is two writes, the versioned one on the task and the batch on the
edges.
-/

namespace DubEcosystem.TaskService

open Interleaving
open IdentityRoster (jsLength)

inductive JsonField (α : Type) where
  | undefined
  | null
  | value (value : α)
  /-- Of another type, or not one of the values. -/
  | other

namespace JsonField

variable {α : Type}

def isUndefined : JsonField α → Bool
  | undefined => true
  | _ => false

/-- What a checked field says that cannot be null. -/
def given : JsonField α → Option α
  | value content => some content
  | _ => none

def nullable : JsonField α → Option (Option α)
  | null => some none
  | value content => some (some content)
  | _ => none

end JsonField

def TASK_STATUS_TRANSITIONS : TaskStatus → List TaskStatus
  | .todo => [.in_progress, .blocked, .done, .cancelled]
  | .in_progress => [.todo, .blocked, .done, .cancelled]
  | .blocked => [.todo, .in_progress, .cancelled]
  | .done => [.in_progress]
  | .cancelled => [.todo]

def PROTECTED_ORIGIN_FIELDS : List String :=
  ["title", "description", "status", "priority", "assigneeId", "dueAt"]

/-- The rest of a text after a shape in which `d` stands for a digit. -/
def afterShape : List Char → List Char → Option (List Char)
  | [], rest => some rest
  | _ :: _, [] => none
  | 'd' :: shape, c :: rest => if c.isDigit then afterShape shape rest else none
  | expected :: shape, c :: rest => if c = expected then afterShape shape rest else none

/-- `(?:\.\d+)?`. -/
def afterFraction : List Char → List Char
  | '.' :: c :: rest => if c.isDigit then rest.dropWhile Char.isDigit else '.' :: c :: rest
  | rest => rest

/-- `(?:Z|[+-]\d{2}:\d{2})$`. -/
def isZone : List Char → Bool
  | ['Z'] => true
  | '+' :: rest => afterShape "dd:dd".toList rest = some []
  | '-' :: rest => afterShape "dd:dd".toList rest = some []
  | _ => false

/-- `ISO_RE.test(text)`. -/
def isIso (text : String) : Bool :=
  (afterShape "dddd-dd-ddTdd:dd:dd".toList text.toList).any fun rest =>
    isZone (afterFraction rest)

def checkTitle : JsonField String → List FieldError
  | .value title =>
    if jsLength title < 1 ∨ 200 < jsLength title then
      [{ field := "title", reason := "too_long"
         message := some "title must be 1..200 chars" }]
    else []
  | .undefined =>
    [{ field := "title", reason := "required"
       message := some "title must be 1..200 chars" }]
  | _ =>
    [{ field := "title", reason := "too_long"
       message := some "title must be 1..200 chars" }]

variable (name : String)

def checkIso : JsonField String → List FieldError
  | .null => []
  | .undefined => []
  | .value text =>
    if isIso text then []
    else
      [{ field := name, reason := "invalid_format"
         message := some (name ++ " must be ISO8601 UTC") }]
  | .other =>
    [{ field := name, reason := "invalid_format"
       message := some (name ++ " must be ISO8601 UTC") }]

/-- A text that may be absent or null. -/
def checkOptString : JsonField String → List FieldError
  | .other => [{ field := name, reason := "invalid_type" }]
  | _ => []

/-- A text that may be absent. -/
def checkString : JsonField String → List FieldError
  | .null => [{ field := name, reason := "invalid_type" }]
  | .other => [{ field := name, reason := "invalid_type" }]
  | _ => []

/-- One of the values of an enumeration, or absent. -/
def checkEnum {α : Type} : JsonField α → List FieldError
  | .null => [{ field := name, reason := "invalid_enum" }]
  | .other => [{ field := name, reason := "invalid_enum" }]
  | _ => []

def checkPriority : JsonField TaskPriority → List FieldError :=
  checkEnum "priority"

def checkStatusValue : JsonField TaskStatus → List FieldError :=
  checkEnum "status"

def isServiceRole : Principal → Bool
  | .service _ => true
  | .user _ => false

structure CreateTaskRequest where
  eventId : JsonField String
  title : JsonField String
  description : JsonField String
  priority : JsonField TaskPriority
  assigneeId : JsonField String
  teamId : JsonField String
  startAt : JsonField String
  dueAt : JsonField String
  origin : JsonField TaskOrigin
  parentTaskId : JsonField String
  wbs : JsonField String

/-- `version` if it is a number. -/
structure UpdateTaskRequest where
  version : Option ℚ
  title : JsonField String := .undefined
  description : JsonField String := .undefined
  status : JsonField TaskStatus := .undefined
  priority : JsonField TaskPriority := .undefined
  assigneeId : JsonField String := .undefined
  teamId : JsonField String := .undefined
  startAt : JsonField String := .undefined
  dueAt : JsonField String := .undefined
  parentTaskId : JsonField String := .undefined
  wbs : JsonField String := .undefined

/-- Only the given columns are written; a given `none` clears. -/
structure TaskPatch where
  title : Option String
  description : Option (Option String)
  status : Option TaskStatus
  priority : Option TaskPriority
  assigneeId : Option (Option String)
  teamId : Option (Option String)
  parentId : Option (Option String)
  wbs : Option (Option String)
  startAt : Option (Option String)
  dueAt : Option (Option String)
  deriving DecidableEq

/-- `Object.keys(patch).length === 0`. -/
def TaskPatch.isEmpty (patch : TaskPatch) : Bool :=
  patch = ⟨none, none, none, none, none, none, none, none, none, none⟩

/-- `origin` is absent where the column's check rejects the value. -/
structure InsertTaskInput where
  id : String
  eventId : Option String
  title : String
  description : Option String
  status : TaskStatus
  priority : TaskPriority
  assigneeId : Option String
  teamId : Option String
  parentId : Option String
  wbs : Option String
  startAt : Option String
  dueAt : Option String
  origin : Option TaskOrigin
  createdBy : String
  now : String

structure EventRef where
  archivedAt : Option String

def checkCreateTask (principal : Principal) (body : CreateTaskRequest) :
    List FieldError :=
  checkTitle body.title ++ checkOptString "description" body.description ++
    checkPriority body.priority ++ checkIso "startAt" body.startAt ++
    checkIso "dueAt" body.dueAt ++ checkString "assigneeId" body.assigneeId ++
    checkOptString "teamId" body.teamId ++
    checkOptString "parentTaskId" body.parentTaskId ++ checkOptString "wbs" body.wbs ++
    checkOptString "eventId" body.eventId ++
    if ¬body.origin.isUndefined ∧ ¬isServiceRole principal then
      [{ field := "origin", reason := "not_allowed"
         message := some "origin is service-role only" }]
    else []

variable (body : UpdateTaskRequest)

def checkUpdateTask : List FieldError :=
  (if body.title.isUndefined then [] else checkTitle body.title) ++
    checkOptString "description" body.description ++ checkPriority body.priority ++
    checkStatusValue body.status ++ checkIso "startAt" body.startAt ++
    checkIso "dueAt" body.dueAt ++ checkOptString "assigneeId" body.assigneeId ++
    checkOptString "teamId" body.teamId ++
    checkOptString "parentTaskId" body.parentTaskId ++ checkOptString "wbs" body.wbs

/-- The columns that a checked body gives. -/
def patchOf : TaskPatch where
  title := body.title.given
  description := body.description.nullable
  status := body.status.given
  priority := body.priority.given
  assigneeId := body.assigneeId.nullable
  teamId := body.teamId.nullable
  parentId := body.parentTaskId.nullable
  wbs := body.wbs.nullable
  startAt := body.startAt.nullable
  dueAt := body.dueAt.nullable

/-- Write the given columns of one row. -/
def TaskPatch.apply (patch : TaskPatch) (now : String) (row : TaskRow String) :
    TaskRow String :=
  { row with
    title := patch.title.getD row.title
    description := patch.description.getD row.description
    status := patch.status.getD row.status
    priority := patch.priority.getD row.priority
    assigneeId := patch.assigneeId.getD row.assigneeId
    teamId := patch.teamId.getD row.teamId
    parentTaskId := patch.parentId.getD row.parentTaskId
    wbs := patch.wbs.getD row.wbs
    startAt := patch.startAt.getD row.startAt
    dueAt := patch.dueAt.getD row.dueAt
    updatedAt := now
    version := row.version + 1 }

def InsertTaskInput.row (input : InsertTaskInput) (origin : TaskOrigin) : TaskRow String where
  id := input.id
  eventId := input.eventId
  title := input.title
  description := input.description
  status := input.status
  priority := input.priority
  assigneeId := input.assigneeId
  teamId := input.teamId
  parentTaskId := input.parentId
  wbs := input.wbs
  createdBy := input.createdBy
  startAt := input.startAt
  dueAt := input.dueAt
  origin := origin
  version := 1
  archivedAt := none
  createdAt := input.now
  updatedAt := input.now
  dueSoonNotifiedAt := none

namespace World

variable (world : World String)

/-- The insert and its readback; `none` where the insert throws. -/
def insert (input : InsertTaskInput) : Option (Task String) × World String :=
  match input.origin with
  | none => (none, world)
  | some origin =>
    match world.tasks.insert? (input.row origin) with
    | none => (none, world)
    | some tasks => (some (input.row origin).toTask, { world with tasks })

def update (id : String) (patch : TaskPatch)
    (expectedVersion : ℚ) (now : String) : Bool × World String :=
  (world.tasks.selects (isAtVersion id expectedVersion),
    { world with
      tasks := world.tasks.update (isAtVersion id expectedVersion) (patch.apply now)
        fun _ => rfl })

/-- The versioned write on the task of `replaceDependencies`. -/
def bumpVersion (id : String) (expectedVersion : ℚ) (now : String) : Bool × World String :=
  (world.tasks.selects (isAtVersion id expectedVersion),
    { world with
      tasks := world.tasks.update (isAtVersion id expectedVersion)
        (fun row => { row with version := row.version + 1, updatedAt := now })
        fun _ => rfl })

/-- `SELECT DISTINCT team_id ... WHERE parent_id = ? AND archived_at IS NULL`. -/
def liveChildrenTeams (parentId : String) : List (Option String) :=
  ((world.tasks.rows.filter fun row => row.parentTaskId = some parentId ∧ row.isLive).map
    fun row => row.teamId).dedup

end World

/-- The calls of the handlers.  `respond` is the answer to the client. -/
inductive Statement where
  | nowIso
  | newId
  | getEvent (eventId : String)
  | userExists (userId : String)
  | getById (id : String) (includeArchived : Bool)
  | liveChildrenTeams (parentId : String)
  | listLiveTasksByEvent (eventId : Option String)
  | listDependenciesByEvent (eventId : Option String)
  | getDependsOn (taskId : String)
  | insert (input : InsertTaskInput)
  | update (id : String) (patch : TaskPatch) (expectedVersion : ℚ) (now : String)
  | archive (id : String) (now : String)
  | bumpVersion (id : String) (expectedVersion : ℚ) (now : String)
  | replaceEdges (taskId : String) (dependsOnIds : List String) (now : String)
  | emit (requestId actorId : String) (specs : List (EventSpec String))
  | record (input : AuditRecordInput String)
  | respond (outcome : Except (DubError String) (Response String))

abbrev Statement.Answer : Statement → Type
  | .nowIso => String
  | .newId => String
  | .getEvent _ => Option EventRef
  | .userExists _ => Bool
  | .getById _ _ => Option (Task String)
  | .liveChildrenTeams _ => List (Option String)
  | .listLiveTasksByEvent _ => List (LiveTask String)
  | .listDependenciesByEvent _ => List (TaskDependency String)
  | .getDependsOn _ => List String
  | .insert _ => Option (Task String)
  | .update _ _ _ _ => Bool
  | .archive _ _ => Bool
  | .bumpVersion _ _ _ => Bool
  | .replaceEdges _ _ _ => Unit
  | .emit _ _ _ => Unit
  | .record _ => Unit
  | .respond _ => Unit

abbrev statements : Signature where
  Call := Statement
  Answer := Statement.Answer

def Statement.exec : (request : Statement) → World String → Option (request.Answer × World String)
  | .nowIso, _ => none
  | .newId, _ => none
  | .getEvent _, _ => none
  | .userExists _, _ => none
  | .getById id includeArchived, world => some (world.getById id includeArchived, world)
  | .liveChildrenTeams parentId, world => some (world.liveChildrenTeams parentId, world)
  | .listLiveTasksByEvent eventId, world =>
    some (world.listLiveTasksByEvent eventId, world)
  | .listDependenciesByEvent eventId, world =>
    some (world.listDependenciesByEvent eventId, world)
  | .getDependsOn taskId, world => some (world.getDependsOn taskId, world)
  | .insert input, world => some (world.insert input)
  | .update id patch expectedVersion now, world =>
    some (world.update id patch expectedVersion now)
  | .archive id now, world => some (world.archive id now)
  | .bumpVersion id expectedVersion now, world =>
    some (world.bumpVersion id expectedVersion now)
  | .replaceEdges taskId dependsOnIds now, world =>
    some ((), { world with
      dependencies := TaskService.replaceEdges world.dependencies taskId dependsOnIds
        now })
  | .emit _ _ _, _ => none
  | .record _, _ => none
  | .respond _, _ => none

def statementMachine : Machine statements (World String) where
  exec := Statement.exec
  observe _ _ world := world

abbrev Handler (α : Type) := Prog statements α

abbrev issue (request : Statement) : Handler request.Answer :=
  Prog.perform (S := statements) request

end DubEcosystem.TaskService
