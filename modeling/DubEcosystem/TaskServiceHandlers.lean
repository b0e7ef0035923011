import DubEcosystem.TaskServiceStatements

/-!
# task-service: the handlers that write tasks

`POST /tasks`, `PATCH /tasks/:id`, `DELETE /tasks/:id` and
`PUT /tasks/:id/dependencies` of `app.ts`, after the policy gate, over the statements
of the store.
-/

namespace DubEcosystem.TaskService

open Interleaving
open GanttCalc (distinct)

namespace DubError

def eventNotFound (eventId : String) : DubError String where
  code := "TASK_EVENT_NOT_FOUND"
  message := "Event not found: " ++ eventId
  status := 404
  details := some (.event eventId)

def eventArchived (eventId : String) : DubError String where
  code := "TASK_EVENT_ARCHIVED"
  message := "Event is archived: " ++ eventId
  status := 422
  details := some (.event eventId)

def statusText : TaskStatus → String
  | .todo => "todo"
  | .in_progress => "in_progress"
  | .blocked => "blocked"
  | .done => "done"
  | .cancelled => "cancelled"

def invalidStatusTransition (source target : TaskStatus) : DubError String where
  code := "TASK_INVALID_STATUS_TRANSITION"
  message := "Invalid status transition: " ++ statusText source ++ " -> " ++ statusText target
  status := 409
  details := some (.transition source target)

def githubOriginReadonly (names : List String) : DubError String where
  code := "TASK_GITHUB_ORIGIN_READONLY"
  message := "origin=github task: protected fields are read-only"
  status := 422
  details := some (.readonlyFields names)

def parentChildTeamMismatch (parentTeamId childTeamId : Option String) : DubError String where
  code := "TASK_PARENT_CHILD_TEAM_MISMATCH"
  message := "A child task must belong to the same team as its parent"
  status := 422
  details := some (.teams parentTeamId childTeamId)

/-- What a thrown error of the database becomes. -/
def internal : DubError String where
  code := "INTERNAL"
  message := "Internal error"
  status := 500

end DubError

/-- What a handler answers. -/
abbrev Outcome := Except (DubError String) (Response String)

/-- A check of a handler. -/
abbrev Verdict := Except (DubError String) Unit

/-- Nothing is published when there is nothing to send. -/
def emitSpecs (ctx : RequestContext) (specs : List (EventSpec String)) : Handler Unit :=
  if specs.length = 0 then pure ()
  else issue (.emit ctx.requestId (actorIdOf ctx.principal) specs)

def auditRecord (ctx : RequestContext) (action id : String) (details : AuditDetails String)
    (occurredAt : String) : AuditRecordInput String where
  action := action
  actorId := actorIdOf ctx.principal
  orgId := ctx.orgId
  resourceId := id
  details := details
  requestId := ctx.requestId
  occurredAt := occurredAt

/-- `body.field !== undefined && body.field !== current.field`. -/
def differs {α : Type} [DecidableEq α] (given : Option α) (current : α) : Bool :=
  given.any fun value => value ≠ current

def blockedFields (current : Task String) (patch : TaskPatch) : List String :=
  let violated :=
    (if differs patch.title current.title then ["title"] else []) ++
      (if differs patch.description current.description then ["description"] else []) ++
      (if differs patch.status current.status then ["status"] else []) ++
      (if differs patch.priority current.priority then ["priority"] else []) ++
      (if differs patch.assigneeId current.assigneeId then ["assigneeId"] else []) ++
      if differs patch.dueAt current.dueAt then ["dueAt"] else []
  violated.filter fun name => name ∈ PROTECTED_ORIGIN_FIELDS

def checkOrigin (principal : Principal) (current : Task String) (patch : TaskPatch) :
    Verdict :=
  if current.origin = .github ∧ ¬isServiceRole principal then
    let blocked := blockedFields current patch
    if 0 < blocked.length then .error (.githubOriginReadonly blocked) else .ok ()
  else .ok ()

def assertStatusTransition (source target : TaskStatus) : Verdict :=
  if source = target then .ok ()
  else if target ∈ TASK_STATUS_TRANSITIONS source then .ok ()
  else .error (.invalidStatusTransition source target)

def checkStatusChange (current : Task String) (patch : TaskPatch) : Verdict :=
  match patch.status with
  | none => .ok ()
  | some status =>
    if status ≠ current.status then assertStatusTransition current.status status
    else .ok ()

def checkAssignee (given : Option String) : Handler Verdict :=
  match given.filter fun userId => userId ≠ "" with
  | none => pure (.ok ())
  | some userId => do
    let found : Bool ← issue (.userExists userId)
    if found then pure (.ok ())
    else
      pure (.error (.validationFailed [{ field := "assigneeId", reason := "not_found" }]))

/-- A task and its live parent are of one team; the empty text is no parent. -/
def checkParent (team parentId : Option String) : Handler Verdict :=
  match parentId.filter fun parent => parent ≠ "" with
  | none => pure (.ok ())
  | some parentId => do
    let found : Option (Task String) ← issue (.getById parentId false)
    match found with
    | none => pure (.ok ())
    | some parent =>
      if parent.teamId ≠ team then
        pure (.error (.parentChildTeamMismatch parent.teamId team))
      else pure (.ok ())

def checkChildren (id : String) (team : Option String) : Handler Verdict := do
  let childTeams : List (Option String) ← issue (.liveChildrenTeams id)
  match childTeams.find? fun childTeam => childTeam ≠ team with
  | some mismatch => pure (.error (.parentChildTeamMismatch team mismatch))
  | none => pure (.ok ())

def checkTeams (id : String) (current : Task String) (patch : TaskPatch) :
    Handler Verdict :=
  if patch.teamId.isSome ∨ patch.parentId.isSome then do
    let nextTeam := patch.teamId.getD current.teamId
    let verdict : Verdict ←
      checkParent nextTeam (patch.parentId.getD current.parentTaskId)
    match verdict with
    | .error thrown => pure (.error thrown)
    | .ok () =>
      if patch.teamId.isSome then checkChildren id nextTeam else pure (.ok ())
  else pure (.ok ())

/-- The event of a new task must be live. -/
def checkEvent (eventId : Option String) : Handler Verdict :=
  match eventId.filter fun eventId => eventId ≠ "" with
  | none => pure (.ok ())
  | some eventId => do
    let found : Option EventRef ← issue (.getEvent eventId)
    match found with
    | none => pure (.error (.eventNotFound eventId))
    | some ref =>
      if (ref.archivedAt.filter fun archivedAt => archivedAt ≠ "").isSome then
        pure (.error (.eventArchived eventId))
      else pure (.ok ())

/-- `(isServiceRole(principal) ? body.origin : undefined) ?? "internal"`; absent if the
column rejects it. -/
def originOf (principal : Principal) (origin : JsonField TaskOrigin) : Option TaskOrigin :=
  if isServiceRole principal then
    match origin with
    | .undefined => some .internal
    | .null => some .internal
    | .value origin => some origin
    | .other => none
  else some .internal

def createdSpecs (id : String) (eventId : Option String) (created : Task String) :
    List (EventSpec String) :=
  let event := eventId.filter fun eventId => eventId ≠ ""
  .created id event :: if (created.assigneeId.filter fun userId => userId ≠ "").isSome then
      [.assigned id event created.assigneeId]
    else []

/-- The insert, and what is published about it. -/
def insertTask (ctx : RequestContext) (body : CreateTaskRequest) (title : String) :
    Handler Outcome := do
  let now : String ← issue .nowIso
  let id : String ← issue .newId
  let eventId := body.eventId.given
  let inserted : Option (Task String) ← issue (.insert
    { id, eventId, title, description := body.description.given, status := .todo
      priority := body.priority.given.getD .medium, assigneeId := body.assigneeId.given
      teamId := body.teamId.given, parentId := body.parentTaskId.given
      wbs := body.wbs.given, startAt := body.startAt.given, dueAt := body.dueAt.given
      origin := originOf ctx.principal body.origin
      createdBy := actorIdOf ctx.principal, now })
  match inserted with
  | none => pure (.error .internal)
  | some created => do
    emitSpecs ctx (createdSpecs id eventId created)
    pure (.ok (.created created))

/-- `POST /tasks`; `none` is a body that is not JSON. -/
def createTask (ctx : RequestContext) (body : Option CreateTaskRequest) :
    Handler Outcome :=
  match body with
  | none =>
    pure (.error (.validationFailed [{ field := "body", reason := "invalid_json" }]))
  | some body =>
    let fieldErrors := checkCreateTask ctx.principal body
    if 0 < fieldErrors.length then pure (.error (.validationFailed fieldErrors))
    else do
      let verdict : Verdict ← checkEvent body.eventId.given
      match verdict with
      | .error thrown => pure (.error thrown)
      | .ok () => do
        let verdict : Verdict ← checkAssignee body.assigneeId.given
        match verdict with
        | .error thrown => pure (.error thrown)
        | .ok () => do
          let verdict : Verdict ←
            checkParent body.teamId.given body.parentTaskId.given
          match verdict with
          | .error thrown => pure (.error thrown)
          | .ok () => insertTask ctx body (body.title.given.getD "")

/-- What the handler reads off the body before it asks the store. -/
def parseUpdateTask (body : Option UpdateTaskRequest) : Except (DubError String) (ℚ × TaskPatch) :=
  match body with
  | none => .error (.validationFailed [{ field := "body", reason := "invalid_json" }])
  | some body =>
    match body.version with
    | none => .error (.validationFailed [{ field := "version", reason := "required" }])
    | some version =>
      let fieldErrors := checkUpdateTask body
      if 0 < fieldErrors.length then .error (.validationFailed fieldErrors)
      else .ok (version, patchOf body)

/-- The checks on the row as read. -/
def checkPatch (principal : Principal) (current : Task String) (patch : TaskPatch) :
    Verdict :=
  match checkOrigin principal current patch with
  | .error thrown => .error thrown
  | .ok () => checkStatusChange current patch

def changedNames (current updated : Task String) (patch : TaskPatch) : List String :=
  (if patch.title.isSome ∧ current.title ≠ updated.title then ["title"] else []) ++
    (if patch.description.isSome ∧ current.description ≠ updated.description then
      ["description"] else []) ++
    (if patch.priority.isSome ∧ current.priority ≠ updated.priority then
      ["priority"] else []) ++
    (if patch.startAt.isSome ∧ current.startAt ≠ updated.startAt then
      ["startAt"] else []) ++
    if patch.dueAt.isSome ∧ current.dueAt ≠ updated.dueAt then ["dueAt"] else []

def updatedSpecs (id : String) (current updated : Task String) (patch : TaskPatch) :
    List (EventSpec String) :=
  let event := linkedEvent current
  let changed := changedNames current updated patch
  (if 0 < changed.length then [.updated id event changed] else []) ++
    (if differs patch.status current.status then
      [.statusChanged id event current.status updated.status] else []) ++
    if differs patch.assigneeId current.assigneeId then
      [.assigned id event updated.assigneeId] else []

def writeTask (ctx : RequestContext) (id : String) (current : Task String)
    (patch : TaskPatch) (version : ℚ) : Handler Outcome :=
  if patch.isEmpty then pure (.ok (.task current))
  else do
    let now : String ← issue .nowIso
    let landed : Bool ← issue (.update id patch version now)
    if landed then do
      let found : Option (Task String) ← issue (.getById id false)
      match found with
      | none => pure (.error (.notFound id))
      | some updated => do
        emitSpecs ctx (updatedSpecs id current updated patch)
        pure (.ok (.task updated))
    else pure (.error .versionConflict)

def updateCurrent (ctx : RequestContext) (id : String) (current : Task String)
    (patch : TaskPatch) (version : ℚ) : Handler Outcome := do
  let assignee :=
    if differs patch.assigneeId current.assigneeId then patch.assigneeId.getD none
    else none
  let verdict : Verdict ← checkAssignee assignee
  match verdict with
  | .error thrown => pure (.error thrown)
  | .ok () => do
    let verdict : Verdict ← checkTeams id current patch
    match verdict with
    | .error thrown => pure (.error thrown)
    | .ok () => writeTask ctx id current patch version

/-- `PATCH /tasks/:id`. -/
def updateTask (ctx : RequestContext) (id : String) (body : Option UpdateTaskRequest) :
    Handler Outcome :=
  match parseUpdateTask body with
  | .error thrown => pure (.error thrown)
  | .ok (version, patch) => do
    let found : Option (Task String) ← issue (.getById id false)
    match found with
    | none => pure (.error (.notFound id))
    | some current =>
      if version ≠ current.version then pure (.error .versionConflict)
      else
        match checkPatch ctx.principal current patch with
        | .error thrown => pure (.error thrown)
        | .ok () => updateCurrent ctx id current patch version

/-- `DELETE /tasks/:id`. -/
def deleteTask (ctx : RequestContext) (id : String) : Handler Outcome := do
  let found : Option (Task String) ← issue (.getById id false)
  match found with
  | none => pure (.error (.notFound id))
  | some current => do
    let now : String ← issue .nowIso
    let archived : Bool ← issue (.archive id now)
    if archived then do
      emitSpecs ctx [.archived id (linkedEvent current)]
      let occurredAt : String ← issue .nowIso
      issue (.record (auditRecord ctx "task.task.archived" id (.event current.eventId) occurredAt))
      let task : Option (Task String) ← issue (.getById id true)
      pure (.ok (.archived task))
    else pure (.error (.notFound id))

/-- `replaceDependencies` of the repository, write by write. -/
def replaceDependencies (taskId : String) (dependsOnIds : List String)
    (expectedVersion : ℚ) (now : String) : Handler (ReplaceResult String) := do
  let existing : List String ← issue (.getDependsOn taskId)
  let prev := distinct existing
  let next := distinct dependsOnIds
  let landed : Bool ← issue (.bumpVersion taskId expectedVersion now)
  if landed then do
    issue (.replaceEdges taskId dependsOnIds now)
    pure ⟨true, next.filter fun dep => dep ∉ prev, prev.filter fun dep => dep ∉ next⟩
  else pure ⟨false, [], []⟩

/-- The write, and what is published about it. -/
def writeEdges (ctx : RequestContext) (id : String) (current : Task String)
    (dependsOnIds : List String) (version : ℚ) : Handler Outcome := do
  let now : String ← issue .nowIso
  let result : ReplaceResult String ← replaceDependencies id dependsOnIds version now
  if result.ok then do
    emitSpecs ctx [.dependencyChanged id (linkedEvent current) result.added result.removed]
    let occurredAt : String ← issue .nowIso
    issue (.record (auditRecord ctx "task.dependency.replaced" id
      (.replaced current.eventId result.added result.removed) occurredAt))
    pure (.ok (.dependencies id dependsOnIds))
  else pure (.error .versionConflict)

def checkBucket (id : String) (current : Task String) (dependsOnIds : List String) :
    Handler Verdict := do
  let bucketTasks : List (LiveTask String) ← issue (.listLiveTasksByEvent current.eventId)
  let liveIds := bucketTasks.map LiveTask.id
  let crossTeam := crossTeamIds bucketTasks current.teamId dependsOnIds
  if 0 < crossTeam.length then
    pure (.error (.validationFailed (crossTeam.map fun dep =>
      { field := "dependsOnIds", reason := "cross_team_not_allowed"
        message := some ("cross-team dependency not allowed: " ++ dep) })))
  else do
    let edges : List (TaskDependency String) ←
      issue (.listDependenciesByEvent current.eventId)
    pure (checkDependencies liveIds (requestedGraph id (otherEdges id liveIds edges) dependsOnIds))

/-- `PUT /tasks/:id/dependencies`. -/
def putEdges (ctx : RequestContext) (id : String)
    (body : Option (ReplaceDependenciesRequest String)) : Handler Outcome :=
  match parseReplaceDependencies id body with
  | .error thrown => pure (.error thrown)
  | .ok (version, dependsOnIds) => do
    let found : Option (Task String) ← issue (.getById id false)
    match found with
    | none => pure (.error (.notFound id))
    | some current =>
      if version ≠ current.version then pure (.error .versionConflict)
      else do
        let verdict : Verdict ← checkBucket id current dependsOnIds
        match verdict with
        | .error thrown => pure (.error thrown)
        | .ok () => writeEdges ctx id current dependsOnIds version

inductive Request where
  | createTask (ctx : RequestContext) (body : Option CreateTaskRequest)
  | updateTask (ctx : RequestContext) (id : String) (body : Option UpdateTaskRequest)
  | deleteTask (ctx : RequestContext) (id : String)
  | putEdges (ctx : RequestContext) (id : String)
      (body : Option (ReplaceDependenciesRequest String))

def Request.handler : Request → Handler Outcome
  | .createTask ctx body => TaskService.createTask ctx body
  | .updateTask ctx id body => TaskService.updateTask ctx id body
  | .deleteTask ctx id => TaskService.deleteTask ctx id
  | .putEdges ctx id body => TaskService.putEdges ctx id body

def Request.ctx : Request → RequestContext
  | .createTask ctx _ => ctx
  | .updateTask ctx _ _ => ctx
  | .deleteTask ctx _ => ctx
  | .putEdges ctx _ _ => ctx

/-- Handle the request, then answer the client. -/
def Request.program (request : Request) : Handler Unit :=
  request.handler >>= fun outcome => issue (.respond outcome)

end DubEcosystem.TaskService
