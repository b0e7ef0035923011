import DubEcosystem.TaskServiceRepo

/-!
# task-service: requests

The handlers `PUT /tasks/:id/dependencies`, `DELETE /tasks/:id` and
`POST /internal/events-async` of `app.ts`, after the policy gate.
-/

namespace DubEcosystem.TaskService

open Interleaving
open GanttCalc (distinct GanttCalcDependency validateDependencies)
open scoped GanttCalc

def VALIDATION_FAILED : String := "VALIDATION_FAILED"

def TASK_NOT_FOUND : String := "TASK_NOT_FOUND"

def TASK_VERSION_CONFLICT : String := "TASK_VERSION_CONFLICT"

def TASK_DEPENDENCY_CYCLE : String := "TASK_DEPENDENCY_CYCLE"

structure FieldError where
  field : String
  reason : String
  message : Option String := none

inductive ErrorDetails (Id : Type) where
  | fields (details : List FieldError)
  | cycles (cycles : List (List Id))
  | event (eventId : String)
  | transition (source target : TaskStatus)
  | readonlyFields (names : List String)
  | teams (parentTeamId childTeamId : Option String)

structure DubError (Id : Type) where
  code : String
  message : String
  status : Nat
  details : Option (ErrorDetails Id) := none

inductive Principal where
  | user (userId : String)
  | service (caller : String)

def actorIdOf : Principal → String
  | .user userId => userId
  | .service caller => "service:" ++ caller

structure RequestContext where
  requestId : String
  principal : Principal
  orgId : String

/-- The fields of the JSON body that the handler looks at: `version` if it is a
number, `dependsOnIds` if it is an array, an element of it if it is a string. -/
structure ReplaceDependenciesRequest (Id : Type) where
  version : Option ℚ
  dependsOnIds : Option (List (Option Id))

/-- An event for the task lane; only `event.archived` has a handler. -/
inductive DubEventEnvelope where
  | eventArchived (id eventId : String)
  | other (id name : String)

def DubEventEnvelope.id : DubEventEnvelope → String
  | .eventArchived id _ => id
  | .other id _ => id

inductive Response (Id : Type) where
  | task (task : Task Id)
  | created (task : Task Id)
  | dependencies (taskId : Id) (dependsOnIds : List Id)
  | archived (task : Option (Task Id))
  | accepted

variable {Id : Type} [LinearOrder Id] [ToString Id]

def DubError.validationFailed (details : List FieldError) : DubError Id where
  code := VALIDATION_FAILED
  message := "Validation failed"
  status := 400
  details := some (.fields details)

variable (id : Id)

def DubError.notFound : DubError Id where
  code := TASK_NOT_FOUND
  message := "Task not found: " ++ toString id
  status := 404

def DubError.versionConflict : DubError Id where
  code := TASK_VERSION_CONFLICT
  message := "Version conflict (stale version)"
  status := 409

def DubError.dependencyCycle (cycles : List (List Id)) : DubError Id where
  code := TASK_DEPENDENCY_CYCLE
  message := "Dependency cycle detected"
  status := 409
  details := some (.cycles cycles)

/-- What the handler reads off the body before it asks the store. -/
def parseReplaceDependencies (body : Option (ReplaceDependenciesRequest Id)) :
    Except (DubError Id) (ℚ × List Id) :=
  match body with
  | none => .error (.validationFailed [{ field := "body", reason := "invalid_json" }])
  | some body =>
    match body.version with
    | none => .error (.validationFailed [{ field := "version", reason := "required" }])
    | some version =>
      match body.dependsOnIds.bind fun ids => ids.mapM fun id => id with
      | none =>
        .error (.validationFailed [{ field := "dependsOnIds", reason := "invalid_type" }])
      | some ids =>
        if id ∈ ids then
          .error (.validationFailed [{ field := "dependsOnIds", reason := "self_dependency" }])
        else .ok (version, distinct ids)

def crossTeamIds (bucketTasks : List (LiveTask Id)) (currentTeam : Option String)
    (dependsOnIds : List Id) : List Id :=
  dependsOnIds.filter fun dep =>
    (bucketTasks.reverse.find? fun task => task.id = dep).any fun task =>
      task.teamId ≠ currentTeam

def otherEdges (liveIds : List Id) (edges : List (TaskDependency Id)) : List (TaskDependency Id) :=
  edges.filter fun e => e.taskId ≠ id ∧ e.taskId ∈ liveIds ∧ e.dependsOnId ∈ liveIds

/-- The other edges together with the requested ones. -/
def requestedGraph (others : List (TaskDependency Id))
    (dependsOnIds : List Id) : List (GanttCalcDependency Id) :=
  (others ++ dependsOnIds.map (TaskDependency.mk id)).map fun e =>
    { taskId := e.taskId, dependsOnId := e.dependsOnId }

/-- The verdict of `validateDependencies`, as an answer of this service. -/
def checkDependencies (liveIds : List Id)
    (dependencies : List (GanttCalcDependency Id)) : Except (DubError Id) Unit :=
  let verdict := validateDependencies liveIds dependencies
  if 0 < verdict.unknownTaskIds.length then
    .error (.validationFailed (verdict.unknownTaskIds.map fun dep =>
      { field := "dependsOnIds", reason := "unknown_task_ref"
        message := some ("unknown, cross-event, or archived task: " ++ toString dep) }))
  else if 0 < verdict.cycles.length then .error (.dependencyCycle verdict.cycles)
  else .ok ()

/-- `current.eventId ? { eventId: current.eventId } : {}`. -/
def linkedEvent (current : Task Id) : Option String :=
  current.eventId.filter fun eventId => eventId ≠ ""

variable (ctx : RequestContext)

/-- The write, and what is published about it. -/
def writeDependencies (id : Id) (current : Task Id)
    (read : List (TaskDependency Id)) (dependsOnIds : List Id) (version : ℚ) :
    Program Id (Except (DubError Id) (Response Id)) := do
  let now : String ← perform .nowIso
  let result : ReplaceResult Id ←
    perform (.replaceDependencies read id dependsOnIds version now)
  if result.ok then do
    let actorId := actorIdOf ctx.principal
    perform (.emit ctx.requestId actorId
      [.dependencyChanged id (linkedEvent current) result.added result.removed])
    let occurredAt : String ← perform .nowIso
    perform (.record
      { action := "task.dependency.replaced", actorId, orgId := ctx.orgId
        resourceId := id
        details := .replaced current.eventId result.added result.removed
        requestId := ctx.requestId, occurredAt })
    pure (.ok (.dependencies id dependsOnIds))
  else pure (.error .versionConflict)

def replaceInBucket (id : Id) (current : Task Id) (dependsOnIds : List Id) (version : ℚ) :
    Program Id (Except (DubError Id) (Response Id)) := do
  let bucketTasks : List (LiveTask Id) ← perform (.listLiveTasksByEvent current.eventId)
  let liveIds := bucketTasks.map LiveTask.id
  let crossTeam := crossTeamIds bucketTasks current.teamId dependsOnIds
  if 0 < crossTeam.length then
    pure (.error (.validationFailed (crossTeam.map fun dep =>
      { field := "dependsOnIds", reason := "cross_team_not_allowed"
        message := some ("cross-team dependency not allowed: " ++ toString dep) })))
  else do
    let edges : List (TaskDependency Id) ←
      perform (.listDependenciesByEvent current.eventId)
    let others := otherEdges id liveIds edges
    match checkDependencies liveIds (requestedGraph id others dependsOnIds) with
    | .error thrown => pure (.error thrown)
    | .ok () => writeDependencies ctx id current others dependsOnIds version

/-- `PUT /tasks/:id/dependencies`. -/
def putDependencies (id : Id) (body : Option (ReplaceDependenciesRequest Id)) :
    Program Id (Except (DubError Id) (Response Id)) :=
  match parseReplaceDependencies id body with
  | .error thrown => pure (.error thrown)
  | .ok (version, dependsOnIds) => do
    match ← perform (.getById id false) with
    | none => pure (.error (.notFound id))
    | some current =>
      if version ≠ current.version then pure (.error .versionConflict)
      else replaceInBucket ctx id current dependsOnIds version

/-- `DELETE /tasks/:id`. -/
def archiveTask (id : Id) :
    Program Id (Except (DubError Id) (Response Id)) := do
  match ← perform (.getById id false) with
  | none => pure (.error (.notFound id))
  | some current => do
    let now : String ← perform .nowIso
    let archived : Bool ← perform (.archive id now)
    if archived then do
      let actorId := actorIdOf ctx.principal
      perform (.emit ctx.requestId actorId [.archived id (linkedEvent current)])
      let occurredAt : String ← perform .nowIso
      perform (.record
        { action := "task.task.archived", actorId, orgId := ctx.orgId
          resourceId := id, details := .event current.eventId
          requestId := ctx.requestId, occurredAt })
      let task : Option (Task Id) ← perform (.getById id true)
      pure (.ok (.archived task))
    else pure (.error (.notFound id))

def archiveByEvent (eventId now : String) : Program Id (List Id) := do
  let live : List Id ← perform (.liveIdsOfEvent eventId)
  if live.length = 0 then pure []
  else do
    perform (.archiveLiveOfEvent eventId now)
    pure live

def eventHandler : DubEventEnvelope → Program Id Unit
  | .eventArchived _ eventId => do
    let now : String ← perform .nowIso
    let _ : List Id ← archiveByEvent eventId now
    pure ()
  | .other _ _ => pure ()

def dispatchEvent (envelope : DubEventEnvelope) : Program Id Unit := do
  let processed : Bool ← perform (.wasProcessed envelope.id)
  if processed then pure ()
  else do
    eventHandler envelope
    perform (.markProcessed envelope.id)

/-- `POST /internal/events-async`; `none` is a body without a name or an id. -/
def eventsAsync (body : Option DubEventEnvelope) :
    Program Id (Except (DubError Id) (Response Id)) :=
  match body with
  | none =>
    pure (.error (.validationFailed [{ field := "body", reason := "invalid_envelope" }]))
  | some envelope => do
    dispatchEvent envelope
    pure (.ok .accepted)

inductive Operation (Id : Type) where
  | putDependencies (ctx : RequestContext) (id : Id) (body : Option (ReplaceDependenciesRequest Id))
  | archiveTask (ctx : RequestContext) (id : Id)
  | eventsAsync (body : Option DubEventEnvelope)

/-- Run a request for its effects. -/
def discard {α : Type} (program : Program Id α) : Program Id Unit := do
  let _ ← program
  pure ()

def Operation.program : Operation Id → Program Id Unit
  | .putDependencies ctx id body => discard (TaskService.putDependencies ctx id body)
  | .archiveTask ctx id => discard (TaskService.archiveTask ctx id)
  | .eventsAsync body => discard (TaskService.eventsAsync body)

/-- Any number of requests over one store. -/
def taskService (Id : Type) [LinearOrder Id] [ToString Id] :
    System (taskSignature Id) (World Id) (Operation Id) where
  toMachine := taskMachine Id
  program := Operation.program
  startable _ _ := True
  environment _ _ := False

end DubEcosystem.TaskService
