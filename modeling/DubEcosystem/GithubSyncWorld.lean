import DubEcosystem.GithubSyncEngine
import DubEcosystem.TaskServiceHandlers
import DubEcosystem.SequentialPrograms

/-!
# github-sync: the stores and the task client

The tables of `store/d1.ts` with the keys of `schema.sql`, and the task client of
`clients/task.ts` over the handlers of task-service.  A request to task-service is one
call: it runs to its end before anybody else moves.
-/

namespace DubEcosystem.GithubSync

open Interleaving PortPrograms SequentialPrograms
open TaskService (Statement statementMachine EventRef)

/-- What the services ask of others. -/
structure Surroundings where
  clock : String
  /-- What the next drawn id is. -/
  drawn : String
  orgId : String
  userIdByGithubLogin : String → Option String
  userExists : String → Bool
  getEvent : String → Option EventRef

abbrev RepoTable := KeyedTable fun repo : GithubRepoConfig => (repo.owner, repo.repo)

/-- `UNIQUE (repo_id, issue_number)`. -/
abbrev LinkTable := KeyedTable fun link : LinkRecord => (link.repoId, link.issueNumber)

/-- A task that an import has created, with the issue that it stands for.  Nothing reads
it but the statements. -/
structure ImportedTask where
  repoId : String
  issueNumber : Nat
  taskId : String

structure World where
  repos : RepoTable
  links : LinkTable
  tasks : TaskService.World String
  processed : List String
  imported : List ImportedTask
  around : Surroundings

/-- The columns that `LinkStore.update` writes. -/
def LinkPatch.apply (patch : LinkPatch) (link : LinkRecord) : LinkRecord :=
  { link with
    syncState := patch.syncState.getD link.syncState
    lastSyncedAt := patch.lastSyncedAt <|> link.lastSyncedAt
    lastGithubUpdatedAt := patch.lastGithubUpdatedAt <|> link.lastGithubUpdatedAt
    lastTaskVersion := patch.lastTaskVersion <|> link.lastTaskVersion
    lastError := patch.lastError.getD link.lastError
    updatedAt := patch.updatedAt.getD link.updatedAt }

namespace World

variable (world : World)

def getRepo (id : String) : Option GithubRepoConfig :=
  world.repos.rows.find? fun repo => repo.id = id

def getByOwnerRepo (owner repo : String) : Option GithubRepoConfig :=
  world.repos.find? (owner, repo)

def getByIssue (repoId : String) (issueNumber : Nat) :
    Option LinkRecord :=
  world.links.find? (repoId, issueNumber)

def getByTaskId (taskId : String) : Option LinkRecord :=
  world.links.rows.find? fun link => link.taskId = taskId

def updateLink (id : String) (patch : LinkPatch) : World :=
  { world with
    links := world.links.update (fun link => link.id = id) patch.apply fun _ => rfl }

/-- What a violated key of the database throws. -/
def constraintFailed : Thrown :=
  .other "UNIQUE constraint failed"

/-- `id` is the primary key, and `task_id` is unique as well. -/
def createLink (link : LinkRecord) : Except Thrown Unit × World :=
  if world.links.rows.any fun row => row.id = link.id ∨ row.taskId = link.taskId then
    (.error constraintFailed, world)
  else
    match world.links.insert? link with
    | none => (.error constraintFailed, world)
    | some links => (.ok (), { world with links })

end World

section TaskClient

/-- `retryableForCode`. -/
def retryableForCode (code : String) : Bool :=
  code ∈ ["UPSTREAM_UNAVAILABLE", "UPSTREAM_TIMEOUT", "RATE_LIMITED"]

def fromResponse (error : TaskService.DubError String) : Thrown :=
  .dub error.code error.message error.status (retryableForCode error.code)

/-- Calls of the engine carry no user. -/
def sysCtx (around : Surroundings) (requestId : String) : TaskService.RequestContext :=
  ⟨requestId, .service "github-sync", around.orgId⟩

open TaskService (JsonField)

/-- `JSON.stringify` of a value that may be null. -/
def JsonField.ofNullable (value : Option String) : JsonField String :=
  match value with
  | none => .null
  | some text => .value text

/-- `JSON.stringify` of a key that may be left out. -/
def JsonField.ofOptional {α : Type} (value : Option α) : JsonField α :=
  match value with
  | none => .undefined
  | some content => .value content

def CreateTaskRequest.body (req : CreateTaskRequest) : TaskService.CreateTaskRequest where
  eventId := .value req.eventId
  title := .value req.title
  description := JsonField.ofOptional req.description
  priority := .undefined
  assigneeId := JsonField.ofOptional req.assigneeId
  teamId := .undefined
  startAt := .undefined
  dueAt := .undefined
  origin := .value req.origin
  parentTaskId := .undefined
  wbs := .undefined

def UpdateTaskRequest.body (req : UpdateTaskRequest) : TaskService.UpdateTaskRequest where
  version := some req.version
  title := .value req.title
  description := JsonField.ofNullable req.description
  status := JsonField.ofOptional req.status
  assigneeId := JsonField.ofOptional req.assigneeId

/-- What task-service asks of others, besides its store. -/
def Surroundings.answer (around : Surroundings) : (statement : Statement) → statement.Answer
  | .nowIso => around.clock
  | .newId => around.drawn
  | .getEvent eventId => around.getEvent eventId
  | .userExists userId => around.userExists userId
  | .getById _ _ => none
  | .liveChildrenTeams _ => []
  | .listLiveTasksByEvent _ => []
  | .listDependenciesByEvent _ => []
  | .getDependsOn _ => []
  | .insert _ => none
  | .update _ _ _ _ => false
  | .archive _ _ => false
  | .bumpVersion _ _ _ => false
  | .replaceEdges _ _ _ => ()
  | .emit _ _ _ => ()
  | .record _ => ()
  | .respond _ => ()

def World.handle (world : World) (handler : TaskService.Handler TaskService.Outcome) :
    TaskService.Outcome × TaskService.World String :=
  run statementMachine world.around.answer handler world.tasks

/-- What the client makes of a response that is no task. -/
def unrecognized : Thrown :=
  .dub "UPSTREAM_UNAVAILABLE" "Upstream returned an unrecognized error body" 502 true

def taskOf : TaskService.Outcome → Except Thrown Task
  | .ok (.task task) => .ok task
  | .ok (.created task) => .ok task
  | .ok _ => .error unrecognized
  | .error error => .error (fromResponse error)

namespace World

variable (world : World)

/-- `GET /tasks/:id`. -/
def getTask (taskId : String) : Except Thrown Task :=
  match world.tasks.getById taskId false with
  | none => .error (fromResponse (.notFound taskId))
  | some task => .ok task

/-- `POST /tasks`. -/
def createTask (repoId : String) (issueNumber : Nat)
    (requestId : String) (req : CreateTaskRequest) : Except Thrown Task × World :=
  let handled := world.handle
    (TaskService.createTask (sysCtx world.around requestId) (some req.body))
  match taskOf handled.1 with
  | .error thrown => (.error thrown, { world with tasks := handled.2 })
  | .ok task =>
    (.ok task,
      { world with
        tasks := handled.2
        imported := ⟨repoId, issueNumber, task.id⟩ :: world.imported })

/-- `PATCH /tasks/:id`. -/
def updateTask (requestId taskId : String) (req : UpdateTaskRequest) : Except Thrown Task × World :=
  let handled := world.handle
    (TaskService.updateTask (sysCtx world.around requestId) taskId (some req.body))
  (taskOf handled.1, { world with tasks := handled.2 })

end World

end TaskClient

/-- The calls that the stores, task-service and identity-roster answer; GitHub and the
publisher answer anything. -/
def Call.exec : (request : Call) → World → Option (Except Thrown (Result request) × World)
  | .getRepo id, world => some (.ok (world.getRepo id), world)
  | .getByOwnerRepo owner repo, world => some (.ok (world.getByOwnerRepo owner repo), world)
  | .getByIssue repoId issueNumber, world =>
    some (.ok (world.getByIssue repoId issueNumber), world)
  | .getByTaskId taskId, world => some (.ok (world.getByTaskId taskId), world)
  | .createLink link, world => some (world.createLink link)
  | .updateLink id patch, world => some (.ok (), world.updateLink id patch)
  | .getIssue _ _ _, _ => none
  | .updateIssue _, _ => none
  | .addComment _ _ _ _, _ => none
  | .listIssues _ _ _, _ => none
  | .getTask _ taskId, world => some (world.getTask taskId, world)
  | .createTask repoId issueNumber requestId req, world =>
    some (world.createTask repoId issueNumber requestId req)
  | .updateTask _ requestId taskId req, world =>
    some (world.updateTask requestId taskId req)
  | .githubLoginOf _ _, _ => none
  | .userIdByGithubLogin _ login, world =>
    some (.ok (world.around.userIdByGithubLogin login), world)
  | .linkCreated _ _ _, _ => none
  | .conflictDetected _ _, _ => none
  | .newId _, world => some (.ok world.around.drawn, world)
  | .now, world => some (.ok world.around.clock, world)
  | .wasProcessed envelopeId, world =>
    some (.ok (envelopeId ∈ world.processed), world)
  | .markProcessed envelopeId, world =>
    some (.ok (), { world with processed := envelopeId :: world.processed })
  | .getRaw _, _ => none

def syncMachine : Machine (enginePorts.signature Thrown) World where
  exec := Call.exec
  observe _ _ world := world

end DubEcosystem.GithubSync
