import DubEcosystem.PortPrograms
import DubEcosystem.TaskServiceRepo
import Mathlib.Data.String.Basic

/-!
# github-sync: domain and ports

Repository configurations, links, issue snapshots, the field mapping of
`mapping.ts`, the conflict and echo predicates, and the ports of the engine.
`lower` is `String.prototype.toLowerCase`.
-/

namespace DubEcosystem.GithubSync

open PortPrograms
open GanttCalc (distinct)
open TaskService (TaskStatus)

abbrev Task := TaskService.Task String

inductive SyncOrigin where
  | internal
  | github
  deriving DecidableEq

inductive SyncDirection where
  | bidirectional
  | internal_to_github
  | github_to_internal
  deriving DecidableEq

inductive SyncState where
  | in_sync
  | pending
  | conflict
  | error
  deriving DecidableEq

inductive IssueState where
  | «open»
  | closed
  deriving DecidableEq

structure GithubRepoConfig where
  id : String
  owner : String
  repo : String
  eventId : String
  origin : SyncOrigin
  direction : SyncDirection
  enabled : Bool
  labelFilter : List String
  deriving DecidableEq

structure LinkRecord where
  id : String
  taskId : String
  repoId : String
  owner : String
  repo : String
  issueNumber : Nat
  issueNodeId : String
  projectItemId : Option String
  syncState : SyncState
  lastSyncedAt : Option String
  lastGithubUpdatedAt : Option String
  lastTaskVersion : Option Nat
  lastError : Option String
  createdAt : String
  updatedAt : String
  deriving DecidableEq

/-- `Partial<LinkRecord>`, for the columns that the engine writes. -/
structure LinkPatch where
  syncState : Option SyncState := none
  lastSyncedAt : Option String := none
  lastGithubUpdatedAt : Option String := none
  lastTaskVersion : Option Nat := none
  lastError : Option (Option String) := none
  updatedAt : Option String := none

structure IssueSnapshot where
  owner : String
  repo : String
  number : Nat
  nodeId : String
  title : String
  body : Option String
  state : IssueState
  labels : List String
  assignees : List String
  updatedAt : String
  deriving DecidableEq

structure TaskSnapshot where
  id : String
  eventId : Option String
  title : String
  description : Option String
  status : TaskStatus
  assigneeId : Option String
  version : Nat
  updatedAt : String

structure SyncRunStats where
  created : Nat := 0
  updated : Nat := 0
  skipped : Nat := 0
  conflicts : Nat := 0
  failed : Nat := 0

structure ParsedIssueEvent where
  action : String
  senderLogin : Option String
  issue : IssueSnapshot

structure UpdateIssueInput where
  owner : String
  repo : String
  number : Nat
  title : Option String := none
  body : Option (Option String) := none
  state : Option IssueState := none
  labels : Option (List String) := none
  assignees : Option (List String) := none

structure CreateTaskRequest where
  eventId : String
  title : String
  origin : TaskService.TaskOrigin
  description : Option String := none
  assigneeId : Option String := none

/-- The fields of a `PATCH /tasks/:id` that the engine sets. -/
structure UpdateTaskRequest where
  version : Nat
  title : String
  description : Option String
  status : Option TaskStatus := none
  assigneeId : Option String := none

section Mapping

def statusText : TaskStatus → String
  | .todo => "todo"
  | .in_progress => "in_progress"
  | .blocked => "blocked"
  | .done => "done"
  | .cancelled => "cancelled"

def taskStatusOf (text : String) : Option TaskStatus :=
  [.todo, .in_progress, .blocked, .done, .cancelled].find? fun status =>
    statusText status = text

def STATUS_LABEL_PREFIX : String := "status:"

def statusToState : TaskStatus → IssueState
  | .todo => .open
  | .in_progress => .open
  | .blocked => .open
  | .done => .closed
  | .cancelled => .closed

def isPlainStateStatus (status : TaskStatus) : Bool :=
  status = .todo ∨ status = .done

def statusLabel (status : TaskStatus) : Option String :=
  if isPlainStateStatus status then none
  else some (STATUS_LABEL_PREFIX ++ statusText status)

def hasStatusPrefix (label : String) : Bool :=
  STATUS_LABEL_PREFIX.toList.isPrefixOf label.toList

variable (lower : String → String)

def stateToStatus (state : IssueState) (labels : List String) : TaskStatus :=
  let plain := if state = .open then .todo else .done
  match (labels.map lower).find? hasStatusPrefix with
  | none => plain
  | some marker =>
    let raw := String.ofList (marker.toList.drop STATUS_LABEL_PREFIX.length)
    match taskStatusOf raw with
    | none => plain
    | some status => if statusToState status = state then status else plain

def userLabels (labels : List String) : List String :=
  distinct (labels.filter fun label => !hasStatusPrefix (lower label))

def issueLabelsForStatus (status : TaskStatus) (existingIssueLabels : List String) :
    List String :=
  let base := userLabels lower existingIssueLabels
  match statusLabel status with
  | some marker => distinct (base ++ [marker])
  | none => distinct base

structure FieldDiff where
  title : Bool
  description : Bool
  status : Bool

def diffTaskVsIssue (t : TaskSnapshot) (issue : IssueSnapshot) : FieldDiff where
  title := t.title ≠ issue.title
  description := t.description.getD "" ≠ issue.body.getD ""
  status := statusToState t.status ≠ issue.state ∨
    stateToStatus lower issue.state issue.labels ≠ t.status

def hasAnyDiff (d : FieldDiff) : Bool :=
  d.title || d.description || d.status

def matchesLabelFilter (issueLabels filter : List String) : Bool :=
  filter.isEmpty || filter.any fun label => lower label ∈ issueLabels.map lower

end Mapping

def githubMoved (link : LinkRecord) (issueUpdatedAt : String) : Bool :=
  match link.lastGithubUpdatedAt with
  | none => true
  | some last => last < issueUpdatedAt

def taskMoved (link : LinkRecord) (taskVersion : Nat) : Bool :=
  match link.lastTaskVersion with
  | none => true
  | some last => last < taskVersion

def SELF_SERVICE_ACTOR : String := "service:github-sync"

def isSelfCausedEvent (actorId : Option String) : Bool :=
  actorId = some SELF_SERVICE_ACTOR

def isSelfCausedWebhook (lower : String → String) (senderLogin : Option String)
    (selfLogins : List String) : Bool :=
  match senderLogin with
  | none => false
  | some login =>
    login ≠ "" ∧ selfLogins.any fun selfLogin => lower selfLogin = lower login

/-- What a port may throw: a `DubError`, or any other error. -/
inductive Thrown where
  | dub (code message : String) (status : Nat) (retryable : Bool)
  | other (message : String)
  deriving DecidableEq

def isRateLimited : Thrown → Bool
  | .dub code _ status _ =>
    code = "RATE_LIMITED" ∨ code = "GITHUB_RATE_LIMITED" ∨ status = 429
  | .other _ => false

def isRetryable : Thrown → Bool
  | .dub _ _ _ retryable => retryable
  | .other _ => true

def errMsg : Thrown → String
  | .dub _ message _ _ => message
  | .other message => message

def codeOf : Thrown → Option String
  | .dub code _ _ _ => some code
  | .other _ => none

structure RawUser where
  login : Option String

structure RawIssue where
  number : Option Nat
  node_id : Option String
  title : Option String
  body : Option String
  state : Option String
  labels : List (Option String)
  assignees : List (Option String)
  updated_at : Option String

/-- The fields of a webhook body that the parser looks at. -/
structure RawIssuePayload where
  action : Option String
  issue : Option RawIssue
  sender : Option RawUser
  repositoryName : Option String
  repositoryOwner : Option RawUser

/-- A JSON value but `null`. -/
inductive RawPayload where
  | object (payload : RawIssuePayload)
  | other

/-- The calls of the engine and of the queue consumer.  For the statements only, a
task is created for an issue of a repository, and updated from a `source`. -/
inductive Call where
  | getRepo (id : String)
  | getByOwnerRepo (owner repo : String)
  | getByIssue (repoId : String) (issueNumber : Nat)
  | getByTaskId (taskId : String)
  | createLink (link : LinkRecord)
  | updateLink (id : String) (patch : LinkPatch)
  | getIssue (owner repo : String) (number : Nat)
  | updateIssue (input : UpdateIssueInput)
  | addComment (owner repo : String) (number : Nat) (body : String)
  | listIssues (owner repo : String) (sinceIso : Option String)
  | getTask (requestId taskId : String)
  | createTask (repoId : String) (issueNumber : Nat) (requestId : String) (req : CreateTaskRequest)
  | updateTask (source : IssueSnapshot) (requestId taskId : String) (req : UpdateTaskRequest)
  | githubLoginOf (requestId userId : String)
  | userIdByGithubLogin (requestId login : String)
  | linkCreated (requestId taskId repo : String)
  | conflictDetected (requestId taskId : String)
  | newId (kind : String)
  | now
  | wasProcessed (envelopeId : String)
  | markProcessed (envelopeId : String)
  | getRaw (r2Key : String)

abbrev Result : Call → Type
  | .getRepo _ => Option GithubRepoConfig
  | .getByOwnerRepo _ _ => Option GithubRepoConfig
  | .getByIssue _ _ => Option LinkRecord
  | .getByTaskId _ => Option LinkRecord
  | .createLink _ => Unit
  | .updateLink _ _ => Unit
  | .getIssue _ _ _ => Option IssueSnapshot
  | .updateIssue _ => IssueSnapshot
  | .addComment _ _ _ _ => Unit
  | .listIssues _ _ _ => List IssueSnapshot
  | .getTask _ _ => Task
  | .createTask _ _ _ _ => Task
  | .updateTask _ _ _ _ => Task
  | .githubLoginOf _ _ => Option String
  | .userIdByGithubLogin _ _ => Option String
  | .linkCreated _ _ _ => Unit
  | .conflictDetected _ _ => Unit
  | .newId _ => String
  | .now => String
  | .wasProcessed _ => Bool
  | .markProcessed _ => Unit
  | .getRaw _ => Option RawPayload

abbrev enginePorts : Ports where
  Call := Call
  Result := Result

abbrev Sync (α : Type) := Action enginePorts Thrown α

abbrev ask (request : Call) : Sync (Result request) :=
  port (P := enginePorts) request

end DubEcosystem.GithubSync
