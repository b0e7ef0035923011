import DubEcosystem.GithubSyncTypes

/-!
# github-sync: the engine

The methods of `SyncEngine` in `sync.ts` that apply a change of one side to the
other.
-/

namespace DubEcosystem.GithubSync

open PortPrograms
open TaskService (TaskStatus)

inductive ApplyResult where
  | created
  | updated
  | skipped
  | conflict
  | failed
  deriving DecidableEq

structure EngineConfig where
  selfLogins : List String
  lower : String → String

def PERMANENT_TASK_ORIGIN_READONLY : String := "TASK_GITHUB_ORIGIN_READONLY"

def taskSnapshot (t : Task) : TaskSnapshot where
  id := t.id
  eventId := t.eventId
  title := t.title
  description := t.description
  status := t.status
  assigneeId := t.assigneeId
  version := t.version
  updatedAt := t.updatedAt

/-- A text that JavaScript takes for true. -/
def truthy (text : Option String) : Option String :=
  text.filter fun value => value ≠ ""

def markLinkError (link : LinkRecord) (err : Thrown) (op : String) :
    Sync ApplyResult := do
  let permanent := codeOf err = some PERMANENT_TASK_ORIGIN_READONLY
  let code := ((truthy (codeOf err)).map fun code => code ++ " ").getD ""
  let now : String ← ask .now
  ask (.updateLink link.id
    { syncState := some .error
      lastError := some (some (op ++ ": " ++ code ++ errMsg err))
      updatedAt := some now })
  if ¬permanent ∧ isRetryable err then throw err else pure .failed

def resolveAssignee (requestId : String) (assignees : List String) : Sync (Option String) :=
  match truthy assignees.head? with
  | none => pure none
  | some first => do
    match ← attempt (ask (.userIdByGithubLogin requestId first)) with
    | .ok userId => pure userId
    | .error _ => pure none

/-- The GitHub assignees for a task; `none` leaves those of the issue alone. -/
def assigneesForTask (t : Task) : Sync (Option (List String)) :=
  match truthy t.assigneeId with
  | none => pure (some [])
  | some assigneeId => do
    let requestId : String ← ask .now
    match ← attempt (ask (.githubLoginOf requestId assigneeId)) with
    | .ok login => pure ((truthy login).map fun login => [login])
    | .error _ => pure none

def bump (stats : SyncRunStats) : ApplyResult → SyncRunStats
  | .created => { stats with created := stats.created + 1 }
  | .updated => { stats with updated := stats.updated + 1 }
  | .skipped => { stats with skipped := stats.skipped + 1 }
  | .conflict => { stats with conflicts := stats.conflicts + 1 }
  | .failed => { stats with failed := stats.failed + 1 }

/-- The write of a link after both sides agree. -/
def setInSync (linkId lastGithubUpdatedAt : String) (lastTaskVersion : Nat) :
    Sync Unit := do
  let lastSyncedAt : String ← ask .now
  let updatedAt : String ← ask .now
  ask (.updateLink linkId
    { syncState := some .in_sync
      lastGithubUpdatedAt := some lastGithubUpdatedAt
      lastTaskVersion := some lastTaskVersion
      lastSyncedAt := some lastSyncedAt
      lastError := some none
      updatedAt := some updatedAt })

variable (config : EngineConfig)

def importIssueAsTask (requestId : String) (repo : GithubRepoConfig)
    (issue : IssueSnapshot) : Sync ApplyResult := do
  let assigneeId : Option String ← resolveAssignee requestId issue.assignees
  let created : Task ← ask (.createTask repo.id issue.number requestId
    { eventId := repo.eventId, title := issue.title, origin := .github
      description := truthy issue.body, assigneeId := truthy assigneeId })
  let id : String ← ask (.newId "ghl")
  let lastSyncedAt : String ← ask .now
  let createdAt : String ← ask .now
  let updatedAt : String ← ask .now
  ask (.createLink
    { id, taskId := created.id, repoId := repo.id, owner := issue.owner
      repo := issue.repo, issueNumber := issue.number, issueNodeId := issue.nodeId
      projectItemId := none, syncState := .in_sync, lastSyncedAt := some lastSyncedAt
      lastGithubUpdatedAt := some issue.updatedAt
      lastTaskVersion := some created.version, lastError := none, createdAt
      updatedAt })
  ask (.linkCreated requestId created.id (issue.owner ++ "/" ++ issue.repo))
  pure .created

def patchTaskFromIssue (requestId : String) (current : Task)
    (issue : IssueSnapshot) : Sync Task := do
  let status := stateToStatus config.lower issue.state issue.labels
  let assigneeId : Option String ← resolveAssignee requestId issue.assignees
  ask (.updateTask issue requestId current.id
    { version := current.version, title := issue.title, description := issue.body
      status := if status ≠ current.status then some status else none
      assigneeId })

def pushTaskToIssue (current : Task) (issue : IssueSnapshot) :
    Sync IssueSnapshot := do
  let assignees : Option (List String) ← assigneesForTask current
  ask (.updateIssue
    { owner := issue.owner, repo := issue.repo, number := issue.number
      title := some current.title, body := some current.description
      state := some (statusToState current.status)
      labels := some (issueLabelsForStatus config.lower current.status issue.labels)
      assignees })

def overwriteIssue (link : LinkRecord) (current : Task) (issue : IssueSnapshot) :
    Sync Unit := do
  let pushed : IssueSnapshot ← pushTaskToIssue config current issue
  setInSync link.id pushed.updatedAt current.version

def overwriteTask (requestId : String) (link : LinkRecord) (current : Task)
    (issue : IssueSnapshot) : Sync Unit := do
  let patched : Task ← patchTaskFromIssue config requestId current issue
  setInSync link.id issue.updatedAt patched.version

def reconcileIssueChange (requestId : String) (repo : GithubRepoConfig)
    (link : LinkRecord) (issue : IssueSnapshot) : Sync ApplyResult := do
  match ← attempt (ask (.getTask requestId link.taskId)) with
  | .error err => markLinkError link err "getTask"
  | .ok current =>
    let ghChanged := githubMoved link issue.updatedAt
    let tChanged := taskMoved link current.version
    let writeTask (result : ApplyResult) : Sync ApplyResult := do
      match ← attempt (overwriteTask config requestId link current issue) with
      | .ok () => pure result
      | .error err => markLinkError link err "patchTaskFromIssue"
    if ghChanged ∧ tChanged then do
      ask (.conflictDetected requestId link.taskId)
      if repo.origin = .internal then do
        match ← attempt (overwriteIssue config link current issue) with
        | .ok () => pure .conflict
        | .error err => markLinkError link err "pushTaskToIssue"
      else writeTask .conflict
    -- Everything else is taken for a change of the issue.
    else writeTask .updated

def applyWebhook (requestId : String) (ev : ParsedIssueEvent) : Sync ApplyResult := do
  let repo : Option GithubRepoConfig ←
    ask (.getByOwnerRepo ev.issue.owner ev.issue.repo)
  match repo with
  | none => pure .skipped
  | some repo =>
    if ¬repo.enabled then pure .skipped
    else if isSelfCausedWebhook config.lower ev.senderLogin config.selfLogins then
      pure .skipped
    else if repo.direction = .internal_to_github then pure .skipped
    else do
      let existing : Option LinkRecord ← ask (.getByIssue repo.id ev.issue.number)
      match existing with
      | none =>
        if ¬matchesLabelFilter config.lower ev.issue.labels repo.labelFilter then
          pure .skipped
        else importIssueAsTask requestId repo ev.issue
      | some link => reconcileIssueChange config requestId repo link ev.issue

/-- The part of `applyTaskUpsert` that has read both sides. -/
def upsertIssue (requestId : String) (repo : GithubRepoConfig) (link : LinkRecord)
    (taskId : String) (current : Task) (issue : IssueSnapshot) :
    Sync ApplyResult := do
  let ghChanged := githubMoved link issue.updatedAt
  let tChanged := taskMoved link current.version
  if ghChanged ∧ tChanged ∧ repo.origin = .github then do
    ask (.conflictDetected requestId taskId)
    match ← attempt (overwriteTask config requestId link current issue) with
    | .ok () => pure .conflict
    | .error err => markLinkError link err "patchTaskFromIssue"
  else if ¬hasAnyDiff (diffTaskVsIssue config.lower (taskSnapshot current) issue) ∧
      ¬ghChanged then do
    let now : String ← ask .now
    ask (.updateLink link.id { lastTaskVersion := some current.version, updatedAt := some now })
    pure .skipped
  else do
    let push : Sync Unit := do
      let pushed : IssueSnapshot ← pushTaskToIssue config current issue
      if ghChanged ∧ tChanged then do
        ask (.conflictDetected requestId taskId)
        setInSync link.id pushed.updatedAt current.version
      else setInSync link.id pushed.updatedAt current.version
    match ← attempt push with
    | .ok () => pure (if ghChanged ∧ tChanged then .conflict else .updated)
    | .error err => markLinkError link err "pushTaskToIssue"

def applyTaskUpsert (requestId : String) (actorId : Option String)
    (taskId : String) : Sync ApplyResult :=
  if isSelfCausedEvent actorId then pure .skipped
  else do
    let link : Option LinkRecord ← ask (.getByTaskId taskId)
    match link with
    | none => pure .skipped
    | some link => do
      let repo : Option GithubRepoConfig ← ask (.getRepo link.repoId)
      match repo with
      | none => pure .skipped
      | some repo =>
        if ¬repo.enabled then pure .skipped
        else if repo.direction = .github_to_internal then pure .skipped
        else do
          match ← attempt (ask (.getTask requestId taskId)) with
          | .error err => markLinkError link err "getTask"
          | .ok current => do
            match ← attempt
              (ask (.getIssue link.owner link.repo link.issueNumber)) with
            | .error err => markLinkError link err "getIssue"
            | .ok none =>
              markLinkError link (.dub "GITHUB_REPO_NOT_FOUND" "issue vanished" 404 false)
                "getIssue"
            | .ok (some issue) =>
              upsertIssue config requestId repo link taskId current issue

def applyTaskArchived (actorId : Option String) (taskId : String) :
    Sync ApplyResult :=
  if isSelfCausedEvent actorId then pure .skipped
  else do
    let link : Option LinkRecord ← ask (.getByTaskId taskId)
    match link with
    | none => pure .skipped
    | some link => do
      let repo : Option GithubRepoConfig ← ask (.getRepo link.repoId)
      if repo.all fun repo => repo.direction = .github_to_internal then
        pure .skipped
      else do
        let close : Sync Unit := do
          ask (.addComment link.owner link.repo link.issueNumber
            "Linked task archived in DevHub; closing issue.")
          let _ : IssueSnapshot ← ask (.updateIssue
            { owner := link.owner, repo := link.repo, number := link.issueNumber
              state := some .closed })
          let now : String ← ask .now
          ask (.updateLink link.id { syncState := some .pending, updatedAt := some now })
        match ← attempt close with
        | .ok () => pure .updated
        | .error err => markLinkError link err "archive"

/-- One round of `reconcileRepo`, inside its `try`. -/
def reconcileIssue (requestId : String) (repo : GithubRepoConfig)
    (issue : IssueSnapshot) : Sync ApplyResult := do
  let link : Option LinkRecord ← ask (.getByIssue repo.id issue.number)
  match link with
  | none =>
    if ¬matchesLabelFilter config.lower issue.labels repo.labelFilter then
      pure .skipped
    else if repo.direction = .internal_to_github then pure .skipped
    else importIssueAsTask requestId repo issue
  | some link => do
    let current : Task ← ask (.getTask requestId link.taskId)
    let diff := diffTaskVsIssue config.lower (taskSnapshot current) issue
    if ¬hasAnyDiff diff ∧ ¬githubMoved link issue.updatedAt then pure .skipped
    else reconcileIssueChange config requestId repo link issue

def reconcileIssues (requestId : String) (repo : GithubRepoConfig) :
    List IssueSnapshot → SyncRunStats → Sync SyncRunStats
  | [], stats => pure stats
  | issue :: issues, stats => do
    match ← attempt (reconcileIssue config requestId repo issue) with
    | .ok result => reconcileIssues requestId repo issues (bump stats result)
    | .error err =>
      if isRateLimited err then throw err
      else reconcileIssues requestId repo issues (bump stats .failed)

def reconcileRepo (requestId : String) (repo : GithubRepoConfig) :
    Sync SyncRunStats :=
  if ¬repo.enabled then pure {}
  else do
    let issues : List IssueSnapshot ← ask (.listIssues repo.owner repo.repo none)
    reconcileIssues config requestId repo issues {}

end DubEcosystem.GithubSync
