import DubEcosystem.GithubSyncWorld
import DubEcosystem.GithubSyncEdits

/-!
# github-sync: webhooks out of order

Webhooks of one linked issue, applied one after another in any order and any number of
times.  Each overwrites the task, whether its snapshot is newer than what the link
records or not.
-/

namespace DubEcosystem.GithubSync

open Interleaving PortPrograms SequentialPrograms KeyedTable List Option
open TaskService (Statement statementMachine TaskStatus
  TASK_STATUS_TRANSITIONS getById_of_live)
open IdentityRoster (jsLength)

variable {around : Surroundings} {row : TaskService.TaskRow String} {req : UpdateTaskRequest}

structure Accepts (around : Surroundings) (current : Task) (req : UpdateTaskRequest) : Prop where
  titleNotEmpty : 1 ≤ jsLength req.title
  titleFits : jsLength req.title ≤ 200
  status : ∀ status, req.status = some status → status ≠ current.status →
    status ∈ TASK_STATUS_TRANSITIONS current.status
  assignee : ∀ userId, req.assigneeId = some userId →
    userId ≠ "" → some userId ≠ current.assigneeId → around.userExists userId = true

/-- The columns that the request sets. -/
def UpdateTaskRequest.patch (req : UpdateTaskRequest) : TaskService.TaskPatch :=
  TaskService.patchOf req.body

theorem UpdateTaskRequest.patch_status (req : UpdateTaskRequest) :
    req.patch.status = req.status := by
  cases given : req.status <;>
    simp [UpdateTaskRequest.patch, TaskService.patchOf, UpdateTaskRequest.body,
      JsonField.ofOptional, TaskService.JsonField.given, given]

theorem parseUpdateTask_body (accepts : Accepts around row.toTask req) :
    TaskService.parseUpdateTask (some req.body) = .ok ((req.version : ℚ), req.patch) := by
  have titleChecked : TaskService.checkTitle (.value req.title) = [] := by
    have fits := accepts.titleFits
    have notEmpty := accepts.titleNotEmpty
    have inRange : ¬(jsLength req.title < 1 ∨ 200 < jsLength req.title) := by omega
    exact if_neg inRange
  have noErrors : TaskService.checkUpdateTask req.body = [] := by
    unfold TaskService.checkUpdateTask
    have title : req.body.title = .value req.title := rfl
    rw [title, titleChecked]
    cases description : req.description <;> cases status : req.status <;>
      cases assigneeId : req.assigneeId <;>
      simp [UpdateTaskRequest.body, JsonField.ofNullable, JsonField.ofOptional, description,
        status, assigneeId, TaskService.checkOptString, TaskService.checkPriority,
        TaskService.checkStatusValue, TaskService.checkEnum, TaskService.checkIso]
  have version : req.body.version = some (req.version : ℚ) := rfl
  unfold TaskService.parseUpdateTask
  simp only [version, noErrors, length_nil, lt_irrefl, if_false]
  rfl

theorem checkPatch_service (accepts : Accepts around row.toTask req) (caller : String) :
    TaskService.checkPatch (.service caller) row.toTask req.patch = .ok () := by
  have originChecked : TaskService.checkOrigin (.service caller) row.toTask req.patch = .ok () := by
    simp [TaskService.checkOrigin, TaskService.isServiceRole]
  unfold TaskService.checkPatch
  simp only [originChecked, TaskService.checkStatusChange, req.patch_status]
  cases given : req.status with
  | none => rfl
  | some target =>
    simp only []
    split
    · rename_i changes
      have allowed := accepts.status target given changes
      simp [TaskService.assertStatusTransition, Ne.symm changes, allowed]
    · rfl

theorem run_checkAssignee (accepts : Accepts around row.toTask req)
    (tasks : TaskService.World String) :
    run statementMachine around.answer (TaskService.checkAssignee
          (if TaskService.differs req.patch.assigneeId row.assigneeId then
            req.patch.assigneeId.getD none
          else none)) tasks =
      (.ok (), tasks) := by
  have assignee : req.patch.assigneeId = req.assigneeId.map some := by
    cases given : req.assigneeId <;>
      simp [UpdateTaskRequest.patch, TaskService.patchOf, UpdateTaskRequest.body,
        JsonField.ofOptional, TaskService.JsonField.nullable, given]
  rw [assignee]
  cases given : req.assigneeId with
  | none => rfl
  | some userId =>
    have differs : TaskService.differs (some (some userId)) row.assigneeId =
        decide (some userId ≠ row.assigneeId) := rfl
    by_cases same : some userId = row.assigneeId
    · rw [map_some, differs, decide_eq_false (not_not.mpr same)]
      rfl
    · rw [map_some, differs, decide_eq_true same, if_pos rfl, getD_some]
      by_cases empty : userId = ""
      · subst empty
        rfl
      · have known := accepts.assignee userId given empty same
        have asked : (some userId).filter (fun userId => userId ≠ "") = some userId := by
          simp [empty]
        unfold TaskService.checkAssignee
        rw [asked]
        apply (run_call_outside rfl).trans
        simp only [Surroundings.answer, known, Prog.bind]
        rfl

theorem run_emitSpecs (ctx : TaskService.RequestContext)
    (specs : List (TaskService.EventSpec String)) (tasks : TaskService.World String) :
    run statementMachine around.answer (TaskService.emitSpecs ctx specs) tasks = ((), tasks) := by
  unfold TaskService.emitSpecs
  split <;> rfl

variable {tasks : TaskService.World String}

theorem run_writeTask (member : row ∈ tasks.tasks)
    (live : row.isLive) (atVersion : req.version = row.version)
    (ctx : TaskService.RequestContext) :
    run statementMachine around.answer
        (TaskService.writeTask ctx row.id row.toTask req.patch (req.version : ℚ)) tasks =
      (.ok (.task (req.patch.apply around.clock row).toTask),
        (tasks.update row.id req.patch req.version around.clock).2) := by
  have notEmpty : req.patch.isEmpty = false := by
    simp [TaskService.TaskPatch.isEmpty, UpdateTaskRequest.patch, TaskService.patchOf,
      UpdateTaskRequest.body, TaskService.JsonField.given]
  have selected : TaskService.isAtVersion row.id (req.version : ℚ) row = true := by
    simp [TaskService.isAtVersion, atVersion, live]
  have lands : tasks.tasks.selects (TaskService.isAtVersion row.id req.version) = true :=
    selects_eq_true.mpr ⟨row, member, selected⟩
  unfold TaskService.writeTask
  rw [notEmpty]
  apply (run_call_outside rfl).trans
  have written : statementMachine.exec (.update row.id req.patch req.version around.clock) tasks =
        some (true, (tasks.update row.id req.patch req.version around.clock).2) := by
    simp [statementMachine, Statement.exec, TaskService.World.update, lands]
  apply (run_call written).trans
  have patched : req.patch.apply around.clock row ∈
      (tasks.update row.id req.patch req.version around.clock).2.tasks := by
    have updated : req.patch.apply around.clock row ∈
        tasks.tasks.update (TaskService.isAtVersion row.id req.version)
          (req.patch.apply around.clock) fun _ => rfl :=
      mem_update.mpr ⟨row, member, if_pos selected⟩
    exact updated
  have readBack : statementMachine.exec (.getById row.id false)
      (tasks.update row.id req.patch req.version around.clock).2 =
        some (some (req.patch.apply around.clock row).toTask,
          (tasks.update row.id req.patch req.version around.clock).2) :=
    congrArg (fun found => some (found, _)) (getById_of_live patched live)
  apply (run_call readBack).trans
  simp only [Prog.bind]
  rw [run_bind, run_emitSpecs]
  rfl

theorem run_updateTask (member : row ∈ tasks.tasks) (live : row.isLive)
    (atVersion : req.version = row.version) (accepts : Accepts around row.toTask req)
    (requestId : String) :
    run statementMachine around.answer
        (TaskService.updateTask (sysCtx around requestId) row.id (some req.body)) tasks =
      (.ok (.task (req.patch.apply around.clock row).toTask),
        (tasks.update row.id req.patch req.version around.clock).2) := by
  have teamsChecked : TaskService.checkTeams row.id row.toTask req.patch = pure (.ok ()) := rfl
  unfold TaskService.updateTask
  rw [parseUpdateTask_body accepts]
  have read : statementMachine.exec (.getById row.id false) tasks = some (some row.toTask, tasks) :=
    congrArg (fun found => some (found, tasks)) (getById_of_live member live)
  apply (run_call read).trans
  simp only [Prog.bind, atVersion, ne_eq, not_true_eq_false, if_false,
    sysCtx, checkPatch_service accepts]
  unfold TaskService.updateCurrent
  rw [run_bind, run_checkAssignee accepts]
  simp only [teamsChecked]
  rw [← atVersion]
  exact run_writeTask member live atVersion _

section Engine

variable {config : EngineConfig} {world : World} {requestId : String}
  {outside : (request : Call) → Except Thrown (Result request)} {link : LinkRecord}
  {issue : IssueSnapshot}

def patchRequest (config : EngineConfig) (around : Surroundings) (current : Task)
    (issue : IssueSnapshot) : UpdateTaskRequest where
  version := current.version
  title := issue.title
  description := issue.body
  status :=
    let status := stateToStatus config.lower issue.state issue.labels
    if status ≠ current.status then some status else none
  assigneeId := (truthy issue.assignees.head?).bind around.userIdByGithubLogin

def overwrittenRow (config : EngineConfig) (around : Surroundings)
    (row : TaskService.TaskRow String) (issue : IssueSnapshot) :
    TaskService.TaskRow String :=
  (patchRequest config around row.toTask issue).patch.apply around.clock row

def inSyncPatch (around : Surroundings) (lastGithubUpdatedAt : String)
    (lastTaskVersion : Nat) : LinkPatch where
  syncState := some .in_sync
  lastGithubUpdatedAt := some lastGithubUpdatedAt
  lastTaskVersion := some lastTaskVersion
  lastSyncedAt := some around.clock
  lastError := some none
  updatedAt := some around.clock

theorem computes_resolveAssignee (assignees : List String) :
    Computes syncMachine outside (resolveAssignee requestId assignees) world
      (.ok ((truthy assignees.head?).bind world.around.userIdByGithubLogin)) world := by
  unfold resolveAssignee
  cases truthy assignees.head? with
  | none => exact computes_pure
  | some first =>
    have asked : Computes syncMachine outside (ask (.userIdByGithubLogin requestId first)) world
        (.ok (world.around.userIdByGithubLogin first)) world := computes_port rfl
    exact computes_bind (computes_attempt asked) computes_pure

theorem computes_setInSync (lastGithubUpdatedAt : String) (lastTaskVersion : Nat) :
    Computes syncMachine outside (setInSync link.id lastGithubUpdatedAt lastTaskVersion)
      world (.ok ())
      (world.updateLink link.id
        (inSyncPatch world.around lastGithubUpdatedAt lastTaskVersion)) := by
  apply computes_port_bind rfl
  apply computes_port_bind rfl
  exact computes_port rfl

def World.patchTask (world : World) (config : EngineConfig)
    (row : TaskService.TaskRow String) (issue : IssueSnapshot) : World :=
  let req := patchRequest config world.around row.toTask issue
  { world with
    tasks := (world.tasks.update row.id req.patch req.version world.around.clock).2 }

section

variable (member : row ∈ world.tasks.tasks) (live : row.isLive)
  (accepts : Accepts world.around row.toTask (patchRequest config world.around row.toTask issue))
include member live accepts

theorem exec_updateTask : syncMachine.exec (.updateTask issue requestId row.id
      (patchRequest config world.around row.toTask issue)) world =
        some (.ok (overwrittenRow config world.around row issue).toTask,
          world.patchTask config row issue) := by
  have handled := run_updateTask member live rfl accepts requestId
  have answered : world.updateTask requestId row.id
      (patchRequest config world.around row.toTask issue) =
        (.ok (overwrittenRow config world.around row issue).toTask,
          world.patchTask config row issue) := by
    unfold World.updateTask World.handle
    rw [handled]
    rfl
  exact congrArg some answered

theorem computes_patchTaskFromIssue :
    Computes syncMachine outside (patchTaskFromIssue config requestId row.toTask issue)
      world (.ok (overwrittenRow config world.around row issue).toTask)
      (world.patchTask config row issue) := by
  unfold patchTaskFromIssue
  apply computes_bind (computes_resolveAssignee issue.assignees)
  exact computes_port (exec_updateTask member live accepts)

theorem computes_overwriteTask :
    Computes syncMachine outside (overwriteTask config requestId link row.toTask issue)
      world (.ok ())
      ((world.patchTask config row issue).updateLink link.id
        (inSyncPatch world.around issue.updatedAt (row.version + 1))) := by
  unfold overwriteTask
  apply computes_bind (computes_patchTaskFromIssue member live accepts)
  exact computes_setInSync issue.updatedAt (row.version + 1)

end

def World.overwrite (world : World) (config : EngineConfig) (link : LinkRecord)
    (row : TaskService.TaskRow String) (issue : IssueSnapshot) : World :=
  (world.patchTask config row issue).updateLink link.id
    (inSyncPatch world.around issue.updatedAt (row.version + 1))

theorem computes_writeTask (member : row ∈ world.tasks.tasks) (live : row.isLive)
    (accepts : Accepts world.around row.toTask
      (patchRequest config world.around row.toTask issue)) (result : ApplyResult) :
    Computes syncMachine outside (do
      match ← attempt (overwriteTask config requestId link row.toTask issue) with
      | .ok () => pure result
      | .error err => markLinkError link err "patchTaskFromIssue") world (.ok result)
      (world.overwrite config link row issue) := by
  apply computes_bind (computes_attempt (computes_overwriteTask member live accepts))
  exact computes_pure

theorem overwrites_of_reconcileIssueChange {repo : GithubRepoConfig}
    (isGithub : repo.origin = .github) (member : row ∈ world.tasks.tasks)
    (named : row.id = link.taskId) (live : row.isLive)
    (accepts : Accepts world.around row.toTask (patchRequest config world.around row.toTask issue))
    {result : ApplyResult} {after : World}
    (returned : Computes syncMachine outside
      (reconcileIssueChange config requestId repo link issue) world (.ok result) after) :
    after = world.overwrite config link row issue := by
  have read : Computes syncMachine outside (ask (.getTask requestId link.taskId)) world
      (.ok row.toTask) world := by
    apply computes_port
    have found := getById_of_live member live
    rw [named] at found
    have answered : world.getTask link.taskId = .ok row.toTask := by
      unfold World.getTask
      rw [found]
    exact congrArg (fun answer => some (answer, world)) answered
  by_cases both : githubMoved link issue.updatedAt ∧ taskMoved link row.version
  · -- The publisher may throw, and then nothing is returned.
    have told : Computes syncMachine outside (ask (.conflictDetected requestId link.taskId)) world
        (outside (.conflictDetected requestId link.taskId)) world := computes_outside rfl
    have notInternal : ¬repo.origin = .internal := by
      rw [isGithub]
      decide
    have computed : ∃ outcome final, Computes syncMachine outside
        (reconcileIssueChange config requestId repo link issue) world outcome final ∧
          ∀ result, outcome = .ok result → final = world.overwrite config link row issue := by
      cases answer : outside (.conflictDetected requestId link.taskId) with
      | error thrown =>
        rw [answer] at told
        refine ⟨.error thrown, world, ?_, by simp⟩
        unfold reconcileIssueChange
        apply computes_bind (computes_attempt read)
        simp only [both, and_self, if_true]
        exact computes_bind_error told
      | ok _ =>
        rw [answer] at told
        refine ⟨.ok .conflict, _, ?_, fun _ _ => rfl⟩
        unfold reconcileIssueChange
        apply computes_bind (computes_attempt read)
        simp only [both, and_self, if_true]
        apply computes_bind told
        simp only [notInternal, if_false]
        exact computes_writeTask member live accepts .conflict
    obtain ⟨outcome, final, computes, overwrites⟩ := computed
    obtain ⟨rfl, rfl⟩ := returned.unique computes
    exact overwrites _ rfl
  · have computed : Computes syncMachine outside
        (reconcileIssueChange config requestId repo link issue) world (.ok .updated)
        (world.overwrite config link row issue) := by
      unfold reconcileIssueChange
      apply computes_bind (computes_attempt read)
      simp only [both, if_false]
      exact computes_writeTask member live accepts .updated
    exact (returned.unique computed).2

end Engine

variable {config : EngineConfig} {world : World}

/-- The issue is linked to a live task, in an enabled and bidirectional repository whose
origin is GitHub. -/
structure World.Links (world : World) (owner name : String) (number : Nat)
    (link : LinkRecord) (row : TaskService.TaskRow String) : Prop where
  repo : ∃ repo, world.getByOwnerRepo owner name = some repo ∧ repo.enabled = true ∧
    repo.origin = .github ∧ repo.direction = .bidirectional ∧
      world.getByIssue repo.id number = some link
  member : row ∈ world.tasks.tasks
  named : row.id = link.taskId
  live : row.isLive

structure Mirrors (config : EngineConfig) (link : LinkRecord)
    (row : TaskService.TaskRow String) (issue : IssueSnapshot) : Prop where
  title : row.title = issue.title
  description : row.description = issue.body
  status : row.status = stateToStatus config.lower issue.state issue.labels
  lastGithubUpdatedAt : link.lastGithubUpdatedAt = some issue.updatedAt

theorem mirrors_overwrite (link : LinkRecord) (row : TaskService.TaskRow String)
    (issue : IssueSnapshot) (around : Surroundings) :
    Mirrors config ((inSyncPatch around issue.updatedAt (row.version + 1)).apply link)
      (overwrittenRow config around row issue) issue where
  title := rfl
  description := by
    have given : (patchRequest config around row.toTask issue).patch.description =
        some issue.body := by
      cases body : issue.body <;>
        simp [UpdateTaskRequest.patch, TaskService.patchOf, UpdateTaskRequest.body,
          patchRequest, JsonField.ofNullable, TaskService.JsonField.nullable, body]
    simp [overwrittenRow, TaskService.TaskPatch.apply, given]
  status := by
    simp only [overwrittenRow, TaskService.TaskPatch.apply, UpdateTaskRequest.patch_status]
    by_cases same : stateToStatus config.lower issue.state issue.labels = row.status
    · simp [patchRequest, same]
    · simp [patchRequest, same]
  lastGithubUpdatedAt := rfl

variable {number : Nat} {link : LinkRecord}

theorem World.Links.overwrite {owner name : String} (links : world.Links owner name number link row)
    (issue : IssueSnapshot) :
    (world.overwrite config link row issue).Links owner name number
      ((inSyncPatch world.around issue.updatedAt (row.version + 1)).apply link)
      (overwrittenRow config world.around row issue) where
  repo := by
    obtain ⟨repo, isRepo, enabled, isGithub, isBidirectional, isLink⟩ := links.repo
    refine ⟨repo, isRepo, enabled, isGithub, isBidirectional, ?_⟩
    obtain ⟨linkMem, isKey⟩ := find?_eq_some.mp isLink
    apply find?_eq_some.mpr
    constructor
    · have updated : (inSyncPatch world.around issue.updatedAt (row.version + 1)).apply
          link ∈ world.links.update (fun old => old.id = link.id)
            (inSyncPatch world.around issue.updatedAt (row.version + 1)).apply
            fun _ => rfl :=
        mem_update.mpr ⟨link, linkMem, if_pos (decide_eq_true rfl)⟩
      exact updated
    · exact isKey
  member := by
    have selected : TaskService.isAtVersion row.id
        ((patchRequest config world.around row.toTask issue).version : ℚ) row = true := by
      simp [TaskService.isAtVersion, patchRequest, links.live]
    have updated : overwrittenRow config world.around row issue ∈
        world.tasks.tasks.update (TaskService.isAtVersion row.id
            ((patchRequest config world.around row.toTask issue).version : ℚ))
          ((patchRequest config world.around row.toTask issue).patch.apply
            world.around.clock) fun _ => rfl :=
      mem_update.mpr ⟨row, links.member, if_pos selected⟩
    exact updated
  named := links.named
  live := links.live

/-- `applyWebhook` does not turn the webhook away as an echo, and task-service accepts
the request against the task as it stands. -/
structure TakesEffect (config : EngineConfig) (around : Surroundings) (current : Task)
    (ev : ParsedIssueEvent) : Prop where
  notEcho : isSelfCausedWebhook config.lower ev.senderLogin config.selfLogins = false
  accepts : Accepts around current (patchRequest config around current ev.issue)

theorem overwrites_of_applyWebhook {ev : ParsedIssueEvent}
    (links : world.Links ev.issue.owner ev.issue.repo ev.issue.number link row)
    (effect : TakesEffect config world.around row.toTask ev) {requestId : String}
    {outside : (request : Call) → Except Thrown (Result request)} {result : ApplyResult}
    {after : World}
    (returned : Computes syncMachine outside (applyWebhook config requestId ev) world
      (.ok result) after) :
    after = world.overwrite config link row ev.issue := by
  obtain ⟨repo, isRepo, enabled, isGithub, isBidirectional, isLink⟩ := links.repo
  have notInward : ¬repo.direction = .internal_to_github := by
    rw [isBidirectional]
    decide
  have reconciles : ∀ {outcome final}, Computes syncMachine outside
      (reconcileIssueChange config requestId repo link ev.issue) world outcome final →
        Computes syncMachine outside (applyWebhook config requestId ev) world outcome
          final := by
    intro outcome final computes
    have foundRepo : syncMachine.exec (.getByOwnerRepo ev.issue.owner ev.issue.repo)
        world = some (.ok (some repo), world) := by
      rw [← isRepo]
      rfl
    have foundLink : syncMachine.exec (.getByIssue repo.id ev.issue.number) world =
        some (.ok (some link), world) := by
      rw [← isLink]
      rfl
    unfold applyWebhook
    apply computes_port_bind foundRepo
    simp only [enabled, not_true_eq_false, if_false, effect.notEcho, notInward, Bool.false_eq_true]
    apply computes_port_bind foundLink
    exact computes
  obtain ⟨outcome, final, ran⟩ : ∃ outcome final, Computes syncMachine outside
      (reconcileIssueChange config requestId repo link ev.issue) world outcome final :=
    ⟨_, _, rfl⟩
  obtain ⟨rfl, rfl⟩ := returned.unique (reconciles ran)
  exact overwrites_of_reconcileIssueChange isGithub links.member links.named links.live
    effect.accepts ran

theorem World.Links.surrounded {owner name : String}
    (links : world.Links owner name number link row)
    (around : Surroundings) :
    ({ world with around } : World).Links owner name number link row :=
  ⟨links.repo, links.member, links.named, links.live⟩

/-- Webhooks applied one after another, each in a world that it is `allowed` in; each
returns.  Between two of them anything may change but the stores. -/
inductive Webhooks (config : EngineConfig) (allowed : World → ParsedIssueEvent → Prop)
    (start : World) : List ParsedIssueEvent → World → Prop
  | none : Webhooks config allowed start [] start
  | apply {past ev before after requestId outside result} (around : Surroundings)
      (earlier : Webhooks config allowed start past before)
      (permitted : allowed { before with around } ev)
      (returned : Computes syncMachine outside (applyWebhook config requestId ev)
        { before with around } (.ok result) after) :
      Webhooks config allowed start (past ++ [ev]) after

/-- Of whatever snapshots of a linked issue are applied, and in whatever order and
number, task and link end up as the newest has them. -/
def NewestWins (config : EngineConfig) (allowed : World → ParsedIssueEvent → Prop) :
    Prop :=
  ∀ owner name number start events final, (∃ link row, start.Links owner name number link row) →
    Webhooks config allowed start events final →
    (∀ ev ∈ events, ev.issue.owner = owner ∧ ev.issue.repo = name ∧ ev.issue.number = number) →
    (∀ first ∈ events, ∀ second ∈ events,
      first.issue.updatedAt = second.issue.updatedAt → first.issue = second.issue) →
    ∀ newest ∈ events, (∀ other ∈ events, other.issue.updatedAt ≤ newest.issue.updatedAt) →
        ∃ link row, final.Links owner name number link row ∧ Mirrors config link row newest.issue

def InOrder (config : EngineConfig) (world : World) (ev : ParsedIssueEvent) : Prop :=
  ∀ link row, world.Links ev.issue.owner ev.issue.repo ev.issue.number link row →
    (∀ last, link.lastGithubUpdatedAt = some last → last ≤ ev.issue.updatedAt) ∧
      TakesEffect config world.around row.toTask ev

/-- Task and link are as the last snapshot has them, and it is the newest so far. -/
theorem mirrors_last {owner name : String} {start final : World} {events : List ParsedIssueEvent}
    (linked : ∃ link row, start.Links owner name number link row)
    (webhooks : Webhooks config (InOrder config) start events final)
    (ofIssue : ∀ ev ∈ events,
      ev.issue.owner = owner ∧ ev.issue.repo = name ∧ ev.issue.number = number) :
    ∃ link row, final.Links owner name number link row ∧
      ∀ last ∈ events.getLast?, Mirrors config link row last.issue ∧
        ∀ ev ∈ events, ev.issue.updatedAt ≤ last.issue.updatedAt := by
  induction webhooks with
  | none =>
    obtain ⟨link, row, links⟩ := linked
    exact ⟨link, row, links, by simp⟩
  | @apply past ev before after requestId outside result around _ permitted returned ih =>
    obtain ⟨link, row, links, mirrored⟩ :=
      ih fun ev member => ofIssue ev (mem_append_left _ member)
    obtain ⟨rfl, rfl, rfl⟩ := ofIssue ev (by simp)
    obtain ⟨notOlder, effect⟩ := permitted link row (links.surrounded around)
    obtain rfl := overwrites_of_applyWebhook (links.surrounded around) effect returned
    refine ⟨_, _, (links.surrounded around).overwrite ev.issue, ?_⟩
    intro last isLast
    obtain rfl : ev = last := by simpa using isLast
    refine ⟨mirrors_overwrite link row ev.issue around, ?_⟩
    intro other member
    rcases mem_append.mp member with earlier | isLast
    · -- The link records the newest of the earlier ones.
      have nonempty : past ≠ [] := ne_nil_of_mem earlier
      obtain ⟨mirrors, newest⟩ :=
        mirrored _ (getLast?_eq_getLast_of_ne_nil nonempty)
      exact (newest other earlier).trans (notOlder _ mirrors.lastGithubUpdatedAt)
    · rw [mem_singleton.mp isLast]

/-- The newest snapshot wins in every run in which each webhook comes in order and takes
effect. -/
theorem newestWins_of_inOrder (config : EngineConfig) : NewestWins config (InOrder config) := by
  intro owner name number start events final linked webhooks ofIssue distinct newest member greatest
  obtain ⟨link, row, links, mirrored⟩ := mirrors_last linked webhooks ofIssue
  have nonempty : events ≠ [] := ne_nil_of_mem member
  have lastMem := getLast_mem nonempty
  obtain ⟨mirrors, newer⟩ := mirrored _ (getLast?_eq_getLast_of_ne_nil nonempty)
  have sameTime : newest.issue.updatedAt = (events.getLast nonempty).issue.updatedAt :=
    le_antisymm (newer newest member) (greatest _ lastMem)
  rw [distinct newest member _ lastMem sameTime]
  exact ⟨link, row, links, mirrors⟩

/-- Nobody is known, and nothing else matters. -/
def plainSurroundings : Surroundings where
  clock := "2026-08-11T00:00:00Z"
  drawn := "task_2"
  orgId := "org_1"
  userIdByGithubLogin _ := none
  userExists _ := false
  getEvent _ := none

def linkedIssue : World where
  repos := ⟨[renamedTask.repo], by decide⟩
  links := ⟨[renamedTask.link], by decide⟩
  tasks :=
    { tasks := ⟨[⟨{ renamedTask.task with version := 1 }, none⟩], by decide⟩
      dependencies := .empty, processed := [] }
  processed := []
  imported := []
  around := plainSurroundings

def retitled (title updatedAt : String) : ParsedIssueEvent where
  action := "edited"
  senderLogin := some "human"
  issue := { renamedTask.issue with title, updatedAt }

/-- Nobody outside objects to anything. -/
def noAnswer : (request : Call) → Except Thrown (Result request) :=
  fun _ => .error (.other "no answer")

/-- The second edit of a title arrives before the first one. -/
theorem not_newestWins : ¬NewestWins engineConfig fun _ _ => True := by
  intro wins
  let second := retitled "second" "2026-08-10T02:00:00Z"
  let first := retitled "first" "2026-08-10T01:00:00Z"
  let applied (ev : ParsedIssueEvent) (world : World) :=
    run syncMachine noAnswer (applyWebhook engineConfig "req_1" ev).run world
  have secondReturns : (applied second linkedIssue).1 = .ok .updated := by decide +kernel
  have firstReturns : (applied first (applied second linkedIssue).2).1 = .ok .updated := by
    decide +kernel
  have webhook : Webhooks engineConfig (fun _ _ => True) linkedIssue [second]
      (applied second linkedIssue).2 :=
    Webhooks.apply linkedIssue.around .none trivial (Prod.ext secondReturns rfl)
  have webhooks : Webhooks engineConfig (fun _ _ => True) linkedIssue [second, first]
      (applied first (applied second linkedIssue).2).2 :=
    Webhooks.apply (applied second linkedIssue).2.around webhook trivial (Prod.ext firstReturns rfl)
  have linked : ∃ link row, linkedIssue.Links "acme" "web" 5 link row :=
    ⟨renamedTask.link, ⟨{ renamedTask.task with version := 1 }, none⟩,
      { repo := ⟨renamedTask.repo, by decide⟩
        member := mem_singleton_self _
        named := rfl
        live := rfl }⟩
  obtain ⟨link, row, links, mirrors⟩ := wins "acme" "web" 5 linkedIssue _ _ linked webhooks
    (by simp [second, first, retitled, renamedTask])
    (by simp [second, first, retitled]) second mem_cons_self
    (by simp [second, first, retitled])
  have shown : (((applied first (applied second linkedIssue).2).2.getByOwnerRepo "acme"
      "web").bind fun repo => (applied first (applied second linkedIssue).2).2.getByIssue
        repo.id 5).map LinkRecord.lastGithubUpdatedAt =
      some (some "2026-08-10T01:00:00Z") := by
    decide +kernel
  obtain ⟨repo, isRepo, -, -, -, isLink⟩ := links.repo
  rw [isRepo, bind_some, isLink, map_some, mirrors.lastGithubUpdatedAt] at shown
  exact absurd shown (by decide)

end DubEcosystem.GithubSync
