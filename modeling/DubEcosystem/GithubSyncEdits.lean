import DubEcosystem.GithubSyncFootprint

/-!
# github-sync: are internal edits lost?

When only the task has moved since the last sync, `applyTaskUpsert` writes it to
the issue.  `reconcileIssueChange` knows that only the task has moved and still
overwrites it from the issue, so webhooks and reconciliation lose the edit
unless they turn back earlier.
-/

namespace DubEcosystem.GithubSync

open PortPrograms

structure Scene where
  repo : GithubRepoConfig
  link : LinkRecord
  task : Task
  issue : IssueSnapshot

/-- The ports answer for the task and the issue of the scene what it says, and
anything for the rest; a write may answer anything at all. -/
def Scene.possible (scene : Scene) : Answers enginePorts Thrown
  | .getByOwnerRepo owner repo, answer =>
    owner = scene.issue.owner ∧ repo = scene.issue.repo → answer = .ok (some scene.repo)
  | .getRepo id, answer => id = scene.link.repoId → answer = .ok (some scene.repo)
  | .getByIssue repoId issueNumber, answer =>
    repoId = scene.repo.id ∧ issueNumber = scene.issue.number → answer = .ok (some scene.link)
  | .getByTaskId taskId, answer =>
    taskId = scene.link.taskId → answer = .ok (some scene.link)
  | .getTask _ taskId, answer =>
    taskId = scene.link.taskId → answer = .ok scene.task
  | .getIssue owner repo number, answer =>
    owner = scene.link.owner ∧ repo = scene.link.repo ∧
      number = scene.link.issueNumber → answer = .ok (some scene.issue)
  | _, _ => True

def Spares (issue : IssueSnapshot) : Call → Prop
  | .updateTask source _ _ _ => source ≠ issue
  | _ => True

/-- Whatever the ports answer besides, the task is not updated from the issue. -/
abbrev Scene.KeepsEdit {α : Type} (scene : Scene) (action : Sync α) : Prop :=
  Keeps scene.possible (Spares scene.issue) action

/-- Only the internal side moved since the last sync. -/
def Scene.OnlyTaskMoved (scene : Scene) : Prop :=
  taskMoved scene.link scene.task.version ∧ ¬githubMoved scene.link scene.issue.updatedAt

def NoEditLost (config : EngineConfig) (scene : Scene) (requestId action : String)
    (senderLogin actorId : Option String) : Prop :=
  scene.KeepsEdit (applyWebhook config requestId ⟨action, senderLogin, scene.issue⟩) ∧
    scene.KeepsEdit (reconcileRepo config requestId scene.repo) ∧
      scene.KeepsEdit (applyTaskUpsert config requestId actorId scene.link.taskId)

variable {possible : Answers enginePorts Thrown} {issue : IssueSnapshot}

theorem spares_of_isBookkeeping (call : Call) (quiet : call.IsBookkeeping) :
    Spares issue call := by
  cases call with
  | updateTask source requestId taskId req => exact quiet.elim
  | _ => trivial

variable {config : EngineConfig}

theorem pushTaskToIssue_keeps (task : Task) (other : IssueSnapshot) :
    Keeps possible (Spares issue) (pushTaskToIssue config task other) :=
  keeps_pushTaskToIssue spares_of_isBookkeeping fun _ => trivial

variable {other : IssueSnapshot}

theorem reconcileIssueChange_keeps (differs : other ≠ issue)
    (requestId : String) (repo : GithubRepoConfig) (link : LinkRecord) :
    Keeps possible (Spares issue) (reconcileIssueChange config requestId repo link other) := by
  apply keeps_reconcileIssueChange spares_of_isBookkeeping
  · intro current _ _ _
    exact keeps_overwriteIssue spares_of_isBookkeeping fun _ => trivial
  · intro current _ _
    exact keeps_overwriteTask spares_of_isBookkeeping fun _ _ _ => differs

theorem reconcileIssue_keeps (differs : other ≠ issue)
    (requestId : String) (repo : GithubRepoConfig) :
    Keeps possible (Spares issue) (reconcileIssue config requestId repo other) := by
  refine Keeps.port_bind trivial fun link _ => ?_
  cases link with
  | none =>
    simp only []
    split
    · exact Keeps.pure
    · split
      · exact Keeps.pure
      · exact keeps_importIssueAsTask spares_of_isBookkeeping fun _ _ _ _ => trivial
  | some link =>
    refine Keeps.port_bind trivial fun current _ => ?_
    simp only []
    split
    · exact Keeps.pure
    · exact reconcileIssueChange_keeps differs ..

variable {scene : Scene} {requestId : String}

section

variable (moved : scene.OnlyTaskMoved)
include moved

variable {post : Except Thrown ApplyResult → Prop}

/-- Once it is reached, the change of the issue is written, although only the
task has moved. -/
theorem not_keepsEdit_reconcileIssueChange (repo : GithubRepoConfig) :
    ¬ Meets scene.possible (Spares scene.issue)
      (reconcileIssueChange config requestId repo scene.link scene.issue) post := by
  apply not_meets_reconcileIssueChange
  · intro login
    trivial
  · intro taskId req spares
    exact spares rfl
  · exact fun _ => rfl
  · intro both
    exact moved.2 both.1

theorem keepsEdit_applyWebhook (action : String) (senderLogin : Option String) :
    scene.KeepsEdit (applyWebhook config requestId ⟨action, senderLogin, scene.issue⟩) ↔
      ¬scene.repo.enabled ∨ isSelfCausedWebhook config.lower senderLogin config.selfLogins ∨
        scene.repo.direction = .internal_to_github := by
  constructor
  · intro keeps
    by_contra reaches
    simp only [not_or, not_not] at reaches
    obtain ⟨enabled, notSelf, isSource⟩ := reaches
    have found := (meets_port_bind.mp keeps).2.1 (some scene.repo) fun _ => rfl
    simp only [enabled, not_true_eq_false, notSelf, isSource, if_false] at found
    have linked := (meets_port_bind.mp found).2.1 (some scene.link) fun _ => rfl
    exact not_keepsEdit_reconcileIssueChange moved scene.repo linked
  · intro turnsBack
    refine Keeps.port_bind trivial fun repo isRepo => ?_
    obtain rfl : repo = some scene.repo := by simpa using isRepo ⟨rfl, rfl⟩
    simp only []
    split
    · exact Keeps.pure
    split
    · exact Keeps.pure
    split
    · exact Keeps.pure
    · rename_i enabled notSelf isSource
      simp [enabled, notSelf, isSource] at turnsBack

theorem keepsEdit_upsertIssue (repo : GithubRepoConfig) (taskId : String) : scene.KeepsEdit
      (upsertIssue config requestId repo scene.link taskId scene.task scene.issue) := by
  have still := moved.2
  unfold upsertIssue
  simp only [still, Bool.false_eq_true, false_and, if_false, not_false_eq_true, and_true]
  split
  · refine Keeps.port_bind trivial fun now _ => ?_
    exact Keeps.port_bind trivial fun _ _ => Keeps.pure
  · have pushes : scene.KeepsEdit (do
        let pushed : IssueSnapshot ← pushTaskToIssue config scene.task scene.issue
        setInSync scene.link.id pushed.updatedAt scene.task.version) :=
      (pushTaskToIssue_keeps ..).bind fun _ => keeps_setInSync spares_of_isBookkeeping
    refine Keeps.attempt_bind pushes fun outcome => ?_
    cases outcome with
    | ok _ => exact Keeps.pure
    | error err => exact keeps_markLinkError spares_of_isBookkeeping

/-- The domain-event path pushes the task instead. -/
theorem keepsEdit_applyTaskUpsert (actorId : Option String) :
    scene.KeepsEdit (applyTaskUpsert config requestId actorId scene.link.taskId) := by
  unfold applyTaskUpsert
  split
  · exact Keeps.pure
  refine Keeps.port_bind trivial fun link isLink => ?_
  obtain rfl : link = some scene.link := by simpa using isLink rfl
  refine Keeps.port_bind trivial fun repo _ => ?_
  cases repo with
  | none => exact Keeps.pure
  | some repo =>
    simp only []
    split
    · exact Keeps.pure
    split
    · exact Keeps.pure
    refine meets_attempt_bind.mpr (meets_port.mpr ⟨trivial, fun read isTask => ?_⟩)
    obtain rfl : read = .ok scene.task := isTask rfl
    refine meets_attempt_bind.mpr (meets_port.mpr ⟨trivial, fun issue isIssue => ?_⟩)
    obtain rfl : issue = .ok (some scene.issue) := isIssue ⟨rfl, rfl, rfl⟩
    exact keepsEdit_upsertIssue moved repo scene.link.taskId

theorem keepsEdit_reconcileIssue
    (agree : hasAnyDiff (diffTaskVsIssue config.lower (taskSnapshot scene.task)
      scene.issue) = false) :
    scene.KeepsEdit (reconcileIssue config requestId scene.repo scene.issue) := by
  refine Keeps.port_bind trivial fun link isLink => ?_
  obtain rfl : link = some scene.link := by simpa using isLink ⟨rfl, rfl⟩
  refine Keeps.port_bind trivial fun current isTask => ?_
  obtain rfl : current = scene.task := by simpa using isTask rfl
  simp only [agree, moved.2]
  exact Keeps.pure

theorem not_keepsEdit_reconcileIssue
    (differ : hasAnyDiff (diffTaskVsIssue config.lower (taskSnapshot scene.task)
      scene.issue) = true) :
    ¬ Meets scene.possible (Spares scene.issue)
      (reconcileIssue config requestId scene.repo scene.issue) post := by
  apply not_meets_reconcileIssue ?_ ?_ ?_ ?_ differ
  · intro both
    exact moved.2 both.1
  · intro login
    trivial
  · intro taskId req spares
    exact spares rfl
  · exact fun _ => rfl
  · exact fun _ => rfl

end

theorem keepsEdit_reconcileIssues
    (round : scene.KeepsEdit (reconcileIssue config requestId scene.repo scene.issue))
    (issues : List IssueSnapshot) (stats : SyncRunStats) :
    scene.KeepsEdit (reconcileIssues config requestId scene.repo issues stats) := by
  induction issues generalizing stats with
  | nil => exact Keeps.pure
  | cons issue issues ih =>
    have first : scene.KeepsEdit (reconcileIssue config requestId scene.repo issue) := by
      by_cases same : issue = scene.issue
      · exact same ▸ round
      · exact reconcileIssue_keeps same ..
    refine Keeps.attempt_bind first fun outcome => ?_
    cases outcome with
    | ok result => exact ih _
    | error err =>
      simp only []
      split
      · exact Keeps.throw
      · exact ih _

theorem keepsEdit_reconcileRepo (moved : scene.OnlyTaskMoved) :
    scene.KeepsEdit (reconcileRepo config requestId scene.repo) ↔ ¬scene.repo.enabled ∨
        hasAnyDiff (diffTaskVsIssue config.lower (taskSnapshot scene.task)
          scene.issue) = false := by
  unfold reconcileRepo
  by_cases enabled : scene.repo.enabled = true
  · simp only [enabled, not_true_eq_false, if_false, false_or]
    constructor
    · intro keeps
      by_contra differ
      have listed := (meets_port_bind.mp keeps).2.1 [scene.issue] trivial
      exact not_keepsEdit_reconcileIssue moved (by simpa using differ)
        (meets_attempt_bind.mp listed)
    · intro agree
      refine Keeps.port_bind trivial fun issues _ => ?_
      exact keepsEdit_reconcileIssues (keepsEdit_reconcileIssue moved agree) issues {}
  · rw [if_pos enabled]
    exact ⟨fun _ => .inl enabled, fun _ => Keeps.pure⟩

/-- When only the task has moved, its edit survives exactly if the repository is
disabled, or the webhook turns back before the link is read and task and issue
agree anyway. -/
theorem noEditLost_iff (config : EngineConfig) (scene : Scene)
    (requestId action : String) (senderLogin actorId : Option String)
    (moved : scene.OnlyTaskMoved) :
    NoEditLost config scene requestId action senderLogin actorId ↔ ¬scene.repo.enabled ∨
        (isSelfCausedWebhook config.lower senderLogin config.selfLogins ∨
          scene.repo.direction = .internal_to_github) ∧
        hasAnyDiff (diffTaskVsIssue config.lower (taskSnapshot scene.task)
          scene.issue) = false := by
  rw [NoEditLost, keepsEdit_applyWebhook moved, keepsEdit_reconcileRepo moved]
  have upserts : scene.KeepsEdit (applyTaskUpsert config requestId actorId scene.link.taskId) :=
    keepsEdit_applyTaskUpsert moved actorId
  tauto

def renamedTask : Scene where
  repo :=
    { id := "ghr_main", owner := "acme", repo := "web", eventId := "evt_1"
      origin := .github, direction := .bidirectional, enabled := true
      labelFilter := [] }
  link :=
    { id := "ghl_1", taskId := "task_1", repoId := "ghr_main", owner := "acme"
      repo := "web", issueNumber := 5, issueNodeId := "node_5", projectItemId := none
      syncState := .in_sync, lastSyncedAt := some "2026-08-09T00:00:00Z"
      lastGithubUpdatedAt := some "2026-08-09T00:00:00Z", lastTaskVersion := some 1
      lastError := none, createdAt := "2026-08-09T00:00:00Z"
      updatedAt := "2026-08-09T00:00:00Z" }
  task :=
    { id := "task_1", eventId := some "evt_1", title := "new name"
      description := none, status := .todo, priority := .medium, assigneeId := none
      teamId := none, parentTaskId := none, wbs := none, createdBy := "user_1"
      startAt := none, dueAt := none, origin := .internal, version := 2
      archivedAt := none, createdAt := "2026-08-09T00:00:00Z"
      updatedAt := "2026-08-09T06:00:00Z" }
  issue :=
    { owner := "acme", repo := "web", number := 5, nodeId := "node_5"
      title := "old name", body := none, state := .open, labels := []
      assignees := [], updatedAt := "2026-08-09T00:00:00Z" }

/-- All names here are in lower case. -/
def engineConfig : EngineConfig where
  selfLogins := ["dub-sync[bot]"]
  lower := fun text => text

theorem renamedTask_onlyTaskMoved : renamedTask.OnlyTaskMoved :=
  ⟨by decide, by decide⟩

/-- A redelivered webhook of a human overwrites the new name. -/
theorem not_noEditLost : ¬ ∀ scene : Scene, scene.OnlyTaskMoved →
      NoEditLost engineConfig scene "req_1" "edited" (some "human") none := by
  intro kept
  have webhook := (kept renamedTask renamedTask_onlyTaskMoved).1
  rw [keepsEdit_applyWebhook renamedTask_onlyTaskMoved] at webhook
  revert webhook
  decide

/-- A webhook of the App itself turns back, but reconciliation does not. -/
theorem noEditLost_iff_renamedTask :
    NoEditLost engineConfig renamedTask "req_1" "edited" (some "dub-sync[bot]") none ↔
      ¬renamedTask.repo.enabled ∨ (isSelfCausedWebhook engineConfig.lower (some "dub-sync[bot]")
            engineConfig.selfLogins ∨
          renamedTask.repo.direction = .internal_to_github) ∧
        hasAnyDiff (diffTaskVsIssue engineConfig.lower (taskSnapshot renamedTask.task)
          renamedTask.issue) = false :=
  noEditLost_iff _ _ _ _ _ _ ⟨by decide, by decide⟩

end DubEcosystem.GithubSync
