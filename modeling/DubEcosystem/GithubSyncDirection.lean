import DubEcosystem.GithubSyncEdits

/-!
# github-sync: is the direction respected?

The entry points test the direction of the repository one by one.
`reconcileIssueChange`, which three of them share, tests none: who wins a conflict
decides there which side is written, and reconciliation reaches it for every linked
issue.
-/

namespace DubEcosystem.GithubSync

open PortPrograms List

/-- A call of one of the entry points. -/
inductive Entry where
  | applyWebhook (ev : ParsedIssueEvent)
  | applyTaskUpsert (actorId : Option String) (taskId : String)
  | applyTaskArchived (actorId : Option String) (taskId : String)
  | reconcileRepo

/-- An entry point is called, and meets what the ports may answer then.  They show
one configuration of the repository. -/
structure EngineStep (repo : GithubRepoConfig) where
  entry : Entry
  requestId : String
  possible : Answers enginePorts Thrown
  byId : ∀ id shown, possible (.getRepo id) (.ok (some shown)) → shown = repo
  byOwnerRepo : ∀ owner name shown,
    possible (.getByOwnerRepo owner name) (.ok (some shown)) → shown = repo

variable {repo : GithubRepoConfig}

/-- Run for its effects. -/
def discard {α : Type} (action : Sync α) : Sync Unit := do
  let _value ← action
  pure ()

def EngineStep.program (config : EngineConfig) (step : EngineStep repo) : Sync Unit :=
  match step.entry with
  | .applyWebhook ev => discard (applyWebhook config step.requestId ev)
  | .applyTaskUpsert actorId taskId =>
    discard (applyTaskUpsert config step.requestId actorId taskId)
  | .applyTaskArchived actorId taskId => discard (applyTaskArchived actorId taskId)
  | .reconcileRepo => discard (reconcileRepo config step.requestId repo)

/-- The call writes no side that the direction protects. -/
def InDirection (direction : SyncDirection) : Call → Prop
  | .updateIssue _ => direction ≠ .github_to_internal
  | .addComment _ _ _ _ => direction ≠ .github_to_internal
  | .createTask _ _ _ _ => direction ≠ .internal_to_github
  | .updateTask _ _ _ _ => direction ≠ .internal_to_github
  | _ => True

/-- In no sequence of allowed steps is a call made against the direction. -/
def DirectionRespected (config : EngineConfig)
    (allowed : (repo : GithubRepoConfig) → EngineStep repo → Prop) : Prop :=
  ∀ (repo : GithubRepoConfig) (steps : List (EngineStep repo)),
    (∀ step ∈ steps, allowed repo step) → ∀ step ∈ steps,
        Keeps step.possible (InDirection repo.direction) (step.program config)

def EngineStep.Shows (step : EngineStep repo) (issue : IssueSnapshot) (link : LinkRecord)
    (current : Task) : Prop :=
  step.possible (.getByIssue repo.id issue.number) (.ok (some link)) ∧
    step.possible (.getTask step.requestId link.taskId) (.ok current)

/-- Where the step tests no direction, it does not come to the wrong write. -/
def EngineStep.KeepsDirection (config : EngineConfig) (step : EngineStep repo) : Prop :=
  match step.entry with
  | .applyWebhook ev =>
    repo.direction = .github_to_internal → repo.enabled = true →
      isSelfCausedWebhook config.lower ev.senderLogin config.selfLogins = false →
        ∀ link current, step.Shows ev.issue link current →
          BothMoved link current ev.issue → repo.origin ≠ .internal
  | .applyTaskUpsert actorId taskId =>
    repo.direction = .internal_to_github → repo.enabled = true →
      isSelfCausedEvent actorId = false → ∀ link current issue,
        step.possible (.getByTaskId taskId) (.ok (some link)) →
        step.possible (.getTask step.requestId taskId) (.ok current) →
        step.possible (.getIssue link.owner link.repo link.issueNumber) (.ok (some issue)) →
          BothMoved link current issue → repo.origin ≠ .github
  | .applyTaskArchived _ _ => True
  | .reconcileRepo =>
    repo.enabled = true → ∀ issues,
      step.possible (.listIssues repo.owner repo.repo none) (.ok issues) →
        ∀ issue ∈ issues, ∀ link current, step.Shows issue link current →
          (repo.direction = .github_to_internal →
            BothMoved link current issue → repo.origin ≠ .internal) ∧
          (repo.direction = .internal_to_github →
            hasAnyDiff (diffTaskVsIssue config.lower (taskSnapshot current) issue) =
                true ∨ githubMoved link issue.updatedAt = true →
              BothMoved link current issue ∧ repo.origin = .internal)

variable {config : EngineConfig} {possible : Answers enginePorts Thrown}
  {requestId : String} {link : LinkRecord} {issue : IssueSnapshot}

theorem inDirection_of_isBookkeeping {direction : SyncDirection} (call : Call)
    (quiet : call.IsBookkeeping) : InDirection direction call := by
  cases call with
  | updateIssue input | addComment owner name number body | createTask repoId number requestId req
  | updateTask source requestId taskId req =>
    exact quiet.elim
  | _ => trivial

/-- The shared step keeps to the direction if it is not led to the other side. -/
theorem reconcileIssueChange_inDirection (pulls : repo.direction = .github_to_internal → ∀ current,
      possible (.getTask requestId link.taskId) (.ok current) →
        BothMoved link current issue → repo.origin ≠ .internal)
    (pushes : repo.direction = .internal_to_github → ∀ current,
      possible (.getTask requestId link.taskId) (.ok current) →
        BothMoved link current issue ∧ repo.origin = .internal) :
    Keeps possible (InDirection repo.direction)
      (reconcileIssueChange config requestId repo link issue) := by
  apply keeps_reconcileIssueChange inDirection_of_isBookkeeping
  · intro current isRead moved isInternal
    apply keeps_overwriteIssue inDirection_of_isBookkeeping
    intro input isProtected
    exact pulls isProtected current isRead moved isInternal
  · intro current isRead loses
    apply keeps_overwriteTask inDirection_of_isBookkeeping
    intro requestId taskId req isProtected
    exact loses (pushes isProtected current isRead)

theorem importIssueAsTask_inDirection (isSource : repo.direction ≠ .internal_to_github) :
    Keeps possible (InDirection repo.direction) (importIssueAsTask requestId repo issue) :=
  keeps_importIssueAsTask inDirection_of_isBookkeeping fun _ _ _ _ => isSource

theorem applyWebhook_inDirection {ev : ParsedIssueEvent} (byOwnerRepo : ∀ owner name shown,
      possible (.getByOwnerRepo owner name) (.ok (some shown)) → shown = repo)
    (keeps : repo.direction = .github_to_internal → repo.enabled = true →
      isSelfCausedWebhook config.lower ev.senderLogin config.selfLogins = false → ∀ link current,
          possible (.getByIssue repo.id ev.issue.number) (.ok (some link)) →
          possible (.getTask requestId link.taskId) (.ok current) →
            BothMoved link current ev.issue → repo.origin ≠ .internal) :
    Keeps possible (InDirection repo.direction) (applyWebhook config requestId ev) := by
  refine Keeps.port_bind trivial fun shown isShown => ?_
  cases shown with
  | none => exact Keeps.pure
  | some shown =>
    obtain rfl := byOwnerRepo _ _ shown isShown
    simp only []
    split
    · exact Keeps.pure
    rename_i enabled
    split
    · exact Keeps.pure
    rename_i notSelf
    split
    · exact Keeps.pure
    rename_i isSource
    refine Keeps.port_bind trivial fun existing isLink => ?_
    cases existing with
    | none =>
      simp only []
      split
      · exact Keeps.pure
      · exact importIssueAsTask_inDirection isSource
    | some link =>
      apply reconcileIssueChange_inDirection
      · intro isProtected current isRead
        exact keeps isProtected (not_not.mp enabled) (by simpa using notSelf) link
          current isLink isRead
      · intro isProtected
        exact (isSource isProtected).elim

variable {taskId : String}

theorem upsertIssue_inDirection {current : Task} (isSource : repo.direction ≠ .github_to_internal)
    (keeps : repo.direction = .internal_to_github → BothMoved link current issue →
      repo.origin ≠ .github) :
    Keeps possible (InDirection repo.direction)
      (upsertIssue config requestId repo link taskId current issue) := by
  have quiet : ∀ call : Call, call.IsBookkeeping → InDirection repo.direction call :=
    inDirection_of_isBookkeeping
  unfold upsertIssue
  simp only []
  split
  · rename_i conflict
    refine Keeps.port_bind trivial fun _ _ => ?_
    have overwrites : Keeps possible (InDirection repo.direction)
        (overwriteTask config requestId link current issue) := by
      apply keeps_overwriteTask quiet
      intro requestId taskId req isProtected
      exact keeps isProtected ⟨conflict.1, conflict.2.1⟩ conflict.2.2
    refine Keeps.attempt_bind overwrites fun outcome => ?_
    cases outcome with
    | ok _ => exact Keeps.pure
    | error err => exact keeps_markLinkError quiet
  · split
    · refine Keeps.port_bind trivial fun now _ => ?_
      exact Keeps.port_bind trivial fun _ _ => Keeps.pure
    · refine Keeps.attempt_bind ?_ fun outcome => ?_
      · apply (keeps_pushTaskToIssue quiet fun _ => isSource).bind
        intro pushed
        split
        · exact Keeps.port_bind trivial fun _ _ => keeps_setInSync quiet
        · exact keeps_setInSync quiet
      · cases outcome with
        | ok _ => exact Keeps.pure
        | error err => exact keeps_markLinkError quiet

variable {actorId : Option String}

theorem applyTaskUpsert_inDirection
    (byId : ∀ id shown, possible (.getRepo id) (.ok (some shown)) → shown = repo)
    (keeps : repo.direction = .internal_to_github → repo.enabled = true →
      isSelfCausedEvent actorId = false → ∀ link current issue,
        possible (.getByTaskId taskId) (.ok (some link)) →
        possible (.getTask requestId taskId) (.ok current) →
        possible (.getIssue link.owner link.repo link.issueNumber) (.ok (some issue)) →
          BothMoved link current issue → repo.origin ≠ .github) :
    Keeps possible (InDirection repo.direction)
      (applyTaskUpsert config requestId actorId taskId) := by
  have quiet : ∀ call : Call, call.IsBookkeeping → InDirection repo.direction call :=
    inDirection_of_isBookkeeping
  unfold applyTaskUpsert
  split
  · exact Keeps.pure
  rename_i notSelf
  refine Keeps.port_bind trivial fun linked isLink => ?_
  cases linked with
  | none => exact Keeps.pure
  | some link =>
    refine Keeps.port_bind trivial fun shown isShown => ?_
    cases shown with
    | none => exact Keeps.pure
    | some shown =>
      obtain rfl := byId _ shown isShown
      simp only []
      split
      · exact Keeps.pure
      rename_i enabled
      split
      · exact Keeps.pure
      rename_i isSource
      refine meets_attempt_bind.mpr (meets_port.mpr ⟨trivial, fun read isTask => ?_⟩)
      cases read with
      | error err => exact keeps_markLinkError quiet
      | ok current =>
        refine meets_attempt_bind.mpr (meets_port.mpr ⟨trivial, fun issue isIssue => ?_⟩)
        rcases issue with err | _ | issue
        · exact keeps_markLinkError quiet
        · exact keeps_markLinkError quiet
        · apply upsertIssue_inDirection isSource
          intro isProtected
          exact keeps isProtected (not_not.mp enabled) (by simpa using notSelf) link
            current issue isLink isTask isIssue

theorem applyTaskArchived_inDirection
    (byId : ∀ id shown, possible (.getRepo id) (.ok (some shown)) → shown = repo) :
    Keeps possible (InDirection repo.direction) (applyTaskArchived actorId taskId) := by
  unfold applyTaskArchived
  split
  · exact Keeps.pure
  refine Keeps.port_bind trivial fun linked _ => ?_
  cases linked with
  | none => exact Keeps.pure
  | some link =>
    refine Keeps.port_bind trivial fun shown isShown => ?_
    simp only []
    split
    · exact Keeps.pure
    rename_i isSource
    have writable : repo.direction ≠ .github_to_internal := by
      cases shown with
      | none => simp at isSource
      | some shown =>
        obtain rfl := byId _ shown isShown
        simpa using isSource
    refine Keeps.attempt_bind ?_ fun outcome => ?_
    · refine Keeps.port_bind writable fun _ _ => ?_
      refine Keeps.port_bind writable fun _ _ => ?_
      refine Keeps.port_bind trivial fun now _ => ?_
      exact Keeps.port trivial
    · cases outcome with
      | ok _ => exact Keeps.pure
      | error err => exact keeps_markLinkError inDirection_of_isBookkeeping

theorem reconcileIssue_inDirection (keeps : ∀ link current,
      possible (.getByIssue repo.id issue.number) (.ok (some link)) →
      possible (.getTask requestId link.taskId) (.ok current) →
        (repo.direction = .github_to_internal →
          BothMoved link current issue → repo.origin ≠ .internal) ∧
        (repo.direction = .internal_to_github →
          hasAnyDiff (diffTaskVsIssue config.lower (taskSnapshot current) issue) = true ∨
              githubMoved link issue.updatedAt = true →
            BothMoved link current issue ∧ repo.origin = .internal)) :
    Keeps possible (InDirection repo.direction) (reconcileIssue config requestId repo issue) := by
  refine Keeps.port_bind trivial fun linked isLink => ?_
  cases linked with
  | none =>
    simp only []
    split
    · exact Keeps.pure
    · split
      · exact Keeps.pure
      · rename_i isSource
        exact importIssueAsTask_inDirection isSource
  | some link =>
    refine Keeps.port_bind trivial fun current isRead => ?_
    simp only []
    split
    · exact Keeps.pure
    rename_i differs
    apply reconcileIssueChange_inDirection
    · intro isProtected again isReadAgain
      exact (keeps link again isLink isReadAgain).1 isProtected
    · intro isProtected again isReadAgain
      have found : hasAnyDiff (diffTaskVsIssue config.lower (taskSnapshot current)
          issue) = true ∨ githubMoved link issue.updatedAt = true := by
        by_contra neither
        push Not at neither
        exact differs neither
      -- the issue has moved, whichever task is read the second time
      obtain ⟨⟨moved, -⟩, -⟩ := (keeps link current isLink isRead).2 isProtected found
      exact (keeps link again isLink isReadAgain).2 isProtected (Or.inr moved)

theorem reconcileRepo_inDirection (keeps : repo.enabled = true → ∀ issues,
      possible (.listIssues repo.owner repo.repo none) (.ok issues) →
        ∀ issue ∈ issues, ∀ link current,
          possible (.getByIssue repo.id issue.number) (.ok (some link)) →
          possible (.getTask requestId link.taskId) (.ok current) →
            (repo.direction = .github_to_internal →
              BothMoved link current issue → repo.origin ≠ .internal) ∧
            (repo.direction = .internal_to_github →
              hasAnyDiff (diffTaskVsIssue config.lower (taskSnapshot current) issue) =
                  true ∨ githubMoved link issue.updatedAt = true →
                BothMoved link current issue ∧ repo.origin = .internal)) :
    Keeps possible (InDirection repo.direction) (reconcileRepo config requestId repo) := by
  unfold reconcileRepo
  split
  · exact Keeps.pure
  rename_i enabled
  refine Keeps.port_bind trivial fun issues isListed => ?_
  have rounds := keeps (not_not.mp enabled) issues isListed
  suffices loop : ∀ (issues : List IssueSnapshot) (stats : SyncRunStats),
      (∀ issue ∈ issues, Keeps possible (InDirection repo.direction)
        (reconcileIssue config requestId repo issue)) →
      Keeps possible (InDirection repo.direction)
        (reconcileIssues config requestId repo issues stats) from
    loop issues {} fun issue listed => reconcileIssue_inDirection (rounds issue listed)
  intro issues
  induction issues with
  | nil =>
    intro stats _
    exact Keeps.pure
  | cons issue issues ih =>
    intro stats each
    have rest := fun stats =>
      ih stats fun other member => each other (mem_cons_of_mem issue member)
    refine Keeps.attempt_bind (each issue (.head _)) fun outcome => ?_
    cases outcome with
    | ok result => exact rest _
    | error err =>
      simp only []
      split
      · exact Keeps.throw
      · exact rest _

/-- Steps that are not led to the wrong side respect the direction. -/
theorem directionRespected_of_keepsDirection (config : EngineConfig) :
    DirectionRespected config fun _ step => step.KeepsDirection config := by
  intro repo steps allowed step member
  have keeps : step.KeepsDirection config := allowed step member
  unfold EngineStep.KeepsDirection at keeps
  unfold EngineStep.program
  split
  · rename_i ev isEntry
    rw [isEntry] at keeps
    apply (applyWebhook_inDirection step.byOwnerRepo ?_).bind fun _ => Keeps.pure
    intro isProtected enabled notSelf link current isLink isRead
    exact keeps isProtected enabled notSelf link current ⟨isLink, isRead⟩
  · rename_i actorId taskId isEntry
    rw [isEntry] at keeps
    exact (applyTaskUpsert_inDirection step.byId keeps).bind fun _ => Keeps.pure
  · exact (applyTaskArchived_inDirection step.byId).bind fun _ => Keeps.pure
  · rename_i isEntry
    rw [isEntry] at keeps
    apply (reconcileRepo_inDirection ?_).bind fun _ => Keeps.pure
    intro enabled issues isListed issue listed link current isLink isRead
    exact keeps enabled issues isListed issue listed link current ⟨isLink, isRead⟩

def mirroredTask : Scene :=
  { renamedTask with
    repo := { renamedTask.repo with origin := .internal, direction := .internal_to_github } }

/-- A reconciliation before the event of the rename has been applied. -/
def mirroredStep : EngineStep mirroredTask.repo where
  entry := .reconcileRepo
  requestId := "req_1"
  possible request answer :=
    mirroredTask.possible request answer ∧ match request, answer with
      | .listIssues _ _ _, .ok issues => issues = [mirroredTask.issue]
      | .getRepo _, .ok shown => shown = some mirroredTask.repo
      | .getByOwnerRepo _ _, .ok shown => shown = some mirroredTask.repo
      | _, _ => True
  byId _ _ isShown := Option.some.inj isShown.2
  byOwnerRepo _ _ _ isShown := Option.some.inj isShown.2

/-- The reconciliation overwrites the task, although only tasks are mirrored. -/
theorem not_directionRespected : ¬DirectionRespected engineConfig fun _ _ => True := by
  intro respected
  have keeps := respected mirroredTask.repo [mirroredStep] (fun _ _ => trivial)
    mirroredStep (.head _)
  have ran := meets_bind.mp keeps
  have listed := (meets_port_bind.mp ran).2.1 [mirroredTask.issue] ⟨trivial, rfl⟩
  have round := meets_attempt_bind.mp listed
  have isLinked : mirroredStep.possible (.getByIssue mirroredTask.repo.id mirroredTask.issue.number)
      (.ok (some mirroredTask.link)) := ⟨fun _ => rfl, trivial⟩
  have isRead : mirroredStep.possible (.getTask "req_1" mirroredTask.link.taskId)
      (.ok mirroredTask.task) := ⟨fun _ => rfl, trivial⟩
  have mayThrow : ∀ login, mirroredStep.possible (.userIdByGithubLogin "req_1" login)
      (.error (.other "")) := fun _ => ⟨trivial, trivial⟩
  have isProtected : ∀ taskId req, ¬InDirection mirroredTask.repo.direction
      (.updateTask mirroredTask.issue "req_1" taskId req) := fun _ _ writable =>
    writable rfl
  have notBoth : ¬BothMoved mirroredTask.link mirroredTask.task mirroredTask.issue := by
    unfold BothMoved
    decide
  exact not_meets_reconcileIssue mayThrow isProtected isLinked isRead (by decide) notBoth round

end DubEcosystem.GithubSync
