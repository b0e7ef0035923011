import DubEcosystem.GithubSyncEngine

/-!
# github-sync: what the engine writes

Apart from its bookkeeping the engine writes issues and tasks, and few of its steps do
either.  For each step: which of the two it writes, and after which reads.
-/

namespace DubEcosystem.GithubSync

open PortPrograms

def Call.IsBookkeeping : Call → Prop
  | .updateIssue _ => False
  | .addComment _ _ _ _ => False
  | .createTask _ _ _ _ => False
  | .updateTask _ _ _ _ => False
  | _ => True

def BothMoved (link : LinkRecord) (current : Task) (issue : IssueSnapshot) : Prop :=
  githubMoved link issue.updatedAt = true ∧ taskMoved link current.version = true

variable {possible : Answers enginePorts Thrown} {permitted : Call → Prop}
  {config : EngineConfig} {requestId : String} {repo : GithubRepoConfig}
  {link : LinkRecord} {current : Task} {issue : IssueSnapshot}

section Bookkeeping

variable (quiet : ∀ call : Call, call.IsBookkeeping → permitted call)
include quiet

theorem keeps_markLinkError {err : Thrown} {op : String} :
    Keeps possible permitted (markLinkError link err op) := by
  refine Keeps.port_bind (quiet _ trivial) fun now _ => ?_
  refine Keeps.port_bind (quiet _ trivial) fun _ _ => ?_
  split
  · exact Keeps.throw
  · exact Keeps.pure

theorem keeps_resolveAssignee {assignees : List String} :
    Keeps possible permitted (resolveAssignee requestId assignees) := by
  unfold resolveAssignee
  split
  · exact Keeps.pure
  · refine Keeps.attempt_bind (Keeps.port (quiet _ trivial)) fun outcome => ?_
    cases outcome with
    | ok userId | error _ => exact Keeps.pure

theorem keeps_assigneesForTask : Keeps possible permitted (assigneesForTask current) := by
  unfold assigneesForTask
  split
  · exact Keeps.pure
  · refine Keeps.port_bind (quiet _ trivial) fun requestId _ => ?_
    refine Keeps.attempt_bind (Keeps.port (quiet _ trivial)) fun outcome => ?_
    cases outcome with
    | ok login | error _ => exact Keeps.pure

theorem keeps_setInSync {linkId lastGithubUpdatedAt : String} {lastTaskVersion : Nat} :
    Keeps possible permitted (setInSync linkId lastGithubUpdatedAt lastTaskVersion) := by
  refine Keeps.port_bind (quiet _ trivial) fun _ _ => ?_
  refine Keeps.port_bind (quiet _ trivial) fun _ _ => ?_
  exact Keeps.port (quiet _ trivial)

theorem keeps_importIssueAsTask (creates : ∀ repoId number requestId req,
      permitted (.createTask repoId number requestId req)) :
    Keeps possible permitted (importIssueAsTask requestId repo issue) := by
  refine (keeps_resolveAssignee quiet).bind fun assigneeId => ?_
  refine Keeps.port_bind (creates _ _ _ _) fun created _ => ?_
  refine Keeps.port_bind (quiet _ trivial) fun id _ => ?_
  refine Keeps.port_bind (quiet _ trivial) fun lastSyncedAt _ => ?_
  refine Keeps.port_bind (quiet _ trivial) fun createdAt _ => ?_
  refine Keeps.port_bind (quiet _ trivial) fun updatedAt _ => ?_
  refine Keeps.port_bind (quiet _ trivial) fun _ _ => ?_
  exact Keeps.port_bind (quiet _ trivial) fun _ _ => Keeps.pure

theorem keeps_pushTaskToIssue (updates : ∀ input, permitted (.updateIssue input)) :
    Keeps possible permitted (pushTaskToIssue config current issue) :=
  (keeps_assigneesForTask quiet).bind fun _ => Keeps.port (updates _)

theorem keeps_overwriteIssue (updates : ∀ input, permitted (.updateIssue input)) :
    Keeps possible permitted (overwriteIssue config link current issue) :=
  (keeps_pushTaskToIssue quiet updates).bind fun _ => keeps_setInSync quiet

theorem keeps_overwriteTask (updates : ∀ requestId taskId req,
      permitted (.updateTask issue requestId taskId req)) :
    Keeps possible permitted (overwriteTask config requestId link current issue) := by
  have patches : Keeps possible permitted (patchTaskFromIssue config requestId current issue) :=
    (keeps_resolveAssignee quiet).bind fun _ => Keeps.port (updates _ _ _)
  exact patches.bind fun _ => keeps_setInSync quiet

/-- The issue is written only after both sides were found to have moved and the
internal one wins; else the task is. -/
theorem keeps_writeTask {result : ApplyResult}
    (writes : Keeps possible permitted (overwriteTask config requestId link current issue)) :
    Keeps possible permitted (do
      match ← attempt (overwriteTask config requestId link current issue) with
      | .ok () => pure result
      | .error err => markLinkError link err "patchTaskFromIssue") := by
  refine Keeps.attempt_bind writes fun outcome => ?_
  cases outcome with
  | ok _ => exact Keeps.pure
  | error err => exact keeps_markLinkError quiet

theorem keeps_reconcileIssueChange
    (pushes : ∀ current, possible (.getTask requestId link.taskId) (.ok current) →
      BothMoved link current issue → repo.origin = .internal →
        Keeps possible permitted (overwriteIssue config link current issue))
    (writes : ∀ current, possible (.getTask requestId link.taskId) (.ok current) →
      ¬(BothMoved link current issue ∧ repo.origin = .internal) →
        Keeps possible permitted (overwriteTask config requestId link current issue)) :
    Keeps possible permitted (reconcileIssueChange config requestId repo link issue) := by
  refine meets_attempt_bind.mpr (meets_port.mpr ⟨quiet _ trivial, fun read isRead => ?_⟩)
  cases read with
  | error err => exact keeps_markLinkError quiet
  | ok current =>
    simp only []
    split
    · rename_i moved
      refine Keeps.port_bind (quiet _ trivial) fun _ _ => ?_
      split
      · rename_i isInternal
        refine Keeps.attempt_bind (pushes current isRead moved isInternal) fun outcome => ?_
        cases outcome with
        | ok _ => exact Keeps.pure
        | error err => exact keeps_markLinkError quiet
      · rename_i isGithub
        exact keeps_writeTask quiet (writes current isRead fun loses => isGithub loses.2)
    · rename_i notMoved
      exact keeps_writeTask quiet (writes current isRead fun loses => notMoved loses.1)

end Bookkeeping

section Reached

variable (mayThrow : ∀ login, possible (.userIdByGithubLogin requestId login) (.error (.other "")))
include mayThrow

theorem resolveAssignee_returns {assignees : List String}
    {post : Except Thrown (Option String) → Prop}
    (meets : Meets possible permitted (resolveAssignee requestId assignees) post) :
    ∃ assigneeId, post (.ok assigneeId) := by
  unfold resolveAssignee at meets
  split at meets
  · exact ⟨none, meets_pure.mp meets⟩
  · have looked := meets_attempt_bind.mp meets
    exact ⟨none, meets_pure.mp ((meets_port.mp looked).2 (.error (.other "")) (mayThrow _))⟩

section

variable (forbids : ∀ taskId req, ¬permitted (.updateTask issue requestId taskId req))
include forbids

theorem not_meets_overwriteTask {post : Except Thrown Unit → Prop} :
    ¬Meets possible permitted (overwriteTask config requestId link current issue)
      post := by
  intro meets
  have patches := meets_bind.mp meets
  obtain ⟨assigneeId, updates⟩ := resolveAssignee_returns mayThrow (meets_bind.mp patches)
  exact forbids _ _ (meets_port.mp updates).1

variable {post : Except Thrown ApplyResult → Prop}

theorem not_meets_reconcileIssueChange
    (reads : possible (.getTask requestId link.taskId) (.ok current))
    (notBoth : ¬BothMoved link current issue) :
    ¬Meets possible permitted (reconcileIssueChange config requestId repo link issue)
      post := by
  intro meets
  have read := (meets_port.mp (meets_attempt_bind.mp meets)).2 (.ok current) reads
  have notMoved : ¬(githubMoved link issue.updatedAt = true ∧
      taskMoved link current.version = true) := notBoth
  simp only [if_neg notMoved] at read
  exact not_meets_overwriteTask mayThrow forbids (meets_attempt_bind.mp read)

/-- A round of the reconciliation that finds a difference, as well. -/
theorem not_meets_reconcileIssue
    (links : possible (.getByIssue repo.id issue.number) (.ok (some link)))
    (reads : possible (.getTask requestId link.taskId) (.ok current))
    (differ : hasAnyDiff (diffTaskVsIssue config.lower (taskSnapshot current) issue) = true)
    (notBoth : ¬BothMoved link current issue) :
    ¬Meets possible permitted (reconcileIssue config requestId repo issue) post := by
  intro meets
  have linked := (meets_port_bind.mp meets).2.1 (some link) links
  have read := (meets_port_bind.mp linked).2.1 current reads
  simp only [differ, not_true_eq_false, false_and, if_false] at read
  exact not_meets_reconcileIssueChange mayThrow forbids reads notBoth read

end

end Reached

end DubEcosystem.GithubSync
