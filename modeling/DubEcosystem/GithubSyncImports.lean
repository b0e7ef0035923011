import Mathlib.Data.List.ReduceOption
import DubEcosystem.GithubSyncConsumers
import DubEcosystem.GithubSyncTasks
import DubEcosystem.GithubSyncOrder
import DubEcosystem.InterleavingSchedule

/-!
# github-sync: one task for an issue

An import creates the task first and the link to it afterwards.  In between the consumer
owes the link: nobody else sees that the issue has a task.
-/

namespace DubEcosystem.GithubSync

open Interleaving PortPrograms List KeyedTable

abbrev EngineProg (α : Type) := Prog (enginePorts.signature Thrown) α

variable {α β : Type}

/-- The program follows the order of an import: a link is only ever created for the task
created just before, to which it is `owed`. -/
def Orderly : Option ImportedTask → EngineProg α → Prop
  | none, .done _ => True
  | some _, .done _ => False
  | none, .call (.createTask repoId issueNumber _ _) next =>
    (∀ task, Orderly (some ⟨repoId, issueNumber, task.id⟩) (next (.ok task))) ∧
      ∀ thrown, Orderly none (next (.error thrown))
  | none, .call (.createLink _) _ => False
  | none, .call _ next => ∀ answer, Orderly none (next answer)
  | some owed, .call (.createLink link) next =>
    (link.repoId = owed.repoId ∧ link.issueNumber = owed.issueNumber ∧
      link.taskId = owed.taskId) ∧ ∀ answer, Orderly none (next answer)
  | some owed, .call (.newId _) next => ∀ id, Orderly (some owed) (next (.ok id))
  | some owed, .call .now next => ∀ now, Orderly (some owed) (next (.ok now))
  | some _, .call _ _ => False

def Call.IsPlain : Call → Prop
  | .createTask _ _ _ _ => False
  | .createLink _ => False
  | _ => True

variable {request : Call}

theorem orderly_call (plain : request.IsPlain)
    {next : Except Thrown (Result request) → EngineProg α} :
    Orderly none (.call request next) ↔ ∀ answer, Orderly none (next answer) := by
  cases request with
  | createTask repoId issueNumber requestId req | createLink link => exact plain.elim
  | _ => rfl

theorem Orderly.bind {owed : Option ImportedTask} {program : EngineProg α}
    {continuation : α → EngineProg β} (first : Orderly owed program)
    (second : ∀ value, Orderly none (continuation value)) :
    Orderly owed (program >>= continuation) := by
  induction program generalizing owed with
  | done value =>
    cases owed with
    | none => exact second value
    | some owed => exact first.elim
  | call request next ih =>
    rw [Interleaving.Prog.call_bind]
    cases owed with
    | none =>
      cases request with
      | createTask repoId issueNumber requestId req =>
        exact ⟨fun task => ih _ (first.1 task), fun thrown => ih _ (first.2 thrown)⟩
      | createLink link => exact first.elim
      | _ => exact fun answer => ih answer (first answer)
    | some owed =>
      cases request with
      | createLink link => exact ⟨first.1, fun answer => ih answer (first.2 answer)⟩
      | newId kind => exact fun id => ih _ (first id)
      | now => exact fun now => ih _ (first now)
      | _ => exact first.elim

section Engine

variable {config : EngineConfig} {requestId : String} {repo : GithubRepoConfig} {link : LinkRecord}
  {issue : IssueSnapshot}

/-- The action creates links only in the order of an import. -/
def Tidy (action : Sync α) : Prop :=
  Orderly none action.run

theorem tidy_pure (value : α) : Tidy (pure value : Sync α) :=
  trivial

theorem tidy_throw (thrown : Thrown) : Tidy (throw thrown : Sync α) :=
  trivial

theorem tidy_ask (request : Call) (plain : request.IsPlain) : Tidy (ask request) :=
  (orderly_call plain).mpr fun _ => trivial

theorem Tidy.bind {action : Sync α} {continuation : α → Sync β} (first : Tidy action)
    (second : ∀ value, Tidy (continuation value)) : Tidy (action >>= continuation) := by
  have unfolded : (action >>= continuation).run =
      action.run >>= ExceptT.bindCont continuation := rfl
  unfold Tidy at first ⊢
  rw [unfolded]
  apply first.bind
  intro outcome
  cases outcome with
  | error thrown => trivial
  | ok value => exact second value

theorem Tidy.attempt {action : Sync α} (tidy : Tidy action) : Tidy (attempt action) := by
  unfold Tidy at tidy ⊢
  exact Orderly.bind tidy fun _ => trivial

theorem tidy_ask_bind (plain : request.IsPlain)
    {continuation : Result request → Sync α}
    (rest : ∀ result, Tidy (continuation result)) :
    Tidy (ask request >>= continuation) :=
  (tidy_ask request plain).bind rest

theorem markLinkError_tidy (err : Thrown) (op : String) : Tidy (markLinkError link err op) := by
  apply tidy_ask_bind
  · trivial
  intro now
  apply tidy_ask_bind
  · trivial
  intro _
  split
  · exact tidy_throw err
  · exact tidy_pure _

theorem resolveAssignee_tidy (assignees : List String) :
    Tidy (resolveAssignee requestId assignees) := by
  unfold resolveAssignee
  split
  · exact tidy_pure _
  · apply Tidy.bind (Tidy.attempt (tidy_ask (.userIdByGithubLogin _ _) trivial))
    intro outcome
    cases outcome with
    | ok userId | error thrown => exact tidy_pure _

variable (current : Task)

theorem assigneesForTask_tidy : Tidy (assigneesForTask current) := by
  unfold assigneesForTask
  split
  · exact tidy_pure _
  · apply tidy_ask_bind
    · trivial
    intro requestId
    apply Tidy.bind (Tidy.attempt (tidy_ask (.githubLoginOf _ _) trivial))
    intro outcome
    cases outcome with
    | ok login | error thrown => exact tidy_pure _

theorem setInSync_tidy (lastGithubUpdatedAt : String) (lastTaskVersion : Nat) :
    Tidy (setInSync link.id lastGithubUpdatedAt lastTaskVersion) := by
  apply tidy_ask_bind
  · trivial
  intro lastSyncedAt
  apply tidy_ask_bind
  · trivial
  intro updatedAt
  exact tidy_ask (.updateLink _ _) trivial

theorem importIssueAsTask_tidy : Tidy (importIssueAsTask requestId repo issue) := by
  apply (resolveAssignee_tidy _).bind
  intro assigneeId
  constructor
  · intro task id lastSyncedAt createdAt updatedAt
    refine ⟨⟨rfl, rfl, rfl⟩, ?_⟩
    intro linked
    cases linked with
    | error thrown => trivial
    | ok _ =>
      intro published
      cases published with
      | error thrown | ok _ => trivial
  · intro thrown
    trivial

theorem overwriteIssue_tidy : Tidy (overwriteIssue config link current issue) := by
  have pushes : Tidy (pushTaskToIssue config current issue) := by
    apply (assigneesForTask_tidy current).bind
    intro assignees
    exact tidy_ask (.updateIssue _) trivial
  exact pushes.bind fun pushed => setInSync_tidy _ _

theorem overwriteTask_tidy : Tidy (overwriteTask config requestId link current issue) := by
  have patches : Tidy (patchTaskFromIssue config requestId current issue) := by
    apply (resolveAssignee_tidy issue.assignees).bind
    intro assigneeId
    exact tidy_ask (.updateTask _ _ _ _) trivial
  exact patches.bind fun patched => setInSync_tidy _ _

theorem writeTask_tidy (result : ApplyResult) : Tidy (do
    match ← attempt (overwriteTask config requestId link current issue) with
    | .ok () => pure result
    | .error err => markLinkError link err "patchTaskFromIssue") := by
  apply (overwriteTask_tidy current).attempt.bind
  intro outcome
  cases outcome with
  | ok _ => exact tidy_pure result
  | error err => exact markLinkError_tidy err _

theorem reconcileIssueChange_tidy :
    Tidy (reconcileIssueChange config requestId repo link issue) := by
  apply Tidy.bind (Tidy.attempt (tidy_ask (.getTask _ _) trivial))
  intro read
  cases read with
  | error err => exact markLinkError_tidy err "getTask"
  | ok current =>
    simp only []
    split
    · apply tidy_ask_bind
      · trivial
      intro _
      split
      · apply (overwriteIssue_tidy current).attempt.bind
        intro outcome
        cases outcome with
        | ok _ => exact tidy_pure _
        | error err => exact markLinkError_tidy err _
      · exact writeTask_tidy current .conflict
    · exact writeTask_tidy current .updated

theorem applyWebhook_tidy (ev : ParsedIssueEvent) : Tidy (applyWebhook config requestId ev) := by
  apply tidy_ask_bind
  · trivial
  intro found
  cases found with
  | none => exact tidy_pure _
  | some repo =>
    simp only []
    split
    · exact tidy_pure _
    split
    · exact tidy_pure _
    split
    · exact tidy_pure _
    apply tidy_ask_bind
    · trivial
    intro existing
    cases existing with
    | none =>
      simp only []
      split
      · exact tidy_pure _
      · exact importIssueAsTask_tidy
    | some link => exact reconcileIssueChange_tidy

theorem dispatchWebhook_tidy (env : WebhookEventEnvelopeV1) :
    Tidy (dispatchWebhook config env) := by
  unfold dispatchWebhook
  cases env.id with
  | none => exact tidy_pure _
  | some id =>
    simp only []
    split
    · exact tidy_pure _
    apply tidy_ask_bind
    · trivial
    intro processed
    split
    · exact tidy_pure _
    split
    · exact tidy_ask (.markProcessed _) trivial
    have resolves : Tidy (resolvePayload env) := by
      unfold resolvePayload
      split
      · exact tidy_pure _
      split
      · exact tidy_pure _
      · exact tidy_ask (.getRaw _) trivial
    apply resolves.bind
    intro payload
    apply tidy_ask_bind
    · trivial
    intro now
    split
    · exact tidy_ask (.markProcessed _) trivial
    · apply (applyWebhook_tidy _).bind
      intro _
      exact tidy_ask (.markProcessed _) trivial

theorem reconcileIssues_tidy (issues : List IssueSnapshot) (stats : SyncRunStats) :
    Tidy (reconcileIssues config requestId repo issues stats) := by
  induction issues generalizing stats with
  | nil => exact tidy_pure _
  | cons issue issues ih =>
    have round : Tidy (reconcileIssue config requestId repo issue) := by
      apply tidy_ask_bind
      · trivial
      intro found
      cases found with
      | none =>
        simp only []
        split
        · exact tidy_pure _
        split
        · exact tidy_pure _
        · exact importIssueAsTask_tidy
      | some link =>
        apply tidy_ask_bind
        · trivial
        intro current
        simp only []
        split
        · exact tidy_pure _
        · exact reconcileIssueChange_tidy
    apply round.attempt.bind
    intro outcome
    cases outcome with
    | ok result => exact ih _
    | error err =>
      simp only []
      split
      · exact tidy_throw err
      · exact ih _

/-- Every consumer creates links only in the order of an import. -/
theorem program_orderly (consumer : Consumer) : Orderly none (consumer.program config) := by
  have tidy : Tidy (consumer.action config) := by
    cases consumer with
    | webhook env => exact dispatchWebhook_tidy env
    | reconcile requestId repo =>
      have reconciles : Tidy (reconcileRepo config requestId repo) := by
        unfold reconcileRepo
        split
        · exact tidy_pure _
        · apply tidy_ask_bind
          · trivial
          intro issues
          exact reconcileIssues_tidy issues {}
      exact reconciles.bind fun _ => tidy_pure _
  exact Orderly.bind tidy fun _ => trivial

end Engine

variable {world moved : World}

def World.IsLinked (world : World) (repoId : String) (issueNumber : Nat) : Prop :=
  ∃ link ∈ world.links, link.repoId = repoId ∧ link.issueNumber = issueNumber

def World.HasLink (world : World) (entry : ImportedTask) : Prop :=
  ∃ link ∈ world.links, link.repoId = entry.repoId ∧
    link.issueNumber = entry.issueNumber ∧ link.taskId = entry.taskId

/-- The same issues are linked to the same tasks, and no task was created. -/
structure World.SameImports (before after : World) : Prop where
  imported : after.imported = before.imported
  tasks : before.tasks.NoNewTask after.tasks
  kept : ∀ link ∈ before.links, ∃ later ∈ after.links, later.repoId = link.repoId ∧
    later.issueNumber = link.issueNumber ∧ later.taskId = link.taskId
  noneNew : ∀ later ∈ after.links, ∃ link ∈ before.links, link.repoId = later.repoId ∧
    link.issueNumber = later.issueNumber

theorem World.SameImports.of_eq (links : moved.links = world.links)
    (imported : moved.imported = world.imported)
    (tasks : world.tasks.NoNewTask moved.tasks) : world.SameImports moved where
  imported := imported
  tasks := tasks
  kept link member := ⟨link, links ▸ member, rfl, rfl, rfl⟩
  noneNew later member := ⟨later, links ▸ member, rfl, rfl⟩

theorem World.SameImports.refl (world : World) : world.SameImports world :=
  .of_eq rfl rfl (TaskService.World.noNewTask_of_tasks_eq rfl)

theorem World.SameImports.updateLink (world : World) (id : String) (patch : LinkPatch) :
    world.SameImports (world.updateLink id patch) where
  imported := rfl
  tasks := TaskService.World.noNewTask_of_tasks_eq rfl
  kept := by
    intro link member
    have updated : (if decide (link.id = id) then patch.apply link else link) ∈
        world.links.update (fun old => old.id = id) patch.apply fun _ => rfl :=
      mem_update.mpr ⟨link, member, rfl⟩
    refine ⟨_, updated, ?_⟩
    split
    · exact ⟨rfl, rfl, rfl⟩
    · exact ⟨rfl, rfl, rfl⟩
  noneNew := by
    intro later member
    have updated : later ∈
        world.links.update (fun old => old.id = id) patch.apply fun _ => rfl := member
    obtain ⟨link, linkMem, rfl⟩ := mem_update.mp updated
    refine ⟨link, linkMem, ?_⟩
    split
    · exact ⟨rfl, rfl⟩
    · exact ⟨rfl, rfl⟩

theorem sameImports_of_plain (plain : request.IsPlain)
    {answer : Except Thrown (Result request)}
    (answers : syncMachine.Answers request world answer moved) :
    world.SameImports moved := by
  have unmoved : moved = world → world.SameImports moved := by
    rintro rfl
    exact .refl moved
  cases request with
  | createTask repoId issueNumber requestId req | createLink link => exact plain.elim
  | updateLink id patch =>
    cases answers
    exact World.SameImports.updateLink world id patch
  | updateTask source requestId taskId req =>
    obtain ⟨-, rfl⟩ := Prod.mk.inj answers
    exact .of_eq rfl rfl (updateTask_noNewTask requestId taskId req)
  | markProcessed envelopeId =>
    obtain ⟨-, rfl⟩ := Prod.mk.inj answers
    exact .of_eq rfl rfl (TaskService.World.noNewTask_of_tasks_eq rfl)
  | getIssue owner repo number | updateIssue input | addComment owner repo number body
  | listIssues owner repo sinceIso | githubLoginOf requestId userId
  | linkCreated requestId taskId repo | conflictDetected requestId taskId | getRaw r2Key =>
    exact unmoved answers
  | _ => exact unmoved (Prod.mk.inj answers).2.symm

variable {link : LinkRecord}

theorem createLink_succeeds {answer : Except Thrown Unit}
    (answers : syncMachine.Answers (.createLink link) world answer moved)
    (fresh : ∀ row ∈ world.links, row.id ≠ link.id ∧ row.taskId ≠ link.taskId)
    (unlinked : ¬world.IsLinked link.repoId link.issueNumber) :
    answer = .ok () ∧ moved.imported = world.imported ∧ moved.tasks = world.tasks ∧
      ∀ row, row ∈ moved.links ↔ row ∈ world.links ∨ row = link := by
  have created : world.createLink link = (answer, moved) := answers
  have noneTaken : (world.links.rows.any fun row =>
      row.id = link.id ∨ row.taskId = link.taskId) = false := by
    apply any_eq_false.mpr
    intro row member
    have apart := fresh row member
    simp [apart.1, apart.2]
  unfold World.createLink at created
  rw [noneTaken] at created
  simp only [Bool.false_eq_true, if_false] at created
  split at created
  · rename_i taken
    obtain ⟨row, member, sameKey⟩ := insert?_eq_none.mp taken
    obtain ⟨sameRepo, sameNumber⟩ := Prod.mk.inj sameKey
    exact (unlinked ⟨row, member, sameRepo, sameNumber⟩).elim
  · rename_i links inserted
    cases created
    exact ⟨rfl, rfl, rfl, fun row => mem_insert? inserted⟩

variable {start : World} {owed : List ImportedTask}

def ImportedTask.issue (entry : ImportedTask) : String × Nat :=
  (entry.repoId, entry.issueNumber)

/-- The links that are owed, against the tasks created and the links there are. -/
structure Accounts (start world : World) (owed : List ImportedTask) : Prop where
  recorded : ∀ row ∈ world.tasks.tasks, (∃ old ∈ start.tasks.tasks, old.id = row.id) ∨
    ∃ entry ∈ world.imported, entry.taskId = row.id
  kept : ∀ repoId issueNumber, start.IsLinked repoId issueNumber →
    world.IsLinked repoId issueNumber
  once : (world.imported.map ImportedTask.issue).Nodup
  new : ∀ entry ∈ world.imported, ¬start.IsLinked entry.repoId entry.issueNumber
  apart : (owed.map ImportedTask.issue).Nodup
  unlinked : ∀ debt ∈ owed, ¬world.IsLinked debt.repoId debt.issueNumber
  linked : ∀ entry ∈ world.imported, world.HasLink entry ∨ entry ∈ owed

variable {entry : ImportedTask}

theorem World.HasLink.isLinked (has : world.HasLink entry) :
    world.IsLinked entry.repoId entry.issueNumber := by
  obtain ⟨link, member, sameRepo, sameNumber, -⟩ := has
  exact ⟨link, member, sameRepo, sameNumber⟩

theorem World.SameImports.isLinked_iff (same : world.SameImports moved)
    (repoId : String) (issueNumber : Nat) :
    moved.IsLinked repoId issueNumber ↔ world.IsLinked repoId issueNumber := by
  constructor
  · rintro ⟨later, member, rfl, rfl⟩
    exact same.noneNew later member
  · rintro ⟨link, member, rfl, rfl⟩
    obtain ⟨later, laterMem, sameRepo, sameNumber, -⟩ := same.kept link member
    exact ⟨later, laterMem, sameRepo, sameNumber⟩

theorem World.SameImports.hasLink (same : world.SameImports moved)
    (has : world.HasLink entry) : moved.HasLink entry := by
  obtain ⟨link, member, sameRepo, sameNumber, sameTask⟩ := has
  obtain ⟨later, laterMem, laterRepo, laterNumber, laterTask⟩ := same.kept link member
  exact ⟨later, laterMem, laterRepo.trans sameRepo, laterNumber.trans sameNumber,
    laterTask.trans sameTask⟩

theorem accounts_start (noneImported : start.imported = []) : Accounts start start [] where
  recorded row member := .inl ⟨row, member, rfl⟩
  kept _ _ isLinked := isLinked
  once := by simp [noneImported]
  new := by simp [noneImported]
  apart := nodup_nil
  unlinked := by simp
  linked := by simp [noneImported]

theorem Accounts.perm {reordered : List ImportedTask} (accounts : Accounts start world owed)
    (perm : owed.Perm reordered) : Accounts start world reordered where
  recorded := accounts.recorded
  kept := accounts.kept
  once := accounts.once
  new := accounts.new
  apart := (perm.map ImportedTask.issue).nodup_iff.mp accounts.apart
  unlinked debt member := accounts.unlinked debt (perm.mem_iff.mpr member)
  linked entry member := (accounts.linked entry member).imp_right perm.mem_iff.mp

theorem Accounts.move (accounts : Accounts start world owed)
    (same : world.SameImports moved) : Accounts start moved owed where
  recorded := by
    rw [same.imported]
    intro row member
    obtain ⟨old, oldMem, sameId⟩ := same.tasks row member
    rw [← sameId]
    exact accounts.recorded old oldMem
  kept repoId issueNumber isLinked :=
    (same.isLinked_iff repoId issueNumber).mpr (accounts.kept repoId issueNumber isLinked)
  once := by
    rw [same.imported]
    exact accounts.once
  new := by
    rw [same.imported]
    exact accounts.new
  apart := accounts.apart
  unlinked debt member isLinked :=
    accounts.unlinked debt member ((same.isLinked_iff _ _).mp isLinked)
  linked := by
    rw [same.imported]
    intro entry member
    exact (accounts.linked entry member).imp_left same.hasLink

theorem Accounts.create (accounts : Accounts start world owed)
    (sameLinks : moved.links = world.links)
    (recorded : moved.imported = entry :: world.imported)
    (rows : ∀ row ∈ moved.tasks.tasks, row ∈ world.tasks.tasks ∨ row.id = entry.taskId)
    (unlinked : ¬world.IsLinked entry.repoId entry.issueNumber)
    (noneOwed : ∀ debt ∈ owed, debt.issue ≠ entry.issue) :
    Accounts start moved (entry :: owed) where
  recorded := by
    rw [recorded]
    intro row member
    rcases rows row member with old | sameId
    · rcases accounts.recorded row old with before | ⟨other, otherMem, sameId⟩
      · exact .inl before
      · exact .inr ⟨other, mem_cons_of_mem entry otherMem, sameId⟩
    · exact .inr ⟨entry, .head _, sameId.symm⟩
  kept repoId issueNumber isLinked := by
    obtain ⟨link, member, same⟩ := accounts.kept repoId issueNumber isLinked
    exact ⟨link, sameLinks ▸ member, same⟩
  once := by
    rw [recorded, map_cons, nodup_cons]
    refine ⟨?_, accounts.once⟩
    intro again
    obtain ⟨other, member, sameIssue⟩ := List.mem_map.mp again
    rcases accounts.linked other member with has | isOwed
    · obtain ⟨sameRepo, sameNumber⟩ := Prod.mk.inj sameIssue
      apply unlinked
      rw [← sameRepo, ← sameNumber]
      exact has.isLinked
    · exact noneOwed other isOwed sameIssue
  new := by
    rw [recorded]
    exact forall_mem_cons.mpr ⟨fun isLinked => unlinked (accounts.kept _ _ isLinked), accounts.new⟩
  apart := by
    rw [map_cons, nodup_cons]
    refine ⟨?_, accounts.apart⟩
    intro again
    obtain ⟨debt, member, sameIssue⟩ := List.mem_map.mp again
    exact noneOwed debt member sameIssue
  unlinked := by
    intro debt member isLinked
    obtain ⟨link, linkMem, same⟩ := isLinked
    have isLinked : world.IsLinked debt.repoId debt.issueNumber :=
      ⟨link, sameLinks ▸ linkMem, same⟩
    rcases mem_cons.mp member with rfl | member
    · exact unlinked isLinked
    · exact accounts.unlinked debt member isLinked
  linked := by
    rw [recorded]
    intro other member
    rcases mem_cons.mp member with rfl | member
    · exact .inr (.head _)
    · rcases accounts.linked other member with ⟨link, linkMem, same⟩ | isOwed
      · exact .inl ⟨link, sameLinks ▸ linkMem, same⟩
      · exact .inr (mem_cons_of_mem entry isOwed)

theorem Accounts.settle (accounts : Accounts start world (entry :: owed))
    (sameImported : moved.imported = world.imported) (sameTasks : moved.tasks = world.tasks)
    (rows : ∀ row, row ∈ moved.links ↔ row ∈ world.links ∨ row = link)
    (fits : link.repoId = entry.repoId ∧ link.issueNumber = entry.issueNumber ∧
      link.taskId = entry.taskId) :
    Accounts start moved owed where
  recorded := by
    rw [sameImported, sameTasks]
    exact accounts.recorded
  kept repoId issueNumber isLinked := by
    obtain ⟨row, member, same⟩ := accounts.kept repoId issueNumber isLinked
    exact ⟨row, (rows row).mpr (.inl member), same⟩
  once := by
    rw [sameImported]
    exact accounts.once
  new := by
    rw [sameImported]
    exact accounts.new
  apart := (nodup_cons.mp accounts.apart).2
  unlinked := by
    intro debt member isLinked
    obtain ⟨row, rowMem, sameRepo, sameNumber⟩ := isLinked
    rcases (rows row).mp rowMem with rowMem | rfl
    · exact accounts.unlinked debt (mem_cons_of_mem entry member)
        ⟨row, rowMem, sameRepo, sameNumber⟩
    · have sameIssue : debt.issue = entry.issue :=
        Prod.ext (sameRepo.symm.trans fits.1) (sameNumber.symm.trans fits.2.1)
      apply (nodup_cons.mp accounts.apart).1
      exact List.mem_map.mpr ⟨debt, member, sameIssue⟩
  linked := by
    rw [sameImported]
    intro other member
    rcases accounts.linked other member with ⟨row, rowMem, same⟩ | isOwed
    · exact .inl ⟨row, (rows row).mpr (.inl rowMem), same⟩
    · rcases mem_cons.mp isOwed with rfl | isOwed
      · exact .inl ⟨link, (rows link).mpr (.inr rfl), fits⟩
      · exact .inr isOwed

variable {config : EngineConfig}

abbrev Thread := Consumer × EngineProg Unit

/-- A task is created only for an issue without a link that nobody else is about to link,
the ids drawn for a link are new, and nobody stops between the task and the link. -/
def importsApart : RunCondition (enginePorts.signature Thrown) World Consumer where
  mayCall request world others :=
    match request with
    | .createTask repoId issueNumber _ _ =>
      ¬world.IsLinked repoId issueNumber ∧ ∀ thread ∈ others, ∀ owed, Orderly (some owed) thread.2 →
          owed.issue ≠ (repoId, issueNumber)
    | .createLink link =>
      ∀ row ∈ world.links, row.id ≠ link.id ∧ row.taskId ≠ link.taskId
    | _ => True
  mayStop thread := ∀ owed, ¬Orderly (some owed) thread.2

/-- What each consumer owes, and the accounts of that. -/
def Books (start world : World) (threads : List Thread) : Prop :=
  ∃ debts, List.Forall₂ (fun thread debt => Orderly debt thread.2) threads debts ∧
    Accounts start world debts.reduceOption

theorem Books.perm {threads reordered : List Thread} (books : Books start world threads)
    (perm : reordered.Perm threads) : Books start world reordered := by
  obtain ⟨debts, owing, accounts⟩ := books
  obtain ⟨reorderedDebts, reorderedOwing, debtsPerm⟩ := List.perm_comp_forall₂ perm owing
  exact ⟨reorderedDebts, reorderedOwing, accounts.perm (debtsPerm.symm.filterMap id)⟩

/-- What the others owe is owed by one of them. -/
theorem exists_owes {threads : List Thread} {debts : List (Option ImportedTask)}
    (owing : List.Forall₂ (fun thread debt => Orderly debt thread.2) threads debts)
    {debt : ImportedTask} (member : debt ∈ debts.reduceOption) :
    ∃ thread ∈ threads, Orderly (some debt) thread.2 := by
  have isDebt : some debt ∈ debts := reduceOption_mem_iff.mp member
  clear member
  induction owing with
  | nil => exact absurd isDebt not_mem_nil
  | @cons thread debt threads debts orderly _ ih =>
    rcases mem_cons.mp isDebt with rfl | isDebt
    · exact ⟨thread, .head _, orderly⟩
    · obtain ⟨other, member, owes⟩ := ih isDebt
      exact ⟨other, mem_cons_of_mem thread member, owes⟩

theorem Books.call {op : Consumer} {request : Call}
    {next : Except Thrown (Result request) → EngineProg Unit} {threads : List Thread}
    {answer : Except Thrown (Result request)}
    (books : Books start world ((op, .call request next) :: threads))
    (permitted : importsApart.mayCall request world threads)
    (answers : syncMachine.Answers request world answer moved) :
    Books start moved ((op, next answer) :: threads) := by
  obtain ⟨_, owing, accounts⟩ := books
  cases owing with
  | @cons _ debt _ debts orderly rest =>
    cases debt with
    | none =>
      by_cases plain : request.IsPlain
      · exact ⟨none :: debts, .cons ((orderly_call plain).mp orderly answer) rest,
          accounts.move (sameImports_of_plain plain answers)⟩
      cases request with
      | createLink link => exact orderly.elim
      | createTask repoId issueNumber requestId req =>
        obtain ⟨unlinked, noneElse⟩ := permitted
        obtain ⟨sameLinks, ⟨thrown, rfl, sameImported, sameTasks⟩ |
          ⟨inserted, rfl, recorded, rows⟩⟩ := createTask_cases answers
        · have same : world.SameImports moved :=
            .of_eq sameLinks sameImported
              (TaskService.World.noNewTask_of_tasks_eq (by rw [sameTasks]))
          exact ⟨none :: debts, .cons (orderly.2 thrown) rest, accounts.move same⟩
        · refine ⟨some _ :: debts, .cons (orderly.1 inserted.toTask) rest, ?_⟩
          apply accounts.create sameLinks recorded _ unlinked
          · intro debt member
            obtain ⟨thread, threadMem, owes⟩ := exists_owes rest member
            exact noneElse thread threadMem debt owes
          · intro row member
            rcases (rows row).mp member with old | rfl
            · exact .inl old
            · exact .inr rfl
      | _ => exact (plain trivial).elim
    | some owed =>
      cases request with
      | createLink link =>
        obtain ⟨⟨sameRepo, sameNumber, sameTask⟩, further⟩ := orderly
        have unlinked : ¬world.IsLinked link.repoId link.issueNumber := by
          rw [sameRepo, sameNumber]
          exact accounts.unlinked owed (.head _)
        obtain ⟨-, sameImported, sameTasks, rows⟩ :=
          createLink_succeeds answers permitted unlinked
        exact ⟨none :: debts, .cons (further answer) rest,
          accounts.settle sameImported sameTasks rows ⟨sameRepo, sameNumber, sameTask⟩⟩
      | newId kind | now =>
        cases answers
        exact ⟨some owed :: debts, .cons (orderly _) rest, accounts⟩
      | _ => exact orderly.elim

theorem Books.stop {thread : Thread} {threads : List Thread}
    (books : Books start world (thread :: threads))
    (owesNone : ∀ owed, ¬Orderly (some owed) thread.2) : Books start world threads := by
  obtain ⟨_, owing, accounts⟩ := books
  cases owing with
  | @cons _ debt _ debts orderly rest =>
    cases debt with
    | none => exact ⟨debts, rest, accounts⟩
    | some owed => exact (owesNone owed orderly).elim

theorem Books.step {before after : Config (enginePorts.signature Thrown) World Consumer}
    (step : (consumers config).StepUnder importsApart before after)
    (books : Books start before.world before.threads) :
    Books start after.world after.threads := by
  cases step with
  | start op startable =>
    obtain ⟨debts, owing, accounts⟩ := books
    exact ⟨none :: debts, .cons (program_orderly op) owing, accounts⟩
  | call op request next answer moved permitted answers =>
    have first := books.perm perm_middle.symm
    exact (first.call permitted answers).perm perm_middle
  | @environment world moved threads moves =>
    obtain ⟨debts, owing, accounts⟩ := books
    have same : world.SameImports { world with around := moved.around } :=
      .of_eq rfl rfl (TaskService.World.noNewTask_of_tasks_eq rfl)
    have isMoved : moved = { world with around := moved.around } := moves
    rw [← isMoved] at same
    exact ⟨debts, owing, accounts.move same⟩
  | stop thread permitted =>
    exact (books.perm perm_middle.symm).stop permitted

/-- For each issue at most one task is created, and none for an issue that has a link. -/
structure OneTaskPerIssue (start final : World) : Prop where
  recorded : ∀ row ∈ final.tasks.tasks, (∃ old ∈ start.tasks.tasks, old.id = row.id) ∨
    ∃ entry ∈ final.imported, entry.taskId = row.id
  once : (final.imported.map ImportedTask.issue).Nodup
  new : ∀ entry ∈ final.imported, ¬start.IsLinked entry.repoId entry.issueNumber

/-- In every run, at most one task is created for an issue, and once nothing is in flight
every task that was created has its link. -/
def ImportsOnce (config : EngineConfig)
    (condition : RunCondition (enginePorts.signature Thrown) World Consumer) : Prop :=
  ∀ start final, start.imported = [] → (consumers config).ReachableUnder condition start final →
      OneTaskPerIssue start final.world ∧
        (final.threads = [] → ∀ entry ∈ final.world.imported, final.world.HasLink entry)

/-- Imports that stay apart import every issue once. -/
theorem importsOnce_of_importsApart (config : EngineConfig) :
    ImportsOnce config importsApart := by
  intro start final noneImported reached
  have books : Books start final.world final.threads := by
    apply reached.keeps
    · exact ⟨[], .nil, accounts_start noneImported⟩
    · intro before after step books
      exact books.step step
  obtain ⟨debts, owing, accounts⟩ := books
  refine ⟨⟨accounts.recorded, accounts.once, accounts.new⟩, ?_⟩
  intro noThreads entry member
  rw [noThreads] at owing
  cases owing with
  | nil =>
    rcases accounts.linked entry member with has | isOwed
    · exact has
    · exact absurd isOwed not_mem_nil

def newIssue : World :=
  { linkedIssue with
    links := .empty
    tasks := { linkedIssue.tasks with tasks := .empty }
    around := { plainSurroundings with getEvent := fun _ => some ⟨none⟩ } }

def issueOpened : WebhookEventEnvelopeV1 where
  id := some "evt_1"
  source := "github"
  eventKind := "issues"
  requestId := "req_1"
  payload := some (.object
    { action := some "opened", sender := some ⟨some "human"⟩
      repositoryName := some "web", repositoryOwner := some ⟨some "acme"⟩
      issue := some
        { number := some 5, node_id := some "node_5", title := some "new issue"
          body := none, state := some "open", labels := [], assignees := []
          updated_at := some "2026-08-11T00:00:00Z" } })
  r2Key := none

/-- The delivery is repeated while the first one is about to create the task. -/
def redelivered : List (Move (enginePorts.signature Thrown) World Consumer) :=
  let first := List.replicate 4 (.call 0 noAnswer)
  (.start (.webhook issueOpened) :: first) ++ (.start (.webhook issueOpened) :: first) ++
    [.call 1 noAnswer,
      .environment fun world => { world with around := { world.around with drawn := "task_3" } },
      .call 0 noAnswer]

/-- A repeated delivery creates a second task. -/
theorem not_importsOnce : ¬ImportsOnce engineConfig anyStep := by
  intro kept
  obtain ⟨config, reached, twice⟩ :=
    (openReferee (consumers engineConfig) fun _ _ => trivial).exists_reachable_of_play
      redelivered newIssue
      (fun world => ¬(world.imported.map ImportedTask.issue).Nodup)
      (by
        intro moved member world
        simp only [redelivered, mem_append, mem_cons, mem_replicate,
          not_mem_nil, reduceCtorEq, and_false, or_false, false_or,
          Move.environment.injEq] at member
        subst member
        rfl)
      (by decide +kernel)
  obtain ⟨once, -⟩ := kept newIssue config rfl (reachableUnder_anyStep reached)
  exact of_decide_eq_true twice once.once

end DubEcosystem.GithubSync
