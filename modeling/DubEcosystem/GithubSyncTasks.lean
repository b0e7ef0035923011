import DubEcosystem.GithubSyncWorld
import DubEcosystem.TaskServiceGuards

/-!
# github-sync: which tasks there are

A `POST` that succeeds inserts the row of the task that it returns, one that fails inserts
none, and a `PATCH` inserts none either.
-/

namespace DubEcosystem.TaskService

open Interleaving SequentialPrograms Prog

section Runs

variable {α : Type} {outside : (statement : Statement) → statement.Answer}
  {world before after : World String}

def World.NoNewTask (before after : World String) : Prop :=
  ∀ row ∈ after.tasks, ∃ old ∈ before.tasks, old.id = row.id

theorem World.noNewTask_update {selected : TaskRow String → Bool}
    {change : TaskRow String → TaskRow String}
    {keepsId : ∀ row, (change row).id = row.id} :
    world.NoNewTask { world with tasks := world.tasks.update selected change keepsId } := by
  intro row member
  have updated : row ∈ world.tasks.update selected change keepsId := member
  obtain ⟨old, oldMem, rfl⟩ := KeyedTable.mem_update.mp updated
  refine ⟨old, oldMem, ?_⟩
  split
  · exact (keepsId old).symm
  · rfl

theorem World.noNewTask_of_tasks_eq (same : after.tasks = before.tasks) :
    before.NoNewTask after := by
  intro row member
  exact ⟨row, same ▸ member, rfl⟩

def Statement.InsertsNone : Statement → Prop
  | .insert _ => False
  | _ => True

theorem noNewTask_of_answers {statement : Statement} {answer : statement.Answer}
    (insertsNone : statement.InsertsNone)
    (answers : statementMachine.Answers statement before answer after) :
    before.NoNewTask after := by
  by_cases reads : statement.Reads
  · rw [unmoved_of_reads reads answers]
    exact World.noNewTask_of_tasks_eq rfl
  cases statement with
  | insert input => exact insertsNone.elim
  | update id patch version now | archive id now | bumpVersion id version now =>
    cases answers
    exact World.noNewTask_update
  | replaceEdges taskId dependsOnIds now =>
    cases answers
    exact World.noNewTask_of_tasks_eq rfl
  | _ => exact (reads trivial).elim

variable {program : Handler α}

theorem run_noNewTask (insertsNone : program.Issues Statement.InsertsNone) (world : World String) :
    world.NoNewTask (run statementMachine outside program world).2 := by
  apply run_keeps _ _ noNewTask_of_answers insertsNone
  · intro world row member
    exact ⟨row, member, rfl⟩
  · intro first second third earlier later row member
    obtain ⟨middle, middleMem, sameId⟩ := later row member
    obtain ⟨old, oldMem, oldId⟩ := earlier middle middleMem
    exact ⟨old, oldMem, oldId.trans sameId⟩

theorem run_reads (reads : program.Issues Statement.Reads)
    (world : World String) : (run statementMachine outside program world).2 = world := by
  have kept : world = (run statementMachine outside program world).2 :=
    run_keeps (fun _ => rfl) Eq.trans
      (fun read answers => (unmoved_of_reads read answers).symm) reads world
  exact kept.symm

theorem insertsNone_of_reads (reads : program.Issues Statement.Reads) :
    program.Issues Statement.InsertsNone := by
  apply reads.mono
  intro statement isRead
  cases statement with
  | insert input => exact isRead.elim
  | _ => trivial

variable (ctx : RequestContext)

theorem updateTask_insertsNone (id : String) (body : Option UpdateTaskRequest) :
    (updateTask ctx id body).Issues Statement.InsertsNone := by
  unfold updateTask
  split
  · trivial
  apply Issues.perform_bind trivial
  intro found
  cases found with
  | none => trivial
  | some current =>
    simp only []
    split
    · trivial
    split
    · trivial
    apply (insertsNone_of_reads (checkAssignee_reads _)).bind
    intro verdict
    cases verdict with
    | error thrown => trivial
    | ok _ =>
      apply (insertsNone_of_reads (checkTeams_reads _ _ _)).bind
      intro verdict
      cases verdict with
      | error thrown => trivial
      | ok _ =>
        simp only []
        unfold writeTask
        split
        · trivial
        apply Issues.perform_bind trivial
        intro now
        apply Issues.perform_bind trivial
        intro landed
        split
        · apply Issues.perform_bind trivial
          intro found
          cases found with
          | none => trivial
          | some updated =>
            exact (insertsNone_of_reads (emitSpecs_reads _ _)).bind fun _ => trivial
        · trivial

theorem run_updateTask_noNewTask (id : String)
    (body : Option UpdateTaskRequest) (world : World String) :
    world.NoNewTask (run statementMachine outside (updateTask ctx id body) world).2 :=
  run_noNewTask (updateTask_insertsNone ctx id body) world

/-- A request that creates a task ends either without one, or with the row of the task
that it returns. -/
def Creates (world : World String) (handled : Outcome × World String) : Prop :=
  (∃ thrown, handled.1 = .error thrown ∧ handled.2 = world) ∨
    ∃ inserted, handled.1 = .ok (.created inserted.toTask) ∧
      ∀ row, row ∈ handled.2.tasks ↔ row ∈ world.tasks ∨ row = inserted

/-- What only reads, and may end the request, comes before. -/
theorem creates_check {check : Handler Verdict} (reads : check.Issues Statement.Reads)
    {rest : Handler Outcome}
    (creates : Creates world (run statementMachine outside rest world)) :
    Creates world (run statementMachine outside (do
      let verdict : Verdict ← check
      match verdict with
      | .error thrown => pure (.error thrown)
      | .ok () => rest) world) := by
  rw [run_bind, run_reads reads]
  cases (run statementMachine outside check world).1 with
  | error thrown => exact .inl ⟨thrown, rfl, rfl⟩
  | ok _ => exact creates

theorem insert_creates (input : InsertTaskInput) (specs : Task String → List (EventSpec String)) :
    Creates world (run statementMachine outside (do
      let inserted : Option (Task String) ← issue (.insert input)
      match inserted with
      | none => pure (.error .internal)
      | some created => do
        emitSpecs ctx (specs created)
        pure (.ok (.created created))) world) := by
  have executed : statementMachine.exec (.insert input) world =
      some ((world.insert input).1, (world.insert input).2) := rfl
  apply Eq.mpr (congrArg (Creates world) (run_call executed))
  unfold World.insert
  split
  · exact .inl ⟨_, rfl, rfl⟩
  split
  · exact .inl ⟨_, rfl, rfl⟩
  · rename_i tasks inserted
    simp only [Prog.bind]
    rw [run_bind, run_reads (emitSpecs_reads _ _)]
    exact .inr ⟨_, rfl, fun row => KeyedTable.mem_insert? inserted⟩

theorem insertTask_creates (body : CreateTaskRequest) (title : String) :
    Creates world (run statementMachine outside (insertTask ctx body title) world) := by
  apply Eq.mpr (congrArg (Creates world) (run_call_outside rfl))
  apply Eq.mpr (congrArg (Creates world) (run_call_outside rfl))
  exact insert_creates ctx _ _

theorem createTask_creates (body : Option CreateTaskRequest) :
    Creates world (run statementMachine outside (createTask ctx body) world) := by
  unfold createTask
  cases body with
  | none => exact .inl ⟨_, rfl, rfl⟩
  | some body =>
    simp only []
    split
    · exact .inl ⟨_, rfl, rfl⟩
    apply creates_check (checkEvent_reads _)
    apply creates_check (checkAssignee_reads _)
    apply creates_check (checkParent_reads _ _)
    exact insertTask_creates ctx body _

end Runs

end DubEcosystem.TaskService

namespace DubEcosystem.GithubSync

open Interleaving SequentialPrograms
open TaskService (statementMachine)

variable {world moved : World}

theorem createTask_cases {repoId requestId : String} {issueNumber : Nat}
    {req : CreateTaskRequest} {answer : Except Thrown Task}
    (answers : syncMachine.Answers (.createTask repoId issueNumber requestId req) world
      answer moved) :
    moved.links = world.links ∧
      ((∃ thrown, answer = .error thrown ∧ moved.imported = world.imported ∧
          moved.tasks = world.tasks) ∨
        ∃ inserted : TaskService.TaskRow String, answer = .ok inserted.toTask ∧
          moved.imported = ⟨repoId, issueNumber, inserted.id⟩ :: world.imported ∧
            ∀ row, row ∈ moved.tasks.tasks ↔ row ∈ world.tasks.tasks ∨ row = inserted) := by
  have created : world.createTask repoId issueNumber requestId req = (answer, moved) :=
    answers
  have creates : TaskService.Creates world.tasks (world.handle
      (TaskService.createTask (sysCtx world.around requestId) (some req.body))) :=
    TaskService.createTask_creates _ _
  unfold World.createTask at created
  generalize world.handle (TaskService.createTask (sysCtx world.around requestId)
    (some req.body)) = handled at created creates
  obtain ⟨outcome, tasks⟩ := handled
  rcases creates with ⟨thrown, rfl, rfl⟩ | ⟨inserted, rfl, rows⟩
  · cases created
    exact ⟨rfl, .inl ⟨_, rfl, rfl, rfl⟩⟩
  · cases created
    exact ⟨rfl, .inr ⟨inserted, rfl, rfl, rows⟩⟩

theorem updateTask_noNewTask (requestId taskId : String) (req : UpdateTaskRequest) :
    world.tasks.NoNewTask (world.updateTask requestId taskId req).2.tasks := by
  have same : (world.updateTask requestId taskId req).2.tasks = (world.handle
      (TaskService.updateTask (sysCtx world.around requestId) taskId (some req.body))).2 := by
    unfold World.updateTask
    simp only []
  rw [same]
  apply TaskService.run_updateTask_noNewTask

end DubEcosystem.GithubSync
