import DubEcosystem.TaskServiceHandlers

/-!
# task-service: the guards under concurrent requests

Every check of a `PATCH` is made on a row read earlier.  Each write of a task is either
conditional on the version that was read or ends the task's life, and each of them
raises the version, so a write that lands meets the very row its request has checked.
-/

namespace DubEcosystem.TaskService

open Interleaving KeyedTable List Option

def World.Evolves (before after : World String) : Prop :=
  ∀ row ∈ before.tasks, ∃ later ∈ after.tasks,
    later.id = row.id ∧ (later = row ∨ row.version < later.version)

theorem World.Evolves.refl (world : World String) : world.Evolves world := by
  intro row member
  exact ⟨row, member, rfl, Or.inl rfl⟩

theorem World.Evolves.trans {first second third : World String}
    (earlier : first.Evolves second) (later : second.Evolves third) :
    first.Evolves third := by
  intro row member
  obtain ⟨middle, middleMem, middleId, middleSame⟩ := earlier row member
  obtain ⟨last, lastMem, lastId, lastSame⟩ := later middle middleMem
  refine ⟨last, lastMem, lastId.trans middleId, ?_⟩
  rcases middleSame with rfl | grown
  · exact lastSame
  · rcases lastSame with rfl | further
    · exact Or.inr grown
    · exact Or.inr (grown.trans further)

variable {before after : World String}

theorem World.evolves_of_tasks_eq (same : after.tasks = before.tasks) : before.Evolves after := by
  intro row member
  exact ⟨row, same ▸ member, rfl, Or.inl rfl⟩

variable {world : World String}

theorem World.evolves_update {selected : TaskRow String → Bool}
    {change : TaskRow String → TaskRow String} {keepsId : ∀ row, (change row).id = row.id}
    (raises : ∀ row, (change row).version = row.version + 1) : world.Evolves { world with tasks := world.tasks.update selected change keepsId } := by
  intro row member
  have present : (if selected row then change row else row) ∈
      world.tasks.update selected change keepsId :=
    mem_update.mpr ⟨row, member, rfl⟩
  refine ⟨_, present, ?_⟩
  split
  · refine ⟨keepsId row, Or.inr ?_⟩
    rw [raises row]
    omega
  · exact ⟨rfl, Or.inl rfl⟩

theorem World.evolves_insert {input : InsertTaskInput} : world.Evolves (world.insert input).2 := by
  unfold World.insert
  split
  · exact .refl world
  · split
    · exact .refl world
    · rename_i tasks inserted
      intro row member
      exact ⟨row, (mem_insert? inserted).mpr (Or.inl member), rfl, Or.inl rfl⟩

theorem evolves_of_answers {request : Statement} {answer : request.Answer}
    (answers : statementMachine.Answers request before answer after) : before.Evolves after := by
  have unmoved : after = before → before.Evolves after := by
    rintro rfl
    exact .refl _
  cases request with
  | insert input =>
    obtain ⟨-, rfl⟩ := Prod.mk.inj answers
    exact World.evolves_insert
  | update id patch version now | archive id now | bumpVersion id version now =>
    cases answers
    exact World.evolves_update fun row => rfl
  | replaceEdges taskId dependsOnIds now =>
    cases answers
    exact World.evolves_of_tasks_eq rfl
  | getById id includeArchived | liveChildrenTeams parentId | listLiveTasksByEvent eventId
  | listDependenciesByEvent eventId | getDependsOn taskId =>
    exact unmoved (Prod.mk.inj answers).2.symm
  | nowIso | newId | getEvent eventId | userExists userId | emit requestId actorId specs
  | record input | respond outcome =>
    exact unmoved answers

/-- The task as it was read, unless its row has a later version by now. -/
def World.Knows (world : World String) (current : Task String) : Prop :=
  ∃ row ∈ world.tasks, row.id = current.id ∧ (row.toTask = current ∨ current.version < row.version)

variable {current : Task String}

theorem World.Knows.evolve (knows : before.Knows current)
    (evolves : before.Evolves after) : after.Knows current := by
  obtain ⟨row, member, named, same⟩ := knows
  obtain ⟨later, laterMem, laterId, laterSame⟩ := evolves row member
  refine ⟨later, laterMem, laterId.trans named, ?_⟩
  rcases laterSame with rfl | grown
  · exact same
  · rcases same with rfl | further
    · exact Or.inr grown
    · exact Or.inr (further.trans grown)

theorem knows_of_getById {id : String} {includeArchived : Bool}
    (found : world.getById id includeArchived = some current) :
    world.Knows current ∧ current.id = id := by
  unfold World.getById at found
  obtain ⟨row, isRow, rfl⟩ := map_eq_some_iff.mp found
  obtain ⟨isFound, -⟩ := filter_eq_some_iff.mp isRow
  obtain ⟨member, named⟩ := find?_eq_some.mp isFound
  exact ⟨⟨row, member, rfl, Or.inl rfl⟩, named⟩

theorem World.Knows.at_version (knows : world.Knows current)
    {row : TaskRow String} (member : row ∈ world.tasks)
    (atVersion : isAtVersion current.id current.version row = true) : row.toTask = current := by
  obtain ⟨known, knownMem, named, same⟩ := knows
  simp only [isAtVersion, decide_eq_true_eq, Nat.cast_inj] at atVersion
  obtain ⟨rowId, version, -⟩ := atVersion
  obtain rfl := eq_of_key_eq knownMem member (named.trans rowId.symm)
  rcases same with read | grown
  · exact read
  · omega

structure KeepsProtected (before after : Task String) : Prop where
  title : after.title = before.title
  description : after.description = before.description
  status : after.status = before.status
  priority : after.priority = before.priority
  assigneeId : after.assigneeId = before.assigneeId
  dueAt : after.dueAt = before.dueAt

/-- A row changed on behalf of `principal` as the rules allow. -/
structure GuardedChange (principal : Principal) (before after : TaskRow String) : Prop where
  version : after.version = before.version + 1
  status : after.status ≠ before.status →
    after.status ∈ TASK_STATUS_TRANSITIONS before.status
  readonly : before.origin = .github → isServiceRole principal = false →
    KeepsProtected before.toTask after.toTask

theorem getD_of_not_differs {α : Type} [DecidableEq α] {given : Option α} {current : α}
    (same : differs given current = false) : given.getD current = current := by
  cases given with
  | none => rfl
  | some value => simpa [differs] using same

variable {row : TaskRow String} {patch : TaskPatch}

theorem keepsProtected_of_blockedFields
    (none : blockedFields row.toTask patch = []) (now : String) :
    KeepsProtected row.toTask (patch.apply now row).toTask := by
  have same : ∀ name ∈ PROTECTED_ORIGIN_FIELDS, name ∉ blockedFields row.toTask patch := by
    intro name _
    rw [none]
    exact not_mem_nil
  simp only [blockedFields, PROTECTED_ORIGIN_FIELDS, mem_cons, not_mem_nil,
    or_false, forall_eq_or_imp, forall_eq, mem_filter, mem_append] at same
  obtain ⟨title, description, status, priority, assigneeId, dueAt⟩ := same
  exact
    { title := getD_of_not_differs (by simpa using title)
      description := getD_of_not_differs (by simpa using description)
      status := getD_of_not_differs (by simpa using status)
      priority := getD_of_not_differs (by simpa using priority)
      assigneeId := getD_of_not_differs (by simpa using assigneeId)
      dueAt := getD_of_not_differs (by simpa using dueAt) }

theorem guardedChange_of_checkPatch {principal : Principal}
    (passed : checkPatch principal row.toTask patch = .ok ())
    (now : String) : GuardedChange principal row (patch.apply now row) := by
  unfold checkPatch at passed
  split at passed
  · cases passed
  · rename_i originPassed
    refine { version := rfl, status := ?_, readonly := ?_ }
    · intro changed
      cases given : patch.status with
      | none => simp [TaskPatch.apply, given] at changed
      | some status =>
        simp only [TaskPatch.apply, given, getD_some, ne_eq] at changed ⊢
        simp only [checkStatusChange, given, ne_eq, changed, not_false_eq_true, if_true,
          assertStatusTransition, Ne.symm changed, if_false] at passed
        by_contra illegal
        simp [illegal] at passed
    · intro isGithub notService
      apply keepsProtected_of_blockedFields
      simp only [checkOrigin, isGithub, notService, Bool.false_eq_true, not_false_eq_true,
        and_self, if_true] at originPassed
      split at originPassed
      · cases originPassed
      · rename_i empty
        simpa using empty

def Statement.Allowed (principal : Principal) : Statement → World String → Prop
  | .update id patch version now, world =>
    ∀ row ∈ world.tasks, isAtVersion id version row = true →
      GuardedChange principal row (patch.apply now row)
  | _, _ => True

/-- Any number of requests at once over one store. -/
def taskRequests : System statements (World String) Request where
  toMachine := statementMachine
  program := Request.program
  startable _ _ := True
  environment _ _ := False

/-- Every request issues its statements under the rules, and no row is lost or goes
back to an earlier version. -/
def guardDiscipline : Discipline taskRequests :=
  .uniform taskRequests (fun _ => True)
    (fun request statement world => statement.Allowed request.ctx.principal world)
    World.Evolves World.Evolves.refl (fun earlier later => earlier.trans later)
    (fun _ _ answers => ⟨trivial, evolves_of_answers answers⟩)
    (fun _ moves => moves.elim)

section Programs

open Prog

variable {α : Type} {request : Request}

def Statement.Free (statement : Statement) : Prop :=
  ∀ principal world, statement.Allowed principal world

/-- A statement that writes nothing. -/
def Statement.Reads : Statement → Prop
  | .insert _ => False
  | .update _ _ _ _ => False
  | .archive _ _ => False
  | .bumpVersion _ _ _ => False
  | .replaceEdges _ _ _ => False
  | _ => True

theorem unmoved_of_reads {statement : Statement} (reads : statement.Reads)
    {answer : statement.Answer}
    (answers : statementMachine.Answers statement before answer after) :
    after = before := by
  cases statement with
  | insert input | update id patch version now | archive id now | bumpVersion id version now
  | replaceEdges taskId dependsOnIds now =>
    exact reads.elim
  | nowIso | newId | getEvent eventId | userExists userId | emit requestId actorId specs
  | record input | respond outcome =>
    exact answers
  | getById id includeArchived | liveChildrenTeams parentId | listLiveTasksByEvent eventId
  | listDependenciesByEvent eventId | getDependsOn taskId =>
    exact (Prod.mk.inj answers).2.symm

variable {program : Handler α}

theorem issues_free (reads : program.Issues Statement.Reads) : program.Issues Statement.Free := by
  apply reads.mono
  intro statement isRead principal world
  cases statement with
  | update id patch version now => exact isRead.elim
  | _ => trivial

theorem checkAssignee_reads (given : Option String) :
    (checkAssignee given).Issues Statement.Reads := by
  unfold checkAssignee
  split
  · trivial
  · apply Issues.perform_bind trivial
    intro found
    split <;> trivial

theorem checkEvent_reads (eventId : Option String) :
    (checkEvent eventId).Issues Statement.Reads := by
  unfold checkEvent
  split
  · trivial
  · apply Issues.perform_bind trivial
    intro found
    cases found with
    | none => trivial
    | some ref =>
      simp only []
      split <;> trivial

theorem checkParent_reads (team parentId : Option String) :
    (checkParent team parentId).Issues Statement.Reads := by
  unfold checkParent
  split
  · trivial
  · apply Issues.perform_bind trivial
    intro found
    cases found with
    | none => trivial
    | some parent =>
      simp only []
      split <;> trivial

variable (id : String)

theorem checkChildren_reads (team : Option String) :
    (checkChildren id team).Issues Statement.Reads := by
  apply Issues.perform_bind trivial
  intro childTeams
  split <;> trivial

theorem checkTeams_reads (current : Task String) (patch : TaskPatch) :
    (checkTeams id current patch).Issues Statement.Reads := by
  unfold checkTeams
  split
  · apply (checkParent_reads _ _).bind
    intro verdict
    cases verdict with
    | error thrown => trivial
    | ok passed =>
      simp only []
      split
      · exact checkChildren_reads _ _
      · trivial
  · trivial

theorem checkBucket_reads (current : Task String) (ids : List String) :
    (checkBucket id current ids).Issues Statement.Reads := by
  apply Issues.perform_bind trivial
  intro bucketTasks
  simp only []
  split
  · trivial
  · exact Issues.perform_bind trivial fun _ => trivial

variable (ctx : RequestContext)

theorem emitSpecs_reads (specs : List (EventSpec String)) :
    (emitSpecs ctx specs).Issues Statement.Reads := by
  unfold emitSpecs
  split
  · trivial
  · exact Issues.perform trivial

theorem createTask_free (body : Option CreateTaskRequest) :
    (createTask ctx body).Issues Statement.Free := by
  unfold createTask
  cases body with
  | none => trivial
  | some body =>
    simp only []
    split
    · trivial
    apply (issues_free (checkEvent_reads _)).bind
    intro verdict
    cases verdict with
    | error thrown => trivial
    | ok passed =>
      apply (issues_free (checkAssignee_reads _)).bind
      intro verdict
      cases verdict with
      | error thrown => trivial
      | ok passed =>
        apply (issues_free (checkParent_reads _ _)).bind
        intro verdict
        cases verdict with
        | error thrown => trivial
        | ok passed =>
          apply Issues.perform_bind fun _ _ => trivial
          intro now
          apply Issues.perform_bind fun _ _ => trivial
          intro id
          apply Issues.perform_bind fun _ _ => trivial
          intro inserted
          cases inserted with
          | none => trivial
          | some created => exact (issues_free (emitSpecs_reads _ _)).bind fun _ => trivial

theorem deleteTask_free (id : String) : (deleteTask ctx id).Issues Statement.Free := by
  apply Issues.perform_bind fun _ _ => trivial
  intro found
  cases found with
  | none => trivial
  | some current =>
    apply Issues.perform_bind fun _ _ => trivial
    intro now
    apply Issues.perform_bind fun _ _ => trivial
    intro archived
    split
    · apply (issues_free (emitSpecs_reads _ _)).bind
      intro _
      apply Issues.perform_bind fun _ _ => trivial
      intro occurredAt
      apply Issues.perform_bind fun _ _ => trivial
      intro _
      exact Issues.perform_bind (fun _ _ => trivial) fun _ => trivial
    · trivial

theorem putEdges_free (id : String) (body : Option (ReplaceDependenciesRequest String)) :
    (putEdges ctx id body).Issues Statement.Free := by
  unfold putEdges
  split
  · trivial
  apply Issues.perform_bind fun _ _ => trivial
  intro found
  cases found with
  | none => trivial
  | some current =>
    simp only []
    split
    · trivial
    apply (issues_free (checkBucket_reads _ _ _)).bind
    intro verdict
    cases verdict with
    | error thrown => trivial
    | ok passed =>
      apply Issues.perform_bind fun _ _ => trivial
      intro now
      have replaced : ∀ version ids, (replaceDependencies id ids version now).Issues
          Statement.Free := by
        intro version ids
        apply Issues.perform_bind fun _ _ => trivial
        intro existing
        apply Issues.perform_bind fun _ _ => trivial
        intro landed
        split
        · exact Issues.perform_bind (fun _ _ => trivial) fun _ => trivial
        · trivial
      apply (replaced _ _).bind
      intro result
      split
      · apply (issues_free (emitSpecs_reads _ _)).bind
        intro _
        apply Issues.perform_bind fun _ _ => trivial
        intro occurredAt
        exact Issues.perform_bind (fun _ _ => trivial) fun _ => trivial
      · trivial

theorem respects_of_free (free : program.Issues Statement.Free) (world : World String) :
    guardDiscipline.Respects request program (fun _ _ => True) world := by
  apply Discipline.respects_of_issues
  exact free.mono fun statement allowed world _ => allowed _ world

theorem respects_knows (free : program.Issues Statement.Free) (knows : world.Knows current) :
    guardDiscipline.Respects request program (fun _ later => later.Knows current)
      world := by
  have kept : ∀ {before after : World String}, before.Evolves after →
      before.Knows current → after.Knows current :=
    fun moves known => known.evolve moves
  exact (Discipline.Respects.frame kept kept (respects_of_free free world)
    knows).consequence fun _ _ both => both.2

theorem writeTask_respects {ctx : RequestContext} (isCtx : request.ctx = ctx)
    (passed : checkPatch ctx.principal current patch = .ok ())
    (knows : world.Knows current) :
    guardDiscipline.Respects request
      (writeTask ctx current.id current patch current.version) (fun _ _ => True)
      world := by
  unfold writeTask
  split
  · exact fun _ _ _ => trivial
  · intro before _ moves
    refine ⟨trivial, fun now after answers _ _ => ?_⟩
    obtain rfl : after = before := answers
    have known : after.Knows current := knows.evolve moves
    intro later _ further
    constructor
    · intro row member atVersion
      have read := (known.evolve further).at_version member atVersion
      subst read
      rw [isCtx]
      exact guardedChange_of_checkPatch passed now
    · intro landed _ _ _ _
      apply respects_of_free
      cases landed with
      | false => trivial
      | true =>
        apply Issues.perform_bind fun _ _ => trivial
        intro found
        cases found with
        | none => trivial
        | some updated => exact (issues_free (emitSpecs_reads _ _)).bind fun _ => trivial

theorem updateTask_respects {ctx : RequestContext} (isCtx : request.ctx = ctx)
    (id : String) (body : Option UpdateTaskRequest) (world : World String) :
    guardDiscipline.Respects request (updateTask ctx id body) (fun _ _ => True)
      world := by
  unfold updateTask
  split
  · exact fun _ _ _ => trivial
  intro before _ _
  refine ⟨trivial, fun found after answers _ _ => ?_⟩
  obtain ⟨isFound, rfl⟩ := Prod.mk.inj answers
  cases found with
  | none => exact fun _ _ _ => trivial
  | some current =>
    obtain ⟨knows, rfl⟩ := knows_of_getById isFound
    simp only [Prog.bind]
    split
    · exact fun _ _ _ => trivial
    rename_i version
    obtain rfl := not_not.mp version
    split
    · exact fun _ _ _ => trivial
    rename_i passed
    apply Discipline.Respects.bind (respects_knows (issues_free (checkAssignee_reads _)) knows)
    intro verdict world _ knows
    cases verdict with
    | error thrown => exact fun _ _ _ => trivial
    | ok _ =>
      apply Discipline.Respects.bind (respects_knows (issues_free (checkTeams_reads _ _ _)) knows)
      intro verdict world _ knows
      cases verdict with
      | error thrown => exact fun _ _ _ => trivial
      | ok _ => exact writeTask_respects isCtx passed knows

theorem guardDiscipline_programsRespect : guardDiscipline.ProgramsRespect := by
  intro running request world _ _
  have handled : guardDiscipline.Respects request request.handler (fun _ _ => True)
      world := by
    cases request with
    | createTask ctx body => exact respects_of_free (createTask_free ctx body) world
    | updateTask ctx id body => exact updateTask_respects rfl id body world
    | deleteTask ctx id => exact respects_of_free (deleteTask_free ctx id) world
    | putEdges ctx id body => exact respects_of_free (putEdges_free ctx id body) world
  apply handled.bind
  intro outcome world _ _
  have free : (issue (.respond outcome)).Issues Statement.Free :=
    Issues.perform fun _ _ => trivial
  exact respects_of_free free world

end Programs

end DubEcosystem.TaskService
