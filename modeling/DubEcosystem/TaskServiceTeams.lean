import DubEcosystem.TaskServiceConcurrency
import DubEcosystem.TaskServiceDependencies

/-!
# task-service: the teams that dependencies join

A dependency joins two tasks of one team, and a child is of the team of its parent.
`PUT /tasks/:id/dependencies` asks for the first, `POST /tasks` and `PATCH /tasks/:id`
for the second.  The requests are handled one at a time.
-/

namespace DubEcosystem.TaskService

open Interleaving GanttCalc List KeyedTable Option

namespace World

/-- The dependency is stored. -/
def Depends (world : World String) (taskId dependsOnId : String) : Prop :=
  ∃ edge ∈ world.dependencies, edge.taskId = taskId ∧ edge.dependsOnId = dependsOnId

/-- Dependencies, and children with their parents, join live tasks of one team. -/
structure OneTeam (world : World String) : Prop where
  dependencies : ∀ task ∈ world.tasks, ∀ other ∈ world.tasks, task.isLive → other.isLive →
    world.Depends task.id other.id → task.teamId = other.teamId
  children : ∀ child ∈ world.tasks, ∀ parent ∈ world.tasks, child.isLive → parent.isLive →
    child.parentTaskId = some parent.id → child.teamId = parent.teamId

def FitsParent (world : World String) (team parentId : Option String) : Prop :=
  ∀ parent ∈ world.tasks, parent.isLive → parentId = some parent.id → parent.id ≠ "" →
    parent.teamId = team

def FitsChildren (world : World String) (id : String) (team : Option String) : Prop :=
  ∀ child ∈ world.tasks, child.isLive → child.parentTaskId = some id → child.teamId = team

def FitsTeam (world : World String) (taskId : String) (dependsOnIds : List String) :
    Prop :=
  ∀ task ∈ world.tasks, task.isLive → task.id = taskId →
    ∀ other ∈ world.tasks, other.isLive → other.id ∈ dependsOnIds → task.teamId = other.teamId

end World

/-- What the handlers have asked for before they write. -/
def Statement.TeamChecked : Statement → World String → Prop
  | .insert input, world => world.FitsParent input.teamId input.parentId
  | .update id patch version _, world =>
    ∀ row ∈ world.tasks, isAtVersion id version row = true →
      (patch.teamId.isSome ∨ patch.parentId.isSome → world.FitsParent (patch.teamId.getD row.teamId)
          (patch.parentId.getD row.parentTaskId)) ∧
      (patch.teamId.isSome → world.FitsChildren id (patch.teamId.getD row.teamId))
  | .replaceEdges taskId dependsOnIds _, world => world.FitsTeam taskId dependsOnIds
  | _, _ => True

/-- Requests handled one at a time; one may be dropped at any statement. -/
def soleRequests : System statements (World String) Request where
  toMachine := statementMachine
  program := Request.program
  startable running _ := running = []
  environment _ _ := False

/-- A request sees only its own writes, and issues each after its checks. -/
def teamDiscipline : Discipline soleRequests where
  inv _ := True
  pre _ := Statement.TeamChecked
  evolves _ _ := True
  rely _ before after := after = before
  coexist _ _ := False
  rely_refl _ _ := rfl
  rely_trans first second := second.trans first
  call_sound _ _ _ := ⟨trivial, trivial, fun _ together => together.elim⟩
  environment_sound _ moves := moves.elim
  start_sound := by
    rintro running op rfl other member
    cases member

section Checks

open Prog

variable {α : Type} {request : Request} {world : World String}

theorem teamChecked_of_reads {statement : Statement} (reads : statement.Reads)
    (world : World String) : statement.TeamChecked world := by
  cases statement with
  | insert input | update id patch version now | replaceEdges taskId dependsOnIds now =>
    exact reads.elim
  | _ => trivial

variable {program : Handler α}

theorem respects_reads (reads : program.Issues Statement.Reads) (world : World String) :
    teamDiscipline.Respects request program (fun _ later => later = world) world := by
  induction program with
  | done value => exact fun later _ same => same
  | call statement next ih =>
    intro later _ same
    refine ⟨teamChecked_of_reads reads.1 later, fun answer moved answers _ _ => ?_⟩
    have unmoved : moved = world := (unmoved_of_reads reads.1 answers).trans same
    subst unmoved
    exact ih answer (reads.2 answer)

theorem respects_rest (reads : program.Issues Statement.Reads) (world : World String) :
    teamDiscipline.Respects request program (fun _ _ => True) world :=
  (respects_reads reads world).consequence fun _ _ _ => trivial

theorem respects_read {statement : Statement} (reads : statement.Reads)
    {next : statement.Answer → Handler α} {post : α → World String → Prop}
    (rest : ∀ answer, statementMachine.Answers statement world answer world →
      teamDiscipline.Respects request (next answer) post world) :
    teamDiscipline.Respects request (.call statement next) post world := by
  intro later _ same
  obtain rfl : later = world := same
  refine ⟨teamChecked_of_reads reads later, fun answer moved answers _ _ => ?_⟩
  obtain rfl := unmoved_of_reads reads answers
  exact rest answer answers

theorem respects_value {value : α} {post : α → World String → Prop} (holds : post value world) :
    teamDiscipline.Respects request (.done value) post world := by
  intro later _ same
  obtain rfl : later = world := same
  exact holds

abbrev Decides (world : World String) (fits : Prop) (verdict : Verdict)
    (later : World String) : Prop :=
  later = world ∧ (verdict = .ok () → fits)

theorem checkParent_decides (team parentId : Option String) :
    teamDiscipline.Respects request (checkParent team parentId)
      (Decides world (world.FitsParent team parentId)) world := by
  unfold checkParent
  cases given : parentId.filter fun parent => parent ≠ "" with
  | none =>
    apply respects_value
    refine ⟨rfl, ?_⟩
    rintro - parent - - rfl notEmpty
    simp [notEmpty] at given
  | some text =>
    obtain ⟨rfl, -⟩ := filter_eq_some_iff.mp given
    apply @respects_read _ _ _ (.getById text false) trivial
    intro found answers
    have isFound : world.getById text false = found := (Prod.mk.inj answers).1
    have isParent : ∀ parent ∈ world.tasks, parent.isLive →
        some text = some parent.id → found = some parent.toTask := by
      intro parent member live named
      rw [← isFound, some.inj named]
      exact getById_of_live member live
    cases found with
    | none =>
      apply respects_value
      refine ⟨rfl, ?_⟩
      intro _ parent member live named _
      cases isParent parent member live named
    | some found =>
      simp only [Prog.bind]
      split
      · exact respects_value ⟨rfl, by simp⟩
      · rename_i sameTeam
        apply respects_value
        refine ⟨rfl, ?_⟩
        intro _ parent member live named _
        cases isParent parent member live named
        exact not_not.mp sameTeam

theorem checkChildren_decides (id : String) (team : Option String) :
    teamDiscipline.Respects request (checkChildren id team)
      (Decides world (world.FitsChildren id team)) world := by
  apply @respects_read _ _ _ (.liveChildrenTeams id) trivial
  intro childTeams answers
  have isTeams : world.liveChildrenTeams id = childTeams := (Prod.mk.inj answers).1
  simp only [Prog.bind]
  split
  · exact respects_value ⟨rfl, by simp⟩
  · rename_i matching
    apply respects_value
    refine ⟨rfl, ?_⟩
    intro _ child member live isChild
    have listed : child.teamId ∈ childTeams := by
      rw [← isTeams]
      simp only [World.liveChildrenTeams, mem_dedup, List.mem_map, mem_filter, decide_eq_true_eq]
      exact ⟨child, ⟨member, isChild, live⟩, rfl⟩
    simpa using List.find?_eq_none.mp matching child.teamId listed

/-- What `checkTeams` accepts of a patch. -/
structure FitsTeams (world : World String) (id : String) (current : Task String)
    (patch : TaskPatch) : Prop where
  parent : patch.teamId.isSome ∨ patch.parentId.isSome →
    world.FitsParent (patch.teamId.getD current.teamId) (patch.parentId.getD current.parentTaskId)
  children : patch.teamId.isSome →
    world.FitsChildren id (patch.teamId.getD current.teamId)

theorem checkTeams_decides (id : String) (current : Task String) (patch : TaskPatch) :
    teamDiscipline.Respects request (checkTeams id current patch)
      (Decides world (FitsTeams world id current patch)) world := by
  unfold checkTeams
  split
  · apply (checkParent_decides _ _).bind
    rintro verdict later - ⟨rfl, fitsParent⟩
    cases verdict with
    | error thrown => exact respects_value ⟨rfl, by simp⟩
    | ok passed =>
      simp only []
      split
      · apply (checkChildren_decides _ _).consequence
        rintro verdict final ⟨rfl, fitsChildren⟩
        exact ⟨rfl, fun passed => ⟨fun _ => fitsParent rfl, fun _ =>
          fitsChildren passed⟩⟩
      · rename_i noTeam
        exact respects_value ⟨rfl, fun _ => ⟨fun _ => fitsParent rfl, fun given =>
          (noTeam given).elim⟩⟩
  · rename_i neither
    rw [not_or] at neither
    exact respects_value ⟨rfl, fun _ => ⟨fun given => (not_or.mpr neither given).elim,
      fun given => (neither.1 given).elim⟩⟩

variable {dependsOnIds : List String}

theorem requested_of_checkDependencies {id : String} {liveIds : List String}
    {others : List (TaskDependency String)}
    (passed : checkDependencies liveIds (requestedGraph id others dependsOnIds) = .ok ())
    {dep : String} (requested : dep ∈ dependsOnIds) : dep ∈ liveIds := by
  have noUnknown : unknownRefs liveIds (requestedGraph id others dependsOnIds) = [] := by
    by_contra unknown
    obtain ⟨ref, isUnknown⟩ := exists_mem_of_ne_nil _ unknown
    have positive := length_pos_of_mem (mem_sorted.mpr isUnknown)
    simp [checkDependencies, validateDependencies, positive] at passed
  have edge : ⟨id, dep⟩ ∈ others ++ dependsOnIds.map (TaskDependency.mk id) :=
    mem_append_right others (mem_map_of_mem requested)
  exact (unknownRefs_eq_nil.mp noUnknown _ (mem_map_of_mem edge)).2

theorem mem_listLiveTasksByEvent {eventId : Option String} {shown : LiveTask String} :
    shown ∈ world.listLiveTasksByEvent eventId ↔
      ∃ row ∈ world.tasks, row.eventId = eventId ∧ row.isLive ∧ shown = ⟨row.id, row.teamId⟩ := by
  simp only [World.listLiveTasksByEvent, List.mem_map, mem_filter, decide_eq_true_eq]
  constructor
  · rintro ⟨row, ⟨member, inBucket, live⟩, rfl⟩
    exact ⟨row, member, inBucket, live, rfl⟩
  · rintro ⟨row, member, inBucket, live, rfl⟩
    exact ⟨row, ⟨member, inBucket, live⟩, rfl⟩

theorem team_of_crossTeamIds {eventId team : Option String}
    (noneCross : crossTeamIds (world.listLiveTasksByEvent eventId) team dependsOnIds = [])
    {other : TaskRow String} (member : other ∈ world.tasks)
    (requested : other.id ∈ dependsOnIds)
    (inBucket : other.id ∈ (world.listLiveTasksByEvent eventId).map LiveTask.id) :
    other.teamId = team := by
  obtain ⟨shown, shownMem, shownId⟩ := List.mem_map.mp inBucket
  cases found : (world.listLiveTasksByEvent eventId).reverse.find?
      fun task => task.id = other.id with
  | none =>
    have missing := List.find?_eq_none.mp found shown (mem_reverse.mpr shownMem)
    simp [shownId] at missing
  | some task =>
    have isId : task.id = other.id := by simpa using find?_some found
    obtain ⟨row, rowMem, -, -, rfl⟩ := mem_listLiveTasksByEvent.mp
      (mem_reverse.mp (mem_of_find?_eq_some found))
    obtain rfl := eq_of_key_eq rowMem member isId
    by_contra otherTeam
    have crosses : row.id ∈ crossTeamIds (world.listLiveTasksByEvent eventId) team dependsOnIds :=
      mem_filter.mpr ⟨requested, by simp [found, otherTeam]⟩
    rw [noneCross] at crosses
    cases crosses

theorem checkBucket_decides {id : String} {current : Task String}
    (found : world.getById id false = some current) (dependsOnIds : List String) :
    teamDiscipline.Respects request (checkBucket id current dependsOnIds)
      (Decides world (world.FitsTeam id dependsOnIds)) world := by
  apply @respects_read _ _ _ (.listLiveTasksByEvent current.eventId) trivial
  intro bucketTasks answers
  obtain rfl : world.listLiveTasksByEvent current.eventId = bucketTasks :=
    (Prod.mk.inj answers).1
  simp only [Prog.bind]
  split
  · exact respects_value ⟨rfl, by simp⟩
  · rename_i noneCross
    simp only [length_pos_iff, ne_eq, not_not] at noneCross
    apply @respects_read _ _ _ (.listDependenciesByEvent current.eventId) trivial
    intro edges _
    apply respects_value
    refine ⟨rfl, ?_⟩
    intro accepted task taskMem taskLive isTask other otherMem _ requested
    have isCurrent : task.toTask = current := by
      have foundTask := getById_of_live taskMem taskLive
      rw [isTask, found] at foundTask
      exact (some.inj foundTask).symm
    have listed := requested_of_checkDependencies accepted requested
    rw [team_of_crossTeamIds noneCross otherMem requested listed, ← isCurrent]

end Checks

section Programs

open Prog

variable {request : Request} {world : World String}

theorem createTask_respects (ctx : RequestContext) (body : Option CreateTaskRequest) :
    teamDiscipline.Respects request (createTask ctx body) (fun _ _ => True) world := by
  unfold createTask
  cases body with
  | none => exact respects_value trivial
  | some body =>
    simp only []
    split
    · exact respects_value trivial
    apply (respects_reads (checkEvent_reads _) world).bind
    rintro verdict later - rfl
    cases verdict with
    | error thrown => exact respects_value trivial
    | ok passed =>
      apply (respects_reads (checkAssignee_reads _) later).bind
      rintro verdict later - rfl
      cases verdict with
      | error thrown => exact respects_value trivial
      | ok passed =>
        apply (checkParent_decides _ _).bind
        rintro verdict later - ⟨rfl, fits⟩
        cases verdict with
        | error thrown => exact respects_value trivial
        | ok passed =>
          apply @respects_read _ _ _ .nowIso trivial
          intro now _
          apply @respects_read _ _ _ .newId trivial
          intro id _ world _ same
          obtain rfl : world = later := same
          refine ⟨fits rfl, fun inserted moved _ _ _ => ?_⟩
          cases inserted with
          | none => exact respects_value trivial
          | some created =>
            apply respects_rest
            exact (emitSpecs_reads _ _).bind fun _ => trivial

variable {ctx : RequestContext} {current : Task String}

theorem writeTask_teamRespects {id : String} (found : world.getById id false = some current)
    {patch : TaskPatch} (fits : FitsTeams world id current patch) (version : ℚ) :
    teamDiscipline.Respects request (writeTask ctx id current patch version)
      (fun _ _ => True) world := by
  unfold writeTask
  split
  · exact respects_value trivial
  · apply @respects_read _ _ _ .nowIso trivial
    intro now _ later _ same
    obtain rfl : later = world := same
    refine ⟨?_, fun landed moved _ _ _ => ?_⟩
    · intro row member atVersion
      simp only [isAtVersion, decide_eq_true_eq] at atVersion
      obtain ⟨rfl, -, live⟩ := atVersion
      have isCurrent : row.toTask = current := by
        rw [getById_of_live member live] at found
        exact some.inj found
      subst isCurrent
      exact ⟨fits.parent, fits.children⟩
    · cases landed with
      | false => exact respects_value trivial
      | true =>
        apply respects_rest
        apply Issues.perform_bind trivial
        intro updated
        cases updated with
        | none => trivial
        | some updated => exact (emitSpecs_reads _ _).bind fun _ => trivial

theorem updateTask_teamRespects (ctx : RequestContext) (id : String)
    (body : Option UpdateTaskRequest) :
    teamDiscipline.Respects request (updateTask ctx id body) (fun _ _ => True)
      world := by
  unfold updateTask
  split
  · exact respects_value trivial
  apply @respects_read _ _ _ (.getById id false) trivial
  intro found answers
  have isFound : world.getById id false = found := (Prod.mk.inj answers).1
  cases found with
  | none => exact respects_value trivial
  | some current =>
    simp only [Prog.bind]
    split
    · exact respects_value trivial
    split
    · exact respects_value trivial
    apply (respects_reads (checkAssignee_reads _) world).bind
    rintro verdict later - rfl
    cases verdict with
    | error thrown => exact respects_value trivial
    | ok passed =>
      apply (checkTeams_decides _ _ _).bind
      rintro verdict later - ⟨rfl, fits⟩
      cases verdict with
      | error thrown => exact respects_value trivial
      | ok passed => exact writeTask_teamRespects isFound (fits rfl) _

theorem deleteTask_teamRespects (ctx : RequestContext) (id : String) :
    teamDiscipline.Respects request (deleteTask ctx id) (fun _ _ => True) world := by
  apply @respects_read _ _ _ (.getById id false) trivial
  intro found _
  cases found with
  | none => exact respects_value trivial
  | some current =>
    apply @respects_read _ _ _ .nowIso trivial
    intro now _ later _ _
    refine ⟨trivial, fun archived moved _ _ _ => ?_⟩
    cases archived with
    | false => exact respects_value trivial
    | true =>
      apply respects_rest
      apply (emitSpecs_reads _ _).bind
      intro _
      apply Issues.perform_bind trivial
      intro occurredAt
      apply Issues.perform_bind trivial
      intro _
      exact Issues.perform_bind trivial fun _ => trivial

def World.TeamsFrom (after before : World String) : Prop :=
  ∀ row ∈ after.tasks, row.isLive → ∃ old ∈ before.tasks, old.isLive ∧ old.id = row.id ∧
    old.teamId = row.teamId ∧ old.parentTaskId = row.parentTaskId

theorem World.teamsFrom_update {selected : TaskRow String → Bool}
    {change : TaskRow String → TaskRow String}
    {keepsKey : ∀ row, (change row).id = row.id}
    (keepsTeam : ∀ row, (change row).teamId = row.teamId)
    (keepsParent : ∀ row, (change row).parentTaskId = row.parentTaskId)
    (revivesNone : ∀ row, (change row).isLive → row.isLive) :
    World.TeamsFrom { world with tasks := world.tasks.update selected change keepsKey }
      world := by
  intro row member live
  have updated : row ∈ world.tasks.update selected change keepsKey := member
  obtain ⟨old, oldMem, rfl⟩ := mem_update.mp updated
  refine ⟨old, oldMem, ?_⟩
  split at live
  · rename_i chosen
    rw [if_pos chosen]
    exact ⟨revivesNone old live, (keepsKey old).symm, (keepsTeam old).symm, (keepsParent old).symm⟩
  · rename_i spared
    rw [if_neg spared]
    exact ⟨live, rfl, rfl, rfl⟩

theorem World.teamsFrom_bumpVersion (id : String) (version : ℚ) (now : String) :
    (world.bumpVersion id version now).2.TeamsFrom world :=
  World.teamsFrom_update (fun _ => rfl) (fun _ => rfl) fun _ live => live

theorem World.teamsFrom_archive (id now : String) : (world.archive id now).2.TeamsFrom world :=
  World.teamsFrom_update (fun _ => rfl) (fun _ => rfl)
    fun _ live => by simp [TaskRow.isLive] at live

variable {dependsOnIds : List String}

theorem World.FitsTeam.of_teamsFrom {after : World String} {taskId : String}
    (fits : world.FitsTeam taskId dependsOnIds)
    (teams : after.TeamsFrom world) : after.FitsTeam taskId dependsOnIds := by
  intro task taskMem taskLive isTask other otherMem otherLive requested
  obtain ⟨oldTask, oldTaskMem, oldTaskLive, taskSame, taskTeam, -⟩ :=
    teams task taskMem taskLive
  obtain ⟨old, oldMem, oldLive, otherSame, otherTeam, -⟩ := teams other otherMem otherLive
  rw [← taskTeam, ← otherTeam]
  rw [← otherSame] at requested
  exact fits oldTask oldTaskMem oldTaskLive (taskSame.trans isTask) old oldMem oldLive requested

theorem writeEdges_respects {id : String} (fits : world.FitsTeam id dependsOnIds) (version : ℚ) :
    teamDiscipline.Respects request (writeEdges ctx id current dependsOnIds version)
      (fun _ _ => True) world := by
  apply @respects_read _ _ _ .nowIso trivial
  intro now _
  apply @respects_read _ _ _ (.getDependsOn id) trivial
  intro existing _ later _ same
  obtain rfl : later = world := same
  refine ⟨trivial, fun landed moved answers _ _ => ?_⟩
  obtain ⟨-, rfl⟩ := Prod.mk.inj answers
  cases landed with
  | false => exact respects_value trivial
  | true =>
    intro final _ same
    refine ⟨?_, fun _ written _ _ _ => ?_⟩
    · obtain rfl : final = _ := same
      exact fits.of_teamsFrom (World.teamsFrom_bumpVersion id version now)
    apply respects_rest
    apply (emitSpecs_reads _ _).bind
    intro _
    apply Issues.perform_bind trivial
    intro occurredAt
    exact Issues.perform_bind trivial fun _ => trivial

theorem putEdges_teamRespects (ctx : RequestContext) (id : String)
    (body : Option (ReplaceDependenciesRequest String)) :
    teamDiscipline.Respects request (putEdges ctx id body) (fun _ _ => True) world := by
  unfold putEdges
  split
  · exact respects_value trivial
  apply @respects_read _ _ _ (.getById id false) trivial
  intro found answers
  have isFound : world.getById id false = found := (Prod.mk.inj answers).1
  cases found with
  | none => exact respects_value trivial
  | some current =>
    simp only [Prog.bind]
    split
    · exact respects_value trivial
    apply (checkBucket_decides isFound _).bind
    rintro verdict later - ⟨rfl, fits⟩
    cases verdict with
    | error thrown => exact respects_value trivial
    | ok passed => exact writeEdges_respects (fits rfl) _

theorem teamDiscipline_programsRespect : teamDiscipline.ProgramsRespect := by
  intro running request world _ _
  have handled : teamDiscipline.Respects request request.handler (fun _ _ => True)
      world := by
    cases request with
    | createTask ctx body => exact createTask_respects ctx body
    | updateTask ctx id body => exact updateTask_teamRespects ctx id body
    | deleteTask ctx id => exact deleteTask_teamRespects ctx id
    | putEdges ctx id body => exact putEdges_teamRespects ctx id body
  apply handled.bind
  intro outcome world _ _
  have reads : (issue (.respond outcome)).Issues Statement.Reads := Issues.perform trivial
  exact respects_rest reads world

end Programs

variable {world : World String}

variable {after : World String}

theorem World.OneTeam.of_teamsFrom (oneTeam : world.OneTeam)
    (edges : ∀ taskId dependsOnId, after.Depends taskId dependsOnId →
      world.Depends taskId dependsOnId)
    (teams : after.TeamsFrom world) : after.OneTeam where
  dependencies := by
    intro task taskMem other otherMem taskLive otherLive depends
    obtain ⟨oldTask, oldTaskMem, oldTaskLive, taskSame, taskTeam, -⟩ :=
      teams task taskMem taskLive
    obtain ⟨old, oldMem, oldLive, otherSame, otherTeam, -⟩ := teams other otherMem otherLive
    rw [← taskTeam, ← otherTeam]
    rw [← taskSame, ← otherSame] at depends
    exact oneTeam.dependencies oldTask oldTaskMem old oldMem oldTaskLive oldLive (edges _ _ depends)
  children := by
    intro child childMem parent parentMem childLive parentLive isParent
    obtain ⟨oldChild, oldChildMem, oldChildLive, -, childTeam, childParent⟩ :=
      teams child childMem childLive
    obtain ⟨old, oldMem, oldLive, parentSame, parentTeam, -⟩ :=
      teams parent parentMem parentLive
    rw [← childTeam, ← parentTeam]
    rw [← childParent, ← parentSame] at isParent
    exact oneTeam.children oldChild oldChildMem old oldMem oldChildLive oldLive isParent

/-- A row that fits every other live task may take the place of the row with its id. -/
structure World.Fits (world : World String) (next : TaskRow String) : Prop where
  dependencies : ∀ other ∈ world.tasks, other.isLive → other.id ≠ next.id →
    world.Depends next.id other.id ∨ world.Depends other.id next.id → other.teamId = next.teamId
  parent : ∀ other ∈ world.tasks, other.isLive → other.id ≠ next.id →
    next.parentTaskId = some other.id → other.teamId = next.teamId
  children : ∀ other ∈ world.tasks, other.isLive → other.id ≠ next.id →
    other.parentTaskId = some next.id → other.teamId = next.teamId

theorem World.OneTeam.replace {next : TaskRow String}
    (oneTeam : world.OneTeam) (fits : world.Fits next)
    (edges : after.dependencies = world.dependencies)
    (rows : ∀ row ∈ after.tasks, row = next ∨ row ∈ world.tasks ∧ row.id ≠ next.id) :
    after.OneTeam where
  dependencies := by
    intro task taskMem other otherMem taskLive otherLive depends
    rw [World.Depends, edges] at depends
    rcases rows task taskMem with rfl | ⟨taskOld, taskApart⟩
    · rcases rows other otherMem with rfl | ⟨otherOld, otherApart⟩
      · rfl
      · exact (fits.dependencies other otherOld otherLive otherApart (.inl depends)).symm
    · rcases rows other otherMem with rfl | ⟨otherOld, otherApart⟩
      · exact fits.dependencies task taskOld taskLive taskApart (.inr depends)
      · exact oneTeam.dependencies task taskOld other otherOld taskLive otherLive depends
  children := by
    intro child childMem parent parentMem childLive parentLive isParent
    rcases rows child childMem with rfl | ⟨childOld, childApart⟩
    · rcases rows parent parentMem with rfl | ⟨parentOld, parentApart⟩
      · rfl
      · exact (fits.parent parent parentOld parentLive parentApart isParent).symm
    · rcases rows parent parentMem with rfl | ⟨parentOld, parentApart⟩
      · exact fits.children child childOld childLive childApart isParent
      · exact oneTeam.children child childOld parent parentOld childLive parentLive isParent

/-- A patch of the team meets no dependency on another live task, no live task has the
empty id that a given parent may name, and a new task does not meet dependencies or
children that are there before it. -/
def MovesNoArrow : Statement → World String → Prop
  | .insert input, world =>
    (∀ other ∈ world.tasks, other.isLive →
      world.Depends input.id other.id ∨ world.Depends other.id input.id →
        other.teamId = input.teamId) ∧
    world.FitsChildren input.id input.teamId ∧
    (input.parentId = some "" → ∀ other ∈ world.tasks, other.isLive → other.id = "" →
      other.teamId = input.teamId)
  | .update id patch version _, world =>
    ∀ row ∈ world.tasks, isAtVersion id version row = true →
      (patch.teamId.getD row.teamId ≠ row.teamId →
        ∀ other ∈ world.tasks, other.isLive → other.id ≠ id →
          ¬(world.Depends id other.id ∨ world.Depends other.id id)) ∧
      (patch.teamId.isSome ∨ patch.parentId.isSome →
        patch.parentId.getD row.parentTaskId = some "" →
          ∀ other ∈ world.tasks, other.isLive → other.id = "" →
            other.teamId = patch.teamId.getD row.teamId)
  | _, _ => True

section

variable {id : String} {now : String} {patch : TaskPatch} {version : ℚ}
  (checked : (Statement.update id patch version now).TeamChecked world)
include checked

theorem World.OneTeam.fits_update (oneTeam : world.OneTeam)
    (spares : MovesNoArrow (.update id patch version now) world) {row : TaskRow String}
    (member : row ∈ world.tasks) (atVersion : isAtVersion id version row = true) :
    world.Fits (patch.apply now row) := by
  obtain ⟨parentChecked, childrenChecked⟩ := checked row member atVersion
  obtain ⟨sparesArrows, sparesEmpty⟩ := spares row member atVersion
  simp only [isAtVersion, decide_eq_true_eq] at atVersion
  obtain ⟨rfl, -, live⟩ := atVersion
  constructor
  · intro other otherMem otherLive apart depends
    by_cases moves : patch.teamId.getD row.teamId = row.teamId
    · have sameTeam : other.teamId = row.teamId := by
        rcases depends with forward | backward
        · exact (oneTeam.dependencies row member other otherMem live otherLive forward).symm
        · exact oneTeam.dependencies other otherMem row member otherLive live backward
      exact sameTeam.trans moves.symm
    · exact (sparesArrows moves other otherMem otherLive apart depends).elim
  · intro other otherMem otherLive apart isParent
    change patch.parentId.getD row.parentTaskId = some other.id at isParent
    change other.teamId = patch.teamId.getD row.teamId
    by_cases given : patch.teamId.isSome ∨ patch.parentId.isSome
    · by_cases empty : other.id = ""
      · rw [empty] at isParent
        exact sparesEmpty given isParent other otherMem otherLive empty
      · exact parentChecked given other otherMem otherLive isParent empty
    · simp only [not_or, Option.not_isSome_iff_eq_none] at given
      rw [given.2, getD_none] at isParent
      rw [given.1, getD_none]
      exact (oneTeam.children row member other otherMem live otherLive isParent).symm
  · intro other otherMem otherLive apart isChild
    change other.teamId = patch.teamId.getD row.teamId
    by_cases given : patch.teamId.isSome
    · exact childrenChecked given other otherMem otherLive isChild
    · rw [Option.not_isSome_iff_eq_none.mp given, getD_none]
      exact oneTeam.children other otherMem row member otherLive live isChild

theorem World.OneTeam.update (oneTeam : world.OneTeam)
    (spares : MovesNoArrow (.update id patch version now) world) :
    (world.update id patch version now).2.OneTeam := by
  have rowOf : ∀ {row}, row ∈ (world.update id patch version now).2.tasks → ∃ old ∈ world.tasks,
        (if isAtVersion id version old then patch.apply now old else old) = row := by
    intro row member
    have updated : row ∈ world.tasks.update (isAtVersion id version) (patch.apply now)
      fun _ => rfl := member
    exact mem_update.mp updated
  by_cases lands : ∃ row ∈ world.tasks, isAtVersion id version row = true
  · obtain ⟨target, targetMem, atVersion⟩ := lands
    have rows : ∀ row ∈ (world.update id patch version now).2.tasks,
        row = patch.apply now target ∨ row ∈ world.tasks ∧ row.id ≠ target.id := by
      intro row member
      obtain ⟨old, oldMem, rfl⟩ := rowOf member
      by_cases same : old.id = target.id
      · obtain rfl := eq_of_key_eq oldMem targetMem same
        exact .inl (if_pos atVersion)
      · have missed : ¬isAtVersion id version old = true := by
          intro oldAtVersion
          simp only [isAtVersion, decide_eq_true_eq] at atVersion oldAtVersion
          exact same (oldAtVersion.1.trans atVersion.1.symm)
        rw [if_neg missed]
        exact .inr ⟨oldMem, same⟩
    exact oneTeam.replace (oneTeam.fits_update checked spares targetMem atVersion) rfl rows
  · have teams : (world.update id patch version now).2.TeamsFrom world := by
      intro row member live
      obtain ⟨old, oldMem, rfl⟩ := rowOf member
      rw [if_neg fun atVersion => lands ⟨old, oldMem, atVersion⟩] at live ⊢
      exact ⟨old, oldMem, live, rfl, rfl, rfl⟩
    exact oneTeam.of_teamsFrom (fun _ _ depends => depends) teams

end

theorem World.OneTeam.insert (oneTeam : world.OneTeam) {input : InsertTaskInput}
    (checked : (Statement.insert input).TeamChecked world)
    (spares : MovesNoArrow (.insert input) world) : (world.insert input).2.OneTeam := by
  obtain ⟨fitsEdges, fitsChildren, fitsEmpty⟩ := spares
  unfold World.insert
  cases input.origin with
  | none => exact oneTeam
  | some origin =>
    cases inserted : world.tasks.insert? (input.row origin) with
    | none => simpa only [inserted] using oneTeam
    | some tasks =>
      simp only [inserted]
      have fits : world.Fits (input.row origin) := by
        constructor
        · intro other otherMem otherLive _ depends
          exact fitsEdges other otherMem otherLive depends
        · intro other otherMem otherLive _ isParent
          by_cases empty : other.id = ""
          · rw [empty] at isParent
            exact fitsEmpty isParent other otherMem otherLive empty
          · exact checked other otherMem otherLive isParent empty
        · intro other otherMem otherLive _ isChild
          exact fitsChildren other otherMem otherLive isChild
      have rows : ∀ row ∈ tasks, row = input.row origin ∨
          row ∈ world.tasks ∧ row.id ≠ (input.row origin).id := by
        intro row member
        rcases (mem_insert? inserted).mp member with old | isNew
        · exact .inr ⟨old, (insert?_eq_some inserted).2 row old⟩
        · exact .inl isNew
      exact oneTeam.replace fits rfl rows

theorem World.OneTeam.replaceEdges (oneTeam : world.OneTeam) {taskId : String}
    {dependsOnIds : List String} (fits : world.FitsTeam taskId dependsOnIds)
    (now : String) :
    OneTeam { world with
      dependencies := TaskService.replaceEdges world.dependencies taskId dependsOnIds
        now } where
  dependencies := by
    rintro task taskMem other otherMem taskLive otherLive ⟨edge, edgeMem, isTask, isOther⟩
    rcases mem_replaceEdges edgeMem with ⟨old, -⟩ | ⟨ofTask, requested⟩
    · exact oneTeam.dependencies task taskMem other otherMem taskLive otherLive
        ⟨edge, old, isTask, isOther⟩
    · rw [isOther] at requested
      exact fits task taskMem taskLive (isTask.symm.trans ofTask) other otherMem otherLive requested
  children := oneTeam.children

theorem World.OneTeam.step {before : World String}
    (step : teamDiscipline.WorldStep MovesNoArrow before after) (oneTeam : before.OneTeam) :
    after.OneTeam := by
  cases step with
  | environment _ moves => exact moves.elim
  | call op request answer _ spares checked answers =>
    by_cases reads : request.Reads
    · obtain rfl := unmoved_of_reads reads answers
      exact oneTeam
    · cases request with
      | insert input =>
        obtain ⟨-, rfl⟩ := Prod.mk.inj answers
        exact oneTeam.insert checked spares
      | update id patch version now =>
        cases answers
        exact oneTeam.update checked spares
      | archive id now =>
        cases answers
        exact oneTeam.of_teamsFrom (fun _ _ depends => depends) (World.teamsFrom_archive id now)
      | bumpVersion id version now =>
        cases answers
        exact oneTeam.of_teamsFrom (fun _ _ depends => depends)
          (World.teamsFrom_bumpVersion id version now)
      | replaceEdges taskId dependsOnIds now =>
        cases answers
        exact oneTeam.replaceEdges checked now
      | _ => exact (reads trivial).elim

/-- From a store in which dependencies and parents join one team, requests that are
handled one at a time reach only such stores. -/
def KeepsOneTeam (allowed : statements.Call → World String → Prop) (world : World String) :
    Prop :=
  ∀ config, world.OneTeam → soleRequests.ReachableWhere allowed world config → config.world.OneTeam

/-- Teams stay together in every run in which no patch moves a task away from a live task
that a dependency joins it with. -/
theorem keepsOneTeam_of_movesNoArrow (world : World String) :
    KeepsOneTeam MovesNoArrow world := by
  intro config oneTeam reached
  exact teamDiscipline.property_of_reachable teamDiscipline_programsRespect World.OneTeam
    trivial oneTeam (fun step => World.OneTeam.step step) reached

def teammates : World String where
  tasks := ⟨[freshRow "A" (some "x"), freshRow "B" (some "x")], by decide⟩
  dependencies := ⟨[⟨⟨"A", "B"⟩, "2026-06-01T00:00:00.000Z"⟩], by decide⟩
  processed := []

def moveTeam : Request :=
  .updateTask ⟨"r", .user "u", "o"⟩ "A" (some { version := some 1, teamId := .value "y" })

theorem teammates_oneTeam : teammates.OneTeam := by
  have ofX : ∀ row ∈ teammates.tasks, row.teamId = some "x" ∧ row.parentTaskId = none := by
    intro row member
    have listed : row ∈ [freshRow "A" (some "x"), freshRow "B" (some "x")] := member
    rcases mem_pair.mp listed with rfl | rfl <;> exact ⟨rfl, rfl⟩
  constructor
  · intro task taskMem other otherMem _ _ _
    rw [(ofX task taskMem).1, (ofX other otherMem).1]
  · intro child childMem parent _ _ _ isParent
    rw [(ofX child childMem).2] at isParent
    cases isParent

/-- Reading the task, its parent and its children, then writing. -/
def moving : List (Move statements (World String) Request) :=
  .start moveTeam :: List.replicate 4 (.call 0 anAnswer)

theorem not_keepsOneTeam : ¬KeepsOneTeam anyCall teammates := by
  intro keeps
  let referee : Referee soleRequests anyCall :=
    { mayCall := fun _ _ => true
      mayStart := fun running _ => running.isEmpty
      allowed_of_mayCall := fun _ => trivial
      startable_of_mayStart := fun isEmpty => List.isEmpty_iff.mp isEmpty }
  obtain ⟨config, reached, apart⟩ := referee.exists_reachable_of_play moving teammates (fun world =>
      world.dependencies.rows.map DependencyRow.toTaskDependency = [⟨"A", "B"⟩] ∧
      world.tasks.rows.map (fun row => (row.id, row.teamId, row.isLive)) =
        [("A", some "y", true), ("B", some "x", true)])
    (by simp [moving]) (by decide +kernel)
  simp only [decide_eq_true_eq] at apart
  obtain ⟨edges, rows⟩ := apart
  have oneTeam := keeps config teammates_oneTeam reached
  have shown : ∀ id team, (id, team, true) ∈
      config.world.tasks.rows.map (fun row => (row.id, row.teamId, row.isLive)) →
        ∃ row ∈ config.world.tasks, row.id = id ∧ row.teamId = team ∧ row.isLive = true := by
    intro id team member
    obtain ⟨row, rowMem, same⟩ := List.mem_map.mp member
    simp only [Prod.mk.injEq] at same
    exact ⟨row, rowMem, same⟩
  rw [rows] at shown
  obtain ⟨first, firstMem, firstId, firstTeam, firstLive⟩ := shown "A" (some "y") (by simp)
  obtain ⟨second, secondMem, secondId, secondTeam, secondLive⟩ :=
    shown "B" (some "x") (by simp)
  have edge : ⟨"A", "B"⟩ ∈ config.world.dependencies.rows.map DependencyRow.toTaskDependency := by
    rw [edges]
    exact mem_singleton_self _
  obtain ⟨row, rowMem, isEdge⟩ := List.mem_map.mp edge
  have depends : config.world.Depends first.id second.id := by
    refine ⟨row, rowMem, ?_, ?_⟩
    · rw [firstId]
      exact congrArg TaskDependency.taskId isEdge
    · rw [secondId]
      exact congrArg TaskDependency.dependsOnId isEdge
  have same := oneTeam.dependencies first firstMem second secondMem firstLive secondLive depends
  rw [firstTeam, secondTeam] at same
  exact absurd same (by decide)

end DubEcosystem.TaskService
