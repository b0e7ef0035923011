import DubEcosystem.GanttServiceChart
import DubEcosystem.TaskServiceTeams

/-!
# task-service: the tree of the tasks

`POST /tasks` and `PATCH /tasks/:id` compare the teams of a task and its parent, and nothing
else.  A parent that does not exist is accepted, so the links are followed as far as they lead
to a stored task.  The requests are handled one at a time.
-/

namespace DubEcosystem.TaskService

open Relation AcyclicOrders KeyedTable List Option
open GanttService (Host Readable buildGanttChartDTO)
open Interleaving

namespace World

def ParentLink (world : World String) (child parent : String) : Prop :=
  ∃ row ∈ world.tasks, row.id = child ∧ row.parentTaskId = some parent

def SameEvent (world : World String) : Prop :=
  ∀ child ∈ world.tasks, ∀ parent ∈ world.tasks, child.parentTaskId = some parent.id →
    child.eventId = parent.eventId

/-- The parent links form a forest inside each event. -/
structure IsForest (world : World String) : Prop where
  named : ∀ row ∈ world.tasks, row.id ≠ ""
  acyclic : Acyclic world.ParentLink
  sameEvent : world.SameEvent

def ParentsExist (world : World String) : Prop :=
  ∀ child ∈ world.tasks, ∀ parentId, child.parentTaskId = some parentId →
    ∃ parent ∈ world.tasks, parent.id = parentId

def LiveOf (world : World String) (eventId : String) (tasks : List (Task String)) : Prop :=
  tasks.Perm ((world.tasks.rows.filter fun row => row.eventId = some eventId ∧ row.isLive).map
    TaskRow.toTask)

/-- A chart of the live tasks of an event places every task whose parent is live directly inside
the block of that parent. -/
def Places (world : World String) : Prop :=
  ∀ (host : Host) eventId tasks dependencies dto, world.LiveOf eventId tasks →
    buildGanttChartDTO host eventId tasks dependencies = .ok dto →
      ∀ child ∈ tasks, ∀ parent ∈ tasks, child.parentTaskId = some parent.id →
        dto.Places child.id parent.id

def Charts (readable : Host → Task String → Prop) (world : World String) : Prop :=
  ∀ (host : Host) eventId tasks dependencies, world.LiveOf eventId tasks →
    (∀ task ∈ tasks, readable host task) → (host.parseDate host.now).isSome →
      ∃ dto, buildGanttChartDTO host eventId tasks dependencies = .ok dto

end World

section Charts

variable {world : World String} {eventId : String} {tasks : List (Task String)}

section

variable (live : world.LiveOf eventId tasks)
include live

theorem World.LiveOf.row {task : Task String} (member : task ∈ tasks) :
    ∃ row ∈ world.tasks, row.toTask = task ∧ row.isLive := by
  obtain ⟨row, rowMem, rfl⟩ := List.mem_map.mp (live.mem_iff.mp member)
  obtain ⟨stored, isLive⟩ := mem_filter.mp rowMem
  simp only [decide_eq_true_eq] at isLive
  exact ⟨row, stored, rfl, isLive.2⟩

theorem World.LiveOf.filter : (tasks.filter fun task => task.archivedAt = none) = tasks := by
  rw [filter_eq_self]
  intro task member
  obtain ⟨row, -, rfl, isLive⟩ := live.row member
  exact isLive

theorem World.LiveOf.nodup : (tasks.map Task.id).Nodup := by
  rw [(live.map Task.id).nodup_iff, List.map_map]
  exact world.tasks.keysNodup.sublist (filter_sublist.map _)

theorem World.LiveOf.link {lower upper : String} (link : GanttService.Link tasks lower upper) :
    world.ParentLink lower upper := by
  obtain ⟨task, member, rfl⟩ := link.rows.1
  rw [GanttService.Link, GanttService.parentOf_of_mem live.nodup member] at link
  obtain ⟨isParent, -⟩ := filter_eq_some_iff.mp link
  obtain ⟨names, -⟩ := filter_eq_some_iff.mp isParent
  obtain ⟨row, stored, rfl, -⟩ := live.row member
  exact ⟨row, stored, rfl, names⟩

end

/-- Charts of a forest are in order. -/
theorem World.IsForest.places (forest : world.IsForest) : world.Places := by
  intro host eventId tasks dependencies dto live built child childMem parent parentMem isParent
  apply GanttService.places_of_built built
  · rw [live.filter]
    exact live.nodup
  · rw [live.filter]
    exact forest.acyclic.mono fun _ _ => live.link
  · rw [live.filter, GanttService.Link, GanttService.parentOf_of_mem live.nodup childMem]
    obtain ⟨row, stored, rfl, -⟩ := live.row parentMem
    have named : row.id ≠ "" := forest.named row stored
    simp [GanttService.effectiveParent, GanttService.truthy, isParent, named]
    exact ⟨_, parentMem, rfl⟩

theorem World.IsForest.charts (forest : world.IsForest) : world.Charts Readable := by
  intro host eventId tasks dependencies live readable clock
  apply GanttService.builds_of_readable eventId dependencies readable clock
  · rw [live.filter]
    exact live.nodup
  · rw [live.filter]
    exact forest.acyclic.mono fun _ _ => live.link

end Charts

variable {world : World String}

/-- The ids of new tasks are new.  A stored parent that is given is of the event of the task, and
is not the task itself nor below it. -/
def ParentsFit : Statement → World String → Prop
  | .insert input, world =>
    input.id ≠ "" ∧ input.parentId ≠ some input.id ∧
    (∀ row ∈ world.tasks, row.parentTaskId ≠ some input.id) ∧
    ∀ parent ∈ world.tasks, input.parentId = some parent.id → parent.eventId = input.eventId
  | .update id patch version _, world =>
    ∀ row ∈ world.tasks, isAtVersion id version row = true →
      ∀ parent ∈ world.tasks, patch.parentId = some (some parent.id) →
        parent.eventId = row.eventId ∧ ¬ReflTransGen world.ParentLink parent.id id
  | _, _ => True

variable {after : World String}

theorem World.IsForest.of_rows (forest : world.IsForest)
    (rows : ∀ row ∈ after.tasks, ∃ old ∈ world.tasks, old.id = row.id ∧
      old.eventId = row.eventId ∧ old.parentTaskId = row.parentTaskId) : after.IsForest where
  named := by
    intro row member
    obtain ⟨old, oldMem, sameId, -⟩ := rows row member
    exact sameId ▸ forest.named old oldMem
  acyclic := by
    apply forest.acyclic.mono
    rintro child parent ⟨row, member, isChild, isParent⟩
    obtain ⟨old, oldMem, sameId, -, sameParent⟩ := rows row member
    exact ⟨old, oldMem, sameId.trans isChild, sameParent.trans isParent⟩
  sameEvent := by
    intro child childMem parent parentMem isParent
    obtain ⟨oldChild, oldChildMem, -, childEvent, sameParent⟩ := rows child childMem
    obtain ⟨oldParent, oldParentMem, sameId, parentEvent, -⟩ := rows parent parentMem
    rw [← childEvent, ← parentEvent]
    exact forest.sameEvent oldChild oldChildMem oldParent oldParentMem
      (sameParent.trans (sameId ▸ isParent))

theorem World.IsForest.update_rows {selected : TaskRow String → Bool}
    {change : TaskRow String → TaskRow String} {keepsKey : ∀ row, (change row).id = row.id}
    (forest : world.IsForest) (keepsEvent : ∀ row, (change row).eventId = row.eventId)
    (keepsParent : ∀ row, (change row).parentTaskId = row.parentTaskId) :
    World.IsForest { world with tasks := world.tasks.update selected change keepsKey } := by
  apply forest.of_rows
  intro row member
  have updated : row ∈ world.tasks.update selected change keepsKey := member
  obtain ⟨old, oldMem, rfl⟩ := mem_update.mp updated
  refine ⟨old, oldMem, ?_⟩
  split
  · exact ⟨(keepsKey old).symm, (keepsEvent old).symm, (keepsParent old).symm⟩
  · exact ⟨rfl, rfl, rfl⟩

theorem World.IsForest.put (forest : world.IsForest) (next : TaskRow String) (named : next.id ≠ "")
    (rows : ∀ row ∈ after.tasks, row = next ∨ row ∈ world.tasks ∧ row.id ≠ next.id)
    (apart : ∀ parent, next.parentTaskId = some parent →
      ¬ReflTransGen world.ParentLink parent next.id)
    (parents : ∀ parent ∈ world.tasks, parent.id ≠ next.id → next.parentTaskId = some parent.id →
      next.eventId = parent.eventId)
    (children : ∀ child ∈ world.tasks, child.id ≠ next.id → child.parentTaskId = some next.id →
      child.eventId = next.eventId) : after.IsForest where
  named := by
    intro row member
    rcases rows row member with rfl | ⟨old, -⟩
    · exact named
    · exact forest.named row old
  acyclic := by
    cases isParent : next.parentTaskId with
    | none =>
      apply forest.acyclic.mono
      rintro child parent ⟨row, member, isChild, names⟩
      rcases rows row member with rfl | ⟨old, -⟩
      · cases isParent.symm.trans names
      · exact ⟨row, old, isChild, names⟩
    | some target =>
      apply forest.acyclic.insert (apart target isParent)
      rintro child parent ⟨row, member, isChild, names⟩
      rcases rows row member with rfl | ⟨old, -⟩
      · exact .inr ⟨isChild.symm, some.inj (names.symm.trans isParent)⟩
      · exact .inl ⟨row, old, isChild, names⟩
  sameEvent := by
    intro child childMem parent parentMem names
    rcases rows child childMem with rfl | ⟨childOld, childApart⟩
    · rcases rows parent parentMem with rfl | ⟨parentOld, parentApart⟩
      · rfl
      · exact parents parent parentOld parentApart names
    · rcases rows parent parentMem with rfl | ⟨parentOld, -⟩
      · exact children child childOld childApart names
      · exact forest.sameEvent child childOld parent parentOld names

theorem World.mem_update {id : String} {patch : TaskPatch} {version : ℚ} {now : String}
    {row : TaskRow String} (member : row ∈ (world.update id patch version now).2.tasks) :
    ∃ old ∈ world.tasks,
      (if isAtVersion id version old = true then patch.apply now old else old) = row := by
  have updated : row ∈ world.tasks.update (isAtVersion id version) (patch.apply now)
    fun _ => rfl := member
  exact KeyedTable.mem_update.mp updated

theorem World.IsForest.update (forest : world.IsForest) {id : String} {patch : TaskPatch}
    {version : ℚ} {now : String} (fits : ParentsFit (.update id patch version now) world) :
    (world.update id patch version now).2.IsForest := by
  by_cases lands : ∃ row ∈ world.tasks, isAtVersion id version row = true
  · obtain ⟨target, targetMem, atVersion⟩ := lands
    have itsFit := fits target targetMem atVersion
    obtain ⟨rfl, -, -⟩ : target.id = id ∧ (target.version : ℚ) = version ∧ target.isLive := by
      simpa [isAtVersion] using atVersion
    cases given : patch.parentId with
    | none =>
      have keepsParent : ∀ row, (patch.apply now row).parentTaskId = row.parentTaskId := by
        intro row
        simp [TaskPatch.apply, given]
      exact forest.update_rows (fun row => rfl) keepsParent
    | some parentId =>
      have isNext : (patch.apply now target).parentTaskId = parentId := by
        simp [TaskPatch.apply, given]
      have rows : ∀ row ∈ (world.update target.id patch version now).2.tasks,
          row = patch.apply now target ∨
            row ∈ world.tasks ∧ row.id ≠ (patch.apply now target).id := by
        intro row member
        obtain ⟨old, oldMem, rfl⟩ := World.mem_update member
        by_cases same : old.id = target.id
        · obtain rfl := eq_of_key_eq oldMem targetMem same
          exact .inl (if_pos atVersion)
        · have missed : isAtVersion target.id version old ≠ true := by
            simp [isAtVersion, same]
          rw [if_neg missed]
          exact .inr ⟨oldMem, same⟩
      apply forest.put (patch.apply now target) (forest.named target targetMem) rows
      · intro parent names below
        rw [isNext] at names
        subst names
        rcases ReflTransGen.cases_head below with isSelf | ⟨above, ⟨row, rowMem, rfl, -⟩, -⟩
        · exact (itsFit target targetMem (given.trans (by rw [isSelf]; rfl))).2 .refl
        · exact (itsFit row rowMem given).2 below
      · intro parent parentMem _ names
        exact (itsFit parent parentMem (given.trans (congrArg some (isNext.symm.trans names)))).1.symm
      · intro child childMem _ names
        exact forest.sameEvent child childMem target targetMem names
  · apply forest.of_rows
    intro row member
    obtain ⟨old, oldMem, rfl⟩ := World.mem_update member
    rw [if_neg fun atVersion => lands ⟨old, oldMem, atVersion⟩]
    exact ⟨old, oldMem, rfl, rfl, rfl⟩

theorem World.IsForest.insert (forest : world.IsForest) {input : InsertTaskInput}
    (fits : ParentsFit (.insert input) world) : (world.insert input).2.IsForest := by
  obtain ⟨named, notItself, unnamed, sameEvent⟩ := fits
  unfold World.insert
  cases input.origin with
  | none => exact forest
  | some origin =>
    cases inserted : world.tasks.insert? (input.row origin) with
    | none => simpa only [inserted] using forest
    | some tasks =>
      simp only [inserted]
      have rows : ∀ row ∈ tasks, row = input.row origin ∨
          row ∈ world.tasks ∧ row.id ≠ (input.row origin).id := by
        intro row member
        rcases (mem_insert? inserted).mp member with old | isNew
        · exact .inr ⟨old, (insert?_eq_some inserted).2 row old⟩
        · exact .inl isNew
      apply forest.put (input.row origin) named rows
      · intro parent names below
        rcases ReflTransGen.cases_tail below with rfl | ⟨last, -, row, rowMem, -, isLink⟩
        · exact notItself names
        · exact unnamed row rowMem isLink
      · intro parent parentMem _ names
        exact (sameEvent parent parentMem names).symm
      · intro child childMem _ names
        exact (unnamed child childMem names).elim

theorem World.IsForest.step {before : World String}
    (step : teamDiscipline.WorldStep ParentsFit before after) (forest : before.IsForest) :
    after.IsForest := by
  cases step with
  | environment _ moves => exact moves.elim
  | call op request answer _ fits _ answers =>
    by_cases reads : request.Reads
    · obtain rfl := unmoved_of_reads reads answers
      exact forest
    · cases request with
      | insert input =>
        obtain ⟨-, rfl⟩ := Prod.mk.inj answers
        exact forest.insert fits
      | update id patch version now =>
        cases answers
        exact forest.update fits
      | archive id now | bumpVersion id version now =>
        cases answers
        exact forest.update_rows (fun _ => rfl) fun _ => rfl
      | replaceEdges taskId dependsOnIds now =>
        cases answers
        exact ⟨forest.named, forest.acyclic, forest.sameEvent⟩
      | _ => exact (reads trivial).elim

/-- From every store of the kind, requests that are handled one at a time reach only stores with
the property. -/
def Stays (start : World String → Prop) (allowed : statements.Call → World String → Prop)
    (property : World String → Prop) : Prop :=
  ∀ world config, start world → soleRequests.ReachableWhere allowed world config →
    property config.world

def World.Tree (world : World String) : Prop :=
  world.IsForest ∧ world.ParentsExist

/-- The tasks stay a forest, which charts show as it is, while parents that are stored fit. -/
theorem staysForest_of_parentsFit : Stays World.IsForest ParentsFit fun world =>
      world.IsForest ∧ world.Places ∧ world.Charts Readable := by
  intro world config forest reached
  have stays : config.world.IsForest :=
    teamDiscipline.property_of_reachable teamDiscipline_programsRespect World.IsForest
      trivial forest (fun step => World.IsForest.step step) reached
  exact ⟨stays, stays.places, stays.charts⟩

def eventTask : TaskRow String :=
  { freshRow "A" none with eventId := some "E" }

def oneOfEvent : World String where
  tasks := ⟨[eventTask], by decide⟩
  dependencies := .empty
  processed := []

theorem oneOfEvent_tree : oneOfEvent.Tree := by
  have noParent : ∀ row ∈ oneOfEvent.tasks, row.id = "A" ∧ row.parentTaskId = none := by
    intro row member
    obtain rfl := mem_singleton.mp member
    exact ⟨rfl, rfl⟩
  refine ⟨⟨?_, ?_, ?_⟩, ?_⟩
  · intro row member
    rw [(noParent row member).1]
    decide
  · intro id walk
    obtain ⟨parent, ⟨row, member, -, names⟩, -⟩ := TransGen.head'_iff.mp walk
    rw [(noParent row member).2] at names
    cases names
  · intro child childMem parent _ names
    rw [(noParent child childMem).2] at names
    cases names
  · intro child childMem parentId names
    rw [(noParent child childMem).2] at names
    cases names

def createBelow (parentId : String) : Request :=
  .createTask ⟨"r", .user "u", "o"⟩ (some
    { eventId := .undefined, title := .value "B", description := .undefined
      priority := .undefined, assigneeId := .undefined, teamId := .undefined
      startAt := .undefined, dueAt := .undefined, origin := .undefined
      parentTaskId := .value parentId, wbs := .undefined })

def moveBelowItself : Request :=
  .updateTask ⟨"r", .user "u", "o"⟩ "A" (some { version := some 1, parentTaskId := .value "A" })

/-- Give task A a day that does not exist. -/
def setDue : Request :=
  .updateTask ⟨"r", .user "u", "o"⟩ "A"
    (some { version := some 1, dueAt := .value "2026-99-99T00:00:00Z" })

def calls (request : Request) (count : Nat) : List (Move statements (World String) Request) :=
  .start request :: List.replicate count (.call 0 anAnswer)

def soleReferee : Referee soleRequests anyCall where
  mayCall _ _ := true
  mayStart running _ := running.isEmpty
  allowed_of_mayCall _ := trivial
  startable_of_mayStart isEmpty := List.isEmpty_iff.mp isEmpty

theorem exists_reached (request : Request) (count : Nat) (rows : List (TaskRow String))
    (played : (soleReferee.play (calls request count) ⟨oneOfEvent, []⟩).map
      (fun config => decide (config.world.tasks.rows = rows)) = some true) :
    ∃ config, soleRequests.ReachableWhere anyCall oneOfEvent config ∧
      config.world.tasks.rows = rows := by
  obtain ⟨config, reached, left⟩ := soleReferee.exists_reachable_of_play (calls request count)
    oneOfEvent (fun world => decide (world.tasks.rows = rows)) (by simp [calls]) played
  exact ⟨config, reached, of_decide_eq_true left⟩

def createdBelow (parentId : String) : TaskRow String :=
  { freshRow "task_B" none with
    title := "B", parentTaskId := some parentId, createdAt := "2026-06-02T00:00:00.000Z"
    updatedAt := "2026-06-02T00:00:00.000Z" }

theorem not_staysComplete : ¬Stays World.Tree anyCall World.ParentsExist := by
  intro stays
  obtain ⟨config, reached, rows⟩ := exists_reached (createBelow "ghost") 4
    [eventTask, createdBelow "ghost"] (by decide +kernel)
  have created : createdBelow "ghost" ∈ config.world.tasks := by
    rw [KeyedTable.mem_def, rows]
    simp
  obtain ⟨parent, stored, isGhost⟩ :=
    stays oneOfEvent config oneOfEvent_tree reached _ created "ghost" rfl
  rw [KeyedTable.mem_def, rows] at stored
  rcases mem_pair.mp stored with rfl | rfl <;> revert isGhost <;> decide

theorem not_staysForest : ¬Stays World.Tree anyCall fun world => Acyclic world.ParentLink := by
  intro stays
  obtain ⟨config, reached, rows⟩ := exists_reached moveBelowItself 4
    [{ eventTask with
      parentTaskId := some "A", version := 2, updatedAt := "2026-06-02T00:00:00.000Z" }]
    (by decide +kernel)
  apply stays oneOfEvent config oneOfEvent_tree reached "A"
  apply TransGen.single
  refine ⟨_, mem_def.mpr (rows ▸ mem_singleton_self _), rfl, rfl⟩

theorem not_staysInEvent : ¬Stays World.Tree anyCall World.SameEvent := by
  intro stays
  obtain ⟨config, reached, rows⟩ := exists_reached (createBelow "A") 4
    [eventTask, createdBelow "A"] (by decide +kernel)
  have stored : ∀ row ∈ [eventTask, createdBelow "A"], row ∈ config.world.tasks := by
    intro row member
    rwa [KeyedTable.mem_def, rows]
  have same := stays oneOfEvent config oneOfEvent_tree reached (createdBelow "A")
    (stored _ (by simp)) eventTask (stored _ (by simp)) rfl
  cases same

/-- What the runtime answers about the task whose due day does not exist. -/
def runtime : Host where
  parseDate text := if text = "2026-06-02T00:00:00.000Z" then some 1780358400000 else none
  isoAtDay _ := "1970-01-01T00:00:00.000Z"
  now := "2026-06-02T00:00:00.000Z"
  parseInt _ := none
  localeCompare _ _ := 0
  sort _ tasks := tasks
  sort_perm _ _ := .rfl

/-- Task A, with a day that does not exist. -/
def dueNever : TaskRow String :=
  { eventTask with
    dueAt := some "2026-99-99T00:00:00Z", version := 2, updatedAt := "2026-06-02T00:00:00.000Z" }

theorem not_staysCharted : ¬Stays World.Tree anyCall (World.Charts fun _ _ => True) := by
  intro stays
  obtain ⟨config, reached, rows⟩ := exists_reached setDue 3 [dueNever] (by decide +kernel)
  have live : config.world.LiveOf "E" [dueNever.toTask] := by
    have isLive : ([dueNever].filter fun row => row.eventId = some "E" ∧ row.isLive) =
        [dueNever] := by decide +kernel
    rw [World.LiveOf, rows, isLive]
    exact .rfl
  obtain ⟨dto, built⟩ := stays oneOfEvent config oneOfEvent_tree reached runtime "E"
    [dueNever.toTask] [] live (fun _ _ => trivial) rfl
  have thrown : (buildGanttChartDTO runtime "E" [dueNever.toTask] []).isOk = false := rfl
  rw [built] at thrown
  cases thrown

/-- A missing parent is accepted; a task may be moved below itself or below a task of another
event; and a day that does not exist passes the check of dates, and stops the chart. -/
theorem not_staysTree : (¬Stays World.Tree anyCall fun world =>
      world.Tree ∧ world.Places ∧ world.Charts fun _ _ => True) ∧
    ¬Stays World.Tree anyCall World.ParentsExist ∧
    (¬Stays World.Tree anyCall fun world => Acyclic world.ParentLink) ∧
    ¬Stays World.Tree anyCall World.SameEvent ∧
    ¬Stays World.Tree anyCall (World.Charts fun _ _ => True) := by
  refine ⟨fun stays => ?_, not_staysComplete, not_staysForest, not_staysInEvent, not_staysCharted⟩
  apply not_staysComplete
  exact fun world config tree reached => (stays world config tree reached).1.2

end DubEcosystem.TaskService
