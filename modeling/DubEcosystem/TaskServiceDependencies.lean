import DubEcosystem.TaskServiceApp
import DubEcosystem.GanttCalcCycles
import DubEcosystem.InterleavingSchedule
import Mathlib.Data.String.Basic

/-!
# task-service: are the dependencies acyclic?

A request checks its dependencies against the bucket as it has read it, but the
write only compares the version of its own task.  Two requests on two tasks can
so close a cycle between them; no cycle arises while every write that lands
finds nothing in its bucket but what its request has read.
-/

namespace DubEcosystem.TaskService

open Interleaving AcyclicOrders KeyedTable List
open GanttCalc (GanttCalcDependency validateDependencies
  acyclic_of_validateDependencies)

variable {Id : Type} [LinearOrder Id] [ToString Id]

/-- In every bucket, the edges between live tasks form no cycle. -/
def World.AcyclicBuckets (world : World Id) : Prop :=
  ∀ bucket, Acyclic (world.BucketEdge bucket)

/-- No run from a store without cycles, in which every call is `allowed`,
reaches one with a cycle. -/
def StaysAcyclic (Id : Type) [LinearOrder Id] [ToString Id]
    (allowed : (taskSignature Id).Call → World Id → Prop) : Prop :=
  ∀ (world : World Id) config, world.AcyclicBuckets →
    (taskService Id).ReachableWhere allowed world config → config.world.AcyclicBuckets

/-- A write that lands finds no edge of another task between live tasks of its
bucket, except those that its request has read. -/
def FindsBucketAsRead : Call Id → World Id → Prop
  | .replaceDependencies read taskId _ version _, world =>
    ∀ row ∈ world.tasks, isAtVersion taskId version row →
      ∀ u v, world.BucketEdge row.eventId u v → v ≠ taskId → ⟨v, u⟩ ∈ read
  | _, _ => True

/-- The edges read and the edges requested form no cycle. -/
def WritesAcyclic : Call Id → Prop
  | .replaceDependencies read taskId dependsOnIds _ _ =>
    Acyclic fun u v => ⟨v, u⟩ ∈ read ∨ (v = taskId ∧ u ∈ dependsOnIds)
  | _ => True

theorem acyclic_of_checkDependencies {liveIds : List Id}
    {dependencies : List (GanttCalcDependency Id)}
    (passed : checkDependencies liveIds dependencies = .ok ()) :
    Acyclic fun u v => ∃ dep ∈ dependencies, dep.dependsOnId = u ∧ dep.taskId = v := by
  unfold checkDependencies at passed
  simp only [length_pos_iff, ne_eq] at passed
  by_cases unknown : (validateDependencies liveIds dependencies).unknownTaskIds = []
  · by_cases cycles : (validateDependencies liveIds dependencies).cycles = []
    · exact acyclic_of_validateDependencies unknown cycles
    · simp [unknown, cycles] at passed
  · simp [unknown] at passed

variable {dependsOnIds : List Id}

omit [LinearOrder Id] [ToString Id] in
theorem acyclic_of_requestedGraph {id : Id} {others : List (TaskDependency Id)}
    (acyclic : Acyclic fun u v => ∃ dep ∈ requestedGraph id others dependsOnIds,
      dep.dependsOnId = u ∧ dep.taskId = v) :
    Acyclic fun u v => ⟨v, u⟩ ∈ others ∨ (v = id ∧ u ∈ dependsOnIds) := by
  apply acyclic.mono
  rintro u v (read | ⟨rfl, requested⟩)
  · exact ⟨_, mem_map_of_mem (mem_append_left _ read), rfl, rfl⟩
  · exact ⟨_, mem_map_of_mem (mem_append_right _ (mem_map_of_mem requested)), rfl, rfl⟩

section Programs

open Prog

omit [LinearOrder Id] [ToString Id] in
theorem writeDependencies_issues {ctx : RequestContext} {id : Id} {current : Task Id}
    {read : List (TaskDependency Id)} {version : ℚ}
    (acyclic : Acyclic fun u v => ⟨v, u⟩ ∈ read ∨ (v = id ∧ u ∈ dependsOnIds)) :
    (writeDependencies ctx id current read dependsOnIds version).Issues WritesAcyclic := by
  refine Issues.perform_bind trivial fun now => ?_
  refine Issues.perform_bind acyclic fun result => ?_
  split
  · refine Issues.perform_bind trivial fun _ => ?_
    refine Issues.perform_bind trivial fun _ => ?_
    exact Issues.perform_bind trivial fun _ => trivial
  · trivial

variable (ctx : RequestContext)

theorem replaceInBucket_issues (id : Id) (current : Task Id)
    (dependsOnIds : List Id) (version : ℚ) :
    (replaceInBucket ctx id current dependsOnIds version).Issues WritesAcyclic := by
  refine Issues.perform_bind trivial fun bucketTasks => ?_
  simp only []
  split
  · trivial
  · refine Issues.perform_bind trivial fun edges => ?_
    split
    · trivial
    · rename_i passed
      exact writeDependencies_issues
        (acyclic_of_requestedGraph (acyclic_of_checkDependencies passed))

theorem putDependencies_issues (id : Id) (body : Option (ReplaceDependenciesRequest Id)) :
    (putDependencies ctx id body).Issues WritesAcyclic := by
  unfold putDependencies
  split
  · trivial
  · refine Issues.perform_bind trivial fun found => ?_
    cases found with
    | none => trivial
    | some current =>
      simp only []
      split
      · trivial
      · exact replaceInBucket_issues ..

omit [LinearOrder Id] in
theorem archiveTask_issues (id : Id) : (archiveTask ctx id).Issues WritesAcyclic := by
  refine Issues.perform_bind trivial fun found => ?_
  cases found with
  | none => trivial
  | some current =>
    refine Issues.perform_bind trivial fun now => ?_
    refine Issues.perform_bind trivial fun archived => ?_
    split
    · refine Issues.perform_bind trivial fun _ => ?_
      refine Issues.perform_bind trivial fun _ => ?_
      refine Issues.perform_bind trivial fun _ => ?_
      exact Issues.perform_bind trivial fun _ => trivial
    · trivial

omit [LinearOrder Id] [ToString Id] in
theorem eventHandler_issues (envelope : DubEventEnvelope) :
    (eventHandler envelope : Program Id Unit).Issues WritesAcyclic := by
  cases envelope with
  | other id name => trivial
  | eventArchived id eventId =>
    refine Issues.perform_bind trivial fun now => ?_
    refine Issues.bind ?_ fun _ => trivial
    refine Issues.perform_bind trivial fun live => ?_
    split
    · trivial
    · exact Issues.perform_bind trivial fun _ => trivial

omit [LinearOrder Id] [ToString Id] in
theorem eventsAsync_issues (body : Option DubEventEnvelope) :
    (eventsAsync body : Program Id _).Issues WritesAcyclic := by
  cases body with
  | none => trivial
  | some envelope =>
    refine Issues.bind ?_ fun _ => trivial
    refine Issues.perform_bind trivial fun processed => ?_
    split
    · trivial
    · exact (eventHandler_issues envelope).bind fun _ => Issues.perform trivial

theorem program_issues (op : Operation Id) : op.program.Issues WritesAcyclic := by
  cases op with
  | putDependencies ctx id body =>
    exact (putDependencies_issues ctx id body).bind fun _ => trivial
  | archiveTask ctx id => exact (archiveTask_issues ctx id).bind fun _ => trivial
  | eventsAsync body => exact (eventsAsync_issues body).bind fun _ => trivial

end Programs

variable {world : World Id}

omit [ToString Id] in
/-- An edge that a write leaves behind was there before, or was requested. -/
theorem World.BucketEdge.of_replaceDependencies {taskId : Id} {version : ℚ} {now : String} {bucket : Option String}
    {u v : Id}
    (edge : (world.replaceDependencies taskId dependsOnIds version now).2.BucketEdge bucket u v) :
    world.BucketEdge bucket u v ∧
        (v ≠ taskId ∨ ¬ world.tasks.selects (isAtVersion taskId version)) ∨
      v = taskId ∧ u ∈ dependsOnIds ∧ world.LiveIn bucket taskId ∧
        world.tasks.selects (isAtVersion taskId version) := by
  obtain ⟨⟨row, member, named⟩, uAfter, vAfter⟩ := edge
  have uLive := uAfter.of_replaceDependencies
  have vLive := vAfter.of_replaceDependencies
  by_cases lands : world.tasks.selects (isAtVersion taskId version) = true
  · simp only [World.replaceDependencies, lands, if_true] at member
    rcases mem_replaceEdges member with ⟨old, other⟩ | ⟨ofTask, requested⟩
    · rw [named] at other
      exact .inl ⟨⟨⟨row, old, named⟩, uLive, vLive⟩, .inl other⟩
    · rw [named] at ofTask requested
      have target : v = taskId := ofTask
      exact .inr ⟨target, requested, target ▸ vLive, lands⟩
  · simp only [World.replaceDependencies, lands] at member
    exact .inl ⟨⟨⟨row, member, named⟩, uLive, vLive⟩, .inr lands⟩

omit [ToString Id] in
/-- A write under the condition keeps the buckets acyclic. -/
theorem World.AcyclicBuckets.replaceDependencies
    (acyclic : world.AcyclicBuckets) {read : List (TaskDependency Id)} {taskId : Id} {version : ℚ} {now : String}
    (asRead : FindsBucketAsRead (.replaceDependencies read taskId dependsOnIds version now) world)
    (writes : WritesAcyclic (.replaceDependencies read taskId dependsOnIds version now)) :
    (world.replaceDependencies taskId dependsOnIds version now).2.AcyclicBuckets := by
  intro bucket
  by_cases lands : ∃ row ∈ world.tasks, isAtVersion taskId version row ∧ row.eventId = bucket
  · -- In the bucket of the task, the edges are those read and those requested.
    obtain ⟨row, rowMem, atVersion, rfl⟩ := lands
    apply Acyclic.mono writes
    intro u v edge
    rcases edge.of_replaceDependencies with ⟨old, other | missed⟩ | ⟨rfl, requested, -⟩
    · exact .inl (asRead row rowMem atVersion u v old other)
    · exact absurd (selects_eq_true.mpr ⟨row, rowMem, atVersion⟩) missed
    · exact .inr ⟨rfl, requested⟩
  · -- In any other bucket, no edge is new.
    apply (acyclic bucket).mono
    intro u v edge
    rcases edge.of_replaceDependencies with ⟨old, -⟩ | ⟨rfl, -, live, selected⟩
    · exact old
    · obtain ⟨found, foundMem, foundId, inBucket, -⟩ := live
      obtain ⟨row, rowMem, atVersion⟩ := selects_eq_true.mp selected
      have rowId : row.id = v := by
        simp only [isAtVersion, decide_eq_true_eq] at atVersion
        exact atVersion.1
      obtain rfl := eq_of_key_eq foundMem rowMem (foundId.trans rowId.symm)
      exact absurd ⟨found, rowMem, atVersion, inBucket⟩ lands

omit [LinearOrder Id] [ToString Id] in
theorem World.AcyclicBuckets.archiveWhere
    (acyclic : world.AcyclicBuckets) (selected : TaskRow Id → Bool) (now : String) :
    (world.archiveWhere selected now).AcyclicBuckets := by
  intro bucket
  apply (acyclic bucket).mono
  rintro u v ⟨edge, uLive, vLive⟩
  exact ⟨edge, uLive.of_archiveWhere, vLive.of_archiveWhere⟩

/-- The operations, seen only by the calls they issue. -/
def acyclicWrites (Id : Type) [LinearOrder Id] [ToString Id] : Discipline (taskService Id) :=
  .ofIssues (taskService Id) fun _ => WritesAcyclic

theorem World.AcyclicBuckets.step {before after : World Id}
    (step : (acyclicWrites Id).WorldStep FindsBucketAsRead before after)
    (acyclic : before.AcyclicBuckets) : after.AcyclicBuckets := by
  cases step with
  | environment _ moves => exact moves.elim
  | call op request answer _ asRead writes answers =>
    have unmoved : after = before → after.AcyclicBuckets := by
      rintro rfl
      exact acyclic
    cases request with
    | replaceDependencies read taskId dependsOnIds version now =>
      obtain ⟨-, rfl⟩ := Prod.mk.inj answers
      exact acyclic.replaceDependencies asRead writes
    | archive id now | archiveLiveOfEvent eventId now =>
      cases answers
      exact acyclic.archiveWhere _ now
    | markProcessed envelopeId =>
      cases answers
      exact acyclic
    | nowIso | emit requestId actorId specs | record input => exact unmoved answers
    | getById id includeArchived | listLiveTasksByEvent eventId | listDependenciesByEvent eventId
    | liveIdsOfEvent eventId | wasProcessed envelopeId =>
      exact unmoved (Prod.mk.inj answers).2.symm

/-- Dependencies stay acyclic in every run in which each write finds its bucket
as its request has read it. -/
theorem staysAcyclic_of_findsBucketAsRead :
    StaysAcyclic Id FindsBucketAsRead := by
  intro world config acyclic reached
  exact (acyclicWrites Id).property_of_reachable
    (Discipline.ofIssues_programsRespect program_issues) World.AcyclicBuckets trivial
    acyclic (fun step => World.AcyclicBuckets.step step) reached

def openTask (id : String) : TaskRow String :=
  { id, eventId := none, title := id, description := none, status := .todo
    priority := .medium, assigneeId := none, teamId := none, parentTaskId := none
    wbs := none, createdBy := "u", startAt := none, dueAt := none
    origin := .internal, version := 1, archivedAt := none
    createdAt := "2026-06-01T00:00:00.000Z", updatedAt := "2026-06-01T00:00:00.000Z"
    dueSoonNotifiedAt := none }

def twoTasks : World String where
  tasks := ⟨[openTask "A", openTask "B"], by decide⟩
  dependencies := .empty
  processed := []

/-- The request that makes `id` depend on `other`. -/
def dependsOn (id other : String) : Operation String :=
  .putDependencies ⟨"r", .user "u", "o"⟩ id
    (some { version := some 1, dependsOnIds := some [some other] })

def outside : (request : Call String) → Answer request
  | .nowIso => "2026-06-02T00:00:00.000Z"
  | .getById _ _ => none
  | .listLiveTasksByEvent _ => []
  | .listDependenciesByEvent _ => []
  | .replaceDependencies _ _ _ _ _ => ⟨false, [], []⟩
  | .archive _ _ => false
  | .liveIdsOfEvent _ => []
  | .archiveLiveOfEvent _ _ => ()
  | .wasProcessed _ => false
  | .markProcessed _ => ()
  | .emit _ _ _ => ()
  | .record _ => ()

/-- Both requests read the bucket, then both write. -/
def crossing : List (Move (taskSignature String) (World String) (Operation String)) :=
  [.start (dependsOn "A" "B"), .start (dependsOn "B" "A")] ++
    List.replicate 3 (.call 0 outside) ++ List.replicate 3 (.call 1 outside) ++
    List.replicate 2 (.call 0 outside) ++ List.replicate 2 (.call 1 outside)

theorem twoTasks_acyclicBuckets : twoTasks.AcyclicBuckets := by
  intro bucket
  apply acyclic_of_lt
  rintro u v ⟨⟨row, member, -⟩, -⟩
  exact absurd member (notMem_empty row)

theorem not_staysAcyclic : ¬ StaysAcyclic String anyCall := by
  intro stays
  obtain ⟨config, reached, closed⟩ :=
    (openReferee (taskService String) fun _ _ => trivial).exists_reachable_of_play crossing twoTasks
      (fun world => world.dependencies.rows.map DependencyRow.toTaskDependency =
          [⟨"B", "A"⟩, ⟨"A", "B"⟩] ∧
        world.tasks.rows.map (fun row => (row.id, row.eventId, row.isLive)) =
          [("A", none, true), ("B", none, true)])
      (by simp [crossing]) (by decide)
  simp only [decide_eq_true_eq] at closed
  obtain ⟨edges, rows⟩ := closed
  have acyclic := stays twoTasks config twoTasks_acyclicBuckets reached none
  have live : ∀ id, (id, none, true) ∈
      config.world.tasks.rows.map (fun row => (row.id, row.eventId, row.isLive)) →
        config.world.LiveIn none id := by
    intro id member
    obtain ⟨row, rowMem, shown⟩ := List.mem_map.mp member
    simp only [Prod.mk.injEq] at shown
    exact ⟨row, rowMem, shown⟩
  have present : ∀ u v, ⟨v, u⟩ ∈ config.world.dependencies.rows.map DependencyRow.toTaskDependency →
        ∃ row ∈ config.world.dependencies, row.toTaskDependency = ⟨v, u⟩ :=
    fun u v member => List.mem_map.mp member
  rw [rows] at live
  rw [edges] at present
  have liveA := live "A" (by simp)
  have liveB := live "B" (by simp)
  exact acyclic "A" (.tail (.single ⟨present "A" "B" (by simp), liveA, liveB⟩)
    ⟨present "B" "A" (by simp), liveB, liveA⟩)

end DubEcosystem.TaskService
