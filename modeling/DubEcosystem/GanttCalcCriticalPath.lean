import DubEcosystem.GanttCalcExtremes

/-!
# Gantt calculation: the critical path

The earliest starts are the least that the constraints allow, so one that is later than its own
start constraint is held by a predecessor; the latest starts are held by the end of the project
or by a successor.  What holds a task without slack has none itself.
-/

namespace DubEcosystem.GanttCalc

open AcyclicOrders Relation List Function

variable {Id : Type} [LinearOrder Id] {tasks : List (GanttCalcTask Id)}
  {dependencies : List (GanttCalcDependency Id)} {start : GanttCalcTask Id → Int}
  {schedule : Schedule Id}

def Schedule.IsCritical (schedule : Schedule Id) (tasks : List (GanttCalcTask Id)) (id : Id) :
    Prop :=
  ∃ task ∈ tasks, task.id = id ∧ (schedule.nodes id).slackDays = 0

/-- A dependency between two tasks without slack, which the earliest starts meet exactly. -/
def Schedule.Drives (schedule : Schedule Id) (tasks : List (GanttCalcTask Id))
    (dependencies : List (GanttCalcDependency Id)) (first second : Id) : Prop :=
  ∃ dep ∈ dependencies, dep.dependsOnId = first ∧ dep.taskId = second ∧
    schedule.IsCritical tasks first ∧ schedule.IsCritical tasks second ∧
      ∃ task ∈ tasks, task.id = second ∧ (schedule.nodes second).earliestStartDay =
        esConstraint (edgeOf dep).kind (schedule.nodes first) (edgeOf dep).lag (durationOf task)

/-- The tasks without slack are those on the paths from a task that starts at its own start
constraint to one that finishes at the end of the project. -/
structure HasCriticalPath (start : GanttCalcTask Id → Int) (tasks : List (GanttCalcTask Id))
    (dependencies : List (GanttCalcDependency Id)) (schedule : Schedule Id)
    (path : List Id) : Prop where
  nonempty : ∃ id, schedule.IsCritical tasks id
  onPath : ∀ id, schedule.IsCritical tasks id → ∃ first ∈ tasks, ∃ last ∈ tasks,
    schedule.IsCritical tasks first.id ∧ schedule.IsCritical tasks last.id ∧
    ReflTransGen (schedule.Drives tasks dependencies) first.id id ∧
    ReflTransGen (schedule.Drives tasks dependencies) id last.id ∧
      (schedule.nodes first.id).earliestStartDay = start first ∧
        (schedule.nodes last.id).earliestFinishDay = schedule.projectEndDay
  members : ∀ id, id ∈ path ↔ schedule.IsCritical tasks id
  nodup : path.Nodup
  ordered : path.Pairwise fun first second =>
    ¬ TransGen (fun u v => ∃ dep ∈ dependencies, dep.dependsOnId = u ∧ dep.taskId = v) second first

structure Scheduled (start : GanttCalcTask Id → Int) (tasks : List (GanttCalcTask Id))
    (dependencies : List (GanttCalcDependency Id)) (schedule : Schedule Id) : Prop where
  unique : (tasks.map GanttCalcTask.id).Nodup
  known : ∀ dep ∈ dependencies, dep.dependsOnId ∈ tasks.map GanttCalcTask.id ∧
    dep.taskId ∈ tasks.map GanttCalcTask.id
  acyclic : Acyclic fun u v => ∃ dep ∈ dependencies, dep.dependsOnId = u ∧ dep.taskId = v
  finishes : ∀ task ∈ tasks, (schedule.nodes task.id).earliestFinishDay =
    (schedule.nodes task.id).earliestStartDay + durationOf task
  extreme : IsExtreme start tasks dependencies schedule

namespace Scheduled

variable (scheduled : Scheduled start tasks dependencies schedule)

include scheduled

variable {dep : GanttCalcDependency Id}

theorem meets {S : Id → Int} (feasible : Feasible start tasks dependencies schedule.projectEndDay S)
    (member : dep ∈ dependencies) : S dep.dependsOnId + weight tasks dep ≤ S dep.taskId := by
  obtain ⟨pred, predMem, predId⟩ := List.mem_map.mp (scheduled.known dep member).1
  obtain ⟨succ, succMem, succId⟩ := List.mem_map.mp (scheduled.known dep member).2
  exact (holds_iff scheduled.unique predMem succMem predId succId).mp
    (feasible.dependency dep member pred predMem succ succMem predId succId)

variable {task : GanttCalcTask Id}

/-- One start may be moved by a day where nothing holds it. -/
theorem feasible_update {S : Id → Int} (day : Int)
    (feasible : Feasible start tasks dependencies schedule.projectEndDay S) (taskMem : task ∈ tasks)
    (starts : start task ≤ day) (ends : day + durationOf task ≤ schedule.projectEndDay)
    (into : ∀ dep ∈ dependencies, dep.taskId = task.id → S dep.dependsOnId + weight tasks dep ≤ day)
    (outOf : ∀ dep ∈ dependencies, dep.dependsOnId = task.id →
      day + weight tasks dep ≤ S dep.taskId) :
    Feasible start tasks dependencies schedule.projectEndDay (update S task.id day) := by
  have only : ∀ other ∈ tasks, other.id = task.id → other = task := fun other member same =>
    inj_on_of_nodup_map scheduled.unique member taskMem same
  refine ⟨⟨?_, ?_⟩, ?_⟩
  · intro other member
    by_cases same : other.id = task.id
    · rw [same, update_self, only other member same]
      exact starts
    · rw [update_of_ne same]
      exact feasible.start other member
  · intro dep member pred predMem succ succMem predId succId
    rw [holds_iff scheduled.unique predMem succMem predId succId]
    have noLoop : dep.dependsOnId = task.id → dep.taskId ≠ task.id := fun isPred isSucc =>
      scheduled.acyclic task.id (.single ⟨dep, member, isPred, isSucc⟩)
    by_cases isPred : dep.dependsOnId = task.id
    · rw [isPred, update_self, update_of_ne (noLoop isPred)]
      exact outOf dep member isPred
    · rw [update_of_ne isPred]
      by_cases isSucc : dep.taskId = task.id
      · rw [isSucc, update_self]
        exact into dep member isSucc
      · rw [update_of_ne isSucc]
        exact scheduled.meets feasible member
  · intro other member
    by_cases same : other.id = task.id
    · rw [same, update_self, only other member same]
      exact ends
    · rw [update_of_ne same]
      exact feasible.ends other member

/-- An earliest start is the task's own constraint, or a predecessor holds it. -/
theorem start_or_held (taskMem : task ∈ tasks) :
    (schedule.nodes task.id).earliestStartDay = start task ∨
      ∃ dep ∈ dependencies, dep.taskId = task.id ∧
        (schedule.nodes dep.dependsOnId).earliestStartDay + weight tasks dep =
          (schedule.nodes task.id).earliestStartDay := by
  have earliest := scheduled.extreme.earliest
  by_contra free
  push Not at free
  obtain ⟨later, loose⟩ := free
  have starts := earliest.start task taskMem
  have ends := earliest.ends task taskMem
  have moved := scheduled.feasible_update ((schedule.nodes task.id).earliestStartDay - 1) earliest
    taskMem (by omega) (by omega)
    (fun dep member isSucc => by
      have met := scheduled.meets earliest member
      have notTight := loose dep member isSucc
      rw [isSucc] at met
      omega)
    (fun dep member isPred => by
      have met := scheduled.meets earliest member
      rw [isPred] at met
      omega)
  have least := (scheduled.extreme.between _ moved task taskMem).1
  rw [update_self] at least
  omega

theorem ends_or_held (taskMem : task ∈ tasks) :
    (schedule.nodes task.id).latestStartDay + durationOf task = schedule.projectEndDay ∨
      ∃ dep ∈ dependencies, dep.dependsOnId = task.id ∧
        (schedule.nodes task.id).latestStartDay + weight tasks dep =
          (schedule.nodes dep.taskId).latestStartDay := by
  have latest := scheduled.extreme.latest
  by_contra free
  push Not at free
  obtain ⟨earlier, loose⟩ := free
  have starts := latest.start task taskMem
  have ends := latest.ends task taskMem
  have moved := scheduled.feasible_update ((schedule.nodes task.id).latestStartDay + 1) latest
    taskMem (by omega) (by omega)
    (fun dep member isSucc => by
      have met := scheduled.meets latest member
      rw [isSucc] at met
      omega)
    (fun dep member isPred => by
      have met := scheduled.meets latest member
      have notTight := loose dep member isPred
      rw [isPred] at met
      omega)
  have greatest := (scheduled.extreme.between _ moved task taskMem).2
  rw [update_self] at greatest
  omega

omit [LinearOrder Id] in
theorem isCritical_iff (taskMem : task ∈ tasks) :
    schedule.IsCritical tasks task.id ↔ (schedule.nodes task.id).latestStartDay ≤
      (schedule.nodes task.id).earliestStartDay := by
  obtain ⟨isSlack, nonneg⟩ := scheduled.extreme.slack task taskMem
  constructor
  · rintro ⟨-, -, -, isZero⟩
    omega
  · intro noSlack
    exact ⟨task, taskMem, rfl, by omega⟩

/-- A dependency that the earliest starts meet exactly. -/
theorem drives_of_tight (member : dep ∈ dependencies)
    (tight : (schedule.nodes dep.dependsOnId).earliestStartDay + weight tasks dep =
      (schedule.nodes dep.taskId).earliestStartDay)
    (first : schedule.IsCritical tasks dep.dependsOnId)
    (second : schedule.IsCritical tasks dep.taskId) :
    schedule.Drives tasks dependencies dep.dependsOnId dep.taskId := by
  obtain ⟨pred, predMem, predId⟩ := List.mem_map.mp (scheduled.known dep member).1
  obtain ⟨succ, succMem, succId⟩ := List.mem_map.mp (scheduled.known dep member).2
  have duration : ∀ task ∈ tasks, durationBy tasks task.id = durationOf task := by
    intro task taskMem
    rw [durationBy, byId_of_mem scheduled.unique taskMem]
    rfl
  refine ⟨dep, member, rfl, rfl, first, second, succ, succMem, succId, ?_⟩
  have finish := scheduled.finishes pred predMem
  rw [← duration pred predMem, predId] at finish
  rw [← tight, ← esConstraint_eq tasks finish, ← duration succ succMem, succId]

/-- What holds a task without slack has none. -/
theorem drives_into (member : dep ∈ dependencies) (critical : schedule.IsCritical tasks dep.taskId)
    (tight : (schedule.nodes dep.dependsOnId).earliestStartDay + weight tasks dep =
      (schedule.nodes dep.taskId).earliestStartDay) :
    schedule.Drives tasks dependencies dep.dependsOnId dep.taskId := by
  obtain ⟨pred, predMem, predId⟩ := List.mem_map.mp (scheduled.known dep member).1
  obtain ⟨succ, succMem, succId⟩ := List.mem_map.mp (scheduled.known dep member).2
  have met := scheduled.meets scheduled.extreme.latest member
  have noSlack := (scheduled.isCritical_iff succMem).mp (succId ▸ critical)
  rw [succId] at noSlack
  refine scheduled.drives_of_tight member tight ?_ critical
  rw [← predId]
  exact (scheduled.isCritical_iff predMem).mpr (by rw [predId]; omega)

theorem drives_outOf (member : dep ∈ dependencies)
    (critical : schedule.IsCritical tasks dep.dependsOnId)
    (tight : (schedule.nodes dep.dependsOnId).latestStartDay + weight tasks dep =
      (schedule.nodes dep.taskId).latestStartDay) :
    schedule.Drives tasks dependencies dep.dependsOnId dep.taskId := by
  obtain ⟨pred, predMem, predId⟩ := List.mem_map.mp (scheduled.known dep member).1
  obtain ⟨succ, succMem, succId⟩ := List.mem_map.mp (scheduled.known dep member).2
  have met := scheduled.meets scheduled.extreme.earliest member
  have noSlack := (scheduled.isCritical_iff predMem).mp (predId ▸ critical)
  have ordered := (scheduled.extreme.between _ scheduled.extreme.earliest succ succMem).2
  have predOrdered := (scheduled.extreme.between _ scheduled.extreme.earliest pred predMem).2
  rw [predId] at noSlack predOrdered
  rw [succId] at ordered
  refine scheduled.drives_of_tight member (by omega) critical ?_
  rw [← succId]
  exact (scheduled.isCritical_iff succMem).mpr (by rw [succId]; omega)

/-- Going back along what holds a task leads to one that nothing holds. -/
theorem exists_first {id : Id} (critical : schedule.IsCritical tasks id) :
    ∃ first ∈ tasks, schedule.IsCritical tasks first.id ∧
      ReflTransGen (schedule.Drives tasks dependencies) first.id id ∧
        (schedule.nodes first.id).earliestStartDay = start first := by
  classical
  obtain ⟨task, taskMem, rfl, noSlack⟩ := critical
  have nonempty : (tasks.map GanttCalcTask.id).filter (fun other =>
      schedule.IsCritical tasks other ∧
        ReflTransGen (schedule.Drives tasks dependencies) other task.id) ≠ [] := by
    apply ne_nil_of_mem (a := task.id)
    simp only [mem_filter, decide_eq_true_eq]
    exact ⟨mem_map_of_mem taskMem, ⟨task, taskMem, rfl, noSlack⟩, .refl⟩
  obtain ⟨source, sourceMem, isSource⟩ := scheduled.acyclic.exists_source nonempty
  simp only [mem_filter, decide_eq_true_eq] at sourceMem isSource
  obtain ⟨inTasks, isCritical, leads⟩ := sourceMem
  obtain ⟨first, firstMem, rfl⟩ := List.mem_map.mp inTasks
  refine ⟨first, firstMem, isCritical, leads, ?_⟩
  rcases scheduled.start_or_held firstMem with starts | ⟨dep, member, isSucc, tight⟩
  · exact starts
  · have drives := scheduled.drives_into member (isSucc ▸ isCritical) (by rw [tight, isSucc])
    have isPred := drives
    obtain ⟨-, -, -, -, predCritical, -⟩ := isPred
    rw [isSucc] at drives
    exact absurd ⟨dep, member, rfl, isSucc⟩ (isSource dep.dependsOnId
      ⟨(scheduled.known dep member).1, predCritical, .head drives leads⟩)

/-- Going on along what a task holds leads to one that ends with the project. -/
theorem exists_last {id : Id} (critical : schedule.IsCritical tasks id) :
    ∃ last ∈ tasks, schedule.IsCritical tasks last.id ∧
      ReflTransGen (schedule.Drives tasks dependencies) id last.id ∧
        (schedule.nodes last.id).earliestFinishDay = schedule.projectEndDay := by
  classical
  obtain ⟨task, taskMem, rfl, noSlack⟩ := critical
  have nonempty : (tasks.map GanttCalcTask.id).filter (fun other =>
      schedule.IsCritical tasks other ∧
        ReflTransGen (schedule.Drives tasks dependencies) task.id other) ≠ [] := by
    apply ne_nil_of_mem (a := task.id)
    simp only [mem_filter, decide_eq_true_eq]
    exact ⟨mem_map_of_mem taskMem, ⟨task, taskMem, rfl, noSlack⟩, .refl⟩
  obtain ⟨sink, sinkMem, isSink⟩ := scheduled.acyclic.swap.exists_source nonempty
  simp only [mem_filter, decide_eq_true_eq] at sinkMem isSink
  obtain ⟨inTasks, isCritical, leads⟩ := sinkMem
  obtain ⟨last, lastMem, rfl⟩ := List.mem_map.mp inTasks
  refine ⟨last, lastMem, isCritical, leads, ?_⟩
  rcases scheduled.ends_or_held lastMem with ends | ⟨dep, member, isPred, tight⟩
  · have atMost := (scheduled.isCritical_iff lastMem).mp isCritical
    have ordered := (scheduled.extreme.between _ scheduled.extreme.earliest last lastMem).2
    rw [scheduled.finishes last lastMem]
    omega
  · have drives := scheduled.drives_outOf member (isPred ▸ isCritical) (by rw [← tight, isPred])
    have isSucc := drives
    obtain ⟨-, -, -, -, -, succCritical, -⟩ := isSucc
    rw [isPred] at drives
    exact absurd ⟨dep, member, isPred, rfl⟩ (isSink dep.taskId
      ⟨(scheduled.known dep member).2, succCritical, leads.tail drives⟩)

omit [LinearOrder Id] in
theorem exists_isCritical (nonempty : tasks ≠ []) : ∃ id, schedule.IsCritical tasks id := by
  have earliest := scheduled.extreme.earliest
  have greatest := projectEnd_isGreatest schedule.nodes 0 nonempty
  have sameFinishes : {day | ∃ task ∈ tasks, day = (schedule.nodes task.id).earliestFinishDay} =
      {day | ∃ task ∈ tasks,
        day = (schedule.nodes task.id).earliestStartDay + durationOf task} := by
    ext day
    constructor
    · rintro ⟨task, taskMem, rfl⟩
      exact ⟨task, taskMem, scheduled.finishes task taskMem⟩
    · rintro ⟨task, taskMem, rfl⟩
      exact ⟨task, taskMem, (scheduled.finishes task taskMem).symm⟩
  rw [sameFinishes] at greatest
  have atMost := (scheduled.extreme.least nonempty).2 ⟨_, earliest.toAdmissible, greatest⟩
  obtain ⟨task, taskMem, isLast⟩ := greatest.1
  have ends := scheduled.extreme.latest.ends task taskMem
  exact ⟨task.id, (scheduled.isCritical_iff taskMem).mpr (by omega)⟩

end Scheduled

/-- On a non-empty set of tasks and an acyclic dependency graph over them, there is a critical
path, and it is what is computed. -/
theorem computeCriticalPath_hasCriticalPath (parse : String → Option Int)
    (calendar : Option WorkCalendar) (nonempty : tasks ≠ [])
    (unique : (tasks.map GanttCalcTask.id).Nodup)
    (known : ∀ dep ∈ dependencies, dep.dependsOnId ∈ tasks.map GanttCalcTask.id ∧
      dep.taskId ∈ tasks.map GanttCalcTask.id)
    (acyclic : Acyclic fun u v =>
      ∃ dep ∈ dependencies, dep.dependsOnId = u ∧ dep.taskId = v)
    (dated : ∀ task ∈ tasks, ∀ iso, task.startsAt = some iso → (parse iso).isSome) :
    ∃ schedule path, computeSchedule parse tasks dependencies calendar = .ok schedule ∧
      computeCriticalPath parse tasks dependencies calendar = .ok path ∧
        HasCriticalPath (startOf parse calendar tasks) tasks dependencies schedule path := by
  obtain ⟨schedule, computed, isOrder, finishes, extreme⟩ :=
    exists_computeSchedule known parse calendar unique acyclic dated
  have scheduled : Scheduled (startOf parse calendar tasks) tasks dependencies schedule :=
    ⟨unique, known, acyclic, finishes, extreme⟩
  have topological : Topological
      (fun u v => ∃ dep ∈ dependencies, dep.dependsOnId = u ∧ dep.taskId = v) schedule.order := by
    apply isOrder.topological.mono
    rintro u v ⟨dep, member, rfl, rfl⟩
    refine ⟨dep, mem_knownDependencies.mpr ⟨member, ?_⟩, rfl, rfl⟩
    simpa using known dep member
  refine ⟨schedule, schedule.order.filter fun id => (schedule.nodes id).slackDays = 0, computed,
    by rw [computeCriticalPath, computed]; rfl, scheduled.exists_isCritical nonempty, ?_, ?_,
    isOrder.nodup.filter _, (topological.pairwise isOrder.nodup).filter _⟩
  · intro id critical
    obtain ⟨first, firstMem, firstCritical, fromFirst, starts⟩ := scheduled.exists_first critical
    obtain ⟨last, lastMem, lastCritical, toLast, ends⟩ := scheduled.exists_last critical
    exact ⟨first, firstMem, last, lastMem, firstCritical, lastCritical, fromFirst, toLast,
      starts, ends⟩
  · intro id
    simp only [mem_filter, isOrder.mem, List.mem_map, decide_eq_true_eq]
    constructor
    · rintro ⟨⟨task, taskMem, rfl⟩, noSlack⟩
      exact ⟨task, taskMem, rfl, noSlack⟩
    · rintro ⟨task, taskMem, rfl, noSlack⟩
      exact ⟨⟨task, taskMem, rfl⟩, noSlack⟩

theorem hasCriticalPath_twoTasks :
    let parse := fun iso => if iso = "1970-01-06" then some (5 * MS_PER_DAY) else none
    let tasks : List (GanttCalcTask Nat) :=
      [⟨1, some "1970-01-06", 3⟩, ⟨2, none, 9 / 2⟩]
    let dependencies : List (GanttCalcDependency Nat) :=
      [{ taskId := 2, dependsOnId := 1, kind := some .SS, lagDays := some 2 }]
    ∃ schedule path, computeSchedule parse tasks dependencies none = .ok schedule ∧
      computeCriticalPath parse tasks dependencies none = .ok path ∧
        HasCriticalPath (startOf parse none tasks) tasks dependencies schedule path := by
  apply computeCriticalPath_hasCriticalPath
  · simp
  · simp
  · simp
  · apply acyclic_of_lt
    simp
  · simp

end DubEcosystem.GanttCalc
