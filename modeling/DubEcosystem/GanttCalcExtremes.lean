import Mathlib.Data.Int.ConditionallyCompleteOrder
import DubEcosystem.GanttCalcSchedule

/-!
# Gantt calculation: the two extreme schedules

Each dependency becomes one constraint on start days for the forward pass, and
its adjoint, over the reversed order of the days, for the backward pass.
-/

namespace DubEcosystem.GanttCalc

open AcyclicOrders OrderedSweeps List Option

variable {Id : Type} [LinearOrder Id] {tasks : List (GanttCalcTask Id)}
  {dependencies : List (GanttCalcDependency Id)}

theorem byId_of_mem (unique : (tasks.map GanttCalcTask.id).Nodup)
    {task : GanttCalcTask Id} (member : task ∈ tasks) :
    byId tasks task.id = some task := by
  have reversed : task ∈ tasks.reverse := mem_reverse.mpr member
  cases found : byId tasks task.id with
  | none =>
    have missing := List.find?_eq_none.mp found task reversed
    simp at missing
  | some other =>
    have otherMem := mem_reverse.mp (mem_of_find?_eq_some found)
    have sameId : other.id = task.id := by
      simpa using find?_some found
    rw [inj_on_of_nodup_map unique otherMem member sameId]

theorem exists_byId {id : Id} (member : id ∈ tasks.map GanttCalcTask.id) :
    ∃ task, byId tasks id = some task := by
  obtain ⟨task, taskMem, rfl⟩ := List.mem_map.mp member
  cases found : byId tasks task.id with
  | none =>
    have missing := List.find?_eq_none.mp found task (mem_reverse.mpr taskMem)
    simp at missing
  | some other => exact ⟨other, rfl⟩

def durationBy (tasks : List (GanttCalcTask Id)) (id : Id) : Int :=
  (byId tasks id).elim 0 durationOf

/-- What a dependency adds to the predecessor's start day. -/
def weight (tasks : List (GanttCalcTask Id)) (dep : GanttCalcDependency Id) : Int :=
  match (edgeOf dep).kind with
  | .FS => durationBy tasks dep.dependsOnId + (edgeOf dep).lag
  | .SS => (edgeOf dep).lag
  | .FF => durationBy tasks dep.dependsOnId + (edgeOf dep).lag - durationBy tasks dep.taskId
  | .SF => (edgeOf dep).lag - durationBy tasks dep.taskId

variable {dep : GanttCalcDependency Id} {S : Id → Int}

theorem holds_iff (unique : (tasks.map GanttCalcTask.id).Nodup) {pred succ : GanttCalcTask Id}
    (predMem : pred ∈ tasks) (succMem : succ ∈ tasks)
    (predId : pred.id = dep.dependsOnId) (succId : succ.id = dep.taskId) :
    (edgeOf dep).Holds S pred succ ↔ S dep.dependsOnId + weight tasks dep ≤ S dep.taskId := by
  have predDuration : durationBy tasks dep.dependsOnId = durationOf pred := by
    rw [← predId, durationBy, byId_of_mem unique predMem]
    rfl
  have succDuration : durationBy tasks dep.taskId = durationOf succ := by
    rw [← succId, durationBy, byId_of_mem unique succMem]
    rfl
  unfold Edge.Holds weight
  rw [predId, succId, predDuration, succDuration]
  cases (edgeOf dep).kind with
  | FS | FF | SF => simp only []; omega
  | SS => simp only []

def forwardArc (tasks : List (GanttCalcTask Id)) (dep : GanttCalcDependency Id) : Arc Id Int where
  source := dep.dependsOnId
  target := dep.taskId
  bound := ⟨fun day => day + weight tasks dep, fun _ _ le => by
    simp only []
    omega⟩

/-- Its adjoint: the latest start of the predecessor. -/
def backwardArc (tasks : List (GanttCalcTask Id)) (dep : GanttCalcDependency Id) :
    Arc Id (OrderDual Int) where
  source := dep.taskId
  target := dep.dependsOnId
  bound := ⟨fun day => OrderDual.toDual (OrderDual.ofDual day - weight tasks dep),
    fun first second le => by
      have reversed : OrderDual.ofDual second ≤ OrderDual.ofDual first := le
      simp only [OrderDual.toDual_le_toDual]
      omega⟩

/-- The lower bound of an id in the forward pass. -/
def startBy (start : GanttCalcTask Id → Int) (tasks : List (GanttCalcTask Id)) (id : Id) : Int :=
  (byId tasks id).elim 0 start

section

variable
  (known : ∀ dep ∈ dependencies, dep.dependsOnId ∈ tasks.map GanttCalcTask.id ∧ dep.taskId ∈ tasks.map GanttCalcTask.id)
include known

variable {start : GanttCalcTask Id → Int} {order : List Id}

theorem admissible_iff
    (unique : (tasks.map GanttCalcTask.id).Nodup)
    (covers : ∀ id, id ∈ order ↔ id ∈ tasks.map GanttCalcTask.id) :
    Admissible start tasks dependencies S ↔
      Meets order (startBy start tasks) (dependencies.map (forwardArc tasks)) S := by
  constructor
  · intro admissible
    constructor
    · intro id member
      obtain ⟨task, taskMem, rfl⟩ := List.mem_map.mp ((covers id).mp member)
      rw [startBy, byId_of_mem unique taskMem]
      exact admissible.start task taskMem
    · intro arc arcMem
      obtain ⟨dep, depMem, rfl⟩ := List.mem_map.mp arcMem
      obtain ⟨pred, predMem, predId⟩ := List.mem_map.mp (known dep depMem).1
      obtain ⟨succ, succMem, succId⟩ := List.mem_map.mp (known dep depMem).2
      exact (holds_iff unique predMem succMem predId succId).mp
        (admissible.dependency dep depMem pred predMem succ succMem predId succId)
  · intro meets
    constructor
    · intro task taskMem
      have bounded := meets.lower task.id ((covers task.id).mpr (mem_map_of_mem taskMem))
      rwa [startBy, byId_of_mem unique taskMem] at bounded
    · intro dep depMem pred predMem succ succMem predId succId
      exact (holds_iff unique predMem succMem predId succId).mpr
        (meets.arcs (forwardArc tasks dep) (mem_map_of_mem depMem))

section Passes

variable {order : List Id} {start : GanttCalcTask Id → Int}

/-- The equations of the forward pass. -/
structure ForwardEqs (tasks : List (GanttCalcTask Id))
    (dependencies : List (GanttCalcDependency Id))
    (start : GanttCalcTask Id → Int) (order : List Id)
    (nodes : Id → ScheduleNode) : Prop where
  earliestStart : ∀ id ∈ order, (nodes id).earliestStartDay =
    demand (startBy start tasks) (dependencies.map (forwardArc tasks))
      (fun other => (nodes other).earliestStartDay) id
  earliestFinish : ∀ id ∈ order, (nodes id).earliestFinishDay =
    (nodes id).earliestStartDay + durationBy tasks id

omit known in
theorem esConstraint_eq (tasks : List (GanttCalcTask Id)) {node : ScheduleNode}
    (finish : node.earliestFinishDay = node.earliestStartDay + durationBy tasks dep.dependsOnId) :
    esConstraint (edgeOf dep).kind node (edgeOf dep).lag (durationBy tasks dep.taskId) =
      node.earliestStartDay + weight tasks dep := by
  unfold esConstraint weight
  cases (edgeOf dep).kind with
  | FS | FF => simp only [finish]; omega
  | SS => rfl
  | SF => simp only []; omega

theorem forwardEqs (isOrder : IsOrder (tasks.map GanttCalcTask.id) dependencies order)
    (initial : Id → ScheduleNode) :
    ForwardEqs tasks dependencies start order
      (sweep (forwardStep tasks dependencies start) order initial) := by
  have reads : ∀ f g id node,
      (∀ u, Precedes (distinct (tasks.map GanttCalcTask.id)) dependencies u id → f u = g u) →
      forwardStep tasks dependencies start f id node =
        forwardStep tasks dependencies start g id node := by
    intro f g id node same
    have sameFold : ∀ dur initial, (predecessors dependencies id).foldl
          (fun es p => max es (esConstraint p.kind (f p.id) p.lag dur)) initial =
        (predecessors dependencies id).foldl
          (fun es p => max es (esConstraint p.kind (g p.id) p.lag dur)) initial := by
      intro dur initial
      apply foldl_ext
      intro es p pMem
      obtain ⟨dep, depMem, rfl⟩ := List.mem_map.mp pMem
      obtain ⟨depIn, target⟩ := mem_filter.mp depMem
      have precedes : Precedes (distinct (tasks.map GanttCalcTask.id)) dependencies
          (edgeOf dep).id id := by
        refine ⟨dep, mem_knownDependencies.mpr ⟨depIn, ?_⟩, rfl, by simpa using target⟩
        simpa using known dep depIn
      rw [same _ precedes]
    unfold forwardStep
    cases byId tasks id with
    | none => rfl
    | some task => simp only [sameFold]
  generalize solved : sweep (forwardStep tasks dependencies start) order initial = nodes
  have equation : ∀ id ∈ order, nodes id =
      forwardStep tasks dependencies start nodes id (initial id) := by
    intro id member
    rw [← solved]
    exact sweep_eq reads isOrder.topological isOrder.nodup initial member
  have finish : ∀ id ∈ order, (nodes id).earliestFinishDay =
      (nodes id).earliestStartDay + durationBy tasks id := by
    intro id member
    obtain ⟨task, found⟩ := exists_byId ((isOrder.mem id).mp member)
    rw [equation id member]
    simp [forwardStep, durationBy, found]
  refine ⟨?_, finish⟩
  intro id member
  obtain ⟨task, found⟩ := exists_byId ((isOrder.mem id).mp member)
  have duration : durationBy tasks id = durationOf task := by
    simp [durationBy, found]
  rw [equation id member]
  simp only [forwardStep, found, demand, startBy, Option.elim_some, predecessors,
    List.filter_map, foldl_map]
  apply foldl_ext
  intro es dep depMem
  obtain ⟨depIn, target⟩ := mem_filter.mp depMem
  have targetId : dep.taskId = id := by simpa using target
  have sourceMem := (isOrder.mem dep.dependsOnId).mpr (known dep depIn).1
  have constraint := esConstraint_eq tasks (finish dep.dependsOnId sourceMem)
  rw [targetId, duration] at constraint
  exact congrArg (max es) constraint

/-- The equations of the backward pass, in the reversed order of the days. -/
structure BackwardEqs (tasks : List (GanttCalcTask Id))
    (dependencies : List (GanttCalcDependency Id)) (projectEndDay : Int)
    (order : List Id) (nodes : Id → ScheduleNode) : Prop where
  latestStart : ∀ id ∈ order.reverse,
    OrderDual.toDual (nodes id).latestStartDay =
      demand (fun other => OrderDual.toDual (projectEndDay - durationBy tasks other))
        (dependencies.map (backwardArc tasks))
        (fun other => OrderDual.toDual (nodes other).latestStartDay) id
  slack : ∀ id ∈ order.reverse, (nodes id).slackDays =
    (nodes id).latestStartDay - (nodes id).earliestStartDay

omit known in
theorem lfConstraint_eq (tasks : List (GanttCalcTask Id)) {node : ScheduleNode}
    (finish : node.latestFinishDay = node.latestStartDay + durationBy tasks dep.taskId) :
    lfConstraint (edgeOf dep).kind node (edgeOf dep).lag
        (durationBy tasks dep.dependsOnId) - durationBy tasks dep.dependsOnId =
      node.latestStartDay - weight tasks dep := by
  unfold lfConstraint weight
  cases (edgeOf dep).kind with
  | FS | SS => simp only []; omega
  | FF | SF => simp only [finish]; omega

omit known in
/-- A minimum of finish days is, less the duration, a maximum in the reversed
order of the days. -/
theorem toDual_foldl_min {γ : Type} (values : List γ) (value : γ → Int) (limit dur : Int) :
    OrderDual.toDual (values.foldl (fun lf v => min lf (value v)) limit - dur) =
      values.foldl (fun least v => max least (OrderDual.toDual (value v - dur)))
        (OrderDual.toDual (limit - dur)) := by
  induction values generalizing limit with
  | nil => rfl
  | cons head rest ih =>
    rw [foldl_cons, foldl_cons, ih, ← min_sub_sub_right, toDual_min]

theorem backwardEqs (isOrder : IsOrder (tasks.map GanttCalcTask.id) dependencies order)
    (projectEndDay : Int) (initial : Id → ScheduleNode) :
    let nodes := sweep (backwardStep tasks dependencies projectEndDay) order.reverse
      initial
    BackwardEqs tasks dependencies projectEndDay order nodes ∧
      ∀ id, (nodes id).earliestStartDay = (initial id).earliestStartDay ∧
        (nodes id).earliestFinishDay = (initial id).earliestFinishDay := by
  have topological : Topological
      (fun u v => Precedes (distinct (tasks.map GanttCalcTask.id)) dependencies v u)
      order.reverse := by
    apply isOrder.topological.reverse isOrder.nodup
    intro u v precedes
    exact (isOrder.mem v).mpr (mem_distinct.mp precedes.target_mem)
  have reads : ∀ f g id node,
      (∀ u, Precedes (distinct (tasks.map GanttCalcTask.id)) dependencies id u → f u = g u) →
      backwardStep tasks dependencies projectEndDay f id node =
        backwardStep tasks dependencies projectEndDay g id node := by
    intro f g id node same
    have sameFold : ∀ dur, (successors dependencies id).foldl
          (fun lf s => min lf (lfConstraint s.kind (f s.id) s.lag dur)) projectEndDay =
        (successors dependencies id).foldl
          (fun lf s => min lf (lfConstraint s.kind (g s.id) s.lag dur))
            projectEndDay := by
      intro dur
      apply foldl_ext
      intro lf s sMem
      obtain ⟨dep, depMem, rfl⟩ := List.mem_map.mp sMem
      obtain ⟨depIn, source⟩ := mem_filter.mp depMem
      have precedes : Precedes (distinct (tasks.map GanttCalcTask.id)) dependencies
          id dep.taskId := by
        refine ⟨dep, mem_knownDependencies.mpr ⟨depIn, ?_⟩, by simpa using source, rfl⟩
        simpa using known dep depIn
      rw [same _ precedes]
    unfold backwardStep
    cases byId tasks id with
    | none => rfl
    | some task => simp only [sameFold]
  have keepsEarliest : ∀ f id node,
      (backwardStep tasks dependencies projectEndDay f id node).earliestStartDay =
        node.earliestStartDay ∧
      (backwardStep tasks dependencies projectEndDay f id node).earliestFinishDay =
        node.earliestFinishDay := by
    intro f id node
    unfold backwardStep
    cases byId tasks id <;> exact ⟨rfl, rfl⟩
  simp only []
  generalize solved : sweep (backwardStep tasks dependencies projectEndDay)
    order.reverse initial = nodes
  have equation : ∀ id ∈ order.reverse, nodes id =
      backwardStep tasks dependencies projectEndDay nodes id (initial id) := by
    intro id member
    rw [← solved]
    exact sweep_eq reads topological (nodup_reverse.mpr isOrder.nodup) initial member
  have inTasks : ∀ id ∈ order.reverse, id ∈ tasks.map GanttCalcTask.id :=
    fun id member => (isOrder.mem id).mp (mem_reverse.mp member)
  have finish : ∀ id ∈ order.reverse, (nodes id).latestFinishDay =
      (nodes id).latestStartDay + durationBy tasks id := by
    intro id member
    obtain ⟨task, found⟩ := exists_byId (inTasks id member)
    rw [equation id member]
    simp [backwardStep, durationBy, found]
  have earliest : ∀ id, (nodes id).earliestStartDay = (initial id).earliestStartDay ∧
      (nodes id).earliestFinishDay = (initial id).earliestFinishDay := by
    intro id
    by_cases member : id ∈ order.reverse
    · rw [equation id member]
      exact keepsEarliest nodes id (initial id)
    · rw [← solved, sweep_of_notMem _ member]
      exact ⟨rfl, rfl⟩
  refine ⟨⟨?_, ?_⟩, earliest⟩
  · intro id member
    obtain ⟨task, found⟩ := exists_byId (inTasks id member)
    have duration : durationBy tasks id = durationOf task := by
      simp [durationBy, found]
    rw [equation id member]
    simp only [backwardStep, found, demand, successors, List.filter_map,
      foldl_map, toDual_foldl_min, duration]
    apply foldl_ext
    intro least dep depMem
    obtain ⟨depIn, source⟩ := mem_filter.mp depMem
    have sourceId : dep.dependsOnId = id := by simpa using source
    have targetMem := mem_reverse.mpr ((isOrder.mem dep.taskId).mpr (known dep depIn).2)
    have constraint := lfConstraint_eq tasks (finish dep.taskId targetMem)
    rw [sourceId, duration] at constraint
    exact congrArg (fun day => max least (OrderDual.toDual day)) constraint
  · intro id member
    obtain ⟨task, found⟩ := exists_byId (inTasks id member)
    rw [equation id member]
    simp [backwardStep, found]

end Passes

omit known in
theorem backward_meets_iff {projectEndDay : Int} :
    Meets order.reverse (fun id => OrderDual.toDual (projectEndDay - durationBy tasks id))
        (dependencies.map (backwardArc tasks)) (fun id => OrderDual.toDual (S id)) ↔
      (∀ id ∈ order, S id + durationBy tasks id ≤ projectEndDay) ∧
        ∀ dep ∈ dependencies, S dep.dependsOnId + weight tasks dep ≤ S dep.taskId := by
  constructor
  · intro meets
    constructor
    · intro id member
      have ends : S id ≤ projectEndDay - durationBy tasks id :=
        meets.lower id (mem_reverse.mpr member)
      omega
    · intro dep depMem
      have adjoint : S dep.dependsOnId ≤ S dep.taskId - weight tasks dep :=
        meets.arcs (backwardArc tasks dep) (mem_map_of_mem depMem)
      omega
  · rintro ⟨ends, dependency⟩
    constructor
    · intro id member
      have bounded := ends id (mem_reverse.mp member)
      show S id ≤ projectEndDay - durationBy tasks id
      omega
    · intro arc arcMem
      obtain ⟨dep, depMem, rfl⟩ := List.mem_map.mp arcMem
      have respected := dependency dep depMem
      show S dep.dependsOnId ≤ S dep.taskId - weight tasks dep
      omega

omit [LinearOrder Id] known in
theorem projectEnd_isGreatest (nodes : Id → ScheduleNode) (anchor : Int) (nonempty : tasks ≠ []) :
    IsGreatest {day | ∃ task ∈ tasks, day = (nodes task.id).earliestFinishDay}
      (projectEnd tasks anchor nodes) := by
  have someFinish : tasks.map (fun task => (nodes task.id).earliestFinishDay) ≠ [] := by
    simpa using nonempty
  obtain ⟨last, isMax⟩ := ne_none_iff_exists'.mp (mt max?_eq_none_iff.mp someFinish)
  obtain ⟨lastMem, above⟩ := max?_eq_some_iff.mp isMax
  have same : projectEnd tasks anchor nodes = last := by
    rw [projectEnd, isMax, getD_some]
  rw [same]
  constructor
  · obtain ⟨task, taskMem, rfl⟩ := List.mem_map.mp lastMem
    exact ⟨task, taskMem, rfl⟩
  · rintro day ⟨task, taskMem, rfl⟩
    exact above _ (mem_map_of_mem taskMem)

/-- The schedule holds the two extreme feasible assignments, and ends as early
as any admissible one can. -/
structure IsExtreme (start : GanttCalcTask Id → Int) (tasks : List (GanttCalcTask Id))
    (dependencies : List (GanttCalcDependency Id)) (schedule : Schedule Id) :
    Prop where
  earliest : Feasible start tasks dependencies schedule.projectEndDay
    fun id => (schedule.nodes id).earliestStartDay
  latest : Feasible start tasks dependencies schedule.projectEndDay
    fun id => (schedule.nodes id).latestStartDay
  between : ∀ S, Feasible start tasks dependencies schedule.projectEndDay S →
    ∀ task ∈ tasks, (schedule.nodes task.id).earliestStartDay ≤ S task.id ∧
      S task.id ≤ (schedule.nodes task.id).latestStartDay
  slack : ∀ task ∈ tasks, (schedule.nodes task.id).slackDays =
    (schedule.nodes task.id).latestStartDay - (schedule.nodes task.id).earliestStartDay ∧
    0 ≤ (schedule.nodes task.id).slackDays
  least : tasks ≠ [] → IsLeast
    {finish | ∃ S, Admissible start tasks dependencies S ∧
      IsGreatest {day | ∃ task ∈ tasks, day = S task.id + durationOf task} finish}
    schedule.projectEndDay

/-- The equations of the two passes make a schedule extreme. -/
theorem isExtreme_of_eqs
    {schedule : Schedule Id} (unique : (tasks.map GanttCalcTask.id).Nodup)
    (isOrder : IsOrder (tasks.map GanttCalcTask.id) dependencies order)
    (forward : ∀ id ∈ order, (schedule.nodes id).earliestStartDay =
      demand (startBy start tasks) (dependencies.map (forwardArc tasks))
        (fun other => (schedule.nodes other).earliestStartDay) id)
    (backward : BackwardEqs tasks dependencies schedule.projectEndDay order schedule.nodes)
    (ends : tasks ≠ [] → IsGreatest
      {day | ∃ task ∈ tasks,
        day = (schedule.nodes task.id).earliestStartDay + durationOf task}
      schedule.projectEndDay) : IsExtreme start tasks dependencies schedule := by
  have topological : Topological (Leads (dependencies.map (forwardArc tasks))) order := by
    apply isOrder.topological.mono
    rintro u v ⟨arc, arcMem, rfl, rfl⟩
    obtain ⟨dep, depMem, rfl⟩ := List.mem_map.mp arcMem
    refine ⟨dep, mem_knownDependencies.mpr ⟨depMem, ?_⟩, rfl, rfl⟩
    simpa using known dep depMem
  have covers : ∀ u v, Leads (dependencies.map (forwardArc tasks)) u v → v ∈ order := by
    rintro u v ⟨arc, arcMem, -, rfl⟩
    obtain ⟨dep, depMem, rfl⟩ := List.mem_map.mp arcMem
    exact (isOrder.mem dep.taskId).mpr (known dep depMem).2
  have reversed : Topological (Leads (dependencies.map (backwardArc tasks)))
      order.reverse := by
    apply (topological.reverse isOrder.nodup covers).mono
    rintro u v ⟨arc, arcMem, rfl, rfl⟩
    obtain ⟨dep, depMem, rfl⟩ := List.mem_map.mp arcMem
    exact ⟨forwardArc tasks dep, mem_map_of_mem depMem, rfl, rfl⟩
  have inOrder : ∀ task ∈ tasks, task.id ∈ order := fun task taskMem =>
    (isOrder.mem task.id).mpr (mem_map_of_mem taskMem)
  have durationTask : ∀ task ∈ tasks, durationBy tasks task.id = durationOf task := by
    intro task taskMem
    rw [durationBy, byId_of_mem unique taskMem]
    rfl
  have endsBy : ∀ {S : Id → Int},
      (∀ task ∈ tasks, S task.id + durationOf task ≤ schedule.projectEndDay) ↔
        ∀ id ∈ order, S id + durationBy tasks id ≤ schedule.projectEndDay := by
    intro S
    constructor
    · intro onTasks id member
      obtain ⟨task, taskMem, rfl⟩ := List.mem_map.mp ((isOrder.mem id).mp member)
      rw [durationTask task taskMem]
      exact onTasks task taskMem
    · intro onOrder task taskMem
      rw [← durationTask task taskMem]
      exact onOrder task.id (inOrder task taskMem)
  -- The forward pass solves the equations of the constraints.
  have earliestMeets := meets_of_eq_demand forward (fun arc arcMem => by
    obtain ⟨dep, depMem, rfl⟩ := List.mem_map.mp arcMem
    exact (isOrder.mem dep.taskId).mpr (known dep depMem).2)
  have earliestAdmissible := (admissible_iff known unique isOrder.mem).mpr earliestMeets
  have earliest : Feasible start tasks dependencies schedule.projectEndDay
      fun id => (schedule.nodes id).earliestStartDay := by
    refine ⟨earliestAdmissible, ?_⟩
    intro task taskMem
    exact (ends (ne_nil_of_mem taskMem)).2 ⟨task, taskMem, rfl⟩
  -- The backward pass solves those of the adjoints.
  have latestMeets := meets_of_eq_demand backward.latestStart (fun arc arcMem => by
    obtain ⟨dep, depMem, rfl⟩ := List.mem_map.mp arcMem
    exact mem_reverse.mpr ((isOrder.mem dep.dependsOnId).mpr (known dep depMem).1))
  have between : ∀ S, Feasible start tasks dependencies schedule.projectEndDay S →
      ∀ task ∈ tasks, (schedule.nodes task.id).earliestStartDay ≤ S task.id ∧
        S task.id ≤ (schedule.nodes task.id).latestStartDay := by
    intro S feasible task taskMem
    have meets := (admissible_iff known unique isOrder.mem).mp feasible.toAdmissible
    constructor
    · exact le_of_eq_demand topological forward meets task.id (inOrder task taskMem)
    · have dualMeets := backward_meets_iff.mpr ⟨endsBy.mp feasible.ends,
        fun dep depMem => meets.arcs (forwardArc tasks dep) (mem_map_of_mem depMem)⟩
      exact le_of_eq_demand reversed backward.latestStart dualMeets task.id
        (mem_reverse.mpr (inOrder task taskMem))
  have earliestLeLatest := between _ earliest
  have latest : Feasible start tasks dependencies schedule.projectEndDay
      fun id => (schedule.nodes id).latestStartDay := by
    obtain ⟨latestEnds, adjoints⟩ := backward_meets_iff.mp latestMeets
    refine ⟨⟨?_, ?_⟩, endsBy.mpr latestEnds⟩
    · intro task taskMem
      exact (earliestAdmissible.start task taskMem).trans (earliestLeLatest task taskMem).2
    · intro dep depMem pred predMem succ succMem predId succId
      exact (holds_iff unique predMem succMem predId succId).mpr (adjoints dep depMem)
  refine ⟨earliest, latest, between, ?_, ?_⟩
  · intro task taskMem
    have slack := backward.slack task.id (mem_reverse.mpr (inOrder task taskMem))
    have ordered := (earliestLeLatest task taskMem).2
    exact ⟨slack, by omega⟩
  · intro nonempty
    refine ⟨⟨_, earliestAdmissible, ends nonempty⟩, ?_⟩
    rintro finish ⟨S, admissible, greatest⟩
    obtain ⟨task, taskMem, last⟩ := (ends nonempty).1
    have meets := (admissible_iff known unique isOrder.mem).mp admissible
    have below := le_of_eq_demand topological forward meets task.id (inOrder task taskMem)
    have within : S task.id + durationOf task ≤ finish :=
      greatest.2 ⟨task, taskMem, rfl⟩
    omega

/-- The start constraints that `computeSchedule` derives. -/
def startOf (parse : String → Option Int) (calendar : Option WorkCalendar)
    (tasks : List (GanttCalcTask Id)) : GanttCalcTask Id → Int :=
  let mapper := mapperOf calendar
  startConstraint parse mapper (anchorUnit mapper (tasks.map fun task =>
    (explicitStart parse mapper task).toOption.join))

omit [LinearOrder Id] known in
theorem mapM_explicitStart (parse : String → Option Int) (mapper : DayMapper)
    (dated : ∀ task ∈ tasks, ∀ iso, task.startsAt = some iso → (parse iso).isSome) :
    tasks.mapM (explicitStart parse mapper) =
      .ok (tasks.map fun task => (explicitStart parse mapper task).toOption.join) := by
  induction tasks with
  | nil => rfl
  | cons task rest ih =>
    have readable : ∃ start, explicitStart parse mapper task = .ok start := by
      unfold explicitStart
      cases given : task.startsAt with
      | none => exact ⟨none, rfl⟩
      | some iso =>
        obtain ⟨ms, parsed⟩ := isSome_iff_exists.mp (dated task (by simp) iso given)
        exact ⟨some (mapper.fromDay (ms / MS_PER_DAY)), by simp [dayOf, parsed, Except.map]⟩
    obtain ⟨start, read⟩ := readable
    have others := ih fun other member => dated other (by simp [member])
    rw [mapM_cons, others, map_cons, read]
    rfl

theorem assertKnownRefs_of_known : assertKnownRefs tasks dependencies = .ok () := by
  have none : unknownRefs (tasks.map GanttCalcTask.id) dependencies = [] :=
    unknownRefs_eq_nil.mpr fun dep member => (known dep member).symm
  simp [assertKnownRefs, none]

/-- On distinct tasks and an acyclic dependency graph over them, the schedule is computed, in
an order of the graph. -/
theorem exists_computeSchedule (parse : String → Option Int) (calendar : Option WorkCalendar)
    (unique : (tasks.map GanttCalcTask.id).Nodup)
    (acyclic : Acyclic fun u v => ∃ dep ∈ dependencies, dep.dependsOnId = u ∧ dep.taskId = v)
    (dated : ∀ task ∈ tasks, ∀ iso, task.startsAt = some iso → (parse iso).isSome) :
    ∃ schedule, computeSchedule parse tasks dependencies calendar = .ok schedule ∧
      IsOrder (tasks.map GanttCalcTask.id) dependencies schedule.order ∧
      (∀ task ∈ tasks, (schedule.nodes task.id).earliestFinishDay =
        (schedule.nodes task.id).earliestStartDay + durationOf task) ∧
      IsExtreme (startOf parse calendar tasks) tasks dependencies schedule := by
  have acyclicIds : Acyclic (Precedes (distinct (tasks.map GanttCalcTask.id)) dependencies) := by
    apply acyclic.mono
    rintro u v ⟨dep, member, source, target⟩
    exact ⟨dep, (mem_knownDependencies.mp member).1, source, target⟩
  obtain ⟨order, sortedTo, isOrder⟩ := topologicalSort_of_acyclic acyclicIds
  have starts := mapM_explicitStart parse (mapperOf calendar) dated
  let start := startOf parse calendar tasks
  let anchor := anchorUnit (mapperOf calendar) (tasks.map fun task =>
    (explicitStart parse (mapperOf calendar) task).toOption.join)
  let forward := sweep (forwardStep tasks dependencies start) order fun _ => {}
  let projectEndDay := projectEnd tasks anchor forward
  have forwards : ForwardEqs tasks dependencies start order forward :=
    forwardEqs known isOrder fun _ => {}
  obtain ⟨backwards, sameEarliest⟩ := backwardEqs known isOrder projectEndDay forward
  have computed : computeSchedule parse tasks dependencies calendar = .ok
      { order
        nodes := sweep (backwardStep tasks dependencies projectEndDay) order.reverse forward
        projectStartDay := projectStart tasks anchor forward
        projectEndDay
        toCalendarDay := (mapperOf calendar).toDay } := by
    simp only [computeSchedule, assertKnownRefs_of_known known, sortedTo, starts, bind,
      Except.bind, pure, Except.pure]
    rfl
  have finishes : ∀ task ∈ tasks, (forward task.id).earliestFinishDay =
      (forward task.id).earliestStartDay + durationOf task := by
    intro task taskMem
    have inOrder := (isOrder.mem task.id).mpr (mem_map_of_mem taskMem)
    rw [forwards.earliestFinish task.id inOrder, durationBy, byId_of_mem unique taskMem]
    rfl
  refine ⟨_, computed, isOrder, ?_, isExtreme_of_eqs known unique isOrder ?_ backwards ?_⟩
  · intro task taskMem
    simp only [sameEarliest]
    exact finishes task taskMem
  · intro id member
    simp only [sameEarliest]
    exact forwards.earliestStart id member
  · intro nonempty
    have greatest := projectEnd_isGreatest forward anchor nonempty
    convert greatest using 2
    ext day
    simp only [sameEarliest]
    constructor
    · rintro ⟨task, taskMem, rfl⟩
      exact ⟨task, taskMem, (finishes task taskMem).symm⟩
    · rintro ⟨task, taskMem, rfl⟩
      exact ⟨task, taskMem, finishes task taskMem⟩

end

/-- On distinct tasks and an acyclic dependency graph over them, the schedule is
computed and holds the two extreme feasible assignments. -/
theorem computeSchedule_isExtreme (parse : String → Option Int) (calendar : Option WorkCalendar)
    (unique : (tasks.map GanttCalcTask.id).Nodup)
    (known : ∀ dep ∈ dependencies, dep.dependsOnId ∈ tasks.map GanttCalcTask.id ∧
      dep.taskId ∈ tasks.map GanttCalcTask.id)
    (acyclic : Acyclic fun u v =>
      ∃ dep ∈ dependencies, dep.dependsOnId = u ∧ dep.taskId = v)
    (dated : ∀ task ∈ tasks, ∀ iso, task.startsAt = some iso → (parse iso).isSome) :
    ∃ schedule, computeSchedule parse tasks dependencies calendar = .ok schedule ∧
      IsExtreme (startOf parse calendar tasks) tasks dependencies schedule := by
  obtain ⟨schedule, computed, -, -, extreme⟩ :=
    exists_computeSchedule known parse calendar unique acyclic dated
  exact ⟨schedule, computed, extreme⟩

/-- A dated task, and one that may not finish before it starts. -/
theorem computeSchedule_isExtreme_twoTasks :
    let parse := fun iso => if iso = "1970-01-06" then some (5 * MS_PER_DAY) else none
    let tasks : List (GanttCalcTask Nat) :=
      [⟨1, some "1970-01-06", 3⟩, ⟨2, none, 9 / 2⟩]
    let dependencies : List (GanttCalcDependency Nat) :=
      [{ taskId := 2, dependsOnId := 1, kind := some .SF, lagDays := some (-2) }]
    ∃ schedule, computeSchedule parse tasks dependencies none = .ok schedule ∧
      IsExtreme (startOf parse none tasks) tasks dependencies schedule := by
  apply computeSchedule_isExtreme
  · simp
  · simp
  · apply acyclic_of_lt
    simp
  · simp

end DubEcosystem.GanttCalc
