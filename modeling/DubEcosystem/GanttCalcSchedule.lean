import DubEcosystem.GanttCalcTopologicalSort
import DubEcosystem.OrderedSweeps
import Mathlib.Data.Rat.Floor
import Mathlib.Algebra.Order.Group.MinMax

/-!
# Gantt calculation: the schedule

The forward and the backward pass of `schedule.ts`.  Every dependency kind asks
for one inequality between two start days, so the forward pass computes the
least assignment that meets them all and the backward pass, read in the reversed
order of the days, the greatest one that ends in time.
-/

namespace DubEcosystem.GanttCalc

open AcyclicOrders OrderedSweeps

def MS_PER_DAY : Int := 86400000

/-- `Math.trunc`. -/
def trunc (value : ℚ) : Int :=
  if 0 ≤ value then ⌊value⌋ else ⌈value⌉

structure GanttCalcTask (Id : Type) where
  id : Id
  startsAt : Option String
  durationDays : ℚ

structure Edge (Id : Type) where
  id : Id
  kind : DependencyKind
  lag : Int

structure WorkCalendar where
  toOrdinal : Int → Int
  fromOrdinal : Int → Int

structure DayMapper where
  fromDay : Int → Int
  toDay : Int → Int

structure ScheduleNode where
  earliestStartDay : Int := 0
  earliestFinishDay : Int := 0
  latestStartDay : Int := 0
  latestFinishDay : Int := 0
  slackDays : Int := 0

structure Schedule (Id : Type) where
  order : List Id
  nodes : Id → ScheduleNode
  projectStartDay : Int
  projectEndDay : Int
  toCalendarDay : Int → Int

variable {Id : Type} [LinearOrder Id]

def durationOf (task : GanttCalcTask Id) : Int :=
  max 0 (trunc task.durationDays)

def edgeOf (dep : GanttCalcDependency Id) : Edge Id where
  id := dep.dependsOnId
  kind := dep.kind.getD .FS
  lag := trunc (dep.lagDays.getD 0)

def mapperOf : Option WorkCalendar → DayMapper
  | some calendar => ⟨calendar.toOrdinal, calendar.fromOrdinal⟩
  | none => ⟨fun day => day, fun unit => unit⟩

variable (parse : String → Option Int)

/-- Whole days since the epoch; `parse` is `Date.parse`, in milliseconds. -/
def dayOf (iso field : String) : Except (DubError Id) Int :=
  match parse iso with
  | none =>
    .error
      { code := VALIDATION_FAILED, message := "Invalid ISO8601 date: " ++ iso
        status := 400, details := .field field "invalid_date" }
  | some ms => .ok (ms / MS_PER_DAY)

variable (tasks : List (GanttCalcTask Id))

def assertKnownRefs (dependencies : List (GanttCalcDependency Id)) : Except (DubError Id) Unit :=
  let unknown := unknownRefs (tasks.map GanttCalcTask.id) dependencies
  if unknown ≠ [] then
    .error
      { code := GANTT_CALC_UNKNOWN_TASK_REF
        message := "dependency references unknown task id", status := 422
        details := .unknownTaskIds (sorted unknown) }
  else .ok ()

def explicitStart (mapper : DayMapper)
    (task : GanttCalcTask Id) : Except (DubError Id) (Option Int) :=
  match task.startsAt with
  | none => .ok none
  | some iso => (dayOf parse iso "startsAt").map fun day => some (mapper.fromDay day)

def anchorUnit (mapper : DayMapper) (starts : List (Option Int)) : Int :=
  starts.reduceOption.min?.getD (mapper.fromDay 0)

def startConstraint (mapper : DayMapper) (anchor : Int) (task : GanttCalcTask Id) : Int :=
  match explicitStart parse mapper task with
  | .ok (some start) => start
  | _ => anchor

/-- `new Map(tasks.map((t) => [t.id, t])).get(id)`: the last one wins. -/
def byId (id : Id) : Option (GanttCalcTask Id) :=
  tasks.reverse.find? fun task => task.id = id

variable (dependencies : List (GanttCalcDependency Id))

def predecessors (id : Id) : List (Edge Id) :=
  (dependencies.filter fun dep => dep.taskId = id).map edgeOf

def successors (id : Id) : List (Edge Id) :=
  (dependencies.filter fun dep => dep.dependsOnId = id).map fun dep =>
    { edgeOf dep with id := dep.taskId }

def esConstraint (kind : DependencyKind) (pred : ScheduleNode) (lag succDur : Int) : Int :=
  match kind with
  | .SS => pred.earliestStartDay + lag
  | .FF => pred.earliestFinishDay + lag - succDur
  | .SF => pred.earliestStartDay + lag - succDur
  | .FS => pred.earliestFinishDay + lag

def lfConstraint (kind : DependencyKind) (succ : ScheduleNode) (lag predDur : Int) : Int :=
  match kind with
  | .SS => succ.latestStartDay - lag + predDur
  | .FF => succ.latestFinishDay - lag
  | .SF => succ.latestFinishDay - lag + predDur
  | .FS => succ.latestStartDay - lag

/-- One round of the forward pass. -/
def forwardStep (dependencies : List (GanttCalcDependency Id))
    (start : GanttCalcTask Id → Int) (nodes : Id → ScheduleNode) (id : Id)
    (node : ScheduleNode) : ScheduleNode :=
  match byId tasks id with
  | none => node
  | some task =>
    let dur := durationOf task
    let es := (predecessors dependencies id).foldl
      (fun es p => max es (esConstraint p.kind (nodes p.id) p.lag dur))
      (start task)
    { node with earliestStartDay := es, earliestFinishDay := es + dur }

/-- One round of the backward pass. -/
def backwardStep (dependencies : List (GanttCalcDependency Id)) (projectEndDay : Int)
    (nodes : Id → ScheduleNode) (id : Id) (node : ScheduleNode) : ScheduleNode :=
  match byId tasks id with
  | none => node
  | some task =>
    let dur := durationOf task
    let lf := (successors dependencies id).foldl
      (fun lf s => min lf (lfConstraint s.kind (nodes s.id) s.lag dur))
      projectEndDay
    { node with
      latestFinishDay := lf
      latestStartDay := lf - dur
      slackDays := lf - dur - node.earliestStartDay }

def projectEnd (anchor : Int) (nodes : Id → ScheduleNode) : Int :=
  (tasks.map fun task => (nodes task.id).earliestFinishDay).max?.getD anchor

def projectStart (anchor : Int) (nodes : Id → ScheduleNode) : Int :=
  (tasks.map fun task => (nodes task.id).earliestStartDay).min?.getD anchor

def computeSchedule (tasks : List (GanttCalcTask Id)) (dependencies : List (GanttCalcDependency Id))
    (calendar : Option WorkCalendar) : Except (DubError Id) (Schedule Id) := do
  assertKnownRefs tasks dependencies
  let order ← topologicalSort (tasks.map GanttCalcTask.id) dependencies
  let mapper := mapperOf calendar
  let starts ← tasks.mapM (explicitStart parse mapper)
  let anchor := anchorUnit mapper starts
  let forward := sweep
    (forwardStep tasks dependencies (startConstraint parse mapper anchor)) order
    fun _ => {}
  let projectEndDay := projectEnd tasks anchor forward
  pure
    { order
      nodes := sweep (backwardStep tasks dependencies projectEndDay) order.reverse forward
      projectStartDay := projectStart tasks anchor forward
      projectEndDay
      toCalendarDay := mapper.toDay }

/-- The earliest start of each task, where `isoAtDay` writes a day. -/
def computeRollup (isoAtDay : Int → String)
    (tasks : List (GanttCalcTask Id)) (dependencies : List (GanttCalcDependency Id))
    (calendar : Option WorkCalendar) : Except (DubError Id) (Id → String) :=
  (computeSchedule parse tasks dependencies calendar).map fun schedule id =>
    isoAtDay (schedule.toCalendarDay (schedule.nodes id).earliestStartDay)

def computeCriticalPath (tasks : List (GanttCalcTask Id))
    (dependencies : List (GanttCalcDependency Id)) (calendar : Option WorkCalendar) :
    Except (DubError Id) (List Id) :=
  (computeSchedule parse tasks dependencies calendar).map fun schedule =>
    schedule.order.filter fun id => (schedule.nodes id).slackDays = 0

/-- The inequality of a dependency kind between the start days of predecessor
and successor. -/
def Edge.Holds (edge : Edge Id) (S : Id → Int) (pred succ : GanttCalcTask Id) :
    Prop :=
  match edge.kind with
  | .FS => S pred.id + durationOf pred + edge.lag ≤ S succ.id
  | .SS => S pred.id + edge.lag ≤ S succ.id
  | .FF => S pred.id + durationOf pred + edge.lag ≤ S succ.id + durationOf succ
  | .SF => S pred.id + edge.lag ≤ S succ.id + durationOf succ

structure Admissible (start : GanttCalcTask Id → Int) (tasks : List (GanttCalcTask Id))
    (dependencies : List (GanttCalcDependency Id)) (S : Id → Int) : Prop where
  start : ∀ task ∈ tasks, start task ≤ S task.id
  dependency : ∀ dep ∈ dependencies, ∀ pred ∈ tasks, ∀ succ ∈ tasks,
    pred.id = dep.dependsOnId → succ.id = dep.taskId → (edgeOf dep).Holds S pred succ

structure Feasible (start : GanttCalcTask Id → Int) (tasks : List (GanttCalcTask Id))
    (dependencies : List (GanttCalcDependency Id)) (projectEndDay : Int)
    (S : Id → Int) : Prop extends Admissible start tasks dependencies S where
  ends : ∀ task ∈ tasks, S task.id + durationOf task ≤ projectEndDay

end DubEcosystem.GanttCalc
