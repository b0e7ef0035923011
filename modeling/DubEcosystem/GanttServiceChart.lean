import DubEcosystem.ForestWalks
import DubEcosystem.GanttCalcSchedule
import DubEcosystem.TaskServiceRepo
import Mathlib.Data.String.Basic

/-!
# gantt-service: the chart of an event

`dto.ts`: the bars, the hierarchy of the rows and their order.
-/

namespace DubEcosystem.GanttService

open Relation AcyclicOrders ForestWalks GanttCalc List Function
open TaskService (TaskDependency TaskPriority TaskStatus)

abbrev SourceTask :=
  TaskService.Task String

/-- `Date.parse`, `toISOString` of a day, the moment of the request, `Number.parseInt` (`none` is
NaN), `localeCompare`, and `sort`, which may do what it likes with a comparison that is not an
order. -/
structure Host where
  parseDate : String → Option Int
  isoAtDay : Int → String
  now : String
  parseInt : String → Option ℚ
  localeCompare : String → String → ℚ
  sort : (SourceTask → SourceTask → Option ℚ) → List SourceTask → List SourceTask
  sort_perm : ∀ compare tasks, (sort compare tasks).Perm tasks

variable (host : Host)

/-- A text that is neither absent nor empty. -/
def truthy (text : Option String) : Option String :=
  text.filter fun text => text ≠ ""

def progressOf : TaskStatus → Nat
  | .done => 100
  | _ => 0

def durationDaysOf : TaskPriority → Int
  | .urgent => 1
  | .high => 2
  | .medium => 3
  | .low => 5

structure GanttDependencyLine where
  id : String
  fromTaskId : String
  toTaskId : String
  type : DependencyKind
  lagDays : Nat

structure DerivedSchedule where
  esOffsetByTask : String → Option Int
  criticalTaskIds : List String

variable (live : List SourceTask)

def schedule (lines : List GanttDependencyLine) :
    Except (DubError String) DerivedSchedule := do
  let tasks := live.map fun task =>
    { id := task.id, startsAt := none, durationDays := durationDaysOf task.priority }
  let dependencies := lines.map fun line =>
    { taskId := line.toTaskId, dependsOnId := line.fromTaskId }
  let earliestStart ← computeRollup host.parseDate host.isoAtDay tasks dependencies none
  let criticalTaskIds ← computeCriticalPath host.parseDate tasks dependencies none
  let offsets ← live.mapM fun task =>
    (dayOf host.parseDate (earliestStart task.id) "date").map fun day => (task.id, day)
  pure
    { esOffsetByTask := fun id =>
        (offsets.reverse.find? fun offset => offset.1 = id).map fun offset => offset.2
      criticalTaskIds }

/-- A graph that cannot be scheduled gives no offsets. -/
def deriveSchedule (lines : List GanttDependencyLine) :
    DerivedSchedule :=
  match schedule host live lines with
  | .ok derived => derived
  | .error _ => ⟨fun _ => none, []⟩

section Hierarchy

variable (live : List SourceTask)

def effectiveParent (task : SourceTask) : Option String :=
  (truthy task.parentTaskId).filter fun parent => parent ∈ live.map TaskService.Task.id

/-- `parentOf.get(id)`: the last row with the id wins. -/
def parentOf (id : String) : Option String :=
  (live.reverse.find? fun task => task.id = id).bind (effectiveParent live)

def hasChildren (id : String) : Bool :=
  live.any fun task => effectiveParent live task = some id

/-- The depth of a row, and what is remembered of the depths; `guard` holds the rows on the way
here. -/
def depth : Nat → String → List String → (String → Option Nat) → Nat × (String → Option Nat)
  | 0, _, _, depthOf => (0, depthOf)
  | fuel + 1, id, guard, depthOf =>
    match depthOf id with
    | some cached => (cached, depthOf)
    | none =>
      match (parentOf live id).filter fun _ => id ∉ guard with
      | none => (0, update depthOf id (some 0))
      | some parent =>
        let (above, depthOf) := depth fuel parent (id :: guard) depthOf
        (above + 1, update depthOf id (some (above + 1)))

def depths : String → Option Nat :=
  live.foldl (fun depthOf task => (depth live (live.length + 2) task.id [] depthOf).2) fun _ => none

end Hierarchy

/-- The difference of two numbers that differ, as NaN does from every number. -/
def compareAt (x y rest : Option ℚ) : Option ℚ :=
  match x, y with
  | some x, some y => if x ≠ y then some (x - y) else rest
  | _, _ => none

/-- Position by position; a missing number is -1. -/
def compareParts (pa pb : List (Option ℚ)) : Option ℚ :=
  (List.range (max pa.length pb.length)).foldr
    (fun i rest => compareAt (pa.getD i (some (-1))) (pb.getD i (some (-1))) rest) (some 0)

/-- `none` is NaN. -/
def compareWbs (a b : Option String) : Option ℚ :=
  match truthy a, truthy b with
  | none, none => some 0
  | none, some _ => some 1
  | some _, none => some (-1)
  | some a, some b =>
    compareParts ((a.splitOn ".").map host.parseInt) ((b.splitOn ".").map host.parseInt)

def sortSiblings (a b : SourceTask) : Option ℚ :=
  let w := compareWbs host a.wbs b.wbs
  if w ≠ some 0 then w else some (host.localeCompare a.title b.title)

/-- The rows below a parent, or the rows at the top, in their order. -/
def childrenOf (parent : Option String) : List SourceTask :=
  host.sort (sortSiblings host) (live.filter fun task => parentOf live task.id = parent)

/-- Every parent is followed by what is below it; a row that was not reached comes last. -/
def orderRows : List SourceTask :=
  let ordered := walk TaskService.Task.id (childrenOf host live) (live.length + 1) none []
  if ordered.length < live.length then
    ordered ++ (host.sort (sortSiblings host) live).filter fun task =>
      task.id ∉ ordered.map TaskService.Task.id
  else ordered

structure GanttRow where
  taskId : String
  title : String
  startsAt : Option String
  endsAt : Option String
  progressPercent : Nat
  assigneeId : Option String
  teamId : Option String
  parentTaskId : Option String
  depth : Nat
  hasChildren : Bool
  wbs : Option String

structure GanttChartDTO where
  eventId : String
  rows : List GanttRow
  dependencies : List GanttDependencyLine
  criticalTaskIds : List String

def barOf (anchorDay : Int) (derived : DerivedSchedule) (task : SourceTask) :
    Except (DubError String) (Option String × Option String) :=
  let dur := durationDaysOf task.priority
  match truthy task.startAt, truthy task.dueAt with
  | some startAt, some dueAt => .ok (some startAt, some dueAt)
  | none, some dueAt =>
    (dayOf host.parseDate dueAt "date").map fun day => (some (host.isoAtDay (day - dur)), some dueAt)
  | some startAt, none =>
    (dayOf host.parseDate startAt "date").map fun day =>
      (some startAt, some (host.isoAtDay (day + dur)))
  | none, none =>
    .ok (match derived.esOffsetByTask task.id with
      | none => (none, none)
      | some offset =>
        (some (host.isoAtDay (anchorDay + offset)), some (host.isoAtDay (anchorDay + offset + dur))))

def toRow (anchorDay : Int) (derived : DerivedSchedule)
    (task : SourceTask) : Except (DubError String) GanttRow := do
  let isParent := hasChildren live task.id
  let (startsAt, endsAt) ←
    if isParent then pure (none, none) else barOf host anchorDay derived task
  pure
    { taskId := task.id, title := task.title, startsAt, endsAt
      progressPercent := progressOf task.status, assigneeId := task.assigneeId
      teamId := task.teamId, parentTaskId := parentOf live task.id
      depth := (depths live task.id).getD 0, hasChildren := isParent, wbs := truthy task.wbs }

def anchorDayOf : Except (DubError String) Int := do
  let explicitStarts ← (live.filterMap fun task => truthy task.startAt).mapM fun startAt =>
    dayOf host.parseDate startAt "date"
  let dueStarts ← (live.filterMap fun task => task.dueAt.map fun dueAt => (dueAt, task.priority)).mapM
    fun due => (dayOf host.parseDate due.1 "date").map fun day => day - durationDaysOf due.2
  match (explicitStarts ++ dueStarts).min? with
  | some day => pure day
  | none =>
    let created ← live.mapM fun task => dayOf host.parseDate task.createdAt "date"
    match created.min? with
    | some day => pure day
    | none => dayOf host.parseDate host.now "date"

def lineOf (dep : TaskDependency String) : GanttDependencyLine :=
  ⟨dep.taskId ++ "->" ++ dep.dependsOnId, dep.dependsOnId, dep.taskId, .FS, 0⟩

/-- The lines between rows of the chart, each once. -/
def linesOf (ids : List String) : List (TaskDependency String) → List String →
    List GanttDependencyLine
  | [], _ => []
  | dep :: rest, seen =>
    let line := lineOf dep
    if dep.taskId ∉ ids ∨ dep.dependsOnId ∉ ids ∨ line.id ∈ seen then linesOf ids rest seen
    else line :: linesOf ids rest (line.id :: seen)

def buildGanttChartDTO (eventId : String) (tasks : List SourceTask)
    (dependencies : List (TaskDependency String)) : Except (DubError String) GanttChartDTO := do
  let live := tasks.filter fun task => task.archivedAt = none
  let lines := linesOf (live.map TaskService.Task.id) dependencies []
  let derived := deriveSchedule host live lines
  let anchorDay ← anchorDayOf host live
  -- `byId.get(t.id)` gives the last row with the id.
  let rows ← (orderRows host live).mapM fun task =>
    toRow host live anchorDay derived
      ((live.reverse.find? fun other => other.id = task.id).getD task)
  pure { eventId, rows, dependencies := lines, criticalTaskIds := derived.criticalTaskIds }

section Placing

variable {host} {live : List SourceTask}

def Link (live : List SourceTask) (lower upper : String) : Prop :=
  parentOf live lower = some upper

variable {task : SourceTask}

theorem find_of_mem (nodup : (live.map TaskService.Task.id).Nodup)
    (member : task ∈ live) : (live.reverse.find? fun other => other.id = task.id) = some task := by
  cases found : live.reverse.find? fun other => other.id = task.id with
  | none =>
    have notIt := List.find?_eq_none.mp found task (mem_reverse.mpr member)
    simp at notIt
  | some other =>
    have otherMem : other ∈ live := mem_reverse.mp (mem_of_find?_eq_some found)
    have sameId : other.id = task.id := by simpa using find?_some found
    rw [inj_on_of_nodup_map nodup otherMem member sameId]

theorem parentOf_of_mem (nodup : (live.map TaskService.Task.id).Nodup)
    (member : task ∈ live) : parentOf live task.id = effectiveParent live task := by
  rw [parentOf, find_of_mem nodup member, Option.bind_some]

theorem Link.rows {lower upper : String} (link : Link live lower upper) :
    (∃ task ∈ live, task.id = lower) ∧ ∃ task ∈ live, task.id = upper := by
  obtain ⟨task, found, isParent⟩ := Option.bind_eq_some_iff.mp link
  obtain ⟨-, isRow⟩ := Option.filter_eq_some_iff.mp isParent
  refine ⟨⟨task, mem_reverse.mp (mem_of_find?_eq_some found), ?_⟩, ?_⟩
  · simpa using find?_some found
  · simpa using isRow

theorem mem_childrenOf {parent : Option String} :
    task ∈ childrenOf host live parent ↔ task ∈ live ∧ parentOf live task.id = parent := by
  rw [childrenOf, (host.sort_perm _ _).mem_iff, mem_filter]
  exact and_congr_right fun _ => decide_eq_true_iff

theorem isKid_iff {lower upper : String} :
    IsKid TaskService.Task.id (childrenOf host live) lower upper ↔ Link live lower upper := by
  constructor
  · rintro ⟨task, member, rfl⟩
    exact (mem_childrenOf.mp member).2
  · intro link
    obtain ⟨task, member, rfl⟩ := link.rows.1
    exact ⟨task, mem_childrenOf.mpr ⟨member, link⟩, rfl⟩

theorem orderRows_placed (nodup : (live.map TaskService.Task.id).Nodup)
    (acyclic : Acyclic (Link live)) :
    (orderRows host live).Perm live ∧
      Placed TaskService.Task.id (childrenOf host live) (orderRows host live) := by
  have isAcyclic : Acyclic (IsKid TaskService.Task.id (childrenOf host live)) :=
    acyclic.mono fun lower upper isKid => isKid_iff.mp isKid
  have all := @walk_lists_all _ _ _ _ _ live (fun task => parentOf live task.id)
    (fun task parent => mem_childrenOf)
    (fun task member upper isParent => (show Link live task.id upper from isParent).rows.2)
    isAcyclic _ (Nat.lt_succ_self live.length)
  have within : Within TaskService.Task.id (live.map TaskService.Task.id)
      (walk TaskService.Task.id (childrenOf host live) (live.length + 1) none []) :=
    (@walk_completes _ _ TaskService.Task.id (childrenOf host live) _ _
      (fun parent task member => mem_map_of_mem (mem_childrenOf.mp member).1)
      (live.length + 1) none [] ⟨by simp, by simp⟩ (by simp)).1.within
  obtain ⟨isPlaced, block, isBlock, fromKids⟩ := @walk_extends _ _ TaskService.Task.id (childrenOf host live) _
    (fun task first second isFirst isSecond =>
      (mem_childrenOf.mp isFirst).2.symm.trans (mem_childrenOf.mp isSecond).2)
    (live.length + 1) none [] (fun upper isUpper => by cases isUpper) placed_nil
  unfold orderRows
  generalize walk TaskService.Task.id (childrenOf host live) (live.length + 1) none [] = ordered
    at all within isPlaced isBlock
  have isPerm : ordered.Perm live := by
    apply (perm_ext_iff_of_nodup within.nodup.of_map nodup.of_map).mpr
    intro task
    constructor
    · intro member
      obtain ⟨⟨parent, isKid⟩, -⟩ := fromKids task (by simpa [isBlock] using member)
      exact (mem_childrenOf.mp isKid).1
    · intro member
      obtain ⟨other, otherMem, sameId⟩ := List.mem_map.mp (all task member)
      obtain ⟨⟨parent, isKid⟩, -⟩ := fromKids other (by simpa [isBlock] using otherMem)
      rw [← inj_on_of_nodup_map nodup (mem_childrenOf.mp isKid).1 member sameId]
      exact otherMem
  rw [if_neg (by simp [isPerm.length_eq])]
  exact ⟨isPerm, isPlaced⟩

/-- How far a row is below the top. -/
inductive HasDepth (live : List SourceTask) : String → Nat → Prop
  | top {id} (isTop : parentOf live id = none) : HasDepth live id 0
  | under {id parent above} (link : Link live id parent) (isAbove : HasDepth live parent above) :
      HasDepth live id (above + 1)

theorem HasDepth.under_iff {lower upper : String} {below above : Nat} (link : Link live lower upper)
    (isBelow : HasDepth live lower below) (isAbove : HasDepth live upper above) :
    below = above + 1 := by
  induction isBelow generalizing upper above with
  | top isTop => simp [Link, isTop] at link
  | @under id parent itsAbove itsLink hasAbove ih =>
    obtain rfl : parent = upper := Option.some.inj (itsLink.symm.trans link)
    cases isAbove with
    | top isTop =>
      cases hasAbove with
      | top => rfl
      | under further => simp [Link, isTop] at further
    | under further isFurther => rw [ih further isFurther]

def Remembers (live : List SourceTask) (depthOf : String → Option Nat) : Prop :=
  ∀ id d, depthOf id = some d → HasDepth live id d

theorem Remembers.update {depthOf : String → Option Nat} (remembers : Remembers live depthOf)
    {id : String} {d : Nat} (isDepth : HasDepth live id d) :
    Remembers live (update depthOf id (some d)) := by
  intro other otherDepth isOther
  by_cases same : other = id
  · subst same
    rw [update_self] at isOther
    exact Option.some.inj isOther ▸ isDepth
  · rw [update_of_ne same] at isOther
    exact remembers other otherDepth isOther

/-- A row whose way here is below it has a depth, which is remembered from then on. -/
theorem depth_spec (acyclic : Acyclic (Link live)) (fuel : Nat) {id : String}
    {guard : List String} {depthOf : String → Option Nat} (remembers : Remembers live depthOf)
    (nodup : guard.Nodup) (areBelow : ∀ lower ∈ guard, TransGen (Link live) lower id)
    (enough : live.length < fuel + guard.length) :
    let result := depth live fuel id guard depthOf
    HasDepth live id result.1 ∧ Remembers live result.2 ∧ result.2 id = some result.1 ∧
      ∀ other, (depthOf other).isSome → (result.2 other).isSome := by
  induction fuel generalizing id guard depthOf with
  | zero =>
    have isSubset : guard ⊆ live.map TaskService.Task.id := by
      intro lower member
      obtain ⟨upper, link, -⟩ := TransGen.head'_iff.mp (areBelow lower member)
      obtain ⟨task, taskMem, rfl⟩ := link.rows.1
      exact mem_map_of_mem taskMem
    have short := (nodup.subperm isSubset).length_le
    simp only [length_map] at short
    omega
  | succ fuel ih =>
    have notGuarded : id ∉ guard := fun member => acyclic id (areBelow id member)
    unfold depth
    cases cached : depthOf id with
    | some d => exact ⟨remembers id d cached, remembers, cached, fun _ isSome => isSome⟩
    | none =>
      cases isParent : parentOf live id with
      | none =>
        refine ⟨.top isParent, remembers.update (.top isParent), by simp, fun other isSome => ?_⟩
        simp only [Option.filter_none]
        by_cases same : other = id
        · simp [same]
        · rwa [update_of_ne same]
      | some parent =>
        have link : Link live id parent := isParent
        obtain ⟨isAbove, stillRemembers, -, keeps⟩ := @ih parent (id :: guard) _
          remembers (nodup_cons.mpr ⟨notGuarded, nodup⟩)
          (fun lower member => by
            rcases mem_cons.mp member with rfl | member
            · exact .single link
            · exact (areBelow lower member).tail link)
          (by simp only [length_cons]; omega)
        simp only [Option.filter_some, notGuarded, not_false_eq_true, decide_true, if_true]
        refine ⟨.under link isAbove, stillRemembers.update (.under link isAbove), by simp,
          fun other isSome => ?_⟩
        by_cases same : other = id
        · simp [same]
        · rw [update_of_ne same]
          exact keeps other isSome

theorem depths_spec (acyclic : Acyclic (Link live)) (member : task ∈ live) :
    HasDepth live task.id ((depths live task.id).getD 0) := by
  have folds : ∀ (rest : List SourceTask) (depthOf : String → Option Nat), Remembers live depthOf →
      Remembers live (rest.foldl (fun depthOf task =>
        (depth live (live.length + 2) task.id [] depthOf).2) depthOf) ∧
        ∀ id, (depthOf id).isSome ∨ (∃ task ∈ rest, task.id = id) → (rest.foldl (fun depthOf task =>
            (depth live (live.length + 2) task.id [] depthOf).2) depthOf id).isSome := by
    intro rest
    induction rest with
    | nil => exact fun depthOf remembers => ⟨remembers, by simp⟩
    | cons head tail ih =>
      intro depthOf remembers
      obtain ⟨-, still, isHead, keeps⟩ := @depth_spec _ acyclic (live.length + 2) head.id
        [] depthOf remembers nodup_nil (by simp) (by simp)
      obtain ⟨remembersAll, isSome⟩ := ih _ still
      refine ⟨remembersAll, fun id isKnown => isSome id ?_⟩
      rcases isKnown with isKnown | ⟨other, otherMem, rfl⟩
      · exact .inl (keeps id isKnown)
      · rcases mem_cons.mp otherMem with rfl | otherMem
        · exact .inl (by rw [isHead]; rfl)
        · exact .inr ⟨other, otherMem, rfl⟩
  obtain ⟨remembers, isSome⟩ := folds live (fun _ => none) fun _ _ isSome => by cases isSome
  obtain ⟨d, isDepth⟩ := Option.isSome_iff_exists.mp (isSome task.id (.inr ⟨task, member, rfl⟩))
  have found : depths live task.id = some d := isDepth
  rw [found]
  exact remembers task.id d isDepth

end Placing

section Built

variable {host} {live tasks : List SourceTask} {dependencies : List (TaskDependency String)}
  {eventId : String} {dto : GanttChartDTO}

theorem map_of_mapM {α β γ ε : Type} {f : α → Except ε β} {shown : β → γ} {shape : α → γ}
    (keeps : ∀ item value, f item = .ok value → shown value = shape item) {items : List α}
    {values : List β} (built : items.mapM f = .ok values) :
    values.map shown = items.map shape := by
  induction items generalizing values with
  | nil => cases built; rfl
  | cons item items ih =>
    rw [mapM_cons] at built
    cases first : f item with
    | error thrown => simp [first, bind, Except.bind] at built
    | ok value =>
      cases rest : items.mapM f with
      | error thrown => simp [first, rest, bind, Except.bind] at built
      | ok further =>
        simp only [first, rest, bind, Except.bind, pure, Except.pure] at built
        cases built
        rw [map_cons, map_cons, keeps item value first, ih rest]

theorem mapM_ok {α β ε : Type} {f : α → Except ε β} {items : List α}
    (total : ∀ item ∈ items, ∃ value, f item = .ok value) : ∃ values, items.mapM f = .ok values := by
  induction items with
  | nil => exact ⟨[], rfl⟩
  | cons item items ih =>
    obtain ⟨value, first⟩ := total item (.head _)
    obtain ⟨further, rest⟩ := ih fun other member => total other (mem_cons_of_mem item member)
    exact ⟨value :: further, by
      simp [mapM_cons, first, rest, bind, Except.bind, pure, Except.pure]⟩

/-- What places a row in the chart. -/
abbrev GanttRow.place (row : GanttRow) : String × Option String × Nat :=
  (row.taskId, row.parentTaskId, row.depth)

abbrev placeOf (live : List SourceTask) (task : SourceTask) : String × Option String × Nat :=
  (task.id, parentOf live task.id, (depths live task.id).getD 0)

variable {derived : DerivedSchedule} {task : SourceTask}

theorem toRow_place {anchorDay : Int}
    {row : GanttRow} (built : toRow host live anchorDay derived task = .ok row) :
    row.place = placeOf live task := by
  unfold toRow at built
  cases isParent : hasChildren live task.id with
  | true =>
    simp only [isParent, if_true, pure, Except.pure, bind, Except.bind] at built
    exact Except.ok.inj built ▸ rfl
  | false =>
    cases bar : barOf host anchorDay derived task with
    | error thrown => simp [isParent, bar, bind, Except.bind] at built
    | ok ends =>
      simp only [isParent, bar, Bool.false_eq_true, if_false, pure, Except.pure, bind,
        Except.bind] at built
      exact Except.ok.inj built ▸ rfl

namespace GanttChartDTO

def Under (dto : GanttChartDTO) (lower upper : String) : Prop :=
  ∃ row ∈ dto.rows, row.taskId = lower ∧ row.parentTaskId = some upper

/-- The child has a row directly inside the block of its parent: one level below the row of the
parent, and after it with nothing between but what is below the parent. -/
def Places (dto : GanttChartDTO) (child parent : String) : Prop :=
  ∃ before top inside row after, dto.rows = before ++ top :: inside ++ row :: after ∧
    top.taskId = parent ∧ row.taskId = child ∧ row.parentTaskId = some parent ∧
      row.depth = top.depth + 1 ∧ ∀ other ∈ inside, TransGen dto.Under other.taskId parent

end GanttChartDTO

section

variable (built : buildGanttChartDTO host eventId tasks dependencies = .ok dto)
include built

theorem rows_of_built :
    let live := tasks.filter fun task => task.archivedAt = none
    dto.rows.map GanttRow.place = (orderRows host live).map (placeOf live) := by
  intro live
  unfold buildGanttChartDTO at built
  cases anchored : anchorDayOf host live with
  | error thrown => simp [live, anchored, bind, Except.bind] at built
  | ok anchorDay =>
    simp only [live, anchored, bind, Except.bind] at built
    split at built
    · cases built
    · rename_i rows isRows
      cases built
      apply map_of_mapM _ isRows
      intro task row isRow
      rw [toRow_place isRow]
      have sameId : ((live.reverse.find? fun other => other.id = task.id).getD task).id =
          task.id := by
        cases found : live.reverse.find? fun other => other.id = task.id with
        | none => rfl
        | some other => simpa using find?_some found
      rw [placeOf, sameId]

theorem under_of_link
    (complete : (orderRows host (tasks.filter fun task => task.archivedAt = none)).Perm
      (tasks.filter fun task => task.archivedAt = none)) {lower upper : String}
    (link : Link (tasks.filter fun task => task.archivedAt = none) lower upper) :
    dto.Under lower upper := by
  obtain ⟨⟨task, member, rfl⟩, -⟩ := link.rows
  have place := mem_map_of_mem (f := placeOf (tasks.filter fun task => task.archivedAt = none))
    (complete.mem_iff.mpr member)
  rw [← rows_of_built built] at place
  obtain ⟨row, rowMem, isRow⟩ := List.mem_map.mp place
  obtain ⟨isTask, isParent, -⟩ : row.taskId = task.id ∧ row.parentTaskId = parentOf _ task.id ∧
      row.depth = _ := by simpa [Prod.ext_iff] using isRow
  exact ⟨row, rowMem, isTask, isParent.trans link⟩

theorem places_of_built
    (nodup : ((tasks.filter fun task => task.archivedAt = none).map TaskService.Task.id).Nodup)
    (acyclic : Acyclic (Link (tasks.filter fun task => task.archivedAt = none)))
    {lower upper : String}
    (link : Link (tasks.filter fun task => task.archivedAt = none) lower upper) :
    dto.Places lower upper := by
  obtain ⟨complete, placed⟩ := @orderRows_placed host _ nodup acyclic
  have shape := rows_of_built built
  have unders : ∀ {below above}, Link _ below above → dto.Under below above :=
    fun itsLink => under_of_link built complete itsLink
  generalize (tasks.filter fun task => task.archivedAt = none) = live at *
  obtain ⟨⟨task, member, rfl⟩, parent, parentMem, isParent⟩ := link.rows
  obtain ⟨listed, after, order, before, top, inside, rfl, isTop, below⟩ :=
    placed task (complete.mem_iff.mpr member) upper (mem_childrenOf.mpr ⟨member, link⟩)
  have topMem : top ∈ live := complete.mem_iff.mp (by simp [order])
  simp only [order, append_assoc, cons_append, map_append, map_cons] at shape
  obtain ⟨rowsBefore, rest, isRows, isBefore, isRest⟩ := map_eq_append_iff.mp shape
  obtain ⟨topRow, rest, rfl, isTopRow, isRest⟩ := map_eq_cons_iff.mp isRest
  obtain ⟨rowsInside, rest, rfl, isInside, isRest⟩ := map_eq_append_iff.mp isRest
  obtain ⟨row, rowsAfter, rfl, isRow, isAfter⟩ := map_eq_cons_iff.mp isRest
  simp only [Prod.mk.injEq] at isTopRow isRow
  obtain ⟨topId, -, topDepth⟩ := isTopRow
  obtain ⟨rowId, rowParent, rowDepth⟩ := isRow
  refine ⟨rowsBefore, topRow, rowsInside, row, rowsAfter, by simp [isRows], topId.trans isTop, rowId,
    rowParent.trans link, ?_, ?_⟩
  · rw [rowDepth, topDepth]
    exact (depths_spec acyclic member).under_iff (isTop ▸ link) (depths_spec acyclic topMem)
  · intro other otherMem
    have otherPlace := mem_map_of_mem (f := GanttRow.place) otherMem
    rw [isInside] at otherPlace
    obtain ⟨source, sourceMem, isSource⟩ := List.mem_map.mp otherPlace
    have sameId : source.id = other.taskId := (Prod.mk.inj isSource).1
    rw [← sameId]
    exact TransGen.mono (fun _ _ isKid => unders (isKid_iff.mp isKid)) _ _ (below source sourceMem)

end

/-- The dates of a task that a chart reads. -/
structure Readable (host : Host) (task : SourceTask) : Prop where
  startAt : ∀ date, truthy task.startAt = some date → (host.parseDate date).isSome
  dueAt : ∀ date, task.dueAt = some date → (host.parseDate date).isSome
  createdAt : (host.parseDate task.createdAt).isSome

theorem dayOf_ok {date field : String} (parses : (host.parseDate date).isSome) :
    ∃ day, (dayOf host.parseDate date field : Except (DubError String) Int) = .ok day := by
  obtain ⟨time, isTime⟩ := Option.isSome_iff_exists.mp parses
  simp [dayOf, isTime]

theorem barOf_ok {anchorDay : Int} {derived : DerivedSchedule} {task : SourceTask}
    (readable : Readable host task) : ∃ ends, barOf host anchorDay derived task = .ok ends := by
  have due : ∀ date, truthy task.dueAt = some date → (host.parseDate date).isSome :=
    fun date isDate => readable.dueAt date (Option.filter_eq_some_iff.mp isDate).1
  unfold barOf
  cases starts : truthy task.startAt with
  | none =>
    cases ends : truthy task.dueAt with
    | none => exact ⟨_, rfl⟩
    | some dueAt =>
      obtain ⟨day, isDay⟩ := @dayOf_ok host _ "date" (due dueAt ends)
      simp [isDay, Except.map]
  | some startAt =>
    cases ends : truthy task.dueAt with
    | some dueAt => exact ⟨_, rfl⟩
    | none =>
      obtain ⟨day, isDay⟩ := @dayOf_ok host _ "date" (readable.startAt startAt starts)
      simp [isDay, Except.map]

theorem toRow_ok {anchorDay : Int}
    (readable : Readable host task) : ∃ row, toRow host live anchorDay derived task = .ok row := by
  obtain ⟨ends, isBar⟩ := @barOf_ok host anchorDay derived _ readable
  unfold toRow
  cases hasChildren live task.id <;> simp [isBar, bind, Except.bind, pure, Except.pure]

theorem anchorDayOf_ok (readable : ∀ task ∈ live, Readable host task)
    (clock : (host.parseDate host.now).isSome) : ∃ day, anchorDayOf host live = .ok day := by
  obtain ⟨starts, areStarts⟩ := @mapM_ok _ _ (DubError String)
    (fun startAt => dayOf host.parseDate startAt "date")
    (live.filterMap fun task => truthy task.startAt) fun date member => by
      obtain ⟨task, taskMem, isDate⟩ := mem_filterMap.mp member
      exact dayOf_ok ((readable task taskMem).startAt date isDate)
  obtain ⟨dues, areDues⟩ := @mapM_ok _ _ (DubError String)
    (fun due => (dayOf host.parseDate due.1 "date").map fun day => day - durationDaysOf due.2)
    (live.filterMap fun task => task.dueAt.map fun dueAt => (dueAt, task.priority)) fun due member => by
      obtain ⟨task, taskMem, isDue⟩ := mem_filterMap.mp member
      obtain ⟨date, isDate, rfl⟩ := Option.map_eq_some_iff.mp isDue
      obtain ⟨day, isDay⟩ := @dayOf_ok host _ "date" ((readable task taskMem).dueAt date isDate)
      exact ⟨day - durationDaysOf task.priority, by simp [isDay, Except.map]⟩
  obtain ⟨created, areCreated⟩ := @mapM_ok _ _ (DubError String)
    (fun task => dayOf host.parseDate task.createdAt "date") live fun task member =>
      dayOf_ok (readable task member).createdAt
  obtain ⟨today, isToday⟩ := @dayOf_ok host _ "date" clock
  unfold anchorDayOf
  simp only [areStarts, areDues, areCreated, bind, Except.bind]
  cases (starts ++ dues).min? with
  | some day => exact ⟨day, rfl⟩
  | none =>
    cases created.min? with
    | some day => exact ⟨day, rfl⟩
    | none => exact ⟨today, isToday⟩

theorem builds_of_readable (eventId : String) (dependencies : List (TaskDependency String))
    (readable : ∀ task ∈ tasks, Readable host task) (clock : (host.parseDate host.now).isSome)
    (nodup : ((tasks.filter fun task => task.archivedAt = none).map TaskService.Task.id).Nodup)
    (acyclic : Acyclic (Link (tasks.filter fun task => task.archivedAt = none))) :
    ∃ dto, buildGanttChartDTO host eventId tasks dependencies = .ok dto := by
  have liveReadable : ∀ task ∈ tasks.filter (fun task => task.archivedAt = none),
      Readable host task := fun task member => readable task (mem_filter.mp member).1
  unfold buildGanttChartDTO
  generalize tasks.filter (fun task => task.archivedAt = none) = live at *
  obtain ⟨anchorDay, isAnchor⟩ := anchorDayOf_ok liveReadable clock
  have complete := (@orderRows_placed host _ nodup acyclic).1
  obtain ⟨rows, areRows⟩ := @mapM_ok _ _ (DubError String) (fun task => toRow host live anchorDay
      (deriveSchedule host live (linesOf (live.map TaskService.Task.id) dependencies []))
      ((live.reverse.find? fun other => other.id = task.id).getD task))
    (orderRows host live) fun task member => by
      have isLive := complete.mem_iff.mp member
      rw [find_of_mem nodup isLive]
      exact toRow_ok (liveReadable task isLive)
  simp [isAnchor, areRows, bind, Except.bind, pure, Except.pure]

end Built

end DubEcosystem.GanttService
