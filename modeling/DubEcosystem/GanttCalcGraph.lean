import DubEcosystem.AcyclicOrders
import Mathlib.Algebra.Order.Ring.Rat
import Mathlib.Algebra.Order.Ring.Int

/-!
# Gantt calculation: dependency graphs

The topological sort of `graph.ts`, its cycle search and its validator, over any
linearly ordered type of task ids.  A JavaScript `Map` from ids is a function
here, and a loop that stops on a condition of its own gets a count of rounds
that it can not use up.
-/

namespace DubEcosystem.GanttCalc

open AcyclicOrders List Function

def GANTT_CALC_DEPENDENCY_CYCLE : String := "GANTT_CALC_DEPENDENCY_CYCLE"

def GANTT_CALC_UNKNOWN_TASK_REF : String := "GANTT_CALC_UNKNOWN_TASK_REF"

def VALIDATION_FAILED : String := "VALIDATION_FAILED"

inductive DependencyKind where
  | FS
  | SS
  | FF
  | SF
  deriving DecidableEq

/-- `dependsOnId` is the predecessor, `taskId` the successor. -/
structure GanttCalcDependency (Id : Type) where
  taskId : Id
  dependsOnId : Id
  kind : Option DependencyKind := none
  lagDays : Option ℚ := none

inductive ErrorDetails (Id : Type) where
  | cycles (cycles : List (List Id))
  | unknownTaskIds (ids : List Id)
  | field (field reason : String)

structure DubError (Id : Type) where
  code : String
  message : String
  status : Nat
  details : ErrorDetails Id

variable {Id : Type} [LinearOrder Id]

scoped instance lawfulIds : LawfulBEq Id := inferInstance

/-- `[...new Set(ids)]`: first occurrences, in order. -/
def distinct (ids : List Id) : List Id :=
  ids.reverse.dedup.reverse

variable {ids : List Id}

@[simp]
theorem mem_distinct {id : Id} : id ∈ distinct ids ↔ id ∈ ids := by
  simp [distinct]

theorem nodup_distinct (ids : List Id) : (distinct ids).Nodup := by
  simp [distinct, nodup_reverse, nodup_dedup]

/-- `ids.sort()`. -/
def sorted (ids : List Id) : List Id :=
  ids.insertionSort (· ≤ ·)

@[simp]
theorem mem_sorted {id : Id} : id ∈ sorted ids ↔ id ∈ ids :=
  mem_insertionSort _

theorem nodup_sorted : (sorted ids).Nodup ↔ ids.Nodup :=
  (perm_insertionSort _ ids).nodup_iff

def knownDependencies (ids : List Id) (dependencies : List (GanttCalcDependency Id)) :
    List (GanttCalcDependency Id) :=
  dependencies.filter fun dep => dep.dependsOnId ∈ ids ∧ dep.taskId ∈ ids

def successorsOf (ids : List Id) (dependencies : List (GanttCalcDependency Id))
    (id : Id) : List Id :=
  ((knownDependencies ids dependencies).filter fun dep =>
    dep.dependsOnId = id).map GanttCalcDependency.taskId

/-- The binary search of `insertSorted`. -/
def lowerBound (arr : List Id) (value : Id) : Nat → Nat → Nat → Nat
  | 0, lo, _ => lo
  | rounds + 1, lo, hi =>
    if lo < hi then
      let mid := (lo + hi) / 2
      if arr[mid]?.any fun found => found < value then
        lowerBound arr value rounds (mid + 1) hi
      else lowerBound arr value rounds lo mid
    else lo

def insertSorted (arr : List Id) (value : Id) : List Id :=
  let lo := lowerBound arr value arr.length 0 arr.length
  arr.take lo ++ value :: arr.drop lo

theorem perm_insertSorted (arr : List Id) (value : Id) :
    (insertSorted arr value).Perm (value :: arr) := by
  unfold insertSorted
  generalize lowerBound arr value arr.length 0 arr.length = lo
  have middle : (arr.take lo ++ value :: arr.drop lo).Perm
      (value :: (arr.take lo ++ arr.drop lo)) := perm_middle
  rwa [take_append_drop] at middle

/-- The state of the Kahn loop. -/
structure Kahn (Id : Type) where
  ready : List Id
  order : List Id
  indegree : Id → Int

/-- Take one edge to `succ` away. -/
def Kahn.release (state : Kahn Id) (succ : Id) : Kahn Id :=
  let d := state.indegree succ - 1
  { state with
    indegree := update state.indegree succ d
    ready := if d = 0 then insertSorted state.ready succ else state.ready }

/-- `while (ready.length > 0)`. -/
def Kahn.loop (successors : Id → List Id) : Nat → Kahn Id → Kahn Id
  | 0, state => state
  | rounds + 1, state =>
    match state.ready with
    | [] => state
    | id :: rest =>
      Kahn.loop successors rounds ((successors id).foldl Kahn.release
        { state with ready := rest, order := state.order ++ [id] })

/-- The state of the cycle search.  `onStack` holds the same nodes as `stack`
throughout, so `stack`, whose head is its top, stands for both. -/
structure Tarjan (Id : Type) where
  index : Nat
  idx : Id → Option Nat
  low : Id → Nat
  stack : List Id
  sccs : List (List Id)

def Tarjan.discover (state : Tarjan Id) (v : Id) : Tarjan Id :=
  { state with
    index := state.index + 1
    idx := update state.idx v (some state.index)
    low := update state.low v state.index
    stack := v :: state.stack }

/-- One round of the loop over the successors of `v`. -/
def Tarjan.visit (strongconnect : Id → Tarjan Id → Tarjan Id) (v : Id)
    (state : Tarjan Id) (w : Id) : Tarjan Id :=
  match state.idx w with
  | none =>
    let after := strongconnect w state
    { after with
      low := update after.low v (min (after.low v) (after.low w)) }
  | some found =>
    if w ∈ state.stack then
      { state with
        low := update state.low v (min (state.low v) found) }
    else state

/-- Pop the component of `v`, if `v` is its root. -/
def Tarjan.close (state : Tarjan Id) (v : Id) : Tarjan Id :=
  if state.idx v = some (state.low v) then
    let comp := state.stack.takeWhile (· ≠ v) ++ [v]
    { state with
      stack := (state.stack.dropWhile (· ≠ v)).tail
      sccs := if 1 < comp.length then state.sccs ++ [comp.reverse]
        else state.sccs }
  else state

def Tarjan.strongconnect (adj : Id → List Id) : Nat → Id → Tarjan Id → Tarjan Id
  | 0, _, state => state
  | rounds + 1, v, state =>
    ((adj v).foldl (Tarjan.visit (Tarjan.strongconnect adj rounds) v) (state.discover v)).close v

variable (nodes : List Id)

/-- The successors of `id`, without itself, sorted. -/
def adjacent (dependencies : List (GanttCalcDependency Id)) (id : Id) : List Id :=
  sorted (((knownDependencies nodes dependencies).filter fun dep =>
    dep.dependsOnId = id ∧ dep.dependsOnId ≠ dep.taskId).map GanttCalcDependency.taskId)

/-- The search from every node that is not visited yet. -/
def tarjan (adj : Id → List Id) : Tarjan Id :=
  nodes.foldl (fun state v =>
      if state.idx v = none then Tarjan.strongconnect adj nodes.length v state
      else state)
    { index := 0, idx := fun _ => none, low := fun _ => 0, stack := []
      sccs := [] }

def selfLoops (dependencies : List (GanttCalcDependency Id)) : List (List Id) :=
  ((knownDependencies nodes dependencies).filter fun dep =>
    dep.dependsOnId = dep.taskId).map fun dep => [dep.taskId]

variable (taskIds : List Id)

/-- Every strongly connected component of more than one node, and every
self-loop. -/
def findCycles (dependencies : List (GanttCalcDependency Id)) : List (List Id) :=
  let nodes := sorted (distinct taskIds)
  selfLoops nodes dependencies ++ (tarjan nodes (adjacent nodes dependencies)).sccs

def topologicalSort (dependencies : List (GanttCalcDependency Id)) :
    Except (DubError Id) (List Id) :=
  let ids := distinct taskIds
  let known := knownDependencies ids dependencies
  match known.find? fun dep => dep.dependsOnId = dep.taskId with
  | some dep =>
    .error
      { code := GANTT_CALC_DEPENDENCY_CYCLE, message := "self-dependency"
        status := 422, details := .cycles [[dep.taskId]] }
  | none =>
    let indegree := fun id : Id =>
      ((known.filter fun dep => dep.taskId = id).length : Int)
    let order := (Kahn.loop (successorsOf ids dependencies) ids.length
      { ready := sorted (ids.filter fun id => indegree id = 0)
        order := [], indegree }).order
    if order.length ≠ ids.length then
      .error
        { code := GANTT_CALC_DEPENDENCY_CYCLE
          message := "dependency cycle detected", status := 422
          details := .cycles
            (findCycles (ids.filter fun id => id ∉ order) dependencies) }
    else .ok order

/-- The ids that dependencies name and `known` lacks, in the order of the
dependencies. -/
def unknownRefs (known : List Id) (dependencies : List (GanttCalcDependency Id)) :
    List Id :=
  distinct ((dependencies.flatMap fun dep => [dep.taskId, dep.dependsOnId]).filter
    fun id => id ∉ known)

variable {dependencies : List (GanttCalcDependency Id)}

theorem unknownRefs_eq_nil {known : List Id} : unknownRefs known dependencies = [] ↔
      ∀ dep ∈ dependencies, dep.taskId ∈ known ∧ dep.dependsOnId ∈ known := by
  simp only [eq_nil_iff_forall_not_mem, unknownRefs, mem_distinct,
    mem_filter, mem_flatMap, mem_cons, not_mem_nil, or_false,
    decide_eq_true_eq]
  constructor
  · intro none dep member
    by_contra unknown
    rcases not_and_or.mp unknown with missing | missing
    · exact none dep.taskId ⟨⟨dep, member, .inl rfl⟩, missing⟩
    · exact none dep.dependsOnId ⟨⟨dep, member, .inr rfl⟩, missing⟩
  · rintro all id ⟨⟨dep, member, rfl | rfl⟩, missing⟩
    · exact missing (all dep member).1
    · exact missing (all dep member).2

structure ValidateDependenciesResponse (Id : Type) where
  valid : Bool
  cycles : List (List Id)
  unknownTaskIds : List Id

/-- The validator that throws nothing. -/
def validateDependencies (dependencies : List (GanttCalcDependency Id)) :
    ValidateDependenciesResponse Id :=
  let cycles := findCycles taskIds dependencies
  let unknown := unknownRefs taskIds dependencies
  { valid := cycles.length = 0 ∧ unknown.length = 0
    cycles
    unknownTaskIds := sorted unknown }

/-- A dependency between known ids leads from `u` to `v`. -/
def Precedes (ids : List Id) (dependencies : List (GanttCalcDependency Id)) (u v : Id) : Prop :=
  ∃ dep ∈ knownDependencies ids dependencies, dep.dependsOnId = u ∧ dep.taskId = v

theorem mem_knownDependencies {dep : GanttCalcDependency Id} :
    dep ∈ knownDependencies ids dependencies ↔
      dep ∈ dependencies ∧ dep.dependsOnId ∈ ids ∧ dep.taskId ∈ ids := by
  simp [knownDependencies]

theorem mem_successorsOf {u v : Id} :
    v ∈ successorsOf ids dependencies u ↔ Precedes ids dependencies u v := by
  simp [successorsOf, Precedes, and_assoc]

theorem Precedes.source_mem {u v : Id} (precedes : Precedes ids dependencies u v) : u ∈ ids := by
  obtain ⟨dep, member, rfl, -⟩ := precedes
  exact (mem_knownDependencies.mp member).2.1

theorem Precedes.target_mem {u v : Id} (precedes : Precedes ids dependencies u v) : v ∈ ids := by
  obtain ⟨dep, member, -, rfl⟩ := precedes
  exact (mem_knownDependencies.mp member).2.2

end DubEcosystem.GanttCalc
