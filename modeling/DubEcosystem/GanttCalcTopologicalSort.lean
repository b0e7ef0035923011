import DubEcosystem.GanttCalcGraph

/-!
# Gantt calculation: the topological sort is right

The Kahn loop keeps, for every id, the number of its predecessors that are not
in the order yet.  Its rounds suffice, and on an acyclic graph it leaves no id
behind.
-/

namespace DubEcosystem.GanttCalc

open AcyclicOrders List Function

variable {Id : Type} [LinearOrder Id] {ids order : List Id}
  {dependencies : List (GanttCalcDependency Id)}

/-- Dependencies of `v` on ids that are not in the order yet. -/
def waiting (ids : List Id) (dependencies : List (GanttCalcDependency Id))
    (order : List Id) (v : Id) : Nat :=
  (knownDependencies ids dependencies).countP fun dep =>
    dep.taskId = v ∧ dep.dependsOnId ∉ order

theorem waiting_eq_zero {v : Id} : waiting ids dependencies order v = 0 ↔
      ∀ u, Precedes ids dependencies u v → u ∈ order := by
  simp only [waiting, countP_eq_zero, decide_eq_true_eq, not_and, not_not]
  constructor
  · rintro none u ⟨dep, member, rfl, named⟩
    exact none dep member named
  · rintro all dep member named
    exact all _ ⟨dep, member, rfl, named⟩

/-- Putting `id` into the order serves the dependencies on it. -/
theorem waiting_concat {id : Id} (fresh : id ∉ order) (v : Id) : waiting ids dependencies order v =
      waiting ids dependencies (order ++ [id]) v + (successorsOf ids dependencies id).count v := by
  simp only [waiting, successorsOf, List.count, countP_map, countP_filter]
  induction knownDependencies ids dependencies with
  | nil => rfl
  | cons dep rest ih =>
    simp only [countP_cons]
    rw [ih]
    by_cases target : dep.taskId = v
    · by_cases source : dep.dependsOnId = id
      · simp [target, source, fresh]
        omega
      · simp [target, source]
        omega
    · simp [target]

/-- The invariant of the Kahn loop, while the edges to `rest` still have to be
released. -/
structure KahnInv (ids : List Id) (dependencies : List (GanttCalcDependency Id))
    (rest : List Id) (state : Kahn Id) : Prop where
  nodup : (state.order ++ state.ready).Nodup
  subset : ∀ id ∈ state.order ++ state.ready, id ∈ ids
  count : ∀ v, state.indegree v =
    waiting ids dependencies state.order v + rest.count v
  free : ∀ v ∈ ids, v ∈ state.order ++ state.ready ↔ state.indegree v = 0
  topological : Topological (Precedes ids dependencies) state.order

variable {state : Kahn Id}

theorem KahnInv.release {succ : Id} {rest : List Id}
    (inv : KahnInv ids dependencies (succ :: rest) state) (known : succ ∈ ids) :
    KahnInv ids dependencies rest (state.release succ) := by
  have counted := inv.count succ
  rw [count_cons_self] at counted
  have notFree : state.indegree succ ≠ 0 := by omega
  have fresh : succ ∉ state.order ++ state.ready := fun member =>
    notFree ((inv.free succ known).mp member)
  have count : ∀ v, (state.release succ).indegree v =
      waiting ids dependencies state.order v + rest.count v := by
    intro v
    by_cases same : v = succ
    · subst same
      simp only [Kahn.release, update_self]
      omega
    · have others := inv.count v
      rw [count_cons_of_ne (Ne.symm same)] at others
      simp only [Kahn.release, update_of_ne same]
      exact others
  by_cases freed : state.indegree succ - 1 = 0
  · have ready : (state.release succ).ready = insertSorted state.ready succ := by
      simp [Kahn.release, freed]
    have perm : ((state.release succ).order ++ (state.release succ).ready).Perm
        (succ :: (state.order ++ state.ready)) := by
      rw [ready]
      exact ((perm_insertSorted state.ready succ).append_left state.order).trans perm_middle
    constructor
    · rw [perm.nodup_iff, nodup_cons]
      exact ⟨fresh, inv.nodup⟩
    · intro id member
      rcases mem_cons.mp (perm.mem_iff.mp member) with rfl | old
      · exact known
      · exact inv.subset id old
    · exact count
    · intro v vMem
      rw [perm.mem_iff, mem_cons]
      by_cases same : v = succ
      · simp [same, Kahn.release, freed]
      · simp only [same, false_or, Kahn.release, update_of_ne same]
        exact inv.free v vMem
    · exact inv.topological
  · have ready : (state.release succ).ready = state.ready := by
      simp [Kahn.release, freed]
    constructor
    · rw [ready]
      exact inv.nodup
    · rw [ready]
      exact inv.subset
    · exact count
    · intro v vMem
      rw [ready]
      by_cases same : v = succ
      · subst same
        simp only [Kahn.release, update_self, freed, iff_false]
        exact fresh
      · simp only [Kahn.release, update_of_ne same]
        exact inv.free v vMem
    · exact inv.topological

theorem KahnInv.releaseAll {rest : List Id}
    (inv : KahnInv ids dependencies rest state) (known : ∀ v ∈ rest, v ∈ ids) :
    KahnInv ids dependencies [] (rest.foldl Kahn.release state) ∧
      (rest.foldl Kahn.release state).order = state.order := by
  induction rest generalizing state with
  | nil => exact ⟨inv, rfl⟩
  | cons succ rest ih =>
    exact ih (inv.release (known succ (by simp))) fun v member => known v (by simp [member])

section

variable (inv : KahnInv ids dependencies [] state)
include inv

/-- One round of the loop: the first free id goes to the end of the order. -/
theorem KahnInv.pop {id : Id} {rest : List Id} (first : state.ready = id :: rest) :
    KahnInv ids dependencies (successorsOf ids dependencies id)
      { state with ready := rest, order := state.order ++ [id] } := by
  have nodup := inv.nodup
  rw [first] at nodup
  have fresh : id ∉ state.order := by
    rw [nodup_append] at nodup
    exact fun member => nodup.2.2 id member id (by simp) rfl
  have same : state.order ++ [id] ++ rest = state.order ++ state.ready := by
    simp [first]
  have member : id ∈ state.order ++ state.ready := by simp [first]
  constructor
  · rw [same]
    exact inv.nodup
  · rw [same]
    exact inv.subset
  · intro v
    have counted := inv.count v
    rw [waiting_concat fresh v] at counted
    simpa using counted
  · intro v vMem
    rw [same]
    exact inv.free v vMem
  · apply inv.topological.concat
    have free := (inv.free id (inv.subset id member)).mp member
    have counted := inv.count id
    apply waiting_eq_zero.mp
    simp only [count_nil] at counted
    omega

/-- The whole loop: the invariant holds at the end, and the loop ended because
no id was ready or it used all its rounds. -/
theorem KahnInv.loop (rounds : Nat) :
    let final := Kahn.loop (successorsOf ids dependencies) rounds state
    KahnInv ids dependencies [] final ∧
      (final.ready = [] ∨ final.order.length = state.order.length + rounds) := by
  induction rounds generalizing state with
  | zero => exact ⟨inv, .inr rfl⟩
  | succ rounds ih =>
    simp only [Kahn.loop]
    split
    · rename_i noneReady
      exact ⟨inv, .inl noneReady⟩
    · rename_i id rest first
      obtain ⟨released, sameOrder⟩ := (inv.pop first).releaseAll
        fun v member => (mem_successorsOf.mp member).target_mem
      obtain ⟨final, ended⟩ := ih released
      refine ⟨final, ended.imp_right fun length => ?_⟩
      rw [length, sameOrder]
      simp only [length_append, length_cons, length_nil]
      omega

/-- The rounds suffice: no more ids than there are can become ready. -/
theorem KahnInv.ready_eq_nil (ended : state.ready = [] ∨ state.order.length = ids.length) :
    state.ready = [] := by
  rcases ended with done | full
  · exact done
  · have bound := (subperm_of_subset inv.nodup inv.subset).length_le
    rw [length_append, full] at bound
    exact length_eq_zero_iff.mp (by omega)

end

variable {arr : List Id} {value : Id}

theorem lowerBound_divides (ascending : arr.Pairwise (· ≤ ·)) {rounds lo hi : Nat}
    (enough : hi - lo ≤ rounds) (inside : hi ≤ arr.length)
    (below : ∀ x ∈ arr.take lo, x < value) (above : ∀ x ∈ arr.drop hi, value ≤ x)
    (between : lo ≤ hi) : (∀ x ∈ arr.take (lowerBound arr value rounds lo hi), x < value) ∧
      ∀ x ∈ arr.drop (lowerBound arr value rounds lo hi), value ≤ x := by
  induction rounds generalizing lo hi with
  | zero =>
    obtain rfl : lo = hi := by omega
    exact ⟨below, above⟩
  | succ rounds ih =>
    rw [lowerBound]
    split
    · extract_lets mid
      have midLt : mid < arr.length := by omega
      have fromMid : arr.drop mid = arr[mid] :: arr.drop (mid + 1) := drop_eq_getElem_cons midLt
      have split := take_append_drop mid arr
      rw [fromMid] at split
      rw [← split] at ascending
      obtain ⟨-, upper, crossing⟩ := pairwise_append.mp ascending
      rw [getElem?_eq_getElem midLt, Option.any_some]
      split
      · rename_i less
        have less : arr[mid] < value := by simpa using less
        refine ih (by omega) inside ?_ above (by omega)
        intro x member
        rw [take_succ_eq_append_getElem midLt] at member
        rcases mem_append.mp member with isBefore | isMid
        · exact (crossing x isBefore _ (.head _)).trans_lt less
        · rwa [mem_singleton.mp isMid]
      · rename_i notLess
        have atLeast : value ≤ arr[mid] := by simpa using notLess
        refine ih (by omega) midLt.le below ?_ (by omega)
        rw [fromMid]
        exact forall_mem_cons.mpr ⟨atLeast, fun x member =>
          atLeast.trans ((pairwise_cons.mp upper).1 x member)⟩
    · obtain rfl : lo = hi := by omega
      exact ⟨below, above⟩

theorem pairwise_insertSorted (ascending : arr.Pairwise (· ≤ ·)) :
    (insertSorted arr value).Pairwise (· ≤ ·) := by
  obtain ⟨below, above⟩ := @lowerBound_divides _ _ arr value ascending _ 0 _ (Nat.sub_le arr.length 0)
    le_rfl (by simp) (by simp) (Nat.zero_le _)
  unfold insertSorted
  extract_lets lo
  have split := ascending
  rw [← take_append_drop lo arr] at split
  obtain ⟨lower, upper, crossing⟩ := pairwise_append.mp split
  refine pairwise_append.mpr ⟨lower, pairwise_cons.mpr ⟨above, upper⟩, fun x member => ?_⟩
  exact forall_mem_cons.mpr ⟨(below x member).le, crossing x member⟩

theorem ascending_releaseAll (ascending : state.ready.Pairwise (· ≤ ·))
    (rest : List Id) : (rest.foldl Kahn.release state).ready.Pairwise (· ≤ ·) := by
  induction rest generalizing state with
  | nil => exact ascending
  | cons succ rest ih =>
    apply ih
    simp only [Kahn.release]
    split
    · exact pairwise_insertSorted ascending
    · exact ascending

/-- The state with which the loop starts. -/
def kahnStart (ids : List Id) (dependencies : List (GanttCalcDependency Id)) : Kahn Id :=
  let indegree := fun id : Id =>
    (((knownDependencies ids dependencies).filter fun dep => dep.taskId = id).length : Int)
  { ready := sorted (ids.filter fun id => indegree id = 0), order := [], indegree }

theorem kahnInv_start (dependencies : List (GanttCalcDependency Id)) (nodup : ids.Nodup) :
    KahnInv ids dependencies [] (kahnStart ids dependencies) := by
  unfold kahnStart
  constructor
  · simpa using nodup_sorted.mpr (nodup.filter _)
  · intro id member
    simp only [nil_append, mem_sorted] at member
    exact (mem_filter.mp member).1
  · intro v
    simp [waiting, countP_eq_length_filter]
  · intro v vMem
    simp [vMem]
  · exact topological_nil

structure IsOrder (taskIds : List Id)
    (dependencies : List (GanttCalcDependency Id)) (order : List Id) : Prop where
  nodup : order.Nodup
  mem : ∀ id, id ∈ order ↔ id ∈ taskIds
  topological : Topological (Precedes (distinct taskIds) dependencies) order

/-- At the first place where the two differ, the first has the smaller id. -/
def Beats (order other : List Id) : Prop :=
  ∃ before x y after later, order = before ++ x :: after ∧ other = before ++ y :: later ∧ x < y

theorem Beats.append {other : List Id} (beats : Beats order other) (more : List Id) :
    Beats (order ++ more) other := by
  obtain ⟨before, x, y, after, later, rfl, rfl, less⟩ := beats
  exact ⟨before, x, y, after ++ more, later, by simp, rfl, less⟩

variable {taskIds : List Id}

/-- Of the ids whose predecessors are all in the order, the loop takes the least. -/
theorem KahnInv.loop_leads {other : List Id}
    (inv : KahnInv (distinct taskIds) dependencies [] state)
    (ascending : state.ready.Pairwise (· ≤ ·)) (isOrder : IsOrder taskIds dependencies other)
    (leads : state.order <+: other ∨ Beats state.order other) (rounds : Nat) :
    let final := Kahn.loop (successorsOf (distinct taskIds) dependencies) rounds state
    final.order <+: other ∨ Beats final.order other := by
  have mem : ∀ id, id ∈ other ↔ id ∈ distinct taskIds := by simpa using isOrder.mem
  induction rounds generalizing state with
  | zero => exact leads
  | succ rounds ih =>
    simp only [Kahn.loop]
    split
    · exact leads
    rename_i id rest first
    obtain ⟨released, sameOrder⟩ := (inv.pop first).releaseAll
      fun v member => (mem_successorsOf.mp member).target_mem
    rw [first] at ascending
    apply ih released (ascending_releaseAll ascending.of_cons _)
    rw [sameOrder]
    rcases leads with ⟨tail, rfl⟩ | beats
    · have isListed : id ∈ state.order ++ tail := (mem id).mpr (inv.subset id (by simp [first]))
      have fresh : id ∉ state.order := fun member =>
        (nodup_append.mp inv.nodup).2.2 id member id (by simp [first]) rfl
      cases tail with
      | nil => exact absurd (by simpa using isListed) fresh
      | cons next tail =>
        have isWaiting : waiting (distinct taskIds) dependencies state.order next = 0 :=
          waiting_eq_zero.mpr (isOrder.topological state.order next tail rfl)
        have counted := inv.count next
        have isFree := (inv.free next ((mem next).mp (by simp))).mpr (by simp [counted, isWaiting])
        have notTaken : next ∉ state.order := fun member =>
          (nodup_append.mp isOrder.nodup).2.2 next member next (.head _) rfl
        have isReady := (mem_append.mp isFree).resolve_left notTaken
        rw [first] at isReady
        rcases mem_cons.mp isReady with rfl | isLater
        · exact .inl ⟨tail, by simp⟩
        · rcases ((pairwise_cons.mp ascending).1 next isLater).eq_or_lt with rfl | less
          · exact .inl ⟨tail, by simp⟩
          · exact .inr ⟨state.order, id, next, [], tail, rfl, rfl, less⟩
    · exact .inr (beats.append [id])

theorem topologicalSort_ok (isOk : topologicalSort taskIds dependencies = .ok order) :
    IsOrder taskIds dependencies order ∧ ∀ other, IsOrder taskIds dependencies other →
      order = other ∨ List.Lex (· < ·) order other := by
  have start := kahnInv_start dependencies (nodup_distinct taskIds)
  obtain ⟨inv, -⟩ := start.loop (distinct taskIds).length
  have ascending : (kahnStart (distinct taskIds) dependencies).ready.Pairwise (· ≤ ·) :=
    pairwise_insertionSort (· ≤ ·) _
  have leads := fun other (isOrder : IsOrder taskIds dependencies other) =>
    start.loop_leads ascending isOrder (.inl nil_prefix) (distinct taskIds).length
  unfold topologicalSort at isOk
  simp only at isOk
  split at isOk
  · cases isOk
  split at isOk
  · cases isOk
  rename_i sameLength
  cases isOk
  unfold kahnStart at inv leads
  generalize Kahn.loop (successorsOf (distinct taskIds) dependencies)
    (distinct taskIds).length _ = final at *
  have nodup : final.order.Nodup := (nodup_append.mp inv.nodup).1
  have perm : final.order.Perm (distinct taskIds) :=
    (subperm_of_subset nodup fun id member => inv.subset id (mem_append_left _ member)).perm_of_length_le
      (by omega)
  refine ⟨⟨nodup, fun id => by rw [perm.mem_iff, mem_distinct], inv.topological⟩, ?_⟩
  intro other isOrder
  have samePerm : final.order.Perm other := perm.trans
    ((perm_ext_iff_of_nodup (nodup_distinct taskIds) isOrder.nodup).mpr fun id => by
      rw [mem_distinct, isOrder.mem])
  rcases leads other isOrder with isPrefix | ⟨before, x, y, after, later, isFirst, rfl, less⟩
  · exact .inl (isPrefix.eq_of_length samePerm.length_eq)
  · rw [isFirst]
    exact .inr (.append_left _ (.rel less) before)

theorem topologicalSort_of_acyclic (acyclic : Acyclic (Precedes (distinct taskIds) dependencies)) :
    ∃ order, topologicalSort taskIds dependencies = .ok order ∧
      IsOrder taskIds dependencies order := by
  have noSelf : (knownDependencies (distinct taskIds) dependencies).find?
      (fun dep => dep.dependsOnId = dep.taskId) = none := by
    rw [List.find?_eq_none]
    intro dep member self
    refine acyclic dep.taskId (.single ⟨dep, member, ?_, rfl⟩)
    simpa using self
  obtain ⟨inv, ended⟩ :=
    (kahnInv_start dependencies (nodup_distinct taskIds)).loop (distinct taskIds).length
  unfold kahnStart at inv ended
  simp only [topologicalSort, noSelf]
  generalize Kahn.loop (successorsOf (distinct taskIds) dependencies)
    (distinct taskIds).length _ = final at inv ended ⊢
  have noneReady := inv.ready_eq_nil (by simpa using ended)
  have nodup : final.order.Nodup := by simpa [noneReady] using inv.nodup
  have subset : ∀ id ∈ final.order, id ∈ distinct taskIds := fun id member =>
    inv.subset id (mem_append_left _ member)
  have complete : ∀ id ∈ distinct taskIds, id ∈ final.order := by
    by_contra incomplete
    push Not at incomplete
    obtain ⟨left, leftMem, notOrdered⟩ := incomplete
    have nonempty : (distinct taskIds).filter (· ∉ final.order) ≠ [] := by
      apply ne_nil_of_mem (a := left)
      simp only [mem_filter, decide_eq_true_eq]
      exact ⟨leftMem, notOrdered⟩
    obtain ⟨source, sourceMem, isSource⟩ := acyclic.exists_source nonempty
    simp only [mem_filter, decide_eq_true_eq] at sourceMem isSource
    -- Such an id waits for nothing, so it was made ready.
    have served : waiting (distinct taskIds) dependencies final.order source = 0 := by
      rw [waiting_eq_zero]
      intro u precedes
      by_contra missing
      exact isSource u ⟨precedes.source_mem, missing⟩ precedes
    have counted := inv.count source
    rw [served] at counted
    have free := (inv.free source sourceMem.1).mpr (by simpa using counted)
    rw [noneReady, append_nil] at free
    exact sourceMem.2 free
  have perm : final.order.Perm (distinct taskIds) :=
    (perm_ext_iff_of_nodup nodup (nodup_distinct taskIds)).mpr fun id => ⟨subset id, complete id⟩
  exact ⟨final.order, by simp [perm.length_eq], nodup,
    fun id => by rw [perm.mem_iff, mem_distinct], inv.topological⟩

theorem topologicalSort_error {error : DubError Id}
    (isError : topologicalSort taskIds dependencies = .error error) :
    error.code = GANTT_CALC_DEPENDENCY_CYCLE := by
  unfold topologicalSort at isError
  simp only at isError
  split at isError
  · cases isError
    rfl
  split at isError
  · cases isError
    rfl
  · cases isError

theorem precedes_perm {reordered : List Id} {shuffled : List (GanttCalcDependency Id)}
    (sameIds : reordered.Perm taskIds) (sameDependencies : shuffled.Perm dependencies) :
    Precedes (distinct reordered) shuffled = Precedes (distinct taskIds) dependencies := by
  funext u v
  simp [Precedes, knownDependencies, sameIds.mem_iff, sameDependencies.mem_iff]

/-- The loop comes to its end, the sort throws on cycles only, and the order is the least there is,
whatever the order of the ids and of the dependencies. -/
theorem topologicalSort_least (taskIds : List Id) (dependencies : List (GanttCalcDependency Id)) :
    (Kahn.loop (successorsOf (distinct taskIds) dependencies) (distinct taskIds).length
      (kahnStart (distinct taskIds) dependencies)).ready = [] ∧
    ((∃ error, topologicalSort taskIds dependencies = .error error ∧
      error.code = GANTT_CALC_DEPENDENCY_CYCLE) ↔
        ¬Acyclic (Precedes (distinct taskIds) dependencies)) ∧
    ∀ order, topologicalSort taskIds dependencies = .ok order → IsOrder taskIds dependencies order ∧
      (∀ other, IsOrder taskIds dependencies other → order = other ∨ List.Lex (· < ·) order other) ∧
      ∀ reordered shuffled, reordered.Perm taskIds → shuffled.Perm dependencies →
        topologicalSort reordered shuffled = .ok order := by
  have acyclic_of_ok : ∀ order, topologicalSort taskIds dependencies = .ok order →
      Acyclic (Precedes (distinct taskIds) dependencies) := by
    intro order isOk
    obtain ⟨isOrder, -⟩ := topologicalSort_ok isOk
    refine isOrder.topological.acyclic isOrder.nodup fun u v precedes => ?_
    rw [isOrder.mem, ← mem_distinct]
    exact precedes.target_mem
  refine ⟨?_, ⟨?_, ?_⟩, ?_⟩
  · obtain ⟨inv, ended⟩ :=
      (kahnInv_start dependencies (nodup_distinct taskIds)).loop (distinct taskIds).length
    exact inv.ready_eq_nil (by simpa [kahnStart] using ended)
  · rintro ⟨error, isError, -⟩ acyclic
    obtain ⟨order, isOk, -⟩ := topologicalSort_of_acyclic acyclic
    rw [isOk] at isError
    cases isError
  · intro cyclic
    cases outcome : topologicalSort taskIds dependencies with
    | error error => exact ⟨error, rfl, topologicalSort_error outcome⟩
    | ok order => exact absurd (acyclic_of_ok order outcome) cyclic
  · intro order isOk
    obtain ⟨isOrder, isLeast⟩ := topologicalSort_ok isOk
    refine ⟨isOrder, isLeast, fun reordered shuffled sameIds sameDependencies => ?_⟩
    have samePrecedes := precedes_perm sameIds sameDependencies
    have acyclic := acyclic_of_ok order isOk
    rw [← samePrecedes] at acyclic
    obtain ⟨again, isAgain, againOrder⟩ := topologicalSort_of_acyclic acyclic
    have here : IsOrder taskIds dependencies again := ⟨againOrder.nodup,
      fun id => by rw [againOrder.mem, sameIds.mem_iff], samePrecedes ▸ againOrder.topological⟩
    have there : IsOrder reordered shuffled order := ⟨isOrder.nodup,
      fun id => by rw [isOrder.mem, sameIds.mem_iff], samePrecedes ▸ isOrder.topological⟩
    rw [isAgain]
    rcases isLeast again here with rfl | less
    · rfl
    · rcases (topologicalSort_ok isAgain).2 order there with rfl | greater
      · rfl
      · exact absurd greater (asymm less)

end DubEcosystem.GanttCalc
