import DubEcosystem.GanttCalcTopologicalSort

/-!
# Gantt calculation: the cycle search misses no cycle and invents none

While no component has been reported, every finished node was popped alone, so
the finished nodes, in the order in which they were popped, come after all their
successors.  A node that stays on the stack has a low link below it, which the
root of its component turns into a report.
-/

namespace DubEcosystem.GanttCalc

open AcyclicOrders List Function

variable {Id : Type} [LinearOrder Id] {adj : Id → List Id} {nodes : List Id}

namespace Tarjan

/-- The discovery number of a node. -/
def number (state : Tarjan Id) (v : Id) : Nat :=
  (state.idx v).getD 0

/-- Nodes on the stack are numbered below `index`, the latest highest. -/
structure Inv (state : Tarjan Id) : Prop where
  numbered : ∀ u ∈ state.stack, ∃ number < state.index, state.idx u = some number
  descending : state.stack.Pairwise fun later earlier =>
    state.number earlier < state.number later

variable {state : Tarjan Id}

omit [LinearOrder Id] in
theorem Inv.number_eq (inv : state.Inv) {u : Id} (onStack : u ∈ state.stack) :
    state.idx u = some (state.number u) ∧ state.number u < state.index := by
  obtain ⟨found, below, isFound⟩ := inv.numbered u onStack
  simp [number, isFound, below]

variable {v : Id}

variable {top base : List Id}

omit [LinearOrder Id] in
/-- A cut of the stack at `v`: what is above is numbered higher, what is below
lower. -/
theorem Inv.cut (inv : state.Inv) (stack : state.stack = top ++ v :: base) :
    (∀ u ∈ top, state.number v < state.number u) ∧ ∀ u ∈ base, state.number u < state.number v := by
  have descending := inv.descending
  rw [stack, pairwise_append, pairwise_cons] at descending
  obtain ⟨-, ⟨below, -⟩, above⟩ := descending
  exact ⟨fun u member => above u member v (by simp), below⟩

/-- Nothing that was found is lost; only the low link of `v` may have moved. -/
structure Extends (v : Id) (before after : Tarjan Id) : Prop where
  idx : ∀ u number, before.idx u = some number → after.idx u = some number
  low : ∀ u, u ≠ v → before.idx u ≠ none → after.low u = before.low u
  index : before.index ≤ after.index
  sccs : before.sccs ≠ [] → after.sccs ≠ []

omit [LinearOrder Id] in
theorem Extends.refl (v : Id) (state : Tarjan Id) : Extends v state state :=
  ⟨fun _ _ found => found, fun _ _ _ => rfl, le_rfl, fun found => found⟩

variable {before after : Tarjan Id}

omit [LinearOrder Id] in
theorem Extends.visited {u : Id}
    (grown : Extends v before after) (visited : before.idx u ≠ none) :
    after.idx u ≠ none := by
  obtain ⟨found, isFound⟩ := Option.ne_none_iff_exists'.mp visited
  rw [grown.idx u found isFound]
  simp

omit [LinearOrder Id] in
theorem Extends.trans {first second third : Tarjan Id} (left : Extends v first second)
    (right : Extends v second third) : Extends v first third := by
  constructor
  · intro u found isFound
    exact right.idx u found (left.idx u found isFound)
  · intro u other visited
    rw [right.low u other (left.visited visited), left.low u other visited]
  · exact left.index.trans right.index
  · exact fun found => right.sccs (left.sccs found)

theorem extends_discover (fresh : state.idx v = none) : Extends v state (state.discover v) := by
  constructor
  · intro u found isFound
    have other : u ≠ v := by
      rintro rfl
      simp [fresh] at isFound
    simpa [discover, update_of_ne other] using isFound
  · intro u other _
    simp [discover, update_of_ne other]
  · simp [discover]
  · exact fun found => found

theorem extends_visit {strongconnect : Id → Tarjan Id → Tarjan Id}
    (search : ∀ w state, state.idx w = none → Extends w state (strongconnect w state)) (w : Id) :
    Extends v state (visit strongconnect v state w) := by
  unfold visit
  cases found : state.idx w with
  | none =>
    have grown := search w state found
    refine ⟨grown.idx, ?_, grown.index, grown.sccs⟩
    intro u other known
    have notChild : u ≠ w := by
      rintro rfl
      exact known found
    simp only [update_of_ne other]
    exact grown.low u notChild known
  | some number =>
    by_cases onStack : w ∈ state.stack
    · simp only [onStack, if_true]
      refine ⟨fun _ _ isFound => isFound, ?_, le_rfl, fun found => found⟩
      intro u other known
      simp [update_of_ne other]
    · simp only [onStack, if_false]
      exact .refl v state

theorem extends_close (v : Id) (state : Tarjan Id) : Extends v state (state.close v) := by
  unfold close
  split
  · refine ⟨fun _ _ found => found, fun _ _ _ => rfl, le_rfl, ?_⟩
    intro found
    simp only []
    split
    · simp
    · exact found
  · exact .refl v state

theorem extends_strongconnect (rounds : Nat) (fresh : state.idx v = none) :
    Extends v state (strongconnect adj rounds v state) := by
  induction rounds generalizing v state with
  | zero => exact .refl v state
  | succ rounds ih =>
    have opened := extends_discover fresh
    have looped : ∀ (successors : List Id) middle, Extends v (state.discover v) middle →
        Extends v (state.discover v)
          (successors.foldl (visit (strongconnect adj rounds) v) middle) := by
      intro successors
      induction successors with
      | nil => exact fun middle grown => grown
      | cons w rest next =>
        intro middle grown
        exact next _ (grown.trans (extends_visit (fun _ _ => ih) w))
    exact opened.trans ((looped _ _ (.refl v _)).trans (extends_close v _))

/-- The nodes that are not visited yet. -/
def unvisited (nodes : List Id) (state : Tarjan Id) : Nat :=
  nodes.countP fun u => state.idx u = none

omit [LinearOrder Id] in
theorem Extends.unvisited_le (grown : Extends v before after)
    (nodes : List Id) : unvisited nodes after ≤ unvisited nodes before := by
  apply countP_mono_left
  intro u _ unseen
  simp only [decide_eq_true_eq] at unseen ⊢
  by_contra visited
  exact grown.visited visited unseen

theorem unvisited_discover (member : v ∈ nodes) (fresh : state.idx v = none) :
    unvisited nodes (state.discover v) < unvisited nodes state := by
  obtain ⟨before, after, rfl⟩ := append_of_mem member
  have left : unvisited before (state.discover v) ≤ unvisited before state :=
    (extends_discover fresh).unvisited_le _
  have right : unvisited after (state.discover v) ≤ unvisited after state :=
    (extends_discover fresh).unvisited_le _
  simp only [unvisited, countP_append, countP_cons] at left right ⊢
  simp only [fresh, discover, update_self, decide_true, if_true,
    reduceCtorEq, decide_false, Bool.false_eq_true, if_false] at left right ⊢
  omega

/-- The finished nodes in the order in which they were popped, each alone. -/
structure Settled (adj : Id → List Id) (state : Tarjan Id) (order : List Id) : Prop where
  topological : Topological (fun w u => w ∈ adj u) order
  nodup : (order ++ state.stack).Nodup
  visited : ∀ u, state.idx u ≠ none ↔ u ∈ order ++ state.stack

/-- What a search from `v` comes back with: a component was reported, or `v` was
popped, or it waits on the stack for an earlier node. -/
inductive Outcome (adj : Id → List Id) (v : Id) (before after : Tarjan Id) : Prop
  | reported (found : after.sccs ≠ [])
  | popped (stack : after.stack = before.stack) (low : before.index ≤ after.low v)
      (settles : ∀ order, before.Settled adj order →
        ∃ later, order ⊆ later ∧ v ∈ later ∧ after.Settled adj later)
  | kept (top : List Id) (stack : after.stack = top ++ v :: before.stack) (x : Id)
      (below : x ∈ before.stack) (low : after.idx x = some (after.low v))

/-- The loop over the successors of `v`, after the ones in `seen`.  The low link
is the number of a node at or below `v`; while it is that of `v` and nothing
waits above, all seen successors have been popped. -/
structure Visiting (adj : Id → List Id) (v : Id) (before : Tarjan Id)
    (seen : List Id) (state : Tarjan Id) : Prop where
  inv : state.Inv
  grown : Extends v (before.discover v) state
  outcome : state.sccs ≠ [] ∨ ∃ top x, state.stack = top ++ v :: before.stack ∧
    x ∈ v :: before.stack ∧ state.idx x = some (state.low v) ∧
    (top = [] → x = v → ∀ order, before.Settled adj order →
      ∃ later, order ⊆ later ∧ (∀ w ∈ seen, w ∈ later) ∧ state.Settled adj later)

theorem inv_discover (inv : state.Inv) (fresh : state.idx v = none) : (state.discover v).Inv := by
  have others : ∀ u ∈ state.stack, u ≠ v := by
    rintro u member rfl
    obtain ⟨found, -, isFound⟩ := inv.numbered u member
    simp [fresh] at isFound
  have sameNumber : ∀ u ∈ state.stack, (state.discover v).number u = state.number u := by
    intro u member
    simp [number, discover, update_of_ne (others u member)]
  constructor
  · intro u member
    rcases mem_cons.mp member with rfl | member
    · exact ⟨state.index, by simp [discover], by simp [discover]⟩
    · obtain ⟨found, below, isFound⟩ := inv.numbered u member
      refine ⟨found, ?_, ?_⟩
      · simp only [discover]
        omega
      · simpa [discover, update_of_ne (others u member)] using isFound
  · apply List.Pairwise.cons
    · intro u member
      have highest : (state.discover v).number v = state.index := by
        simp [number, discover]
      rw [sameNumber u member, highest]
      exact (inv.number_eq member).2
    · refine inv.descending.imp_of_mem ?_
      intro later earlier laterMem earlierMem less
      rw [sameNumber later laterMem, sameNumber earlier earlierMem]
      exact less

theorem visiting_discover (inv : state.Inv) (fresh : state.idx v = none) :
    Visiting adj v state [] (state.discover v) := by
  refine ⟨inv_discover inv fresh, .refl v _, .inr ⟨[], v, rfl, by simp, ?_, ?_⟩⟩
  · simp [discover]
  · intro _ _ order settled
    refine ⟨order, fun _ member => member, by simp, settled.topological, ?_, ?_⟩
    · have notVisited : v ∉ order ++ state.stack := by
        rw [← settled.visited v]
        simp [fresh]
      have middle : (order ++ (state.discover v).stack).Perm
          (v :: (order ++ state.stack)) := perm_middle
      rw [middle.nodup_iff, nodup_cons]
      exact ⟨notVisited, settled.nodup⟩
    · intro u
      by_cases same : u = v
      · simp [same, discover]
      · have others := settled.visited u
        simpa [discover, update_of_ne same, same] using others

/-- Lowering the low link of `v` to the number of a node on the stack leaves it
the number of a node at or below `v`. -/
theorem Inv.lower (inv : state.Inv) {x y : Id} {low value : Nat}
    (stack : state.stack = top ++ v :: base) (xMem : x ∈ v :: base) (xLow : state.idx x = some low)
    (yMem : y ∈ state.stack) (yValue : state.idx y = some value) :
    ∃ z ∈ v :: base, state.idx z = some (min low value) ∧ (value < low → z = y) := by
  by_cases lower : value < low
  · refine ⟨y, ?_, by rw [min_eq_right lower.le, yValue], fun _ => rfl⟩
    obtain ⟨above, below⟩ := inv.cut stack
    have yNumber : state.number y = value := by simp [number, yValue]
    have xNumber : state.number x = low := by simp [number, xLow]
    have xBelow : state.number x ≤ state.number v := by
      rcases mem_cons.mp xMem with rfl | inBase
      · exact le_rfl
      · exact (below x inBase).le
    rw [stack] at yMem
    rcases mem_append.mp yMem with inTop | inRest
    · have higher := above y inTop
      omega
    · exact inRest
  · exact ⟨x, xMem, by rw [min_eq_left (by omega), xLow], fun less => absurd less lower⟩

omit [LinearOrder Id] in
theorem Inv.setLow (inv : state.Inv) (low : Id → Nat) : ({ state with low } : Tarjan Id).Inv :=
  ⟨inv.numbered, inv.descending⟩

omit [LinearOrder Id] in
theorem Settled.setLow {order : List Id} (settled : state.Settled adj order) (low : Id → Nat) :
    ({ state with low } : Tarjan Id).Settled adj order :=
  ⟨settled.topological, settled.nodup, settled.visited⟩

variable {seen : List Id}

theorem Visiting.descend {w : Id}
    (visiting : Visiting adj v before seen state) (fresh : state.idx w = none)
    (inv : after.Inv) (grown : Extends w state after)
    (outcome : Outcome adj w state after) :
    Visiting adj v before (seen ++ [w])
      { after with
        low := update after.low v (min (after.low v) (after.low w)) } := by
  have vNumbered : (before.discover v).idx v = some before.index := by simp [discover]
  have vVisited : state.idx v ≠ none := visiting.grown.visited (by simp [vNumbered])
  have notChild : v ≠ w := by
    rintro rfl
    exact vVisited fresh
  have vLow : after.low v = state.low v := grown.low v notChild vVisited
  have extended : Extends v (before.discover v)
      { after with
        low := update after.low v (min (after.low v) (after.low w)) } := by
    refine visiting.grown.trans ⟨grown.idx, ?_, grown.index, grown.sccs⟩
    intro u other known
    have notNew : u ≠ w := by
      rintro rfl
      exact known fresh
    simp only [update_of_ne other]
    exact grown.low u notNew known
  refine ⟨inv.setLow _, extended, ?_⟩
  rcases visiting.outcome with found | ⟨top, x, stack, xMem, xLow, settles⟩
  · exact .inl (grown.sccs found)
  have xStack : x ∈ state.stack := by
    rw [stack]
    exact mem_append_right _ xMem
  have xAfter : after.idx x = some (state.low v) := grown.idx x _ xLow
  cases outcome with
  | reported found => exact .inl found
  | popped sameStack high settlesChild =>
    obtain ⟨found, below, isFound⟩ := visiting.inv.numbered x xStack
    have lowBelow : state.low v < state.index := by
      rw [xLow] at isFound
      cases isFound
      exact below
    have unmoved : min (after.low v) (after.low w) = state.low v := by omega
    refine .inr ⟨top, x, sameStack.trans stack, xMem, ?_, ?_⟩
    · simpa [unmoved] using xAfter
    · intro noneAbove atV order settled
      obtain ⟨middle, subset, popped, settledMiddle⟩ :=
        settles noneAbove atV order settled
      obtain ⟨later, further, childPopped, settledLater⟩ :=
        settlesChild middle settledMiddle
      refine ⟨later, fun u member => further (subset member), ?_, settledLater.setLow _⟩
      intro u member
      rcases mem_append.mp member with earlier | last
      · exact further (popped u earlier)
      · exact mem_singleton.mp last ▸ childPopped
  | kept above stackAfter y yMem yLow =>
    have stackCut : after.stack = (above ++ w :: top) ++ v :: before.stack := by
      rw [stackAfter, stack]
      simp
    have yAfter : y ∈ after.stack := by
      rw [stackAfter]
      simp [yMem]
    obtain ⟨z, zMem, zLow, -⟩ := inv.lower stackCut xMem xAfter yAfter yLow
    refine .inr ⟨above ++ w :: top, z, stackCut, zMem, ?_, ?_⟩
    · simpa [vLow] using zLow
    · intro noneAbove
      simp at noneAbove

variable {before : Tarjan Id}

theorem Visiting.meet {w : Id} {found : Nat}
    (visiting : Visiting adj v before seen state) (other : w ≠ v)
    (isFound : state.idx w = some found) (onStack : w ∈ state.stack) :
    Visiting adj v before (seen ++ [w])
      { state with low := update state.low v (min (state.low v) found) } := by
  refine ⟨visiting.inv.setLow _, ?_, ?_⟩
  · refine visiting.grown.trans ⟨fun _ _ known => known, ?_, le_rfl, fun some => some⟩
    intro u notV _
    simp [update_of_ne notV]
  rcases visiting.outcome with reported | ⟨top, x, stack, xMem, xLow, settles⟩
  · exact .inl reported
  obtain ⟨z, zMem, zLow, isSuccessor⟩ :=
    visiting.inv.lower stack xMem xLow onStack isFound
  refine .inr ⟨top, z, stack, zMem, by simpa using zLow, ?_⟩
  rintro rfl rfl
  -- With nothing above `z`, the successor lies below it and has a lower number.
  exfalso
  have inBase : w ∈ before.stack := by
    rw [stack] at onStack
    simpa [other] using onStack
  have lower := (visiting.inv.cut stack).2 w inBase
  have wNumber : state.number w = found := by simp [number, isFound]
  have zNumber : state.number z = min (state.low z) found := by simp [number, zLow]
  omega

theorem Visiting.pass {w : Id} (visiting : Visiting adj v before seen state)
    (visited : state.idx w ≠ none) (notOnStack : w ∉ state.stack) :
    Visiting adj v before (seen ++ [w]) state := by
  refine ⟨visiting.inv, visiting.grown, visiting.outcome.imp_right ?_⟩
  rintro ⟨top, x, stack, xMem, xLow, settles⟩
  refine ⟨top, x, stack, xMem, xLow, ?_⟩
  intro noneAbove atV order settled
  obtain ⟨later, subset, popped, settledLater⟩ := settles noneAbove atV order settled
  refine ⟨later, subset, ?_, settledLater⟩
  intro u member
  rcases mem_append.mp member with earlier | last
  · exact popped u earlier
  · obtain rfl := mem_singleton.mp last
    have known := (settledLater.visited u).mp visited
    exact (mem_append.mp known).resolve_right notOnStack

/-- The loop over all successors, when the search from each of them is right. -/
theorem Visiting.loop {strongconnect : Id → Tarjan Id → Tarjan Id} (rounds : Nat)
    (search : ∀ w state, w ∈ nodes → state.idx w = none → state.Inv →
      unvisited nodes state ≤ rounds → Extends w state (strongconnect w state) ∧
        (strongconnect w state).Inv ∧ Outcome adj w state (strongconnect w state))
    (enough : unvisited nodes (before.discover v) ≤ rounds) (rest : List Id)
    (known : ∀ w ∈ rest, w ∈ nodes ∧ w ≠ v) (visiting : Visiting adj v before seen state) :
    Visiting adj v before (seen ++ rest) (rest.foldl (visit strongconnect v) state) := by
  induction rest generalizing seen state with
  | nil => simpa using visiting
  | cons w rest ih =>
    obtain ⟨wMem, other⟩ := known w (by simp)
    have next : Visiting adj v before (seen ++ [w]) (visit strongconnect v state w) := by
      unfold visit
      cases found : state.idx w with
      | none =>
        have unseen := visiting.grown.unvisited_le nodes
        obtain ⟨grown, inv, outcome⟩ :=
          search w state wMem found visiting.inv (unseen.trans enough)
        exact visiting.descend found inv grown outcome
      | some number =>
        by_cases onStack : w ∈ state.stack
        · simp only [onStack, if_true]
          exact visiting.meet other found onStack
        · simp only [onStack, if_false]
          exact visiting.pass (by simp [found]) onStack
    have all := ih (fun u member => known u (by simp [member])) next
    simpa using all

omit [LinearOrder Id] in
theorem Inv.notMem (inv : state.Inv) (stack : state.stack = top ++ v :: base) :
    v ∉ top := by
  intro member
  exact lt_irrefl _ ((inv.cut stack).1 v member)

theorem Inv.close (inv : state.Inv) (v : Id) : (state.close v).Inv := by
  unfold Tarjan.close
  split
  · have kept : ((state.stack.dropWhile (· ≠ v)).tail).Sublist state.stack :=
      (tail_sublist _).trans (dropWhile_sublist _)
    exact ⟨fun u member => inv.numbered u (kept.subset member), inv.descending.sublist kept⟩
  · exact inv

/-- After all successors the loop hands over an outcome. -/
theorem Visiting.close (visiting : Visiting adj v before (adj v) state) :
    Outcome adj v before (state.close v) := by
  have vNumbered : state.idx v = some before.index :=
    visiting.grown.idx v before.index (by simp [discover])
  rcases visiting.outcome with found | ⟨top, x, stack, xMem, xLow, settles⟩
  · exact .reported ((extends_close v state).sccs found)
  have notAbove := visiting.inv.notMem stack
  have passes : ∀ u ∈ top, decide (u ≠ v) = true := by
    intro u member
    have other : u ≠ v := by
      rintro rfl
      exact notAbove member
    simpa using other
  have taken : state.stack.takeWhile (· ≠ v) = top := by
    rw [stack, takeWhile_append_of_pos passes, takeWhile_cons_of_neg (by simp), append_nil]
  have dropped : (state.stack.dropWhile (· ≠ v)).tail = before.stack := by
    rw [stack, dropWhile_append_of_pos passes, dropWhile_cons_of_neg (by simp), tail_cons]
  rcases mem_cons.mp xMem with rfl | inBase
  · -- `x` is the root of its component.
    have isRoot : state.idx x = some (state.low x) := xLow
    by_cases noneAbove : top = []
    · have closed : state.close x = { state with stack := before.stack } := by
        simp only [Tarjan.close, isRoot, if_true, taken, dropped, noneAbove]
        simp
      rw [closed]
      refine .popped rfl ?_ ?_
      · rw [xLow] at vNumbered
        exact (Option.some.inj vNumbered).ge
      · intro order settled
        obtain ⟨later, subset, popped, settledLater⟩ :=
          settles noneAbove rfl order settled
        have moved : (later ++ [x] ++ before.stack).Perm (later ++ state.stack) := by
          simp [stack, noneAbove]
        refine ⟨later ++ [x], fun u member => by simp [subset member], by simp,
          settledLater.topological.concat popped, ?_, ?_⟩
        · exact moved.nodup_iff.mpr settledLater.nodup
        · intro u
          rw [moved.mem_iff]
          exact settledLater.visited u
    · apply Outcome.reported
      simp only [Tarjan.close, isRoot, if_true, taken]
      have longer : 1 < (top ++ [x]).length := by
        have positive := length_pos_iff.mpr noneAbove
        simp only [length_append, length_cons, length_nil]
        omega
      rw [if_pos longer]
      simp
  · have waits : state.idx v ≠ some (state.low v) := by
      intro isRoot
      have lower := (visiting.inv.cut stack).2 x inBase
      simp [number, isRoot, xLow] at lower
    have closed : state.close v = state := if_neg waits
    rw [closed]
    exact .kept top stack x inBase xLow

/-- The search from an unvisited node, with a round left for every unvisited
one. -/
theorem strongconnect_outcome (closed : ∀ u, ∀ w ∈ adj u, w ∈ nodes ∧ w ≠ u)
    (rounds : Nat) (v : Id) (state : Tarjan Id) (member : v ∈ nodes)
    (fresh : state.idx v = none) (inv : state.Inv)
    (enough : unvisited nodes state ≤ rounds) :
    Extends v state (strongconnect adj rounds v state) ∧ (strongconnect adj rounds v state).Inv ∧
        Outcome adj v state (strongconnect adj rounds v state) := by
  refine ⟨extends_strongconnect rounds fresh, ?_⟩
  induction rounds generalizing v state with
  | zero =>
    have less := unvisited_discover member fresh
    omega
  | succ rounds ih =>
    have less := unvisited_discover member fresh
    have looped : Visiting adj v state ([] ++ adj v)
        ((adj v).foldl (visit (strongconnect adj rounds) v) (state.discover v)) :=
      Visiting.loop rounds (fun w middle wMem wFresh middleInv left =>
          ⟨extends_strongconnect rounds wFresh, ih w middle wMem wFresh middleInv left⟩)
        (by omega) (adj v) (closed v) (visiting_discover inv fresh)
    exact ⟨looped.inv.close v, looped.close⟩

end Tarjan

/-- While no component has been reported, the search stands between two roots
with an empty stack. -/
structure BetweenRoots (adj : Id → List Id) (seen : List Id) (state : Tarjan Id) : Prop where
  inv : state.Inv
  stack : state.stack = []
  settled : ∃ order, (∀ u ∈ seen, u ∈ order) ∧ state.Settled adj order

theorem BetweenRoots.visit (closed : ∀ u, ∀ w ∈ adj u, w ∈ nodes ∧ w ≠ u)
    {seen : List Id} {state : Tarjan Id} (between : BetweenRoots adj seen state)
    {v : Id} (member : v ∈ nodes) :
    let after := if state.idx v = none then
      Tarjan.strongconnect adj nodes.length v state else state
    after.sccs ≠ [] ∨ BetweenRoots adj (seen ++ [v]) after := by
  obtain ⟨order, popped, settled⟩ := between.settled
  by_cases fresh : state.idx v = none
  · simp only [fresh, if_true]
    obtain ⟨-, inv, outcome⟩ := Tarjan.strongconnect_outcome closed nodes.length v state
      member fresh between.inv countP_le_length
    cases outcome with
    | reported found => exact .inl found
    | popped stack low settles =>
      obtain ⟨later, subset, vPopped, settledLater⟩ := settles order settled
      refine .inr ⟨inv, stack.trans between.stack, later, ?_, settledLater⟩
      intro u uMem
      rcases mem_append.mp uMem with earlier | last
      · exact subset (popped u earlier)
      · exact mem_singleton.mp last ▸ vPopped
    | kept top stack x below low =>
      rw [between.stack] at below
      simp at below
  · simp only [fresh, if_false]
    refine .inr ⟨between.inv, between.stack, order, ?_, settled⟩
    intro u uMem
    rcases mem_append.mp uMem with earlier | last
    · exact popped u earlier
    · obtain rfl := mem_singleton.mp last
      have known := (settled.visited u).mp fresh
      rwa [between.stack, append_nil] at known

/-- A search that reports no component saw an acyclic graph. -/
theorem acyclic_of_tarjan (closed : ∀ u, ∀ w ∈ adj u, w ∈ nodes ∧ w ≠ u)
    (noComponents : (tarjan nodes adj).sccs = []) :
    Acyclic fun w u => u ∈ nodes ∧ w ∈ adj u := by
  have looped : ∀ rest seen (state : Tarjan Id), (∀ v ∈ rest, v ∈ nodes) →
      state.sccs ≠ [] ∨ BetweenRoots adj seen state →
      let final := rest.foldl (fun state v => if state.idx v = none then
        Tarjan.strongconnect adj nodes.length v state else state) state
      final.sccs ≠ [] ∨ BetweenRoots adj (seen ++ rest) final := by
    intro rest
    induction rest with
    | nil => exact fun seen state _ holds => by simpa using holds
    | cons v rest ih =>
      intro seen state known holds
      have step : (if state.idx v = none then
          Tarjan.strongconnect adj nodes.length v state else state).sccs ≠ [] ∨
        BetweenRoots adj (seen ++ [v]) (if state.idx v = none then
          Tarjan.strongconnect adj nodes.length v state else state) := by
        rcases holds with found | between
        · left
          split
          · rename_i fresh
            exact (Tarjan.extends_strongconnect _ fresh).sccs found
          · exact found
        · exact between.visit closed (known v (by simp))
      have next := ih (seen ++ [v]) _ (fun u member => known u (by simp [member])) step
      simpa using next
  have opening : BetweenRoots adj []
      { index := 0, idx := fun _ => none, low := fun _ => 0, stack := [], sccs := [] } :=
    ⟨⟨by simp, .nil⟩, rfl, [], by simp, topological_nil, by simp, by simp⟩
  have final := looped nodes [] _ (fun _ member => member) (.inr opening)
  obtain ⟨-, -, order, popped, settled⟩ := final.resolve_left (not_not_intro noComponents)
  have topological : Topological (fun w u => u ∈ nodes ∧ w ∈ adj u) order :=
    settled.topological.mono fun _ _ edge => edge.2
  exact topological.acyclic (settled.nodup.sublist (sublist_append_left _ _))
    fun _ u edge => popped u (by simpa using edge.1)

variable {taskIds : List Id} {dependencies : List (GanttCalcDependency Id)}

/-- Ids between which no cycle is found precede each other acyclically. -/
theorem acyclic_of_findCycles (noCycles : findCycles taskIds dependencies = []) :
    Acyclic (Precedes taskIds dependencies) := by
  obtain ⟨noLoops, noComponents⟩ := append_eq_nil_iff.mp noCycles
  have closed : ∀ u, ∀ w ∈ adjacent (sorted (distinct taskIds)) dependencies u,
      w ∈ sorted (distinct taskIds) ∧ w ≠ u := by
    intro u w member
    simp only [adjacent, mem_sorted, List.mem_map, mem_filter, decide_eq_true_eq] at member
    obtain ⟨dep, ⟨known, source, notLoop⟩, rfl⟩ := member
    refine ⟨(mem_knownDependencies.mp known).2.2, ?_⟩
    rw [← source]
    exact notLoop.symm
  apply ((acyclic_of_tarjan closed noComponents).swap).mono
  rintro u v ⟨dep, known, rfl, rfl⟩
  have knownNodes : dep ∈ knownDependencies (sorted (distinct taskIds)) dependencies := by
    simpa [mem_knownDependencies] using known
  refine ⟨(mem_knownDependencies.mp knownNodes).2.1, ?_⟩
  simp only [adjacent, mem_sorted, List.mem_map, mem_filter, decide_eq_true_eq]
  refine ⟨dep, ⟨knownNodes, rfl, ?_⟩, rfl⟩
  intro loop
  have reported : [dep.taskId] ∈ selfLoops (sorted (distinct taskIds)) dependencies :=
    List.mem_map.mpr ⟨dep, mem_filter.mpr ⟨knownNodes, by simpa using loop⟩, rfl⟩
  rw [noLoops] at reported
  simp at reported

/-- What the validator accepts is an acyclic graph. -/
theorem acyclic_of_validateDependencies
    (noUnknown : (validateDependencies taskIds dependencies).unknownTaskIds = [])
    (noCycles : (validateDependencies taskIds dependencies).cycles = []) :
    Acyclic fun u v => ∃ dep ∈ dependencies, dep.dependsOnId = u ∧ dep.taskId = v := by
  have unknown : unknownRefs taskIds dependencies = [] := by
    rw [eq_nil_iff_forall_not_mem] at noUnknown ⊢
    exact fun id member => noUnknown id (mem_sorted.mpr member)
  apply (acyclic_of_findCycles noCycles).mono
  rintro u v ⟨dep, member, source, target⟩
  have known := unknownRefs_eq_nil.mp unknown dep member
  exact ⟨dep, mem_knownDependencies.mpr ⟨member, known.2, known.1⟩, source, target⟩

namespace Tarjan
variable {v : Id} {before state : Tarjan Id}

/-- The loop over the successors of `v` has left nothing on the stack and reported nothing. -/
structure Quiet (v : Id) (before state : Tarjan Id) : Prop where
  grown : Extends v (before.discover v) state
  stack : state.stack = v :: before.stack
  sccs : state.sccs = before.sccs
  low : state.low v = before.index

theorem Quiet.idx (quiet : Quiet v before state) : state.idx v = some before.index :=
  quiet.grown.idx v _ (by simp [discover])

theorem Quiet.visit {w : Id} {rounds : Nat} (quiet : Quiet v before state)
    (apart : w ∉ v :: before.stack)
    (search : state.idx w = none → (strongconnect adj rounds w state).stack = state.stack ∧
      (strongconnect adj rounds w state).sccs = state.sccs ∧
      state.index ≤ (strongconnect adj rounds w state).low w) :
    Quiet v before (state.visit (strongconnect adj rounds) v w) := by
  have grown : Extends v state (state.visit (strongconnect adj rounds) v w) :=
    extends_visit (fun _ _ => extends_strongconnect rounds) w
  have all := quiet.grown.trans grown
  unfold Tarjan.visit at all ⊢
  cases found : state.idx w with
  | none =>
    simp only [found] at all ⊢
    obtain ⟨stack, sccs, low⟩ := search found
    refine ⟨all, stack.trans quiet.stack, sccs.trans quiet.sccs, ?_⟩
    have there : Extends w state (strongconnect adj rounds w state) :=
      extends_strongconnect rounds found
    have kept := there.low v (ne_of_not_mem_cons apart).symm (by simp [quiet.idx])
    have later : before.index + 1 ≤ state.index := quiet.grown.index
    simp only [update_self, kept, quiet.low]
    omega
  | some number =>
    rw [← quiet.stack] at apart
    simp only [if_neg apart]
    exact quiet

/-- In an acyclic graph a search reports nothing and leaves the stack as it was, when all that
waits there leads to its node. -/
theorem strongconnect_quiet (acyclic : Acyclic fun u w => w ∈ adj u)
    (closed : ∀ u, ∀ w ∈ adj u, w ∈ nodes) (rounds : Nat) (v : Id) (state : Tarjan Id)
    (less : unvisited nodes (state.discover v) < unvisited nodes state)
    (leads : ∀ u ∈ state.stack, Relation.TransGen (fun u w => w ∈ adj u) u v)
    (enough : unvisited nodes state ≤ rounds) :
    (strongconnect adj rounds v state).stack = state.stack ∧
      (strongconnect adj rounds v state).sccs = state.sccs ∧
      state.index ≤ (strongconnect adj rounds v state).low v := by
  induction rounds generalizing v state with
  | zero => omega
  | succ rounds ih =>
    have looped : ∀ rest middle, rest ⊆ adj v → Quiet v state middle →
        Quiet v state (rest.foldl (Tarjan.visit (strongconnect adj rounds) v) middle) := by
      intro rest
      induction rest with
      | nil => exact fun middle _ quiet => quiet
      | cons w rest next =>
        intro middle successors quiet
        obtain ⟨edge, others⟩ := cons_subset.mp successors
        have reaches : ∀ u ∈ v :: state.stack, Relation.TransGen (fun u w => w ∈ adj u) u w :=
          forall_mem_cons.mpr ⟨.single edge, fun u onStack => (leads u onStack).tail edge⟩
        refine next _ others (quiet.visit (fun onStack => acyclic w (reaches w onStack)) ?_)
        intro fresh
        have unseen := quiet.grown.unvisited_le nodes
        exact ih w middle (unvisited_discover (closed v w edge) fresh) (quiet.stack ▸ reaches)
          (by omega)
    have quiet := looped (adj v) _ (List.Subset.refl _) ⟨.refl v _, rfl, rfl, by simp [discover]⟩
    have isRoot := quiet.idx
    rw [← quiet.low] at isRoot
    simp [strongconnect, Tarjan.close, isRoot, quiet.stack, quiet.sccs, quiet.low]

end Tarjan

theorem sccs_tarjan_eq_nil (acyclic : Acyclic fun u w => w ∈ adj u)
    (closed : ∀ u, ∀ w ∈ adj u, w ∈ nodes) : (tarjan nodes adj).sccs = [] := by
  refine (foldlRecOn nodes _ (motive := fun state : Tarjan Id => state.stack = [] ∧ state.sccs = [])
    ⟨rfl, rfl⟩ fun state between v member => ?_).2
  split
  · rename_i fresh
    obtain ⟨stack, sccs, -⟩ := Tarjan.strongconnect_quiet acyclic closed nodes.length v state
      (Tarjan.unvisited_discover member fresh) (by simp [between.1]) countP_le_length
    exact ⟨stack.trans between.1, sccs.trans between.2⟩
  · exact between

theorem findCycles_of_acyclic (acyclic : Acyclic (Precedes taskIds dependencies)) :
    findCycles taskIds dependencies = [] := by
  have precedes : ∀ dep ∈ knownDependencies (sorted (distinct taskIds)) dependencies,
      Precedes taskIds dependencies dep.dependsOnId dep.taskId := by
    intro dep known
    exact ⟨dep, by simpa [mem_knownDependencies] using known, rfl, rfl⟩
  have edges : ∀ u, ∀ w ∈ adjacent (sorted (distinct taskIds)) dependencies u,
      Precedes taskIds dependencies u w := by
    simp only [adjacent, mem_sorted, List.mem_map, mem_filter, decide_eq_true_eq]
    rintro u w ⟨dep, ⟨known, rfl, -⟩, rfl⟩
    exact precedes dep known
  refine append_eq_nil_iff.mpr ⟨?_, sccs_tarjan_eq_nil (acyclic.mono edges) ?_⟩
  · refine map_eq_nil_iff.mpr (filter_eq_nil_iff.mpr fun dep known => ?_)
    have step := precedes dep known
    simp only [decide_eq_true_eq]
    rintro loop
    exact acyclic dep.taskId (.single (loop ▸ step))
  · intro u w member
    simpa using (edges u w member).target_mem

/-- The two searches for cycles agree: the validator accepts exactly what the schedule is given an
order for. -/
theorem valid_iff_sorts :
    (validateDependencies taskIds dependencies).valid = true ↔
      unknownRefs taskIds dependencies = [] ∧
        ∃ order, topologicalSort taskIds dependencies = .ok order := by
  have same : Precedes (distinct taskIds) dependencies = Precedes taskIds dependencies := by
    funext u v
    simp [Precedes, knownDependencies]
  have sorts : findCycles taskIds dependencies = [] ↔
      ∃ order, topologicalSort taskIds dependencies = .ok order := by
    constructor
    · intro none
      obtain ⟨order, isOk, -⟩ := topologicalSort_of_acyclic (same ▸ acyclic_of_findCycles none)
      exact ⟨order, isOk⟩
    · rintro ⟨order, isOk⟩
      obtain ⟨isOrder, -⟩ := topologicalSort_ok isOk
      have acyclic := isOrder.topological.acyclic isOrder.nodup fun u v precedes =>
        (isOrder.mem v).mpr (mem_distinct.mp precedes.target_mem)
      exact findCycles_of_acyclic (same ▸ acyclic)
  simp [validateDependencies, sorts, and_comm]

end DubEcosystem.GanttCalc
