import DubEcosystem.InterleavingWatched

/-!
# Operations that run one at a time

Where a system starts certain operations only while none of them is in flight, each of their calls
is issued beside the other operations alone.  A run under a condition is then a run under the
stronger one that says so.
-/

namespace DubEcosystem.Interleaving

open Relation List

variable {S : Signature} {World Op α : Type}

/-- The operations that are `solo` start one at a time, and they alone issue the calls that are
`exclusive`. -/
structure System.RunsAlone (system : System S World Op) (solo : Op → Bool)
    (exclusive : S.Call → Prop) : Prop where
  startable : ∀ {running op}, system.startable running op → solo op = true →
    ∀ other ∈ running, solo other = false
  issues : ∀ op, solo op = false →
    (system.program op).Issues fun request => ¬exclusive request

def RunCondition.alone (condition : RunCondition S World Op) (solo : Op → Bool)
    (exclusive : S.Call → Prop) : RunCondition S World Op where
  mayCall request world others := condition.mayCall request world others ∧
    (exclusive request → ∀ thread ∈ others, solo thread.1 = false)
  mayStop := condition.mayStop

/-- At most one operation is solo, and the others issue no exclusive call. -/
structure AloneIn (solo : Op → Bool) (exclusive : S.Call → Prop)
    (threads : List (Op × Prog S Unit)) : Prop where
  single : threads.countP (fun thread => solo thread.1) ≤ 1
  issues : ∀ thread ∈ threads, solo thread.1 = false →
    thread.2.Issues fun request => ¬exclusive request

namespace AloneIn

variable {solo : Op → Bool} {exclusive : S.Call → Prop} {before after : List (Op × Prog S Unit)}
  {op : Op} {request : S.Call} {next : S.Answer request → Prog S Unit}

theorem nil : AloneIn solo exclusive ([] : List (Op × Prog S Unit)) where
  single := by simp
  issues := by simp

theorem others (alone : AloneIn solo exclusive (before ++ (op, .call request next) :: after))
    (isExclusive : exclusive request) : ∀ thread ∈ before ++ after, solo thread.1 = false := by
  have isSolo : solo op = true := by
    by_contra notSolo
    exact (alone.issues (op, .call request next) (by simp) (by simpa using notSolo)).1 isExclusive
  have single := alone.single
  simp only [countP_append, countP_cons, isSolo, if_true] at single
  have nobody : (before ++ after).countP (fun thread => solo thread.1) = 0 := by
    rw [countP_append]
    omega
  intro thread member
  simpa using countP_eq_zero.mp nobody thread member

theorem call (alone : AloneIn solo exclusive (before ++ (op, .call request next) :: after))
    (answer : S.Answer request) :
    AloneIn solo exclusive (before ++ (op, next answer) :: after) where
  single := by
    have single := alone.single
    simpa [countP_append, countP_cons] using single
  issues := by
    intro thread member notSolo
    rcases mem_append.mp member with isBefore | isAfter
    · exact alone.issues thread (mem_append_left _ isBefore) notSolo
    · rcases mem_cons.mp isAfter with rfl | isAfter
      · exact (alone.issues (op, .call request next) (by simp) notSolo).2 answer
      · exact alone.issues thread (mem_append_right before (.tail _ isAfter)) notSolo

theorem sublist {threads fewer : List (Op × Prog S Unit)} (alone : AloneIn solo exclusive threads)
    (isSublist : fewer.Sublist threads) : AloneIn solo exclusive fewer where
  single := Nat.le_trans isSublist.countP_le alone.single
  issues thread member := alone.issues thread (isSublist.subset member)

theorem perm {threads reordered : List (Op × Prog S Unit)}
    (alone : AloneIn solo exclusive threads) (isPerm : threads.Perm reordered) :
    AloneIn solo exclusive reordered where
  single := (isPerm.countP_eq _) ▸ alone.single
  issues thread member := alone.issues thread (isPerm.mem_iff.mpr member)

theorem start {system : System S World Op} (runsAlone : system.RunsAlone solo exclusive)
    {threads : List (Op × Prog S Unit)} (alone : AloneIn solo exclusive threads)
    (program : Prog S Unit) (startable : system.startable (threads.map Prod.fst) op)
    (issues : solo op = false → program.Issues fun request => ¬exclusive request) :
    AloneIn solo exclusive ((op, program) :: threads) where
  single := by
    by_cases isSolo : solo op = true
    · have nobody : threads.countP (fun thread => solo thread.1) = 0 := by
        apply countP_eq_zero.mpr
        intro thread member
        simpa using runsAlone.startable startable isSolo thread.1 (mem_map_of_mem member)
      simp only [countP_cons, isSolo, nobody, if_true]
      omega
    · simpa only [countP_cons, isSolo, if_neg, Bool.false_eq_true, not_false_eq_true,
        Nat.add_zero] using alone.single
  issues := by
    intro thread member notSolo
    rcases mem_cons.mp member with rfl | member
    · exact issues notSolo
    · exact alone.issues thread member notSolo

end AloneIn

variable {system : System S World Op} {condition : RunCondition S World Op} {solo : Op → Bool}
  {exclusive : S.Call → Prop}

section

variable (runsAlone : system.RunsAlone solo exclusive)
include runsAlone

theorem System.RunsAlone.step {before after : Config S World Op}
    (step : system.StepUnder condition before after)
    (alone : AloneIn solo exclusive before.threads) :
    system.StepUnder (condition.alone solo exclusive) before after ∧
      AloneIn solo exclusive after.threads := by
  cases step with
  | start op startable =>
    exact ⟨.start op startable, alone.start runsAlone _ startable (runsAlone.issues op)⟩
  | call op request next answer moved permitted answers =>
    exact ⟨.call op request next answer moved ⟨permitted, alone.others⟩ answers, alone.call answer⟩
  | environment moves => exact ⟨.environment moves, alone⟩
  | stop thread permitted =>
    exact ⟨.stop thread permitted, alone.sublist ((sublist_cons_self _ _).append_left _)⟩

theorem System.RunsAlone.run {start final : Config S World Op}
    (run : ReflTransGen (system.StepUnder condition) start final)
    (alone : AloneIn solo exclusive start.threads) :
    ReflTransGen (system.StepUnder (condition.alone solo exclusive)) start final ∧
      AloneIn solo exclusive final.threads := by
  induction run with
  | refl => exact ⟨.refl, alone⟩
  | tail _ step ih =>
    obtain ⟨stronger, later⟩ := runsAlone.step step ih.2
    exact ⟨ih.1.tail stronger, later⟩

theorem System.RunsAlone.reached {world : World} {config : Config S World Op}
    (reached : system.ReachableUnder condition world config) :
    system.ReachableUnder (condition.alone solo exclusive) world config ∧
      AloneIn solo exclusive config.threads :=
  runsAlone.run reached .nil

theorem System.RunsAlone.watchStep {op : Op} {before after : Watched S World Op α}
    (step : system.WatchStep condition op before after)
    (alone : AloneIn solo exclusive ((op, before.own.forget) :: before.others)) :
    system.WatchStep (condition.alone solo exclusive) op before after ∧
      AloneIn solo exclusive ((op, after.own.forget) :: after.others) := by
  cases step with
  | @own _ others request answer _ next permitted answers =>
    have front : AloneIn solo exclusive
        ([] ++ (op, .call request fun answer => (next answer).forget) :: others) := alone
    exact ⟨.own ⟨permitted, front.others⟩ answers, front.call answer⟩
  | start started startable =>
    have begun := alone.start runsAlone _ startable (runsAlone.issues started)
    exact ⟨.start started startable, begun.perm (List.Perm.swap _ _ _)⟩
  | @other _ front back own request answer _ other next permitted answers =>
    have middle : AloneIn solo exclusive
        (((op, own.forget) :: front) ++ (other, .call request next) :: back) := alone
    exact ⟨.other other ⟨permitted, middle.others⟩ answers, middle.call answer⟩
  | environment moves => exact ⟨.environment moves, alone⟩
  | stop thread permitted =>
    exact ⟨.stop thread permitted,
      alone.sublist (((sublist_cons_self _ _).append_left _).cons_cons _)⟩

/-- An operation that is waited for under a condition is waited for under the stronger one. -/
theorem System.RunsAlone.watched {world : World} {op : Op} {program : Prog S α}
    {watched : Watched S World Op α} (isSolo : solo op = true)
    (reached : system.WatchedUnder condition world op program watched) :
    system.WatchedUnder (condition.alone solo exclusive) world op program watched := by
  obtain ⟨config, reachable, startable, run⟩ := reached
  obtain ⟨stronger, alone⟩ := runsAlone.reached reachable
  have begun : AloneIn solo exclusive ((op, program.forget) :: config.threads) :=
    alone.start runsAlone _ startable fun notSolo => by simp [isSolo] at notSolo
  suffices both : ReflTransGen (system.WatchStep (condition.alone solo exclusive) op)
      ⟨config.world, config.threads, program⟩ watched ∧
        AloneIn solo exclusive ((op, watched.own.forget) :: watched.others) from
    ⟨config, stronger, startable, both.1⟩
  induction run with
  | refl => exact ⟨.refl, begun⟩
  | tail _ step ih =>
    obtain ⟨strongerStep, later⟩ := runsAlone.watchStep step ih.2
    exact ⟨ih.1.tail strongerStep, later⟩

end

end DubEcosystem.Interleaving
