import DubEcosystem.InterleavingConditions

/-!
# Executable schedules

A schedule lists the moves of one run: which operation starts, which operation
in flight issues its next call, how the environment moves.  Playing a schedule
computes the configuration it ends in, so a concrete run of an interleaved
system is a computation rather than a derivation of `System.Step`.
-/

namespace DubEcosystem.Interleaving

open Relation List Option

variable {S : Signature} {World Op : Type}

/-- A single scheduled move.  The `oracle` answers a call that the machine
leaves to the outside. -/
inductive Move (S : Signature) (World Op : Type) where
  | start (op : Op)
  | call (index : Nat) (oracle : (request : S.Call) → S.Answer request)
  | environment (moved : World → World)

/-- The decidable side conditions a schedule is played under. -/
structure Referee (system : System S World Op) (allowed : S.Call → World → Prop) where
  mayCall : S.Call → World → Bool
  mayStart : List Op → Op → Bool
  allowed_of_mayCall : ∀ {request world},
    mayCall request world = true → allowed request world
  startable_of_mayStart : ∀ {running op},
    mayStart running op = true → system.startable running op

theorem exists_set_of_getElem? {T : Type} {threads : List T} {index : Nat} {thread : T}
    (selected : threads[index]? = some thread) (changed : T) : ∃ front back,
      threads = front ++ thread :: back ∧ threads.set index changed = front ++ changed :: back := by
  obtain ⟨inRange, rfl⟩ := List.getElem?_eq_some_iff.mp selected
  refine ⟨threads.take index, threads.drop (index + 1), ?_, set_eq_take_cons_drop _ inRange⟩
  rw [getElem_cons_drop, take_append_drop]

theorem System.answers_getD (system : System S World Op) (request : S.Call)
    (answer : S.Answer request) (world : World) :
    let outcome := (system.exec request world).getD
      (answer, system.observe request answer world)
    system.toMachine.Answers request world outcome.1 outcome.2 := by
  simp only [Machine.Answers]
  cases executed : system.exec request world <;> simp

namespace Referee

variable {system : System S World Op} {allowed : S.Call → World → Prop}
  (referee : Referee system allowed)

/-- Play one move; `none` when it is not possible or not permitted. -/
def move : Move S World Op → Config S World Op → Option (Config S World Op)
  | .start op, config =>
    if referee.mayStart (config.threads.map Prod.fst) op then
      some ⟨config.world, (op, system.program op) :: config.threads⟩
    else none
  | .call index oracle, config =>
    match config.threads[index]? with
    | some (op, .call request next) =>
      if referee.mayCall request config.world then
        let answer := oracle request
        let outcome := (system.exec request config.world).getD
          (answer, system.observe request answer config.world)
        some ⟨outcome.2, config.threads.set index (op, next outcome.1)⟩
      else none
    | _ => none
  | .environment moved, config => some ⟨moved config.world, config.threads⟩

/-- Play the moves of a schedule in order. -/
def play : List (Move S World Op) → Config S World Op → Option (Config S World Op)
  | [], config => some config
  | next :: rest, config => (referee.move next config).bind (play rest)

theorem step_of_move {next : Move S World Op} {before after : Config S World Op}
    (environmental : ∀ moved, next = .environment moved →
      ∀ world, system.environment world (moved world))
    (played : referee.move next before = some after) :
    system.Step allowed before after := by
  obtain ⟨world, threads⟩ := before
  cases next with
  | start op =>
    simp only [move, ite_none_right_eq_some, Option.some.injEq] at played
    obtain ⟨permitted, rfl⟩ := played
    exact .start op (referee.startable_of_mayStart permitted)
  | environment moved =>
    simp only [move, Option.some.injEq] at played
    subst played
    exact .environment (environmental moved rfl world)
  | call index oracle =>
    simp only [move] at played
    split at played
    · rename_i op request following selected
      simp only [ite_none_right_eq_some, Option.some.injEq] at played
      obtain ⟨permitted, rfl⟩ := played
      obtain ⟨front, back, rfl, changed⟩ := exists_set_of_getElem? selected (op, following _)
      rw [changed]
      exact .call op request following _ _ (referee.allowed_of_mayCall permitted)
        (system.answers_getD request _ world)
    · simp at played

/-- A configuration that some schedule ends in is reachable. -/
theorem run_of_play {moves : List (Move S World Op)} {start final : Config S World Op}
    (environmental : ∀ moved, .environment moved ∈ moves →
      ∀ world, system.environment world (moved world))
    (played : referee.play moves start = some final) :
    system.RunWhere allowed start final := by
  induction moves generalizing start with
  | nil =>
    simp only [play, Option.some.injEq] at played
    exact played ▸ .refl
  | cons next rest ih =>
    simp only [play, bind_eq_some_iff] at played
    obtain ⟨middle, first, remaining⟩ := played
    refine .head (referee.step_of_move ?_ first)
      (ih (fun moved member => environmental moved (by simp [member])) remaining)
    rintro moved rfl
    exact environmental moved (by simp)

/-- A decidable relation between the world one schedule ends in and the world
that a further schedule leads to holds along a run. -/
theorem exists_run_of_play (first second : List (Move S World Op))
    (world : World) (related : World → World → Bool)
    (environmental : ∀ moved, .environment moved ∈ first ++ second →
      ∀ world, system.environment world (moved world))
    (played : ((referee.play first ⟨world, []⟩).bind fun middle =>
      (referee.play second middle).map fun final =>
        related middle.world final.world) = some true) :
    ∃ middle final, system.ReachableWhere allowed world middle ∧
      system.RunWhere allowed middle final ∧ related middle.world final.world = true := by
  obtain ⟨middle, reached, further⟩ := bind_eq_some_iff.mp played
  obtain ⟨final, run, holds⟩ := map_eq_some_iff.mp further
  refine ⟨middle, final, referee.run_of_play ?_ reached, referee.run_of_play ?_ run, holds⟩
  · intro moved member
    exact environmental moved (mem_append_left second member)
  · intro moved member
    exact environmental moved (mem_append_right first member)

/-- A decidable relation between the worlds before and after the last move of a schedule
holds of a step of a run. -/
theorem exists_step_of_play (moves : List (Move S World Op)) (last : Move S World Op)
    (world : World) (related : World → World → Bool)
    (environmental : ∀ moved, .environment moved ∈ last :: moves →
      ∀ world, system.environment world (moved world))
    (played : ((referee.play moves ⟨world, []⟩).bind fun middle =>
      (referee.move last middle).map fun final =>
        related middle.world final.world) = some true) :
    ∃ middle final, system.ReachableWhere allowed world middle ∧
      system.Step allowed middle final ∧ related middle.world final.world = true := by
  obtain ⟨middle, reached, further⟩ := bind_eq_some_iff.mp played
  obtain ⟨final, moved, holds⟩ := map_eq_some_iff.mp further
  refine ⟨middle, final, referee.run_of_play ?_ reached, referee.step_of_move ?_ moved, holds⟩
  · intro change member
    exact environmental change (mem_cons_of_mem last member)
  · intro change isLast
    exact environmental change (isLast ▸ (.head _))

/-- A decidable property of the world a schedule ends in holds of a reachable
configuration. -/
theorem exists_reachable_of_play (moves : List (Move S World Op))
    (world : World) (property : World → Bool)
    (environmental : ∀ moved, .environment moved ∈ moves →
      ∀ world, system.environment world (moved world))
    (played : (referee.play moves ⟨world, []⟩).map
      (fun config => property config.world) = some true) :
    ∃ config, system.ReachableWhere allowed world config ∧ property config.world = true := by
  obtain ⟨config, final, holds⟩ := map_eq_some_iff.mp played
  exact ⟨config, referee.run_of_play environmental final, holds⟩

/-- A schedule after which everything in flight dies, and another after that. -/
theorem exists_reachable_of_restart {system : System S World Op}
    (referee : Referee system anyCall) (first second : List (Move S World Op))
    (world : World) (property : World → Bool)
    (environmental : ∀ moved, .environment moved ∈ first ++ second →
      ∀ world, system.environment world (moved world))
    (played : ((referee.play first ⟨world, []⟩).bind fun middle =>
      (referee.play second ⟨middle.world, []⟩).map fun final =>
        property final.world) = some true) :
    ∃ final, system.ReachableUnder anyStep world ⟨final, []⟩ ∧ property final = true := by
  obtain ⟨middle, reached, further⟩ := bind_eq_some_iff.mp played
  obtain ⟨final, run, holds⟩ := map_eq_some_iff.mp further
  have before : ReflTransGen (system.StepUnder anyStep) ⟨world, []⟩ middle := by
    apply runUnder_anyStep
    apply referee.run_of_play _ reached
    intro moved member
    exact environmental moved (mem_append_left second member)
  have after : ReflTransGen (system.StepUnder anyStep) ⟨middle.world, []⟩ final := by
    apply runUnder_anyStep
    apply referee.run_of_play _ run
    intro moved member
    exact environmental moved (mem_append_right first member)
  have restarted := (before.trans (runUnder_stopAll system _ _)).trans after
  exact ⟨final.world, restarted.trans (runUnder_stopAll system _ _), holds⟩

def issue (system : System S World Op) (index : Nat)
    (oracle : (request : S.Call) → S.Answer request) (config : Config S World Op) :
    Option ((request : S.Call) × S.Answer request × Config S World Op) :=
  match config.threads[index]? with
  | some (op, .call request next) =>
    let outcome := (system.exec request config.world).getD
      (oracle request, system.observe request (oracle request) config.world)
    some ⟨request, outcome.1, outcome.2, config.threads.set index (op, next outcome.1)⟩
  | _ => none

theorem callUnder_of_issue {index : Nat} {oracle : (request : S.Call) → S.Answer request}
    {before middle : Config S World Op} {request : S.Call} {answer : S.Answer request}
    (issued : issue system index oracle before = some ⟨request, answer, middle⟩) :
    system.CallUnder anyStep request answer before middle := by
  obtain ⟨world, threads⟩ := before
  simp only [issue] at issued
  split at issued
  · rename_i op issuedRequest following selected
    cases issued
    obtain ⟨front, back, rfl, changed⟩ := exists_set_of_getElem? selected (op, following _)
    rw [changed]
    exact .call op following _ trivial (system.answers_getD request _ world)
  · cases issued

/-- A call that a schedule leads to, with its answer, and where a further schedule leads
from there. -/
theorem exists_call_of_play {system : System S World Op} (referee : Referee system anyCall)
    (first second : List (Move S World Op)) (index : Nat)
    (oracle : (request : S.Call) → S.Answer request) (world : World)
    (answered : (request : S.Call) → S.Answer request → Bool) (property : World → Bool)
    (environmental : ∀ moved, .environment moved ∈ first ++ second →
      ∀ world, system.environment world (moved world))
    (played : ((referee.play first ⟨world, []⟩).bind fun before =>
      (issue system index oracle before).bind fun issued =>
        (referee.play second issued.2.2).map fun later =>
          answered issued.1 issued.2.1 && property later.world) = some true) :
    ∃ request answer before middle later, system.ReachableUnder anyStep world before ∧
      system.CallUnder anyStep request answer before middle ∧
        ReflTransGen (system.StepUnder anyStep) middle later ∧
          answered request answer = true ∧ property later.world = true := by
  obtain ⟨before, reached, further⟩ := bind_eq_some_iff.mp played
  obtain ⟨⟨request, answer, middle⟩, issued, rest⟩ := bind_eq_some_iff.mp further
  obtain ⟨later, run, holds⟩ := map_eq_some_iff.mp rest
  rw [Bool.and_eq_true] at holds
  refine ⟨request, answer, before, middle, later, ?_, callUnder_of_issue issued, ?_, holds⟩
  · apply runUnder_anyStep
    apply referee.run_of_play _ reached
    intro moved member
    exact environmental moved (mem_append_left second member)
  · apply runUnder_anyStep
    apply referee.run_of_play _ run
    intro moved member
    exact environmental moved (mem_append_right first member)

end Referee

def openReferee (system : System S World Op)
    (startable : ∀ running op, system.startable running op) :
    Referee system anyCall where
  mayCall _ _ := true
  mayStart _ _ := true
  allowed_of_mayCall _ := trivial
  startable_of_mayStart _ := startable _ _

end DubEcosystem.Interleaving
