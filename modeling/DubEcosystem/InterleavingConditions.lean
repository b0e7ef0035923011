import DubEcosystem.Interleaving

/-!
# Conditions that see the operations in flight

A run may be restricted by what the other operations have left to do: a call may be
issued only while the others are where they do no harm, and an operation may be dropped
only where it owes nothing.  An invariant over configurations is then an induction on
the steps of the restricted run.
-/

namespace DubEcosystem.Interleaving

open Relation

variable {S : Signature} {World Op : Type}

/-- Which calls may be issued beside which operations, and which operations may stop. -/
structure RunCondition (S : Signature) (World Op : Type) where
  mayCall : S.Call → World → List (Op × Prog S Unit) → Prop
  mayStop : Op × Prog S Unit → Prop

def anyStep : RunCondition S World Op where
  mayCall _ _ _ := True
  mayStop _ := True

/-- A step that meets the condition. -/
inductive System.StepUnder (system : System S World Op) (condition : RunCondition S World Op) :
    Config S World Op → Config S World Op → Prop
  | start {world threads} (op : Op) (startable : system.startable (threads.map Prod.fst) op) :
      StepUnder system condition ⟨world, threads⟩ ⟨world, (op, system.program op) :: threads⟩
  | call {world before after} (op : Op) (request : S.Call) (next : S.Answer request → Prog S Unit)
      (answer : S.Answer request) (moved : World)
      (permitted : condition.mayCall request world (before ++ after))
      (answers : system.toMachine.Answers request world answer moved) :
      StepUnder system condition ⟨world, before ++ (op, .call request next) :: after⟩
        ⟨moved, before ++ (op, next answer) :: after⟩
  | environment {world moved threads} (moves : system.environment world moved) :
      StepUnder system condition ⟨world, threads⟩ ⟨moved, threads⟩
  | stop {world before after} (thread : Op × Prog S Unit) (permitted : condition.mayStop thread) :
      StepUnder system condition ⟨world, before ++ thread :: after⟩ ⟨world, before ++ after⟩

/-- A step in which an operation in flight issues this call and is given this answer. -/
inductive System.CallUnder (system : System S World Op)
    (condition : RunCondition S World Op) (request : S.Call) (answer : S.Answer request) :
    Config S World Op → Config S World Op → Prop
  | call {world before after} (op : Op) (next : S.Answer request → Prog S Unit)
      (moved : World) (permitted : condition.mayCall request world (before ++ after))
      (answers : system.toMachine.Answers request world answer moved) :
      CallUnder system condition request answer ⟨world, before ++ (op, .call request next) :: after⟩
        ⟨moved, before ++ (op, next answer) :: after⟩

variable {system : System S World Op} {condition : RunCondition S World Op}

theorem System.CallUnder.step {request : S.Call} {answer : S.Answer request}
    {before after : Config S World Op}
    (call : system.CallUnder condition request answer before after) :
    system.StepUnder condition before after := by
  cases call with
  | call op next moved permitted answers =>
    exact .call op request next answer moved permitted answers

variable {start final : Config S World Op}

theorem System.StepUnder.keeps_world {property : World → Prop}
    (answered : ∀ {request world answer moved},
      system.toMachine.Answers request world answer moved → property world → property moved)
    (environmental : ∀ {world moved}, system.environment world moved → property world →
      property moved)
    (run : ReflTransGen (system.StepUnder condition) start final) (holds : property start.world) :
    property final.world := by
  induction run with
  | refl => exact holds
  | tail _ step ih =>
    cases step with
    | start op startable | stop thread permitted => exact ih
    | call op request next answer moved permitted answers => exact answered answers ih
    | environment moves => exact environmental moves ih

/-- The configuration is reached from `world` by steps that meet the condition. -/
def System.ReachableUnder (system : System S World Op)
    (condition : RunCondition S World Op) (world : World)
    (config : Config S World Op) : Prop :=
  ReflTransGen (system.StepUnder condition) ⟨world, []⟩ config

/-- What holds with nothing in flight, and what steps under the condition keep, holds in
every configuration that they reach. -/
theorem System.ReachableUnder.keeps {world : World} {config : Config S World Op}
    {property : Config S World Op → Prop} (reached : system.ReachableUnder condition world config)
    (initial : property ⟨world, []⟩)
    (preserved : ∀ before after, system.StepUnder condition before after →
      property before → property after) : property config := by
  induction reached with
  | refl => exact initial
  | tail _ step ih => exact preserved _ _ step ih

def callsMeet (allowed : S.Call → World → Prop) : RunCondition S World Op where
  mayCall request world _ := allowed request world
  mayStop _ := True

def RunCondition.and (first second : RunCondition S World Op) : RunCondition S World Op where
  mayCall request world others :=
    first.mayCall request world others ∧ second.mayCall request world others
  mayStop thread := first.mayStop thread ∧ second.mayStop thread

theorem runUnder_of_allowed {allowed : S.Call → World → Prop}
    (mayCall : ∀ request world others, allowed request world →
      condition.mayCall request world others)
    (mayStop : ∀ thread, condition.mayStop thread) (run : system.RunWhere allowed start final) :
    ReflTransGen (system.StepUnder condition) start final := by
  induction run with
  | refl => exact .refl
  | tail _ step ih =>
    apply ih.tail
    cases step with
    | start op startable => exact .start op startable
    | call op request next answer moved permitted answers =>
      exact .call op request next answer moved (mayCall _ _ _ permitted) answers
    | environment moves => exact .environment moves
    | stop thread => exact .stop thread (mayStop thread)

theorem runUnder_anyStep (run : system.RunWhere anyCall start final) :
    ReflTransGen (system.StepUnder anyStep) start final :=
  runUnder_of_allowed (fun _ _ _ _ => trivial) (fun _ => trivial) run

theorem reachableUnder_anyStep {world : World} {config : Config S World Op}
    (reached : system.Reachable world config) : system.ReachableUnder anyStep world config :=
  runUnder_anyStep reached

theorem runUnder_stopAll (system : System S World Op) (world : World)
    (threads : List (Op × Prog S Unit)) :
    ReflTransGen (system.StepUnder anyStep) ⟨world, threads⟩ ⟨world, []⟩ := by
  induction threads with
  | nil => exact .refl
  | cons thread threads ih =>
    have dropped : system.StepUnder anyStep ⟨world, [] ++ thread :: threads⟩
        ⟨world, [] ++ threads⟩ := .stop thread trivial
    exact .head dropped ih

end DubEcosystem.Interleaving
