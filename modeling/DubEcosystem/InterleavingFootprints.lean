import DubEcosystem.InterleavingConditions
import DubEcosystem.PortPrograms

/-!
# Systems whose programs issue only certain calls

Where every program issues only permitted calls, whatever it is answered, an invariant of the
world is about those calls alone, and a permitted call in flight is one of the operations'.
-/

namespace DubEcosystem.Interleaving

open Relation List

variable {S : Signature} {World Op : Type}

def System.Obeys (system : System S World Op) (permitted : S.Call → Prop) : Prop :=
  ∀ op running, system.startable running op → (system.program op).Issues permitted

def Config.Obeys (config : Config S World Op) (permitted : S.Call → Prop) : Prop :=
  ∀ thread ∈ config.threads, thread.2.Issues permitted

variable {system : System S World Op} {condition : RunCondition S World Op}
  {permitted : S.Call → Prop} {inv : World → Prop} {before after : Config S World Op}

theorem System.StepUnder.obeys (step : system.StepUnder condition before after)
    (obeys : system.Obeys permitted) (holds : before.Obeys permitted) :
    after.Obeys permitted := by
  cases step with
  | start op startable =>
    exact forall_mem_cons.mpr ⟨obeys op _ startable, holds⟩
  | @call world front back op request next answer moved mayCall answers =>
    have issues : (Prog.call request next).Issues permitted :=
      holds (op, .call request next) (mem_append_right front (.head _))
    intro thread member
    rcases mem_append.mp member with isFront | isBack
    · exact holds thread (mem_append_left _ isFront)
    · rcases mem_cons.mp isBack with rfl | isBack
      · exact issues.2 answer
      · exact holds thread (mem_append_right front (.tail _ isBack))
  | environment moves => exact holds
  | @stop world front back thread mayStop =>
    intro other member
    rcases mem_append.mp member with isFront | isBack
    · exact holds other (mem_append_left _ isFront)
    · exact holds other (mem_append_right front (.tail _ isBack))

/-- A permitted call under the condition keeps the invariant, and so does the environment. -/
structure System.Keeps (system : System S World Op) (condition : RunCondition S World Op)
    (permitted : S.Call → Prop) (inv : World → Prop) : Prop where
  call : ∀ {request world answer moved others}, permitted request →
    condition.mayCall request world others → system.toMachine.Answers request world answer moved →
      inv world → inv moved
  environment : ∀ {world moved}, system.environment world moved → inv world → inv moved

theorem System.Keeps.step (keeps : system.Keeps condition permitted inv)
    (obeyed : before.Obeys permitted) (step : system.StepUnder condition before after)
    (holds : inv before.world) : inv after.world := by
  cases step with
  | start op startable | stop thread mayStop => exact holds
  | call op request next answer moved mayCall answers =>
    have issues : (Prog.call request next).Issues permitted :=
      obeyed (op, .call request next) (mem_append_right _ (.head _))
    exact keeps.call issues.1 mayCall answers holds
  | environment moves => exact keeps.environment moves holds

/-- In every configuration that is reached the invariant holds, and the operations in flight
issue only permitted calls. -/
theorem System.Keeps.reached (keeps : system.Keeps condition permitted inv)
    (obeys : system.Obeys permitted) {world : World} (initial : inv world)
    {config : Config S World Op} (reached : system.ReachableUnder condition world config) :
    inv config.world ∧ config.Obeys permitted := by
  induction reached with
  | refl => exact ⟨initial, forall_mem_nil _⟩
  | tail _ step ih => exact ⟨keeps.step ih.2 step ih.1, step.obeys obeys ih.2⟩

end DubEcosystem.Interleaving

namespace DubEcosystem.PortPrograms

open Interleaving

variable {P : Ports} {Err α β : Type} {permitted : P.Call → Prop}

/-- What is known of an action is known of its program. -/
theorem Keeps.issues {action : Action P Err α} (keeps : Keeps (fun _ _ => True) permitted action)
    (continuation : Except Err α → Prog (P.signature Err) β)
    (rest : ∀ outcome, (continuation outcome).Issues permitted) :
    (action.run >>= continuation).Issues permitted := by
  unfold Keeps Meets at keeps
  generalize action.run = program at keeps
  induction program with
  | done outcome => exact rest outcome
  | call request next ih =>
    exact ⟨keeps.1, fun answer => ih answer (keeps.2 answer trivial)⟩

end DubEcosystem.PortPrograms
