import DubEcosystem.InterleavingWatched

/-!
# What operations rely on while others act

Each operation in flight is in a phase of its own, and what the phase says of the world is
relied on.  A call is to establish what its operation says next, and to leave standing what
each bystander says; nothing else is to be known of the operations in flight together.
-/

namespace DubEcosystem.Interleaving

open Relation List

variable {S : Signature} {World Op α Phase : Type}

def Protocol.Stands (protocol : Protocol S Phase) (owns : Op → Phase → Prop)
    (holds : World → Phase → Prop) (world : World) (thread : Op × Prog S Unit) : Prop :=
  ∃ phase, owns thread.1 phase ∧ protocol.Follows phase thread.2 ∧ holds world phase

/-- A call that an operation of the system issues under the condition, with the phases that
it leads between. -/
structure Protocol.Acts (protocol : Protocol S Phase) (system : System S World Op)
    (condition : RunCondition S World Op) (owns : Op → Phase → Prop)
    (holds : World → Phase → Prop) (others : List (Op × Prog S Unit)) (op : Op)
    (request : S.Call) (answer : S.Answer request) (world moved : World)
    (phase after : Phase) : Prop where
  mayCall : condition.mayCall request world others
  answers : system.toMachine.Answers request world answer moved
  leads : protocol.leads phase request answer after
  owned : owns op phase
  isHeld : holds world phase
  bystanders : ∀ thread ∈ others, protocol.Stands owns holds world thread

/-- The programs follow the protocol in phases of their own, and each call keeps what is
relied on. -/
structure Protocol.Guards (protocol : Protocol S Phase) (system : System S World Op)
    (condition : RunCondition S World Op) (first : Op → Phase) (owns : Op → Phase → Prop)
    (inv : World → Prop) (holds : World → Phase → Prop) : Prop where
  program : ∀ op running, system.startable running op →
    protocol.Follows (first op) (system.program op)
  possible : ∀ {request world answer moved},
    system.toMachine.Answers request world answer moved → protocol.possible request answer
  ownsFirst : ∀ op, owns op (first op)
  ownsLed : ∀ {op phase request answer after}, protocol.leads phase request answer after →
    owns op phase → owns op after
  starts : ∀ op world, inv world → holds world (first op)
  own : ∀ {others op request answer world moved phase after},
    protocol.Acts system condition owns holds others op request answer world moved phase after →
      inv world → inv moved ∧ holds moved after
  other : ∀ {others op request answer world moved phase after thread bystander},
    protocol.Acts system condition owns holds others op request answer world moved phase after →
      inv world → thread ∈ others → owns thread.1 bystander →
        protocol.Follows bystander thread.2 → holds world bystander → holds moved bystander
  environment : ∀ {world moved}, system.environment world moved → inv world →
    inv moved ∧ ∀ phase, holds world phase → holds moved phase

variable {protocol : Protocol S Phase} {system : System S World Op}
  {condition : RunCondition S World Op} {first : Op → Phase} {owns : Op → Phase → Prop}
  {inv : World → Prop} {holds : World → Phase → Prop}

/-- The invariant holds, and so does the phase of every operation in flight. -/
def Protocol.AllStand (protocol : Protocol S Phase) (owns : Op → Phase → Prop)
    (inv : World → Prop) (holds : World → Phase → Prop) (config : Config S World Op) : Prop :=
  inv config.world ∧ ∀ thread ∈ config.threads, protocol.Stands owns holds config.world thread

section

variable (guards : protocol.Guards system condition first owns inv holds)
include guards

theorem Protocol.Guards.bystanders {others : List (Op × Prog S Unit)} {op : Op} {request : S.Call}
    {answer : S.Answer request} {world moved : World} {phase after : Phase}
    (acts : protocol.Acts system condition owns holds others op request answer world moved
      phase after) (invariant : inv world) :
    ∀ thread ∈ others, protocol.Stands owns holds moved thread := by
  intro thread member
  obtain ⟨bystander, owned, follows, stands⟩ := acts.bystanders thread member
  exact ⟨bystander, owned, follows, guards.other acts invariant member owned follows stands⟩

theorem Protocol.Guards.step {before after : Config S World Op}
    (step : system.StepUnder condition before after)
    (stand : protocol.AllStand owns inv holds before) : protocol.AllStand owns inv holds after := by
  obtain ⟨invariant, stand⟩ := stand
  cases step with
  | start op startable =>
    refine ⟨invariant, fun thread member => ?_⟩
    rcases mem_cons.mp member with rfl | member
    · exact ⟨first op, guards.ownsFirst op, guards.program op _ startable,
        guards.starts op _ invariant⟩
    · exact stand thread member
  | @call world front back op request next answer moved mayCall answers =>
    have isOther : ∀ thread ∈ front ++ back, thread ∈ front ++ (op, .call request next) :: back :=
      fun thread member => (mem_append.mp member).elim (mem_append_left _) fun isBack =>
          mem_append_right front (.tail _ isBack)
    obtain ⟨phase, owned, follows, isHeld⟩ :=
      stand (op, .call request next) (mem_append_right front (.head _))
    obtain ⟨later, leads, rest⟩ := follows answer (guards.possible answers)
    have acts : protocol.Acts system condition owns holds (front ++ back) op request answer
        world moved phase later :=
      ⟨mayCall, answers, leads, owned, isHeld, fun thread member =>
        stand thread (isOther thread member)⟩
    obtain ⟨isKept, isAfter⟩ := guards.own acts invariant
    have others := guards.bystanders acts invariant
    refine ⟨isKept, fun thread member => ?_⟩
    rcases mem_append.mp member with isFront | isBack
    · exact others thread (mem_append_left back isFront)
    · rcases mem_cons.mp isBack with rfl | isBack
      · exact ⟨later, guards.ownsLed leads owned, rest, isAfter⟩
      · exact others thread (mem_append_right front isBack)
  | environment moves =>
    obtain ⟨isKept, stays⟩ := guards.environment moves invariant
    refine ⟨isKept, fun thread member => ?_⟩
    obtain ⟨phase, owned, follows, isHeld⟩ := stand thread member
    exact ⟨phase, owned, follows, stays phase isHeld⟩
  | @stop world front back thread mayStop =>
    refine ⟨invariant, fun other member => ?_⟩
    rcases mem_append.mp member with isFront | isBack
    · exact stand other (mem_append_left _ isFront)
    · exact stand other (mem_append_right front (.tail _ isBack))

theorem Protocol.Guards.run {start final : Config S World Op}
    (run : ReflTransGen (system.StepUnder condition) start final)
    (stand : protocol.AllStand owns inv holds start) : protocol.AllStand owns inv holds final := by
  induction run with
  | refl => exact stand
  | tail _ step ih => exact guards.step step ih

/-- In every configuration that is reached the invariant holds, and so does every phase. -/
theorem Protocol.Guards.reached {world : World} {config : Config S World Op} (initial : inv world)
    (reached : system.ReachableUnder condition world config) :
    protocol.AllStand owns inv holds config :=
  guards.run reached ⟨initial, forall_mem_nil _⟩

end

def Protocol.Attends (protocol : Protocol S Phase) (owns : Op → Phase → Prop)
    (inv : World → Prop) (holds : World → Phase → Prop) (op : Op) (post : α → Phase → Prop)
    (watched : Watched S World Op α) : Prop :=
  inv watched.world ∧ (∀ thread ∈ watched.others, protocol.Stands owns holds watched.world thread) ∧
    ∃ phase, owns op phase ∧ protocol.FollowsTo phase watched.own post ∧ holds watched.world phase

/-- What is known besides of the operation that is waited for, and of no other: its own calls
lead it on, and nothing else disturbs it. -/
structure Protocol.Privy (protocol : Protocol S Phase) (system : System S World Op)
    (condition : RunCondition S World Op) (owns : Op → Phase → Prop) (inv : World → Prop)
    (holds : World → Phase → Prop) (op : Op) (mine : World → Phase → Prop) : Prop where
  own : ∀ {others request answer world moved phase after},
    protocol.Acts system condition owns holds others op request answer world moved phase after →
      inv world → mine world phase → mine moved after
  other : ∀ {others acting request answer world moved phase after own itsPhase},
    protocol.Acts system condition owns holds others acting request answer world moved phase
      after → inv world → (op, own) ∈ others → owns op itsPhase → protocol.Follows itsPhase own →
        mine world itsPhase → mine moved itsPhase
  environment : ∀ {world moved phase}, system.environment world moved → inv world →
    mine world phase → mine moved phase

def Protocol.AttendsWith (protocol : Protocol S Phase) (owns : Op → Phase → Prop)
    (inv : World → Prop) (holds mine : World → Phase → Prop) (op : Op)
    (post : α → Phase → Prop) (watched : Watched S World Op α) : Prop :=
  inv watched.world ∧ (∀ thread ∈ watched.others, protocol.Stands owns holds watched.world thread) ∧
    ∃ phase, owns op phase ∧ protocol.FollowsTo phase watched.own post ∧
      holds watched.world phase ∧ mine watched.world phase

variable {post : α → Phase → Prop} {mine : World → Phase → Prop}

section

variable (guards : protocol.Guards system condition first owns inv holds)
  (isFinal : ∀ value after, post value after → protocol.final after)
include guards isFinal

theorem Protocol.Guards.watchStepWith {op : Op}
    (privy : protocol.Privy system condition owns inv holds op mine)
    {before after : Watched S World Op α} (step : system.WatchStep condition op before after)
    (attends : protocol.AttendsWith owns inv holds mine op post before) :
    protocol.AttendsWith owns inv holds mine op post after := by
  obtain ⟨invariant, stand, phase, owned, follows, isHeld, isMine⟩ := attends
  cases step with
  | own mayCall answers =>
    obtain ⟨later, leads, rest⟩ := follows _ (guards.possible answers)
    have acts := Protocol.Acts.mk mayCall answers leads owned isHeld stand
    obtain ⟨isKept, isAfter⟩ := guards.own acts invariant
    exact ⟨isKept, guards.bystanders acts invariant, later, guards.ownsLed leads owned, rest,
      isAfter, privy.own acts invariant isMine⟩
  | start started startable =>
    refine ⟨invariant, fun thread member => ?_, phase, owned, follows, isHeld, isMine⟩
    rcases mem_cons.mp member with rfl | member
    · exact ⟨first started, guards.ownsFirst started, guards.program started _ startable,
        guards.starts started _ invariant⟩
    · exact stand thread member
  | @other world front back own request answer moved other next mayCall answers =>
    have isOther : ∀ thread ∈ front ++ back, thread ∈ front ++ (other, .call request next) :: back :=
      fun thread member => (mem_append.mp member).elim (mem_append_left _) fun isBack =>
          mem_append_right front (.tail _ isBack)
    obtain ⟨itsPhase, itsOwned, itsFollows, itsHeld⟩ :=
      stand (other, .call request next) (mem_append_right front (.head _))
    obtain ⟨later, leads, rest⟩ := itsFollows answer (guards.possible answers)
    have acts : protocol.Acts system condition owns holds
        ((op, own.forget) :: (front ++ back)) other request answer world moved itsPhase later := by
      refine ⟨mayCall, answers, leads, itsOwned, itsHeld, fun thread member => ?_⟩
      rcases mem_cons.mp member with rfl | member
      · exact ⟨phase, owned, follows.forget isFinal, isHeld⟩
      · exact stand thread (isOther thread member)
    obtain ⟨isKept, isAfter⟩ := guards.own acts invariant
    have others := guards.bystanders acts invariant
    refine ⟨isKept, fun thread member => ?_, phase, owned, follows,
      guards.other acts invariant (.head _) owned (follows.forget isFinal) isHeld,
      privy.other acts invariant (.head _) owned (follows.forget isFinal) isMine⟩
    rcases mem_append.mp member with isFront | isBack
    · exact others thread (.tail _ (mem_append_left back isFront))
    · rcases mem_cons.mp isBack with rfl | isBack
      · exact ⟨later, guards.ownsLed leads itsOwned, rest, isAfter⟩
      · exact others thread (.tail _ (mem_append_right front isBack))
  | environment moves =>
    obtain ⟨isKept, stays⟩ := guards.environment moves invariant
    refine ⟨isKept, fun thread member => ?_, phase, owned, follows, stays phase isHeld,
      privy.environment moves invariant isMine⟩
    obtain ⟨itsPhase, itsOwned, itsFollows, itsHeld⟩ := stand thread member
    exact ⟨itsPhase, itsOwned, itsFollows, stays itsPhase itsHeld⟩
  | @stop world front back own thread mayStop =>
    refine ⟨invariant, fun other member => ?_, phase, owned, follows, isHeld, isMine⟩
    rcases mem_append.mp member with isFront | isBack
    · exact stand other (mem_append_left _ isFront)
    · exact stand other (mem_append_right front (.tail _ isBack))

/-- Where the operation that is waited for begins with what is known besides, it has it up to
its end. -/
theorem Protocol.Guards.watchedWith {op : Op}
    (privy : protocol.Privy system condition owns inv holds op mine) {config : Config S World Op}
    {program : Prog S α} {watched : Watched S World Op α}
    (stand : protocol.AllStand owns inv holds config)
    (follows : protocol.FollowsTo (first op) program post) (begins : mine config.world (first op))
    (run : ReflTransGen (system.WatchStep condition op) ⟨config.world, config.threads, program⟩
      watched) : protocol.AttendsWith owns inv holds mine op post watched := by
  obtain ⟨invariant, stand⟩ := stand
  induction run with
  | refl =>
    exact ⟨invariant, stand, first op, guards.ownsFirst op, follows,
      guards.starts op _ invariant, begins⟩
  | tail _ step ih => exact guards.watchStepWith isFinal privy step ih

/-- Up to its end an operation that is waited for is in a phase of its own, which holds. -/
theorem Protocol.Guards.watched {op : Op} {world : World} {program : Prog S α}
    {watched : Watched S World Op α} (initial : inv world)
    (follows : protocol.FollowsTo (first op) program post)
    (reached : system.WatchedUnder condition world op program watched) :
    protocol.Attends owns inv holds op post watched := by
  obtain ⟨config, reachable, -, run⟩ := reached
  have nothing : protocol.Privy system condition owns inv holds op fun _ _ => True :=
    ⟨fun _ _ _ => trivial, fun _ _ _ _ _ _ => trivial, fun _ _ _ => trivial⟩
  obtain ⟨invariant, stand, phase, owned, isAt, isHeld, -⟩ :=
    guards.watchedWith isFinal nothing (guards.reached initial reachable) follows trivial run
  exact ⟨invariant, stand, phase, owned, isAt, isHeld⟩

end

end DubEcosystem.Interleaving
