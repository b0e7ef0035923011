import Mathlib.Data.List.Perm.Basic
import DubEcosystem.InterleavingConditions
import DubEcosystem.InterleavingHistories
import DubEcosystem.PortPrograms

/-!
# Protocols that programs follow

A protocol says which calls an operation may issue in each phase and into which phases an
answer can lead it.  Once every program is known to follow the protocol, an invariant is
about the world and the phases of the operations in flight, and the programs are not
looked at again.
-/

namespace DubEcosystem.Interleaving

open Relation List

variable {S : Signature} {World Op α β Phase : Type}

/-- The phases of an operation, and how calls lead from one to another. -/
structure Protocol (S : Signature) (Phase : Type) where
  possible : (request : S.Call) → S.Answer request → Prop
  leads : Phase → (request : S.Call) → S.Answer request → Phase → Prop
  final : Phase → Prop

namespace Protocol

variable (protocol : Protocol S Phase)

/-- Started in this phase the program keeps to the protocol; `post` relates what it ends
with to the phase it ends in. -/
def FollowsTo : Phase → Prog S α → (α → Phase → Prop) → Prop
  | phase, .done value, post => post value phase
  | phase, .call request next, post =>
    ∀ answer, protocol.possible request answer →
      ∃ after, protocol.leads phase request answer after ∧ FollowsTo after (next answer) post

def Follows (phase : Phase) (program : Prog S α) : Prop :=
  protocol.FollowsTo phase program fun _ => protocol.final

variable {protocol}

theorem FollowsTo.mono {phase : Phase} {program : Prog S α}
    {strong weak : α → Phase → Prop} (follows : protocol.FollowsTo phase program strong)
    (weaken : ∀ value after, strong value after → weak value after) :
    protocol.FollowsTo phase program weak := by
  induction program generalizing phase with
  | done value => exact weaken value phase follows
  | call request next ih =>
    intro answer isPossible
    obtain ⟨after, leads, rest⟩ := follows answer isPossible
    exact ⟨after, leads, ih answer rest⟩

theorem followsTo_bind {phase : Phase} {program : Prog S α}
    {continuation : α → Prog S β} {post : β → Phase → Prop}
    (follows : protocol.FollowsTo phase program fun value after =>
      protocol.FollowsTo after (continuation value) post) :
    protocol.FollowsTo phase (program >>= continuation) post := by
  induction program generalizing phase with
  | done value => exact follows
  | call request next ih =>
    intro answer isPossible
    obtain ⟨after, leads, rest⟩ := follows answer isPossible
    exact ⟨after, leads, ih answer rest⟩

end Protocol

/-- A call can be reached that is a target, without one of the calls that stop. -/
def Prog.MayReach (stops target : S.Call → Prop) : Prog S α → Prop
  | .done _ => False
  | .call request next => target request ∨
      (¬stops request ∧ ∃ answer, (next answer).MayReach stops target)

variable {protocol : Protocol S Phase} {stops target : S.Call → Prop} {phase : Phase}

/-- An obligation that lasts until a target call, as long as these answers are given, may be
met by every program that follows the protocol under it. -/
theorem Protocol.Follows.mayReach_of_answer {obliged : Phase → Prop}
    {program : Prog S α} (follows : protocol.Follows phase program)
    (holds : obliged phase) (notFinal : ∀ phase, obliged phase → ¬protocol.final phase)
    (answer : (request : S.Call) → S.Answer request)
    (isPossible : ∀ request, protocol.possible request (answer request))
    (lasts : ∀ phase request after, obliged phase →
      protocol.leads phase request (answer request) after →
        target request ∨ (¬stops request ∧ obliged after)) :
    program.MayReach stops target := by
  induction program generalizing phase with
  | done value => exact notFinal phase holds follows
  | call request next ih =>
    obtain ⟨after, leads, rest⟩ := follows (answer request) (isPossible request)
    rcases lasts phase request after holds leads with isTarget | ⟨goesOn, still⟩
    · exact .inl isTarget
    · exact .inr ⟨goesOn, answer request, ih (answer request) rest still⟩

theorem Protocol.Follows.mayReach {obliged : Phase → Prop}
    {program : Prog S α} (follows : protocol.Follows phase program)
    (holds : obliged phase) (notFinal : ∀ phase, obliged phase → ¬protocol.final phase)
    (answered : ∀ request, ∃ answer, protocol.possible request answer)
    (lasts : ∀ phase request answer after, obliged phase →
      protocol.possible request answer → protocol.leads phase request answer after →
        target request ∨ (¬stops request ∧ obliged after)) :
    program.MayReach stops target := by
  choose answer isPossible using answered
  apply follows.mayReach_of_answer holds notFinal answer isPossible
  exact fun phase request after obliged leads =>
    lasts phase request (answer request) after obliged (isPossible request) leads

variable {system : System S World Op} {condition : RunCondition S World Op}

/-- The phases that the operations in flight are in. -/
def Protocol.Tracks (protocol : Protocol S Phase) (threads : List (Op × Prog S Unit))
    (phases : List Phase) : Prop :=
  List.Forall₂ (fun thread phase => protocol.Follows phase thread.2) threads phases

/-- Every operation that may start follows the protocol from its first phase, and every
answer of the machine is possible. -/
structure Protocol.Governs (protocol : Protocol S Phase) (system : System S World Op)
    (first : Op → Phase) : Prop where
  program : ∀ op running, system.startable running op →
    protocol.Follows (first op) (system.program op)
  possible : ∀ {request before answer after},
    system.toMachine.Answers request before answer after → protocol.possible request answer

/-- What the steps under a condition preserve of the world and the phases. -/
structure Protocol.Preserves (protocol : Protocol S Phase) (system : System S World Op)
    (condition : RunCondition S World Op) (first : Op → Phase)
    (inv : World → List Phase → Prop) : Prop where
  perm : ∀ {world phases reordered}, phases.Perm reordered → inv world phases →
    inv world reordered
  start : ∀ {world phases} op running, system.startable running op → inv world phases →
    inv world (first op :: phases)
  call : ∀ {world moved phase after phases request answer others},
    protocol.Tracks others phases → condition.mayCall request world others →
      system.toMachine.Answers request world answer moved →
        protocol.leads phase request answer after →
          inv world (phase :: phases) → inv moved (after :: phases)
  environment : ∀ {world moved phases}, system.environment world moved →
    inv world phases → inv moved phases
  stop : ∀ {world phase phases thread}, protocol.Follows phase thread.2 →
    condition.mayStop thread → inv world (phase :: phases) → inv world phases

/-- The operations in flight are in phases that the invariant holds with. -/
def Protocol.Holds (protocol : Protocol S Phase) (inv : World → List Phase → Prop)
    (config : Config S World Op) : Prop :=
  ∃ phases, protocol.Tracks config.threads phases ∧ inv config.world phases

variable {protocol : Protocol S Phase} {first : Op → Phase} {inv : World → List Phase → Prop}

variable {world : World} {before after : List (Op × Prog S Unit)} {thread : Op × Prog S Unit}

theorem Protocol.Holds.front (holds : protocol.Holds inv ⟨world, before ++ thread :: after⟩)
    (perm : ∀ {phases reordered : List Phase}, phases.Perm reordered → inv world phases →
      inv world reordered) :
    ∃ phase phases, protocol.Follows phase thread.2 ∧
      protocol.Tracks (before ++ after) phases ∧ inv world (phase :: phases) := by
  obtain ⟨phases, tracks, invariant⟩ := holds
  obtain ⟨reordered, tracked, phasesPerm⟩ :=
    List.perm_comp_forall₂ (perm_middle (a := thread)).symm tracks
  cases tracked with
  | cons follows rest => exact ⟨_, _, follows, rest, perm phasesPerm.symm invariant⟩

variable {phases : List Phase}

theorem Protocol.Tracks.insert (tracks : protocol.Tracks (before ++ after) phases)
    (thread : Op × Prog S Unit) (follows : protocol.Follows phase thread.2) :
    ∃ reordered, protocol.Tracks (before ++ thread :: after) reordered ∧
      (phase :: phases).Perm reordered := by
  have extended : protocol.Tracks (thread :: (before ++ after)) (phase :: phases) :=
    .cons follows tracks
  obtain ⟨reordered, tracked, phasesPerm⟩ :=
    List.perm_comp_forall₂ (perm_middle (a := thread)) extended
  exact ⟨reordered, tracked, phasesPerm.symm⟩

variable {threads : List (Op × Prog S Unit)}

theorem Protocol.Tracks.exists_of_mem (tracks : protocol.Tracks threads phases)
    (member : phase ∈ phases) : ∃ thread ∈ threads, protocol.Follows phase thread.2 := by
  obtain ⟨i, bound, rfl⟩ := getElem_of_mem member
  obtain ⟨sameLength, follows⟩ := forall₂_iff_get.mp tracks
  exact ⟨_, getElem_mem (sameLength ▸ bound), follows i (sameLength ▸ bound) bound⟩

theorem Protocol.Tracks.exists_of_thread (tracks : protocol.Tracks threads phases) (member : thread ∈ threads) :
    ∃ phase ∈ phases, protocol.Follows phase thread.2 := by
  obtain ⟨i, bound, rfl⟩ := getElem_of_mem member
  obtain ⟨sameLength, follows⟩ := forall₂_iff_get.mp tracks
  exact ⟨_, getElem_mem (sameLength ▸ bound), follows i bound (sameLength ▸ bound)⟩

section

variable (preserves : protocol.Preserves system condition first inv)
  (governs : protocol.Governs system first)
include preserves governs

theorem Protocol.Preserves.step {before after : Config S World Op}
    (step : system.StepUnder condition before after) (holds : protocol.Holds inv before) :
    protocol.Holds inv after := by
  cases step with
  | start op startable =>
    obtain ⟨phases, tracks, invariant⟩ := holds
    exact ⟨first op :: phases, .cons (governs.program op _ startable) tracks,
      preserves.start op _ startable invariant⟩
  | call op request next answer moved permitted answers =>
    obtain ⟨phase, phases, follows, tracks, invariant⟩ := holds.front preserves.perm
    obtain ⟨later, leads, rest⟩ := follows answer (governs.possible answers)
    obtain ⟨reordered, tracked, phasesPerm⟩ := tracks.insert (op, next answer) rest
    exact ⟨reordered, tracked, preserves.perm phasesPerm
      (preserves.call tracks permitted answers leads invariant)⟩
  | environment moves =>
    obtain ⟨phases, tracks, invariant⟩ := holds
    exact ⟨phases, tracks, preserves.environment moves invariant⟩
  | stop thread permitted =>
    obtain ⟨phase, phases, follows, tracks, invariant⟩ := holds.front preserves.perm
    exact ⟨phases, tracks, preserves.stop follows permitted invariant⟩

theorem Protocol.Preserves.run {start final : Config S World Op}
    (run : ReflTransGen (system.StepUnder condition) start final)
    (holds : protocol.Holds inv start) : protocol.Holds inv final := by
  induction run with
  | refl => exact holds
  | tail _ step ih => exact preserves.step governs step ih

/-- What holds with nothing in flight holds in every configuration that is reached. -/
theorem Protocol.Preserves.reached {config : Config S World Op}
    (reached : system.ReachableUnder condition world config) (initial : inv world []) :
    protocol.Holds inv config :=
  preserves.run governs reached ⟨[], .nil, initial⟩

end

variable {allowed : S.Call → World → Prop}

/-- The calls of an operation, the latest first, lead from this phase to that one. -/
inductive Protocol.Walks (protocol : Protocol S Phase) (machine : Machine S World)
    (first : Phase) : List (Event S World) → Phase → Prop
  | refl : Walks protocol machine first [] first
  | step {past phase after} (event : Event S World)
      (walks : Walks protocol machine first past phase)
      (leads : protocol.leads phase event.request event.answer after)
      (answers : machine.Answers event.request event.before event.answer event.after) :
      Walks protocol machine first (event :: past) after

theorem Protocol.walks_of_reachable {first : Op → Phase}
    (programs : ∀ op, protocol.Follows (first op) (system.program op))
    (possible : ∀ {request before answer after},
      system.toMachine.Answers request before answer after → protocol.possible request answer) {history : History S World Op}
    (reached : system.ReachableHistory allowed world history) :
    ∀ thread ∈ history.threads, ∃ phase,
      protocol.Walks system.toMachine (first thread.op) thread.past phase ∧
        protocol.Follows phase thread.rest := by
  apply @threads_of_reachable S World Op system allowed fun thread => ∃ phase,
    protocol.Walks system.toMachine (first thread.op) thread.past phase ∧
      protocol.Follows phase thread.rest
  · exact fun op => ⟨first op, .refl, programs op⟩
  · intro op past request next answer before after answers ⟨phase, walks, follows⟩
    obtain ⟨later, leads, rest⟩ := follows answer (possible answers)
    exact ⟨later, .step ⟨request, answer, before, after⟩ walks leads answers, rest⟩
  · exact reached

end DubEcosystem.Interleaving

namespace DubEcosystem.PortPrograms

open Interleaving

variable {P : Ports} {Err α β Phase : Type} {protocol : Protocol (P.signature Err) Phase}

/-- Started in this phase the action keeps to the protocol; `post` relates its outcome to
the phase it ends in.  Its rules below are all that is to be known of it. -/
@[irreducible]
def Follows (protocol : Protocol (P.signature Err) Phase) (phase : Phase)
    (action : Action P Err α) (post : Except Err α → Phase → Prop) : Prop :=
  protocol.FollowsTo phase action.run post

variable {phase : Phase} {post : Except Err α → Phase → Prop}

theorem follows_pure {value : α} (holds : post (.ok value) phase) :
    Follows protocol phase (pure value : Action P Err α) post := by
  unfold Follows
  exact holds

theorem follows_throw {thrown : Err} (holds : post (.error thrown) phase) :
    Follows protocol phase (throw thrown : Action P Err α) post := by
  unfold Follows
  exact holds

variable {action : Action P Err α}

theorem follows_bind {continuation : α → Action P Err β} {post : Except Err β → Phase → Prop}
    (follows : Follows protocol phase action fun
      | .ok value, after => Follows protocol after (continuation value) post
      | .error thrown, after => post (.error thrown) after) :
    Follows protocol phase (action >>= continuation) post := by
  have unfolded : (action >>= continuation).run =
      action.run >>= ExceptT.bindCont continuation := rfl
  unfold Follows at follows ⊢
  rw [unfolded]
  apply Protocol.followsTo_bind
  apply Protocol.FollowsTo.mono follows
  rintro (thrown | value) after holds
  · exact holds
  · exact holds

theorem follows_port {request : P.Call} {post : Except Err (P.Result request) → Phase → Prop}
    (leads : ∀ answer, protocol.possible request answer →
      ∃ after, protocol.leads phase request answer after ∧ post answer after) :
    Follows protocol phase (port request) post := by
  unfold Follows
  exact leads

theorem follows_port_bind {request : P.Call} {continuation : P.Result request → Action P Err α}
    (returns : ∀ result, protocol.possible request (.ok result) →
      ∃ after, protocol.leads phase request (.ok result) after ∧
        Follows protocol after (continuation result) post)
    (throws : ∀ thrown, protocol.possible request (.error thrown) →
      ∃ after, protocol.leads phase request (.error thrown) after ∧ post (.error thrown) after) :
    Follows protocol phase (port request >>= continuation) post := by
  apply follows_bind
  apply follows_port
  rintro (thrown | result) isPossible
  · exact throws thrown isPossible
  · exact returns result isPossible

theorem follows_attempt_bind {continuation : Except Err α → Action P Err β}
    {post : Except Err β → Phase → Prop}
    (follows : Follows protocol phase action fun outcome after =>
      Follows protocol after (continuation outcome) post) :
    Follows protocol phase (attempt action >>= continuation) post := by
  apply follows_bind
  unfold Follows at follows ⊢
  exact Protocol.followsTo_bind follows

theorem Follows.mono {strong weak : Except Err α → Phase → Prop}
    (follows : Follows protocol phase action strong)
    (weaken : ∀ outcome after, strong outcome after → weak outcome after) :
    Follows protocol phase action weak := by
  unfold Follows at follows ⊢
  exact Protocol.FollowsTo.mono follows weaken

variable {permitted : P.Call → Prop}

theorem follows_of_meets {ends : Except Err α → Prop}
    (meets : Meets (fun _ _ => True) permitted action ends)
    (stays : ∀ request answer, permitted request → protocol.leads phase request answer phase) :
    Follows protocol phase action fun outcome after => after = phase ∧ ends outcome := by
  suffices program : ∀ program : Prog (P.signature Err) (Except Err α),
      Prog.Meets (S := P.signature Err) (fun _ _ => True) permitted program ends →
        protocol.FollowsTo phase program fun outcome after => after = phase ∧ ends outcome by
    unfold Meets at meets
    unfold Follows
    exact program action.run meets
  intro program
  induction program with
  | done value => exact fun ends => ⟨rfl, ends⟩
  | call request next ih =>
    intro meets answer _
    exact ⟨phase, stays request answer meets.1, ih answer (meets.2 answer trivial)⟩

theorem follows_of_keeps
    (keeps : Keeps (fun _ _ => True) permitted action)
    (stays : ∀ request answer, permitted request → protocol.leads phase request answer phase) :
    Follows protocol phase action fun _ after => after = phase :=
  (follows_of_meets keeps stays).mono fun _ _ ends => ends.1

end DubEcosystem.PortPrograms
