import DubEcosystem.InterleavingProtocols

/-!
# Two programs at once

Two programs make their calls in any order, and end with values.  Where both follow a
protocol, an invariant is about the world and the two phases.
-/

namespace DubEcosystem.Interleaving

open Relation

variable {S : Signature} {World α Phase : Type}

/-- The world, and what two programs have left to do. -/
structure Pair (S : Signature) (World α : Type) where
  world : World
  first : Prog S α
  second : Prog S α

inductive Pair.Step (machine : Machine S World) (allowed : S.Call → World → Prop)
    (environment : World → World → Prop) : Pair S World α → Pair S World α → Prop
  | first {world moved : World} {request : S.Call} {next : S.Answer request → Prog S α}
      {answer : S.Answer request} {second : Prog S α} (permitted : allowed request world)
      (answers : machine.Answers request world answer moved) :
      Step machine allowed environment ⟨world, .call request next, second⟩
        ⟨moved, next answer, second⟩
  | second {world moved : World} {request : S.Call} {next : S.Answer request → Prog S α}
      {answer : S.Answer request} {first : Prog S α} (permitted : allowed request world)
      (answers : machine.Answers request world answer moved) :
      Step machine allowed environment ⟨world, first, .call request next⟩
        ⟨moved, first, next answer⟩
  | environment {world moved : World} {first second : Prog S α} (moves : environment world moved) :
      Step machine allowed environment ⟨world, first, second⟩ ⟨moved, first, second⟩

variable {machine : Machine S World} {allowed : S.Call → World → Prop}
  {environment : World → World → Prop} {protocol : Protocol S Phase}
  {post : α → Phase → Prop} {inv : World → Phase → Phase → Prop}

/-- Both programs follow the protocol, from phases that the invariant holds with. -/
def Pair.Holds (protocol : Protocol S Phase) (post : α → Phase → Prop)
    (inv : World → Phase → Phase → Prop) (pair : Pair S World α) : Prop :=
  ∃ phase other, protocol.FollowsTo phase pair.first post ∧
    protocol.FollowsTo other pair.second post ∧ inv pair.world phase other

theorem Pair.Holds.run {start final : Pair S World α} (holds : start.Holds protocol post inv)
    (symmetric : ∀ {world phase other}, inv world phase other → inv world other phase)
    (possible : ∀ {request before answer after},
      machine.Answers request before answer after → protocol.possible request answer)
    (calls : ∀ {request world answer moved phase after other}, allowed request world →
      machine.Answers request world answer moved →
        protocol.leads phase request answer after → inv world phase other → inv moved after other)
    (drifts : ∀ {world moved phase other}, environment world moved →
      inv world phase other → inv moved phase other)
    (run : ReflTransGen (Step machine allowed environment) start final) :
    final.Holds protocol post inv := by
  induction run with
  | refl => exact holds
  | tail _ step ih =>
    obtain ⟨phase, other, follows, otherFollows, invariant⟩ := ih
    cases step with
    | first permitted answers =>
      obtain ⟨after, leads, rest⟩ := follows _ (possible answers)
      exact ⟨after, other, rest, otherFollows, calls permitted answers leads invariant⟩
    | second permitted answers =>
      obtain ⟨after, leads, rest⟩ := otherFollows _ (possible answers)
      exact ⟨phase, after, follows, rest,
        symmetric (calls permitted answers leads (symmetric invariant))⟩
    | environment moves => exact ⟨phase, other, follows, otherFollows, drifts moves invariant⟩

/-- Play a schedule: whose turn it is, and how the outside answers. -/
def Pair.play (machine : Machine S World) :
    List (Bool × ((request : S.Call) → S.Answer request)) → Pair S World α → Pair S World α
  | [], pair => pair
  | (true, outside) :: rest, ⟨world, .call request next, second⟩ =>
    let outcome := (machine.exec request world).getD
      (outside request, machine.observe request (outside request) world)
    play machine rest ⟨outcome.2, next outcome.1, second⟩
  | (false, outside) :: rest, ⟨world, first, .call request next⟩ =>
    let outcome := (machine.exec request world).getD
      (outside request, machine.observe request (outside request) world)
    play machine rest ⟨outcome.2, first, next outcome.1⟩
  | _, pair => pair

theorem Pair.run_play (schedule : List (Bool × ((request : S.Call) → S.Answer request)))
    (pair : Pair S World α) :
    ReflTransGen (Step machine anyCall environment) pair (pair.play machine schedule) := by
  induction schedule generalizing pair with
  | nil => exact .refl
  | cons turn rest ih =>
    obtain ⟨isFirst, outside⟩ := turn
    obtain ⟨world, first, second⟩ := pair
    cases isFirst with
    | true =>
      cases first with
      | done value => exact .refl
      | call request next => exact .head (.first trivial (answers_getD ..)) (ih _)
    | false =>
      cases second with
      | done value => exact .refl
      | call request next => exact .head (.second trivial (answers_getD ..)) (ih _)

end DubEcosystem.Interleaving
