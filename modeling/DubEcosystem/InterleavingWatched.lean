import DubEcosystem.InterleavingProtocols
import DubEcosystem.InterleavingSchedule

/-!
# An operation that is waited for

Beside the others runs one operation whose outcome somebody waits for, so that what holds
when it ends, or when it issues a call, can be stated of its outcome.  The others take it for
one of them.
-/

namespace DubEcosystem.Interleaving

open Relation Option

variable {S : Signature} {World Op α β Phase : Type}

/-- The program as the other operations know it, without what it ends with. -/
def Prog.forget (program : Prog S α) : Prog S Unit :=
  program >>= fun _ => .done ()

/-- An operation that is waited for, and the others in flight. -/
structure Watched (S : Signature) (World Op α : Type) where
  world : World
  others : List (Op × Prog S Unit)
  own : Prog S α

/-- A step of the operation `op` that is waited for, or beside it. -/
inductive System.WatchStep (system : System S World Op)
    (condition : RunCondition S World Op) (op : Op) :
    Watched S World Op α → Watched S World Op α → Prop
  | own {world others request answer moved} {next : S.Answer request → Prog S α}
      (permitted : condition.mayCall request world others)
      (answers : system.toMachine.Answers request world answer moved) :
      WatchStep system condition op ⟨world, others, .call request next⟩ ⟨moved, others, next answer⟩
  | start {world others own} (started : Op)
      (startable : system.startable (op :: others.map Prod.fst) started) :
      WatchStep system condition op ⟨world, others, own⟩
        ⟨world, (started, system.program started) :: others, own⟩
  | other {world before after own request answer moved} (other : Op)
      {next : S.Answer request → Prog S Unit}
      (permitted : condition.mayCall request world ((op, own.forget) :: (before ++ after)))
      (answers : system.toMachine.Answers request world answer moved) :
      WatchStep system condition op ⟨world, before ++ (other, .call request next) :: after, own⟩
        ⟨moved, before ++ (other, next answer) :: after, own⟩
  | environment {world moved others own} (moves : system.environment world moved) :
      WatchStep system condition op ⟨world, others, own⟩ ⟨moved, others, own⟩
  | stop {world before after own} (thread : Op × Prog S Unit)
      (permitted : condition.mayStop thread) :
      WatchStep system condition op ⟨world, before ++ thread :: after, own⟩
        ⟨world, before ++ after, own⟩

/-- The operation was started in a configuration that is reached, and has come this far. -/
def System.WatchedUnder (system : System S World Op) (condition : RunCondition S World Op)
    (world : World) (op : Op) (program : Prog S α) (watched : Watched S World Op α) : Prop :=
  ∃ config, system.ReachableUnder condition world config ∧
    system.startable (config.threads.map Prod.fst) op ∧
      ReflTransGen (system.WatchStep condition op) ⟨config.world, config.threads, program⟩ watched

variable {protocol : Protocol S Phase}

theorem Protocol.FollowsTo.forget {phase : Phase} {program : Prog S α}
    {post : α → Phase → Prop} (follows : protocol.FollowsTo phase program post)
    (isFinal : ∀ value after, post value after → protocol.final after) :
    protocol.Follows phase program.forget := by
  apply Protocol.followsTo_bind
  exact follows.mono isFinal

variable {system : System S World Op} {condition : RunCondition S World Op} {first : Op → Phase}
  {inv : World → List Phase → Prop} {post : α → Phase → Prop} {lasting : Phase → Prop}

/-- The operation that is waited for is in a lasting phase from which it ends as it should. -/
def Protocol.Awaits (protocol : Protocol S Phase) (inv : World → List Phase → Prop)
    (post : α → Phase → Prop) (lasting : Phase → Prop) (watched : Watched S World Op α) : Prop :=
  ∃ phase phases, protocol.FollowsTo phase watched.own post ∧ lasting phase ∧
    protocol.Tracks watched.others phases ∧ inv watched.world (phase :: phases)

theorem Protocol.Preserves.watchStep (preserves : protocol.Preserves system condition first inv)
    (governs : protocol.Governs system first)
    (isFinal : ∀ value after, post value after → protocol.final after)
    (lasts : ∀ phase request answer after, protocol.leads phase request answer after →
      lasting phase → lasting after) {op : Op} {before after : Watched S World Op α}
    (step : system.WatchStep condition op before after)
    (awaits : protocol.Awaits inv post lasting before) :
    protocol.Awaits inv post lasting after := by
  obtain ⟨phase, phases, follows, isLasting, tracks, invariant⟩ := awaits
  cases step with
  | own permitted answers =>
    obtain ⟨later, leads, rest⟩ := follows _ (governs.possible answers)
    exact ⟨later, phases, rest, lasts _ _ _ _ leads isLasting, tracks,
      preserves.call tracks permitted answers leads invariant⟩
  | start started startable =>
    refine ⟨phase, first started :: phases, follows, isLasting,
      .cons (governs.program started _ startable) tracks, ?_⟩
    exact preserves.perm (List.Perm.swap _ _ _) (preserves.start started _ startable invariant)
  | @other _ front back own _ _ moved other _ permitted answers =>
    obtain ⟨reordered, tracked, phasesPerm⟩ :=
      List.perm_comp_forall₂ List.perm_middle.symm tracks
    cases tracked with
    | @cons _ _ itsPhase rest itsFollows itsTracks =>
      obtain ⟨later, leads, itsRest⟩ := itsFollows _ (governs.possible answers)
      have tracksBoth : protocol.Tracks ((op, own.forget) :: (front ++ back))
          (phase :: rest) := .cons (follows.forget isFinal) itsTracks
      have isAfter : inv moved (later :: phase :: rest) := by
        apply preserves.call tracksBoth permitted answers leads
        apply preserves.perm _ invariant
        exact (phasesPerm.symm.cons phase).trans (List.Perm.swap _ _ _)
      obtain ⟨again, tracksAgain, permAgain⟩ :=
        Protocol.Tracks.insert itsTracks (other, _) itsRest
      refine ⟨phase, again, follows, isLasting, tracksAgain, ?_⟩
      apply preserves.perm _ isAfter
      exact (List.Perm.swap _ _ _).trans (permAgain.cons phase)
  | environment moves =>
    exact ⟨phase, phases, follows, isLasting, tracks, preserves.environment moves invariant⟩
  | stop thread permitted =>
    obtain ⟨reordered, tracked, phasesPerm⟩ :=
      List.perm_comp_forall₂ List.perm_middle.symm tracks
    cases tracked with
    | @cons _ _ itsPhase rest itsFollows itsTracks =>
      refine ⟨phase, rest, follows, isLasting, itsTracks, ?_⟩
      apply preserves.stop itsFollows permitted
      apply preserves.perm _ invariant
      exact (phasesPerm.symm.cons phase).trans (List.Perm.swap _ _ _)

/-- Up to its end the operation is in a phase that the invariant holds with. -/
theorem Protocol.Preserves.watched (preserves : protocol.Preserves system condition first inv)
    (governs : protocol.Governs system first)
    (isFinal : ∀ value after, post value after → protocol.final after)
    (lasts : ∀ phase request answer after, protocol.leads phase request answer after →
      lasting phase → lasting after) {op : Op} {world : World} {program : Prog S α}
    {watched : Watched S World Op α} {begins : Phase} (initial : inv world [])
    (starts : ∀ {running world phases}, system.startable running op → inv world phases →
      inv world (begins :: phases))
    (follows : protocol.FollowsTo begins program post) (isLasting : lasting begins)
    (reached : system.WatchedUnder condition world op program watched) :
    protocol.Awaits inv post lasting watched := by
  obtain ⟨config, reachable, startable, run⟩ := reached
  obtain ⟨phases, tracks, invariant⟩ := preserves.reached governs reachable initial
  induction run with
  | refl =>
    exact ⟨begins, phases, follows, isLasting, tracks, starts startable invariant⟩
  | tail _ step ih => exact preserves.watchStep governs isFinal lasts step ih

section Schedules

/-- A scheduled call of the operation that is waited for, or of another one. -/
inductive WatchMove (S : Signature) where
  | own (oracle : (request : S.Call) → S.Answer request)
  | other (index : Nat) (oracle : (request : S.Call) → S.Answer request)

variable (system : System S World Op)

def Watched.move : WatchMove S → Watched S World Op α → Option (Watched S World Op α)
  | .own oracle, ⟨world, others, .call request next⟩ =>
    let outcome := (system.exec request world).getD
      (oracle request, system.observe request (oracle request) world)
    some ⟨outcome.2, others, next outcome.1⟩
  | .other index oracle, ⟨world, others, own⟩ =>
    match others[index]? with
    | some (op, .call request next) =>
      let outcome := (system.exec request world).getD
        (oracle request, system.observe request (oracle request) world)
      some ⟨outcome.2, others.set index (op, next outcome.1), own⟩
    | _ => none
  | _, _ => none

def Watched.play : List (WatchMove S) → Watched S World Op α → Option (Watched S World Op α)
  | [], watched => some watched
  | next :: rest, watched => (Watched.move system next watched).bind (Watched.play rest)

variable {system}

theorem watchStep_of_move {op : Op} {next : WatchMove S} {before after : Watched S World Op α}
    (played : Watched.move system next before = some after) :
    system.WatchStep anyStep op before after := by
  obtain ⟨world, others, own⟩ := before
  cases next with
  | own oracle =>
    cases own with
    | done value => cases played
    | call request next =>
      cases played
      exact .own trivial (system.answers_getD request _ world)
  | other index oracle =>
    simp only [Watched.move] at played
    split at played
    · rename_i other request next selected
      cases played
      obtain ⟨front, back, rfl, changed⟩ := exists_set_of_getElem? selected (other, next _)
      rw [changed]
      exact .other other trivial (system.answers_getD request _ world)
    · cases played

theorem watchRun_of_play {op : Op} {moves : List (WatchMove S)}
    {start final : Watched S World Op α} (played : Watched.play system moves start = some final) :
    ReflTransGen (system.WatchStep anyStep op) start final := by
  induction moves generalizing start with
  | nil =>
    cases played
    exact .refl
  | cons next rest ih =>
    obtain ⟨middle, moved, remaining⟩ := bind_eq_some_iff.mp played
    exact .head (watchStep_of_move moved) (ih remaining)

/-- An operation is started where a schedule ends, and watched along another one. -/
theorem watched_of_play {system : System S World Op} (referee : Referee system anyCall)
    (moves : List (Move S World Op)) (watches : List (WatchMove S)) (world : World) (op : Op)
    (program : Prog S α) (property : Watched S World Op α → Bool)
    (environmental : ∀ moved, .environment moved ∈ moves →
      ∀ world, system.environment world (moved world))
    (played : ((referee.play moves ⟨world, []⟩).bind fun config =>
      if referee.mayStart (config.threads.map Prod.fst) op then
        (Watched.play system watches ⟨config.world, config.threads, program⟩).map property
      else none) = some true) :
    ∃ watched, system.WatchedUnder anyStep world op program watched ∧ property watched = true := by
  obtain ⟨config, reached, further⟩ := bind_eq_some_iff.mp played
  obtain ⟨mayStart, further⟩ := ite_none_right_eq_some.mp further
  obtain ⟨watched, run, holds⟩ := map_eq_some_iff.mp further
  refine ⟨watched, ⟨config, ?_, referee.startable_of_mayStart mayStart, watchRun_of_play run⟩,
    holds⟩
  exact reachableUnder_anyStep (referee.run_of_play environmental reached)

end Schedules

end DubEcosystem.Interleaving
