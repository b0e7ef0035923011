import DubEcosystem.Interleaving

/-!
# Programs over ports that may throw

An engine does all its input and output through injected ports.  A port call
returns a result or throws, and the engine may catch what was thrown.  `Meets`
says which calls an engine issues and how it ends, whatever the ports answer
within what is possible; its rules turn a program into the condition under which
it keeps to what is permitted.
-/

namespace DubEcosystem.PortPrograms

open Interleaving List

namespace Prog

open Interleaving.Prog

variable {S : Signature} {α β : Type}

/-- With `possible` answers the program issues only `permitted` calls, and a
value it ends with meets `post`. -/
def Meets (possible : (request : S.Call) → S.Answer request → Prop)
    (permitted : S.Call → Prop) : Prog S α → (α → Prop) → Prop
  | .done value, post => post value
  | .call request next, post =>
    permitted request ∧ ∀ answer, possible request answer →
      Meets possible permitted (next answer) post

variable {possible : (request : S.Call) → S.Answer request → Prop} {permitted : S.Call → Prop}

theorem meets_bind {program : Prog S α} {continuation : α → Prog S β} {post : β → Prop} :
    Meets possible permitted (program >>= continuation) post ↔
      Meets possible permitted program fun value =>
        Meets possible permitted (continuation value) post := by
  induction program with
  | done value => rfl
  | call request next ih =>
    simp only [call_bind, Meets]
    constructor
    · rintro ⟨permits, later⟩
      exact ⟨permits, fun answer isPossible => (ih answer).mp (later answer isPossible)⟩
    · rintro ⟨permits, later⟩
      exact ⟨permits, fun answer isPossible => (ih answer).mpr (later answer isPossible)⟩

theorem Meets.mono {program : Prog S α} {weak strong : α → Prop}
    (meets : Meets possible permitted program strong)
    (weaken : ∀ value, strong value → weak value) :
    Meets possible permitted program weak := by
  induction program with
  | done value => exact weaken value meets
  | call request next ih =>
    exact ⟨meets.1, fun answer isPossible => ih answer (meets.2 answer isPossible)⟩

end Prog

structure Ports where
  Call : Type
  Result : Call → Type

abbrev Ports.signature (P : Ports) (Err : Type) : Signature where
  Call := P.Call
  Answer request := Except Err (P.Result request)

/-- A program that issues port calls, and returns or throws. -/
abbrev Action (P : Ports) (Err : Type) : Type → Type :=
  ExceptT Err (Prog (P.signature Err))

variable {P : Ports} {Err α β : Type}

def port (request : P.Call) : Action P Err (P.Result request) :=
  ExceptT.mk (Prog.perform (S := P.signature Err) request)

/-- Run to the end and catch: `try` and `catch` then match on the outcome. -/
def attempt (action : Action P Err α) : Action P Err (Except Err α) :=
  ExceptT.mk (action.run >>= fun outcome => pure (.ok outcome))

abbrev Answers (P : Ports) (Err : Type) :=
  (request : P.Call) → Except Err (P.Result request) → Prop

/-- With `possible` answers the action issues only `permitted` calls, and its
outcome meets `post`.  Its rules below are all that is to be known of it. -/
@[irreducible]
def Meets (possible : Answers P Err) (permitted : P.Call → Prop)
    (action : Action P Err α) (post : Except Err α → Prop) : Prop :=
  Prog.Meets (S := P.signature Err) possible permitted action.run post

abbrev Keeps (possible : Answers P Err) (permitted : P.Call → Prop)
    (action : Action P Err α) : Prop :=
  Meets possible permitted action fun _ => True

variable {possible : Answers P Err} {permitted : P.Call → Prop} {post : Except Err α → Prop}

theorem meets_pure {value : α} :
    Meets possible permitted (pure value : Action P Err α) post ↔ post (.ok value) := by
  unfold Meets
  exact Iff.rfl

theorem meets_throw {thrown : Err} : Meets possible permitted (throw thrown : Action P Err α) post ↔
      post (.error thrown) := by
  unfold Meets
  exact Iff.rfl

variable {action : Action P Err α}

variable {continuation : α → Action P Err β}

theorem meets_bind {post : Except Err β → Prop} :
    Meets possible permitted (action >>= continuation) post ↔ Meets possible permitted action fun
        | .ok value => Meets possible permitted (continuation value) post
        | .error thrown => post (.error thrown) := by
  have unfolded : (action >>= continuation).run =
      action.run >>= ExceptT.bindCont continuation := rfl
  unfold Meets
  rw [unfolded, Prog.meets_bind]
  constructor
  · intro meets
    refine Prog.Meets.mono meets ?_
    rintro (thrown | value) holds
    · exact holds
    · exact holds
  · intro meets
    refine Prog.Meets.mono meets ?_
    rintro (thrown | value) holds
    · exact holds
    · exact holds

variable {request : P.Call}

theorem meets_port {post : Except Err (P.Result request) → Prop} :
    Meets possible permitted (port request) post ↔
      permitted request ∧ ∀ answer, possible request answer → post answer := by
  unfold Meets
  exact Iff.rfl

theorem meets_port_bind {continuation : P.Result request → Action P Err α} :
    Meets possible permitted (port request >>= continuation) post ↔ permitted request ∧
        (∀ result, possible request (.ok result) →
          Meets possible permitted (continuation result) post) ∧
        ∀ thrown, possible request (.error thrown) → post (.error thrown) := by
  rw [meets_bind, meets_port]
  constructor
  · rintro ⟨permits, later⟩
    exact ⟨permits, fun result => later (.ok result), fun thrown => later (.error thrown)⟩
  · rintro ⟨permits, returned, threw⟩
    refine ⟨permits, ?_⟩
    rintro (thrown | result) isPossible
    · exact threw thrown isPossible
    · exact returned result isPossible

theorem meets_attempt_bind {continuation : Except Err α → Action P Err β}
    {post : Except Err β → Prop} :
    Meets possible permitted (attempt action >>= continuation) post ↔
      Meets possible permitted action fun outcome =>
        Meets possible permitted (continuation outcome) post := by
  rw [meets_bind]
  unfold Meets
  simp only [attempt, ExceptT.run_mk, Prog.meets_bind]
  rfl

theorem Meets.mono {weak strong : Except Err α → Prop}
    (meets : Meets possible permitted action strong)
    (weaken : ∀ outcome, strong outcome → weak outcome) : Meets possible permitted action weak := by
  unfold Meets at meets ⊢
  exact Prog.Meets.mono meets weaken

/-- An action that keeps to what is permitted may be followed by one that
always does. -/
theorem Keeps.bind (first : Keeps possible permitted action)
    (second : ∀ value, Keeps possible permitted (continuation value)) :
    Keeps possible permitted (action >>= continuation) := by
  rw [Keeps, meets_bind]
  refine first.mono ?_
  rintro (thrown | value) -
  · trivial
  · exact second value

theorem Keeps.port_bind {continuation : P.Result request → Action P Err α}
    (permits : permitted request)
    (rest : ∀ result, possible request (.ok result) →
      Keeps possible permitted (continuation result)) :
    Keeps possible permitted (port request >>= continuation) :=
  meets_port_bind.mpr ⟨permits, rest, fun _ _ => trivial⟩

theorem Keeps.port (permits : permitted request) :
    Keeps possible permitted (port request : Action P Err (P.Result request)) :=
  meets_port.mpr ⟨permits, fun _ _ => trivial⟩

theorem Keeps.attempt_bind {continuation : Except Err α → Action P Err β}
    (first : Keeps possible permitted action)
    (second : ∀ outcome, Keeps possible permitted (continuation outcome)) :
    Keeps possible permitted (attempt action >>= continuation) := by
  rw [Keeps, meets_attempt_bind]
  exact first.mono fun outcome _ => second outcome

theorem Keeps.pure {value : α} : Keeps possible permitted (Pure.pure value : Action P Err α) :=
  meets_pure.mpr trivial

theorem Keeps.throw {thrown : Err} :
    Keeps possible permitted (MonadExcept.throw thrown : Action P Err α) :=
  meets_throw.mpr trivial

theorem Keeps.foldlM {step : β → α → Action P Err β} {items : List α} {initial : β}
    (each : ∀ value, ∀ item ∈ items, Keeps possible permitted (step value item)) :
    Keeps possible permitted (items.foldlM step initial) := by
  induction items generalizing initial with
  | nil => exact Keeps.pure
  | cons item items ih =>
    rw [foldlM_cons]
    refine Keeps.bind (each initial item (.head _)) fun value => ?_
    exact ih fun value other member => each value other (mem_cons_of_mem item member)

theorem Keeps.weaken {weaker : P.Call → Prop} (keeps : Keeps possible permitted action)
    (implies : ∀ request, permitted request → weaker request) : Keeps possible weaker action := by
  suffices program : ∀ program : Interleaving.Prog (P.signature Err) (Except Err α),
      Prog.Meets possible permitted program (fun _ => True) →
        Prog.Meets possible weaker program (fun _ => True) by
    unfold Keeps Meets at keeps ⊢
    exact program action.run keeps
  intro program
  induction program with
  | done value => exact id
  | call request next ih =>
    intro meets
    exact ⟨implies request meets.1, fun answer isPossible => ih answer (meets.2 answer isPossible)⟩

end DubEcosystem.PortPrograms
