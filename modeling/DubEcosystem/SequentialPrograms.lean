import DubEcosystem.PortPrograms

/-!
# Programs that run one at a time

A service applies its operations to a world one after another.  An operation may
return, throw, or stop for good between two of its calls; the next one starts
from the world it left.  `Safe` says under which condition on the world every call
of one operation is issued; an invariant that such calls keep holds in every state
of a session.
-/

namespace DubEcosystem.SequentialPrograms

open Relation Interleaving PortPrograms List

variable {P : Ports} {Err World Op α β : Type}

/-- Run alone from `before`, the program can leave the world in `after`;
`outcome` is the value it ended with, `none` if it stopped on the way. -/
inductive Reaches {S : Signature} (machine : Machine S World) :
    Prog S α → World → Option α → World → Prop
  | finished {value world} : Reaches machine (.done value) world (some value) world
  | stopped {program world} : Reaches machine program world none world
  | called {request next before answer between outcome after}
      (answers : machine.Answers request before answer between)
      (rest : Reaches machine (next answer) between outcome after) :
      Reaches machine (.call request next) before outcome after

/-- Run the program alone; `outside` answers what the machine does not. -/
def run {S : Signature} (machine : Machine S World)
    (outside : (request : S.Call) → S.Answer request) : Prog S α → World → α × World
  | .done value, world => (value, world)
  | .call request next, world =>
    match machine.exec request world with
    | some (answer, after) => run machine outside (next answer) after
    | none =>
      run machine outside (next (outside request)) (machine.observe request (outside request) world)

theorem reaches_run {S : Signature} (machine : Machine S World)
    (outside : (request : S.Call) → S.Answer request) (program : Prog S α)
    (world : World) :
    Reaches machine program world (some (run machine outside program world).1)
      (run machine outside program world).2 := by
  induction program generalizing world with
  | done value => exact .finished
  | call request next ih =>
    cases executes : machine.exec request world with
    | some outcome =>
      have answers : machine.Answers request world outcome.1 outcome.2 := by
        simp [Machine.Answers, executes]
      simpa [run, executes] using Reaches.called answers (ih outcome.1 outcome.2)
    | none =>
      have answers : machine.Answers request world (outside request)
          (machine.observe request (outside request) world) := by
        simp [Machine.Answers, executes]
      simpa [run, executes] using Reaches.called answers (ih (outside request) _)

/-- The program, run alone from `world`, issues every call in a world that meets
its `pre`, and what it ends with meets `post`. -/
def ProgSafe {S : Signature} (machine : Machine S World)
    (pre : S.Call → World → Prop) : Prog S α → (α → World → Prop) → World → Prop
  | .done value, post, world => post value world
  | .call request next, post, world =>
    pre request world ∧ ∀ answer after, machine.Answers request world answer after →
      ProgSafe machine pre (next answer) post after

/-- Calls that meet `pre` keep the invariant. -/
def Sound {S : Signature} (machine : Machine S World) (pre : S.Call → World → Prop)
    (inv : World → Prop) : Prop :=
  ∀ request before answer after, inv before → pre request before →
    machine.Answers request before answer after → inv after

/-- The call cannot break `inv` in this world. -/
def Preserves {S : Signature} (machine : Machine S World) (inv : World → Prop)
    (request : S.Call) (world : World) : Prop :=
  inv world → ∀ answer after, machine.Answers request world answer after → inv after

variable {S : Signature} {machine : Machine S World} {pre : S.Call → World → Prop}
  {inv : World → Prop}

theorem sound_preserves : Sound machine (Preserves machine inv) inv := by
  intro request before answer after holds preserves answers
  exact preserves holds answer after answers

variable {program : Prog S α}

variable {before : World}

variable {strong weak : α → World → Prop}

theorem ProgSafe.mono
    (safe : ProgSafe machine pre program strong before)
    (weaken : ∀ value world, strong value world → weak value world) :
    ProgSafe machine pre program weak before := by
  induction program generalizing before with
  | done value => exact weaken value before safe
  | call request next ih =>
    obtain ⟨permits, rest⟩ := safe
    exact ⟨permits, fun answer after answers => ih answer (rest answer after answers)⟩

theorem progSafe_bind {continuation : α → Prog S β} {post : β → World → Prop}
    (safe : ProgSafe machine pre program
      (fun value world => ProgSafe machine pre (continuation value) post world) before) :
    ProgSafe machine pre (program >>= continuation) post before := by
  induction program generalizing before with
  | done value => exact safe
  | call request next ih =>
    obtain ⟨permits, rest⟩ := safe
    exact ⟨permits, fun answer after answers => ih answer (rest answer after answers)⟩

variable {post : α → World → Prop}

/-- What a program returns in a run that its postcondition may refer to. -/
theorem ProgSafe.traced (safe : ProgSafe machine pre program post before) :
    ProgSafe machine pre program (fun value after => post value after ∧
        Reaches machine program before (some value) after) before := by
  induction program generalizing before with
  | done value => exact ⟨safe, .finished⟩
  | call request next ih =>
    obtain ⟨permits, rest⟩ := safe
    refine ⟨permits, ?_⟩
    intro answer after answers
    refine (ih answer (rest answer after answers)).mono ?_
    rintro value final ⟨holds, reaches⟩
    exact ⟨holds, .called answers reaches⟩

variable {after : World}

/-- Wherever a safe program stops, the invariant holds. -/
theorem ProgSafe.reaches {outcome : Option α}
    (safe : ProgSafe machine pre program post before) (sound : Sound machine pre inv)
    (holds : inv before) (reaches : Reaches machine program before outcome after) : inv after := by
  induction reaches with
  | finished | stopped => exact holds
  | called answers rest ih =>
    have between := sound _ _ _ _ holds safe.1 answers
    exact ih (safe.2 _ _ answers) between

variable {value : α}

theorem ProgSafe.returns
    (safe : ProgSafe machine pre program post before)
    (reaches : Reaches machine program before (some value) after) : post value after := by
  generalize outcomeEq : some value = outcome at reaches
  induction reaches with
  | finished =>
    cases outcomeEq
    exact safe
  | stopped => cases outcomeEq
  | called answers rest ih => exact ih (safe.2 _ _ answers) outcomeEq

/-- A machine with the operations that run on it. -/
structure Service (P : Ports) (Err World Op : Type) where
  machine : Machine (P.signature Err) World
  program : Op → Action P Err Unit

variable (service : Service P Err World Op)

def Service.Leads (op : Op) (before after : World) : Prop :=
  ∃ outcome, Reaches service.machine (service.program op).run before outcome after

/-- The second world is reached from the first by operations one after another,
each `allowed` in the world it starts from. -/
def Service.Session (allowed : Op → World → Prop) : World → World → Prop :=
  ReflTransGen fun before after => ∃ op, allowed op before ∧ service.Leads op before after

def anyOperation : Op → World → Prop := fun _ _ => True

/-- The action issues every call in a world that meets its `pre`, and a value it
returns meets `post`.  Its rules below are all that is to be known of it. -/
@[irreducible]
def Safe (machine : Machine (P.signature Err) World) (pre : P.Call → World → Prop)
    (action : Action P Err α) (post : α → World → Prop) (world : World) : Prop :=
  ProgSafe machine pre action.run (fun
      | .ok value, after => post value after
      | .error _, _ => True) world

section Rules

variable {machine : Machine (P.signature Err) World} {pre : P.Call → World → Prop} {world : World}

variable {action : Action P Err α}

theorem Safe.reaches {outcome : Option (Except Err α)}
    (safe : Safe machine pre action post before) (sound : Sound machine pre inv)
    (holds : inv before) (reaches : Reaches machine action.run before outcome after) :
    inv after := by
  unfold Safe at safe
  exact ProgSafe.reaches safe sound holds reaches

theorem Safe.returns (safe : Safe machine pre action post before)
    (reaches : Reaches machine action.run before (some (.ok value)) after) : post value after := by
  unfold Safe at safe
  have holds := ProgSafe.returns safe reaches
  exact holds

variable {service : Service P Err World Op}

theorem Safe.leads {op : Op}
    (safe : Safe service.machine pre (service.program op) (fun _ _ => True) before)
    (sound : Sound service.machine pre inv) (holds : inv before)
    (leads : service.Leads op before after) : inv after := by
  obtain ⟨outcome, reaches⟩ := leads
  exact safe.reaches sound holds reaches

/-- Operations that are safe wherever they are allowed keep the invariant in every
state of a session. -/
theorem Service.Session.keeps {allowed : Op → World → Prop} {start final : World}
    (session : service.Session allowed start final) (holds : inv start)
    (step : ∀ op before after, inv before → allowed op before →
      service.Leads op before after → inv after) :
    inv final := by
  induction session with
  | refl => exact holds
  | tail _ last between =>
    obtain ⟨op, isAllowed, leads⟩ := last
    exact step op _ _ between isAllowed leads

theorem Safe.mono (safe : Safe machine pre action strong world)
    (weaken : ∀ value after, strong value after → weak value after) :
    Safe machine pre action weak world := by
  unfold Safe at safe ⊢
  refine ProgSafe.mono safe ?_
  rintro (thrown | value) after holds
  · trivial
  · exact weaken value after holds

/-- The action, run alone from `world`, can return. -/
def CanReturn (machine : Machine (P.signature Err) World) (action : Action P Err α)
    (world : World) : Prop :=
  ∃ value after, Reaches machine action.run world (some (.ok value)) after

theorem Safe.canReturn (safe : Safe machine pre action post world) : Safe machine pre action
      (fun value after => post value after ∧ CanReturn machine action world) world := by
  unfold Safe at safe ⊢
  refine ProgSafe.mono (ProgSafe.traced safe) ?_
  rintro (thrown | value) after ⟨holds, reaches⟩
  · trivial
  · exact ⟨holds, value, after, reaches⟩

theorem safe_pure (holds : post value world) :
    Safe machine pre (pure value : Action P Err α) post world := by
  unfold Safe
  exact holds

theorem safe_throw {thrown : Err} : Safe machine pre (throw thrown : Action P Err α) post world := by
  unfold Safe
  exact trivial

theorem safe_bind {continuation : α → Action P Err β} {post : β → World → Prop}
    (safe : Safe machine pre action
      (fun value after => Safe machine pre (continuation value) post after) world) :
    Safe machine pre (action >>= continuation) post world := by
  have unfolded : (action >>= continuation).run =
      action.run >>= ExceptT.bindCont continuation := rfl
  unfold Safe at safe ⊢
  rw [unfolded]
  refine progSafe_bind (ProgSafe.mono safe ?_)
  rintro (thrown | value) after holds
  · trivial
  · exact holds

variable {request : P.Call}

theorem safe_port {post : P.Result request → World → Prop} (permits : pre request world)
    (returns : ∀ result after, machine.Answers request world (.ok result) after →
      post result after) :
    Safe machine pre (port request) post world := by
  unfold Safe
  refine ⟨permits, ?_⟩
  intro answer after answers
  cases answer with
  | error thrown => trivial
  | ok result => exact returns result after answers

variable {continuation : P.Result request → Action P Err α}

theorem safe_port_bind (permits : pre request world)
    (rest : ∀ result after, machine.Answers request world (.ok result) after →
      Safe machine pre (continuation result) post after) :
    Safe machine pre (port request >>= continuation) post world :=
  safe_bind (safe_port permits rest)

/-- A call that returns `result` and leaves the world alone. -/
theorem safe_read_bind {result : P.Result request}
    (reads : machine.exec request world = some (.ok result, world)) (permits : pre request world)
    (rest : Safe machine pre (continuation result) post world) :
    Safe machine pre (port request >>= continuation) post world := by
  refine safe_port_bind permits ?_
  intro answer after answers
  simp only [Machine.Answers, reads, Prod.mk.injEq, Except.ok.injEq] at answers
  obtain ⟨rfl, rfl⟩ := answers
  exact rest

theorem safe_foldlM {step : β → α → Action P Err β} {items : List α} {initial : β}
    {loop : β → World → Prop}
    (each : ∀ item ∈ items, ∀ value before, loop value before →
      Safe machine pre (step value item) loop before)
    (start : loop initial world) :
    Safe machine pre (items.foldlM step initial) loop world := by
  induction items generalizing initial world with
  | nil => exact safe_pure start
  | cons item items ih =>
    rw [foldlM_cons]
    apply safe_bind
    refine (each item (.head _) initial world start).mono ?_
    intro value after holds
    exact ih (fun other member => each other (mem_cons_of_mem item member)) holds

/-- An action that issues only `permitted` calls, each of which meets its condition
where `inv` holds, and keeps `inv`. -/
theorem safe_of_keeps {permitted : P.Call → Prop} (keeps : Keeps (fun _ _ => True) permitted action)
    (permits : ∀ request before, permitted request → inv before → pre request before)
    (sound : Sound machine (fun request _ => permitted request) inv) (holds : inv world) :
    Safe machine pre action (fun _ => inv) world := by
  suffices progSafe : ∀ program : Prog (P.signature Err) (Except Err α), ∀ before,
      inv before → Prog.Meets (fun _ _ => True) permitted program (fun _ => True) →
        ProgSafe machine pre program (fun _ => inv) before by
    unfold Safe
    unfold Keeps Meets at keeps
    refine ProgSafe.mono (progSafe action.run world holds keeps) ?_
    rintro (thrown | value) after kept
    · trivial
    · exact kept
  intro program
  induction program with
  | done value =>
    intro before kept meets
    exact kept
  | call request next ih =>
    intro before kept meets
    refine ⟨permits request before meets.1 kept, ?_⟩
    intro answer after answers
    have moved : inv after := sound request before answer after kept meets.1 answers
    exact ih answer after moved (meets.2 answer trivial)

/-- An action whose calls all leave the world alone. -/
theorem safe_quiet_bind {quiet : P.Call → Prop} {continuation : α → Action P Err β}
    {post : β → World → Prop} (keeps : Keeps (fun _ _ => True) quiet action)
    (leaves : ∀ request before answer after, quiet request →
      machine.Answers request before answer after → after = before)
    (permits : ∀ request, quiet request → pre request world)
    (rest : ∀ value, Safe machine pre (continuation value) post world) :
    Safe machine pre (action >>= continuation) post world := by
  apply safe_bind
  have unmoved : Safe machine pre action (fun _ after => after = world) world := by
    refine safe_of_keeps keeps ?_ ?_ rfl
    · rintro request before isQuiet rfl
      exact permits request isQuiet
    · rintro request before answer after rfl isQuiet answers
      exact leaves request before answer after isQuiet answers
  refine unmoved.mono ?_
  rintro value after rfl
  exact rest value

end Rules

section Reads

variable {machine : Machine (P.signature Err) World} {world : World}

/-- Run alone, the action returns `value` and leaves the world as it is; it asks
nothing that the machine cannot answer. -/
def Reads (machine : Machine (P.signature Err) World) (action : Action P Err α)
    (world : World) (value : α) : Prop :=
  ∀ outside, run machine outside action.run world = (.ok value, world)

theorem run_bind (machine : Machine S World)
    (outside : (request : S.Call) → S.Answer request) (program : Prog S α)
    (continuation : α → Prog S β) (world : World) :
    run machine outside (program >>= continuation) world =
      run machine outside (continuation (run machine outside program world).1)
        (run machine outside program world).2 := by
  induction program generalizing world with
  | done value => rfl
  | call request next ih =>
    rw [Interleaving.Prog.call_bind, run.eq_2, run.eq_2]
    cases machine.exec request world with
    | none | some outcome => exact ih _ _

variable {outside : (request : S.Call) → S.Answer request}

theorem run_call {machine : Machine S World} {request : S.Call}
    {next : S.Answer request → Prog S α} {answer : S.Answer request} (executes : machine.exec request before = some (answer, after)) :
    run machine outside (.call request next) before = run machine outside (next answer) after := by
  rw [run, executes]

theorem run_call_outside {machine : Machine S World} {request : S.Call}
    {next : S.Answer request → Prog S α}
    (leaves : machine.exec request before = none) :
    run machine outside (.call request next) before = run machine outside (next (outside request))
        (machine.observe request (outside request) before) := by
  rw [run, leaves]

theorem run_keeps {machine : Machine S World} {permitted : S.Call → Prop}
    {relation : World → World → Prop} (refl : ∀ world, relation world world)
    (trans : ∀ {first second third}, relation first second → relation second third →
      relation first third)
    (moves : ∀ {request before answer after}, permitted request →
      machine.Answers request before answer after → relation before after) (issues : program.Issues permitted) (world : World) :
    relation world (run machine outside program world).2 := by
  induction program generalizing world with
  | done value => exact refl world
  | call request next ih =>
    cases executed : machine.exec request world with
    | none =>
      rw [run_call_outside executed]
      apply trans _ (ih _ (issues.2 _) _)
      apply moves issues.1
      rw [Machine.Answers, executed]
    | some outcome =>
      rw [run_call executed]
      apply trans _ (ih _ (issues.2 _) _)
      apply moves issues.1
      rw [Machine.Answers, executed]

variable {value : α}

theorem reads_pure : Reads machine (pure value : Action P Err α) world value := by
  intro outside
  rfl

theorem reads_bind {action : Action P Err α} {continuation : α → Action P Err β} {result : β}
    (first : Reads machine action world value)
    (second : Reads machine (continuation value) world result) :
    Reads machine (action >>= continuation) world result := by
  intro outside
  have unfolded : (action >>= continuation).run =
      action.run >>= ExceptT.bindCont continuation := rfl
  rw [unfolded, run_bind, first outside]
  exact second outside

theorem reads_port_bind {request : P.Call} {result : P.Result request}
    {continuation : P.Result request → Action P Err α}
    (reads : machine.exec request world = some (.ok result, world))
    (rest : Reads machine (continuation result) world value) :
    Reads machine (port request >>= continuation) world value := by
  have first : Reads machine (port request : Action P Err (P.Result request)) world
      result := by
    intro outside
    have unfolded : (port request : Action P Err (P.Result request)).run =
        .call request .done := rfl
    rw [unfolded, run, reads]
    rfl
  exact reads_bind first rest

end Reads

section Computed

variable {machine : Machine (P.signature Err) World}
  {outside : (request : P.Call) → Except Err (P.Result request)} {between after : World}

/-- Run alone, the action ends with the outcome and leaves the world `after`. -/
def Computes (machine : Machine (P.signature Err) World)
    (outside : (request : P.Call) → Except Err (P.Result request))
    (action : Action P Err α) (before : World) (outcome : Except Err α)
    (after : World) : Prop :=
  run machine outside action.run before = (outcome, after)

theorem computes_pure :
    Computes machine outside (pure value : Action P Err α) before (.ok value) before :=
  rfl

variable {action : Action P Err α}

variable {continuation : α → Action P Err β}

theorem computes_bind {outcome : Except Err β}
    (first : Computes machine outside action before (.ok value) between)
    (second : Computes machine outside (continuation value) between outcome after) :
    Computes machine outside (action >>= continuation) before outcome after := by
  have unfolded : (action >>= continuation).run =
      action.run >>= ExceptT.bindCont continuation := rfl
  unfold Computes at first second ⊢
  rw [unfolded, run_bind, first]
  exact second

theorem computes_bind_error {thrown : Err}
    (first : Computes machine outside action before (.error thrown) after) :
    Computes machine outside (action >>= continuation) before (.error thrown) after := by
  have unfolded : (action >>= continuation).run =
      action.run >>= ExceptT.bindCont continuation := rfl
  unfold Computes at first ⊢
  rw [unfolded, run_bind, first]
  rfl

variable {request : P.Call}

theorem computes_port {answer : Except Err (P.Result request)}
    (executes : machine.exec request before = some (answer, after)) :
    Computes machine outside (port request) before answer after := by
  have unfolded : (port request : Action P Err (P.Result request)).run = .call request .done := rfl
  unfold Computes
  rw [unfolded, run, executes]
  rfl

theorem computes_outside (leaves : machine.exec request before = none) :
    Computes machine outside (port request) before (outside request)
      (machine.observe request (outside request) before) := by
  have unfolded : (port request : Action P Err (P.Result request)).run = .call request .done := rfl
  unfold Computes
  rw [unfolded, run, leaves]
  rfl

variable {outcome : Except Err α}

theorem computes_attempt (computes : Computes machine outside action before outcome after) :
    Computes machine outside (attempt action) before (.ok outcome) after := by
  unfold Computes at computes ⊢
  simp only [attempt, ExceptT.run_mk]
  rw [run_bind, computes]
  rfl

theorem computes_port_bind {result : P.Result request}
    {continuation : P.Result request → Action P Err α}
    (executes : machine.exec request before = some (.ok result, between))
    (rest : Computes machine outside (continuation result) between outcome after) :
    Computes machine outside (port request >>= continuation) before outcome after :=
  computes_bind (computes_port executes) rest

theorem Computes.unique {first second : Except Err α} {firstAfter secondAfter : World}
    (one : Computes machine outside action before first firstAfter)
    (other : Computes machine outside action before second secondAfter) :
    first = second ∧ firstAfter = secondAfter := by
  unfold Computes at one other
  rw [one] at other
  exact Prod.mk.inj other

end Computed

end DubEcosystem.SequentialPrograms
