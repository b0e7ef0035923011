import Mathlib.Logic.Relation
import Mathlib.Data.List.Basic

/-!
# Interleaved programs of atomic calls

A service operation is a program that issues atomic calls one after another
and decides its next call from the answers so far.  Any number of operations
run at once against one world: between two calls of one operation every other
operation may make any number of calls, the environment may move, and an
operation may stop for good at any point.

This file fixes the syntax of such programs, the interleaving semantics, and
one proof principle.  A `Discipline` states once which precondition every call
is issued under and how the world may evolve; the whole interleaved system then
refines the plain sequence of atomic steps `Discipline.WorldStep`, over which
invariants are ordinary step inductions.
-/

namespace DubEcosystem.Interleaving

open Relation List

/-- The atomic calls a program may issue, with the type of each call's answer. -/
structure Signature where
  Call : Type
  Answer : Call → Type

/-- A program over a signature: a value, or a call whose answer selects the
rest of the program. -/
inductive Prog (S : Signature) (α : Type) : Type where
  | done (value : α)
  | call (request : S.Call) (next : S.Answer request → Prog S α)

variable {S : Signature} {World Op α β : Type}

namespace Prog

def bind : Prog S α → (α → Prog S β) → Prog S β
  | .done value, continuation => continuation value
  | .call request next, continuation =>
    .call request fun answer => (next answer).bind continuation

instance : Monad (Prog S) where
  pure := .done
  bind := bind

/-- The program that issues a single call and returns its answer. -/
def perform (request : S.Call) : Prog S (S.Answer request) :=
  .call request .done

/-- `try program catch`: any call may throw instead of being answered, and the
rest of the program is then dropped.  `throws` asks the outside. -/
def attempt (throws : S.Call) (decide : S.Answer throws → Bool) : Prog S α → Prog S (Option α)
  | .done value => .done (some value)
  | .call request next =>
    .call throws fun thrown =>
      if decide thrown then .done none
      else .call request fun answer => (next answer).attempt throws decide

@[simp]
theorem done_bind (value : α) (continuation : α → Prog S β) :
    (Prog.done value >>= continuation) = continuation value :=
  rfl

@[simp]
theorem call_bind (request : S.Call) (next : S.Answer request → Prog S α)
    (continuation : α → Prog S β) :
    (Prog.call request next >>= continuation) =
      .call request fun answer => next answer >>= continuation :=
  rfl

/-- Every call the program may issue is `permitted`. -/
def Issues (permitted : S.Call → Prop) : Prog S α → Prop
  | .done _ => True
  | .call request next =>
    permitted request ∧ ∀ answer, (next answer).Issues permitted

@[simp]
theorem issues_done (permitted : S.Call → Prop) (value : α) :
    (Prog.done value : Prog S α).Issues permitted :=
  trivial

variable {permitted : S.Call → Prop}

variable {request : S.Call}

theorem Issues.perform (holds : permitted request) :
    (perform request).Issues permitted :=
  ⟨holds, fun _ => trivial⟩

variable {program : Prog S α}

theorem Issues.mono {weak strong : S.Call → Prop}
    (issues : program.Issues strong)
    (weaken : ∀ request, strong request → weak request) :
    program.Issues weak := by
  induction program with
  | done value => trivial
  | call request next ih =>
    exact ⟨weaken request issues.1, fun answer => ih answer (issues.2 answer)⟩

theorem Issues.bind {continuation : α → Prog S β}
    (first : program.Issues permitted) (second : ∀ value, (continuation value).Issues permitted) :
    (program >>= continuation).Issues permitted := by
  induction program with
  | done value => exact second value
  | call request next ih =>
    exact ⟨first.1, fun answer => ih answer (first.2 answer)⟩

theorem Issues.perform_bind {continuation : S.Answer request → Prog S β}
    (holds : permitted request) (rest : ∀ answer, (continuation answer).Issues permitted) :
    (Prog.perform request >>= continuation).Issues permitted :=
  ⟨holds, rest⟩

theorem Issues.attempt {throws : S.Call} {decide : S.Answer throws → Bool}
    (issues : program.Issues permitted) (asks : permitted throws) :
    (program.attempt throws decide).Issues permitted := by
  induction program with
  | done value => trivial
  | call request next ih =>
    refine ⟨asks, fun thrown => ?_⟩
    simp only []
    split
    · trivial
    · exact ⟨issues.1, fun answer => ih answer (issues.2 answer)⟩

end Prog

/-- What the calls do.  `some` is a call the machine answers itself, moving the
world; `none` is a call answered from outside in any way, of which the world
keeps what `observe` says. -/
structure Machine (S : Signature) (World : Type) where
  exec : (request : S.Call) → World → Option (S.Answer request × World)
  observe : (request : S.Call) → S.Answer request → World → World

/-- The call `request`, issued in `before`, can be answered by `answer` and
leave the world `after`. -/
def Machine.Answers (machine : Machine S World) (request : S.Call)
    (before : World) (answer : S.Answer request) (after : World) : Prop :=
  match machine.exec request before with
  | some outcome => outcome = (answer, after)
  | none => after = machine.observe request answer before

/-- A machine together with the operations that may run on it.  An operation
is data; `program` is what it does, `startable running op` says that `op` may
start while `running` are in flight, and `environment` is how the world moves
on its own. -/
structure System (S : Signature) (World Op : Type) extends Machine S World where
  program : Op → Prog S Unit
  startable : List Op → Op → Prop
  environment : World → World → Prop

/-- The world and the operations in flight, each with what it has left to do. -/
structure Config (S : Signature) (World Op : Type) where
  world : World
  threads : List (Op × Prog S Unit)

/-- One step of the interleaved system.  `allowed` restricts the calls that may
be issued, so that a run whose steps all meet a condition is a run of the
restricted system; the unrestricted system allows every call. -/
inductive System.Step (system : System S World Op) (allowed : S.Call → World → Prop) :
    Config S World Op → Config S World Op → Prop
  | start {world threads} (op : Op) (startable : system.startable (threads.map Prod.fst) op) :
      Step system allowed ⟨world, threads⟩ ⟨world, (op, system.program op) :: threads⟩
  | call {world before after} (op : Op) (request : S.Call) (next : S.Answer request → Prog S Unit)
      (answer : S.Answer request) (moved : World)
      (permitted : allowed request world)
      (answers : system.toMachine.Answers request world answer moved) :
      Step system allowed ⟨world, before ++ (op, .call request next) :: after⟩
        ⟨moved, before ++ (op, next answer) :: after⟩
  | environment {world moved threads} (moves : system.environment world moved) :
      Step system allowed ⟨world, threads⟩ ⟨moved, threads⟩
  | stop {world before after} (thread : Op × Prog S Unit) :
      Step system allowed ⟨world, before ++ thread :: after⟩ ⟨world, before ++ after⟩

def anyCall : S.Call → World → Prop := fun _ _ => True

/-- A run whose calls all meet `allowed`. -/
def System.RunWhere (system : System S World Op) (allowed : S.Call → World → Prop) :
    Config S World Op → Config S World Op → Prop :=
  ReflTransGen (system.Step allowed)

/-- `config` is reached by a run from `world` with nothing in flight, in which
every call meets `allowed`. -/
def System.ReachableWhere (system : System S World Op)
    (allowed : S.Call → World → Prop) (world : World)
    (config : Config S World Op) : Prop :=
  system.RunWhere allowed ⟨world, []⟩ config

/-- `config` is reached by some run from `world` with nothing in flight. -/
def System.Reachable (system : System S World Op) (world : World)
    (config : Config S World Op) : Prop :=
  system.ReachableWhere anyCall world config

variable {system : System S World Op} {start final : Config S World Op}

theorem System.RunWhere.mono
    {strict weak : S.Call → World → Prop}
    (run : system.RunWhere strict start final)
    (weaken : ∀ request world, strict request world → weak request world) :
    system.RunWhere weak start final := by
  refine ReflTransGen.mono ?_ _ _ run
  intro before after step
  cases step with
  | start op startable => exact .start op startable
  | call op request next answer moved permitted answers =>
    exact .call op request next answer moved (weaken _ _ permitted) answers
  | environment moves => exact .environment moves
  | stop thread => exact .stop thread

/-- The program, started in `world`, issues every call under its precondition
and ends with `post`, whatever moves allowed by `rely` the others make between
its own calls.  Its own calls move the world along `evolves`. -/
def Prog.Respects (machine : Machine S World) (inv : World → Prop)
    (pre : S.Call → World → Prop) (evolves rely : World → World → Prop) :
    Prog S α → (α → World → Prop) → World → Prop
  | .done value, post, world =>
    ∀ later, inv later → rely world later → post value later
  | .call request next, post, world =>
    ∀ later, inv later → rely world later → pre request later ∧
      ∀ answer moved, machine.Answers request later answer moved → inv moved → evolves later moved →
          Prog.Respects machine inv pre evolves rely (next answer) post moved

/-- A rely-guarantee discipline for a system: an invariant of the world, the
precondition under which each operation issues each call, a bound `evolves` on
every move of the world and a bound `rely` on what an operation sees of the
others, with the proofs that calls and the environment obey them.  `coexist`
relates the operations that can be in flight together. -/
structure Discipline (system : System S World Op) where
  inv : World → Prop
  pre : Op → S.Call → World → Prop
  evolves : World → World → Prop
  rely : Op → World → World → Prop
  coexist : Op → Op → Prop
  rely_refl : ∀ op world, rely op world world
  rely_trans : ∀ {op first second third},
    rely op first second → rely op second third → rely op first third
  call_sound : ∀ {op request before answer after},
    inv before → pre op request before → system.toMachine.Answers request before answer after →
        inv after ∧ evolves before after ∧ ∀ other, coexist op other → rely other before after
  environment_sound : ∀ {before after},
    inv before → system.environment before after →
      inv after ∧ evolves before after ∧ ∀ op, rely op before after
  start_sound : ∀ {running op}, system.startable running op →
    ∀ other ∈ running, coexist op other ∧ coexist other op

namespace Discipline

variable {system : System S World Op} (discipline : Discipline system)

/-- The program, run on behalf of `op`, respects the discipline from `world`
on. -/
abbrev Respects (op : Op) (program : Prog S α) (post : α → World → Prop) (world : World) : Prop :=
  program.Respects system.toMachine discipline.inv (discipline.pre op)
    discipline.evolves (discipline.rely op) post world

def ProgramsRespect : Prop :=
  ∀ {running op world}, system.startable running op → discipline.inv world →
    discipline.Respects op (system.program op) (fun _ _ => True) world

/-- One atomic move of the world: a call some operation issues under its
precondition, or a move of the environment. -/
inductive WorldStep (allowed : S.Call → World → Prop) : World → World → Prop
  | call {before after} (op : Op) (request : S.Call) (answer : S.Answer request)
      (invariant : discipline.inv before)
      (permitted : allowed request before)
      (precondition : discipline.pre op request before)
      (answers : system.toMachine.Answers request before answer after) :
      WorldStep allowed before after
  | environment {before after} (invariant : discipline.inv before)
      (moves : system.environment before after) :
      WorldStep allowed before after

variable {discipline} {op : Op}

variable {program : Prog S α} {post : α → World → Prop}

theorem Respects.mono {world later : World} (respects : discipline.Respects op program post world)
    (moves : discipline.rely op world later) : discipline.Respects op program post later := by
  cases program with
  | done value | call request next =>
    intro final invariant further
    exact respects final invariant (discipline.rely_trans moves further)

variable {world : World}

/-- It suffices to respect the discipline from every world the others may move
to. -/
theorem respects_of_later (later : ∀ next, discipline.inv next → discipline.rely op world next →
      discipline.Respects op program post next) : discipline.Respects op program post world := by
  cases program with
  | done value | call request next =>
    intro final invariant moves
    exact later final invariant moves final invariant (discipline.rely_refl op final)

theorem Respects.consequence {weak strong : α → World → Prop}
    (respects : discipline.Respects op program strong world)
    (weaken : ∀ value later, strong value later → weak value later) :
    discipline.Respects op program weak world := by
  induction program generalizing world with
  | done value =>
    intro later invariant moves
    exact weaken value later (respects later invariant moves)
  | call request next ih =>
    intro later invariant moves
    obtain ⟨precondition, rest⟩ := respects later invariant moves
    exact ⟨precondition, fun answer moved answers movedInv movedEvolves =>
      ih answer (rest answer moved answers movedInv movedEvolves)⟩

/-- Sequential composition: the first program establishes what the second
needs, and keeps it while the others move. -/
theorem Respects.bind {continuation : α → Prog S β} {middle : α → World → Prop}
    {post : β → World → Prop} (first : discipline.Respects op program middle world)
    (second : ∀ value later, discipline.inv later → middle value later →
      discipline.Respects op (continuation value) post later) :
    discipline.Respects op (program >>= continuation) post world := by
  induction program generalizing world with
  | done value =>
    apply respects_of_later
    intro later invariant moves
    exact second value later invariant (first later invariant moves)
  | call request next ih =>
    intro later invariant moves
    obtain ⟨precondition, rest⟩ := first later invariant moves
    exact ⟨precondition, fun answer moved answers movedInv movedEvolves =>
      ih answer (rest answer moved answers movedInv movedEvolves)⟩

/-- What neither the program's own calls nor the others disturb still holds
when the program ends. -/
theorem Respects.frame {frame : World → Prop}
    (undisturbed : ∀ {before after}, discipline.rely op before after → frame before → frame after)
    (kept : ∀ {before after}, discipline.evolves before after → frame before → frame after)
    (respects : discipline.Respects op program post world) (holds : frame world) :
    discipline.Respects op program (fun value later => post value later ∧ frame later) world := by
  induction program generalizing world with
  | done value =>
    intro later invariant moves
    exact ⟨respects later invariant moves, undisturbed moves holds⟩
  | call request next ih =>
    intro later invariant moves
    obtain ⟨precondition, rest⟩ := respects later invariant moves
    exact ⟨precondition, fun answer moved answers movedInv evolved =>
      ih answer (rest answer moved answers movedInv evolved)
        (kept evolved (undisturbed moves holds))⟩

theorem respects_of_issues (issues : program.Issues fun request =>
      ∀ world, discipline.inv world → discipline.pre op request world)
    (world : World) : discipline.Respects op program (fun _ _ => True) world := by
  induction program generalizing world with
  | done value => exact fun _ _ _ => trivial
  | call request next ih =>
    intro later invariant _
    exact ⟨issues.1 later invariant, fun answer moved _ _ _ =>
      ih answer (issues.2 answer) moved⟩

/-- A program that may be dropped at any call keeps the discipline, if the
question to the outside leaves the world alone. -/
theorem Respects.attempt {throws : S.Call} {decide : S.Answer throws → Bool}
    (free : ∀ world, discipline.inv world → discipline.pre op throws world)
    (still : ∀ {before answer after},
      system.toMachine.Answers throws before answer after → after = before)
    {post : Option α → World → Prop}
    (respects : discipline.Respects op program (fun value later => post (some value) later) world)
    (dropped : ∀ later, post none later) :
    discipline.Respects op (program.attempt throws decide) post world := by
  induction program generalizing world with
  | done value => exact respects
  | call request next ih =>
    intro later invariant moves
    refine ⟨free later invariant, fun thrown moved answers _ _ => ?_⟩
    obtain rfl := still answers
    simp only []
    split
    · exact fun final _ _ => dropped final
    · intro final finalInv further
      obtain ⟨precondition, rest⟩ := respects final finalInv (discipline.rely_trans moves further)
      exact ⟨precondition, fun answer next answers nextInv evolved =>
        ih answer (rest answer next answers nextInv evolved)⟩

/-- What holds of a configuration throughout a run: the invariant, that the
operations in flight may coexist, and that each still respects the
discipline. -/
structure Sound (config : Config S World Op) : Prop where
  inv : discipline.inv config.world
  coexist : config.threads.Pairwise fun first second =>
    discipline.coexist first.1 second.1 ∧ discipline.coexist second.1 first.1
  respects : ∀ thread ∈ config.threads,
    discipline.Respects thread.1 thread.2 (fun _ _ => True) config.world

theorem sound_initial {world : World} (invariant : discipline.inv world) :
    discipline.Sound ⟨world, []⟩ :=
  ⟨invariant, .nil, by simp⟩

private theorem sound_call {world moved : World}
    {before after : List (Op × Prog S Unit)} {op : Op} {request : S.Call}
    {next : S.Answer request → Prog S Unit} {answer : S.Answer request}
    (sound : discipline.Sound ⟨world, before ++ (op, .call request next) :: after⟩)
    (answers : system.toMachine.Answers request world answer moved) :
    discipline.pre op request world ∧
      discipline.Sound ⟨moved, before ++ (op, next answer) :: after⟩ := by
  obtain ⟨invariant, coexist, respects⟩ := sound
  obtain ⟨precondition, rest⟩ :=
    respects (op, .call request next) (by simp) world invariant (discipline.rely_refl op world)
  obtain ⟨movedInv, movedEvolves, guarantee⟩ :=
    discipline.call_sound invariant precondition answers
  rw [pairwise_append, pairwise_cons] at coexist
  obtain ⟨beforePairs, ⟨afterOp, afterPairs⟩, across⟩ := coexist
  refine ⟨precondition, movedInv, ?_, ?_⟩
  · rw [pairwise_append, pairwise_cons]
    refine ⟨beforePairs, ⟨afterOp, afterPairs⟩, ?_⟩
    intro first firstMem second secondMem
    rcases mem_cons.mp secondMem with rfl | secondMem
    · exact across first firstMem (op, .call request next) (by simp)
    · exact across first firstMem second (by simp [secondMem])
  · intro thread member
    rcases mem_append.mp member with member | member
    · exact (respects thread (by simp [member])).mono
        (guarantee thread.1 (across thread member _ (by simp)).2)
    rcases mem_cons.mp member with rfl | member
    · exact rest answer moved answers movedInv movedEvolves
    · exact (respects thread (by simp [member])).mono (guarantee thread.1 (afterOp thread member).1)

variable {allowed : S.Call → World → Prop}

section

variable (programs : discipline.ProgramsRespect)
include programs

theorem sound_step {before after : Config S World Op} (sound : discipline.Sound before)
    (step : system.Step allowed before after) :
    ReflGen (discipline.WorldStep allowed) before.world after.world ∧ discipline.Sound after := by
  cases step with
  | @start world threads op startable =>
    refine ⟨.refl, sound.inv, ?_, ?_⟩
    · apply List.Pairwise.cons _ sound.coexist
      intro thread member
      exact discipline.start_sound startable thread.1 (mem_map_of_mem member)
    · exact forall_mem_cons.mpr ⟨programs startable sound.inv, sound.respects⟩
  | call op request next answer moved permitted answers =>
    obtain ⟨precondition, movedSound⟩ := discipline.sound_call sound answers
    exact ⟨.single (.call op request answer sound.inv permitted precondition answers), movedSound⟩
  | environment moves =>
    obtain ⟨movedInv, _, movedRely⟩ :=
      discipline.environment_sound sound.inv moves
    exact ⟨.single (.environment sound.inv moves), movedInv, sound.coexist, fun thread member =>
        (sound.respects thread member).mono (movedRely thread.1)⟩
  | @stop world first second thread =>
    have sublist : (first ++ second).Sublist (first ++ thread :: second) :=
      List.Sublist.append_left (sublist_cons_self thread second) first
    exact ⟨.refl, sound.inv, sound.coexist.sublist sublist,
      fun other member => sound.respects other (sublist.subset member)⟩

/-- Soundness of the discipline: along every run the world moves by atomic
steps alone, and the configuration stays sound. -/
theorem run_sound (sound : discipline.Sound start)
    (run : system.RunWhere allowed start final) :
    ReflTransGen (discipline.WorldStep allowed) start.world final.world ∧
      discipline.Sound final := by
  induction run with
  | refl => exact ⟨.refl, sound⟩
  | tail _ step ih =>
    obtain ⟨steps, middleSound⟩ := ih
    obtain ⟨last, finalSound⟩ := discipline.sound_step programs middleSound step
    exact ⟨steps.trans last.to_reflTransGen, finalSound⟩

omit programs in
theorem evolves_of_worldStep {before after : World}
    (step : discipline.WorldStep allowed before after) : discipline.evolves before after := by
  cases step with
  | call op request answer invariant permitted precondition answers =>
    exact (discipline.call_sound invariant precondition answers).2.1
  | environment invariant moves =>
    exact (discipline.environment_sound invariant moves).2.1

theorem property_of_run (property : World → Prop)
    (sound : discipline.Sound start) (initial : property start.world)
    (preserved : ∀ {before after}, discipline.WorldStep allowed before after →
        property before → property after) (run : system.RunWhere allowed start final) :
    property final.world := by
  have steps := (discipline.run_sound programs sound run).1
  generalize final.world = last at steps
  induction steps with
  | refl => exact initial
  | tail _ step ih => exact preserved step ih

/-- A property of the world that atomic steps keep holds in every reachable
configuration of a system started with it. -/
theorem property_of_reachable {start : World} {config : Config S World Op}
    (property : World → Prop) (invariant : discipline.inv start) (initial : property start)
    (preserved : ∀ {before after}, discipline.WorldStep allowed before after →
        property before → property after) (reached : system.ReachableWhere allowed start config) :
    property config.world :=
  discipline.property_of_run programs property (discipline.sound_initial invariant)
    initial preserved reached

end

/-- A discipline in which every operation sees of the others what every call
may do, and any operations may be in flight together. -/
def uniform (system : System S World Op) (inv : World → Prop)
    (pre : Op → S.Call → World → Prop) (evolves : World → World → Prop)
    (evolves_refl : ∀ world, evolves world world)
    (evolves_trans : ∀ {first second third},
      evolves first second → evolves second third → evolves first third)
    (call_sound : ∀ {op request before answer after}, inv before → pre op request before →
        system.toMachine.Answers request before answer after → inv after ∧ evolves before after)
    (environment_sound : ∀ {before after}, inv before → system.environment before after →
        inv after ∧ evolves before after) :
    Discipline system where
  inv := inv
  pre := pre
  evolves := evolves
  rely _ := evolves
  coexist _ _ := True
  rely_refl _ := evolves_refl
  rely_trans := evolves_trans
  call_sound invariant precondition answers :=
    have sound := call_sound invariant precondition answers
    ⟨sound.1, sound.2, fun _ _ => sound.2⟩
  environment_sound invariant moves :=
    have sound := environment_sound invariant moves
    ⟨sound.1, sound.2, fun _ => sound.2⟩
  start_sound _ _ _ := ⟨trivial, trivial⟩

def ofIssues (system : System S World Op) (permitted : Op → S.Call → Prop) : Discipline system where
  inv _ := True
  pre op request _ := permitted op request
  evolves _ _ := True
  rely _ _ _ := True
  coexist _ _ := True
  rely_refl _ _ := trivial
  rely_trans _ _ := trivial
  call_sound _ _ _ := ⟨trivial, trivial, fun _ _ => trivial⟩
  environment_sound _ _ := ⟨trivial, trivial, fun _ => trivial⟩
  start_sound _ _ _ := ⟨trivial, trivial⟩

theorem ofIssues_programsRespect {permitted : Op → S.Call → Prop}
    (issues : ∀ op, (system.program op).Issues (permitted op)) :
    (ofIssues system permitted).ProgramsRespect := by
  intro running op world _ _
  apply respects_of_issues
  exact (issues op).mono fun request permits _ _ => permits

end Discipline

end DubEcosystem.Interleaving
