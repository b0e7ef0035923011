import DubEcosystem.Interleaving

/-!
# Interleaved programs with their histories

A history keeps every operation that was ever started, with the calls it has made and
the worlds these calls met.  It runs as the interleaved system does, so that a
discipline speaks about each event of it.  What an operation notes about its own calls
is known from its program alone; what can be noted only once is noted by one operation
only.
-/

namespace DubEcosystem.Interleaving

open Relation List

variable {S : Signature} {World Op κ α β : Type}

/-- A call that was made: its answer, and the world before and after. -/
structure Event (S : Signature) (World : Type) where
  request : S.Call
  answer : S.Answer request
  before : World
  after : World

/-- An operation that was started: its calls, the latest first, and what it has left
to do. -/
structure Thread (S : Signature) (World Op : Type) where
  op : Op
  past : List (Event S World)
  rest : Prog S Unit

structure History (S : Signature) (World Op : Type) where
  world : World
  threads : List (Thread S World Op)

/-- One step of the interleaved system, with the event it adds.  An operation that
stops for good makes no further step. -/
inductive System.HistoryStep (system : System S World Op) (allowed : S.Call → World → Prop) :
    History S World Op → History S World Op → Prop
  | start {world threads} (op : Op) (startable : system.startable (threads.map Thread.op) op) :
      HistoryStep system allowed ⟨world, threads⟩ ⟨world, ⟨op, [], system.program op⟩ :: threads⟩
  | call {world before after} (op : Op) (past : List (Event S World))
      (request : S.Call) (next : S.Answer request → Prog S Unit)
      (answer : S.Answer request) (moved : World)
      (permitted : allowed request world)
      (answers : system.toMachine.Answers request world answer moved) :
      HistoryStep system allowed ⟨world, before ++ ⟨op, past, .call request next⟩ :: after⟩
        ⟨moved, before ++ ⟨op, ⟨request, answer, world, moved⟩ :: past, next answer⟩ :: after⟩
  | environment {world moved threads} (moves : system.environment world moved) :
      HistoryStep system allowed ⟨world, threads⟩ ⟨moved, threads⟩

/-- The history is reached by a run from `world` with nothing started. -/
def System.ReachableHistory (system : System S World Op)
    (allowed : S.Call → World → Prop) (world : World)
    (history : History S World Op) : Prop :=
  ReflTransGen (system.HistoryStep allowed) ⟨world, []⟩ history

/-- The history without the past. -/
def History.config (history : History S World Op) : Config S World Op where
  world := history.world
  threads := history.threads.map fun thread => (thread.op, thread.rest)

variable {system : System S World Op} {allowed : S.Call → World → Prop}

theorem step_of_historyStep {before after : History S World Op}
    (step : system.HistoryStep allowed before after) :
    system.Step allowed before.config after.config := by
  cases step with
  | start op startable =>
    apply System.Step.start op
    rw [List.map_map]
    exact startable
  | call op past request next answer moved permitted answers =>
    simp only [History.config, map_append, map_cons]
    exact .call op request next answer moved permitted answers
  | environment moves => exact .environment moves

variable {history : History S World Op}

theorem reachable_of_history {world : World}
    (reached : system.ReachableHistory allowed world history) :
    system.ReachableWhere allowed world history.config := by
  induction reached with
  | refl => exact .refl
  | tail _ step ih => exact ih.tail (step_of_historyStep step)

/-- An invariant of the threads that the start of an operation and its calls keep. -/
theorem threads_of_reachable {property : Thread S World Op → Prop}
    (started : ∀ op, property ⟨op, [], system.program op⟩)
    (called : ∀ op past request next answer before after,
      system.toMachine.Answers request before answer after →
        property ⟨op, past, .call request next⟩ →
          property ⟨op, ⟨request, answer, before, after⟩ :: past, next answer⟩)
    {world : World} {history : History S World Op}
    (reached : system.ReachableHistory allowed world history) :
    ∀ thread ∈ history.threads, property thread := by
  induction reached with
  | refl => simp
  | tail _ step ih =>
    cases step with
    | start op startable =>
      exact forall_mem_cons.mpr ⟨started op, ih⟩
    | @call world front back op past request next answer moved permitted answers =>
      intro thread member
      rcases mem_append.mp member with old | member
      · exact ih thread (mem_append_left _ old)
      · rcases mem_cons.mp member with rfl | old
        · apply called op past request next answer world moved answers
          exact ih _ (mem_append_right _ (.head _))
        · exact ih thread (mem_append_right _ (.tail _ old))
    | environment moves => exact ih

section Events

variable (discipline : Discipline system)

/-- Every event of a history is a call that was issued under its precondition. -/
theorem Discipline.event_sound (programs : discipline.ProgramsRespect) {world : World}
    (invariant : discipline.inv world)
    (reached : system.ReachableHistory allowed world history) :
    ∀ thread ∈ history.threads, ∀ event ∈ thread.past, discipline.inv event.before ∧
        discipline.pre thread.op event.request event.before ∧
          system.toMachine.Answers event.request event.before event.answer event.after := by
  induction reached with
  | refl => simp
  | @tail middle final earlier step ih =>
    cases step with
    | start op startable =>
      intro thread member event past
      rcases mem_cons.mp member with rfl | old
      · simp at past
      · exact ih thread old event past
    | @call world front back op past request next answer moved permitted answers =>
      have sound := (discipline.run_sound programs (discipline.sound_initial invariant)
        (reachable_of_history earlier)).2
      have issued := sound.respects (op, .call request next) (by simp [History.config])
      obtain ⟨precondition, -⟩ :=
        issued world sound.inv (discipline.rely_refl op world)
      intro thread member event inPast
      rcases mem_append.mp member with old | member
      · exact ih thread (mem_append_left _ old) event inPast
      · rcases mem_cons.mp member with rfl | old
        · rcases mem_cons.mp inPast with rfl | older
          · exact ⟨sound.inv, precondition, answers⟩
          · exact ih ⟨op, past, .call request next⟩ (mem_append_right _ (.head _)) event older
        · exact ih thread (mem_append_right _ (.tail _ old)) event inPast
    | environment moves => exact ih

end Events

abbrev EntryOf (S : Signature) (κ : Type) :=
  (request : S.Call) → S.Answer request → List κ

/-- Whatever its calls are answered, the program ends with notes that meet `post`. -/
def Prog.Notes (entry : EntryOf S κ) (post : α → List κ → Prop) : Prog S α → List κ → Prop
  | .done value, notes => post value notes
  | .call request next, notes =>
    ∀ answer, (next answer).Notes entry post (notes ++ entry request answer)

def notesOf (entry : EntryOf S κ) : List (Event S World) → List κ
  | [] => []
  | event :: past => notesOf entry past ++ entry event.request event.answer

def Thread.notes (entry : EntryOf S κ) (thread : Thread S World Op) : List κ :=
  notesOf entry thread.past

variable {entry : EntryOf S κ}

variable {notes : List κ}

theorem Prog.Notes.mono {strong weak : α → List κ → Prop} {program : Prog S α} (holds : program.Notes entry strong notes)
    (weaken : ∀ value notes, strong value notes → weak value notes) :
    program.Notes entry weak notes := by
  induction program generalizing notes with
  | done value => exact weaken value notes holds
  | call request next ih =>
    intro answer
    exact ih answer (holds answer)

variable {post : β → List κ → Prop}

theorem Prog.Notes.bind {program : Prog S α}
    {continuation : α → Prog S β}
    (holds : program.Notes entry
      (fun value later => (continuation value).Notes entry post later) notes) :
    (program >>= continuation).Notes entry post notes := by
  induction program generalizing notes with
  | done value => exact holds
  | call request next ih =>
    intro answer
    exact ih answer (holds answer)

theorem Prog.Notes.quiet {request : S.Call}
    {continuation : S.Answer request → Prog S β}
    (nothing : ∀ answer, entry request answer = [])
    (rest : ∀ answer, (continuation answer).Notes entry post notes) :
    (Prog.perform request >>= continuation).Notes entry post notes := by
  intro answer
  rw [nothing answer, append_nil]
  exact rest answer

theorem Prog.Notes.noting {request : S.Call}
    {continuation : S.Answer request → Prog S β}
    (rest : ∀ answer, (continuation answer).Notes entry post (notes ++ entry request answer)) :
    (Prog.perform request >>= continuation).Notes entry post notes :=
  rest

theorem mem_notesOf {noted : κ} {past : List (Event S World)} : noted ∈ notesOf entry past ↔
      ∃ event ∈ past, noted ∈ entry event.request event.answer := by
  induction past with
  | nil => simp [notesOf]
  | cons event past ih => simp [notesOf, ih, or_comm]

variable {world : World} {history : History S World Op}

/-- The notes of an operation are those its program leads to. -/
theorem notes_of_reachable {post : Op → List κ → Prop}
    (programs : ∀ op, (system.program op).Notes entry (fun _ notes => post op notes) [])
    (reached : system.ReachableHistory allowed world history) :
    ∀ thread ∈ history.threads, thread.rest.Notes entry (fun _ notes => post thread.op notes)
        (thread.notes entry) := by
  refine @threads_of_reachable S World Op system allowed (fun thread : Thread S World Op =>
    thread.rest.Notes entry (fun _ notes => post thread.op notes) (thread.notes entry))
    programs ?_ world history reached
  intro op past request next answer before after answers holds
  exact holds answer

/-- What can be noted only while the world has not spent it, and is spent from then on,
is noted at most once in a history. -/
theorem noted_once {spent : World → κ → Prop} (notes : ∀ request before answer after,
      system.toMachine.Answers request before answer after →
        ∀ noted ∈ entry request answer, ¬spent before noted ∧ spent after noted)
    (kept : ∀ request before answer after noted,
      system.toMachine.Answers request before answer after → spent before noted → spent after noted)
    (still : ∀ before after noted, system.environment before after →
      spent before noted → spent after noted)
    (reached : system.ReachableHistory allowed world history) :
    (∀ thread ∈ history.threads, ∀ noted ∈ thread.notes entry, spent history.world noted) ∧
    history.threads.Pairwise fun first second =>
      ∀ noted ∈ first.notes entry, noted ∉ second.notes entry := by
  induction reached with
  | refl => simp
  | tail _ step ih =>
    obtain ⟨spentBefore, apart⟩ := ih
    cases step with
    | start op startable =>
      constructor
      · intro thread member noted isNoted
        rcases mem_cons.mp member with rfl | old
        · simp [Thread.notes, notesOf] at isNoted
        · exact spentBefore thread old noted isNoted
      · apply List.Pairwise.cons _ apart
        intro thread _ noted isNoted
        simp [Thread.notes, notesOf] at isNoted
    | environment moves =>
      refine ⟨?_, apart⟩
      intro thread member noted isNoted
      exact still _ _ noted moves (spentBefore thread member noted isNoted)
    | @call world front back op past request next answer moved permitted answers =>
      have keeps := fun noted => kept request world answer moved noted answers
      have here := notes request world answer moved answers
      have own : ∀ noted ∈ notesOf entry past, spent world noted :=
        spentBefore ⟨op, past, .call request next⟩ (mem_append_right _ (.head _))
      constructor
      · intro thread member noted isNoted
        rcases mem_append.mp member with old | member
        · exact keeps noted (spentBefore thread (mem_append_left _ old) noted isNoted)
        · rcases mem_cons.mp member with rfl | old
          · rcases mem_append.mp isNoted with earlier | now
            · exact keeps noted (own noted earlier)
            · exact (here noted now).2
          · exact keeps noted (spentBefore thread (mem_append_right _ (.tail _ old)) noted isNoted)
      · rw [pairwise_append, pairwise_cons] at apart ⊢
        obtain ⟨frontApart, ⟨fromOwn, backApart⟩, across⟩ := apart
        refine ⟨frontApart, ⟨?_, backApart⟩, ?_⟩
        · intro other member noted isNoted
          rcases mem_append.mp isNoted with earlier | now
          · exact fromOwn other member noted earlier
          · intro elsewhere
            exact (here noted now).1 (spentBefore other (mem_append_right _ (.tail _ member)) noted
              elsewhere)
        · intro first firstMem second secondMem noted isNoted
          rcases mem_cons.mp secondMem with rfl | old
          · intro elsewhere
            rcases mem_append.mp elsewhere with earlier | now
            · exact across first firstMem _ (.head _) noted isNoted earlier
            · exact (here noted now).1
                (spentBefore first (mem_append_left _ firstMem) noted isNoted)
          · exact across first firstMem second (.tail _ old) noted isNoted

/-- Run the program to its end with nobody else moving; `outside` answers what the
machine does not. -/
def alone (machine : Machine S World) (outside : (request : S.Call) → S.Answer request) :
    Prog S Unit → World → List (Event S World) → World × List (Event S World)
  | .done _, world, past => (world, past)
  | .call request next, world, past =>
    let outcome := (machine.exec request world).getD
      (outside request, machine.observe request (outside request) world)
    alone machine outside (next outcome.1) outcome.2
      (⟨request, outcome.1, world, outcome.2⟩ :: past)

theorem answers_getD (machine : Machine S World) (request : S.Call)
    (given : S.Answer request) (world : World) :
    let outcome := (machine.exec request world).getD
      (given, machine.observe request given world)
    machine.Answers request world outcome.1 outcome.2 := by
  cases executes : machine.exec request world with
  | none | some outcome => simp [Machine.Answers, executes]

theorem reaches_alone (system : System S World Op)
    (outside : (request : S.Call) → S.Answer request) (op : Op) (program : Prog S Unit)
    (world : World) (past : List (Event S World)) (threads : List (Thread S World Op)) :
    ReflTransGen (system.HistoryStep anyCall) ⟨world, ⟨op, past, program⟩ :: threads⟩
      ⟨(alone system.toMachine outside program world past).1,
        ⟨op, (alone system.toMachine outside program world past).2, .done ()⟩ :: threads⟩ := by
  induction program generalizing world past with
  | done value => exact .refl
  | call request next ih =>
    have answers := answers_getD system.toMachine request (outside request) world
    have step := @System.HistoryStep.call S World Op system anyCall world [] threads op
      past request next _ _ trivial answers
    exact (ReflTransGen.single step).trans (ih _ _ _)

theorem System.ReachableHistory.alone {system : System S World Op} {start : World}
    (reached : system.ReachableHistory anyCall start history)
    (outside : (request : S.Call) → S.Answer request) (op : Op)
    (startable : system.startable (history.threads.map Thread.op) op) :
    system.ReachableHistory anyCall start
      ⟨(Interleaving.alone system.toMachine outside (system.program op) history.world []).1,
        ⟨op, (Interleaving.alone system.toMachine outside (system.program op)
          history.world []).2, .done ()⟩ :: history.threads⟩ := by
  have started := reached.tail (.start op startable)
  exact started.trans (reaches_alone system outside op _ _ _ _)

end DubEcosystem.Interleaving
