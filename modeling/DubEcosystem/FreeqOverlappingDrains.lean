import DubEcosystem.FreeqOutbox
import DubEcosystem.InterleavingSchedule

/-!
# Overlapping drains

Nothing keeps two drains of one outbox apart: a drain claims rows with a plain
`SELECT`, and its status writes name a row by its id alone.  While every write
still finds its row as the claim read it, finished rows stay finished and no
attempt count drops.  A single late write breaks this.
-/

namespace DubEcosystem.Freeq

open Interleaving Relation

variable {Body : Type}

variable (codec : JsonCodec Body)

/-- Any number of drains over one table, whose clock may read anything. -/
def overlappingDrains : System (outboxSignature Body) World DrainOptions where
  toMachine := outboxMachine Body
  program opts := (Operation.drain opts).program codec
  startable _ _ := True
  environment before after := ∃ clock, after = { before with clock := clock }

/-- The row named `id`, if it is still there, is as a claim read it that now
writes its attempt number `attempts`. -/
def World.RowAsRead (world : World) (id : String) (attempts : Nat) : Prop :=
  ∀ row ∈ world.table, row.id = id → row.status = .pending ∧ row.attempts + 1 = attempts

def FindsRowAsRead : Call Body → World → Prop
  | .setDone id attempts, world => world.RowAsRead id attempts
  | .setFailed id attempts _, world => world.RowAsRead id attempts
  | .reschedule id attempts _ _, world => world.RowAsRead id attempts
  | _, _ => True

def Call.IsDrainCall : Call Body → Prop
  | .insertOrIgnore _ => False
  | .deleteTerminal _ _ => False
  | _ => True

theorem runUpdate_issues {update : Program Body Unit} (issues : update.Issues Call.IsDrainCall) :
    (runUpdate update).Issues Call.IsDrainCall := by
  refine ⟨trivial, fun accepted => ?_⟩
  rcases accepted with rejected | accepted
  · trivial
  · exact issues.bind fun _ => trivial

theorem deliverRow_issues (row : OutboxRow) (attempts : Nat) :
    (deliverRow codec row attempts).Issues Call.IsDrainCall := by
  unfold deliverRow
  split
  · trivial
  · refine ⟨trivial, fun delivery => ?_⟩
    rcases delivery with message | delivered
    · trivial
    · exact runUpdate_issues (.perform trivial)

theorem recordFailure_issues (opts : DrainOptions) (now : Int)
    (row : OutboxRow) (attempts : Nat) (message : String) :
    (recordFailure opts now row attempts message :
      Program Body (Except String Bool)).Issues Call.IsDrainCall := by
  unfold recordFailure
  split
  · exact (runUpdate_issues (.perform trivial)).bind fun _ => trivial
  · split
    · trivial
    · exact (runUpdate_issues (.perform trivial)).bind fun _ => trivial

theorem drainRows_issues (opts : DrainOptions)
    (now : Int) (rows : List OutboxRow) (out : DrainResult) :
    (drainRows codec opts now rows out).Issues Call.IsDrainCall := by
  induction rows generalizing out with
  | nil => trivial
  | cons row rows ih =>
    apply (deliverRow_issues codec row (row.attempts + 1)).bind
    intro delivery
    split
    · exact ih _
    · apply (recordFailure_issues opts now row _ _).bind
      intro recorded
      split
      · trivial
      · exact ih _
      · exact ih _

theorem drain_issues (opts : DrainOptions) :
    ((Operation.drain opts).program codec).Issues Call.IsDrainCall := by
  apply Prog.Issues.bind
  · exact ⟨trivial, fun now => ⟨trivial, fun rows =>
      drainRows_issues codec opts now rows _⟩⟩
  · intro result
    trivial

/-- Every row of `before` is still there in `after`, finished as it was and
with no fewer attempts. -/
def World.RowsAdvance (before after : World) : Prop :=
  ∀ row ∈ before.table, ∃ current ∈ after.table, current.id = row.id ∧
    (row.status = .done → current.status = .done) ∧
    (row.status = .failed → current.status = .failed) ∧
    row.attempts ≤ current.attempts

namespace World.RowsAdvance

theorem of_table_eq {before after : World} (same : after.table = before.table) :
    before.RowsAdvance after := by
  intro row member
  exact ⟨row, same ▸ member, rfl, id, id, le_refl row.attempts⟩

theorem trans {first second third : World} (left : first.RowsAdvance second)
    (right : second.RowsAdvance third) : first.RowsAdvance third := by
  intro row member
  obtain ⟨middle, middleMem, middleId, middleDone, middleFailed, middleLe⟩ :=
    left row member
  obtain ⟨last, lastMem, lastId, lastDone, lastFailed, lastLe⟩ :=
    right middle middleMem
  refine ⟨last, lastMem, lastId.trans middleId, ?_, ?_, middleLe.trans lastLe⟩
  · exact fun finished => lastDone (middleDone finished)
  · exact fun finished => lastFailed (middleFailed finished)

/-- A status write that finds its row as read moves that row forward and
touches no other. -/
theorem setRow {world : World} {id : String} {attempts : Nat}
    {change : OutboxRow → OutboxRow} {keepsId : ∀ row, (change row).id = row.id}
    (asRead : world.RowAsRead id attempts)
    (writes : ∀ row, (change row).attempts = attempts) :
    world.RowsAdvance (world.setRow id change keepsId) := by
  intro row member
  by_cases named : row.id = id
  · obtain ⟨isPending, counted⟩ := asRead row member named
    refine ⟨change row, ?_, keepsId row, ?_, ?_, ?_⟩
    · exact World.mem_setRow.mpr (.inl ⟨row, member, named, rfl⟩)
    · simp [isPending]
    · simp [isPending]
    · rw [writes row]
      omega
  · refine ⟨row, ?_, rfl, fun same => same, fun same => same, le_rfl⟩
    exact World.mem_setRow.mpr (.inr ⟨member, named⟩)

/-- Each call of a drain that meets `FindsRowAsRead` moves the rows forward. -/
theorem call {request : Call Body} {answer : Answer Body request}
    {before after : World} (ofDrain : request.IsDrainCall)
    (found : FindsRowAsRead request before)
    (answers : (outboxMachine Body).Answers request before answer after) :
    before.RowsAdvance after := by
  cases request with
  | now | ulid now | selectDue now limit | deliver message | writeRow =>
    cases answers; exact of_table_eq rfl
  | insertOrIgnore row | deleteTerminal doneCutoff failedCutoff => exact ofDrain.elim
  | setDone id attempts | setFailed id attempts message | reschedule id attempts nextAt message =>
    cases answers; exact setRow found fun _ => rfl

end World.RowsAdvance

/-- Between any two states of one run, `done` and `failed` are absorbing and
attempt counts do not drop. -/
def TerminalStatesAbsorb (allowed : (outboxSignature Body).Call → World → Prop) (start : World) :
    Prop :=
  ∀ config later, (overlappingDrains codec).ReachableWhere allowed start config →
    (overlappingDrains codec).RunWhere allowed config later →
    config.world.RowsAdvance later.world

/-- Runs of overlapping drains in which every status write finds its row as
its own claim read it keep finished rows finished. -/
theorem terminalStatesAbsorb_of_findsRowAsRead (codec : JsonCodec Body) (start : World) :
    TerminalStatesAbsorb codec FindsRowAsRead start := by
  intro config later reached run
  let discipline := Discipline.ofIssues (overlappingDrains codec)
    fun _ => Call.IsDrainCall
  have programs : discipline.ProgramsRespect :=
    Discipline.ofIssues_programsRespect (drain_issues codec)
  have sound : discipline.Sound config :=
    (discipline.run_sound programs (discipline.sound_initial trivial) reached).2
  have steps := (discipline.run_sound programs sound run).1
  generalize later.world = final at steps
  induction steps with
  | refl => exact .of_table_eq rfl
  | tail _ step ih =>
    refine ih.trans ?_
    cases step with
    | call opts request answer _ found ofDrain answers =>
      exact .call ofDrain found answers
    | environment _ moves =>
      obtain ⟨clock, rfl⟩ := moves
      exact .of_table_eq rfl

/-- JSON with the single value `null`. -/
def nullCodec : JsonCodec Unit where
  stringify _ := .ok "null"
  parse text := if text = "null" then .ok () else .error "SyntaxError"
  parse_stringify written := by
    cases written
    exact ⟨(), rfl⟩

/-- A consumer that takes every message. -/
def accepting : (request : Call Unit) → Answer Unit request
  | .now => (0 : Int)
  | .ulid _ => "01J"
  | .insertOrIgnore _ => ()
  | .selectDue _ _ => []
  | .deliver _ => .ok ()
  | .writeRow => .ok ()
  | .setDone _ _ => ()
  | .setFailed _ _ _ => ()
  | .reschedule _ _ _ _ => ()
  | .deleteTerminal _ _ => (0 : Nat)

def rejecting : (request : Call Unit) → Answer Unit request
  | .deliver _ => .error "consumer down"
  | request => accepting request

def dueRow : OutboxRow where
  id := "01A"
  topic := "evt.task"
  payload := "null"
  status := .pending
  attempts := 0
  nextAttemptAt := 0
  createdAt := 0
  lastError := none

def oneDueRow : World where
  table := ⟨[dueRow], by simp⟩
  clock := 0
  history := []

def singleAttempt : DrainOptions where
  maxAttempts := some 1

/-- Two drains claim the one due row, and the second delivers it. -/
def claimTwiceDeliverOnce : List (Move (outboxSignature Unit) World DrainOptions) :=
  [.start singleAttempt, .start singleAttempt,
    .call 0 accepting, .call 0 accepting, .call 1 accepting, .call 1 accepting,
    .call 0 accepting, .call 0 accepting, .call 0 accepting]

/-- The first drain's delivery then fails, and it gives the row up. -/
def failLate : List (Move (outboxSignature Unit) World DrainOptions) :=
  [.call 1 rejecting, .call 1 rejecting, .call 1 rejecting]

theorem not_terminalStatesAbsorb : ¬ TerminalStatesAbsorb nullCodec anyCall oneDueRow := by
  intro absorbs
  let referee := openReferee (overlappingDrains nullCodec) fun _ _ => trivial
  obtain ⟨middle, final, reached, run, finished⟩ :=
    referee.exists_run_of_play claimTwiceDeliverOnce failLate oneDueRow (fun before after =>
        before.table.rows.any (fun row => row.status = .done) &&
          after.table.rows.all (fun row => row.status = .failed))
      (by simp [claimTwiceDeliverOnce, failLate]) (by decide)
  simp only [Bool.and_eq_true, List.any_eq_true, List.all_eq_true, decide_eq_true_eq] at finished
  obtain ⟨⟨row, member, isDone⟩, allFailed⟩ := finished
  obtain ⟨current, currentMem, -, staysDone, -⟩ :=
    absorbs middle final reached run row member
  have isFailed := allFailed current currentMem
  rw [staysDone isDone] at isFailed
  cases isFailed

end DubEcosystem.Freeq
