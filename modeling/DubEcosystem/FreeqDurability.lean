import DubEcosystem.FreeqSoleDrainer
import DubEcosystem.FreeqOverlappingDrains

/-!
# Durability of the freeq outbox

The programs of the outbox obey the discipline of a sole drainer, so every
state of every run accounts for each message ever inserted: it is in the table
with its columns unchanged, or it was finished before the retention job took
it.
-/

namespace DubEcosystem.Freeq

open Interleaving List

variable {Body : Type}

theorem World.due_claims (world : World) (now : Int) (limit : Nat) :
    ((world.due now limit).map OutboxRow.id).Nodup ∧
      ∀ row ∈ world.due now limit, row ∈ world.table ∧ row.status = .pending := by
  constructor
  · have selected : ((world.table.rows.filter fun row =>
        row.status = .pending ∧ row.nextAttemptAt ≤ now).map OutboxRow.id).Nodup :=
      world.table.keysNodup.sublist (filter_sublist.map OutboxRow.id)
    have sorted := ((perm_insertionSort
      (fun first second => first.nextAttemptAt ≤ second.nextAttemptAt)
      _).map OutboxRow.id).nodup_iff.mpr selected
    exact sorted.sublist ((take_sublist limit _).map OutboxRow.id)
  · intro row member
    have sorted := mem_of_mem_take member
    rw [mem_insertionSort] at sorted
    simpa [KeyedTable.mem_def] using (mem_filter.mp sorted).imp_right fun selected =>
        (of_decide_eq_true selected).1

/-- The rows a drain has still to work on: each is in the table as it was
claimed. -/
def World.Claims (world : World) (rows : List OutboxRow) : Prop :=
  ∀ row ∈ rows, row ∈ world.table ∧ row.status = .pending

variable {rows : List OutboxRow}

theorem World.Claims.keep {before after : World}
    (claims : before.Claims rows) (moves : KeepsPending before after) :
    after.Claims rows := by
  intro row member
  obtain ⟨inTable, isPending⟩ := claims row member
  exact ⟨(moves row inTable isPending).1, isPending⟩

/-- The status write of one row leaves the other claimed rows alone. -/
theorem World.Claims.setRow {world : World} (claims : world.Claims rows) {id : String}
    {change : OutboxRow → OutboxRow} {keepsId : ∀ row, (change row).id = row.id}
    (others : ∀ row ∈ rows, row.id ≠ id) :
    (world.setRow id change keepsId).Claims rows := by
  intro row member
  obtain ⟨inTable, isPending⟩ := claims row member
  exact ⟨World.mem_setRow.mpr (.inr ⟨inTable, others row member⟩), isPending⟩

section Programs

variable (codec : JsonCodec Body) {maxAttempts : Nat}

def soleDrainerDiscipline (positive : 0 < maxAttempts) :
    Discipline (soleDrainer codec maxAttempts) where
  inv := OutboxInv codec maxAttempts
  pre := Precondition codec maxAttempts
  evolves _ _ := True
  rely op before after := op.isDrain = true → KeepsPending before after
  coexist op other := op.isDrain = true → other.isDrain = false
  rely_refl _ world _ := .refl world
  rely_trans left right isDrain := (left isDrain).trans (right isDrain)
  call_sound {op request before answer after} inv pre answers := by
    cases op with
    | enqueue topic payload opts =>
      obtain ⟨movedInv, kept, -⟩ := enqueue_call_sound answers inv positive pre
      exact ⟨movedInv, trivial, fun _ _ _ => kept⟩
    | prune opts =>
      obtain ⟨movedInv, kept⟩ := prune_call_sound answers inv pre
      exact ⟨movedInv, trivial, fun _ _ _ => kept⟩
    | drain opts =>
      refine ⟨drain_call_sound answers inv pre, trivial, ?_⟩
      intro other alone isDrain
      rw [alone rfl] at isDrain
      cases isDrain
  environment_sound inv moves := by
    obtain ⟨clock, -, rfl⟩ := moves
    exact ⟨⟨inv.rows, inv.accounted, inv.pruned⟩, trivial, fun _ _ _ member _ => ⟨member, rfl⟩⟩
  start_sound startable other member :=
    ⟨fun isDrain => startable.2 isDrain other member, fun otherDrain => by
      by_contra isDrain
      rw [Bool.not_eq_false] at isDrain
      rw [startable.2 isDrain other member] at otherDrain
      cases otherDrain⟩

variable (positive : 0 < maxAttempts)

theorem insert_respects (topic : String) (payload : Body) (opts : EnqueueOptions) (now : Int)
    (id : String) (world : World) : (soleDrainerDiscipline codec positive).Respects
      (.enqueue topic payload opts)
      (match codec.stringify payload with
      | .error message => pure (.error message)
      | .ok text => do
        perform (.insertOrIgnore
          { id, topic, payload := text, status := .pending, attempts := 0
            nextAttemptAt := now, createdAt := now, lastError := none })
        pure (.ok id) : Program Body (Except String String))
      (fun _ _ => True) world := by
  split
  · exact fun _ _ _ => trivial
  · rename_i text written
    exact fun _ _ _ => ⟨⟨rfl, rfl, codec.parse_stringify written⟩, fun _ _ _ _ _ _ _ _ => trivial⟩

theorem enqueue_respects (topic : String) (payload : Body) (opts : EnqueueOptions) (world : World) :
    (soleDrainerDiscipline codec positive).Respects
      (.enqueue topic payload opts) (enqueue codec topic payload opts)
      (fun _ _ => True) world := by
  intro later _ _
  refine ⟨trivial, fun now moved _ _ _ => ?_⟩
  cases opts.id with
  | some id => exact insert_respects codec positive topic payload opts now id moved
  | none =>
    exact fun _ _ _ => ⟨trivial, fun id moved _ _ _ =>
      insert_respects codec positive topic payload opts now id moved⟩

theorem pruneOutbox_respects (opts : PruneOptions) (world : World) :
    (soleDrainerDiscipline codec positive).Respects (.prune opts)
      (pruneOutbox opts) (fun _ _ => True) world := by
  intro later _ _
  refine ⟨trivial, fun now moved _ _ _ => ?_⟩
  exact fun _ _ _ => ⟨trivial, fun _ _ _ _ _ _ _ _ => trivial⟩

section Drain

variable {codec} {positive} {opts : DrainOptions} {row : OutboxRow} {world : World}

/-- The drain holds its claims, and the consumer's last answer for `row` is not
written yet. -/
structure World.Failing (world : World) (row : OutboxRow) (rows : List OutboxRow) : Prop where
  claims : world.Claims (row :: rows)
  awaiting : (deliveryLog row.id world.history).awaiting = true

theorem World.Failing.keep {before after : World}
    (failing : before.Failing row rows) (moves : KeepsPending before after) :
    after.Failing row rows := by
  obtain ⟨inTable, isPending⟩ := failing.claims row (by simp)
  refine ⟨failing.claims.keep moves, ?_⟩
  rw [(moves row inTable isPending).2]
  exact failing.awaiting

theorem World.Failing.attempted (failing : world.Failing row rows) :
    world.Attempted row.id (row.attempts + 1) := by
  obtain ⟨inTable, isPending⟩ := failing.claims row (by simp)
  exact ⟨⟨row, inTable, rfl, isPending, rfl⟩, failing.awaiting⟩

theorem World.Claims.tail (claims : world.Claims (row :: rows)) : world.Claims rows :=
  fun other member => claims other (mem_cons_of_mem row member)

theorem others_of_nodup (nodup : ((row :: rows).map OutboxRow.id).Nodup) :
    ∀ other ∈ rows, other.id ≠ row.id := by
  intro other member equal
  rw [map_cons, nodup_cons] at nodup
  exact nodup.1 (equal ▸ mem_map_of_mem member)

/-- A status write is accepted and then obeys its own precondition, or it is
rejected and nothing has changed. -/
theorem runUpdate_respects {update : Program Body Unit} (post : Except String Unit → World → Prop)
    (written : ∀ later, KeepsPending world later →
      (soleDrainerDiscipline codec positive).Respects (.drain opts)
        (update >>= fun _ => pure (.ok ())) post later)
    (rejected : ∀ message later, KeepsPending world later → post (.error message) later) :
    (soleDrainerDiscipline codec positive).Respects (.drain opts)
      (runUpdate update) post world := by
  intro later _ moves
  refine ⟨trivial, fun accepted moved answers _ _ => ?_⟩
  cases answers
  rcases accepted with message | accepted
  · intro final _ further
    exact rejected message final ((moves rfl).trans (further rfl))
  · exact written later (moves rfl)

theorem deliverRow_respects (nodup : ((row :: rows).map OutboxRow.id).Nodup)
    (claims : world.Claims (row :: rows)) :
    (soleDrainerDiscipline codec positive).Respects (.drain opts)
      (deliverRow codec row (row.attempts + 1))
      (fun outcome later =>
        match outcome with
        | .ok () => later.Claims rows
        | .error _ => later.Failing row rows) world := by
  apply Discipline.respects_of_later
  intro middle inv moves
  have held : middle.Claims (row :: rows) := claims.keep (moves rfl)
  obtain ⟨inTable, -⟩ := held row (by simp)
  obtain ⟨body, decodes⟩ := (inv.rows row inTable).decodes
  simp only [deliverRow, decodes]
  intro later _ moves
  refine ⟨trivial, fun delivery delivering answers _ _ => ?_⟩
  have stillHeld : later.Claims (row :: rows) := held.keep (moves rfl)
  obtain rfl : delivering =
      { later with
        history := .delivered row.id (Except.isOk delivery) :: later.history } :=
    answers
  have failing : World.Failing
      { later with
        history := .delivered row.id (Except.isOk delivery) :: later.history }
      row rows :=
    ⟨stillHeld, by simp [deliveryLog, DeliveryLog.deliver]⟩
  rcases delivery with message | delivered
  · intro final _ further
    exact failing.keep (further rfl)
  · apply runUpdate_respects _
    · intro before kept final _ further
      have ready := (failing.keep kept).keep (further rfl)
      have returned : (deliveryLog row.id final.history).returned = true := by
        have keeps := kept.trans (further rfl)
        obtain ⟨present, isPending⟩ := failing.claims row (by simp)
        rw [(keeps row present isPending).2]
        simp [deliveryLog, DeliveryLog.deliver, Except.isOk, Except.toBool]
      refine ⟨⟨ready.attempted, returned⟩, fun _ moved answers _ _ => ?_⟩
      cases answers
      intro last _ lastMoves
      exact (ready.claims.tail.setRow (others_of_nodup nodup)).keep (lastMoves rfl)
    · intro message later kept
      exact failing.keep kept

section

variable (limit : opts.maxAttempts.getD defaultMaxAttempts = maxAttempts)
include limit

theorem recordFailure_respects (nodup : ((row :: rows).map OutboxRow.id).Nodup)
    (failing : world.Failing row rows) (now : Int) (message : String) :
    (soleDrainerDiscipline codec positive).Respects (.drain opts)
      (recordFailure opts now row (row.attempts + 1) message)
      (fun _ later => later.Claims rows) world := by
  have written : ∀ {before after : World} {change keepsId}, before.Failing row rows →
      KeepsPending (before.setRow row.id change keepsId) after →
      after.Claims rows := fun ready moves =>
    (ready.claims.tail.setRow (others_of_nodup nodup)).keep moves
  unfold recordFailure
  rw [limit]
  split
  · rename_i exhausted
    apply Discipline.Respects.bind
    · apply runUpdate_respects fun _ later => later.Claims rows
      · intro before kept final _ further
        have ready := (failing.keep kept).keep (further rfl)
        refine ⟨⟨ready.attempted, exhausted⟩, fun _ moved answers _ _ => ?_⟩
        cases answers
        exact fun last _ lastMoves => written ready (lastMoves rfl)
      · exact fun _ later kept => (failing.keep kept).claims.tail
    · exact fun _ later _ claims last _ moves => claims.keep (moves rfl)
  · rename_i below
    split
    · exact fun later _ moves => (failing.keep (moves rfl)).claims.tail
    · apply Discipline.Respects.bind
      · apply runUpdate_respects fun _ later => later.Claims rows
        · intro before kept final _ further
          have ready := (failing.keep kept).keep (further rfl)
          refine ⟨⟨ready.attempted, Nat.lt_of_not_le below⟩, fun _ moved answers _ _ => ?_⟩
          cases answers
          exact fun last _ lastMoves => written ready (lastMoves rfl)
        · exact fun _ later kept => (failing.keep kept).claims.tail
      · exact fun _ later _ claims last _ moves => claims.keep (moves rfl)

/-- The loop over the claimed rows: each round works on the first claim and
leaves the others as they were claimed. -/
theorem drainRows_respects (nodup : (rows.map OutboxRow.id).Nodup) (claims : world.Claims rows)
    (now : Int) (out : DrainResult) :
    (soleDrainerDiscipline codec positive).Respects (.drain opts)
      (drainRows codec opts now rows out) (fun _ _ => True) world := by
  induction rows generalizing world out with
  | nil => exact fun _ _ _ => trivial
  | cons row rows ih =>
    have restNodup : (rows.map OutboxRow.id).Nodup :=
      (nodup_cons.mp nodup).2
    apply (deliverRow_respects nodup claims).bind
    intro delivery middle _ outcome
    rcases delivery with message | delivered
    · apply (recordFailure_respects limit nodup outcome now message).bind
      intro recorded later _ rest
      rcases recorded with thrown | retried
      · exact fun _ _ _ => trivial
      · cases retried with
        | true | false => exact ih restNodup rest _
    · exact ih restNodup outcome _

theorem drain_respects : (soleDrainerDiscipline codec positive).Respects (.drain opts)
      (drain codec opts) (fun _ _ => True) world := by
  intro later _ _
  refine ⟨trivial, fun now moved _ _ _ => ?_⟩
  intro selecting _ _
  refine ⟨trivial, fun due claimed answers _ _ => ?_⟩
  cases answers
  obtain ⟨nodup, claims⟩ := selecting.due_claims now (opts.batchSize.getD defaultBatch)
  exact drainRows_respects limit nodup claims now _

end

end Drain

theorem soleDrainer_programsRespect : (soleDrainerDiscipline codec positive).ProgramsRespect := by
  intro running op world startable _
  cases op with
  | enqueue topic payload opts =>
    exact (enqueue_respects codec positive topic payload opts world).bind
      fun _ _ _ _ _ _ _ => trivial
  | prune opts =>
    exact (pruneOutbox_respects codec positive opts world).bind fun _ _ _ _ _ _ _ => trivial
  | drain opts =>
    exact (drain_respects (startable.1 opts rfl)).bind fun _ _ _ _ _ _ _ => trivial

end Programs

/-- An outbox that nothing was inserted in yet. -/
def World.unused (clock : Int) : World := ⟨.empty, clock, []⟩

/-- What the outbox promises its producers. -/
structure Durable (maxAttempts : Nat) (world : World) : Prop where
  kept : ∀ later origin earlier,
    world.history = later ++ .inserted origin :: earlier →
      (∃ row ∈ world.table, SameMessage row origin) ∨
        ∃ row, .pruned row ∈ later ∧ SameMessage row origin ∧
          (row.status = .done ∨ row.status = .failed)
  finished : ∀ row, .pruned row ∈ world.history →
    row.status = .done ∨ row.status = .failed
  done : ∀ row ∈ world.table, row.status = .done →
    (deliveryLog row.id world.history).returned = true
  failed : ∀ row ∈ world.table, row.status = .failed →
    (deliveryLog row.id world.history).completed = maxAttempts

theorem status_of_ne_pending {row : OutboxRow} (ne : row.status ≠ .pending) :
    row.status = .done ∨ row.status = .failed := by
  cases status : row.status with
  | pending => exact (ne status).elim
  | done => exact .inl rfl
  | failed => exact .inr rfl

theorem OutboxInv.durable {codec : JsonCodec Body} {maxAttempts : Nat}
    {world : World} (inv : OutboxInv codec maxAttempts world) :
    Durable maxAttempts world where
  kept later origin earlier split := by
    rcases inv.accounted later origin earlier split with
      present | ⟨row, prunedMem, same, unfinished⟩
    · exact .inl present
    · exact .inr ⟨row, prunedMem, same, status_of_ne_pending unfinished⟩
  finished row member := status_of_ne_pending (inv.pruned row member)
  done row member isDone := (inv.rows row member).done isDone
  failed row member isFailed := by
    have agrees := inv.rows row member
    rw [← agrees.attempts]
    exact agrees.failed isFailed

theorem OutboxInv.unused (codec : JsonCodec Body) (maxAttempts : Nat)
    (clock : Int) : OutboxInv codec maxAttempts (World.unused clock) where
  rows row member := (KeyedTable.notMem_empty row member).elim
  accounted later origin earlier split := by
    have empty : ([] : List Event) = later ++ .inserted origin :: earlier := split
    simp at empty
  pruned row member := by
    have empty : Event.pruned row ∈ ([] : List Event) := member
    simp at empty

theorem pending_kept_of_answers {request : Call Body}
    {answer : Answer Body request} {before after : World}
    (answers : (outboxMachine Body).Answers request before answer after)
    {row : OutboxRow} (member : row ∈ before.table)
    (isPending : row.status = .pending) :
    ∃ current ∈ after.table, SameMessage current row := by
  have written : ∀ {id change keepsId}, (∀ old, SameMessage (change old) old) →
      ∃ current ∈ (before.setRow id change keepsId).table,
        SameMessage current row := by
    intro id change keepsId same
    by_cases named : row.id = id
    · exact ⟨change row, World.mem_setRow.mpr (.inl ⟨row, member, named, rfl⟩), same row⟩
    · exact ⟨row, World.mem_setRow.mpr (.inr ⟨member, named⟩), .refl row⟩
  cases request with
  | now | ulid now | selectDue now limit | deliver message | writeRow =>
    cases answers; exact ⟨row, member, .refl row⟩
  | setDone id attempts | setFailed id attempts message | reschedule id attempts nextAt message =>
    cases answers
    exact written fun _ => ⟨rfl, rfl, rfl, rfl⟩
  | deleteTerminal doneCutoff failedCutoff =>
    cases answers
    exact ⟨row, (KeepsPending.prune before doneCutoff failedCutoff row member
      isPending).1, .refl row⟩
  | insertOrIgnore incoming =>
    simp only [Machine.Answers, outboxMachine, exec] at answers
    cases success : before.table.insert? incoming with
    | none =>
      simp only [success] at answers
      cases answers
      exact ⟨row, member, .refl row⟩
    | some inserted =>
      simp only [success] at answers
      cases answers
      exact ⟨row, (KeyedTable.mem_insert? success).mpr (.inl member), .refl row⟩

/-- Every state of every run is durable, no step takes away a pending row, and
no call of an `enqueue`, whatever id it was given, touches a row that is
there. -/
theorem outbox_durable (codec : JsonCodec Body) {maxAttempts : Nat}
    (positive : 0 < maxAttempts) {clock : Int}
    {config : Config (outboxSignature Body) World (Operation Body)}
    (reached : (soleDrainer codec maxAttempts).Reachable (.unused clock) config) :
    Durable maxAttempts config.world ∧
    (∀ next, (soleDrainer codec maxAttempts).Step anyCall config next →
      ∀ row ∈ config.world.table, row.status = .pending →
        ∃ current ∈ next.world.table, SameMessage current row) ∧
    (∀ topic payload opts request rest before after answer moved, config.threads =
        before ++ (.enqueue topic payload opts, .call request rest) :: after →
      (outboxMachine Body).Answers request config.world answer moved →
        ∀ row ∈ config.world.table, row ∈ moved.table) := by
  let discipline := soleDrainerDiscipline codec positive
  have initial : discipline.Sound ⟨World.unused clock, []⟩ :=
    discipline.sound_initial (.unused codec maxAttempts clock)
  have sound : discipline.Sound config :=
    (discipline.run_sound (soleDrainer_programsRespect codec positive) initial reached).2
  have inv : OutboxInv codec maxAttempts config.world := sound.inv
  refine ⟨inv.durable, ?_, ?_⟩
  · intro next step row member isPending
    cases step with
    | start op startable | stop thread => exact ⟨row, member, .refl row⟩
    | environment moves =>
      obtain ⟨clock, -, rfl⟩ := moves
      exact ⟨row, member, .refl row⟩
    | call op request rest answer moved permitted answers =>
      exact pending_kept_of_answers answers member isPending
  · intro topic payload opts request rest before after answer moved threads answers
    have obeys := sound.respects (.enqueue topic payload opts, .call request rest)
      (by simp [threads])
    have pre := (obeys config.world inv (discipline.rely_refl _ _)).1
    exact (enqueue_call_sound answers inv positive pre).2.2

/-- The starts that `soleDrainer` admits, with JSON null for every body. -/
def soleReferee (maxAttempts : Nat) : Referee (soleDrainer nullCodec maxAttempts) anyCall where
  mayCall _ _ := true
  mayStart running op :=
    match op with
    | .drain opts =>
      opts.maxAttempts.getD defaultMaxAttempts = maxAttempts &&
        running.all fun other => !other.isDrain
    | _ => true
  allowed_of_mayCall _ := trivial
  startable_of_mayStart {running op} permitted := by
    cases op with
    | enqueue topic payload opts | prune opts => exact ⟨by rintro _ ⟨⟩, by rintro ⟨⟩⟩
    | drain opts =>
      simp only [Bool.and_eq_true, decide_eq_true_eq, all_eq_true, Bool.not_eq_true'] at permitted
      refine ⟨?_, fun _ other member => permitted.2 other member⟩
      rintro _ ⟨⟩
      exact permitted.1

/-- One message is enqueued, and the consumer refuses it once. -/
def enqueueThenRefuse : List (Move (outboxSignature Unit) World (Operation Unit)) :=
  [.start (.enqueue "evt.task" () { id := some "01A" }), .call 0 accepting, .call 0 accepting,
    .start (.drain singleAttempt),
    .call 0 accepting, .call 0 accepting, .call 0 rejecting, .call 0 rejecting,
    .call 0 rejecting]

theorem outbox_durable_refused : ∃ config, (soleDrainer nullCodec 1).Reachable (.unused 0) config ∧
      ∃ row ∈ config.world.table, row.status = .failed ∧
        (deliveryLog row.id config.world.history).completed = 1 := by
  obtain ⟨config, reached, refused⟩ :=
    (soleReferee 1).exists_reachable_of_play enqueueThenRefuse (.unused 0)
      (fun world => world.table.rows.any fun row => row.status = .failed)
      (by simp [enqueueThenRefuse]) (by decide)
  simp only [any_eq_true, decide_eq_true_eq] at refused
  obtain ⟨row, member, isFailed⟩ := refused
  refine ⟨config, reached, row, member, isFailed, ?_⟩
  exact (outbox_durable nullCodec (by decide) reached).1.failed row member isFailed

end DubEcosystem.Freeq
