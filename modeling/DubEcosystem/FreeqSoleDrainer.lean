import DubEcosystem.FreeqOutbox

/-!
# One drain at a time

A deployment drains each outbox from a single alarm, so that no two drains
overlap; producers and the retention job run beside it.  Under that regime a
row a drain has claimed stays as it is until the drain itself writes it.  The
discipline below turns this into an invariant that ties every row to the
deliver calls made for it.
-/

namespace DubEcosystem.Freeq

open Interleaving KeyedTable List

variable {Body : Type}

/-- What the consumer has seen of one row since the row was inserted:
`awaiting` while the outcome of the last deliver call is not written yet,
`completed` deliver calls whose outcome was written, and whether any call
`returned` normally. -/
structure DeliveryLog where
  awaiting : Bool
  completed : Nat
  returned : Bool

def DeliveryLog.fresh : DeliveryLog := ⟨false, 0, false⟩

def DeliveryLog.deliver (log : DeliveryLog) (returned : Bool) : DeliveryLog :=
  { log with awaiting := true, returned := log.returned || returned }

def DeliveryLog.record (log : DeliveryLog) : DeliveryLog :=
  { log with
    awaiting := false
    completed := if log.awaiting then log.completed + 1 else log.completed }

def deliveryLog (id : String) : List Event → DeliveryLog
  | [] => .fresh
  | .inserted row :: earlier =>
    if row.id = id then .fresh else deliveryLog id earlier
  | .delivered other returned :: earlier =>
    if other = id then (deliveryLog id earlier).deliver returned
    else deliveryLog id earlier
  | .recorded other :: earlier =>
    if other = id then (deliveryLog id earlier).record
    else deliveryLog id earlier
  | .pruned _ :: earlier => deliveryLog id earlier

theorem deliveryLog_pruned (id : String) (deleted : List OutboxRow) (history : List Event) :
    deliveryLog id (deleted.map .pruned ++ history) = deliveryLog id history := by
  induction deleted with
  | nil => rfl
  | cons row deleted ih => exact ih

/-- The columns that no statement of the outbox assigns. -/
structure SameMessage (row origin : OutboxRow) : Prop where
  id : row.id = origin.id
  topic : row.topic = origin.topic
  payload : row.payload = origin.payload
  createdAt : row.createdAt = origin.createdAt

theorem SameMessage.refl (row : OutboxRow) : SameMessage row row :=
  ⟨rfl, rfl, rfl, rfl⟩

theorem SameMessage.trans {first second third : OutboxRow}
    (left : SameMessage first second) (right : SameMessage second third) :
    SameMessage first third :=
  ⟨left.id.trans right.id, left.topic.trans right.topic,
    left.payload.trans right.payload, left.createdAt.trans right.createdAt⟩

/-- The message inserted as `origin` is still in the table, or the retention
job took it after it was finished. -/
def Accounted (table : OutboxTable) (later : List Event) (origin : OutboxRow) : Prop :=
  (∃ row ∈ table, SameMessage row origin) ∨
    ∃ row, .pruned row ∈ later ∧ SameMessage row origin ∧ row.status ≠ .pending

/-- Producers, drains and the retention job over one outbox; at most one drain
is in flight, every drain gives up after the same number of attempts, and the
clock does not go back. -/
def soleDrainer (codec : JsonCodec Body) (maxAttempts : Nat) :
    System (outboxSignature Body) World (Operation Body) where
  toMachine := outboxMachine Body
  program := Operation.program codec
  startable running op :=
    (∀ opts, op = .drain opts → opts.maxAttempts.getD defaultMaxAttempts = maxAttempts) ∧
    (op.isDrain = true → ∀ other ∈ running, other.isDrain = false)
  environment before after :=
    ∃ clock, before.clock ≤ clock ∧ after = { before with clock := clock }

section Invariant

variable (codec : JsonCodec Body) (maxAttempts : Nat)

structure RowAgrees (log : DeliveryLog) (row : OutboxRow) : Prop where
  decodes : ∃ body, codec.parse row.payload = .ok body
  attempts : row.attempts = log.completed
  pending : row.status = .pending → row.attempts < maxAttempts
  failed : row.status = .failed → row.attempts = maxAttempts
  done : row.status = .done → log.returned = true

structure OutboxInv (world : World) : Prop where
  rows : ∀ row ∈ world.table,
    RowAgrees codec maxAttempts (deliveryLog row.id world.history) row
  accounted : ∀ later origin earlier,
    world.history = later ++ .inserted origin :: earlier → Accounted world.table later origin
  pruned : ∀ row, .pruned row ∈ world.history → row.status ≠ .pending

end Invariant

/-- Where an event other than an insertion was prepended, a split of the
history at an insertion is a split of the older history. -/
theorem split_at_inserted {recent history later earlier : List Event}
    {origin : OutboxRow} (noInsert : ∀ row, .inserted row ∉ recent)
    (split : recent ++ history = later ++ .inserted origin :: earlier) :
    ∃ middle, later = recent ++ middle ∧ history = middle ++ .inserted origin :: earlier := by
  rcases append_eq_append_iff.mp split with
    ⟨middle, laterEq, historyEq⟩ | ⟨middle, recentEq, consEq⟩
  · exact ⟨middle, laterEq, historyEq⟩
  · cases middle with
    | nil =>
      refine ⟨[], by simpa using recentEq.symm, ?_⟩
      simpa using consEq.symm
    | cons event middle =>
      have eventEq : Event.inserted origin = event := (List.cons.inj consEq).1
      exact (noInsert origin (by simp [recentEq, eventEq])).elim

theorem accounted_append {before after : OutboxTable} (recent : List Event) {history : List Event}
    (old : ∀ later origin earlier, history = later ++ .inserted origin :: earlier →
        Accounted before later origin)
    (noInsert : ∀ row, .inserted row ∉ recent)
    (kept : ∀ row ∈ before, (∃ current ∈ after, SameMessage current row) ∨
      (.pruned row ∈ recent ∧ row.status ≠ .pending)) :
    ∀ later origin earlier, recent ++ history = later ++ .inserted origin :: earlier →
        Accounted after later origin := by
  intro later origin earlier split
  obtain ⟨middle, rfl, historyEq⟩ := split_at_inserted noInsert split
  rcases old middle origin earlier historyEq with
    ⟨row, member, same⟩ | ⟨row, prunedMem, same, finished⟩
  · rcases kept row member with ⟨current, currentMem, currentSame⟩ | ⟨gone, finished⟩
    · exact .inl ⟨current, currentMem, currentSame.trans same⟩
    · exact .inr ⟨row, by simp [gone], same, finished⟩
  · exact .inr ⟨row, by simp [prunedMem], same, finished⟩

namespace OutboxInv

variable {codec : JsonCodec Body} {maxAttempts : Nat} {world : World}

theorem insert (inv : OutboxInv codec maxAttempts world) {row : OutboxRow}
    {inserted : OutboxTable} (success : world.table.insert? row = some inserted)
    (isPending : row.status = .pending) (unattempted : row.attempts = 0)
    (positive : 0 < maxAttempts)
    (decodes : ∃ body, codec.parse row.payload = .ok body) :
    OutboxInv codec maxAttempts
      { world with table := inserted, history := .inserted row :: world.history } where
  rows other member := by
    rcases (mem_insert? success).mp member with old | rfl
    · have distinct : row.id ≠ other.id :=
        ((insert?_eq_some success).2 other old).symm
      simpa [deliveryLog, distinct] using inv.rows other old
    · constructor
      · exact decodes
      · simp [deliveryLog, DeliveryLog.fresh, unattempted]
      · intro _
        omega
      · simp [isPending]
      · simp [isPending]
  accounted later origin earlier split := by
    have kept : ∀ other ∈ world.table, other ∈ inserted := fun other member =>
      (mem_insert? success).mpr (.inl member)
    cases later with
    | nil =>
      obtain ⟨rfl, -⟩ : row = origin ∧ world.history = earlier := by
        simpa using split
      exact .inl ⟨row, (mem_insert? success).mpr (.inr rfl), .refl row⟩
    | cons event later =>
      obtain ⟨rfl, historyEq⟩ := List.cons.inj split
      rcases inv.accounted later origin earlier historyEq with
        ⟨other, member, same⟩ | ⟨other, prunedMem, same, finished⟩
      · exact .inl ⟨other, kept other member, same⟩
      · exact .inr ⟨other, by simp [prunedMem], same, finished⟩
  pruned other member := by
    rcases mem_cons.mp member with equal | old
    · cases equal
    · exact inv.pruned other old

theorem prune (inv : OutboxInv codec maxAttempts world) (doneCutoff failedCutoff : Int) :
    OutboxInv codec maxAttempts
      { world with
        table := world.table.deleteWhere (isPruned doneCutoff failedCutoff)
        history := (world.table.rows.filter
          (isPruned doneCutoff failedCutoff)).map .pruned ++ world.history } where
  rows row member := by
    have old := (mem_deleteWhere.mp member).1
    rw [deliveryLog_pruned]
    exact inv.rows row old
  accounted := by
    apply accounted_append _ inv.accounted
    · simp
    · intro row member
      by_cases selected : isPruned doneCutoff failedCutoff row = true
      · right
        refine ⟨?_, finished_of_isPruned selected⟩
        exact mem_map_of_mem (mem_filter.mpr ⟨member, selected⟩)
      · left
        refine ⟨row, ?_, .refl row⟩
        exact mem_deleteWhere.mpr ⟨member, by simpa using selected⟩
  pruned row member := by
    rcases mem_append.mp member with recent | old
    · obtain ⟨deleted, deletedMem, equal⟩ := List.mem_map.mp recent
      cases equal
      exact finished_of_isPruned (mem_filter.mp deletedMem).2
    · exact inv.pruned row old

theorem deliver (inv : OutboxInv codec maxAttempts world) (id : String) (returned : Bool) :
    OutboxInv codec maxAttempts
      { world with history := .delivered id returned :: world.history } where
  rows row member := by
    have agrees := inv.rows row member
    by_cases named : id = row.id
    · subst named
      simp only [deliveryLog, if_true]
      exact ⟨agrees.decodes, agrees.attempts, agrees.pending, agrees.failed,
        fun isDone => by simp [DeliveryLog.deliver, agrees.done isDone]⟩
    · simpa [deliveryLog, named] using agrees
  accounted := by
    apply accounted_append [.delivered id returned] inv.accounted (by simp)
    intro row member
    exact .inl ⟨row, member, .refl row⟩
  pruned row member := by
    rcases mem_cons.mp member with equal | old
    · cases equal
    · exact inv.pruned row old

end OutboxInv

/-- A drain is about to write the outcome of attempt `attempts` on the row
`id`, which is in the table as the drain claimed it. -/
structure World.Attempted (world : World) (id : String) (attempts : Nat) : Prop where
  claimed : ∃ row ∈ world.table, row.id = id ∧ row.status = .pending ∧
    row.attempts + 1 = attempts
  awaiting : (deliveryLog id world.history).awaiting = true

theorem OutboxInv.setRow {codec : JsonCodec Body} {maxAttempts : Nat}
    {world : World} (inv : OutboxInv codec maxAttempts world) {id : String}
    {attempts : Nat} {change : OutboxRow → OutboxRow}
    {keepsId : ∀ row, (change row).id = row.id}
    (attempted : world.Attempted id attempts)
    (same : ∀ row, SameMessage (change row) row)
    (counted : ∀ row, (change row).attempts = attempts)
    (justified : ∀ row, row.status = .pending →
      ((change row).status = .pending → attempts < maxAttempts) ∧
      ((change row).status = .failed → attempts = maxAttempts) ∧
      ((change row).status = .done → (deliveryLog id world.history).returned = true)) :
    OutboxInv codec maxAttempts (world.setRow id change keepsId) where
  rows row member := by
    have recorded : (world.setRow id change keepsId).history = .recorded id :: world.history := rfl
    rcases World.mem_setRow.mp member with ⟨old, oldMem, rfl, rfl⟩ | ⟨oldMem, other⟩
    · obtain ⟨claim, claimMem, claimId, isPending, counts⟩ := attempted.claimed
      obtain rfl : claim = old := eq_of_key_eq claimMem oldMem claimId
      have agrees := inv.rows claim oldMem
      obtain ⟨keepsPending, gaveUp, delivered⟩ := justified claim isPending
      have logEq : deliveryLog (change claim).id (world.setRow claim.id change keepsId).history =
            (deliveryLog claim.id world.history).record := by
        simp [recorded, deliveryLog, (same claim).id]
      rw [logEq]
      constructor
      · rw [(same claim).payload]
        exact agrees.decodes
      · have completed := agrees.attempts
        simp only [DeliveryLog.record, attempted.awaiting, if_true]
        rw [counted claim]
        omega
      · rw [counted claim]
        exact keepsPending
      · rw [counted claim]
        exact gaveUp
      · exact delivered
    · have untouched : deliveryLog row.id (world.setRow id change keepsId).history =
            deliveryLog row.id world.history := by
        simp [recorded, deliveryLog, Ne.symm other]
      rw [untouched]
      exact inv.rows row oldMem
  accounted := by
    apply accounted_append [.recorded id] inv.accounted (by simp)
    intro row member
    left
    by_cases named : row.id = id
    · exact ⟨change row, World.mem_setRow.mpr (.inl ⟨row, member, named, rfl⟩), same row⟩
    · exact ⟨row, World.mem_setRow.mpr (.inr ⟨member, named⟩), .refl row⟩
  pruned row member := by
    rcases mem_cons.mp member with equal | old
    · cases equal
    · exact inv.pruned row old

def Precondition (codec : JsonCodec Body) (maxAttempts : Nat) :
    Operation Body → Call Body → World → Prop
  | .enqueue _ _ _, .now, _ => True
  | .enqueue _ _ _, .ulid _, _ => True
  | .enqueue _ _ _, .insertOrIgnore row, _ =>
    row.status = .pending ∧ row.attempts = 0 ∧ ∃ body, codec.parse row.payload = .ok body
  | .prune _, .now, _ => True
  | .prune _, .deleteTerminal _ _, _ => True
  | .drain _, .now, _ => True
  | .drain _, .selectDue _ _, _ => True
  | .drain _, .deliver _, _ => True
  | .drain _, .writeRow, _ => True
  | .drain _, .setDone id attempts, world =>
    world.Attempted id attempts ∧ (deliveryLog id world.history).returned = true
  | .drain _, .setFailed id attempts _, world =>
    world.Attempted id attempts ∧ maxAttempts ≤ attempts
  | .drain _, .reschedule id attempts _ _, world =>
    world.Attempted id attempts ∧ attempts < maxAttempts
  | _, _, _ => False

/-- What a drain sees of the others: they leave pending rows, and what the
consumer has seen of them, alone. -/
def KeepsPending (before after : World) : Prop :=
  ∀ row ∈ before.table, row.status = .pending → row ∈ after.table ∧
      deliveryLog row.id after.history = deliveryLog row.id before.history

theorem KeepsPending.refl (world : World) : KeepsPending world world :=
  fun _ member _ => ⟨member, rfl⟩

theorem KeepsPending.trans {first second third : World}
    (left : KeepsPending first second) (right : KeepsPending second third) :
    KeepsPending first third := by
  intro row member isPending
  obtain ⟨middleMem, middleLog⟩ := left row member isPending
  obtain ⟨lastMem, lastLog⟩ := right row middleMem isPending
  exact ⟨lastMem, lastLog.trans middleLog⟩

theorem KeepsPending.insert {world : World} {row : OutboxRow} {inserted : OutboxTable}
    (success : world.table.insert? row = some inserted) :
    KeepsPending world
      { world with table := inserted, history := .inserted row :: world.history } := by
  intro other member _
  have distinct : row.id ≠ other.id :=
    ((insert?_eq_some success).2 other member).symm
  exact ⟨(mem_insert? success).mpr (.inl member), by simp [deliveryLog, distinct]⟩

theorem KeepsPending.prune (world : World) (doneCutoff failedCutoff : Int) : KeepsPending world
      { world with
        table := world.table.deleteWhere (isPruned doneCutoff failedCutoff)
        history := (world.table.rows.filter
          (isPruned doneCutoff failedCutoff)).map .pruned ++ world.history } := by
  intro row member isPending
  have spared : isPruned doneCutoff failedCutoff row = false := by
    rw [Bool.eq_false_iff]
    exact fun selected => finished_of_isPruned selected isPending
  exact ⟨mem_deleteWhere.mpr ⟨member, spared⟩, deliveryLog_pruned row.id _ world.history⟩

variable {codec : JsonCodec Body} {maxAttempts : Nat} {before after : World}
  {request : Call Body} {answer : Answer Body request}

section

variable (answers : (outboxMachine Body).Answers request before answer after)
  (inv : OutboxInv codec maxAttempts before)
include answers inv

theorem enqueue_call_sound (positive : 0 < maxAttempts) {topic : String} {payload : Body}
    {opts : EnqueueOptions}
    (pre : Precondition codec maxAttempts (.enqueue topic payload opts) request before) :
    OutboxInv codec maxAttempts after ∧ KeepsPending before after ∧
      ∀ row ∈ before.table, row ∈ after.table := by
  cases request with
  | now | ulid now => cases answers; exact ⟨inv, .refl _, fun _ member => member⟩
  | insertOrIgnore row =>
    obtain ⟨isPending, unattempted, decodes⟩ := pre
    simp only [Machine.Answers, outboxMachine, exec] at answers
    cases success : before.table.insert? row with
    | none =>
      simp only [success] at answers
      cases answers
      exact ⟨inv, .refl _, fun _ member => member⟩
    | some inserted =>
      simp only [success] at answers
      cases answers
      exact ⟨inv.insert success isPending unattempted positive decodes, .insert success,
        fun _ member => (mem_insert? success).mpr (.inl member)⟩
  | _ => exact pre.elim

theorem prune_call_sound {opts : PruneOptions}
    (pre : Precondition codec maxAttempts (.prune opts) request before) :
    OutboxInv codec maxAttempts after ∧ KeepsPending before after := by
  cases request with
  | now => cases answers; exact ⟨inv, .refl _⟩
  | deleteTerminal doneCutoff failedCutoff =>
    cases answers
    exact ⟨inv.prune doneCutoff failedCutoff, .prune _ _ _⟩
  | _ => exact pre.elim

theorem drain_call_sound {opts : DrainOptions}
    (pre : Precondition codec maxAttempts (.drain opts) request before) :
    OutboxInv codec maxAttempts after := by
  cases request with
  | now | selectDue now limit | writeRow => cases answers; exact inv
  | deliver message => cases answers; exact inv.deliver _ _
  | setDone id attempts =>
    obtain ⟨attempted, returned⟩ := pre
    cases answers
    exact inv.setRow attempted (fun _ => ⟨rfl, rfl, rfl, rfl⟩) (fun _ => rfl)
      fun row _ => ⟨by simp, by simp, fun _ => returned⟩
  | setFailed id attempts message =>
    obtain ⟨attempted, exhausted⟩ := pre
    cases answers
    have exact : attempts = maxAttempts := by
      obtain ⟨row, member, -, isPending, counts⟩ := attempted.claimed
      have below := (inv.rows row member).pending isPending
      omega
    exact inv.setRow attempted (fun _ => ⟨rfl, rfl, rfl, rfl⟩) (fun _ => rfl)
      fun row _ => ⟨by simp, fun _ => exact, by simp⟩
  | reschedule id attempts nextAt message =>
    obtain ⟨attempted, below⟩ := pre
    cases answers
    exact inv.setRow attempted (fun _ => ⟨rfl, rfl, rfl, rfl⟩) (fun _ => rfl)
      fun row isPending => ⟨fun _ => below, by simp [isPending], by simp [isPending]⟩
  | _ => exact pre.elim

end

end DubEcosystem.Freeq
