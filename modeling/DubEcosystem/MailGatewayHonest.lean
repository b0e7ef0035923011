import DubEcosystem.MailGatewayOneMail
import DubEcosystem.MailGatewayRows

/-!
# mail-gateway: a scheduled mail is marked sent only if it was sent

As long as a row is worked on by one pass at a time, and what the send log says of a send
that was not finished agrees with what the provider accepted, a row that is marked sent was
accepted, and a row that is given up was not.
-/

namespace DubEcosystem.MailGateway

open Relation Interleaving PortPrograms List KeyedTable Option Except

variable {env : Env} {world moved : World} {phase after : Phase}
  {request : Call} {answer : Except Thrown (Result request)}

def World.HasAccepted (world : World) (key : String) : Prop :=
  ∃ sent ∈ world.accepted, sent.1 = key

/-- Only drain passes run. -/
def drains : Operation → Prop
  | .drain _ => True
  | _ => False

/-- Mails were scheduled, and nothing was tried yet. -/
structure Fresh (start : World) : Prop where
  sendLog : start.sendLog = .empty
  accepted : start.accepted = []
  released : start.released = []
  scheduled : ∀ row ∈ start.scheduled, row.status = .scheduled ∧ row.attempts = 0

/-- A row that is marked sent was accepted, and one that is given up was not. -/
structure Truthful (world : World) : Prop where
  sent : ∀ row ∈ world.scheduled, row.status = .sent → world.HasAccepted (schedKey row.id)
  failed : ∀ row ∈ world.scheduled, row.status = .failed →
    row.attempts = SCHEDULED_MAX_ATTEMPTS ∧ ¬world.HasAccepted (schedKey row.id)

/-- Nobody has the row in hand. -/
def Idle (id : String) (threads : List (Operation × Prog mailSignature Unit)) : Prop :=
  ∀ thread ∈ threads, ¬WorksOn id thread.2

def undying (condition : RunCondition mailSignature World Operation) (id : String) :
    RunCondition mailSignature World Operation where
  mayCall := condition.mayCall
  mayStop thread := condition.mayStop thread ∧ ¬WorksOn id thread.2

/-- In every run of drain passes the marks of the rows are true; and from any state of it,
once a row was claimed `SCHEDULED_MAX_ATTEMPTS` times by passes that did not stop with it
in hand, it is marked sent or given up. -/
def MarksHonestly (env : Env) (condition : RunCondition mailSignature World Operation) :
    Prop :=
  ∀ start middle, Fresh start → (gateway env false drains).ReachableUnder condition start middle →
      Truthful middle.world ∧ ∀ id final, Idle id middle.threads →
          ReflTransGen ((gateway env false drains).StepUnder (undying condition id)) middle
            final → Idle id final.threads →
            middle.world.claims.count id + SCHEDULED_MAX_ATTEMPTS ≤ final.world.claims.count id →
              ∀ row ∈ final.world.scheduled, row.id = id → row.status = .sent ∨ row.status = .failed

/-- A row is claimed only while nobody has it in hand.  A send that is found unfinished is
pending only if its message was accepted, and failed only if it was not. -/
def soleWorker : RunCondition mailSignature World Operation where
  mayCall request world others :=
    match request with
    | .claimDueScheduled now limit =>
      ∀ row ∈ world.claimDueScheduled now limit, Idle row.id others
    | .findSendByKey key => ∀ entry, world.findSendByKey key = some entry →
        (entry.status = .pending → world.HasAccepted key) ∧
          (entry.status = .failed → ¬world.HasAccepted key)
    | _ => True
  mayStop _ := True

/-- What a row's mark says is so. -/
def StatusHonest (world : World) (row : ScheduledRow) : Prop :=
  match row.status with
  | .sent => world.HasAccepted (schedKey row.id)
  | .failed =>
    row.attempts = SCHEDULED_MAX_ATTEMPTS ∧ ¬world.HasAccepted (schedKey row.id)
  | .scheduled => row.attempts < SCHEDULED_MAX_ATTEMPTS ∧ row.id ∉ world.released
  | .canceled => False

/-- What the tables say of the row is so. -/
structure RowHonest (env : Env) (world : World) (id : String) : Prop where
  status : ∀ row ∈ world.scheduled, row.id = id → StatusHonest world row
  logged : ∀ entry ∈ world.sendLog, entry.idempotencyKey = schedKey id →
    entry.status = .sent → world.HasAccepted (schedKey id)
  hashed : ∀ entry ∈ world.sendLog, entry.idempotencyKey = schedKey id →
    ∀ row ∈ world.scheduled, row.id = id → entry.reqHash = hashOf env row
  known : world.HasAccepted (schedKey id) → world.Logs (schedKey id)

/-- What a send takes for granted at each stage is so. -/
def StageHonest (world : World) (key : String) : Stage → Prop
  | .looking => True
  | .unclaimed => ¬world.Logs key
  | .lost => ¬world.Logs key
  | .owned _ => ¬world.HasAccepted key
  | .accepted _ => world.HasAccepted key
  | .refused _ => ¬world.HasAccepted key
  | .answered true => world.HasAccepted key
  | .answered false => ¬world.HasAccepted key

/-- What a pass takes for granted of the row that it is at. -/
def CurrentHonest (world : World) : Phase → Prop
  | .work row stage _ => StageHonest world (schedKey row.id) stage
  | .closing row _ => world.Settled row.id
  | .change => False
  | _ => True

structure PhaseHonest (world : World) (phase : Phase) : Prop where
  held : ∀ row ∈ phase.rows, row ∈ world.scheduled ∧ row.status = .scheduled
  nodup : (phase.rows.map ScheduledRow.id).Nodup
  current : CurrentHonest world phase

/-- The tables are right, every pass has rows of its own, and they are as it read them. -/
structure Honest (env : Env) (world : World) (phases : List Phase) : Prop where
  filed : Filed world phases
  rows : ∀ id, RowHonest env world id
  inHand : ∀ phase ∈ phases, PhaseHonest world phase
  apart : phases.Pairwise fun first second => ∀ id, first.HasRow id → ¬second.HasRow id

variable {id key : String}

theorem hasAccepted_iff_of_sameFor (same : SameFor id world moved) :
    moved.HasAccepted (schedKey id) ↔ world.HasAccepted (schedKey id) :=
  exists_congr fun sent => and_congr_left (same.accepted sent)

theorem logs_iff_of_sameFor (same : SameFor id world moved) :
    moved.Logs (schedKey id) ↔ world.Logs (schedKey id) :=
  exists_congr fun entry => and_congr_left (same.sendLog entry)

theorem RowHonest.of_sameFor (same : SameFor id world moved)
    (honest : RowHonest env world id) : RowHonest env moved id := by
  have accepted := hasAccepted_iff_of_sameFor same
  constructor
  · intro row member isId
    have wasHonest := honest.status row ((same.scheduled row isId).mp member) isId
    subst isId
    unfold StatusHonest at wasHonest ⊢
    cases status : row.status <;> simp only [status] at wasHonest ⊢
    · exact ⟨wasHonest.1, fun released => wasHonest.2 (same.released.mp released)⟩
    · exact accepted.mpr wasHonest
    · exact ⟨wasHonest.1, fun isAccepted => wasHonest.2 (accepted.mp isAccepted)⟩
  · intro entry member isKey isSent
    exact accepted.mpr (honest.logged entry ((same.sendLog entry isKey).mp member) isKey isSent)
  · intro entry member isKey row rowMem isId
    exact honest.hashed entry ((same.sendLog entry isKey).mp member) isKey row
      ((same.scheduled row isId).mp rowMem) isId
  · intro isAccepted
    exact (logs_iff_of_sameFor same).mpr (honest.known (accepted.mp isAccepted))

theorem StageHonest.of_sameFor {stage : Stage} (same : SameFor id world moved)
    (honest : StageHonest world (schedKey id) stage) :
    StageHonest moved (schedKey id) stage := by
  have accepted := hasAccepted_iff_of_sameFor same
  have logs := logs_iff_of_sameFor same
  cases stage with
  | looking => trivial
  | unclaimed | lost => exact fun isLogged => honest (logs.mp isLogged)
  | owned | refused => exact fun isAccepted => honest (accepted.mp isAccepted)
  | accepted => exact accepted.mpr honest
  | answered returned =>
    cases returned with
    | true => exact accepted.mpr honest
    | false => exact fun isAccepted => honest (accepted.mp isAccepted)

theorem PhaseHonest.of_sameFor (same : ∀ id, phase.HasRow id → SameFor id world moved)
    (settled : ∀ id, world.Settled id → moved.Settled id)
    (honest : PhaseHonest world phase) : PhaseHonest moved phase := by
  refine ⟨?_, honest.nodup, ?_⟩
  · intro row member
    obtain ⟨isStored, isScheduled⟩ := honest.held row member
    exact ⟨((same row.id ⟨row, member, rfl⟩).scheduled row rfl).mpr isStored, isScheduled⟩
  · have current := honest.current
    cases phase with
    | work row stage rest =>
      exact StageHonest.of_sameFor (same row.id ⟨row, .head _, rfl⟩) current
    | closing row rest => exact settled row.id current
    | _ => exact current

variable {row : ScheduledRow} {stage next : Stage}

theorem eq_of_stored {other : ScheduledRow} (held : row ∈ world.scheduled)
    (member : other ∈ world.scheduled) (sameId : other.id = row.id) : other = row :=
  eq_of_key_eq member held sameId

/-- A winning claim adds a pending row with the hash of its request. -/
theorem RowHonest.claims {claim : SendClaim} {count : Nat}
    (honest : RowHonest env world row.id) (held : row ∈ world.scheduled)
    (isKey : claim.idempotencyKey = schedKey row.id) (isHash : claim.reqHash = hashOf env row)
    (won : count ≠ 0)
    (answers : (mailMachine env false).Answers (.insertSendClaim claim) world (.ok count) moved) :
    RowHonest env moved row.id ∧ ¬moved.HasAccepted (schedKey row.id) := by
  have free := isKey ▸ not_logs_of_claims won answers
  have unsent : ¬world.HasAccepted (schedKey row.id) :=
    fun isAccepted => free (honest.known isAccepted)
  obtain ⟨isCount, isMoved⟩ := Prod.mk.inj answers
  have counted : (world.insertSendClaim claim).1 = count := ok.inj isCount
  rcases insertSendClaim_cases world claim with
    ⟨lost, -⟩ | ⟨-, sendLog, inserts, -, inserted⟩
  · exact absurd (counted.symm.trans lost) won
  rw [inserted] at isMoved
  subst isMoved
  refine ⟨⟨honest.status, ?_, ?_, fun isAccepted => absurd isAccepted unsent⟩, unsent⟩
  · intro entry member entryKey isSent
    rcases (mem_insert? inserts).mp member with old | rfl
    · exact honest.logged entry old entryKey isSent
    · cases isSent
  · intro entry member entryKey other otherMem otherId
    rcases (mem_insert? inserts).mp member with old | rfl
    · exact honest.hashed entry old entryKey other otherMem otherId
    · rw [eq_of_stored held otherMem otherId]
      exact isHash

theorem RowHonest.accepts {outbound : OutboundMail} (honest : RowHonest env world row.id)
    (held : row ∈ world.scheduled) (isScheduled : row.status = .scheduled)
    (logs : world.Logs (schedKey row.id)) :
    RowHonest env
      { world with accepted := (schedKey row.id, outbound) :: world.accepted } row.id := by
  have accepted : World.HasAccepted
      { world with accepted := (schedKey row.id, outbound) :: world.accepted }
      (schedKey row.id) := ⟨_, .head _, rfl⟩
  refine ⟨?_, fun _ _ _ _ => accepted, honest.hashed, fun _ => logs⟩
  intro other member sameId
  have wasHonest := honest.status other member sameId
  rw [eq_of_stored held member sameId] at wasHonest ⊢
  simp only [StatusHonest, isScheduled] at wasHonest ⊢
  exact wasHonest

theorem RowHonest.marksEntry {marked : String} {change : SendLogRow → SendLogRow}
    {keeps : ∀ row, (change row).idempotencyKey = row.idempotencyKey}
    (honest : RowHonest env world id) (keepsHash : ∀ row, (change row).reqHash = row.reqHash)
    (marksTrue : ∀ row, (change row).status = .sent → world.HasAccepted (schedKey id)) :
    RowHonest env
      { world with
        sendLog := world.sendLog.update (fun row => row.id = marked) change keeps } id := by
  have updated : ∀ {entry}, entry ∈ world.sendLog.update
      (fun row => decide (row.id = marked)) change keeps ↔ ∃ old ∈ world.sendLog,
        (if decide (old.id = marked) then change old else old) = entry :=
    mem_update
  refine ⟨honest.status, ?_, ?_, ?_⟩
  · intro entry member isKey isSent
    obtain ⟨old, oldMem, rfl⟩ := updated.mp member
    split at isSent
    · exact marksTrue old isSent
    · rename_i notMarked
      rw [if_neg notMarked] at isKey
      exact honest.logged old oldMem isKey isSent
  · intro entry member isKey other otherMem otherId
    obtain ⟨old, oldMem, rfl⟩ := updated.mp member
    split at isKey
    · rename_i isMarked
      rw [if_pos isMarked, keepsHash]
      exact honest.hashed old oldMem ((keeps old).symm.trans isKey) other otherMem otherId
    · rename_i notMarked
      rw [if_neg notMarked]
      exact honest.hashed old oldMem isKey other otherMem otherId
  · intro isAccepted
    obtain ⟨old, oldMem, isKey⟩ := honest.known isAccepted
    refine ⟨_, updated.mpr ⟨old, oldMem, rfl⟩, ?_⟩
    split
    · exact (keeps old).trans isKey
    · exact isKey

section

variable (honest : RowHonest env world row.id) (held : row ∈ world.scheduled)
include honest held

/-- A step of a send for a row in hand leaves what the tables say of it true, and what the
send takes for granted. -/
theorem StageHonest.leads {others : List (Operation × Prog mailSignature Unit)}
    (isScheduled : row.status = .scheduled) (isStage : StageHonest world (schedKey row.id) stage)
    (hasEntry : ∀ id, stage.entry = some id →
      ∃ entry ∈ world.sendLog, entry.id = id ∧ entry.idempotencyKey = schedKey row.id)
    (permitted : soleWorker.mayCall request world others)
    (answers : (mailMachine env false).Answers request world answer moved)
    (leads : Stage.Leads (schedKey row.id) (hashOf env row) (Carries row) stage request answer
      next) : RowHonest env moved row.id ∧ StageHonest moved (schedKey row.id) next := by
  have reads : Reads request → StageHonest world (schedKey row.id) next →
      RowHonest env moved row.id ∧ StageHonest moved (schedKey row.id) next := by
    intro isRead isNext
    rw [eq_of_reads isRead answers]
    exact ⟨honest, isNext⟩
  have found : ∀ {existing : Option SendLogRow},
      (mailMachine env false).Answers (.findSendByKey (schedKey row.id)) world (.ok existing)
        moved → world.findSendByKey (schedKey row.id) = existing :=
    fun answers => ok.inj (Prod.mk.inj answers).1
  have impossible := possible_of_answers answers
  cases leads with
  | goesOn | draws | refers | stamps => exact reads trivial isStage
  | resolves => exact reads trivial trivial
  | lookupFails | claimFails | rereadFails | markFails | failFails => cases impossible
  | findsNone =>
    apply reads trivial
    rintro ⟨entry, member, isKey⟩
    exact KeyedTable.find?_eq_none.mp (found answers) entry member isKey
  | @conflicts existing differs =>
    obtain ⟨member, isKey⟩ := find?_eq_some.mp (found answers)
    exact absurd (honest.hashed existing member isKey row held rfl) differs
  | @duplicates existing same live =>
    apply reads trivial
    obtain ⟨member, isKey⟩ := find?_eq_some.mp (found answers)
    obtain ⟨pending, -⟩ := permitted existing (found answers)
    cases status : existing.status with
    | pending => exact pending status
    | sent => exact honest.logged existing member isKey status
    | failed => exact absurd status live
  | takesUp same failed =>
    exact reads trivial ((permitted _ (found answers)).2 failed)
  | claims isKey isHash won => exact honest.claims held isKey isHash won answers
  | @loses claim isKey isHash =>
    obtain ⟨isCount, isMoved⟩ := Prod.mk.inj answers
    have counted : (world.insertSendClaim claim).1 = 0 := ok.inj isCount
    rcases insertSendClaim_cases world claim with ⟨-, same⟩ | ⟨-, _, -, won, -⟩
    · rw [← isMoved, same]
      exact ⟨honest, isStage⟩
    · exact absurd (counted.symm.trans won) Nat.zero_ne_one
  | rereads =>
    obtain ⟨member, isKey⟩ := find?_eq_some.mp (found answers)
    exact absurd ⟨_, member, isKey⟩ isStage
  | vanishes => exact reads trivial fun isAccepted => isStage (honest.known isAccepted)
  | @accepts entryId outbound _ _ =>
    have isMoved : moved =
        { world with accepted := (schedKey row.id, outbound) :: world.accepted } := answers
    subst isMoved
    obtain ⟨entry, member, -, isKey⟩ := hasEntry entryId rfl
    exact ⟨honest.accepts held isScheduled ⟨entry, member, isKey⟩, _, .head _, rfl⟩
  | retries | refuses =>
    have isMoved : moved = world := answers
    subst isMoved
    exact ⟨honest, isStage⟩
  | marks =>
    cases answers
    refine ⟨honest.marksEntry ?_ fun _ _ => isStage, isStage⟩
    exact fun _ => rfl
  | fails =>
    cases answers
    refine ⟨honest.marksEntry ?_ ?_, isStage⟩
    · exact fun _ => rfl
    · exact fun _ isSent => nomatch isSent

theorem RowHonest.marksRow {change : ScheduledRow → ScheduledRow}
    {keepsId : ∀ row, (change row).id = row.id} {covers : ScheduledRow → Bool}
    (keepsHash : hashOf env (change row) = hashOf env row)
    (marksTrue : StatusHonest world (change row)) :
    RowHonest env (world.changeScheduled row.id covers change keepsId).2 row.id := by
  refine ⟨?_, honest.logged, ?_, honest.known⟩
  · intro other member isId
    obtain ⟨old, oldMem, rfl⟩ := mem_changeScheduled.mp member
    split
    · rename_i selected
      rw [eq_of_stored held oldMem selected.1]
      exact marksTrue
    · rename_i notSelected
      rw [if_neg notSelected] at isId
      exact honest.status old oldMem isId
  · intro entry entryMem isKey other member isId
    obtain ⟨old, oldMem, rfl⟩ := mem_changeScheduled.mp member
    have wasHashed := honest.hashed entry entryMem isKey row held rfl
    split
    · rename_i selected
      rw [eq_of_stored held oldMem selected.1, keepsHash]
      exact wasHashed
    · rename_i notSelected
      rw [if_neg notSelected] at isId
      exact honest.hashed entry entryMem isKey old oldMem isId

theorem RowHonest.marksSent {messageId : String} {attempts : Nat}
    (accepted : world.HasAccepted (schedKey row.id)) :
    RowHonest env (world.markScheduledSent row.id messageId attempts) row.id := by
  have marksTrue : StatusHonest world
      { row with
        status := .sent, sentMessageId := some messageId, errorCode := none
        attempts, updatedAt := world.clock } := accepted
  exact honest.marksRow held rfl marksTrue

theorem RowHonest.marksFailed {code : String} (isScheduled : row.status = .scheduled)
    (unsent : ¬world.HasAccepted (schedKey row.id)) :
    RowHonest env (world.markScheduledAttemptFailed row.id code (row.attempts + 1)
      SCHEDULED_MAX_ATTEMPTS) row.id := by
  have status := honest.status row held rfl
  simp only [StatusHonest, isScheduled] at status
  have marksTrue : StatusHonest world
      { row with
        status :=
          if SCHEDULED_MAX_ATTEMPTS ≤ row.attempts + 1 then .failed else .scheduled
        errorCode := some code, attempts := row.attempts + 1
        updatedAt := world.clock } := by
    by_cases givenUp : SCHEDULED_MAX_ATTEMPTS ≤ row.attempts + 1
    · simp only [StatusHonest, if_pos givenUp]
      exact ⟨by omega, unsent⟩
    · simp only [StatusHonest, if_neg givenUp]
      exact ⟨by omega, status.2⟩
  exact honest.marksRow held rfl marksTrue

end

/-- After a mark the row in hand is no longer scheduled, if the mark says so. -/
theorem settled_changeScheduled {change : ScheduledRow → ScheduledRow}
    {keepsId : ∀ row, (change row).id = row.id}
    (settles : ∀ row, (change row).status ≠ .scheduled) :
    (world.changeScheduled id (fun _ => true) change keepsId).2.Settled id := by
  intro other member isId
  obtain ⟨old, oldMem, rfl⟩ := mem_changeScheduled.mp member
  split
  · exact settles old
  · rename_i notSelected
    rw [if_neg notSelected] at isId
    exact fun isScheduled => notSelected ⟨isId, isScheduled, rfl⟩

/-- Every stage of a send leaves the scheduled mails and the parked files alone. -/
theorem scheduled_of_stageLeads {hash : String} {fits : OutboundMail → Prop}
    (answers : (mailMachine env false).Answers request world answer moved)
    (leads : Stage.Leads key hash fits stage request answer next) :
    moved.scheduled = world.scheduled := by
  have reads : Reads request → moved.scheduled = world.scheduled :=
    fun isRead => congrArg World.scheduled (eq_of_reads isRead answers)
  have inserts : ∀ claim, (world.insertSendClaim claim).2.scheduled = world.scheduled := by
    intro claim
    rcases insertSendClaim_cases world claim with ⟨-, same⟩ | ⟨-, _, -, -, inserted⟩
    · rw [same]
    · rw [inserted]
  cases leads with
  | claims | loses =>
    obtain ⟨-, rfl⟩ := Prod.mk.inj answers
    exact inserts _
  | @accepts _ outbound _ _ =>
    have isMoved : moved = { world with accepted := (key, outbound) :: world.accepted } := answers
    rw [isMoved]
  | retries | refuses =>
    have isMoved : moved = world := answers
    rw [isMoved]
  | marks | fails =>
    cases answers
    rfl
  | _ => exact reads trivial

section Call

variable {phases : List Phase} {others : List (Operation × Prog mailSignature Unit)}

/-- What a pass does leaves what it takes for granted, and what the tables say of the row
that it is at. -/
theorem PhaseHonest.leads (honest : Honest env world (phase :: phases))
    (permitted : soleWorker.mayCall request world others)
    (answers : (mailMachine env false).Answers request world answer moved)
    (leads : Phase.Leads env phase request answer after) :
    (∀ id, phase.current = some id → RowHonest env moved id) ∧ PhaseHonest moved after := by
  obtain ⟨held, nodup, current⟩ := honest.inHand phase (.head _)
  have impossible := possible_of_answers answers
  have turned : ∀ rows, (∀ row ∈ rows, row ∈ moved.scheduled ∧ row.status = .scheduled) →
      (rows.map ScheduledRow.id).Nodup → PhaseHonest moved (.turnTo rows) := by
    intro rows rowsHeld rowsNodup
    refine ⟨?_, ?_, ?_⟩
    · rwa [Phase.rows_turnTo]
    · rwa [Phase.rows_turnTo]
    · cases rows <;> trivial
  have same : Reads request → CurrentHonest world after → after.rows = phase.rows →
      (∀ id, phase.current = some id → RowHonest env moved id) ∧ PhaseHonest moved after := by
    intro isRead isCurrent sameRows
    rw [eq_of_reads isRead answers]
    exact ⟨fun id _ => honest.rows id, sameRows ▸ held, sameRows ▸ nodup, isCurrent⟩
  -- The rows that are left have other ids than the one that is marked.
  have left : ∀ {row rest}, phase.rows = row :: rest → phase.current = some row.id →
      request.changes = none →
        (∀ other ∈ rest, other ∈ moved.scheduled ∧ other.status = .scheduled) ∧
          (rest.map ScheduledRow.id).Nodup := by
    intro row rest isRows isCurrent changesNone
    rw [isRows] at held nodup
    obtain ⟨notLeft, leftNodup⟩ := nodup_cons.mp nodup
    refine ⟨?_, leftNodup⟩
    intro other member
    obtain ⟨isStored, isScheduled⟩ := held other (.tail _ member)
    have different : row.id ≠ other.id :=
      fun isId => notLeft (isId ▸ mem_map_of_mem member)
    have sameFor : SameFor other.id world moved := by
      apply leads.sameFor honest.filed answers
      · rw [isCurrent]
        exact fun isId => different (some.inj isId)
      · rw [changesNone]
        exact nofun
    exact ⟨(sameFor.scheduled other rfl).mpr isStored, isScheduled⟩
  cases leads with
  | send => exact (honest.filed.inHand _ (.head _)).elim
  | goesOn => exact same trivial current rfl
  | claimFails | markFails | attemptFailFails => cases impossible
  | claims =>
    obtain ⟨isDue, rfl⟩ := Prod.mk.inj answers
    cases ok.inj isDue
    refine ⟨fun id isCurrent => (nomatch isCurrent), turned _ ?_ ?_⟩
    · exact fun row => mem_claimDueScheduled
    · exact claimDueScheduled_nodup _ _ _
  | loads | resolves => exact same trivial trivial rfl
  | @loadFails row rest thrown =>
    obtain ⟨isStored, isScheduled⟩ := held row (.head _)
    have status := (honest.rows row.id).status row isStored rfl
    simp only [StatusHonest, isScheduled] at status
    exact absurd (loadAnswer_eq_error (Prod.mk.inj answers).1) status.2
  | @work row stage _ _ next rest leads =>
    obtain ⟨isStored, isScheduled⟩ := held row (.head _)
    obtain ⟨rowHonest, isNext⟩ := StageHonest.leads (honest.rows row.id) isStored
      isScheduled current (honest.filed.inHand _ (.head _)) permitted answers leads
    refine ⟨?_, ?_, nodup, isNext⟩
    · rintro id ⟨⟩
      exact rowHonest
    · rw [scheduled_of_stageLeads answers leads]
      exact held
  | @marks row rest messageId =>
    obtain ⟨isStored, isScheduled⟩ := held row (.head _)
    obtain ⟨leftHeld, leftNodup⟩ := left rfl rfl rfl
    refine ⟨?_, turned rest leftHeld leftNodup⟩
    rintro id ⟨⟩
    cases answers
    exact (honest.rows row.id).marksSent isStored current
  | @closes row rest messageId =>
    obtain ⟨isStored, isScheduled⟩ := held row (.head _)
    obtain ⟨leftHeld, leftNodup⟩ := left rfl rfl rfl
    cases answers
    refine ⟨?_, leftHeld, leftNodup, ?_⟩
    · rintro id ⟨⟩
      exact (honest.rows row.id).marksSent isStored current
    · apply settled_changeScheduled
      exact fun _ isScheduled => nomatch isScheduled
  | @releases row rest =>
    cases answers
    refine ⟨?_, turned rest held nodup⟩
    rintro id ⟨⟩
    have rowHonest := honest.rows row.id
    refine ⟨?_, rowHonest.logged, rowHonest.hashed, rowHonest.known⟩
    intro other member isId
    have status := rowHonest.status other member isId
    unfold StatusHonest at status ⊢
    cases isStatus : other.status with
    | scheduled => exact absurd isStatus (current other member isId)
    | canceled => simp only [isStatus] at status
    | _ =>
      simp only [isStatus] at status ⊢
      exact status
  | @attemptFails row rest code =>
    obtain ⟨isStored, isScheduled⟩ := held row (.head _)
    obtain ⟨leftHeld, leftNodup⟩ := left rfl rfl rfl
    refine ⟨?_, turned rest leftHeld leftNodup⟩
    rintro id ⟨⟩
    cases answers
    exact (honest.rows row.id).marksFailed isStored isScheduled current
  | changeFails | cancels | forgets | edits => exact current.elim

theorem Honest.call (honest : Honest env world (phase :: phases))
    (tracks : (mailProtocol env false).Tracks others phases)
    (permitted : soleWorker.mayCall request world others)
    (answers : (mailMachine env false).Answers request world answer moved)
    (leads : Phase.Leads env phase request answer after) :
    Honest env moved (after :: phases) := by
  obtain ⟨currentRows, afterHonest⟩ := PhaseHonest.leads honest permitted answers leads
  obtain ⟨firstApart, restApart⟩ := pairwise_cons.mp honest.apart
  have phaseHonest := honest.inHand phase (.head _)
  have elsewhere : ∀ id, phase.current ≠ some id → SameFor id world moved := by
    intro id notCurrent
    apply leads.sameFor honest.filed answers notCurrent
    cases leads with
    | releases => exact notCurrent
    | work leads => cases leads <;> exact nofun
    | send leads => exact (honest.filed.inHand _ (.head _)).elim
    | cancels | edits | forgets => exact phaseHonest.current.elim
    | _ => exact nofun
  refine ⟨honest.filed.call answers leads, ?_, ?_, ?_⟩
  · intro id
    by_cases isCurrent : phase.current = some id
    · exact currentRows id isCurrent
    · exact (honest.rows id).of_sameFor (elsewhere id isCurrent)
  · intro other member
    rcases mem_cons.mp member with rfl | member
    · exact afterHonest
    · have otherHonest := honest.inHand other (.tail _ member)
      refine otherHonest.of_sameFor ?_ fun id => settled_of_answers answers
      rintro id ⟨row, rowMem, rfl⟩
      apply elsewhere
      intro isCurrent
      cases phase with
      | work current stage rest =>
        exact firstApart other member row.id
          ⟨current, .head _, some.inj isCurrent⟩ ⟨row, rowMem, rfl⟩
      | closing current rest =>
        obtain ⟨isStored, isScheduled⟩ := otherHonest.held row rowMem
        exact phaseHonest.current row isStored (some.inj isCurrent).symm isScheduled
      | _ => cases isCurrent
  · apply pairwise_cons.mpr
    refine ⟨?_, restApart⟩
    intro other member id has otherHas
    rcases leads.rows_after with left | ⟨-, due, takes, rfl⟩
    · obtain ⟨row, rowMem, isId⟩ := has
      exact firstApart other member id ⟨row, left.subset rowMem, isId⟩ otherHas
    · obtain ⟨row, rowMem, rfl⟩ := has
      rw [Phase.rows_turnTo] at rowMem
      obtain ⟨thread, threadMem, follows⟩ := tracks.exists_of_mem member
      cases takes with
      | claims =>
        cases ok.inj (Prod.mk.inj answers).1
        exact permitted row rowMem thread threadMem (worksOn_of_hasRow follows otherHas)

end Call

section Progress

variable {base : Nat} {phases : List Phase} {others : List (Operation × Prog mailSignature Unit)}

/-- While the row is scheduled, every claim of it beyond `base` was a failed attempt, but
for the one of the pass that has it in hand. -/
def Counted (id : String) (base : Nat) (world : World) (phases : List Phase) : Prop :=
  ∀ row ∈ world.scheduled, row.id = id → row.status = .scheduled →
    world.claims.count id ≤ base + row.attempts ∨
      (world.claims.count id ≤ base + row.attempts + 1 ∧ ∃ phase ∈ phases, phase.HasRow id)

theorem scheduled_of_not_marksRow (notChange : phase ≠ .change)
    (answers : (mailMachine env false).Answers request world answer moved)
    (leads : Phase.Leads env phase request answer after) (notMarks : ¬MarksRow id request)
    (isId : row.id = id) (member : row ∈ moved.scheduled) :
    row ∈ world.scheduled := by
  have same : moved.scheduled = world.scheduled → row ∈ world.scheduled :=
    fun isSame => isSame ▸ member
  have reads : Reads request → row ∈ world.scheduled :=
    fun isRead => same (congrArg World.scheduled (eq_of_reads isRead answers))
  cases leads with
  | work leads | send leads => exact same (scheduled_of_stageLeads answers leads)
  | claims | releases =>
    cases answers
    exact member
  | marks | closes | attemptFails =>
    cases answers
    exact ((sameFor_changeScheduled notMarks).scheduled row isId).mp member
  | cancels | forgets | edits => exact absurd rfl notChange
  | _ => exact reads trivial

theorem Counted.marks (counted : Counted id base world (phase :: phases))
    (honest : Honest env world (phase :: phases))
    (answers : (mailMachine env false).Answers request world answer moved)
    (leads : Phase.Leads env phase request answer after) (marks : MarksRow id request) :
    Counted id base moved (after :: phases) := by
  have settled : moved.Settled id → Counted id base moved (after :: phases) := by
    intro isSettled row member isId isScheduled
    exact absurd isScheduled (isSettled row member isId)
  cases leads with
  | marks | closes =>
    cases answers
    obtain rfl := marks
    apply settled
    apply settled_changeScheduled
    exact fun _ isScheduled => nomatch isScheduled
  | @attemptFails held rest code =>
    cases answers
    obtain rfl := marks
    intro row member isId isScheduled
    obtain ⟨isStored, heldScheduled⟩ :=
      (honest.inHand _ (.head _)).held held (.head _)
    have bound := counted held isStored rfl heldScheduled
    obtain ⟨old, oldMem, rfl⟩ := mem_changeScheduled.mp member
    split
    · refine .inl ?_
      rcases bound with bound | ⟨bound, -⟩
      · exact bound.trans (by simp only []; omega)
      · exact bound
    · rename_i notSelected
      rw [if_neg notSelected] at isId isScheduled
      exact absurd ⟨isId, isScheduled, rfl⟩ notSelected
  | work leads | send leads => cases leads <;> exact marks.elim
  | _ => exact marks.elim

theorem Counted.call (counted : Counted id base world (phase :: phases))
    (honest : Honest env world (phase :: phases))
    (tracks : (mailProtocol env false).Tracks others phases)
    (permitted : soleWorker.mayCall request world others)
    (answers : (mailMachine env false).Answers request world answer moved)
    (leads : Phase.Leads env phase request answer after) :
    Counted id base moved (after :: phases) := by
  by_cases marks : MarksRow id request
  · exact counted.marks honest answers leads marks
  intro row member isId isScheduled
  have notChange : phase ≠ .change := by
    rintro rfl
    exact (honest.inHand _ (.head _)).current
  have wasStored := scheduled_of_not_marksRow notChange answers leads marks isId member
  have stillHeld : (∃ held ∈ phase :: phases, held.HasRow id) →
      ∃ held ∈ after :: phases, held.HasRow id := by
    rintro ⟨held, heldMem, has⟩
    rcases mem_cons.mp heldMem with rfl | heldMem
    · rcases leads.hasRow_after (possible_of_answers answers) has with isMark | still
      · exact absurd isMark marks
      · exact ⟨after, .head _, still⟩
    · exact ⟨held, .tail _ heldMem, has⟩
  have bound := counted row wasStored isId isScheduled
  rcases claims_of_answers answers with sameClaims | ⟨now, limit, rfl⟩
  · rw [sameClaims]
    rcases bound with bound | ⟨bound, held⟩
    · exact .inl bound
    · exact .inr ⟨bound, stillHeld held⟩
  · cases leads with
    | send leads | work leads => cases leads
    | @claims _ _ due =>
      obtain ⟨isDue, rfl⟩ := Prod.mk.inj answers
      cases isDue
      have claimed : World.claims
          { world with
            claims := world.claims ++
              (world.claimDueScheduled now limit).map ScheduledRow.id } =
          world.claims ++ (world.claimDueScheduled now limit).map ScheduledRow.id := rfl
      rw [claimed, count_append]
      by_cases isClaimed : id ∈ (world.claimDueScheduled now limit).map ScheduledRow.id
      · have once := (claimDueScheduled_nodup world now limit).count (a := id)
        rw [if_pos isClaimed] at once
        obtain ⟨claimedRow, claimedMem, claimedId⟩ := List.mem_map.mp isClaimed
        have before : world.claims.count id ≤ base + row.attempts := by
          rcases bound with bound | ⟨-, held, heldMem, has⟩
          · exact bound
          · rcases mem_cons.mp heldMem with rfl | heldMem
            · obtain ⟨other, otherMem, -⟩ := has
              exact absurd otherMem not_mem_nil
            · obtain ⟨thread, threadMem, follows⟩ := tracks.exists_of_mem heldMem
              exact absurd (worksOn_of_hasRow follows has)
                (claimedId ▸ permitted claimedRow claimedMem thread threadMem)
        refine .inr ⟨by omega, _, .head _, claimedRow, ?_, claimedId⟩
        rwa [Phase.rows_turnTo]
      · rw [count_eq_zero_of_not_mem isClaimed, Nat.add_zero]
        rcases bound with bound | ⟨bound, held⟩
        · exact .inl bound
        · exact .inr ⟨bound, stillHeld held⟩

end Progress

/-- Every step of drain passes keeps everything right, where rows are claimed one pass at
a time. -/
theorem honest_preserved (env : Env) {condition : RunCondition mailSignature World Operation}
    (sole : ∀ {request world others}, condition.mayCall request world others →
      soleWorker.mayCall request world others) :
    (mailProtocol env false).Preserves (gateway env false drains) condition Operation.first
      (Honest env) where
  perm reordered honest := by
    obtain ⟨⟨unique, entries⟩, rows, inHand, apart⟩ := honest
    refine ⟨⟨unique, fun phase member => entries phase (reordered.mem_iff.mpr member)⟩, rows,
      fun phase member => inHand phase (reordered.mem_iff.mpr member), ?_⟩
    apply (reordered.pairwise_iff ?_).mp apart
    intro first second disjoint id has others
    exact disjoint id others has
  start {world phases} op running startable honest := by
    obtain ⟨⟨unique, entries⟩, rows, inHand, apart⟩ := honest
    cases op with
    | drain now =>
      have passHonest : PhaseHonest world .pass :=
        ⟨forall_mem_nil _, .nil, trivial⟩
      refine ⟨⟨unique, ?_⟩, rows, ?_, ?_⟩
      · exact forall_mem_cons.mpr ⟨trivial, entries⟩
      · exact forall_mem_cons.mpr ⟨passHonest, inHand⟩
      · apply pairwise_cons.mpr
        refine ⟨?_, apart⟩
        rintro other - id ⟨row, member, -⟩
        exact absurd member not_mem_nil
    | _ => exact startable.elim
  call tracks permitted answers leads honest :=
    honest.call tracks (sole permitted) answers leads
  environment {world moved phases} moves honest := by
    obtain ⟨clock, around, -, rfl⟩ := moves
    have same : ∀ id, SameFor id world { world with clock, around } :=
      fun id => ⟨fun _ _ => .rfl, fun _ _ => .rfl, fun _ _ => .rfl, .rfl⟩
    refine ⟨⟨honest.filed.unique, honest.filed.inHand⟩,
      fun id => (honest.rows id).of_sameFor (same id), ?_, honest.apart⟩
    intro phase member
    exact (honest.inHand phase member).of_sameFor (fun id _ => same id) fun id settled => settled
  stop _ _ honest := by
    obtain ⟨⟨unique, entries⟩, rows, inHand, apart⟩ := honest
    exact ⟨⟨unique, (forall_mem_cons.mp entries).2⟩, rows,
      (forall_mem_cons.mp inHand).2, (pairwise_cons.mp apart).2⟩

/-- Where nobody stops with the row in hand, its claims stay counted. -/
theorem counted_preserved (env : Env) (id : String) (base : Nat) :
    (mailProtocol env false).Preserves (gateway env false drains) (undying soleWorker id)
      Operation.first
      fun world phases => Honest env world phases ∧ Counted id base world phases := by
  have honestly : (mailProtocol env false).Preserves (gateway env false drains)
      (undying soleWorker id) Operation.first (Honest env) :=
    honest_preserved env fun permitted => permitted
  constructor
  · rintro world phases reordered perm ⟨honest, counted⟩
    refine ⟨honestly.perm perm honest, ?_⟩
    intro row member isId isScheduled
    rcases counted row member isId isScheduled with bound | ⟨bound, phase, phaseMem, has⟩
    · exact .inl bound
    · exact .inr ⟨bound, phase, perm.mem_iff.mp phaseMem, has⟩
  · rintro world phases op running startable ⟨honest, counted⟩
    refine ⟨honestly.start op running startable honest, ?_⟩
    intro row member isId isScheduled
    rcases counted row member isId isScheduled with bound | ⟨bound, phase, phaseMem, has⟩
    · exact .inl bound
    · exact .inr ⟨bound, phase, .tail _ phaseMem, has⟩
  · rintro world moved phase after phases request answer others tracks permitted answers leads
      ⟨honest, counted⟩
    exact ⟨honestly.call tracks permitted answers leads honest,
      counted.call honest tracks permitted answers leads⟩
  · rintro world moved phases moves ⟨honest, counted⟩
    refine ⟨honestly.environment moves honest, ?_⟩
    obtain ⟨clock, around, -, rfl⟩ := moves
    exact counted
  · rintro world phase phases thread follows mayStop ⟨honest, counted⟩
    refine ⟨honestly.stop follows mayStop honest, ?_⟩
    intro row member isId isScheduled
    rcases counted row member isId isScheduled with bound | ⟨bound, held, heldMem, has⟩
    · exact .inl bound
    · rcases mem_cons.mp heldMem with rfl | heldMem
      · exact absurd (worksOn_of_hasRow follows has) mayStop.2
      · exact .inr ⟨bound, held, heldMem, has⟩

theorem honest_of_fresh {start : World} (fresh : Fresh start) : Honest env start [] := by
  have noEntry : ∀ entry, entry ∉ start.sendLog := by
    intro entry
    rw [fresh.sendLog]
    exact notMem_empty entry
  refine ⟨⟨fun entry member => absurd member (noEntry entry), forall_mem_nil _⟩, ?_,
    forall_mem_nil _, .nil⟩
  intro id
  refine ⟨?_, fun entry member => absurd member (noEntry entry),
    fun entry member => absurd member (noEntry entry), ?_⟩
  · intro row member isId
    obtain ⟨isScheduled, noAttempts⟩ := fresh.scheduled row member
    simp only [StatusHonest, isScheduled, noAttempts, fresh.released]
    exact ⟨by decide, not_mem_nil⟩
  · rintro ⟨sent, member, -⟩
    rw [fresh.accepted] at member
    exact absurd member not_mem_nil

theorem Honest.truthful {phases : List Phase} (honest : Honest env world phases) :
    Truthful world := by
  constructor
  · intro row member isSent
    have status := (honest.rows row.id).status row member rfl
    simp only [StatusHonest, isSent] at status
    exact status
  · intro row member isFailed
    have status := (honest.rows row.id).status row member rfl
    simp only [StatusHonest, isFailed] at status
    exact status

/-- Where rows are claimed by one pass at a time and unfinished sends are what they seem,
scheduled mails are marked honestly. -/
theorem marksHonestly_of_soleWorker (env : Env) : MarksHonestly env soleWorker := by
  intro start middle fresh reached
  have governs := gateway_governed env false drains
  obtain ⟨phases, tracks, honest⟩ :=
    (honest_preserved env fun permitted => permitted).reached governs reached
      (honest_of_fresh fresh)
  refine ⟨honest.truthful, ?_⟩
  intro id final _ further idle claimed row member isId
  have initial : (mailProtocol env false).Holds (fun world phases =>
      Honest env world phases ∧ Counted id (middle.world.claims.count id) world phases)
      middle :=
    ⟨phases, tracks, honest, fun row _ _ _ => .inl (Nat.le_add_right _ _)⟩
  obtain ⟨later, laterTracks, laterHonest, counted⟩ :=
    (counted_preserved env id _).run governs further initial
  have status := (laterHonest.rows row.id).status row member rfl
  cases isStatus : row.status with
  | sent => exact .inl rfl
  | failed => exact .inr rfl
  | canceled => simp only [StatusHonest, isStatus] at status
  | scheduled =>
    simp only [StatusHonest, isStatus] at status
    rcases counted row member isId isStatus with bound | ⟨-, phase, phaseMem, has⟩
    · omega
    · obtain ⟨thread, threadMem, follows⟩ := laterTracks.exists_of_mem phaseMem
      exact absurd (worksOn_of_hasRow follows has) (idle thread threadMem)

def dueRow : ScheduledRow where
  id := "s1"
  ownerUserId := none
  toAddresses := [⟨"member@example.com", none⟩]
  cc := none
  bcc := none
  subject := "hello"
  textBody := "welcome"
  htmlBody := none
  inReplyTo := none
  fromAddress := some "info@example.org"
  scheduledAt := 0
  status := .scheduled
  sentMessageId := none
  errorCode := none
  attempts := 0
  updatedAt := 0

def oneScheduled : World :=
  { emptyWorld with scheduled := ⟨[dueRow], nodup_singleton _⟩ }

theorem fresh_oneScheduled : Fresh oneScheduled := by
  refine ⟨rfl, rfl, rfl, ?_⟩
  intro row member
  obtain rfl := mem_singleton.mp member
  exact ⟨rfl, rfl⟩

def drainReferee : Referee (gateway plainEnv false drains) anyCall where
  mayCall _ _ := true
  mayStart _ op :=
    match op with
    | .drain _ => true
    | _ => false
  allowed_of_mayCall _ := trivial
  startable_of_mayStart {running op} permitted := by
    cases op with
    | drain now => exact trivial
    | _ => cases permitted

/-- A pass claims the key of the row and gets no further; the next one finds the claim
pending. -/
def leftPending : List (Move mailSignature World Operation) :=
  .start (.drain 0) :: List.replicate 9 (.call 0 accepting) ++
    .start (.drain 1) :: List.replicate 8 (.call 0 accepting)

/-- The row is marked sent, and nothing was accepted for it. -/
theorem not_marksHonestly : ¬MarksHonestly plainEnv anyStep := by
  intro honestly
  obtain ⟨config, reached, unsent⟩ := drainReferee.exists_reachable_of_play leftPending oneScheduled
    (fun world => world.accepted = [] ∧ ∃ row ∈ world.scheduled.rows, row.status = .sent)
    (by
      intro moved member
      simp [leftPending] at member)
    (by decide +kernel)
  obtain ⟨noneAccepted, row, member, isSent⟩ := of_decide_eq_true unsent
  obtain ⟨truthful, -⟩ :=
    honestly oneScheduled config fresh_oneScheduled (reachableUnder_anyStep reached)
  obtain ⟨sent, sentMem, -⟩ := truthful.sent row member isSent
  rw [noneAccepted] at sentMem
  exact absurd sentMem not_mem_nil

end DubEcosystem.MailGateway
