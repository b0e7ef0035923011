import DubEcosystem.KeyedTable
import DubEcosystem.MailGatewayTypes

/-!
# mail-gateway: the send log and the scheduled mails

The statements of `repo.ts` on `mail_send_log` and `mail_scheduled`, each one atomic.
The world also keeps what the provider has accepted, and which scheduled rows were claimed.
-/

namespace DubEcosystem.MailGateway

open List

/-- What the gateway learns from outside its two tables. -/
structure Surroundings where
  threadRoot : List String → Option String
  references : String → Option String → String → List String
  fromAddress : Option String → Option String → String
  drawnId : String

structure World where
  clock : Int
  around : Surroundings
  sendLog : KeyedTable SendLogRow.idempotencyKey
  scheduled : KeyedTable ScheduledRow.id
  /-- Schedules whose parked files were deleted. -/
  released : List String
  /-- The messages that the provider accepted, under the key they were sent for. -/
  accepted : List (String × OutboundMail)
  /-- The scheduled rows that drain passes claimed, once for each claim. -/
  claims : List String

/-- The columns of a claim that its caller supplies. -/
structure SendClaim where
  id : String
  idempotencyKey : String
  reqHash : String
  requester : String
  toAddresses : List MailAddress
  subject : String
  threadId : Option String
  textBody : String
  htmlBody : Option String
  cc : List MailAddress
  bcc : Option (List MailAddress)
  fromAddress : String
  ownerUserId : Option String

namespace World

variable (world : World)

def findSendByKey (idempotencyKey : String) : Option SendLogRow :=
  world.sendLog.find? idempotencyKey

def pendingRow (claim : SendClaim) : SendLogRow where
  id := claim.id
  idempotencyKey := claim.idempotencyKey
  reqHash := claim.reqHash
  requester := claim.requester
  toAddresses := claim.toAddresses
  subject := claim.subject
  threadId := claim.threadId
  provider := none
  providerMessageId := none
  status := .pending
  errorCode := none
  createdAt := world.clock
  updatedAt := world.clock
  textBody := claim.textBody
  htmlBody := claim.htmlBody
  cc := claim.cc
  fromAddress := claim.fromAddress
  ownerUserId := claim.ownerUserId
  bcc := claim.bcc

/-- `INSERT OR IGNORE`: a taken id or a taken key changes nothing. -/
def insertSendClaim (claim : SendClaim) : Nat × World :=
  if world.sendLog.rows.any fun row => row.id = claim.id then (0, world)
  else
    match world.sendLog.insert? (world.pendingRow claim) with
    | none => (0, world)
    | some sendLog => (1, { world with sendLog })

variable (id : String)

def markSendSent (provider providerMessageId : String) : World :=
  { world with
    sendLog := world.sendLog.update (fun row => row.id = id) (fun row =>
        { row with
          status := .sent, provider := some provider
          providerMessageId := some providerMessageId, errorCode := none
          updatedAt := world.clock })
      fun _ => rfl }

def markSendFailed (errorCode : String) : World :=
  { world with
    sendLog := world.sendLog.update (fun row => row.id = id) (fun row =>
        { row with
          status := .failed, errorCode := some errorCode, updatedAt := world.clock })
      fun _ => rfl }

def claimDueScheduled (now : Int) (limit : Nat) : List ScheduledRow :=
  ((world.scheduled.rows.filter fun row =>
    row.status = .scheduled ∧ row.scheduledAt ≤ now).mergeSort fun first second =>
      first.scheduledAt ≤ second.scheduledAt).take limit

/-- `UPDATE mail_scheduled SET change WHERE id = ? AND status = 'scheduled'` and what else
is asked of the row, with the number of rows changed. -/
def changeScheduled (covers : ScheduledRow → Bool) (change : ScheduledRow → ScheduledRow)
    (keepsId : ∀ row, (change row).id = row.id) : Nat × World :=
  let selected := fun row : ScheduledRow =>
    decide (row.id = id ∧ row.status = .scheduled) && covers row
  (if world.scheduled.selects selected then 1 else 0,
    { world with scheduled := world.scheduled.update selected change keepsId })

def updateScheduled (scope : MailScope) (patch : SchedulePatch) : Nat × World :=
  world.changeScheduled id scope.covers
    (fun row => { patch.apply row with updatedAt := world.clock }) fun _ => rfl

def cancelScheduled (scope : MailScope) : Nat × World :=
  world.changeScheduled id scope.covers
    (fun row => { row with status := .canceled, updatedAt := world.clock }) fun _ => rfl

def markScheduledSent (sentMessageId : String) (attempts : Nat) : World :=
  (world.changeScheduled id (fun _ => true) (fun row =>
      { row with
        status := .sent, sentMessageId := some sentMessageId, errorCode := none
        attempts, updatedAt := world.clock })
    fun _ => rfl).2

/-- At `maxAttempts` the row is given up. -/
def markScheduledAttemptFailed (errorCode : String) (attempts maxAttempts : Nat) :
    World :=
  (world.changeScheduled id (fun _ => true) (fun row =>
      { row with
        status := if maxAttempts ≤ attempts then .failed else .scheduled
        errorCode := some errorCode, attempts, updatedAt := world.clock })
    fun _ => rfl).2

/-- The parked files of a schedule, unless they were deleted. -/
def loadScheduledAttachments (parked : String → List MailAttachmentInput) (id : String) :
    Option (List MailAttachmentInput) :=
  if parked id = [] then some []
  else if id ∈ world.released then none
  else some (parked id)

end World

section Changes

variable {world : World} {id : String} {covers : ScheduledRow → Bool}
  {change : ScheduledRow → ScheduledRow} {keepsId : ∀ row, (change row).id = row.id}
  {row : ScheduledRow}

/-- A statement on one scheduled row leaves the others, and changes that one if it is
still scheduled. -/
theorem mem_changeScheduled : row ∈ (world.changeScheduled id covers change keepsId).2.scheduled ↔
      ∃ old ∈ world.scheduled,
        (if old.id = id ∧ old.status = .scheduled ∧ covers old = true then change old
          else old) = row := by
  have updated : row ∈ world.scheduled.update
      (fun row => decide (row.id = id ∧ row.status = .scheduled) && covers row) change
        keepsId ↔ ∃ old ∈ world.scheduled,
        (if old.id = id ∧ old.status = .scheduled ∧ covers old = true then change old
          else old) = row := by
    simp only [KeyedTable.mem_update, Bool.and_eq_true, decide_eq_true_eq, and_assoc]
  exact updated

theorem changeScheduled_ne_zero : (world.changeScheduled id covers change keepsId).1 ≠ 0 ↔
      ∃ row ∈ world.scheduled, row.id = id ∧ row.status = .scheduled ∧ covers row = true := by
  unfold World.changeScheduled
  simp only [ne_eq, ite_eq_right_iff, Nat.one_ne_zero, imp_false, not_not,
    KeyedTable.selects_eq_true, Bool.and_eq_true, decide_eq_true_eq, and_assoc]

theorem mem_claimDueScheduled {now : Int} {limit : Nat}
    (member : row ∈ world.claimDueScheduled now limit) :
    row ∈ world.scheduled ∧ row.status = .scheduled := by
  have sorted := mem_of_mem_take member
  rw [mem_mergeSort, mem_filter] at sorted
  exact ⟨sorted.1, (of_decide_eq_true sorted.2).1⟩

theorem claimDueScheduled_nodup (world : World) (now : Int) (limit : Nat) :
    ((world.claimDueScheduled now limit).map ScheduledRow.id).Nodup := by
  have due : ((world.scheduled.rows.filter fun row =>
      row.status = .scheduled ∧ row.scheduledAt ≤ now).map ScheduledRow.id).Nodup :=
    world.scheduled.keysNodup.sublist (filter_sublist.map ScheduledRow.id)
  have sorted := ((mergeSort_perm _ fun first second : ScheduledRow =>
    decide (first.scheduledAt ≤ second.scheduledAt)).map ScheduledRow.id).nodup_iff.mpr due
  exact sorted.sublist ((take_sublist limit _).map ScheduledRow.id)

end Changes

variable {world : World} {claim : SendClaim} {entry : SendLogRow}

/-- A claim that wins adds the only row under its key and its id, and one that loses
changes nothing. -/
theorem insertSendClaim_cases (world : World) (claim : SendClaim) :
    ((world.insertSendClaim claim).1 = 0 ∧ (world.insertSendClaim claim).2 = world) ∨
      ((∀ entry ∈ world.sendLog, entry.id ≠ claim.id) ∧
        ∃ sendLog, world.sendLog.insert? (world.pendingRow claim) = some sendLog ∧
          (world.insertSendClaim claim).1 = 1 ∧
            (world.insertSendClaim claim).2 = { world with sendLog }) := by
  unfold World.insertSendClaim
  split
  · exact .inl ⟨rfl, rfl⟩
  · rename_i fresh
    have idIsNew : ∀ entry ∈ world.sendLog, entry.id ≠ claim.id := by
      intro entry member isId
      exact fresh (any_eq_true.mpr ⟨entry, member, decide_eq_true isId⟩)
    cases inserted : world.sendLog.insert? (world.pendingRow claim) with
    | none => exact .inl ⟨rfl, rfl⟩
    | some sendLog => exact .inr ⟨idIsNew, sendLog, rfl, rfl, rfl⟩

end DubEcosystem.MailGateway
