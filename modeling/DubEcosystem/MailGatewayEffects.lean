import DubEcosystem.MailGatewayProtocol

/-!
# mail-gateway: what a call does to the tables

Which calls change the send log and the list of accepted messages, and how.  A row of the
log keeps its id, its key and its hash for good.
-/

namespace DubEcosystem.MailGateway

open Interleaving PortPrograms KeyedTable

variable {env : Env} {faults : Bool} {world moved : World} {key : String}
  {request : Call} {answer : Except Thrown (Result request)}

/-- The calls that change nothing. -/
def Reads : Call → Prop
  | .fault => True
  | .now => True
  | .resolveThreadId _ => True
  | .findSendByKey _ => True
  | .newSendLogId => True
  | .buildReferences _ _ _ => True
  | .loadScheduledAttachments _ => True
  | .resolveFromAddress _ _ => True
  | _ => False

theorem eq_of_reads (reads : Reads request)
    (answers : (mailMachine env faults).Answers request world answer moved) :
    moved = world := by
  cases request with
  | fault =>
    cases faults with
    | true => cases answer <;> exact answers
    | false => exact (Prod.mk.inj answers).2.symm
  | now | resolveThreadId | findSendByKey | newSendLogId | buildReferences
  | loadScheduledAttachments | resolveFromAddress =>
    exact (Prod.mk.inj answers).2.symm
  | _ => exact reads.elim

section Sends

variable {α : Type} (project : World → α)

theorem eq_of_providerSend {outbound : OutboundMail}
    {answer : Except Thrown (Result (.providerSend key outbound))}
    (answers : (mailMachine env faults).Answers (.providerSend key outbound) world answer moved)
    (keeps : ∀ accepted, project { world with accepted := accepted } = project world) :
    project moved = project world := by
  cases answer with
  | ok _ =>
    have isMoved : moved = { world with accepted := (key, outbound) :: world.accepted } := answers
    rw [isMoved, keeps]
  | error _ => exact congrArg project answers

theorem eq_of_insertSendClaim {claim : SendClaim}
    {answer : Except Thrown (Result (.insertSendClaim claim))}
    (answers : (mailMachine env faults).Answers (.insertSendClaim claim) world answer moved)
    (keeps : ∀ sendLog, project { world with sendLog := sendLog } = project world) :
    project moved = project world := by
  have isMoved : moved = (world.insertSendClaim claim).2 := (Prod.mk.inj answers).2.symm
  rcases insertSendClaim_cases world claim with ⟨-, same⟩ | ⟨-, _, -, -, inserted⟩
  · rw [isMoved, same]
  · rw [isMoved, inserted, keeps]

end Sends

def World.acceptedFor (world : World) (key : String) : List (String × OutboundMail) :=
  world.accepted.filter fun sent => sent.1 = key

inductive Accepts (key : String) (outbound : OutboundMail) :
    (request : Call) → Except Thrown (Result request) → Prop
  | accepts {providerMessageId : String} :
      Accepts key outbound (.providerSend key outbound) (.ok providerMessageId)

theorem accepted_of_answers
    (answers : (mailMachine env faults).Answers request world answer moved) :
    moved.accepted = world.accepted ∨ ∃ key outbound, Accepts key outbound request answer ∧
        moved.accepted = (key, outbound) :: world.accepted := by
  cases request with
  | fault => exact .inl (congrArg World.accepted (eq_of_reads (by exact trivial) answers))
  | providerSend key outbound =>
    cases answer with
    | ok messageId =>
      exact .inr ⟨key, outbound, .accepts, congrArg World.accepted answers⟩
    | error _ => exact .inl (congrArg World.accepted answers)
  | insertSendClaim => exact .inl (eq_of_insertSendClaim World.accepted answers fun _ => rfl)
  | _ =>
    cases answers
    exact .inl rfl

theorem acceptedFor_eq_of_accepted_eq (same : moved.accepted = world.accepted)
    (key : String) : moved.acceptedFor key = world.acceptedFor key := by
  unfold World.acceptedFor
  rw [same]

theorem acceptedFor_of_accepted_cons {sentFor : String} {outbound : OutboundMail}
    (isCons : moved.accepted = (sentFor, outbound) :: world.accepted) (key : String) :
    moved.acceptedFor key = if sentFor = key then (sentFor, outbound) :: world.acceptedFor key
      else world.acceptedFor key := by
  unfold World.acceptedFor
  rw [isCons]
  simp [List.filter_cons]

def MarksEntry (id : String) : Call → Prop
  | .markSendSent marked _ _ => marked = id
  | .markSendFailed marked _ => marked = id
  | _ => False

section

variable (answers : (mailMachine env faults).Answers request world answer moved)
include answers

theorem sendLog_of_answers :
    moved.sendLog = world.sendLog ∨ (∃ id change keeps, MarksEntry id request ∧
        (∀ row, (change row).id = row.id ∧ (change row).reqHash = row.reqHash) ∧
          moved.sendLog = world.sendLog.update (fun row => row.id = id) change keeps) ∨
      (∃ claim, request = .insertSendClaim claim ∧ (∀ entry ∈ world.sendLog, entry.id ≠ claim.id) ∧
          world.sendLog.insert? (world.pendingRow claim) = some moved.sendLog) := by
  cases request with
  | fault => exact .inl (congrArg World.sendLog (eq_of_reads (by exact trivial) answers))
  | providerSend => exact .inl (eq_of_providerSend World.sendLog answers fun _ => rfl)
  | markSendSent id | markSendFailed id =>
    cases answers
    refine .inr (.inl ⟨id, _, ?_, rfl, ?_, rfl⟩)
    · exact fun _ => rfl
    · exact fun _ => ⟨rfl, rfl⟩
  | insertSendClaim claim =>
    have isMoved : moved = (world.insertSendClaim claim).2 := (Prod.mk.inj answers).2.symm
    rcases insertSendClaim_cases world claim with
      ⟨-, kept⟩ | ⟨fresh, sendLog, inserts, -, inserted⟩
    · exact .inl (congrArg World.sendLog (isMoved.trans kept))
    · refine .inr (.inr ⟨claim, rfl, fresh, ?_⟩)
      rw [isMoved, inserted]
      exact inserts
  | _ =>
    cases answers
    exact .inl rfl

theorem entry_of_answers {entry : SendLogRow} (member : entry ∈ world.sendLog) :
    ∃ now ∈ moved.sendLog, now.id = entry.id ∧
      now.idempotencyKey = entry.idempotencyKey ∧ now.reqHash = entry.reqHash := by
  rcases sendLog_of_answers answers with
    same | ⟨id, change, keeps, -, keepsRest, isUpdated⟩ | ⟨claim, -, -, inserts⟩
  · exact ⟨entry, same ▸ member, rfl, rfl, rfl⟩
  · refine ⟨_, isUpdated ▸ mem_update.mpr ⟨entry, member, rfl⟩, ?_⟩
    split
    · exact ⟨(keepsRest entry).1, keeps entry, (keepsRest entry).2⟩
    · exact ⟨rfl, rfl, rfl⟩
  · exact ⟨entry, (mem_insert? inserts).mpr (.inl member), rfl, rfl, rfl⟩

theorem mem_sendLog_of_answers {now : SendLogRow} (member : now ∈ moved.sendLog) :
    (∃ entry ∈ world.sendLog, now.id = entry.id ∧
      now.idempotencyKey = entry.idempotencyKey ∧ now.reqHash = entry.reqHash) ∨
      ∃ claim, request = .insertSendClaim claim ∧ now = world.pendingRow claim ∧
        ∀ entry ∈ world.sendLog,
          entry.id ≠ claim.id ∧ entry.idempotencyKey ≠ claim.idempotencyKey := by
  rcases sendLog_of_answers answers with
    same | ⟨id, change, keeps, -, keepsRest, isUpdated⟩ | ⟨claim, isInsert, fresh, inserts⟩
  · exact .inl ⟨now, same ▸ member, rfl, rfl, rfl⟩
  · rw [isUpdated, mem_update] at member
    obtain ⟨entry, entryMem, rfl⟩ := member
    refine .inl ⟨entry, entryMem, ?_⟩
    split
    · exact ⟨(keepsRest entry).1, keeps entry, (keepsRest entry).2⟩
    · exact ⟨rfl, rfl, rfl⟩
  · rcases (mem_insert? inserts).mp member with old | isNew
    · exact .inl ⟨now, old, rfl, rfl, rfl⟩
    · refine .inr ⟨claim, isInsert, isNew, ?_⟩
      intro entry entryMem
      exact ⟨fresh entry entryMem, (insert?_eq_some inserts).2 entry entryMem⟩

end

def World.Logs (world : World) (key : String) : Prop :=
  ∃ row ∈ world.sendLog, row.idempotencyKey = key

section

variable (answers : (mailMachine env faults).Answers request world answer moved)
include answers

theorem logs_of_answers (logs : world.Logs key) : moved.Logs key := by
  obtain ⟨row, member, isKey⟩ := logs
  obtain ⟨now, nowMem, -, sameKey, -⟩ := entry_of_answers answers member
  exact ⟨now, nowMem, sameKey.trans isKey⟩

omit answers in
theorem not_logs_of_claims {claim : SendClaim} {count : Nat} (won : count ≠ 0)
    (answers : (mailMachine env faults).Answers (.insertSendClaim claim) world (.ok count)
      moved) : ¬world.Logs claim.idempotencyKey := by
  rintro ⟨row, member, isKey⟩
  have counted : (world.insertSendClaim claim).1 = count :=
    Except.ok.inj (Prod.mk.inj answers).1
  rcases insertSendClaim_cases world claim with ⟨lost, -⟩ | ⟨-, _, inserts, -, -⟩
  · exact won (counted.symm.trans lost)
  · exact (insert?_eq_some inserts).2 row member isKey

/-- The answers by which a send comes to own the row `id` of the key. -/
inductive Acquires (key : String) :
    (id : String) → (request : Call) → Except Thrown (Result request) → Prop
  | takesUp {existing : SendLogRow} (failed : existing.status = .failed) :
      Acquires key existing.id (.findSendByKey key) (.ok (some existing))
  | claims {claim : SendClaim} {count : Nat} (isKey : claim.idempotencyKey = key)
      (won : count ≠ 0) : Acquires key claim.id (.insertSendClaim claim) (.ok count)

/-- Who comes to own a row owns one that is there, under its key. -/
theorem entry_of_acquires {id : String} (acquires : Acquires key id request answer) :
    ∃ entry ∈ moved.sendLog, entry.id = id ∧ entry.idempotencyKey = key := by
  cases acquires with
  | @takesUp existing failed =>
    obtain ⟨isFound, rfl⟩ := Prod.mk.inj answers
    have found : world.findSendByKey key = some existing := Except.ok.inj isFound
    obtain ⟨member, isKey⟩ := find?_eq_some.mp found
    exact ⟨existing, member, rfl, isKey⟩
  | @claims claim count isKey won =>
    obtain ⟨isCount, isMoved⟩ := Prod.mk.inj answers
    have counted : (world.insertSendClaim claim).1 = count := Except.ok.inj isCount
    rcases insertSendClaim_cases world claim with ⟨lost, -⟩ | ⟨-, _, inserts, -, inserted⟩
    · exact absurd (counted.symm.trans lost) won
    · refine ⟨world.pendingRow claim, ?_, rfl, isKey⟩
      rw [← isMoved, inserted]
      exact (mem_insert? inserts).mpr (.inr rfl)

theorem logs_of_acquires {id : String} (acquires : Acquires key id request answer) :
    moved.Logs key := by
  obtain ⟨entry, member, -, isKey⟩ := entry_of_acquires answers acquires
  exact ⟨entry, member, isKey⟩

end

theorem acceptedFor_eq_nil_of_not_logs
    (logged : ∀ sent ∈ world.accepted, world.Logs sent.1) (free : ¬world.Logs key) :
    world.acceptedFor key = [] := by
  apply List.filter_eq_nil_iff.mpr
  intro sent member isKey
  exact free (of_decide_eq_true isKey ▸ logged sent member)

section

variable (answers : (mailMachine env faults).Answers request world answer moved)
include answers

theorem scheduled_of_answers :
    moved.scheduled = world.scheduled ∨ ∃ id covers change keepsId, moved.scheduled =
        (world.changeScheduled id covers change keepsId).2.scheduled := by
  cases request with
  | fault => exact .inl (congrArg World.scheduled (eq_of_reads (by exact trivial) answers))
  | providerSend => exact .inl (eq_of_providerSend World.scheduled answers fun _ => rfl)
  | insertSendClaim => exact .inl (eq_of_insertSendClaim World.scheduled answers fun _ => rfl)
  | markScheduledSent id | markScheduledAttemptFailed id | cancelScheduled id
  | updateScheduled id =>
    cases answers
    refine .inr ⟨id, _, _, ?_, rfl⟩
    exact fun _ => rfl
  | _ =>
    cases answers
    exact .inl rfl

def World.Settled (world : World) (id : String) : Prop :=
  ∀ row ∈ world.scheduled, row.id = id → row.status ≠ .scheduled

theorem settled_of_answers {id : String} (settled : world.Settled id) : moved.Settled id := by
  intro row member isId
  rcases scheduled_of_answers answers with same | ⟨changed, covers, change, keepsId, isChanged⟩
  · exact settled row (same ▸ member) isId
  · rw [isChanged, mem_changeScheduled] at member
    obtain ⟨old, oldMem, rfl⟩ := member
    split
    · rename_i selected
      rw [if_pos selected, keepsId] at isId
      exact absurd selected.2.1 (settled old oldMem isId)
    · rename_i notSelected
      rw [if_neg notSelected] at isId
      exact settled old oldMem isId

theorem claims_of_answers :
    moved.claims = world.claims ∨ ∃ now limit, request = .claimDueScheduled now limit := by
  cases request with
  | fault => exact .inl (congrArg World.claims (eq_of_reads (by exact trivial) answers))
  | providerSend => exact .inl (eq_of_providerSend World.claims answers fun _ => rfl)
  | insertSendClaim => exact .inl (eq_of_insertSendClaim World.claims answers fun _ => rfl)
  | claimDueScheduled now limit => exact .inr ⟨now, limit, rfl⟩
  | _ =>
    cases answers
    exact .inl rfl

end

end DubEcosystem.MailGateway
