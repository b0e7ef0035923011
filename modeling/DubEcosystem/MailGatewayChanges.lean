import DubEcosystem.MailGatewayHonest

/-!
# mail-gateway: confirmed cancellations and edits

A cancellation or an edit that reports a changed row holds, as long as no pass had the row
in hand, and an edit does not change what was logged for an earlier attempt.
-/

namespace DubEcosystem.MailGateway

open Relation Interleaving PortPrograms List KeyedTable

variable {env : Env} {world moved : World} {phase after : Phase}
  {request : Call} {answer : Except Thrown (Result request)} {id : String}

/-- Drain passes, cancellations and edits run. -/
def schedules : Operation → Prop
  | .send _ _ _ _ => False
  | _ => True

abbrev scheduling (env : Env) : System mailSignature World Operation :=
  gateway env false schedules

def HandsOver (key : String) (outbound : OutboundMail) (program : Prog mailSignature Unit) : Prop :=
  ∃ next, program = .call (.providerSend key outbound) next

def Unsent (id : String) (config : Config mailSignature World Operation) : Prop :=
  ¬config.world.HasAccepted (schedKey id) ∧
    ∀ thread ∈ config.threads, ∀ outbound, ¬HandsOver (schedKey id) outbound thread.2

/-- Every message that is handed over for the row carries what the row holds now, and what
was logged for an earlier attempt does not stand against another one. -/
def UpToDate (env : Env) (id : String) (config : Config mailSignature World Operation) :
    Prop :=
  ∀ row ∈ config.world.scheduled, row.id = id → (∀ thread ∈ config.threads, ∀ outbound,
      HandsOver (schedKey id) outbound thread.2 → Carries row outbound) ∧
      (row.status = .scheduled → ∀ entry, config.world.findSendByKey (schedKey id) = some entry →
          entry.reqHash = hashOf env row)

/-- A cancellation that reports a changed row: nothing was accepted before, and nothing is
handed over or accepted afterwards. -/
def CancelHolds (env : Env) (condition : RunCondition mailSignature World Operation) : Prop :=
  ∀ start before middle later id scope changed, Fresh start →
    (scheduling env).ReachableUnder condition start before →
      (scheduling env).CallUnder condition (.cancelScheduled id scope) (.ok changed) before
        middle → changed ≠ 0 → ReflTransGen ((scheduling env).StepUnder condition) middle later →
            ¬before.world.HasAccepted (schedKey id) ∧ Unsent id later

/-- An edit that reports a changed row: the row holds the edit, and from then on what is
handed over is what the row holds, and is not refused for what was sent before. -/
def EditHolds (env : Env) (condition : RunCondition mailSignature World Operation) : Prop :=
  ∀ start before middle later id scope patch changed, Fresh start →
    (scheduling env).ReachableUnder condition start before →
      (scheduling env).CallUnder condition (.updateScheduled id scope patch) (.ok changed)
        before middle → changed ≠ 0 →
          ReflTransGen ((scheduling env).StepUnder condition) middle later →
            (∃ row ∈ before.world.scheduled, row.id = id ∧
              { patch.apply row with updatedAt := before.world.clock } ∈
                middle.world.scheduled) ∧ UpToDate env id later

def ChangesHold (env : Env) (condition : RunCondition mailSignature World Operation) : Prop :=
  CancelHolds env condition ∧ EditHolds env condition

/-- A row is canceled or edited only while nobody has it in hand; an edit of a row that was
tried before leaves the hash of its request; and nobody stops with a row in hand. -/
def changesApart (env : Env) : RunCondition mailSignature World Operation where
  mayCall request world others :=
    match request with
    | .cancelScheduled id scope => ∀ row ∈ world.scheduled,
        row.id = id → row.status = .scheduled → scope.covers row = true → Idle id others
    | .updateScheduled id scope patch => ∀ row ∈ world.scheduled,
        row.id = id → row.status = .scheduled → scope.covers row = true →
          Idle id others ∧ ∀ entry, world.findSendByKey (schedKey id) = some entry →
            entry.reqHash = hashOf env (patch.apply row)
    | _ => True
  mayStop thread := ∀ id, ¬WorksOn id thread.2

/-- What of a row goes into its request. -/
def mailOf (row : ScheduledRow) :=
  (row.toAddresses, row.cc, row.bcc, row.subject, row.textBody, row.htmlBody, row.inReplyTo)

variable {first second : ScheduledRow}

theorem toSendRequest_congr (sameMail : mailOf first = mailOf second)
    (files : List MailAttachmentInput) : toSendRequest first files = toSendRequest second files := by
  simp only [mailOf, Prod.mk.injEq] at sameMail
  obtain ⟨toAddresses, cc, bcc, subject, textBody, htmlBody, inReplyTo⟩ := sameMail
  simp only [toSendRequest, toAddresses, cc, bcc, subject, textBody, htmlBody, inReplyTo]

theorem hashOf_congr (sameId : first.id = second.id) (sameMail : mailOf first = mailOf second) :
    hashOf env first = hashOf env second := by
  unfold hashOf
  rw [sameId, toSendRequest_congr sameMail]

variable {outbound : OutboundMail}

theorem carries_congr (sameMail : mailOf first = mailOf second)
    (carries : Carries first outbound) : Carries second outbound := by
  simp only [mailOf, Prod.mk.injEq] at sameMail
  obtain ⟨toAddresses, cc, -, subject, textBody, htmlBody, -⟩ := sameMail
  exact ⟨toAddresses ▸ carries.toAddresses, cc ▸ carries.cc, subject ▸ carries.subject,
    textBody ▸ carries.textBody, htmlBody ▸ carries.htmlBody⟩

structure Marked (world moved : World) : Prop where
  forward : ∀ row ∈ world.scheduled, ∃ now ∈ moved.scheduled, now.id = row.id ∧
    mailOf now = mailOf row ∧ (row.status ≠ .canceled → now.status ≠ .canceled)
  backward : ∀ now ∈ moved.scheduled, ∃ row ∈ world.scheduled, row.id = now.id ∧
    mailOf row = mailOf now ∧ (now.status = .scheduled → row.status = .scheduled) ∧
      (now.status = .canceled → row.status = .canceled)

theorem marked_of_scheduled_eq (same : moved.scheduled = world.scheduled) :
    Marked world moved := by
  constructor
  · intro row member
    exact ⟨row, same ▸ member, rfl, rfl, fun notCanceled => notCanceled⟩
  · intro now member
    exact ⟨now, same ▸ member, rfl, rfl, fun isScheduled => isScheduled,
      fun isCanceled => isCanceled⟩

theorem marked_changeScheduled {covers : ScheduledRow → Bool}
    {change : ScheduledRow → ScheduledRow} {keepsId : ∀ row, (change row).id = row.id}
    (keepsMail : ∀ row, mailOf (change row) = mailOf row)
    (neverCancels : ∀ row, (change row).status ≠ .canceled) :
    Marked world (world.changeScheduled id covers change keepsId).2 := by
  constructor
  · intro row member
    refine ⟨_, mem_changeScheduled.mpr ⟨row, member, rfl⟩, ?_⟩
    split
    · exact ⟨keepsId row, keepsMail row, fun _ => neverCancels row⟩
    · exact ⟨rfl, rfl, fun notCanceled => notCanceled⟩
  · intro now member
    obtain ⟨row, rowMem, rfl⟩ := mem_changeScheduled.mp member
    refine ⟨row, rowMem, ?_⟩
    split
    · rename_i selected
      exact ⟨(keepsId row).symm, (keepsMail row).symm, fun _ => selected.2.1,
        fun isCanceled => absurd isCanceled (neverCancels row)⟩
    · exact ⟨rfl, rfl, fun isScheduled => isScheduled, fun isCanceled => isCanceled⟩

/-- Passes only mark rows. -/
theorem marked_of_leads (notChange : phase ≠ .change)
    (answers : (mailMachine env false).Answers request world answer moved)
    (leads : Phase.Leads env phase request answer after) : Marked world moved := by
  have reads : Reads request → Marked world moved := fun isRead =>
    marked_of_scheduled_eq (congrArg World.scheduled (eq_of_reads isRead answers))
  cases leads with
  | work leads | send leads => exact marked_of_scheduled_eq (scheduled_of_stageLeads answers leads)
  | claims | releases =>
    cases answers
    exact marked_of_scheduled_eq rfl
  | marks | closes =>
    cases answers
    exact marked_changeScheduled (fun _ => rfl) fun _ isCanceled => nomatch isCanceled
  | attemptFails =>
    cases answers
    apply marked_changeScheduled
    · exact fun _ => rfl
    · intro row isCanceled
      simp only [] at isCanceled
      split at isCanceled <;> cases isCanceled
  | cancels | forgets | edits => exact absurd rfl notChange
  | _ => exact reads trivial

section Invariant

/-- The message of the row was accepted, and the pass is about to mark the row. -/
def Phase.Owes (id : String) : Phase → Prop
  | .work row (.accepted _) _ => row.id = id
  | .work row (.answered true) _ => row.id = id
  | _ => False

theorem Phase.Owes.hasRow (owes : phase.Owes id) : phase.HasRow id := by
  rcases phase with ⟨_, _, _⟩ | _ | ⟨row, stage, rest⟩ | _ | _ | _
  · exact owes.elim
  · exact owes.elim
  · refine ⟨row, .head _, ?_⟩
    rcases stage with _ | _ | _ | _ | _ | _ | (_ | _) <;> first | exact owes | exact owes.elim
  all_goals exact owes.elim

theorem Phase.Leads.owes_after (leads : Phase.Leads env phase request answer after)
    (answered : possible env false request answer) (owes : phase.Owes id) :
    after.Owes id ∨ ∃ messageId attempts, request = .markScheduledSent id messageId attempts := by
  cases leads with
  | goesOn => exact .inl owes
  | work leads =>
    cases leads with
    | goesOn | marks | stamps => exact .inl owes
    | markFails => cases answered
    | _ => exact owes.elim
  | marks | closes =>
    obtain rfl : _ = id := owes
    exact .inr ⟨_, _, rfl⟩
  | markFails => cases answered
  | _ => exact owes.elim

/-- A pass that hands a message over does it for its row, and then owes the mark. -/
theorem Phase.Leads.of_accepts {key : String} {outbound : OutboundMail}
    (noSend : phase.HasEntry world) (leads : Phase.Leads env phase request answer after)
    (accepts : Accepts key outbound request answer) :
    ∃ row ∈ phase.rows, key = schedKey row.id ∧ Carries row outbound ∧ after.Owes row.id := by
  cases accepts with
  | accepts =>
    cases leads with
    | send leads => exact noSend.elim
    | work leads =>
      cases leads with
      | accepts isFit => exact ⟨_, .head _, rfl, isFit, rfl⟩

/-- Passes have the mails of their rows in hand as they are stored; what was accepted and
not marked is owed by a pass; and nothing was accepted for a canceled row. -/
structure InTouch (env : Env) (world : World) (phases : List Phase) : Prop where
  filed : Filed world phases
  hashed : ∀ row ∈ world.scheduled, row.status = .scheduled → ∀ entry ∈ world.sendLog,
    entry.idempotencyKey = schedKey row.id → entry.reqHash = hashOf env row
  held : ∀ phase ∈ phases, ∀ row ∈ phase.rows, ∃ stored ∈ world.scheduled,
    stored.id = row.id ∧ mailOf stored = mailOf row ∧ stored.status ≠ .canceled
  owed : ∀ row ∈ world.scheduled, row.status = .scheduled →
    world.HasAccepted (schedKey row.id) → ∃ phase ∈ phases, phase.Owes row.id
  unsent : ∀ row ∈ world.scheduled, row.status = .canceled →
    ¬world.HasAccepted (schedKey row.id)

variable {phases : List Phase} {others : List (Operation × Prog mailSignature Unit)}

theorem hasAccepted_of_answers {key : String}
    (answers : (mailMachine env false).Answers request world answer moved)
    (isAccepted : moved.HasAccepted key) :
    world.HasAccepted key ∨ ∃ outbound, Accepts key outbound request answer := by
  obtain ⟨sent, member, rfl⟩ := isAccepted
  rcases accepted_of_answers answers with same | ⟨sentFor, outbound, accepts, isCons⟩
  · exact .inl ⟨sent, same ▸ member, rfl⟩
  · rw [isCons] at member
    rcases mem_cons.mp member with rfl | member
    · exact .inr ⟨outbound, accepts⟩
    · exact .inl ⟨sent, member, rfl⟩

theorem InTouch.pass (inTouch : InTouch env world (phase :: phases)) (notChange : phase ≠ .change)
    (answers : (mailMachine env false).Answers request world answer moved)
    (leads : Phase.Leads env phase request answer after) :
    InTouch env moved (after :: phases) := by
  obtain ⟨filed, hashed, held, owed, unsent⟩ := inTouch
  have marked := marked_of_leads notChange answers leads
  have heldNow : ∀ {rows : List ScheduledRow}, (∀ row ∈ rows, ∃ stored ∈ world.scheduled,
      stored.id = row.id ∧ mailOf stored = mailOf row ∧ stored.status ≠ .canceled) →
        ∀ row ∈ rows, ∃ stored ∈ moved.scheduled,
          stored.id = row.id ∧ mailOf stored = mailOf row ∧ stored.status ≠ .canceled := by
    intro rows wereHeld row member
    obtain ⟨stored, storedMem, sameId, sameMail, notCanceled⟩ := wereHeld row member
    obtain ⟨now, nowMem, nowId, nowMail, still⟩ := marked.forward stored storedMem
    exact ⟨now, nowMem, nowId.trans sameId, nowMail.trans sameMail, still notCanceled⟩
  have accepting : ∀ {now outbound}, Accepts (schedKey now) outbound request answer →
      ∃ row ∈ phase.rows, row.id = now ∧ after.Owes now := by
    intro now outbound accepts
    obtain ⟨row, rowMem, isKey, -, owes⟩ :=
      leads.of_accepts (filed.inHand _ (.head _)) accepts
    obtain rfl := schedKey_inj isKey
    exact ⟨row, rowMem, rfl, owes⟩
  refine ⟨filed.call answers leads, ?_, ?_, ?_, ?_⟩
  · intro now nowMem isScheduled entry entryMem isKey
    obtain ⟨row, rowMem, sameId, sameMail, wasScheduled, -⟩ := marked.backward now nowMem
    rw [← hashOf_congr sameId sameMail]
    rcases mem_sendLog_of_answers answers entryMem with
      ⟨old, oldMem, -, oldKey, oldHash⟩ | ⟨claim, rfl, rfl, -⟩
    · rw [oldHash]
      apply hashed row rowMem (wasScheduled isScheduled) old oldMem
      rw [← oldKey, isKey, sameId]
    · have claimed : ∀ {snapshot : ScheduledRow}, snapshot ∈ phase.rows →
          claim.idempotencyKey = schedKey snapshot.id →
            claim.reqHash = hashOf env snapshot → claim.reqHash = hashOf env row := by
        intro snapshot snapshotMem claimKey claimHash
        obtain ⟨stored, storedMem, storedId, storedMail, -⟩ :=
          held phase (.head _) snapshot snapshotMem
        have sameRow : stored.id = row.id := by
          rw [storedId, sameId]
          exact schedKey_inj (claimKey.symm.trans isKey)
        obtain rfl := eq_of_key_eq storedMem rowMem sameRow
        rw [claimHash]
        exact (hashOf_congr storedId storedMail).symm
      cases leads with
      | send leads => exact (filed.inHand _ (.head _)).elim
      | work leads =>
        cases leads with
        | claims claimKey claimHash | loses claimKey claimHash =>
          exact claimed (.head _) claimKey claimHash
  · intro other member
    rcases mem_cons.mp member with rfl | member
    · rcases leads.rows_after with left | ⟨-, due, takes, rfl⟩
      · intro row rowMem
        exact heldNow (held phase (.head _)) row (left.subset rowMem)
      · rw [Phase.rows_turnTo]
        cases takes with
        | claims =>
          obtain ⟨isDue, rfl⟩ := Prod.mk.inj answers
          cases isDue
          intro row rowMem
          obtain ⟨isStored, isScheduled⟩ := mem_claimDueScheduled rowMem
          exact ⟨row, isStored, rfl, rfl, by simp [isScheduled]⟩
    · exact heldNow (held other (.tail _ member))
  · intro now nowMem isScheduled isAccepted
    obtain ⟨row, rowMem, sameId, -, wasScheduled, -⟩ := marked.backward now nowMem
    rcases hasAccepted_of_answers answers isAccepted with wasAccepted | ⟨outbound, accepts⟩
    · rw [← sameId] at wasAccepted ⊢
      obtain ⟨debtor, debtorMem, owes⟩ :=
        owed row rowMem (wasScheduled isScheduled) wasAccepted
      rcases mem_cons.mp debtorMem with rfl | debtorMem
      · rcases leads.owes_after (possible_of_answers answers) owes with
          still | ⟨messageId, attempts, rfl⟩
        · exact ⟨after, .head _, still⟩
        · cases answers
          have settled : (world.markScheduledSent row.id messageId attempts).Settled row.id := by
            apply settled_changeScheduled
            exact fun _ isScheduled => nomatch isScheduled
          exact absurd isScheduled (settled now nowMem sameId.symm)
      · exact ⟨debtor, .tail _ debtorMem, owes⟩
    · obtain ⟨-, -, -, owes⟩ := accepting accepts
      exact ⟨after, .head _, owes⟩
  · intro now nowMem isCanceled isAccepted
    obtain ⟨row, rowMem, sameId, -, -, wasCanceled⟩ := marked.backward now nowMem
    rcases hasAccepted_of_answers answers isAccepted with wasAccepted | ⟨outbound, accepts⟩
    · rw [← sameId] at wasAccepted
      exact unsent row rowMem (wasCanceled isCanceled) wasAccepted
    · obtain ⟨snapshot, snapshotMem, isRow, -⟩ := accepting accepts
      obtain ⟨stored, storedMem, storedId, -, notCanceled⟩ :=
        held phase (.head _) snapshot snapshotMem
      have sameRow : stored.id = row.id := by rw [storedId, isRow, sameId]
      obtain rfl := eq_of_key_eq storedMem rowMem sameRow
      exact notCanceled (wasCanceled isCanceled)

section

variable (tracks : (mailProtocol env false).Tracks others phases)
include tracks

/-- Nobody has the row in hand when it is changed, so nothing was accepted for it. -/
theorem InTouch.free (inTouch : InTouch env world (.change :: phases)) (idle : Idle id others) :
    (∀ phase ∈ phases, ¬phase.HasRow id) ∧
      ∀ row ∈ world.scheduled, row.id = id → row.status = .scheduled →
        ¬world.HasAccepted (schedKey id) := by
  have noHand : ∀ phase ∈ phases, ¬phase.HasRow id := by
    intro phase member has
    obtain ⟨thread, threadMem, follows⟩ := tracks.exists_of_mem member
    exact idle thread threadMem (worksOn_of_hasRow follows has)
  refine ⟨noHand, ?_⟩
  rintro row member rfl isScheduled isAccepted
  obtain ⟨debtor, debtorMem, owes⟩ := inTouch.owed row member isScheduled isAccepted
  rcases mem_cons.mp debtorMem with rfl | debtorMem
  · exact owes
  · exact noHand debtor debtorMem owes.hasRow

theorem InTouch.changes {covers : ScheduledRow → Bool} {change : ScheduledRow → ScheduledRow}
    {keepsId : ∀ row, (change row).id = row.id} (inTouch : InTouch env world (.change :: phases))
    (apart : ∀ row ∈ world.scheduled, row.id = id → row.status = .scheduled →
      covers row = true → Idle id others)
    (keepsHash : ∀ row ∈ world.scheduled, row.id = id → row.status = .scheduled →
      covers row = true → (change row).status = .scheduled → ∀ entry ∈ world.sendLog,
        entry.idempotencyKey = schedKey id → entry.reqHash = hashOf env (change row)) :
    InTouch env (world.changeScheduled id covers change keepsId).2 (.change :: phases) := by
  refine ⟨⟨inTouch.filed.unique, inTouch.filed.inHand⟩, ?_, ?_, ?_, ?_⟩
  · intro now member isScheduled entry entryMem isKey
    obtain ⟨row, rowMem, rfl⟩ := mem_changeScheduled.mp member
    split at isScheduled
    · rename_i selected
      rw [if_pos selected] at isKey ⊢
      rw [keepsId, selected.1] at isKey
      exact keepsHash row rowMem selected.1 selected.2.1 selected.2.2 isScheduled entry
        entryMem isKey
    · rename_i notSelected
      rw [if_neg notSelected] at isKey ⊢
      exact inTouch.hashed row rowMem isScheduled entry entryMem isKey
  · intro phase phaseMem row rowMem
    obtain ⟨stored, storedMem, sameId, sameMail, notCanceled⟩ :=
      inTouch.held phase phaseMem row rowMem
    refine ⟨stored, mem_changeScheduled.mpr ⟨stored, storedMem, if_neg ?_⟩, sameId, sameMail,
      notCanceled⟩
    rintro ⟨isId, isScheduled, isCovered⟩
    obtain ⟨noHand, -⟩ := inTouch.free tracks (apart stored storedMem isId isScheduled isCovered)
    rcases mem_cons.mp phaseMem with rfl | phaseMem
    · exact absurd rowMem not_mem_nil
    · exact noHand phase phaseMem ⟨row, rowMem, sameId.symm.trans isId⟩
  · intro now member isScheduled isAccepted
    obtain ⟨row, rowMem, rfl⟩ := mem_changeScheduled.mp member
    split at isScheduled
    · rename_i selected
      rw [if_pos selected, keepsId, selected.1] at isAccepted
      obtain ⟨-, noneAccepted⟩ :=
        inTouch.free tracks (apart row rowMem selected.1 selected.2.1 selected.2.2)
      exact absurd isAccepted (noneAccepted row rowMem selected.1 selected.2.1)
    · rename_i notSelected
      rw [if_neg notSelected] at isAccepted ⊢
      exact inTouch.owed row rowMem isScheduled isAccepted
  · intro now member isCanceled isAccepted
    obtain ⟨row, rowMem, rfl⟩ := mem_changeScheduled.mp member
    split at isCanceled
    · rename_i selected
      rw [if_pos selected, keepsId, selected.1] at isAccepted
      obtain ⟨-, noneAccepted⟩ :=
        inTouch.free tracks (apart row rowMem selected.1 selected.2.1 selected.2.2)
      exact absurd isAccepted (noneAccepted row rowMem selected.1 selected.2.1)
    · rename_i notSelected
      rw [if_neg notSelected] at isAccepted
      exact inTouch.unsent row rowMem isCanceled isAccepted

theorem InTouch.call (inTouch : InTouch env world (phase :: phases))
    (permitted : (changesApart env).mayCall request world others)
    (answers : (mailMachine env false).Answers request world answer moved)
    (leads : Phase.Leads env phase request answer after) : InTouch env moved (after :: phases) := by
  by_cases isChange : phase = .change
  · subst isChange
    cases leads with
    | goesOn =>
      have isRead : Reads .fault := trivial
      obtain rfl : moved = world := eq_of_reads isRead answers
      exact inTouch
    | changeFails => cases possible_of_answers answers
    | cancels =>
      cases answers
      apply inTouch.changes tracks permitted
      rintro row - - - - isScheduled
      cases isScheduled
    | forgets =>
      cases answers
      exact ⟨⟨inTouch.filed.unique, inTouch.filed.inHand⟩, inTouch.hashed, inTouch.held,
        inTouch.owed, inTouch.unsent⟩
    | edits =>
      cases answers
      apply inTouch.changes tracks
      · intro row member isId isScheduled isCovered
        exact (permitted row member isId isScheduled isCovered).1
      · intro row member isId isScheduled isCovered _ entry entryMem isKey
        apply (permitted row member isId isScheduled isCovered).2 entry
        exact find?_eq_some.mpr ⟨entryMem, isKey⟩
  · exact inTouch.pass isChange answers leads

end

end Invariant

/-- Every step keeps the passes in touch with the tables, where changes stay apart. -/
theorem inTouch_preserved (env : Env) :
    (mailProtocol env false).Preserves (scheduling env) (changesApart env) Operation.first
      (InTouch env) where
  perm reordered inTouch := by
    obtain ⟨⟨unique, entries⟩, hashed, held, owed, unsent⟩ := inTouch
    refine ⟨⟨unique, fun phase member => entries phase (reordered.mem_iff.mpr member)⟩, hashed,
      fun phase member => held phase (reordered.mem_iff.mpr member), ?_, unsent⟩
    intro row member isScheduled isAccepted
    obtain ⟨phase, phaseMem, owes⟩ := owed row member isScheduled isAccepted
    exact ⟨phase, reordered.mem_iff.mp phaseMem, owes⟩
  start {world phases} op running startable inTouch := by
    obtain ⟨⟨unique, entries⟩, hashed, held, owed, unsent⟩ := inTouch
    have firstEntry : op.first.HasEntry world := by
      cases op with
      | send => exact startable
      | _ => trivial
    have noRows : op.first.rows = [] := by cases op <;> rfl
    refine ⟨⟨unique, forall_mem_cons.mpr ⟨firstEntry, entries⟩⟩, hashed, ?_, ?_, unsent⟩
    · refine forall_mem_cons.mpr ⟨?_, held⟩
      intro row member
      rw [noRows] at member
      exact absurd member not_mem_nil
    · intro row member isScheduled isAccepted
      obtain ⟨phase, phaseMem, owes⟩ := owed row member isScheduled isAccepted
      exact ⟨phase, .tail _ phaseMem, owes⟩
  call tracks permitted answers leads inTouch := inTouch.call tracks permitted answers leads
  environment moves inTouch := by
    obtain ⟨clock, around, -, rfl⟩ := moves
    exact ⟨⟨inTouch.filed.unique, inTouch.filed.inHand⟩, inTouch.hashed, inTouch.held,
      inTouch.owed, inTouch.unsent⟩
  stop follows mayStop inTouch := by
    obtain ⟨⟨unique, entries⟩, hashed, held, owed, unsent⟩ := inTouch
    refine ⟨⟨unique, (forall_mem_cons.mp entries).2⟩, hashed,
      (forall_mem_cons.mp held).2, ?_, unsent⟩
    intro row member isScheduled isAccepted
    obtain ⟨phase, phaseMem, owes⟩ := owed row member isScheduled isAccepted
    rcases mem_cons.mp phaseMem with rfl | phaseMem
    · exact absurd (worksOn_of_hasRow follows owes.hasRow) (mayStop row.id)
    · exact ⟨phase, phaseMem, owes⟩

theorem inTouch_of_fresh {start : World} (fresh : Fresh start) : InTouch env start [] := by
  have noEntry : ∀ entry, entry ∉ start.sendLog := by
    intro entry
    rw [fresh.sendLog]
    exact notMem_empty entry
  have noneAccepted : ∀ key, ¬start.HasAccepted key := by
    rintro key ⟨sent, member, -⟩
    rw [fresh.accepted] at member
    exact absurd member not_mem_nil
  exact ⟨⟨fun entry member => absurd member (noEntry entry), forall_mem_nil _⟩,
    fun _ _ _ entry member => absurd member (noEntry entry),
    forall_mem_nil _,
    fun _ _ _ isAccepted => absurd isAccepted (noneAccepted _),
    fun _ _ _ isAccepted => noneAccepted _ isAccepted⟩

variable {config : Config mailSignature World Operation}

theorem inTouch_of_reachable {start : World} (fresh : Fresh start)
    (reached : (scheduling env).ReachableUnder (changesApart env) start config) :
    (mailProtocol env false).Holds (InTouch env) config :=
  (inTouch_preserved env).reached (gateway_governed env false schedules) reached
    (inTouch_of_fresh fresh)

theorem exists_row_of_handsOver {key : String} {thread : Operation × Prog mailSignature Unit}
    (holds : (mailProtocol env false).Holds (InTouch env) config) (member : thread ∈ config.threads)
    (handsOver : HandsOver key outbound thread.2) :
    ∃ row ∈ config.world.scheduled, key = schedKey row.id ∧ Carries row outbound ∧
      row.status ≠ .canceled := by
  obtain ⟨phases, tracks, inTouch⟩ := holds
  obtain ⟨phase, phaseMem, follows⟩ := tracks.exists_of_thread member
  obtain ⟨next, isCall⟩ := handsOver
  rw [isCall] at follows
  obtain ⟨after, leads, -⟩ := follows (.ok "") trivial
  obtain ⟨row, rowMem, isKey, carries, -⟩ :=
    leads.of_accepts (inTouch.filed.inHand phase phaseMem) .accepts
  obtain ⟨stored, storedMem, sameId, sameMail, notCanceled⟩ :=
    inTouch.held phase phaseMem row rowMem
  exact ⟨stored, storedMem, sameId ▸ isKey, carries_congr sameMail.symm carries, notCanceled⟩

variable {row : ScheduledRow}

theorem canceled_of_answers (isCanceled : row.status = .canceled)
    (answers : (mailMachine env false).Answers request world answer moved)
    (stored : row ∈ world.scheduled) : row ∈ moved.scheduled := by
  rcases scheduled_of_answers answers with same | ⟨id, covers, change, keepsId, isChanged⟩
  · rwa [same]
  · rw [isChanged]
    refine mem_changeScheduled.mpr ⟨row, stored, if_neg ?_⟩
    rintro ⟨-, isScheduled, -⟩
    rw [isCanceled] at isScheduled
    cases isScheduled

theorem canceled_of_run {start final : Config mailSignature World Operation}
    {condition : RunCondition mailSignature World Operation}
    (isCanceled : row.status = .canceled) (member : row ∈ start.world.scheduled)
    (run : ReflTransGen ((scheduling env).StepUnder condition) start final) :
    row ∈ final.world.scheduled := by
  let stores : World → Prop := fun world => row ∈ world.scheduled
  have kept : stores final.world := by
    apply System.StepUnder.keeps_world ?_ ?_ run member
    · intro request world answer moved answers stored
      exact canceled_of_answers isCanceled answers stored
    · rintro world moved ⟨clock, around, -, rfl⟩ stored
      exact stored
  exact kept
theorem cancelHolds_of_changesApart (env : Env) : CancelHolds env (changesApart env) := by
  intro start before middle later id scope changed fresh reached call won run
  have reachedMiddle := ReflTransGen.tail reached call.step
  have holdsMiddle := inTouch_of_reachable fresh reachedMiddle
  have holdsLater := inTouch_of_reachable fresh (reachedMiddle.trans run)
  cases call with
  | @call world first last op next moved permitted answers =>
    obtain ⟨isChanged, rfl⟩ := Prod.mk.inj answers
    cases isChanged
    obtain ⟨row, rowMem, rfl, isScheduled, isCovered⟩ := changeScheduled_ne_zero.mp won
    let canceledRow := { row with status := .canceled, updatedAt := world.clock }
    have canceled : canceledRow ∈ (world.cancelScheduled row.id scope).2.scheduled :=
      mem_changeScheduled.mpr ⟨row, rowMem, if_pos ⟨rfl, isScheduled, isCovered⟩⟩
    have stays := canceled_of_run rfl canceled run
    refine ⟨?_, ?_, ?_⟩
    · obtain ⟨phases, -, inTouch⟩ := holdsMiddle
      exact inTouch.unsent canceledRow canceled rfl
    · obtain ⟨phases, -, inTouch⟩ := holdsLater
      exact inTouch.unsent canceledRow stays rfl
    · intro thread member outbound handsOver
      obtain ⟨stored, storedMem, isKey, -, notCanceled⟩ :=
        exists_row_of_handsOver holdsLater member handsOver
      have sameRow := eq_of_key_eq stays storedMem (schedKey_inj isKey)
      exact notCanceled (sameRow ▸ rfl)

theorem upToDate_of_holds (holds : (mailProtocol env false).Holds (InTouch env) config) :
    UpToDate env id config := by
  rintro row rowMem rfl
  constructor
  · intro thread member outbound handsOver
    obtain ⟨stored, storedMem, isKey, carries, -⟩ :=
      exists_row_of_handsOver holds member handsOver
    obtain rfl := eq_of_key_eq storedMem rowMem (schedKey_inj isKey).symm
    exact carries
  · intro isScheduled entry found
    obtain ⟨phases, -, inTouch⟩ := holds
    obtain ⟨entryMem, isKey⟩ := find?_eq_some.mp found
    exact inTouch.hashed row rowMem isScheduled entry entryMem isKey

theorem editHolds_of_changesApart (env : Env) : EditHolds env (changesApart env) := by
  intro start before middle later id scope patch changed fresh reached call won run
  have reachedLater := (ReflTransGen.tail reached call.step).trans run
  refine ⟨?_, upToDate_of_holds (inTouch_of_reachable fresh reachedLater)⟩
  cases call with
  | @call world first last op next moved permitted answers =>
    obtain ⟨isChanged, rfl⟩ := Prod.mk.inj answers
    cases isChanged
    obtain ⟨row, rowMem, isId, isScheduled, isCovered⟩ := changeScheduled_ne_zero.mp won
    exact ⟨row, rowMem, isId,
      mem_changeScheduled.mpr ⟨row, rowMem, if_pos ⟨isId, isScheduled, isCovered⟩⟩⟩

def scheduleReferee : Referee (scheduling plainEnv) anyCall where
  mayCall _ _ := true
  mayStart _ op :=
    match op with
    | .send _ _ _ _ => false
    | _ => true
  allowed_of_mayCall _ := trivial
  startable_of_mayStart {running op} permitted := by
    cases op with
    | send => cases permitted
    | _ => exact trivial

def cancels : (request : Call) → Except Thrown (Result request) → Bool
  | .cancelScheduled id _, .ok changed => decide (id = "s1" ∧ changed = 1)
  | _, _ => false

end DubEcosystem.MailGateway
