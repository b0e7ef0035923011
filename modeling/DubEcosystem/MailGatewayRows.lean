import DubEcosystem.MailGatewayEffects

/-!
# mail-gateway: the rows that a drain pass has in hand

A pass works on its rows one after the other, and a call that it issues for one of them
leaves what the tables say of every other row.
-/

namespace DubEcosystem.MailGateway

open Interleaving PortPrograms List

variable {env : Env} {world moved : World} {phase after : Phase}
  {request : Call} {answer : Except Thrown (Result request)}

/-- The rows that a pass has still to mark. -/
def Phase.rows : Phase → List ScheduledRow
  | .work row _ rest => row :: rest
  | .closing _ rest => rest
  | _ => []

@[simp]
theorem Phase.rows_turnTo (rows : List ScheduledRow) : (Phase.turnTo rows).rows = rows := by
  cases rows <;> rfl

/-- The pass has the row in hand. -/
def Phase.HasRow (id : String) (phase : Phase) : Prop :=
  ∃ row ∈ phase.rows, row.id = id

def ClaimsDue : Call → Prop
  | .claimDueScheduled _ _ => True
  | _ => False

def MarksRow (id : String) : Call → Prop
  | .markScheduledSent marked _ _ => marked = id
  | .markScheduledAttemptFailed marked _ _ _ => marked = id
  | _ => False

def WorksOn {α : Type} (id : String) (program : Prog mailSignature α) : Prop :=
  program.MayReach ClaimsDue (MarksRow id)

/-- The pass is given these rows. -/
inductive TakesDue (due : List ScheduledRow) :
    (request : Call) → Except Thrown (Result request) → Prop
  | claims {now : Int} {limit : Nat} : TakesDue due (.claimDueScheduled now limit) (.ok due)

/-- A pass goes through its rows in order, and is given rows only by a claim. -/
theorem Phase.Leads.rows_after (leads : Phase.Leads env phase request answer after) :
    after.rows <:+ phase.rows ∨
      (phase = .pass ∧ ∃ due, TakesDue due request answer ∧ after = .turnTo due) := by
  cases leads with
  | claims => exact .inr ⟨rfl, _, .claims, rfl⟩
  | marks | attemptFails =>
    rw [rows_turnTo]
    exact .inl (suffix_cons _ _)
  | closes => exact .inl (suffix_cons _ _)
  | releases =>
    rw [rows_turnTo]
    exact .inl (suffix_refl _)
  | attemptFailFails => exact .inl (nil_suffix)
  | _ => exact .inl (suffix_refl _)

/-- A row leaves a pass only when it is marked, unless a statement fails. -/
theorem Phase.Leads.hasRow_after {id : String} (leads : Phase.Leads env phase request answer after)
    (answered : possible env false request answer) (has : phase.HasRow id) :
    MarksRow id request ∨ after.HasRow id := by
  have next : ∀ {row : ScheduledRow} {rest : List ScheduledRow},
      (∃ other ∈ row :: rest, other.id = id) → row.id = id ∨ (Phase.turnTo rest).HasRow id := by
    rintro row rest ⟨other, member, isId⟩
    rcases mem_cons.mp member with rfl | member
    · exact .inl isId
    · exact .inr ⟨other, (Phase.rows_turnTo rest).symm ▸ member, isId⟩
  cases leads with
  | claims =>
    obtain ⟨row, member, -⟩ := has
    exact absurd member not_mem_nil
  | marks | attemptFails => exact next has
  | @closes row rest messageId =>
    rcases next has with isRow | ⟨other, member, isId⟩
    · exact .inl isRow
    · exact .inr ⟨other, Phase.rows_turnTo rest ▸ member, isId⟩
  | @releases row rest =>
    obtain ⟨other, member, isId⟩ := has
    exact .inr ⟨other, (Phase.rows_turnTo rest).symm ▸ member, isId⟩
  | attemptFailFails => cases answered
  | _ => exact .inr has

theorem worksOn_of_hasRow {program : Prog mailSignature Unit} {id : String}
    (follows : (mailProtocol env false).Follows phase program) (has : phase.HasRow id) :
    WorksOn id program := by
  apply follows.mayReach has
  · rintro phase ⟨row, member, -⟩ isFinal
    cases phase with
    | work | closing => exact isFinal
    | _ => exact absurd member not_mem_nil
  · exact exists_possible env false
  · intro phase request answer after has answered leads
    rcases leads.hasRow_after answered has with marks | still
    · exact .inl marks
    · refine .inr ⟨?_, still⟩
      intro claims
      cases leads with
      | claims =>
        obtain ⟨row, member, -⟩ := has
        exact absurd member not_mem_nil
      | work leads | send leads => cases leads <;> exact claims
      | _ => exact claims

/-- The row of the send log that a send has in hand. -/
def Stage.entry : Stage → Option String
  | .owned id => some id
  | .accepted id => some id
  | .refused id => some id
  | _ => none

/-- What a pass has in hand of the send log is under the key of its row; a send on its own
is not in view. -/
def Phase.HasEntry (world : World) : Phase → Prop
  | .work row stage _ => ∀ id, stage.entry = some id →
      ∃ entry ∈ world.sendLog, entry.id = id ∧ entry.idempotencyKey = schedKey row.id
  | .send _ _ _ => False
  | _ => True

/-- The rows of the send log have ids of their own, and every pass has its own. -/
structure Filed (world : World) (phases : List Phase) : Prop where
  unique : ∀ first ∈ world.sendLog, ∀ second ∈ world.sendLog, first.id = second.id →
    first.idempotencyKey = second.idempotencyKey
  inHand : ∀ phase ∈ phases, phase.HasEntry world

theorem Stage.Leads.entry_after {key hash id : String} {fits : OutboundMail → Prop}
    {stage next : Stage} (leads : Stage.Leads key hash fits stage request answer next)
    (isEntry : next.entry = some id) :
    stage.entry = some id ∨ Acquires key id request answer := by
  cases leads with
  | takesUp same failed =>
    cases isEntry
    exact .inr (.takesUp failed)
  | claims isKey isHash won =>
    cases isEntry
    exact .inr (.claims isKey won)
  | _ => first | exact .inl isEntry | cases isEntry

variable {faults : Bool}

section

variable (answers : (mailMachine env faults).Answers request world answer moved)
include answers

theorem HasEntry.of_answers (has : phase.HasEntry world) : phase.HasEntry moved := by
  cases phase with
  | work row stage rest =>
    intro id isEntry
    obtain ⟨entry, member, isId, isKey⟩ := has id isEntry
    obtain ⟨now, nowMem, sameId, sameKey, -⟩ := entry_of_answers answers member
    exact ⟨now, nowMem, sameId.trans isId, sameKey.trans isKey⟩
  | send => exact has
  | _ => trivial

theorem HasEntry.leads (leads : Phase.Leads env phase request answer after)
    (has : phase.HasEntry world) : after.HasEntry moved := by
  have turned : ∀ rows, (Phase.turnTo rows).HasEntry moved := by
    intro rows
    cases rows with
    | nil => trivial
    | cons row rest =>
      intro id isEntry
      cases isEntry
  have still := HasEntry.of_answers answers has
  cases leads with
  | send leads => exact has
  | work leads =>
    intro id isEntry
    rcases leads.entry_after isEntry with had | acquires
    · exact still id had
    · exact entry_of_acquires answers acquires
  | goesOn | loads | resolves => exact still
  | claims | marks | releases | attemptFails => exact turned _
  | loadFails | markFails =>
    intro id isEntry
    cases isEntry
  | _ => trivial

theorem Filed.call {phases : List Phase} (filed : Filed world (phase :: phases))
    (leads : Phase.Leads env phase request answer after) : Filed moved (after :: phases) := by
  obtain ⟨unique, inHand⟩ := filed
  constructor
  · intro first firstMem second secondMem sameId
    rcases mem_sendLog_of_answers answers firstMem with
      ⟨old, oldMem, isId, isKey, -⟩ | ⟨claim, rfl, rfl, fresh⟩
    · rcases mem_sendLog_of_answers answers secondMem with
        ⟨other, otherMem, otherId, otherKey, -⟩ | ⟨claim, -, rfl, fresh⟩
      · rw [isKey, otherKey]
        apply unique old oldMem other otherMem
        rw [← isId, ← otherId, sameId]
      · exact absurd (isId.symm.trans sameId) (fresh old oldMem).1
    · rcases mem_sendLog_of_answers answers secondMem with
        ⟨other, otherMem, otherId, -, -⟩ | ⟨claim', isClaim, rfl, -⟩
      · exact absurd (otherId.symm.trans sameId.symm) (fresh other otherMem).1
      · cases isClaim
        rfl
  · intro other member
    rcases mem_cons.mp member with rfl | member
    · exact HasEntry.leads answers leads (inHand phase (.head _))
    · exact HasEntry.of_answers answers (inHand other (.tail _ member))

end

/-- The tables say the same of the row, of what was logged and of what was accepted for
it. -/
structure SameFor (id : String) (world moved : World) : Prop where
  scheduled : ∀ row : ScheduledRow, row.id = id →
    (row ∈ moved.scheduled ↔ row ∈ world.scheduled)
  sendLog : ∀ entry : SendLogRow, entry.idempotencyKey = schedKey id →
    (entry ∈ moved.sendLog ↔ entry ∈ world.sendLog)
  accepted : ∀ sent : String × OutboundMail, sent.1 = schedKey id →
    (sent ∈ moved.accepted ↔ sent ∈ world.accepted)
  released : id ∈ moved.released ↔ id ∈ world.released

variable {id : String}

theorem SameFor.refl (id : String) (world : World) : SameFor id world world :=
  ⟨fun _ _ => .rfl, fun _ _ => .rfl, fun _ _ => .rfl, .rfl⟩

theorem sameFor_changeScheduled {changed : String} {covers : ScheduledRow → Bool}
    {change : ScheduledRow → ScheduledRow} {keepsId : ∀ row, (change row).id = row.id}
    (different : changed ≠ id) :
    SameFor id world (world.changeScheduled changed covers change keepsId).2 := by
  refine ⟨?_, fun _ _ => .rfl, fun _ _ => .rfl, .rfl⟩
  intro row isId
  rw [mem_changeScheduled]
  constructor
  · rintro ⟨old, member, rfl⟩
    split
    · rename_i selected
      rw [if_pos selected, keepsId] at isId
      exact absurd (selected.1.symm.trans isId) different
    · exact member
  · intro member
    refine ⟨row, member, if_neg ?_⟩
    rintro ⟨isChanged, -⟩
    exact different (isChanged.symm.trans isId)

theorem sameFor_markEntry {marked : String} {change : SendLogRow → SendLogRow}
    {keeps : ∀ row, (change row).idempotencyKey = row.idempotencyKey}
    (elsewhere : ∀ entry ∈ world.sendLog, entry.id = marked → entry.idempotencyKey ≠ schedKey id) :
    SameFor id world
      { world with
        sendLog := world.sendLog.update (fun row => row.id = marked) change keeps } := by
  refine ⟨fun _ _ => .rfl, ?_, fun _ _ => .rfl, .rfl⟩
  intro entry isKey
  have updated : entry ∈ world.sendLog.update (fun row => decide (row.id = marked)) change
      keeps ↔ ∃ old ∈ world.sendLog, (if decide (old.id = marked) then change old else old) =
        entry := KeyedTable.mem_update
  apply updated.trans
  constructor
  · rintro ⟨old, member, rfl⟩
    split
    · rename_i isMarked
      rw [if_pos isMarked, keeps] at isKey
      exact absurd isKey (elsewhere old member (of_decide_eq_true isMarked))
    · exact member
  · intro member
    refine ⟨entry, member, if_neg ?_⟩
    intro isMarked
    exact elsewhere entry member (of_decide_eq_true isMarked) isKey

theorem sameFor_insertSendClaim {claim : SendClaim}
    (elsewhere : claim.idempotencyKey ≠ schedKey id) :
    SameFor id world (world.insertSendClaim claim).2 := by
  rcases insertSendClaim_cases world claim with ⟨-, same⟩ | ⟨-, sendLog, inserts, -, inserted⟩
  · rw [same]
    exact SameFor.refl id world
  · rw [inserted]
    refine ⟨fun _ _ => .rfl, ?_, fun _ _ => .rfl, .rfl⟩
    intro entry isKey
    apply (KeyedTable.mem_insert? inserts).trans
    constructor
    · rintro (member | rfl)
      · exact member
      · exact absurd isKey elsewhere
    · exact .inl

/-- The row that a call of a pass is about. -/
def Phase.current : Phase → Option String
  | .work row _ _ => some row.id
  | .closing row _ => some row.id
  | _ => none

/-- The row that a cancellation or an edit is about. -/
def Call.changes : Call → Option String
  | .cancelScheduled id _ => some id
  | .updateScheduled id _ _ => some id
  | .releaseScheduledAttachments id => some id
  | _ => none

/-- A call leaves every row alone but the one that it is about. -/
theorem Phase.Leads.sameFor {phases : List Phase} (filed : Filed world (phase :: phases))
    (answers : (mailMachine env faults).Answers request world answer moved)
    (leads : Phase.Leads env phase request answer after)
    (notCurrent : phase.current ≠ some id) (notChanged : request.changes ≠ some id) :
    SameFor id world moved := by
  have unmarked : ∀ {row : ScheduledRow} {stage : Stage} {rest : List ScheduledRow}
      {marked : String}, row.id ≠ id → phase = .work row stage rest →
        stage.entry = some marked → ∀ entry ∈ world.sendLog, entry.id = marked →
          entry.idempotencyKey ≠ schedKey id := by
    rintro row stage rest marked different rfl isEntry entry member isMarked isKey
    obtain ⟨own, ownMem, ownId, ownKey⟩ :=
      filed.inHand _ (.head _) marked isEntry
    have sameKey := filed.unique entry member own ownMem (isMarked.trans ownId.symm)
    exact different (schedKey_inj (ownKey.symm.trans (sameKey.symm.trans isKey)))
  have current : ∀ {row : String}, phase.current = some row → row ≠ id := by
    rintro row isCurrent rfl
    exact notCurrent isCurrent
  have reads : Reads request → SameFor id world moved := by
    intro isRead
    rw [eq_of_reads isRead answers]
    exact SameFor.refl id world
  cases leads with
  | send leads => exact (filed.inHand _ (.head _)).elim
  | claims =>
    cases answers
    exact ⟨fun _ _ => .rfl, fun _ _ => .rfl, fun _ _ => .rfl, .rfl⟩
  | marks | closes | attemptFails =>
    cases answers
    exact sameFor_changeScheduled (current rfl)
  | @releases row rest =>
    cases answers
    have different : id ≠ row.id := (current rfl).symm
    refine ⟨fun _ _ => .rfl, fun _ _ => .rfl, fun _ _ => .rfl, ?_⟩
    exact mem_cons.trans (or_iff_right different)
  | @forgets released =>
    cases answers
    have different : id ≠ released := fun isId => notChanged (isId ▸ rfl)
    refine ⟨fun _ _ => .rfl, fun _ _ => .rfl, fun _ _ => .rfl, ?_⟩
    exact mem_cons.trans (or_iff_right different)
  | cancels | edits =>
    cases answers
    exact sameFor_changeScheduled fun isId => notChanged (isId ▸ rfl)
  | @work row stage _ _ next rest leads =>
    have different : schedKey row.id ≠ schedKey id :=
      fun sameKey => current rfl (schedKey_inj sameKey)
    cases leads with
    | claims isKey | loses isKey =>
      obtain ⟨-, rfl⟩ := Prod.mk.inj answers
      exact sameFor_insertSendClaim (isKey ▸ different)
    | @accepts _ outbound _ _ =>
      have isMoved : moved =
          { world with
            accepted := (schedKey row.id, outbound) :: world.accepted } := answers
      subst isMoved
      refine ⟨fun _ _ => .rfl, fun _ _ => .rfl, ?_, .rfl⟩
      intro sent isKey
      apply mem_cons.trans (or_iff_right _)
      rintro rfl
      exact different isKey
    | retries | refuses =>
      have isMoved : moved = world := answers
      exact isMoved ▸ SameFor.refl id world
    | marks | fails =>
      cases answers
      exact sameFor_markEntry (unmarked (current rfl) rfl rfl)
    | _ => exact reads trivial
  | _ => exact reads trivial

end DubEcosystem.MailGateway
