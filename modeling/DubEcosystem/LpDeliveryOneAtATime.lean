import DubEcosystem.LpDeliveryLeases

/-!
# LP tickets: a mail is handled by one drain at a time

While sends and sleeps take no longer than they may, a drain is done with its rows before
its lease on them is over.
-/

namespace DubEcosystem.LpDelivery

open Relation Interleaving List Except
open LpTickets (OutboxRow)

def WaitsUntil (time : Int) : Prog drainSignature Unit → Prop
  | .done _ => True
  | .call (.wake due) _ => time ≤ due
  | .call (.response _ _ due) _ => time ≤ due
  | .call (.advance _) _ => True
  | .call _ _ => False

/-- A send returns within its time limit and a sleep takes its time; nothing else takes
any. -/
def timely : RunCondition drainSignature World Operation where
  mayCall request world others :=
    match request with
    | .advance time => ∀ thread ∈ others, WaitsUntil time thread.2
    | .wake due => due ≤ world.clock
    | _ => True
  mayStop _ := True

/-- The mail of the row is handed to Resend under this lease, or it is out. -/
def Passes (lease : Nat) (rowId : String) : Prog drainSignature Unit → Prop
  | .call (.post under idempotencyKey _) _ => under = lease ∧ idempotencyKey = rowId
  | .call (.response under idempotencyKey _) _ => under = lease ∧ idempotencyKey = rowId
  | _ => False

structure Fresh (world : World) : Prop where
  claims : world.claims = []
  returned : world.returned = []
  outcomes : world.outcomes = []
  rows : ∀ row ∈ world.outbox, row.status = .pending ∧ row.attempts = 0 ∧ row.sentAt = none

/-- What is to hold at any time. -/
structure OneAtATime (config : Config drainSignature World Operation) : Prop where
  /-- A row is passed on under a lease that is not over, of which there is no other on the
  row, and which no other drain works under. -/
  passed : ∀ before thread after, config.threads = before ++ thread :: after →
    ∀ lease rowId, Passes lease rowId thread.2 →
      (∃ leaseUntil, config.world.Live ⟨lease, rowId, leaseUntil⟩) ∧
        (∀ other, config.world.Live other → other.rowId = rowId → other.lease = lease) ∧
          ∀ another ∈ before ++ after, ∀ otherId, ¬Passes lease otherId another.2
  /-- The attempts are the outcomes that count. -/
  attempts : ∀ row ∈ config.world.outbox, row.attempts = config.world.countedOutcomes row.id
  /-- A row that its latest drain did not return is due for every claim once the lease is
  over. -/
  claimable : ∀ row ∈ config.world.outbox, ∀ claim,
    config.world.latest row.id = some claim → config.world.Unreturned claim →
      claim.leaseUntil ≤ config.world.clock → ∀ outboxClaim : OutboxClaim,
        config.world.clock ≤ outboxClaim.now → row.kind ∈ outboxClaim.kinds →
          (∀ orderId, outboxClaim.orderId = some orderId → row.orderId = orderId) →
            World.isDue outboxClaim row = true

/-- Mails are handled by one drain at a time, and a row that is sent or has failed stays
so. -/
def HandledOneAtATime (deps : Deps)
    (condition : RunCondition drainSignature World Operation) : Prop :=
  ∀ start config, Fresh start → (drains deps).ReachableUnder condition start config →
    OneAtATime config ∧ ∀ row ∈ config.world.outbox, row.status ≠ .pending →
        ∀ later, ReflTransGen ((drains deps).StepUnder condition) config later →
          ∃ laterRow ∈ later.world.outbox, laterRow.id = row.id ∧ laterRow.status = row.status

variable {deps : Deps} {world later : World} {hand : Hand} {phase : Phase} {phases : List Phase}

/-- No mail is posted from here on. -/
def Hand.last (hand : Hand) : Int :=
  hand.leaseUntil - (OUTBOX_LEASE_MS - DRAIN_BUDGET_MS)

def MomentKept (clock : Int) (hand : Hand) : Moment → Prop
  | .ready => clock ≤ hand.last + MAIL_TIMEOUT_MS
  | .sleeping due => clock ≤ due ∧ due ≤ hand.last + MAIL_TIMEOUT_MS + MAIL_MIN_INTERVAL_MS
  | .awake => clock ≤ hand.last + MAIL_TIMEOUT_MS + MAIL_MIN_INTERVAL_MS
  | .checked => clock < hand.last
  | .sending rowId due =>
    clock ≤ due ∧ due ≤ hand.last + MAIL_TIMEOUT_MS ∧ ∃ row ∈ hand.rows, row.id = rowId

/-- The rows in hand are leased, and have the attempts that they were given with. -/
structure Held (world : World) (hand : Hand) : Prop where
  inTime : hand.deadline ≤ hand.last
  number : hand.lease < world.nextLease
  nodup : (hand.rows.map OutboxRow.id).Nodup
  unreturned : ∀ row ∈ hand.rows, world.Unreturned ⟨hand.lease, row.id, hand.leaseUntil⟩
  attempts : ∀ row ∈ hand.rows, ∀ current ∈ world.outbox, current.id = row.id →
    current.attempts = row.attempts

def PhaseKept (world : World) : Phase → Prop
  | .idle => True
  | .starting budget => budget ≤ DRAIN_BUDGET_MS
  | .dated start deadline => start = world.clock ∧ deadline ≤ world.clock + DRAIN_BUDGET_MS
  | .allowed start deadline _ =>
    start = world.clock ∧ deadline ≤ world.clock + DRAIN_BUDGET_MS
  | .leasing start deadline leaseUntil _ =>
    start = world.clock ∧ deadline ≤ world.clock + DRAIN_BUDGET_MS ∧
      leaseUntil = world.clock + OUTBOX_LEASE_MS
  | .holding hand moment _ => Held world hand ∧ MomentKept world.clock hand moment

def Phase.lease : Phase → Option Nat
  | .holding hand _ _ => some hand.lease
  | _ => none

structure Kept (world : World) (phases : List Phase) : Prop where
  ordered : world.Ordered
  inHand : ∀ phase ∈ phases, PhaseKept world phase
  leases : (phases.filterMap Phase.lease).Nodup

variable {moment : Moment}

/-- Whatever a drain with rows in hand is doing, its lease is not over. -/
theorem lt_leaseUntil {clock : Int} (kept : MomentKept clock hand moment) :
    clock < hand.leaseUntil := by
  have isLast : hand.last = hand.leaseUntil - 95000 := rfl
  cases moment with
  | ready | sending rowId due =>
    unfold MomentKept MAIL_TIMEOUT_MS at kept
    omega
  | sleeping due | awake =>
    unfold MomentKept MAIL_TIMEOUT_MS MAIL_MIN_INTERVAL_MS at kept
    omega
  | checked =>
    unfold MomentKept at kept
    omega

theorem Held.live (held : Held world hand)
    (kept : MomentKept world.clock hand moment) {row : OutboxRow} (member : row ∈ hand.rows) :
    world.Live ⟨hand.lease, row.id, hand.leaseUntil⟩ :=
  ⟨held.unreturned row member, lt_leaseUntil kept⟩

theorem PhaseKept.beside (kept : PhaseKept world phase) (sameClock : later.clock = world.clock)
    (held : ∀ hand moment times, phase = .holding hand moment times → Held world hand →
      MomentKept world.clock hand moment → Held later hand) : PhaseKept later phase := by
  cases phase with
  | idle => trivial
  | starting budget => exact kept
  | dated start deadline | allowed start deadline allowance
  | leasing start deadline leaseUntil allowance =>
    unfold PhaseKept
    rw [sameClock]
    exact kept
  | holding hand moment times =>
    unfold PhaseKept
    rw [sameClock]
    exact ⟨held hand moment times rfl kept.1 kept.2, kept.2⟩

theorem leases_holding {times : List Int} :
    (Phase.holding hand moment times :: phases).filterMap Phase.lease =
      hand.lease :: phases.filterMap Phase.lease :=
  rfl

theorem Kept.leases_ne {times : List Int}
    (kept : Kept world (.holding hand moment times :: phases)) {other : Hand}
    {otherMoment : Moment} {otherTimes : List Int}
    (member : Phase.holding other otherMoment otherTimes ∈ phases) :
    other.lease ≠ hand.lease := by
  intro same
  have leases := kept.leases
  rw [leases_holding] at leases
  apply (nodup_cons.mp leases).1
  exact mem_filterMap.mpr ⟨_, member, congrArg some same⟩

theorem Kept.turn {after : Phase} (kept : Kept world (phase :: phases))
    (afterKept : PhaseKept world after)
    (sameLease : after.lease = none ∨ after.lease = phase.lease) :
    Kept world (after :: phases) := by
  constructor
  · exact kept.ordered
  · exact forall_mem_cons.mpr
      ⟨afterKept, fun other member => kept.inHand other (mem_cons_of_mem phase member)⟩
  · have leases := kept.leases
    rcases sameLease with noLease | sameLease
    · rw [filterMap_cons_none noLease]
      exact List.Nodup.sublist ((sublist_cons_self phase phases).filterMap _) leases
    · rw [filterMap_cons] at leases ⊢
      rw [sameLease]
      exact leases

variable {claim : OutboxClaim}

theorem Held.beside_claim {limit : Int} (held : Held world hand) :
    Held (world.leaseRows claim limit) hand := by
  constructor
  · exact held.inTime
  · exact Nat.lt_succ_of_lt held.number
  · exact held.nodup
  · intro row member
    have unreturned := held.unreturned row member
    exact ⟨mem_claims_leaseRows.mpr (.inr unreturned.1), unreturned.2⟩
  · intro row member current currentMem isRow
    obtain ⟨old, oldMem, sameId, sameAttempts⟩ := leased_row currentMem
    rw [← sameAttempts]
    exact held.attempts row member old oldMem (sameId.trans isRow)

theorem held_claimed {limit : Int} (ordered : world.Ordered)
    (isLease : hand.lease = world.nextLease) (isUntil : claim.leaseUntil = hand.leaseUntil)
    (isRows : hand.rows.Perm ((world.selected claim limit).map (World.leaseRow claim.leaseUntil)))
    (inTime : hand.deadline ≤ hand.last) :
    Held (world.leaseRows claim limit) hand := by
  have idsPerm := ids_claimed isRows
  constructor
  · exact inTime
  · exact isLease ▸ Nat.lt_succ_self world.nextLease
  · exact idsPerm.nodup_iff.mpr (nodup_selected world claim limit)
  · intro row member
    constructor
    · apply mem_claims_leaseRows.mpr
      left
      constructor
      · exact idsPerm.mem_iff.mp (mem_map_of_mem member)
      · rw [isLease, isUntil]
    · intro returned
      have isOld := ordered.returnedNumbers _ returned
      rw [isLease] at isOld
      exact absurd isOld (Nat.lt_irrefl _)
  · intro row member current currentMem isRow
    obtain ⟨selected, selectedMem, rfl⟩ := List.mem_map.mp (isRows.mem_iff.mp member)
    obtain ⟨old, oldMem, sameId, sameAttempts⟩ := leased_row currentMem
    have isSelected : old = selected :=
      KeyedTable.eq_of_key_eq oldMem (mem_selected selectedMem).1 (sameId.trans isRow)
    rw [← sameAttempts, isSelected]
    rfl

theorem Kept.claims {start deadline leaseUntil : Int} {allowance : ℚ} {claim : OutboxClaim}
    {claimed : Claimed} (kept : Kept world (.leasing start deadline leaseUntil allowance :: phases))
    (isNow : claim.now = start) (isUntil : claim.leaseUntil = leaseUntil)
    (isClaim : world.claimOutbox claim = (.ok claimed, later)) :
    Kept later (.claimed start deadline leaseUntil allowance claimed :: phases) := by
  obtain ⟨-, rfl, isLease, isRows⟩ := claimOutbox_ok isClaim
  obtain ⟨isStart, isDeadline, lasts⟩ := kept.inHand _ (.head _)
  have others : ∀ phase ∈ phases, PhaseKept (world.leaseRows claim claim.limit.num) phase := by
    intro phase member
    have sameClock : (world.leaseRows claim claim.limit.num).clock = world.clock := rfl
    apply (kept.inHand phase (.tail _ member)).beside sameClock
    exact fun hand moment times _ held _ => held.beside_claim
  have ordered : (world.leaseRows claim claim.limit.num).Ordered :=
    kept.ordered.lease (isNow.trans isStart)
  unfold Phase.claimed
  split
  · exact ⟨ordered, forall_mem_cons.mpr ⟨trivial, others⟩, kept.leases⟩
  · refine ⟨ordered, forall_mem_cons.mpr ⟨⟨?_, ?_⟩, others⟩, ?_⟩
    · apply held_claimed kept.ordered isLease isUntil isRows
      unfold Hand.last OUTBOX_LEASE_MS DRAIN_BUDGET_MS at *
      simp only []
      omega
    · have isClock : (world.leaseRows claim claim.limit.num).clock = world.clock := rfl
      unfold MomentKept Hand.last OUTBOX_LEASE_MS DRAIN_BUDGET_MS MAIL_TIMEOUT_MS at *
      simp only [isClock]
      omega
    · rw [leases_holding, nodup_cons]
      refine ⟨?_, kept.leases⟩
      intro isTaken
      obtain ⟨phase, member, isPhase⟩ := mem_filterMap.mp isTaken
      have phaseKept := kept.inHand phase (.tail _ member)
      cases phase with
      | holding hand moment times =>
        have sameLease : hand.lease = claimed.lease := Option.some.inj isPhase
        have isOld := phaseKept.1.number
        omega
      | _ => cases isPhase

variable {times : List Int} {updates : List OutboxUpdate}

variable {rows : List OutboxRow}

theorem Covers.exists_row (covers : Covers times rows updates)
    {update : OutboxUpdate} (member : update ∈ updates) :
    ∃ row ∈ rows, Fits times row update := by
  obtain ⟨handled, isPrefix, fit⟩ := covers
  have isHandled : ∃ row ∈ handled, Fits times row update := by
    clear isPrefix
    induction fit with
    | nil => exact absurd member not_mem_nil
    | cons fits _ ih =>
      rcases mem_cons.mp member with rfl | member
      · exact ⟨_, .head _, fits⟩
      · obtain ⟨row, rowMem, rowFits⟩ := ih member
        exact ⟨row, .tail _ rowMem, rowFits⟩
  obtain ⟨row, rowMem, fits⟩ := isHandled
  exact ⟨row, isPrefix.subset rowMem, fits⟩

theorem Covers.ids (covers : Covers times rows updates) :
    (updates.map OutboxUpdate.id).Sublist (rows.map OutboxRow.id) := by
  obtain ⟨handled, isPrefix, fit⟩ := covers
  have sameIds : updates.map OutboxUpdate.id = handled.map OutboxRow.id := by
    clear isPrefix
    induction fit with
    | nil => rfl
    | cons fits _ ih => rw [map_cons, map_cons, fits.id, ih]
  rw [sameIds]
  exact isPrefix.sublist.map OutboxRow.id

/-- A drain that has nothing out may write its updates. -/
theorem Held.grants (held : Held world hand) (kept : MomentKept world.clock hand moment)
    (covers : Covers times hand.rows updates) : world.Grants hand.lease updates := by
  constructor
  · exact held.number
  · exact held.nodup.sublist covers.ids
  · intro update member
    obtain ⟨row, rowMem, fits⟩ := covers.exists_row member
    exact ⟨hand.leaseUntil, fits.id ▸ held.live kept rowMem⟩
  · intro update member current currentMem isRow
    obtain ⟨row, rowMem, fits⟩ := covers.exists_row member
    rw [fits.attempts, held.attempts row rowMem current currentMem (isRow.trans fits.id)]

variable {lease : Nat}

theorem Held.beside_updates (ordered : world.Ordered) (held : Held world hand)
    (kept : MomentKept world.clock hand moment)
    (grants : world.Grants lease updates) (isOther : hand.lease ≠ lease) :
    Held (world.applyOutboxUpdates lease updates) hand := by
  constructor
  · exact held.inTime
  · exact held.number
  · exact held.nodup
  · intro row member
    have unreturned := held.unreturned row member
    refine ⟨unreturned.1, ?_⟩
    intro returned
    rcases mem_returned.mp returned with ⟨same, -⟩ | wasReturned
    · exact isOther same
    · exact unreturned.2 wasReturned
  · intro row member current currentMem isRow
    rcases (mem_applyUpdates grants.nodup).mp currentMem with
      ⟨inTable, -⟩ | ⟨update, updateMem, old, oldMem, isOld, rfl⟩
    · exact held.attempts row member current inTable isRow
    · obtain ⟨leaseUntil, isLive⟩ := grants.live update updateMem
      have sameRow : row.id = update.id := isRow.symm.trans isOld
      have same := ordered.eq_of_live (held.live kept member) isLive sameRow
      exact absurd (congrArg Claim.lease same) isOther

theorem Kept.applies (kept : Kept world (.holding hand moment times :: phases))
    (covers : Covers times hand.rows updates) :
    Kept (world.applyOutboxUpdates hand.lease updates) (.idle :: phases) := by
  obtain ⟨held, momentKept⟩ := kept.inHand _ (.head _)
  have grants := held.grants momentKept covers
  constructor
  · exact kept.ordered.applyOutboxUpdates grants
  · intro phase member
    rcases mem_cons.mp member with rfl | member
    · trivial
    have sameClock : (world.applyOutboxUpdates hand.lease updates).clock = world.clock := rfl
    apply (kept.inHand phase (.tail _ member)).beside sameClock
    rintro other otherMoment otherTimes rfl otherHeld otherKept
    exact otherHeld.beside_updates kept.ordered otherKept grants (kept.leases_ne member)
  · have leases := kept.leases
    rw [leases_holding] at leases
    exact (nodup_cons.mp leases).2

theorem Kept.issues (kept : Kept world phases) (id orderId : String)
    (kind : LpTickets.OutboxKind) : Kept (world.issueMail id orderId kind) phases := by
  refine ⟨kept.ordered.issueMail id orderId kind, ?_, kept.leases⟩
  intro phase member
  have sameClock : (world.issueMail id orderId kind).clock = world.clock := rfl
  apply (kept.inHand phase member).beside sameClock
  intro hand moment times _ held _
  refine ⟨held.inTime, held.number, held.nodup, held.unreturned, ?_⟩
  intro row rowMem current currentMem isRow
  rcases mem_issueMail currentMem with inTable | ⟨-, -, -, isNew⟩
  · exact held.attempts row rowMem current inTable isRow
  · obtain ⟨present, presentMem, isPresent⟩ :=
      kept.ordered.claimRows _ (held.unreturned row rowMem).1
    exact absurd (isPresent.trans isRow.symm) (isNew present presentMem)

variable {time : Int}

/-- The phases in which time may pass until then. -/
def Phase.Waits (time : Int) : Phase → Prop
  | .idle => True
  | .starting _ => True
  | .holding _ (.sleeping due) _ => time ≤ due
  | .holding _ (.sending _ due) _ => time ≤ due
  | _ => False

variable {program : Prog drainSignature Unit}

theorem waits_of_waitsUntil
    (follows : (drainProtocol deps).Follows phase program) (waits : WaitsUntil time program) :
    phase.Waits time := by
  cases program with
  | done =>
    cases phase with
    | idle | starting => trivial
    | _ => exact follows.elim
  | call request next =>
    cases request with
    | wake due =>
      obtain ⟨after, leads, -⟩ := follows (.ok ()) trivial
      cases leads with
      | wakes => exact waits
    | response lease rowId due =>
      obtain ⟨after, leads, -⟩ := follows (.error "") trivial
      cases leads with
      | responds => exact waits
    | advance later =>
      obtain ⟨after, leads, -⟩ := follows (.ok ()) trivial
      cases leads with
      | advances => trivial
    | _ => exact waits.elim

theorem PhaseKept.advance (kept : PhaseKept world phase) (waits : phase.Waits time) :
    PhaseKept { world with clock := max world.clock time } phase := by
  cases phase with
  | idle => trivial
  | starting budget => exact kept
  | holding hand moment times =>
    obtain ⟨held, momentKept⟩ := kept
    refine ⟨⟨held.inTime, held.number, held.nodup, held.unreturned, held.attempts⟩, ?_⟩
    cases moment with
    | sleeping due | sending rowId due => exact ⟨max_le momentKept.1 waits, momentKept.2⟩
    | _ => exact waits.elim
  | _ => exact waits.elim

theorem Kept.advance {others : List (Operation × Prog drainSignature Unit)}
    (tracks : (drainProtocol deps).Tracks others phases)
    (permitted : ∀ thread ∈ others, WaitsUntil time thread.2)
    (kept : Kept world (.idle :: phases)) :
    Kept { world with clock := max world.clock time } (.idle :: phases) := by
  refine ⟨kept.ordered.advance time, ?_, kept.leases⟩
  intro phase member
  apply (kept.inHand phase member).advance
  rcases mem_cons.mp member with rfl | member
  · trivial
  · obtain ⟨thread, threadMem, follows⟩ := tracks.exists_of_mem member
    exact waits_of_waitsUntil follows (permitted thread threadMem)

variable {moved : World} {after : Phase}

variable {allowance : ℚ}

variable {start deadline : Int}

theorem lease_counted :
    (Phase.counted start deadline allowance).lease = none := by
  unfold Phase.counted
  split
  · rfl
  · rfl

theorem lease_leased :
    (Phase.leased start deadline allowance time).lease = none := by
  unfold Phase.leased
  split
  · rfl
  · rfl

theorem phaseKept_leased (isStart : start = world.clock)
    (inTime : deadline ≤ world.clock + DRAIN_BUDGET_MS) :
    PhaseKept world (.leased start deadline allowance world.clock) := by
  unfold Phase.leased
  split
  · trivial
  · exact ⟨isStart, inTime, rfl⟩

theorem momentKept_seen (inTime : hand.deadline ≤ hand.last)
    (kept : MomentKept world.clock hand moment) :
    MomentKept world.clock hand (moment.seen hand.deadline world.clock) := by
  unfold Moment.seen
  split
  · rename_i notPassed
    exact lt_of_lt_of_le notPassed inTime
  · exact kept

theorem momentKept_sleeping (isCalm : moment.Calm) (kept : MomentKept world.clock hand moment) :
    MomentKept world.clock hand (.sleeping (world.clock + MAIL_MIN_INTERVAL_MS)) := by
  unfold MAIL_MIN_INTERVAL_MS
  cases moment with
  | ready =>
    unfold MomentKept MAIL_MIN_INTERVAL_MS at *
    omega
  | checked =>
    unfold MomentKept MAIL_TIMEOUT_MS MAIL_MIN_INTERVAL_MS at *
    omega
  | _ => exact isCalm.elim

theorem momentKept_sending {rowId : String}
    (isRow : ∃ row ∈ hand.rows, row.id = rowId) (kept : MomentKept world.clock hand .checked) :
    MomentKept world.clock hand (.sending rowId (world.clock + MAIL_TIMEOUT_MS)) := by
  unfold MomentKept MAIL_TIMEOUT_MS at *
  exact ⟨by omega, by omega, isRow⟩

theorem Kept.call {request : Call} {answer : Except String (Result request)}
    {others : List (Operation × Prog drainSignature Unit)}
    (tracks : (drainProtocol deps).Tracks others phases)
    (permitted : timely.mayCall request world others)
    (answers : drainMachine.Answers request world answer moved)
    (leads : Phase.Leads deps phase request answer after)
    (kept : Kept world (phase :: phases)) : Kept moved (after :: phases) := by
  have phaseKept := kept.inHand phase (.head _)
  cases leads with
  | goesOn | orders | tickets | renders =>
    obtain rfl : moved = world := answers
    exact kept
  | failsAt | noOrders | noTickets =>
    obtain rfl : moved = world := answers
    exact kept.turn trivial (.inl rfl)
  | dates =>
    obtain ⟨isAnswer, rfl⟩ := Prod.mk.inj answers
    cases isAnswer
    have inBudget : _ ≤ DRAIN_BUDGET_MS := phaseKept
    exact kept.turn ⟨rfl, Int.add_le_add_left inBudget _⟩ (.inl rfl)
  | counts =>
    cases answers
    apply kept.turn _ (.inl lease_counted)
    unfold Phase.counted
    split
    · trivial
    · exact phaseKept
  | uncapped | dateLease =>
    obtain ⟨isAnswer, rfl⟩ := Prod.mk.inj answers
    cases isAnswer
    exact kept.turn (phaseKept_leased phaseKept.1 phaseKept.2) (.inl lease_leased)
  | claims isNow isUntil _ _ =>
    exact kept.claims isNow isUntil answers
  | refused =>
    obtain rfl := claimOutbox_error answers
    exact kept.turn trivial (.inl rfl)
  | @sleeps hand moment times due isCalm =>
    obtain ⟨isAnswer, rfl⟩ := Prod.mk.inj answers
    cases isAnswer
    obtain ⟨held, momentKept⟩ := phaseKept
    have afterKept : PhaseKept world
        (.holding hand (.sleeping (world.clock + MAIL_MIN_INTERVAL_MS)) times) :=
      ⟨held, momentKept_sleeping isCalm momentKept⟩
    exact kept.turn afterKept (.inr rfl)
  | wakes =>
    cases answers
    exact kept.turn ⟨phaseKept.1, phaseKept.2.1.trans phaseKept.2.2⟩ (.inr rfl)
  | reads isSettled =>
    obtain ⟨isAnswer, rfl⟩ := Prod.mk.inj answers
    cases isAnswer
    obtain ⟨held, momentKept⟩ := phaseKept
    exact kept.turn ⟨held, momentKept_seen held.inTime momentKept⟩ (.inr rfl)
  | @posts hand times rowId mail due isRow =>
    obtain ⟨isAnswer, rfl⟩ := Prod.mk.inj answers
    cases isAnswer
    obtain ⟨held, momentKept⟩ := phaseKept
    have afterKept : PhaseKept world
        (.holding hand (.sending rowId (world.clock + MAIL_TIMEOUT_MS)) times) :=
      ⟨held, momentKept_sending isRow momentKept⟩
    exact kept.turn afterKept (.inr rfl)
  | responds =>
    obtain rfl : moved = world := answers
    obtain ⟨held, notGivenUp, inTime, -⟩ := phaseKept
    exact kept.turn ⟨held, notGivenUp.trans inTime⟩ (.inr rfl)
  | applies isSettled covers =>
    cases answers
    exact kept.applies covers
  | advances =>
    cases answers
    exact kept.advance tracks permitted

/-- A drain that writes updates has its rows in hand. -/
theorem Kept.grants_of_leads {answer : Except String Unit}
    (leads : Phase.Leads deps phase (.applyOutboxUpdates lease updates) answer after)
    (kept : Kept world (phase :: phases)) : world.Grants lease updates := by
  have phaseKept := kept.inHand phase (.head _)
  cases leads with
  | applies isSettled covers => exact phaseKept.1.grants phaseKept.2 covers

theorem Kept.settled {request : Call} {answer : Except String (Result request)}
    (answers : drainMachine.Answers request world answer moved)
    (leads : Phase.Leads deps phase request answer after)
    (kept : Kept world (phase :: phases)) {row : OutboxRow} (member : row ∈ world.outbox)
    (isSettled : row.status ≠ .pending) : row ∈ moved.outbox := by
  rcases outbox_cases answers with same | ⟨claim, rfl⟩ | ⟨lease, updates, rfl, rfl⟩
  · exact same ▸ member
  · have notSelected : row.id ∉ (world.selected claim claim.limit.num).map OutboxRow.id := by
      intro isSelected
      obtain ⟨selected, selectedMem, isRow⟩ := List.mem_map.mp isSelected
      obtain ⟨inTable, isDue⟩ := mem_selected selectedMem
      obtain rfl := KeyedTable.eq_of_key_eq inTable member isRow
      exact isSettled (of_decide_eq_true isDue).1
    exact mem_leaseRows.mpr ⟨row, member, if_neg notSelected⟩
  · have grants := kept.grants_of_leads leads
    apply (mem_applyUpdates grants.nodup).mpr
    left
    refine ⟨member, ?_⟩
    intro isUpdated
    obtain ⟨update, updateMem, isId⟩ := List.mem_map.mp isUpdated
    obtain ⟨leaseUntil, isLive⟩ := grants.live update updateMem
    exact isSettled (kept.ordered.row_of_live isLive member isId.symm).1

theorem kept_preserved (deps : Deps) :
    (drainProtocol deps).Preserves (drains deps) timely Operation.first Kept where
  perm phasesPerm kept :=
    ⟨kept.ordered, fun phase member => kept.inHand phase (phasesPerm.mem_iff.mpr member),
      (phasesPerm.filterMap Phase.lease).nodup_iff.mp kept.leases⟩
  start op _ startable kept := by
    cases op with
    | drain options =>
      exact ⟨kept.ordered, forall_mem_cons.mpr ⟨startable.2, kept.inHand⟩, kept.leases⟩
    | passTime time =>
      exact ⟨kept.ordered, forall_mem_cons.mpr ⟨trivial, kept.inHand⟩, kept.leases⟩
  call tracks permitted answers leads kept := kept.call tracks permitted answers leads
  environment moves kept := by
    obtain ⟨id, orderId, kind, rfl⟩ := moves
    exact kept.issues id orderId kind
  stop _ _ kept :=
    ⟨kept.ordered, fun phase member => kept.inHand phase (.tail _ member),
      List.Nodup.sublist ((sublist_cons_self _ _).filterMap Phase.lease) kept.leases⟩

theorem settled_preserved (deps : Deps) {row : OutboxRow} (isSettled : row.status ≠ .pending) :
    (drainProtocol deps).Preserves (drains deps) timely Operation.first
      fun world phases => Kept world phases ∧ row ∈ world.outbox where
  perm phasesPerm holds := ⟨(kept_preserved deps).perm phasesPerm holds.1, holds.2⟩
  start op running startable holds :=
    ⟨(kept_preserved deps).start op running startable holds.1, holds.2⟩
  call tracks permitted answers leads holds :=
    ⟨holds.1.call tracks permitted answers leads, holds.1.settled answers leads holds.2 isSettled⟩
  environment moves holds := by
    refine ⟨(kept_preserved deps).environment moves holds.1, ?_⟩
    obtain ⟨id, orderId, kind, rfl⟩ := moves
    exact KeyedTable.mem_insertOrIgnore.mpr (.inl holds.2)
  stop follows permitted holds := ⟨(kept_preserved deps).stop follows permitted holds.1, holds.2⟩

theorem exists_hand_of_passes
    {rowId : String} (follows : (drainProtocol deps).Follows phase program)
    (passes : Passes lease rowId program) (kept : PhaseKept world phase) :
    ∃ hand moment times, phase = .holding hand moment times ∧ hand.lease = lease ∧
      ∃ row ∈ hand.rows, row.id = rowId := by
  cases program with
  | done => exact passes.elim
  | call request next =>
    cases request with
    | post under idempotencyKey mail =>
      obtain ⟨rfl, rfl⟩ := passes
      have answered : possible (.post under idempotencyKey mail) (.ok 0) := trivial
      obtain ⟨after, leads, -⟩ := follows (.ok 0) answered
      cases leads with
      | posts isRow => exact ⟨_, _, _, rfl, rfl, isRow⟩
    | response under idempotencyKey due =>
      obtain ⟨rfl, rfl⟩ := passes
      obtain ⟨after, leads, -⟩ := follows (.error "") trivial
      cases leads with
      | responds => exact ⟨_, _, _, rfl, rfl, kept.2.2.2⟩
    | _ => exact passes.elim

theorem Fresh.kept (fresh : Fresh world) : Kept world [] := by
  refine ⟨?_, forall_mem_nil _, .nil⟩
  have noClaim : ∀ claim, claim ∉ world.claims := by
    intro claim
    rw [fresh.claims]
    exact not_mem_nil
  constructor
  · exact fun claim isClaim => absurd isClaim (noClaim claim)
  · rw [fresh.returned]
    exact forall_mem_nil _
  · exact fun claim isClaim => absurd isClaim (noClaim claim)
  · rw [fresh.outcomes]
    exact forall_mem_nil _
  · exact fun _ _ claim isLatest => absurd (mem_of_latest isLatest).1 (noClaim claim)
  · exact fun claim isLive => absurd isLive.1.1 (noClaim claim)
  · intro row member
    rw [(fresh.rows row member).2.1, World.countedOutcomes, fresh.outcomes, countP_nil]

theorem Kept.oneAtATime {config : Config drainSignature World Operation}
    (holds : (drainProtocol deps).Holds Kept config) : OneAtATime config := by
  obtain ⟨world, threads⟩ := config
  constructor
  · rintro before thread after rfl lease rowId passes
    obtain ⟨phase, phases, follows, tracks, kept⟩ := holds.front (kept_preserved deps).perm
    obtain ⟨hand, moment, times, rfl, rfl, row, rowMem, rfl⟩ :=
      exists_hand_of_passes follows passes (kept.inHand _ (.head _))
    obtain ⟨held, momentKept⟩ := kept.inHand _ (.head _)
    have isLive := held.live momentKept rowMem
    refine ⟨⟨hand.leaseUntil, isLive⟩, ?_, ?_⟩
    · intro other otherLive sameRow
      exact congrArg Claim.lease (kept.ordered.eq_of_live otherLive isLive sameRow)
    · intro another anotherMem otherId anotherPasses
      obtain ⟨otherPhase, otherMem, otherFollows⟩ := tracks.exists_of_thread anotherMem
      obtain ⟨other, otherMoment, otherTimes, rfl, sameLease, -⟩ :=
        exists_hand_of_passes otherFollows anotherPasses (kept.inHand _ (.tail _ otherMem))
      exact kept.leases_ne otherMem sameLease
  · obtain ⟨phases, -, kept⟩ := holds
    exact kept.ordered.attempts
  · obtain ⟨phases, -, kept⟩ := holds
    intro row member claim isLatest unreturned isOver outboxClaim isLater isKind isOrder
    have isRow := (mem_of_latest isLatest).2
    obtain ⟨isPending, isDueAt⟩ :=
      kept.ordered.leased row member claim isLatest (isRow ▸ unreturned.2)
    apply decide_eq_true
    refine ⟨isPending, ?_, isKind, ?_⟩
    · rw [isDueAt]
      exact isOver.trans isLater
    · cases isOrderId : outboxClaim.orderId with
      | none => rfl
      | some orderId => simpa using isOrder orderId isOrderId

end DubEcosystem.LpDelivery
