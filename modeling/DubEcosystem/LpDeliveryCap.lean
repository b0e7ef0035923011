import DubEcosystem.InterleavingSchedule
import DubEcosystem.LpDeliveryOneAtATime

/-!
# LP tickets: the daily cap on mails

A drain counts the mails that were sent on the day, claims as many rows as are left, and
writes what it has sent at the end.  What another drain sends in between is not counted.
-/

namespace DubEcosystem.LpDelivery

open Relation Interleaving List Except
open LpTickets (OutboxRow)

def sentIn (day : Int) (sentAt : Option Int) : Bool :=
  sentAt.any fun time => jstDay time = day

def sentOn (world : World) (day : Int) : Nat :=
  world.outbox.rows.countP fun row => sentIn day row.sentAt

def isCount : Call → Prop
  | .countOutboxSentSince _ => True
  | _ => False

def isApply : Call → Prop
  | .applyOutboxUpdates _ _ => True
  | _ => False

/-- The mails of the day are counted only while no other drain that has counted them may
still write what it has sent. -/
def countsApart : RunCondition drainSignature World Operation where
  mayCall request _ others :=
    isCount request → ∀ thread ∈ others, ¬thread.2.MayReach isCount isApply
  mayStop _ := True

def WithinDailyCap (condition : RunCondition drainSignature World Operation) (deps : Deps) :
    Prop :=
  ∀ cap, deps.ticketMailDailyCap = some cap → 0 ≤ cap →
    ∀ start config, Fresh start → (drains deps).ReachableUnder condition start config →
      ∀ day, (sentOn config.world day : ℚ) ≤ cap

theorem dayStart_le {day first time : Int} (isDay : jstDay time = day) (notBefore : first ≤ day) :
    dayStart first ≤ time := by
  unfold jstDay JST_OFFSET_MS DAY_MS at isDay
  unfold dayStart JST_OFFSET_MS DAY_MS
  omega

theorem jstDay_mono {first second : Int} (le : first ≤ second) : jstDay first ≤ jstDay second := by
  unfold jstDay JST_OFFSET_MS DAY_MS
  omega

theorem sentOn_le_count {world : World} {first day : Int} (notBefore : first ≤ day)
    (sentRows : ∀ row ∈ world.outbox, row.sentAt.isSome → row.status = .sent) :
    sentOn world day ≤ world.countOutboxSentSince (dayStart first) := by
  unfold sentOn World.countOutboxSentSince
  rw [← countP_eq_length_filter]
  apply countP_mono_left
  intro row member isSent
  cases isTime : row.sentAt with
  | none =>
    rw [isTime] at isSent
    cases isSent
  | some time =>
    rw [isTime] at isSent
    have isDay : jstDay time = day := of_decide_eq_true isSent
    have isRowSent : row.status = .sent := sentRows row member (by rw [isTime]; rfl)
    simp [isRowSent, dayStart_le isDay notBefore]

variable {world : World} {day : Int}

theorem sentOn_issueMail (id orderId : String) (kind : LpTickets.OutboxKind) :
    sentOn (world.issueMail id orderId kind) day = sentOn world day := by
  unfold sentOn World.issueMail KeyedTable.insertOrIgnore KeyedTable.insert?
  split
  · rfl
  · have unsent : sentIn day none = false := rfl
    simp [unsent]

theorem sentOn_leaseRows (claim : OutboxClaim) (limit : Int) :
    sentOn (world.leaseRows claim limit) day = sentOn world day := by
  have isMapped : (world.leaseRows claim limit).outbox.rows = world.outbox.rows.map fun row =>
      if row.id ∈ (world.selected claim limit).map OutboxRow.id
        then World.leaseRow claim.leaseUntil row else row := by
    simp only [World.leaseRows, KeyedTable.update, KeyedTable.map, decide_eq_true_eq]
  unfold sentOn
  rw [isMapped, countP_map]
  apply countP_congr
  intro row _
  simp only [Function.comp_apply]
  split
  · exact Iff.rfl
  · exact Iff.rfl

theorem countP_overwrite_le {rows : List OutboxRow} (nodup : (rows.map OutboxRow.id).Nodup)
    (update : OutboxUpdate) :
    (rows.map fun row => if row.id = update.id then update.overwrite row else row).countP
        (fun row => sentIn day row.sentAt) ≤
      rows.countP (fun row => sentIn day row.sentAt) + (sentIn day update.sentAt).toNat := by
  induction rows with
  | nil => simp
  | cons row rows ih =>
    obtain ⟨notLater, rest⟩ := nodup_cons.mp nodup
    have later := ih rest
    rw [map_cons, countP_cons, countP_cons]
    by_cases isUpdated : row.id = update.id
    · have others : (rows.map fun row =>
          if row.id = update.id then update.overwrite row else row) = rows := by
        conv => rhs; rw [← map_id rows]
        apply map_congr_left
        intro other member
        have isOther : other.id ≠ update.id :=
          fun same => notLater (isUpdated.trans same.symm ▸ mem_map_of_mem member)
        exact if_neg isOther
      have isSentAt : (update.overwrite row).sentAt = update.sentAt := rfl
      rw [others, if_pos isUpdated, isSentAt]
      cases sentIn day update.sentAt with
      | true =>
        simp only [if_true, Bool.toNat_true]
        omega
      | false => simp
    · simp only [isUpdated, if_false]
      omega

theorem countP_applyUpdates_le (updates : List OutboxUpdate) (table : KeyedTable OutboxRow.id) :
    (updates.foldl World.applyUpdate table).rows.countP (fun row => sentIn day row.sentAt) ≤
      table.rows.countP (fun row => sentIn day row.sentAt) +
        updates.countP fun update => sentIn day update.sentAt := by
  induction updates generalizing table with
  | nil => simp
  | cons update updates ih =>
    have isMapped : (World.applyUpdate table update).rows = table.rows.map fun row =>
        if row.id = update.id then update.overwrite row else row := by
      simp only [World.applyUpdate, KeyedTable.update, KeyedTable.map, decide_eq_true_eq]
    have later := ih (World.applyUpdate table update)
    have first := @countP_overwrite_le day table.rows table.keysNodup update
    rw [isMapped] at later
    rw [foldl_cons, countP_cons]
    cases isSent : sentIn day update.sentAt with
    | true =>
      rw [isSent, Bool.toNat_true] at first
      simp only [if_true]
      omega
    | false =>
      rw [isSent, Bool.toNat_false] at first
      simp only [Bool.false_eq_true, if_false]
      omega

theorem sentOn_applied_le (lease : Nat) (updates : List OutboxUpdate) :
    sentOn (world.applyOutboxUpdates lease updates) day ≤
      sentOn world day + updates.countP fun update => sentIn day update.sentAt :=
  countP_applyUpdates_le updates world.outbox

variable {deps : Deps} {cap : ℚ} {moved : World} {phase after : Phase} {phases : List Phase}

/-- The drain has counted the mails of the day, and may still write what it has sent. -/
def Phase.Counted : Phase → Prop
  | .allowed _ _ _ => True
  | .leasing _ _ _ _ => True
  | .holding _ _ _ => True
  | _ => False

def Spares (cap : ℚ) (world : World) (start : Int) (mails : ℚ) : Prop :=
  start ≤ world.clock ∧ ∀ day, jstDay start ≤ day → sentOn world day + mails ≤ cap

def PhaseSpares (cap : ℚ) (world : World) : Phase → Prop
  | .dated start _ => start ≤ world.clock
  | .allowed start _ allowance => Spares cap world start allowance
  | .leasing start _ _ allowance => Spares cap world start allowance
  | .holding hand _ times =>
    Spares cap world hand.start hand.rows.length ∧ (∀ time ∈ times, hand.start ≤ time) ∧
      (∀ row ∈ hand.rows, row.sentAt = none) ∧ (hand.rows.map OutboxRow.id).Nodup
  | _ => True

structure Spared (cap : ℚ) (world : World) (phases : List Phase) : Prop where
  within : ∀ day, (sentOn world day : ℚ) ≤ cap
  sentRows : ∀ row ∈ world.outbox, row.sentAt.isSome → row.status = .sent
  inHand : ∀ phase ∈ phases, PhaseSpares cap world phase
  alone : phases.Pairwise fun first second => first.Counted → ¬second.Counted

theorem Spares.later {start : Int} {mails : ℚ} (spares : Spares cap world start mails)
    (clock : world.clock ≤ moved.clock) (sameSent : ∀ day, sentOn moved day = sentOn world day) :
    Spares cap moved start mails := by
  refine ⟨spares.1.trans clock, ?_⟩
  intro day notBefore
  rw [sameSent day]
  exact spares.2 day notBefore

theorem PhaseSpares.later (spares : PhaseSpares cap world phase)
    (clock : world.clock ≤ moved.clock) (sameSent : ∀ day, sentOn moved day = sentOn world day) :
    PhaseSpares cap moved phase := by
  cases phase with
  | idle | starting => trivial
  | dated start deadline =>
    have isPast : start ≤ world.clock := spares
    exact isPast.trans clock
  | allowed start deadline allowance | leasing start deadline leaseUntil allowance =>
    have spares : Spares cap world start allowance := spares
    exact spares.later clock sameSent
  | holding hand moment times => exact ⟨spares.1.later clock sameSent, spares.2⟩

theorem Spared.turn (spared : Spared cap world (phase :: phases))
    (clock : world.clock ≤ moved.clock) (sameSent : ∀ day, sentOn moved day = sentOn world day)
    (sentRows : ∀ row ∈ moved.outbox, row.sentAt.isSome → row.status = .sent)
    (afterSpares : PhaseSpares cap moved after) (counted : after.Counted → phase.Counted) :
    Spared cap moved (after :: phases) := by
  constructor
  · intro day
    rw [sameSent day]
    exact spared.within day
  · exact sentRows
  · intro other member
    rcases mem_cons.mp member with rfl | member
    · exact afterSpares
    · exact (spared.inHand other (mem_cons_of_mem phase member)).later clock sameSent
  · obtain ⟨alone, rest⟩ := pairwise_cons.mp spared.alone
    apply pairwise_cons.mpr
    exact ⟨fun other member isCounted => alone other member (counted isCounted), rest⟩

theorem Spared.still (spared : Spared cap world (phase :: phases))
    (afterSpares : PhaseSpares cap world after) (counted : after.Counted → phase.Counted) :
    Spared cap world (after :: phases) :=
  spared.turn le_rfl (fun _ => rfl) spared.sentRows afterSpares counted

/-- Answers with which a drain that has counted goes on to its end. -/
def helpful : (request : Call) → Except String (Result request)
  | .fault => .ok ()
  | .now => .ok (0 : Int)
  | .countOutboxSentSince _ => .ok (0 : Nat)
  | .claimOutbox _ =>
    .ok ⟨0, [⟨"", "", .opsCopy, .pending, 0, 0, none, none, 0⟩]⟩
  | .ordersByIds _ => .ok []
  | .ticketsForOrders _ => .ok []
  | .render _ _ _ => .error ""
  | .sleep _ => .ok (0 : Int)
  | .wake _ => .ok ()
  | .post _ _ _ => .ok (0 : Int)
  | .response _ _ _ => .error ""
  | .applyOutboxUpdates _ _ => .ok ()
  | .advance _ => .ok ()

theorem possible_helpful (request : Call) : possible request (helpful request) := by
  cases request with
  | _ => trivial

theorem mayReach_of_counted {program : Prog drainSignature Unit}
    (follows : (drainProtocol deps).Follows phase program) (isCounted : phase.Counted) :
    program.MayReach isCount isApply := by
  apply follows.mayReach_of_answer isCounted _ helpful possible_helpful
  · intro phase request after isCounted leads
    cases request with
    | applyOutboxUpdates => exact .inl trivial
    | countOutboxSentSince since =>
      cases leads with
      | counts => exact isCounted.elim
    | now =>
      refine .inr ⟨id, ?_⟩
      cases leads with
      | dates | uncapped => exact isCounted.elim
      | dateLease =>
        have isDate : ¬MAX_DATE_MS < |(((0 : Int) + OUTBOX_LEASE_MS : Int) : ℚ)| := by
          norm_num [MAX_DATE_MS, OUTBOX_LEASE_MS]
        unfold Phase.leased
        rw [if_neg isDate]
        trivial
      | reads => trivial
    | claimOutbox claim =>
      refine .inr ⟨id, ?_⟩
      cases leads with
      | claims => trivial
    | _ =>
      refine .inr ⟨id, ?_⟩
      cases leads with
      | _ => exact isCounted
  · intro phase isCounted
    cases phase with
    | idle | starting => exact isCounted.elim
    | _ => exact id

theorem sentRows_leaseRows {claim : OutboxClaim} {limit : Int}
    (sentRows : ∀ row ∈ world.outbox, row.sentAt.isSome → row.status = .sent) :
    ∀ row ∈ (world.leaseRows claim limit).outbox, row.sentAt.isSome → row.status = .sent := by
  intro row member
  obtain ⟨old, oldMem, rfl⟩ := mem_leaseRows.mp member
  split
  · exact sentRows old oldMem
  · exact sentRows old oldMem

/-- The rows that are claimed are no more than the mails that are left. -/
theorem Spared.claims {start deadline leaseUntil : Int} {allowance : ℚ} {claim : OutboxClaim}
    {claimed : Claimed}
    (spared : Spared cap world (.leasing start deadline leaseUntil allowance :: phases))
    (isPositive : 0 < claim.limit) (withinAllowance : claim.limit ≤ allowance)
    (isClaim : world.claimOutbox claim = (.ok claimed, moved)) :
    Spared cap moved (.claimed start deadline leaseUntil allowance claimed :: phases) := by
  obtain ⟨isInt, rfl, -, isRows⟩ := claimOutbox_ok isClaim
  have spares : Spares cap world start allowance := spared.inHand _ (.head _)
  have isLimit : ((claim.limit.num : Int) : ℚ) = claim.limit :=
    (Rat.den_eq_one_iff claim.limit).mp (by simpa [Rat.isInt] using isInt)
  have isNonneg : 0 ≤ claim.limit.num := Rat.num_nonneg.mpr isPositive.le
  have isLength : ((claimed.rows.length : Nat) : ℚ) ≤ allowance := by
    have fewer := length_selected_le world claim isNonneg
    rw [isRows.length_eq, length_map]
    apply le_trans _ withinAllowance
    rw [← isLimit]
    exact_mod_cast fewer
  have unsent : ∀ row ∈ claimed.rows, row.sentAt = none := by
    intro row member
    obtain ⟨selected, selectedMem, rfl⟩ := List.mem_map.mp (isRows.mem_iff.mp member)
    obtain ⟨inTable, isDue⟩ := mem_selected selectedMem
    have isPending : selected.status = .pending := (of_decide_eq_true isDue).1
    have isNone : selected.sentAt = none := by
      by_contra isSent
      have isSent := spared.sentRows selected inTable (Option.isSome_iff_ne_none.mpr isSent)
      rw [isPending] at isSent
      cases isSent
    exact isNone
  have sameSent : ∀ day, sentOn (world.leaseRows claim claim.limit.num) day = sentOn world day :=
    fun day => sentOn_leaseRows claim claim.limit.num
  have sameClock : world.clock ≤ (world.leaseRows claim claim.limit.num).clock := le_rfl
  apply spared.turn sameClock sameSent (sentRows_leaseRows spared.sentRows)
  · unfold Phase.claimed
    split
    · trivial
    · refine ⟨⟨spares.1, ?_⟩, forall_mem_nil _, unsent,
        (ids_claimed isRows).nodup_iff.mpr (nodup_selected world claim claim.limit.num)⟩
      intro day notBefore
      rw [sameSent day]
      have spare := spares.2 day notBefore
      simp only []
      linarith
  · exact fun _ => trivial

/-- Counted while nobody else may send, the mails that are left stay left. -/
theorem Spared.counts {start deadline : Int}
    (spared : Spared cap world (.dated start deadline :: phases))
    (alone : ∀ phase ∈ phases, ¬phase.Counted) :
    Spared cap world (.counted start deadline
      (max 0 (cap - world.countOutboxSentSince (dayStart (jstDay start)))) :: phases) := by
  have isPast : start ≤ world.clock := spared.inHand _ (.head _)
  have spares : PhaseSpares cap world (.counted start deadline
      (max 0 (cap - world.countOutboxSentSince (dayStart (jstDay start))))) := by
    unfold Phase.counted
    split
    · trivial
    · refine ⟨isPast, ?_⟩
      intro day notBefore
      have fewer : (sentOn world day : ℚ) ≤ world.countOutboxSentSince (dayStart (jstDay start)) :=
        Nat.cast_le.mpr (sentOn_le_count notBefore spared.sentRows)
      have within := spared.within day
      rcases max_cases (0 : ℚ) (cap - world.countOutboxSentSince (dayStart (jstDay start)))
        with ⟨isMax, -⟩ | ⟨isMax, -⟩
      · rw [isMax]
        linarith
      · rw [isMax]
        linarith
  refine ⟨spared.within, spared.sentRows, ?_, ?_⟩
  · intro other member
    rcases mem_cons.mp member with rfl | member
    · exact spares
    · exact spared.inHand other (.tail _ member)
  · apply pairwise_cons.mpr
    exact ⟨fun other member _ => alone other member, (pairwise_cons.mp spared.alone).2⟩

theorem Spared.applies {hand : Hand} {moment : Moment} {times : List Int}
    {updates : List OutboxUpdate}
    (spared : Spared cap world (.holding hand moment times :: phases))
    (covers : Covers times hand.rows updates) :
    Spared cap (world.applyOutboxUpdates hand.lease updates) (.idle :: phases) := by
  obtain ⟨spares, isPast, unsent, rowsNodup⟩ := spared.inHand _ (.head _)
  have nodup : (updates.map OutboxUpdate.id).Nodup := rowsNodup.sublist covers.ids
  obtain ⟨alone, rest⟩ := pairwise_cons.mp spared.alone
  have isSentAt : ∀ update ∈ updates, (update.status = .sent ∧
      ∃ time ∈ times, update.sentAt = some time) ∨ update.sentAt = none := by
    intro update member
    obtain ⟨row, rowMem, fits⟩ := covers.exists_row member
    rcases fits.sentAt with sent | ⟨-, isNone⟩ | ⟨-, isRow⟩
    · exact .inl sent
    · exact .inr isNone
    · exact .inr (isRow.trans (unsent row rowMem))
  refine ⟨?_, ?_, ?_, ?_⟩
  · intro day
    have grows : sentOn (world.applyOutboxUpdates hand.lease updates) day ≤ sentOn world day +
        updates.countP (fun update => sentIn day update.sentAt) := sentOn_applied_le _ _
    by_cases notBefore : jstDay hand.start ≤ day
    · have fewer : updates.countP (fun update => sentIn day update.sentAt) ≤ hand.rows.length := by
        have handled := covers.ids.length_le
        rw [length_map, length_map] at handled
        exact countP_le_length.trans handled
      have spare := spares.2 day notBefore
      have total : (sentOn (world.applyOutboxUpdates hand.lease updates) day : ℚ) ≤
          sentOn world day + hand.rows.length := by
        exact_mod_cast grows.trans (Nat.add_le_add_left fewer _)
      linarith
    · have none : updates.countP (fun update => sentIn day update.sentAt) = 0 := by
        apply countP_eq_zero.mpr
        intro update member isSent
        rcases isSentAt update member with ⟨-, time, timeMem, isTime⟩ | isNone
        · rw [isTime] at isSent
          have isDay : jstDay time = day := of_decide_eq_true isSent
          exact notBefore (isDay ▸ jstDay_mono (isPast time timeMem))
        · rw [isNone] at isSent
          cases isSent
      rw [none] at grows
      exact le_trans (Nat.cast_le.mpr grows) (spared.within day)
  · intro row member isSome
    rcases (mem_applyUpdates nodup).mp member with
      ⟨inTable, -⟩ | ⟨update, updateMem, old, -, -, rfl⟩
    · exact spared.sentRows row inTable isSome
    · rcases isSentAt update updateMem with ⟨isSent, -⟩ | isNone
      · exact isSent
      · have isNone : (update.overwrite old).sentAt = none := isNone
        rw [isNone] at isSome
        cases isSome
  · intro other member
    rcases mem_cons.mp member with rfl | member
    · trivial
    · have kept := spared.inHand other (.tail _ member)
      have notCounted := alone other member trivial
      cases other with
      | idle | starting => trivial
      | dated => exact kept
      | _ => exact (notCounted trivial).elim
  · exact pairwise_cons.mpr ⟨fun _ _ isCounted => isCounted.elim, rest⟩

theorem Spared.call {request : Call} {answer : Except String (Result request)}
    {others : List (Operation × Prog drainSignature Unit)}
    (isCap : deps.ticketMailDailyCap = some cap)
    (tracks : (drainProtocol deps).Tracks others phases)
    (permitted : countsApart.mayCall request world others)
    (answers : drainMachine.Answers request world answer moved)
    (leads : Phase.Leads deps phase request answer after)
    (spared : Spared cap world (phase :: phases)) : Spared cap moved (after :: phases) := by
  have spares := spared.inHand phase (.head _)
  cases leads with
  | goesOn | orders | tickets | renders =>
    obtain rfl : moved = world := answers
    exact spared
  | failsAt | noOrders | noTickets =>
    obtain rfl : moved = world := answers
    exact spared.still trivial False.elim
  | dates =>
    obtain ⟨isAnswer, rfl⟩ := Prod.mk.inj answers
    cases isAnswer
    exact spared.still (le_refl world.clock) False.elim
  | counts isSameCap =>
    obtain ⟨isAnswer, rfl⟩ := Prod.mk.inj answers
    cases isAnswer
    obtain rfl := Option.some.inj (isCap.symm.trans isSameCap)
    apply spared.counts
    intro other member isCounted
    obtain ⟨thread, threadMem, follows⟩ := tracks.exists_of_mem member
    exact permitted trivial thread threadMem (mayReach_of_counted follows isCounted)
  | uncapped noCap =>
    rw [isCap] at noCap
    cases noCap
  | dateLease =>
    cases answers
    have kept : Spares cap world _ _ := spares
    unfold Phase.leased
    split
    · exact spared.still trivial False.elim
    · exact spared.still kept id
  | claims isNow isUntil isPositive withinAllowance =>
    exact spared.claims isPositive withinAllowance answers
  | refused =>
    obtain rfl := claimOutbox_error answers
    exact spared.still trivial False.elim
  | sleeps isCalm | wakes | posts isRow =>
    cases answers
    exact spared.still ⟨spares.1, spares.2⟩ id
  | reads isSettled =>
    obtain ⟨isAnswer, rfl⟩ := Prod.mk.inj answers
    cases isAnswer
    obtain ⟨spares, isPast, unsent⟩ := spares
    exact spared.still ⟨spares, forall_mem_cons.mpr ⟨spares.1, isPast⟩, unsent⟩ id
  | responds =>
    obtain rfl : moved = world := answers
    exact spared.still ⟨spares.1, spares.2⟩ id
  | applies isSettled covers =>
    cases answers
    exact spared.applies covers
  | advances =>
    cases answers
    exact spared.turn (le_max_left _ _) (fun _ => rfl) spared.sentRows trivial False.elim

theorem spared_preserved (deps : Deps) (isCap : deps.ticketMailDailyCap = some cap) :
    (drainProtocol deps).Preserves (drains deps) countsApart Operation.first (Spared cap) where
  perm phasesPerm spared :=
    ⟨spared.within, spared.sentRows,
      fun phase member => spared.inHand phase (phasesPerm.mem_iff.mpr member),
      (phasesPerm.pairwise_iff fun apart firstCounted secondCounted =>
        apart secondCounted firstCounted).mp spared.alone⟩
  start {start _} op _ _ spared := by
    have isFirst : ∀ world, PhaseSpares cap world op.first ∧ ¬op.first.Counted := by
      intro world
      cases op with
      | drain | passTime => exact ⟨trivial, id⟩
    refine ⟨spared.within, spared.sentRows, ?_, ?_⟩
    · exact forall_mem_cons.mpr ⟨(isFirst _).1, spared.inHand⟩
    · exact pairwise_cons.mpr
        ⟨fun _ _ isCounted => absurd isCounted (isFirst start).2, spared.alone⟩
  call tracks permitted answers leads spared := spared.call isCap tracks permitted answers leads
  environment moves spared := by
    obtain ⟨id, orderId, kind, rfl⟩ := moves
    refine ⟨?_, ?_, ?_, spared.alone⟩
    · intro day
      rw [sentOn_issueMail]
      exact spared.within day
    · intro row member isSome
      rcases mem_issueMail member with inTable | ⟨-, -, isNone, -⟩
      · exact spared.sentRows row inTable isSome
      · rw [isNone] at isSome
        cases isSome
    · intro phase member
      exact (spared.inHand phase member).later le_rfl fun _ => sentOn_issueMail id orderId kind
  stop _ _ spared :=
    ⟨spared.within, spared.sentRows, fun phase member => spared.inHand phase (.tail _ member),
      (pairwise_cons.mp spared.alone).2⟩

theorem Fresh.spared (fresh : Fresh world) (isNonneg : 0 ≤ cap) : Spared cap world [] := by
  refine ⟨?_, ?_, forall_mem_nil _, .nil⟩
  · intro day
    have none : sentOn world day = 0 := by
      apply countP_eq_zero.mpr
      intro row member
      rw [(fresh.rows row member).2.2]
      exact nofun
    rw [none, Nat.cast_zero]
    exact isNonneg
  · intro row member isSome
    rw [(fresh.rows row member).2.2] at isSome
    cases isSome

/-- While the mails of the day are counted apart, the cap is kept on every day. -/
theorem withinDailyCap_of_countsApart (deps : Deps) : WithinDailyCap countsApart deps := by
  intro cap isCap isNonneg start config fresh reached
  obtain ⟨phases, -, spared⟩ :=
    (spared_preserved deps isCap).reached (drains_governed deps) reached (fresh.spared isNonneg)
  exact spared.within

/-- One mail a day, and only copies for the organisers. -/
def oneMailADay : Deps where
  hasMailer := true
  hasTokenSecret := false
  ticketOpsEmail := some "ops@example.com"
  ticketMailFrom := "tickets@example.com"
  ticketMailDailyCap := some 1

def twoOrders : World where
  clock := 0
  outbox := (World.issueMail ⟨0, .empty, 0, [], [], []⟩ "o1:ops_copy" "o1" .opsCopy).outbox
    |>.insertOrIgnore ⟨"o2:ops_copy", "o2", .opsCopy, .pending, 0, 0, none, none, 0⟩
  nextLease := 0
  claims := []
  returned := []
  outcomes := []

def drainReferee : Referee (drains oneMailADay) anyCall where
  mayCall _ _ := true
  mayStart _ op :=
    match op with
    | .drain options => options.limit.isNone && options.budgetMs.isNone
    | .passTime _ => true
  allowed_of_mayCall _ := trivial
  startable_of_mayStart {running op} permitted := by
    cases op with
    | drain options =>
      obtain ⟨noLimit, noBudget⟩ := Bool.and_eq_true_iff.mp permitted
      rw [Option.isNone_iff_eq_none] at noLimit noBudget
      refine ⟨?_, ?_⟩
      · rw [noLimit]
        exact nofun
      · rw [noBudget]
        exact le_rfl
    | passTime => trivial

def accepting : (request : Call) → Except String (Result request)
  | .fault => .ok ()
  | .ordersByIds ids => .ok (ids.map fun id =>
    { id, items := [], quantity := 1, amountJpy := 0, status := .paid
      stripeSessionId := none, createdAt := 0, paidAt := some 0, paymentIntentId := none
      refundedAt := none, reviewReason := none, resolvedBy := none, resolvedAt := none
      clientKey := none, couponId := none, paymentMethod := none, preview := false
      buyerEmail := "buyer@example.com" })
  | .ticketsForOrders _ => .ok []
  | .render _ _ _ => .ok ⟨"", "", none⟩
  | .response _ _ _ => .ok (.ok ⟨200, none, none, some "email_1"⟩)
  | request => helpful request

/-- Both drains count before either sends. -/
theorem not_withinDailyCap : ¬WithinDailyCap anyStep oneMailADay := by
  intro within
  have fresh : Fresh twoOrders := by
    refine ⟨rfl, rfl, rfl, ?_⟩
    have checked : ∀ row ∈ twoOrders.outbox.rows,
        row.status = .pending ∧ row.attempts = 0 ∧ row.sentAt = none := by decide +kernel
    exact checked
  let calls : Nat → Nat → List (Move drainSignature World Operation) := fun index count =>
    List.replicate count (.call index accepting)
  obtain ⟨final, reached, twice⟩ := drainReferee.exists_reachable_of_play
    ([.start (.drain ⟨none, none, none⟩), .start (.drain ⟨none, none, none⟩)] ++
      calls 0 4 ++ calls 1 4 ++ calls 0 18 ++ calls 1 18) twoOrders
    (fun world => decide (sentOn world 0 = 2))
    (by
      intro moved member
      simp [calls] at member)
    (by decide +kernel)
  have isTwo := of_decide_eq_true twice
  have atMost := within 1 rfl zero_le_one twoOrders final fresh (reachableUnder_anyStep reached) 0
  rw [isTwo] at atMost
  norm_num at atMost

end DubEcosystem.LpDelivery
