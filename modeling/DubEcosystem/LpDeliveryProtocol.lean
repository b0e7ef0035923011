import DubEcosystem.InterleavingProtocols
import DubEcosystem.LpDeliveryDrain

/-!
# LP tickets: what a drain holds

A drain counts the mails of the day, takes rows under a lease, and posts mails while its
time lasts.  Whatever ends the loop, it writes an update of each row that it came to.
-/

namespace DubEcosystem.LpDelivery

open Interleaving PortPrograms List
open LpTickets (OutboxRow)

/-- What a drain holds from its claim on. -/
structure Hand where
  lease : Nat
  start : Int
  deadline : Int
  leaseUntil : Int
  allowance : ℚ
  rows : List OutboxRow

inductive Moment where
  | ready
  | sleeping (due : Int)
  | awake
  /-- The deadline was seen not to have passed. -/
  | checked
  | sending (idempotencyKey : String) (due : Int)

/-- No mail is out, and the next row may be slept for. -/
def Moment.Calm : Moment → Prop
  | .ready => True
  | .checked => True
  | _ => False

/-- The drain waits for nothing. -/
def Moment.Settled (moment : Moment) : Prop :=
  moment.Calm ∨ moment = .awake

inductive Phase where
  | idle
  | starting (budget : Int)
  | dated (start deadline : Int)
  | allowed (start deadline : Int) (allowance : ℚ)
  | leasing (start deadline leaseUntil : Int) (allowance : ℚ)
  /-- `times` are the answers about the time, the latest first. -/
  | holding (hand : Hand) (moment : Moment) (times : List Int)

/-- The update is one that the row may get; a row is sent at a time that was read. -/
structure Fits (times : List Int) (row : OutboxRow) (update : OutboxUpdate) : Prop where
  id : update.id = row.id
  attempts : update.attempts = row.attempts + update.outcome.counts.toNat
  sentAt : (update.status = .sent ∧ ∃ time ∈ times, update.sentAt = some time) ∨
    (update.status ≠ .sent ∧ update.sentAt = none) ∨
    (update.status = row.status ∧ update.sentAt = row.sentAt)

def Covers (times : List Int) (rows : List OutboxRow) (updates : List OutboxUpdate) : Prop :=
  ∃ handled, handled <+: rows ∧ List.Forall₂ (Fits times) handled updates

def Phase.counted (start deadline : Int) (allowance : ℚ) : Phase :=
  if allowance = 0 then .idle else .allowed start deadline allowance

def Phase.leased (start deadline : Int) (allowance : ℚ) (time : Int) : Phase :=
  if MAX_DATE_MS < |((time + OUTBOX_LEASE_MS : Int) : ℚ)| then .idle
  else .leasing start deadline (time + OUTBOX_LEASE_MS) allowance

def Phase.claimed (start deadline leaseUntil : Int) (allowance : ℚ) (claimed : Claimed) :
    Phase :=
  if claimed.rows = [] then .idle
  else .holding ⟨claimed.lease, start, deadline, leaseUntil, allowance, claimed.rows⟩ .ready []

def Moment.seen (moment : Moment) (deadline time : Int) : Moment :=
  if time < deadline then .checked else moment

inductive Phase.Leads (deps : Deps) :
    Phase → (request : Call) → Except String (Result request) → Phase → Prop
  | goesOn {phase} : Leads deps phase .fault (.ok ()) phase
  | failsAt {phase thrown} : Leads deps phase .fault (.error thrown) .idle
  | dates {budget time} :
      Leads deps (.starting budget) .now (.ok time) (.dated time (time + budget))
  | counts {start deadline cap} {sent : Nat} (isCap : deps.ticketMailDailyCap = some cap) :
      Leads deps (.dated start deadline) (.countOutboxSentSince (dayStart (jstDay start)))
        (.ok sent) (.counted start deadline (max 0 (cap - sent)))
  | uncapped {start deadline time} (noCap : deps.ticketMailDailyCap = none) :
      Leads deps (.dated start deadline) .now (.ok time)
        (.leased start deadline DRAIN_BATCH_MAX time)
  | dateLease {start deadline allowance time} :
      Leads deps (.allowed start deadline allowance) .now (.ok time)
        (.leased start deadline allowance time)
  | claims {start deadline leaseUntil allowance claim claimed} (isNow : claim.now = start)
      (isUntil : claim.leaseUntil = leaseUntil) (isPositive : 0 < claim.limit)
      (withinAllowance : claim.limit ≤ allowance) :
      Leads deps (.leasing start deadline leaseUntil allowance) (.claimOutbox claim)
        (.ok claimed) (.claimed start deadline leaseUntil allowance claimed)
  | refused {start deadline leaseUntil allowance claim thrown} :
      Leads deps (.leasing start deadline leaseUntil allowance) (.claimOutbox claim)
        (.error thrown) .idle
  | orders {phase ids orders} : Leads deps phase (.ordersByIds ids) (.ok orders) phase
  | noOrders {phase ids thrown} : Leads deps phase (.ordersByIds ids) (.error thrown) .idle
  | tickets {phase orderIds tickets} :
      Leads deps phase (.ticketsForOrders orderIds) (.ok tickets) phase
  | noTickets {phase orderIds thrown} :
      Leads deps phase (.ticketsForOrders orderIds) (.error thrown) .idle
  | renders {phase kind order tickets answer} :
      Leads deps phase (.render kind order tickets) answer phase
  | sleeps {hand moment times due} (isCalm : moment.Calm) :
      Leads deps (.holding hand moment times) (.sleep MAIL_MIN_INTERVAL_MS) (.ok due)
        (.holding hand (.sleeping due) times)
  | wakes {hand times due} : Leads deps (.holding hand (.sleeping due) times) (.wake due) (.ok ())
        (.holding hand .awake times)
  | reads {hand moment times time} (isSettled : moment.Settled) :
      Leads deps (.holding hand moment times) .now (.ok time)
        (.holding hand (moment.seen hand.deadline time) (time :: times))
  | posts {hand times idempotencyKey mail due}
      (isRow : ∃ row ∈ hand.rows, row.id = idempotencyKey) :
      Leads deps (.holding hand .checked times) (.post hand.lease idempotencyKey mail)
        (.ok due) (.holding hand (.sending idempotencyKey due) times)
  | responds {hand times idempotencyKey due answer} :
      Leads deps (.holding hand (.sending idempotencyKey due) times)
        (.response hand.lease idempotencyKey due) answer (.holding hand .ready times)
  | applies {hand moment times updates} (isSettled : moment.Settled)
      (covers : Covers times hand.rows updates) :
      Leads deps (.holding hand moment times) (.applyOutboxUpdates hand.lease updates)
        (.ok ()) .idle
  | advances {time} : Leads deps .idle (.advance time) (.ok ()) .idle

/-- What may be answered; the clock and the waiting do not fail. -/
def possible : (request : Call) → Except String (Result request) → Prop
  | .fault, _ => True
  | .claimOutbox _, _ => True
  | .ordersByIds _, _ => True
  | .ticketsForOrders _, _ => True
  | .render _ _ _, _ => True
  | .response _ _ _, _ => True
  | _, .ok _ => True
  | _, .error _ => False

def drainProtocol (deps : Deps) : Protocol drainSignature Phase where
  possible := possible
  leads := Phase.Leads deps
  final
    | .idle => True
    | .starting _ => True
    | _ => False

def Operation.first : Operation → Phase
  | .drain options => .starting (options.budgetMs.getD DRAIN_BUDGET_MS)
  | .passTime _ => .idle

variable {request : Call}

theorem possible_of_answers {before after : World} {answer : Except String (Result request)}
    (answers : drainMachine.Answers request before answer after) :
    possible request answer := by
  cases request with
  | fault | claimOutbox | ordersByIds | ticketsForOrders | render | response => trivial
  | _ =>
    cases answer with
    | ok => trivial
    | error => cases answers

variable {deps : Deps} {α : Type} {phase : Phase} {hand : Hand} {times : List Int} {moment : Moment}

abbrev DrainFollows (deps : Deps) (phase : Phase) (action : Drain α)
    (post : Except String α → Phase → Prop) : Prop :=
  Follows (drainProtocol deps) phase action post

def Onward (hand : Hand) (times : List Int) (good : Moment → List Int → Prop)
    (after : Phase) : Prop :=
  ∃ moment laterTimes, after = .holding hand moment laterTimes ∧ times ⊆ laterTimes ∧
    good moment laterTimes

/-- No mail is out, and the row may get the update that was made. -/
def Suits (row : OutboxRow) (result : Except String OutboxUpdate) (moment : Moment)
    (times : List Int) : Prop :=
  moment.Calm ∧ ∀ update, result = .ok update → Fits times row update

/-- The row may get its update, and no mail is out if more are to be posted. -/
def Serves (row : OutboxRow) (result : Except String (OutboxUpdate × Bool))
    (moment : Moment) (times : List Int) : Prop :=
  moment.Settled ∧ ∀ update stop, result = .ok (update, stop) →
    Fits times row update ∧ (stop = false → moment.Calm)

variable {good : Moment → List Int → Prop}

theorem Onward.since {earlier : List Int} {after : Phase}
    (onward : Onward hand times good after) (grows : earlier ⊆ times) :
    Onward hand earlier good after := by
  obtain ⟨later, laterTimes, isAfter, laterGrows, isGood⟩ := onward
  exact ⟨later, laterTimes, isAfter, List.Subset.trans grows laterGrows, isGood⟩

theorem Onward.here (isGood : good moment times) :
    Onward hand times good (.holding hand moment times) :=
  ⟨moment, times, rfl, fun _ member => member, isGood⟩

variable {row : OutboxRow}

variable {update : OutboxUpdate}

theorem suits_ok (isCalm : moment.Calm) (fits : Fits times row update) :
    Suits row (.ok update) moment times := by
  refine ⟨isCalm, ?_⟩
  rintro _ ⟨⟩
  exact fits

theorem serves_ok {stop : Bool} (isSettled : moment.Settled)
    (fits : Fits times row update) (isCalm : stop = false → moment.Calm) :
    Serves row (.ok (update, stop)) moment times := by
  refine ⟨isSettled, ?_⟩
  rintro _ _ ⟨⟩
  exact ⟨fits, isCalm⟩

theorem calm_seen {time : Int} (isCalm : moment.Calm) : (moment.seen hand.deadline time).Calm := by
  unfold Moment.seen
  split
  · trivial
  · exact isCalm

theorem settled_seen {time : Int} (isSettled : moment.Settled) :
    (moment.seen hand.deadline time).Settled := by
  unfold Moment.seen
  split
  · exact .inl trivial
  · exact isSettled

theorem now_follows {continuation : Int → Drain α}
    {good : Except String α → Moment → List Int → Prop} (isSettled : moment.Settled)
    (rest : ∀ time, DrainFollows deps
      (.holding hand (moment.seen hand.deadline time) (time :: times)) (continuation time)
      fun result => Onward hand (time :: times) (good result)) :
    DrainFollows deps (.holding hand moment times) (ask .now >>= continuation)
      fun result => Onward hand times (good result) := by
  apply follows_port_bind
  · intro time _
    refine ⟨_, .reads isSettled, ?_⟩
    apply (rest time).mono
    exact fun result after onward => onward.since (subset_cons_self time times)
  · exact fun _ => False.elim

theorem plusMs_follows {ms : ℚ} (isCalm : moment.Calm) :
    DrainFollows deps (.holding hand moment times) (plusMs ms)
      fun _ => Onward hand times fun later _ => later.Calm := by
  apply now_follows (.inl isCalm)
  intro time
  unfold toISOString
  split
  · exact follows_throw (.here (calm_seen isCalm))
  · exact follows_pure (.here (calm_seen isCalm))

theorem postponed_follows {ms : ℚ} {update : Int → OutboxUpdate} (isCalm : moment.Calm)
    (fits : ∀ nextAttemptAt times, Fits times row (update nextAttemptAt)) :
    DrainFollows deps (.holding hand moment times)
      (plusMs ms >>= fun nextAttemptAt => pure (update nextAttemptAt))
      fun result => Onward hand times (Suits row result) := by
  apply follows_bind
  apply (plusMs_follows isCalm).mono
  rintro (thrown | nextAttemptAt) _ ⟨later, laterTimes, rfl, grows, isLater⟩
  · exact ⟨later, laterTimes, rfl, grows, isLater, nofun⟩
  · apply follows_pure
    exact ⟨later, laterTimes, rfl, grows, suits_ok isLater (fits nextAttemptAt laterTimes)⟩

variable {outcome : Outcome}

theorem counted_follows {error : String} (isCalm : moment.Calm)
    (doesCount : outcome.counts = true) :
    DrainFollows deps (.holding hand moment times) (counted row error outcome)
      fun result => Onward hand times (Suits row result) := by
  unfold counted
  simp only []
  split
  · apply follows_pure
    apply Onward.here
    exact suits_ok isCalm ⟨rfl, by simp [doesCount], .inr (.inl ⟨nofun, rfl⟩)⟩
  · apply postponed_follows isCalm
    exact fun _ _ => ⟨rfl, by simp [doesCount], .inr (.inl ⟨nofun, rfl⟩)⟩

theorem later_follows {delayMs : ℚ} {error : String} (isCalm : moment.Calm)
    (countsNot : outcome.counts = false) :
    DrainFollows deps (.holding hand moment times) (later row delayMs error outcome)
      fun result => Onward hand times (Suits row result) := by
  apply postponed_follows isCalm
  exact fun _ _ => ⟨rfl, by simp [countsNot], .inr (.inl ⟨nofun, rfl⟩)⟩

theorem withStop_follows {action : Drain OutboxUpdate} (stop : Bool)
    (follows : DrainFollows deps phase action fun result => Onward hand times (Suits row result)) :
    DrainFollows deps phase (action >>= fun update => pure (update, stop))
      fun result => Onward hand times (Serves row result) := by
  apply follows_bind
  apply follows.mono
  rintro (thrown | update) _ ⟨later, laterTimes, rfl, grows, isCalm, fits⟩
  · exact ⟨later, laterTimes, rfl, grows, .inl isCalm, nofun⟩
  · apply follows_pure
    refine ⟨later, laterTimes, rfl, grows, ?_⟩
    exact serves_ok (.inl isCalm) (fits update rfl) fun _ => isCalm

theorem mailFor_follows {order : MailOrder} {tickets : List LpTickets.TicketRow} :
    DrainFollows deps phase (mailFor deps row order tickets) fun _ after => after = phase := by
  unfold mailFor
  split
  · simp only []
    split
    · exact follows_pure rfl
    · apply follows_port_bind
      · exact fun _ _ => ⟨phase, .renders, follows_pure rfl⟩
      · exact fun _ _ => ⟨phase, .renders, rfl⟩
  · apply follows_port_bind
    · exact fun _ _ => ⟨phase, .renders, follows_pure rfl⟩
    · exact fun _ _ => ⟨phase, .renders, rfl⟩

theorem send_follows {mail : OutboundMail} (member : row ∈ hand.rows) :
    DrainFollows deps (.holding hand .checked times) (send hand.lease mail row.id)
      fun _ after => after = .holding hand .ready times := by
  apply follows_port_bind
  · intro due _
    refine ⟨_, .posts ⟨row, member, rfl⟩, ?_⟩
    apply follows_port_bind
    · exact fun _ _ => ⟨_, .responds, follows_pure rfl⟩
    · exact fun _ _ => ⟨_, .responds, rfl⟩
  · exact fun _ => False.elim

theorem sendOutcome_follows (res : MailResult) (isCalm : moment.Calm) :
    DrainFollows deps (.holding hand moment times) (sendOutcome row res)
      fun result => Onward hand times (Serves row result) := by
  cases res with
  | accepted id =>
    apply now_follows (.inl isCalm)
    intro time
    apply follows_pure
    apply Onward.here
    apply serves_ok (.inl (calm_seen isCalm))
    · exact ⟨rfl, rfl, .inl ⟨rfl, time, .head _, rfl⟩⟩
    · exact fun _ => calm_seen isCalm
  | refused failure error retryAfterSec =>
    cases failure with
    | rejected => exact withStop_follows false (counted_follows isCalm rfl)
    | rateLimited | transient => exact withStop_follows true (later_follows isCalm rfl)

theorem sendRow_follows (order : Option MailOrder) (tickets : List LpTickets.TicketRow)
    (member : row ∈ hand.rows) :
    DrainFollows deps (.holding hand .checked times) (sendRow deps hand.lease row order tickets)
      fun result => Onward hand times (Serves row result) := by
  have isCalm : Moment.checked.Calm := trivial
  unfold sendRow
  split
  · exact withStop_follows false (counted_follows isCalm rfl)
  · split
    · apply follows_pure
      apply Onward.here
      apply serves_ok (.inl isCalm) _ fun _ => isCalm
      exact ⟨rfl, rfl, .inr (.inl ⟨nofun, rfl⟩)⟩
    · split
      · exact withStop_follows false (later_follows isCalm rfl)
      · apply follows_attempt_bind
        apply mailFor_follows.mono
        rintro (thrown | _ | mail) _ rfl
        · exact withStop_follows false (counted_follows isCalm rfl)
        · exact withStop_follows false (counted_follows isCalm rfl)
        · apply follows_attempt_bind
          apply (send_follows member).mono
          rintro (thrown | res) _ rfl
          · exact sendOutcome_follows _ trivial
          · exact sendOutcome_follows _ trivial

variable {batch : Batch}

theorem fits_unsent {now : Int} : Fits times row (unsent row now) :=
  ⟨rfl, rfl, .inr (.inr ⟨rfl, rfl⟩)⟩

/-- A row after the deadline, or after the batch was stopped. -/
theorem unsent_follows (isSettled : moment.Settled) : DrainFollows deps (.holding hand moment times)
      (ask .now >>= fun now : Int => pure (unsent row now, true))
      fun result => Onward hand times (Serves row result) := by
  apply now_follows isSettled
  intro time
  apply follows_pure
  apply Onward.here
  exact serves_ok (settled_seen isSettled) fits_unsent nofun

/-- A row whose turn it is, once the pause before it is over. -/
theorem checked_follows (isSettled : moment.Settled) (isLease : batch.lease = hand.lease)
    (isDeadline : batch.deadline = hand.deadline) (member : row ∈ hand.rows)
    (order : Option MailOrder) (tickets : List LpTickets.TicketRow) :
    DrainFollows deps (.holding hand moment times) (ask .now >>= fun now : Int =>
        if batch.deadline ≤ now then ask .now >>= fun now : Int => pure (unsent row now, true)
        else sendRow deps batch.lease row order tickets)
      fun result => Onward hand times (Serves row result) := by
  apply now_follows isSettled
  intro time
  rw [isLease, isDeadline]
  split
  · exact unsent_follows (settled_seen isSettled)
  · rename_i inTime
    have isChecked : moment.seen hand.deadline time = .checked :=
      if_pos (Int.not_le.mp inTime)
    rw [isChecked]
    exact sendRow_follows order tickets member

theorem turn_follows {stopped : Bool} {sends : Nat} (isSettled : moment.Settled)
    (isCalm : stopped = false → moment.Calm) (isLease : batch.lease = hand.lease)
    (isDeadline : batch.deadline = hand.deadline) (member : row ∈ hand.rows) :
    DrainFollows deps (.holding hand moment times) (turn deps batch row stopped sends)
      fun result => Onward hand times (Serves row result) := by
  unfold turn
  cases stopped with
  | true => exact unsent_follows isSettled
  | false =>
    simp only [true_and]
    split
    · apply follows_port_bind
      · intro due _
        refine ⟨_, .sleeps (isCalm rfl), ?_⟩
        apply follows_port_bind
        · rintro ⟨⟩ -
          exact ⟨_, .wakes, checked_follows (.inr rfl) isLease isDeadline member _ _⟩
        · exact fun _ => False.elim
      · exact fun _ => False.elim
    · exact checked_follows isSettled isLease isDeadline member _ _

/-- The updates of the first rows, once the loop has ended. -/
def Writes (rows : List OutboxRow) (result : Except String (List OutboxUpdate × Option String))
    (moment : Moment) (times : List Int) : Prop :=
  moment.Settled ∧ ∃ updates thrown, result = .ok (updates, thrown) ∧ Covers times rows updates

theorem Fits.later {laterTimes : List Int} (fits : Fits times row update)
    (grows : times ⊆ laterTimes) : Fits laterTimes row update := by
  refine ⟨fits.id, fits.attempts, ?_⟩
  rcases fits.sentAt with ⟨isSent, time, member, isTime⟩ | notSent
  · exact .inl ⟨isSent, time, grows member, isTime⟩
  · exact .inr notSent

theorem sendRows_follows {handled rows : List OutboxRow} {stopped : Bool} {sends : Nat}
    {updates : List OutboxUpdate} (isSettled : moment.Settled)
    (isCalm : stopped = false → moment.Calm) (isLease : batch.lease = hand.lease)
    (isDeadline : batch.deadline = hand.deadline) (isSplit : hand.rows = handled ++ rows)
    (fit : List.Forall₂ (Fits times) handled updates) :
    DrainFollows deps (.holding hand moment times) (sendRows deps batch rows stopped sends updates)
      fun result => Onward hand times (Writes hand.rows result) := by
  induction rows generalizing handled stopped sends updates moment times with
  | nil =>
    apply follows_pure
    apply Onward.here
    exact ⟨isSettled, updates, none, rfl, handled, ⟨[], isSplit.symm⟩, fit⟩
  | cons row rows ih =>
    have member : row ∈ hand.rows := isSplit ▸ mem_append_right _ (.head _)
    apply follows_attempt_bind
    apply (turn_follows isSettled isCalm isLease isDeadline member).mono
    rintro (thrown | ⟨update, stop⟩) _ ⟨later, laterTimes, rfl, grows, laterSettled, serves⟩
    · apply follows_pure
      refine ⟨later, laterTimes, rfl, grows, laterSettled, updates, some thrown, rfl, ?_⟩
      exact ⟨handled, ⟨row :: rows, isSplit.symm⟩, fit.imp fun _ _ fits => fits.later grows⟩
    · obtain ⟨fits, laterCalm⟩ := serves update stop rfl
      have fitLater : List.Forall₂ (Fits laterTimes) (handled ++ [row]) (updates ++ [update]) :=
        rel_append (fit.imp fun _ _ fits => fits.later grows) (.cons fits .nil)
      apply (ih laterSettled laterCalm (by simp [isSplit]) fitLater).mono
      exact fun result after onward => onward.since grows

theorem statement_follows {post : Except String (Result request) → Phase → Prop}
    (fails : ∀ thrown, post (.error thrown) .idle)
    (answers : ∀ answer, possible request answer →
      ∃ after, Phase.Leads deps phase request answer after ∧ post answer after) :
    DrainFollows deps phase (statement request) post := by
  apply follows_port_bind
  · rintro ⟨⟩ -
    refine ⟨phase, .goesOn, ?_⟩
    apply follows_port_bind
    · intro result isPossible
      obtain ⟨after, leads, holds⟩ := answers (.ok result) isPossible
      refine ⟨after, leads, ?_⟩
      apply follows_port_bind
      · exact fun _ _ => ⟨after, .goesOn, follows_pure holds⟩
      · exact fun thrown _ => ⟨.idle, .failsAt, fails thrown⟩
    · intro thrown isPossible
      exact answers (.error thrown) isPossible
  · exact fun thrown _ => ⟨.idle, .failsAt, fails thrown⟩

theorem statement_bind_follows
    {continuation : Result request → Drain α} {post : Except String α → Phase → Prop}
    (fails : ∀ thrown, post (.error thrown) .idle)
    (returns : ∀ result, possible request (.ok result) →
      ∃ after, Phase.Leads deps phase request (.ok result) after ∧
        DrainFollows deps after (continuation result) post)
    (throws : ∀ thrown, possible request (.error thrown) →
      Phase.Leads deps phase request (.error thrown) .idle) :
    DrainFollows deps phase (statement request >>= continuation) post := by
  apply follows_bind
  apply statement_follows
  · exact fails
  · rintro (thrown | result) isPossible
    · exact ⟨.idle, throws thrown isPossible, fails thrown⟩
    · exact returns result isPossible

theorem drainClaimed_follows {claimed : Claimed}
    (isLease : claimed.lease = hand.lease) (isRows : claimed.rows = hand.rows) :
    DrainFollows deps (.holding hand .ready []) (drainClaimed deps claimed hand.deadline)
      fun _ after => after = .idle := by
  unfold drainClaimed
  apply statement_bind_follows
  · exact fun _ => rfl
  · intro orders _
    refine ⟨_, .orders, ?_⟩
    apply statement_bind_follows
    · exact fun _ => rfl
    · intro tickets _
      refine ⟨_, .tickets, ?_⟩
      apply follows_bind
      rw [isRows]
      have isCalm : Moment.ready.Calm := trivial
      apply (sendRows_follows (.inl isCalm) (fun _ => isCalm) isLease rfl
        (nil_append _).symm .nil).mono
      rintro _ _ ⟨later, laterTimes, rfl, -, isSettled, updates, thrown, rfl, covers⟩
      apply statement_bind_follows
      · exact fun _ => rfl
      · rintro ⟨⟩ -
        rw [isLease]
        refine ⟨_, .applies isSettled covers, ?_⟩
        cases thrown with
        | some error => exact follows_throw rfl
        | none => exact follows_pure rfl
      · exact fun _ => False.elim
    · exact fun _ _ => .noTickets
  · exact fun _ _ => .noOrders

theorem toISOString_intCast (time : Int) : toISOString (time : ℚ) =
      if MAX_DATE_MS < |(time : ℚ)| then throw "Invalid time value" else pure time := by
  unfold toISOString
  rw [Rat.num_intCast, Rat.den_intCast, Nat.cast_one, Int.tdiv_one]

variable {options : DrainOptions}

theorem claim_follows {start deadline : Int} {allowance : ℚ}
    (leads : ∀ time, Phase.Leads deps phase .now (.ok time) (.leased start deadline allowance time))
    (positiveLimit : ∀ limit, options.limit = some limit → 0 < limit)
    (positive : 0 < allowance) (result : DrainResult) :
    DrainFollows deps phase (plusMs OUTBOX_LEASE_MS >>= fun leaseUntil =>
        statement (.claimOutbox (claimFor deps options start leaseUntil allowance)) >>=
          fun claimed : Claimed =>
            if claimed.rows = [] then pure result else drainClaimed deps claimed deadline)
      fun _ after => after = .idle := by
  have positiveOption : 0 < options.limit.getD DRAIN_BATCH_MAX := by
    cases isLimit : options.limit with
    | none => norm_num [DRAIN_BATCH_MAX]
    | some limit => exact positiveLimit limit isLimit
  have positiveClaim {leaseUntil : Int} :
      0 < (claimFor deps options start leaseUntil allowance).limit :=
    lt_min (lt_min positiveOption (by norm_num [DRAIN_BATCH_MAX])) positive
  apply follows_bind
  apply follows_port_bind
  · intro time _
    refine ⟨_, leads time, ?_⟩
    rw [← Int.cast_add, toISOString_intCast]
    unfold Phase.leased
    split
    · exact follows_throw rfl
    · apply follows_pure
      apply statement_bind_follows
      · exact fun _ => rfl
      · intro claimed _
        refine ⟨_, .claims rfl rfl positiveClaim (min_le_right _ _), ?_⟩
        unfold Phase.claimed
        split
        · exact follows_pure rfl
        · exact drainClaimed_follows rfl rfl
      · exact fun _ _ => .refused
  · exact fun _ => False.elim

theorem drain_follows (positiveLimit : ∀ limit, options.limit = some limit → 0 < limit) :
    DrainFollows deps (Operation.drain options).first (drain deps options)
      fun _ => (drainProtocol deps).final := by
  have ended : ∀ after, after = Phase.idle → (drainProtocol deps).final after := by
    rintro _ rfl
    trivial
  unfold drain
  simp only []
  split
  · exact follows_pure trivial
  · apply follows_port_bind
    · intro now _
      refine ⟨_, .dates, ?_⟩
      apply follows_bind
      unfold dailyAllowance
      split
      · rename_i noCap
        have positive : (0 : ℚ) < DRAIN_BATCH_MAX := by norm_num [DRAIN_BATCH_MAX]
        apply follows_pure
        simp only [positive.ne', if_false]
        apply (claim_follows (fun _ => .uncapped noCap) positiveLimit positive _).mono
        exact fun _ => ended
      · rename_i cap isCap
        apply statement_bind_follows
        · exact fun _ => trivial
        · intro sent _
          refine ⟨_, .counts isCap, ?_⟩
          apply follows_pure
          unfold Phase.counted
          by_cases noneLeft : max 0 (cap - (sent : ℚ)) = 0
          · simp only [noneLeft, if_true]
            exact follows_pure trivial
          · simp only [noneLeft, if_false]
            have positive : 0 < max 0 (cap - (sent : ℚ)) :=
              lt_of_le_of_ne (le_max_left _ _) (Ne.symm noneLeft)
            apply (claim_follows (fun _ => .dateLease) positiveLimit positive _).mono
            exact fun _ => ended
        · exact fun _ => False.elim
    · exact fun _ => False.elim

theorem drains_governed (deps : Deps) :
    (drainProtocol deps).Governs (drains deps) Operation.first where
  program op running isStartable := by
    apply Protocol.followsTo_bind
    cases op with
    | drain options =>
      have follows : DrainFollows deps (Operation.drain options).first
          ((Operation.drain options).action deps) fun _ => (drainProtocol deps).final := by
        apply follows_bind
        apply (drain_follows isStartable.1).mono
        rintro (thrown | result) after isFinal
        · exact isFinal
        · exact follows_pure isFinal
      unfold DrainFollows Follows at follows
      exact follows
    | passTime time =>
      rintro (thrown | ⟨⟩) isPossible
      · exact isPossible.elim
      · exact ⟨.idle, .advances, trivial⟩
  possible := possible_of_answers

end DubEcosystem.LpDelivery
