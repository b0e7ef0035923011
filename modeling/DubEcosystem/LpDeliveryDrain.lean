import DubEcosystem.InterleavingConditions
import DubEcosystem.LpDeliveryTypes
import DubEcosystem.PortPrograms

/-!
# LP tickets: the drain of the outbox

`drain` of `delivery.ts` with what it calls, as a program of atomic statements.  A
statement may fail before it takes effect or after.  A mail is posted and waited for, so a
run can die between the two; sleeping is like that.
-/

namespace DubEcosystem.LpDelivery

open Interleaving PortPrograms
open LpTickets (OutboxKind OutboxStatus OutboxRow TicketRow)

inductive Call where
  | fault
  | now
  | countOutboxSentSince (since : Int)
  | claimOutbox (claim : OutboxClaim)
  | ordersByIds (ids : List String)
  | ticketsForOrders (orderIds : List String)
  /-- `renderBuyerMail` with the passes of the tickets, or `renderOpsMail`. -/
  | render (kind : OutboxKind) (order : MailOrder) (tickets : List TicketRow)
  /-- Answered with the time at which the run goes on. -/
  | sleep (ms : Int)
  | wake (due : Int)
  /-- Answered with the time at which the request is given up. -/
  | post (lease : Nat) (idempotencyKey : String) (mail : OutboundMail)
  | response (lease : Nat) (idempotencyKey : String) (due : Int)
  | applyOutboxUpdates (lease : Nat) (updates : List OutboxUpdate)
  /-- Time passes. -/
  | advance (time : Int)

abbrev Result : Call → Type
  | .now => Int
  | .countOutboxSentSince _ => Nat
  | .claimOutbox _ => Claimed
  | .ordersByIds _ => List MailOrder
  | .ticketsForOrders _ => List TicketRow
  | .render _ _ _ => RenderedMail
  | .sleep _ => Int
  | .post _ _ _ => Int
  | .response _ _ _ => Except String Response
  | _ => Unit

abbrev drainPorts : Ports where
  Call := Call
  Result := Result

abbrev drainSignature : Signature := drainPorts.signature String

abbrev Drain (α : Type) := Action drainPorts String α

abbrev ask (request : Call) : Drain (Result request) :=
  port (P := drainPorts) request

def statement (request : Call) : Drain (Result request) := do
  ask .fault
  let result ← ask request
  ask .fault
  pure result

section SendRow

variable (deps : Deps)

/-- No date is further from the epoch. -/
def MAX_DATE_MS : ℚ := 8640000000000000

/-- A date has whole milliseconds. -/
def toISOString (time : ℚ) : Drain Int :=
  if MAX_DATE_MS < |time| then throw "Invalid time value"
  else pure (time.num.tdiv time.den)

def plusMs (ms : ℚ) : Drain Int := do
  let now : Int ← ask .now
  toISOString (now + ms)

variable (row : OutboxRow)

def mailFor (order : MailOrder) (tickets : List TicketRow) : Drain (Option OutboundMail) :=
  match row.kind with
  | .buyerConfirmation => do
    let valid := tickets.filter fun t => t.status = .valid
    if valid = [] then pure none
    else do
      let rendered : RenderedMail ← ask (.render .buyerConfirmation order valid)
      pure (some { rendered with sender := deps.ticketMailFrom, recipient := order.buyerEmail })
  | .opsCopy => do
    let rendered : RenderedMail ← ask (.render .opsCopy order [])
    pure (some
      { rendered with
        sender := deps.ticketMailFrom, recipient := deps.ticketOpsEmail.getD "" })

def counted (row : OutboxRow) (error : String) (outcome : Outcome) : Drain OutboxUpdate :=
  let attempts := row.attempts + 1
  if OUTBOX_MAX_ATTEMPTS ≤ attempts then
    pure ⟨row.id, .failed, attempts, row.nextAttemptAt, some error, none, outcome⟩
  else do
    let delay := min OUTBOX_BACKOFF_CAP_MS (OUTBOX_BACKOFF_BASE_MS * 2 ^ (attempts - 1))
    let nextAttemptAt ← plusMs delay
    pure ⟨row.id, .pending, attempts, nextAttemptAt, some error, none, outcome⟩

def later (delayMs : ℚ) (error : String) (outcome : Outcome) :
    Drain OutboxUpdate := do
  let nextAttemptAt ← plusMs delayMs
  pure ⟨row.id, .pending, row.attempts, nextAttemptAt, some error, none, outcome⟩

/-- `mailer.send`, which has its own time limit. -/
def send (lease : Nat) (mail : OutboundMail) (idempotencyKey : String) : Drain MailResult := do
  let due : Int ← ask (.post lease idempotencyKey mail)
  let res : Except String Response ← ask (.response lease idempotencyKey due)
  pure (mailResult res)

def retryDelay (failure : MailFailure) (retryAfterSec : Option ℚ) : ℚ :=
  if failure = .rateLimited then
    max OUTBOX_RATE_LIMIT_RETRY_MS (retryAfterSec.getD 0 * 1000)
  else OUTBOX_TRANSIENT_RETRY_MS

/-- What is made of the answer to a mail, and whether the batch is to stop. -/
def sendOutcome : MailResult → Drain (OutboxUpdate × Bool)
  | .accepted _ => do
    let now : Int ← ask .now
    pure (⟨row.id, .sent, row.attempts, now, none, some now, .sent⟩, false)
  | .refused .rejected error _ => do
    let update ← counted row error .rejected
    pure (update, false)
  | .refused failure error retryAfterSec => do
    let update ← later row (retryDelay failure retryAfterSec) error .notTaken
    pure (update, true)

def sendRow (lease : Nat) (row : OutboxRow) (order : Option MailOrder)
    (tickets : List TicketRow) : Drain (OutboxUpdate × Bool) :=
  match order with
  | none => do
    let update ← counted row "order_missing" .orderMissing
    pure (update, false)
  | some order =>
    if order.status = .refunded then
      pure (⟨row.id, .failed, row.attempts, row.nextAttemptAt, some "order_refunded", none,
        .orderRefunded⟩, false)
    else if order.status ≠ .paid then do
      let update ← later row OUTBOX_HOLD_MS "order_on_hold" .orderOnHold
      pure (update, false)
    else do
      match ← attempt (mailFor deps row order tickets) with
      | .error _ => do
        let update ← counted row "render_failed" .renderFailed
        pure (update, false)
      | .ok none => do
        let update ← counted row "no_valid_tickets" .noValidTickets
        pure (update, false)
      | .ok (some mail) => do
        match ← attempt (send lease mail row.id) with
        | .ok res => sendOutcome row res
        | .error _ => sendOutcome row (.refused .transient "send_threw" none)

end SendRow

section Drain

variable (deps : Deps)

/-- What a drain has in hand once it has claimed rows. -/
structure Batch where
  lease : Nat
  deadline : Int
  orders : List MailOrder
  tickets : List TicketRow

/-- The row goes back as it was claimed, due at once. -/
def unsent (row : OutboxRow) (now : Int) : OutboxUpdate :=
  ⟨row.id, row.status, row.attempts, now, row.lastError, row.sentAt, .unsent⟩

/-- One turn of the loop: the update of the row, and whether the batch is stopped. -/
def turn (batch : Batch) (row : OutboxRow) (stopped : Bool) (sends : Nat) :
    Drain (OutboxUpdate × Bool) := do
  if stopped = false ∧ 0 < sends then
    let due : Int ← ask (.sleep MAIL_MIN_INTERVAL_MS)
    ask (.wake due)
  if stopped then
    let now : Int ← ask .now
    pure (unsent row now, true)
  else
    let now : Int ← ask .now
    if batch.deadline ≤ now then
      let now : Int ← ask .now
      pure (unsent row now, true)
    else
      sendRow deps batch.lease row (batch.orders.find? fun order => order.id = row.orderId)
        (batch.tickets.filter fun ticket => ticket.orderId = row.orderId)

/-- The loop over the rows, which keeps the updates so far when it throws. -/
def sendRows (batch : Batch) : List OutboxRow → Bool → Nat → List OutboxUpdate →
    Drain (List OutboxUpdate × Option String)
  | [], _, _, updates => pure (updates, none)
  | row :: rows, stopped, sends, updates => do
    match ← attempt (turn deps batch row stopped sends) with
    | .ok (update, stop) =>
      sendRows batch rows stop (if stopped then sends else sends + 1) (updates ++ [update])
    | .error thrown => pure (updates, some thrown)

structure DrainResult where
  sent : Nat
  retried : Nat
  failed : Nat

def tally (updates : List OutboxUpdate) : DrainResult where
  sent := updates.countP fun u => u.status = .sent
  retried := updates.countP fun u => u.status = .pending
  failed := updates.countP fun u => u.status = .failed

/-- The rows of a claim are sent, and what became of them is written in any case. -/
def drainClaimed (claimed : Claimed) (deadline : Int) : Drain DrainResult := do
  let orderIds := (claimed.rows.map OutboxRow.orderId).dedup
  let orders : List MailOrder ← statement (.ordersByIds orderIds)
  let tickets : List TicketRow ← statement (.ticketsForOrders orderIds)
  let (updates, thrown) ←
    sendRows deps ⟨claimed.lease, deadline, orders, tickets⟩ claimed.rows false 0 []
  statement (.applyOutboxUpdates claimed.lease updates)
  match thrown with
  | some error => throw error
  | none => pure (tally updates)

structure DrainOptions where
  orderId : Option String
  limit : Option ℚ
  budgetMs : Option Int

def sentTodayJst (now : Int) : Drain Nat :=
  statement (.countOutboxSentSince (dayStart (jstDay now)))

def dailyAllowance (now : Int) : Drain ℚ :=
  match deps.ticketMailDailyCap with
  | none => pure DRAIN_BATCH_MAX
  | some cap => do
    let sent ← sentTodayJst now
    pure (max 0 (cap - sent))

def claimFor (options : DrainOptions) (now leaseUntil : Int) (allowance : ℚ) : OutboxClaim where
  now := now
  leaseUntil := leaseUntil
  kinds := deliverableKinds deps
  limit := min (min (options.limit.getD DRAIN_BATCH_MAX) DRAIN_BATCH_MAX) allowance
  orderId := options.orderId.filter fun orderId => orderId ≠ ""

def drain (options : DrainOptions) : Drain DrainResult := do
  let result : DrainResult := ⟨0, 0, 0⟩
  if deliverableKinds deps = [] then pure result
  else
    let now : Int ← ask .now
    let deadline := now + options.budgetMs.getD DRAIN_BUDGET_MS
    let allowance ← dailyAllowance deps now
    if allowance = 0 then pure result
    else
      let leaseUntil ← plusMs OUTBOX_LEASE_MS
      let claimed : Claimed ←
        statement (.claimOutbox (claimFor deps options now leaseUntil allowance))
      if claimed.rows = [] then pure result
      else drainClaimed deps claimed deadline

end Drain

section System

inductive Operation where
  | drain (options : DrainOptions)
  | passTime (time : Int)

variable (deps : Deps)

def Operation.action : Operation → Drain Unit
  | .drain options => do
    let _ ← LpDelivery.drain deps options
    pure ()
  | .passTime time => ask (.advance time)

/-- What the callers of `drain` see to. -/
def Operation.startable : Operation → Prop
  | .drain options =>
    (∀ limit, options.limit = some limit → 0 < limit) ∧
      options.budgetMs.getD DRAIN_BUDGET_MS ≤ DRAIN_BUDGET_MS
  | .passTime _ => True

def executed {α : Type} (outcome : α × World) : Option (Except String α × World) :=
  some (.ok outcome.1, outcome.2)

def drainMachine : Machine drainSignature World where
  exec
    | .fault, _ => none
    | .now, world => executed (world.clock, world)
    | .countOutboxSentSince since, world => executed (world.countOutboxSentSince since, world)
    | .claimOutbox claim, world => some (world.claimOutbox claim)
    | .ordersByIds _, _ => none
    | .ticketsForOrders _, _ => none
    | .render _ _ _, _ => none
    | .sleep ms, world => executed (world.clock + ms, world)
    | .wake _, world => executed ((), world)
    | .post _ _ _, world => executed (world.clock + MAIL_TIMEOUT_MS, world)
    | .response _ _ _, _ => none
    | .applyOutboxUpdates lease updates, world =>
      executed ((), world.applyOutboxUpdates lease updates)
    | .advance time, world => executed ((), { world with clock := max world.clock time })
  observe _ _ world := world

/-- Mails are put into the outbox. -/
def Outside (before after : World) : Prop :=
  ∃ id orderId kind, after = before.issueMail id orderId kind

/-- Any number of drains, beside which time passes. -/
def drains : System drainSignature World Operation where
  toMachine := drainMachine
  program op := (op.action deps).run >>= fun _ => pure ()
  startable _ op := op.startable
  environment := Outside

theorem outbox_cases {request : Call} {answer : Except String (Result request)}
    {world moved : World} (answers : drainMachine.Answers request world answer moved) :
    moved.outbox = world.outbox ∨ (∃ claim, moved = world.leaseRows claim claim.limit.num) ∨
        ∃ lease updates, request = .applyOutboxUpdates lease updates ∧
          moved = world.applyOutboxUpdates lease updates := by
  cases request with
  | claimOutbox claim =>
    have isClaim : world.claimOutbox claim = (answer, moved) := answers
    cases answer with
    | ok claimed => exact .inr (.inl ⟨claim, (claimOutbox_ok isClaim).2.1⟩)
    | error thrown => exact .inl (congrArg World.outbox (claimOutbox_error isClaim))
  | applyOutboxUpdates lease updates =>
    cases answers
    exact .inr (.inr ⟨lease, updates, rfl, rfl⟩)
  | now | countOutboxSentSince | sleep | wake | post =>
    exact .inl (congrArg World.outbox (Prod.mk.inj answers).2.symm)
  | advance =>
    cases answers
    exact .inl rfl
  | _ => exact .inl (congrArg World.outbox answers)

end System

end DubEcosystem.LpDelivery
