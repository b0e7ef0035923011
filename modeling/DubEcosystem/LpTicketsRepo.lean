import DubEcosystem.Interleaving
import DubEcosystem.KeyedTable
import DubEcosystem.LpTicketsTypes

/-!
# LP tickets: the repository

Each method of `LpTicketRepo` is one atomic call: D1 runs every statement and
every batch on a single writer.  Reading the clock, minting an id and asking
Stripe are calls too.

Beside the tables the world keeps a history of what was processed, which no
call reads.  The `cause` that four of the methods carry goes into that history
only.
-/

namespace DubEcosystem.LpTickets

open Interleaving

inductive DisputeOutcome where
  | lost
  | won
  | warningClosed
  deriving DecidableEq

/-- Why an order is moved: a session payload, a dispute event, a full refund, or
a person who had `seen` the order. -/
inductive Cause where
  | session (payload : CheckoutSession)
  | disputeCreated (dispute : String)
  | disputeClosed (dispute : String) (outcome : DisputeOutcome)
  | refund
  | approval (seen : TicketOrderRow)
  deriving DecidableEq

/-- What happened: an order was inserted under a coupon, a cause was processed
for an order and `moved` it or not, `settle` returned, a type's capacity was
changed. -/
inductive Event where
  | ordered (orderId : String) (coupon : Option TicketCouponRow)
  | processed (orderId : String) (cause : Cause) (moved : Bool)
  | settled (orderId : String) (payload : CheckoutSession)
  | capacityChanged (ticketTypeId : String)
  deriving DecidableEq

/-- `UNIQUE (order_id, kind)`. -/
abbrev OutboxTable := KeyedTable fun row : OutboxRow => (row.orderId, row.kind)

/-- `INSERT OR IGNORE`, under the primary key as well. -/
def insertMail (table : OutboxTable) (row : OutboxRow) : OutboxTable :=
  if table.rows.any fun other => other.id = row.id then table
  else table.insertOrIgnore row

/-- The tables of the shop, the clock, and what happened so far, the latest
first. -/
structure World where
  ticketTypes : KeyedTable TicketTypeRow.id
  coupons : KeyedTable TicketCouponRow.id
  orders : KeyedTable TicketOrderRow.id
  tickets : KeyedTable TicketRow.id
  outbox : OutboxTable
  enabled : Bool
  clock : Int
  history : List Event

inductive HoldOutcome where
  | ok
  | soldOut (ticketTypeId : String)
  | couponUsedUp
  /-- The id is taken, so the batch throws. -/
  | idTaken

inductive PaidOutcome where
  | paid
  | needsReview
  deriving DecidableEq

/-- Capacities by type id, as `checkout` read them. -/
abbrev Capacities := List (String × Option Nat)

def Capacities.get (capacities : Capacities) (ticketTypeId : String) :
    Option Nat :=
  (capacities.lookup ticketTypeId).join

namespace World

variable (world : World)

/-- Seats of one type held by the orders that `counts` admits. -/
def heldBy (ticketTypeId : String) (pendingSince : Int) (counts : TicketOrderRow → Bool) : Nat :=
  world.orders.total fun order =>
    if counts order && isHeld order pendingSince then order.seats ticketTypeId
    else 0

def held (ticketTypeId : String) (pendingSince : Int) : Nat :=
  world.heldBy ticketTypeId pendingSince fun _ => true

def usedBy (couponId : String) (pendingSince : Int) : Nat :=
  world.orders.total fun order =>
    if order.couponId = some couponId ∧ isHeld order pendingSince then
      order.quantity
    else 0

variable (row : TicketOrderRow)

def couponFits (coupon : TicketCouponRow) (pendingSince : Int) : Bool :=
  coupon.active ∧ row.items.length = 1 ∧ row.items.head?.map LpTicketOrderItem.ticketTypeId =
      some coupon.ticketTypeId ∧
    (coupon.expiresAt.all fun expiry => row.createdAt < expiry) ∧
    world.usedBy coupon.id pendingSince + row.quantity ≤ coupon.maxUses

/-- The first line that no longer fits its type's capacity. -/
def short? (capacities : Capacities) (pendingSince : Int) : Option LpTicketOrderItem :=
  row.items.find? fun item =>
    (capacities.get item.ticketTypeId).any fun capacity =>
      capacity < world.held item.ticketTypeId pendingSince + item.quantity

/-- The coupon of the order, when it names one that admits it; the outer `none`
refuses the order. -/
def admitOrder (pendingSince : Int) : Option (Option TicketCouponRow) :=
  match row.couponId with
  | none => some none
  | some couponId =>
    match world.coupons.find? couponId with
    | none => none
    | some coupon =>
      if world.couponFits row coupon pendingSince then some (some coupon)
      else none

def insertOrderIfAvailable (capacities : Capacities) (pendingSince : Int) : HoldOutcome × World :=
  match world.orders.insert? row with
  | none => (.idTaken, world)
  | some inserted =>
    match world.admitOrder row pendingSince with
    | none => (.couponUsedUp, world)
    | some coupon =>
      match world.short? row capacities pendingSince with
      | some item => (.soldOut item.ticketTypeId, world)
      | none =>
        (.ok, { world with
          orders := inserted
          history := .ordered row.id coupon :: world.history })

variable (id : String)

/-- `UPDATE lp_ticket_orders SET change WHERE id = id AND guard`; whether a row
changed. -/
def transition (guard : TicketOrderRow → Bool) (change : TicketOrderRow → TicketOrderRow)
    (keepsId : ∀ row, (change row).id = row.id) : Bool × World :=
  let selected := fun row : TicketOrderRow => decide (row.id = id) && guard row
  (world.orders.selects selected,
    { world with orders := world.orders.update selected change keepsId })

variable (orderId : String)

def note (cause : Cause) (moved : Bool) : World :=
  { world with history := .processed orderId cause moved :: world.history }

/-- Some line no longer fits its type's capacity next to the other held
orders. -/
def isOver (order : TicketOrderRow) (since : Int) : Bool :=
  order.items.any fun item =>
    ((world.ticketTypes.find? item.ticketTypeId).bind TicketTypeRow.capacity).any fun capacity =>
      capacity < world.heldBy item.ticketTypeId since (fun other => other.id ≠ order.id) +
          item.quantity

/-- The row that `markOrderPaid` leaves. -/
def settledRow (settlement : PaidSettlement) (order : TicketOrderRow) :
    TicketOrderRow :=
  let oversold := settlement.capacitySince.any (world.isOver order)
  { order with
    status := if oversold then .needsReview else .paid
    reviewReason := if oversold then some .oversold else none
    paidAt := some settlement.paidAt
    stripeSessionId := order.stripeSessionId.or settlement.sessionId
    paymentIntentId := order.paymentIntentId.or settlement.paymentIntentId }

def markOrderPaid (settlement : PaidSettlement) (cause : Cause) : Option PaidOutcome × World :=
  let (moved, after) := world.transition id TicketOrderRow.isOpen
    (world.settledRow settlement) fun _ => rfl
  let outcome :=
    if moved then
      (after.orders.find? id).map fun order =>
        if order.status = .needsReview then .needsReview else .paid
    else none
  (outcome, after.note id cause moved)

def markOrderExpired : Bool × World :=
  world.transition id (fun order => order.status = .pending)
    (fun order => { order with status := .expired }) fun _ => rfl

def markOrderNeedsReview (reason : ReviewReason)
    (paymentIntentId : Option String) (cause : Cause) : Bool × World :=
  let (moved, after) := world.transition id
    (fun order => order.isOpen || order.status = .paid)
    (fun order => { order with
      status := .needsReview, reviewReason := some reason
      paymentIntentId := order.paymentIntentId.or paymentIntentId })
    fun _ => rfl
  (moved, after.note id cause moved)

def markOrderRefunded (refundedAt : Int) (cause : Cause) : Bool × World :=
  let (moved, after) := world.transition id
    (fun order => order.status = .paid ∨ order.status = .needsReview)
    (fun order => { order with
      status := .refunded, refundedAt := some refundedAt })
    fun _ => rfl
  let voided := after.tickets.update
    (fun ticket => ticket.orderId = id ∧ ticket.status = .valid)
    (fun ticket => { ticket with status := .void, voidedAt := some refundedAt })
    fun _ => rfl
  (moved, ({ after with tickets := voided } : World).note id cause moved)

def approveOrder (resolvedBy : Resolver) (resolvedAt : Int)
    (onlyReason : Option ReviewReason) (cause : Cause) : Bool × World :=
  let (moved, after) := world.transition id
    (fun order => order.status = .needsReview ∧
      (onlyReason = none ∨ order.reviewReason = onlyReason))
    (fun order => { order with
      status := .paid, paidAt := order.paidAt.or (some resolvedAt)
      resolvedBy := some resolvedBy, resolvedAt := some resolvedAt })
    fun _ => rfl
  (moved, after.note id cause moved)

def expireSessionlessPending (before : Int) : Nat × World :=
  let selected := fun order : TicketOrderRow => decide
    (order.status = .pending ∧ order.stripeSessionId = none ∧ order.createdAt < before)
  ((world.orders.rows.filter selected).length,
    { world with
      orders := world.orders.update selected
        (fun order => { order with status := .expired }) fun _ => rfl })

def setOrderSession (sessionId : String) : World :=
  (world.transition id (fun _ => true)
    (fun order => { order with stripeSessionId := some sessionId })
    fun _ => rfl).2

def setOrderPaymentIntent (paymentIntentId : String) : World :=
  (world.transition id (fun order => order.paymentIntentId = none)
    (fun order => { order with paymentIntentId := some paymentIntentId })
    fun _ => rfl).2

def setOrderPaymentMethod (method : String) : World :=
  (world.transition id (fun _ => true)
    (fun order => { order with paymentMethod := some method }) fun _ => rfl).2

def markOrderPreview : World :=
  (world.transition id (fun _ => true) (fun order => { order with preview := true }) fun _ => rfl).2

def heldPendingByClient (clientKey : String) (pendingSince : Int) : Nat :=
  world.orders.total fun order =>
    if order.clientKey = some clientKey ∧ order.status = .pending ∧
        pendingSince ≤ order.createdAt then order.quantity
    else 0

def listPendingWithSession (since before : Int) (limit : Nat) :
    List TicketOrderRow :=
  (oldestFirst (world.orders.rows.filter fun order =>
    order.status = .pending ∧ order.stripeSessionId.isSome ∧
      since ≤ order.createdAt ∧ order.createdAt < before)).take limit

def listMissingPaymentIntent (livemode : Bool) (limit : Nat) :
    List TicketOrderRow :=
  let pre := if livemode then "cs_live_" else "cs_test_"
  (oldestFirst (world.orders.rows.filter fun order =>
    (order.status = .paid ∨ order.status = .needsReview) ∧
      (order.stripeSessionId.any fun session => session.startsWith pre) ∧
      order.paymentIntentId = none)).take limit

def getOrderBySession (sessionId : String) : Option TicketOrderRow :=
  world.orders.rows.find? fun order => order.stripeSessionId = some sessionId

def getOrderByPaymentIntent (paymentIntentId : String) :
    Option TicketOrderRow :=
  world.orders.rows.find? fun order =>
    order.paymentIntentId = some paymentIntentId

def isPaid : Bool :=
  (world.orders.find? orderId).any fun order => order.status = .paid

def issueFulfilment (tickets : List TicketRow) (outbox : List OutboxRow) : World :=
  if world.isPaid orderId then
    { world with
      tickets := tickets.foldl KeyedTable.insertOrIgnore world.tickets
      outbox := outbox.foldl insertMail world.outbox }
  else world

def lacksFulfilment (order : TicketOrderRow) : Bool :=
  (world.tickets.rows.filter fun ticket => ticket.orderId = order.id).length < order.quantity ∨
    (world.outbox.rows.all fun row =>
      ¬(row.orderId = order.id ∧ row.kind = .buyerConfirmation)) ∨
    (isTestOrder order = false ∧ world.outbox.rows.all fun row =>
      ¬(row.orderId = order.id ∧ row.kind = .opsCopy))

def listUnfulfilled (paidSince : Option Int) (limit : Nat) : List TicketOrderRow :=
  (firstPaidFirst (world.orders.rows.filter fun order =>
    order.status = .paid ∧
      (paidSince.all fun since => order.paidAt.any fun paidAt => since ≤ paidAt) ∧
      world.lacksFulfilment order)).take limit

def insertTicketType (row : TicketTypeRow) : Bool × World :=
  match world.ticketTypes.insert? row with
  | none => (false, world)
  | some inserted => (true, { world with ticketTypes := inserted })

/-- Whether writing `row` over the type of its id changes a capacity. -/
def changesCapacity (row : TicketTypeRow) : Bool :=
  (world.ticketTypes.find? row.id).any fun old => old.capacity ≠ row.capacity

def updateTicketType (row : TicketTypeRow) : World :=
  let changed := if world.changesCapacity row
    then [Event.capacityChanged row.id] else []
  { world with
    ticketTypes := world.ticketTypes.update (fun old => old.id = row.id)
      (fun old => { row with id := old.id, createdAt := old.createdAt })
      fun _ => rfl
    history := changed ++ world.history }

/-- `false` when the code is taken. -/
def insertCoupon (row : TicketCouponRow) : Bool × World :=
  if world.coupons.rows.any fun coupon => coupon.code = row.code then
    (false, world)
  else
    match world.coupons.insert? row with
    | none => (false, world)
    | some inserted => (true, { world with coupons := inserted })

def setCouponActive (active : Bool) (updatedAt : Int) : Bool × World :=
  let selected := fun coupon : TicketCouponRow => decide (coupon.id = id)
  (world.coupons.selects selected,
    { world with
      coupons := world.coupons.update selected
        (fun coupon => { coupon with active := active, updatedAt := updatedAt })
        fun _ => rfl })

end World

/-- The calls of the shop.  `throws` asks whether the next call inside a `try`
throws; `settled` notes that `settle` returned. -/
inductive Call where
  | now
  | throws
  | newOrderId
  | newTicketTypeId
  | newCoupon
  | verifyPreviewToken (token : String)
  | verifyStripeSignature
  | canAcceptOrder (pendingSince : Int)
  | createCheckoutSession (orderId : String)
  | getCheckoutSession (sessionId : String)
  | getTicketSettings
  | setTicketEnabled (enabled : Bool)
  | listTicketTypes
  | getTicketType (id : String)
  | insertTicketType (row : TicketTypeRow)
  | updateTicketType (row : TicketTypeRow)
  | getCouponByCode (code : String)
  | insertCoupon (row : TicketCouponRow)
  | setCouponActive (id : String) (active : Bool) (updatedAt : Int)
  | heldPendingByClient (clientKey : String) (pendingSince : Int)
  | insertOrderIfAvailable (row : TicketOrderRow) (capacities : Capacities) (pendingSince : Int)
  | getOrder (id : String)
  | getOrderBySession (sessionId : String)
  | getOrderByPaymentIntent (paymentIntentId : String)
  | setOrderSession (id sessionId : String)
  | markOrderPaid (id : String) (settlement : PaidSettlement) (cause : Cause)
  | markOrderExpired (id : String)
  | markOrderNeedsReview (id : String) (reason : ReviewReason)
      (paymentIntentId : Option String) (cause : Cause)
  | markOrderRefunded (id : String) (refundedAt : Int) (cause : Cause)
  | approveOrder (id : String) (resolvedBy : Resolver) (resolvedAt : Int)
      (onlyReason : Option ReviewReason) (cause : Cause)
  | setOrderPaymentIntent (id paymentIntentId : String)
  | setOrderPaymentMethod (id method : String)
  | markOrderPreview (id : String)
  | expireSessionlessPending (before : Int)
  | listPendingWithSession (since before : Int) (limit : Nat)
  | listMissingPaymentIntent (livemode : Bool) (limit : Nat)
  | issueFulfilment (orderId : String) (tickets : List TicketRow) (outbox : List OutboxRow)
  | fullSweepDue
  | listUnfulfilled (paidSince : Option Int) (limit : Nat)
  | settled (orderId : String) (payload : CheckoutSession)

abbrev Answer : Call → Type
  | .now => Int
  | .throws => Bool
  | .newOrderId => String
  | .newTicketTypeId => String
  | .newCoupon => String × String
  | .verifyPreviewToken _ => Bool
  | .verifyStripeSignature => Bool
  | .canAcceptOrder _ => Bool
  | .createCheckoutSession _ => Option CheckoutSession
  | .getCheckoutSession _ => Option CheckoutSession
  | .getTicketSettings => Bool
  | .setTicketEnabled _ => Unit
  | .listTicketTypes => List TicketTypeRow
  | .getTicketType _ => Option TicketTypeRow
  | .insertTicketType _ => Bool
  | .updateTicketType _ => Unit
  | .getCouponByCode _ => Option TicketCouponRow
  | .insertCoupon _ => Bool
  | .setCouponActive _ _ _ => Bool
  | .heldPendingByClient _ _ => Nat
  | .insertOrderIfAvailable _ _ _ => HoldOutcome
  | .getOrder _ => Option TicketOrderRow
  | .getOrderBySession _ => Option TicketOrderRow
  | .getOrderByPaymentIntent _ => Option TicketOrderRow
  | .setOrderSession _ _ => Unit
  | .markOrderPaid _ _ _ => Option PaidOutcome
  | .markOrderExpired _ => Bool
  | .markOrderNeedsReview _ _ _ _ => Bool
  | .markOrderRefunded _ _ _ => Bool
  | .approveOrder _ _ _ _ _ => Bool
  | .setOrderPaymentIntent _ _ => Unit
  | .setOrderPaymentMethod _ _ => Unit
  | .markOrderPreview _ => Unit
  | .expireSessionlessPending _ => Nat
  | .listPendingWithSession _ _ _ => List TicketOrderRow
  | .listMissingPaymentIntent _ _ => List TicketOrderRow
  | .issueFulfilment _ _ _ => Unit
  | .fullSweepDue => Bool
  | .listUnfulfilled _ _ => List TicketOrderRow
  | .settled _ _ => Unit

abbrev ticketSignature : Signature where
  Call := Call
  Answer := Answer

def exec : (request : Call) → World → Option (Answer request × World)
  | .now, world => some (world.clock, world)
  | .throws, _ => none
  | .newOrderId, _ => none
  | .newTicketTypeId, _ => none
  | .newCoupon, _ => none
  | .verifyPreviewToken _, _ => none
  | .verifyStripeSignature, _ => none
  | .canAcceptOrder _, _ => none
  | .createCheckoutSession _, _ => none
  | .getCheckoutSession _, _ => none
  | .getTicketSettings, world => some (world.enabled, world)
  | .setTicketEnabled enabled, world =>
    some ((), { world with enabled := enabled })
  | .listTicketTypes, world => some (world.ticketTypes.rows, world)
  | .getTicketType id, world => some (world.ticketTypes.find? id, world)
  | .insertTicketType row, world => some (world.insertTicketType row)
  | .updateTicketType row, world => some ((), world.updateTicketType row)
  | .getCouponByCode code, world =>
    some (world.coupons.rows.find? fun coupon => coupon.code = code, world)
  | .insertCoupon row, world => some (world.insertCoupon row)
  | .setCouponActive id active updatedAt, world =>
    some (world.setCouponActive id active updatedAt)
  | .heldPendingByClient clientKey pendingSince, world =>
    some (world.heldPendingByClient clientKey pendingSince, world)
  | .insertOrderIfAvailable row capacities pendingSince, world =>
    some (world.insertOrderIfAvailable row capacities pendingSince)
  | .getOrder id, world => some (world.orders.find? id, world)
  | .getOrderBySession sessionId, world =>
    some (world.getOrderBySession sessionId, world)
  | .getOrderByPaymentIntent paymentIntentId, world =>
    some (world.getOrderByPaymentIntent paymentIntentId, world)
  | .setOrderSession id sessionId, world =>
    some ((), world.setOrderSession id sessionId)
  | .markOrderPaid id settlement cause, world =>
    some (world.markOrderPaid id settlement cause)
  | .markOrderExpired id, world => some (world.markOrderExpired id)
  | .markOrderNeedsReview id reason paymentIntentId cause, world =>
    some (world.markOrderNeedsReview id reason paymentIntentId cause)
  | .markOrderRefunded id refundedAt cause, world =>
    some (world.markOrderRefunded id refundedAt cause)
  | .approveOrder id resolvedBy resolvedAt onlyReason cause, world =>
    some (world.approveOrder id resolvedBy resolvedAt onlyReason cause)
  | .setOrderPaymentIntent id paymentIntentId, world =>
    some ((), world.setOrderPaymentIntent id paymentIntentId)
  | .setOrderPaymentMethod id method, world =>
    some ((), world.setOrderPaymentMethod id method)
  | .markOrderPreview id, world => some ((), world.markOrderPreview id)
  | .expireSessionlessPending before, world =>
    some (world.expireSessionlessPending before)
  | .listPendingWithSession since before limit, world =>
    some (world.listPendingWithSession since before limit, world)
  | .listMissingPaymentIntent livemode limit, world =>
    some (world.listMissingPaymentIntent livemode limit, world)
  | .issueFulfilment orderId tickets outbox, world =>
    some ((), world.issueFulfilment orderId tickets outbox)
  | .fullSweepDue, _ => none
  | .listUnfulfilled paidSince limit, world =>
    some (world.listUnfulfilled paidSince limit, world)
  | .settled orderId payload, world =>
    some ((), { world with
      history := .settled orderId payload :: world.history })

def ticketMachine : Machine ticketSignature World where
  exec := exec
  observe _ _ world := world

end DubEcosystem.LpTickets
