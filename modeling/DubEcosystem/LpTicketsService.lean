import DubEcosystem.LpTicketsRepo

/-!
# LP tickets: the service

The operations of `TicketService` that read or move orders, as programs of
repository calls.  Reads of the clock, the decision whether a payment is late,
and every write are separate calls, in the order of the source.  Sending mail, logs and
the reconcile alarm add and delete no row of the shop and are left out.
-/

namespace DubEcosystem.LpTickets

open Interleaving

abbrev Program (α : Type) := Prog ticketSignature α

abbrev perform (request : Call) : Program (Answer request) :=
  Prog.perform (S := ticketSignature) request

/-- `try program catch {}`. -/
abbrev attempt {α : Type} (program : Program α) : Program (Option α) :=
  Prog.attempt Call.throws (fun thrown : Bool => thrown) program

def pendingSince : Program Int := do
  let now : Int ← perform .now
  pure (now - pendingHoldMs)

def issueTickets : Option TicketOrderRow → Program Unit
  | none => pure ()
  | some order =>
    if order.status ≠ .paid then pure ()
    else do
      let now : Int ← perform .now
      let owed := fulfilmentOf order now
      perform (.issueFulfilment order.id owed.tickets owed.outbox)

variable (orderId : String)

/-- Tickets for a paid order; never fails the payment path. -/
def fulfill : Program Unit := do
  let _ ← attempt do
    let found : Option TicketOrderRow ← perform (.getOrder orderId)
    issueTickets found
  pure ()

/-- Every route that makes an order paid ends here. -/
def onPaid : Program Unit :=
  fulfill orderId

variable (order : TicketOrderRow)

/-- The hold of the order has lapsed: `late` in `settle`. -/
def isLate : Program Bool :=
  if order.status = .expired then pure true
  else do
    let since ← pendingSince
    pure (decide (order.createdAt < since))

/-- `...(late ? { capacitySince: this.pendingSince() } : {})`. -/
def capacitySince (late : Bool) : Program (Option Int) :=
  if late then do
    let since ← pendingSince
    pure (some since)
  else pure none

/-- Display only: a failure never blocks settling the order. -/
def recordPaymentMethod : Option String → Program Unit
  | none => pure ()
  | some method => do
    let _ ← attempt (perform (.setOrderPaymentMethod orderId method))
    pure ()

def afterMarkPaid (method : Option String) : Option PaidOutcome → Program SettleOutcome
  | none => pure .unchanged
  | some .needsReview => do
    recordPaymentMethod orderId method
    pure .needsReview
  | some .paid => do
    recordPaymentMethod orderId method
    onPaid orderId
    pure .paid

/-- The settlement of a matching paid payload. -/
def settlePaid (s : CheckoutSession) :
    Program SettleOutcome := do
  let late ← isLate order
  let paidAt : Int ← perform .now
  let since ← capacitySince late
  let result : Option PaidOutcome ← perform (.markOrderPaid order.id
    { paidAt
      sessionId := if s.id = "" then none else some s.id
      paymentIntentId := s.paymentIntentId
      capacitySince := since }
    (.session s))
  afterMarkPaid order.id s.paymentMethodType result

variable (deps : AppDeps)

/-- The one settlement rule for webhook, confirm and reconcile. -/
def settleSession (order : TicketOrderRow)
    (s : CheckoutSession) (release : Bool) : Program SettleOutcome :=
  match deps.stripe with
  | none => pure .ignored
  | some stripe =>
    if s.livemode ≠ some stripe.livemode then pure .ignored
    else if order.isOpen = false then pure .unchanged
    else if s.paymentStatus = some "paid" then
      match mismatch order s with
      | some reason => do
        let _ ← perform (.markOrderNeedsReview order.id reason
          s.paymentIntentId (.session s))
        pure .needsReview
      | none => settlePaid order s
    else if release || s.status = some "expired" then do
      let moved : Bool ← perform (.markOrderExpired order.id)
      pure (if moved then .expired else .unchanged)
    else pure .unchanged

def settle (order : TicketOrderRow) (s : CheckoutSession)
    (release : Bool) : Program SettleOutcome := do
  let outcome ← settleSession deps order s release
  perform (.settled order.id s)
  pure outcome

def usableCoupon (code : String) (types : List TicketTypeRow) (now : Int) :
    Program (Option TicketCouponRow) := do
  let found : Option TicketCouponRow ← perform (.getCouponByCode code)
  pure (found.filter fun coupon => isUsable coupon types now)

/-- Where the buyer is sent. -/
inductive Redirect where
  | thanks (orderId : String)
  | stripe (url : String)

variable (items : List LpTicketOrderItem)

def orderAmount : Nat :=
  (items.map fun item => item.unitPriceJpy * item.quantity).sum

def orderQuantity : Nat :=
  (items.map LpTicketOrderItem.quantity).sum

variable (id : String)

def checkoutRow (items : List LpTicketOrderItem) (now : Int)
    (clientKey : Option String) (coupon : Option TicketCouponRow)
    (preview : Bool) : TicketOrderRow where
  id
  items
  quantity := orderQuantity items
  amountJpy := orderAmount items
  status := if orderAmount items = 0 then .paid else .pending
  stripeSessionId := none
  createdAt := now
  paidAt := if orderAmount items = 0 then some now else none
  paymentIntentId := none
  refundedAt := none
  reviewReason := none
  resolvedBy := none
  resolvedAt := none
  clientKey
  couponId := coupon.map TicketCouponRow.id
  paymentMethod := none
  preview

/-- `new Map(items.map((i) => [i.ticketTypeId, types.get(...).capacity]))`. -/
def capacitiesOf (types : List TicketTypeRow) (items : List LpTicketOrderItem) :
    Capacities :=
  items.map fun item =>
    (item.ticketTypeId, (types.find? fun row => row.id = item.ticketTypeId).bind
        TicketTypeRow.capacity)

def payable (created : Option CheckoutSession) : Option (String × String) :=
  created.bind fun session => session.url.bind fun url =>
    if session.id = "" ∨ url = "" then none else some (session.id, url)

/-- A buyer who has to pay gets a Stripe session; without one the seats are
released at once. -/
def startPayment (row : TicketOrderRow) :
    Program (Except DubError Redirect) := do
  let created : Option CheckoutSession ← perform (.createCheckoutSession row.id)
  match payable created with
  | none => do
    let _ ← perform (.markOrderExpired row.id)
    pure (.error .upstreamUnavailable)
  | some (sessionId, url) => do
    perform (.setOrderSession row.id sessionId)
    pure (.ok (.stripe url))

def markPreview (row : TicketOrderRow) : Program Unit :=
  if row.preview then do
    let _ ← attempt (perform (.markOrderPreview row.id))
    pure ()
  else pure ()

/-- The last part of a checkout: the order holds its seats. -/
def checkoutHeld (row : TicketOrderRow) :
    Program (Except DubError Redirect) := do
  markPreview row
  if row.amountJpy = 0 then do
    onPaid row.id
    pure (.ok (.thanks row.id))
  else if deps.stripe.isNone then pure (.ok (.thanks row.id))
  else startPayment row

def afterHold (row : TicketOrderRow) : HoldOutcome → Program (Except DubError Redirect)
  | .couponUsedUp => pure (.error .couponUsedUp)
  | .soldOut ticketTypeId => pure (.error (.soldOut ticketTypeId))
  | .idTaken => pure (.error .storeFailed)
  | .ok => checkoutHeld deps row

def holdSeats (clientKey : Option String)
    (types : List TicketTypeRow) (items : List LpTicketOrderItem) (now : Int)
    (coupon : Option TicketCouponRow) (preview : Bool) :
    Program (Except DubError Redirect) := do
  let id : String ← perform .newOrderId
  let row := checkoutRow id items now clientKey coupon preview
  let since ← pendingSince
  let held : HoldOutcome ← perform
    (.insertOrderIfAvailable row (capacitiesOf types items) since)
  afterHold deps row held

/-- Only real buyers wait for the mail to catch up. -/
def acceptsOrder (preview : Bool) : Program Bool :=
  if preview then pure true
  else do
    let since ← pendingSince
    perform (.canAcceptOrder since)

/-- The unpaid seats of one sender stay within the cap. -/
def withinClientHold (clientKey : Option String) (items : List LpTicketOrderItem) : Program Bool :=
  match clientKey with
  | none => pure true
  | some key =>
    if orderAmount items = 0 then pure true
    else do
      let since ← pendingSince
      let held : Nat ← perform (.heldPendingByClient key since)
      pure (decide (held + orderQuantity items ≤ perClientHeldMax))

/-- The middle part of a checkout: price the lines, and turn away what can not
be served. -/
def checkoutPriced (input : CheckoutInput) (types : List TicketTypeRow) (now : Int)
    (coupon : Option TicketCouponRow) (preview : Bool) :
    Program (Except DubError Redirect) :=
  let (items, bad) := priceItems types coupon input.items
  if bad ≠ [] then pure (.error (.validationFailed bad))
  else if orderAmount items ≠ 0 ∧ deps.stripe.isNone then
    pure (.error .paymentNotConfigured)
  else do
    let accepts ← acceptsOrder preview
    if accepts = false then pure (.error (.rateLimited 60))
    else do
      let within ← withinClientHold input.clientKey items
      if within = false then pure (.error (.rateLimited 60))
      else holdSeats deps input.clientKey types items now coupon preview

/-- Sales off: a valid preview token still admits a test purchase. -/
def isPreview (enabled : Bool) : Option String → Program Bool
  | none => pure false
  | some token =>
    if enabled then pure false else perform (.verifyPreviewToken token)

def withCoupon (input : CheckoutInput) (types : List TicketTypeRow) (now : Int) (preview : Bool) :
    Option TicketCouponRow → Program (Except DubError Redirect)
  | none => pure (.error (.validationFailed [⟨"couponCode", "invalid"⟩]))
  | some coupon =>
    if input.items.map CheckoutItemInput.ticketTypeId ≠
        [coupon.ticketTypeId] then
      pure (.error (.validationFailed [⟨"couponCode", "not_applicable"⟩]))
    else checkoutPriced deps input types now (some coupon) preview

def checkoutParsed (input : CheckoutInput) (preview : Bool) :
    Program (Except DubError Redirect) := do
  let types : List TicketTypeRow ← perform .listTicketTypes
  let now : Int ← perform .now
  match input.couponCode with
  | none => checkoutPriced deps input types now none preview
  | some code => do
    let coupon ← usableCoupon code types now
    withCoupon deps input types now preview coupon

def checkout (body : CheckoutBody) :
    Program (Except DubError Redirect) := do
  let enabled : Bool ← perform .getTicketSettings
  let preview ← isPreview enabled body.previewToken
  if enabled = false ∧ preview = false then
    pure (.error (.notFound "lp_tickets" none))
  else
    match parseCheckout body with
    | .error issues => pure (.error (.validationFailed issues))
    | .ok input => checkoutParsed deps input preview

def afterApprove (approved : Bool) : Program (Except DubError TicketOrderRow) :=
  if approved = false then pure (.error (.conflict "not_needs_review"))
  else do
    onPaid id
    let current : Option TicketOrderRow ← perform (.getOrder id)
    pure (current.elim (.error .storeFailed) .ok)

/-- A person resolves needs_review as paid; an open dispute is Stripe's to
decide. -/
def approve (userId id : String) : Program (Except DubError TicketOrderRow) := do
  let found : Option TicketOrderRow ← perform (.getOrder id)
  match found with
  | none => pure (.error (.notFound "lp_ticket_order" (some id)))
  | some order =>
    if order.status = .needsReview ∧ order.reviewReason = some .dispute then
      pure (.error (.conflict "dispute_open"))
    else do
      let now : Int ← perform .now
      let approved : Bool ← perform
        (.approveOrder id (.user userId) now none (.approval order))
      afterApprove id approved

/-- The `try` block of `confirm`. -/
def confirmSession (order : TicketOrderRow)
    (sessionId : String) : Program (Option TicketOrderRow) := do
  let fetched : Option CheckoutSession ← perform (.getCheckoutSession sessionId)
  match fetched with
  | none => pure none
  | some session => do
    let _ ← settle deps order session false
    perform (.getOrder order.id)

def findConfirmed (sessionId orderId : String) : Program (Option TicketOrderRow) :=
  if sessionId ≠ "" then perform (.getOrderBySession sessionId)
  else perform (.getOrder orderId)

/-- The thanks page, by Stripe session or by order id; `none` is an unknown
order. -/
def confirm (sessionId orderId : String) : Program (Except DubError (Option TicketOrderRow)) :=
  if sessionId = "" ∧ orderId = "" then
    pure (.error (.validationFailed [⟨"sessionId", "required"⟩]))
  else do
    let found ← findConfirmed sessionId orderId
    match found with
    | none => pure (.ok none)
    | some order =>
      if order.status = .pending ∧ sessionId ≠ "" ∧ deps.stripe.isSome then do
        let settled ← attempt (confirmSession deps order sessionId)
        pure (.ok (some (settled.join.getD order)))
      else pure (.ok (some order))

def withPaymentMethod (s : CheckoutSession) :
    Program CheckoutSession :=
  if s.paymentMethodType.isSome ∨ deps.stripe.isNone ∨ s.id = "" then pure s
  else do
    let fetched : Option CheckoutSession ← perform (.getCheckoutSession s.id)
    pure (fetched.elim s fun session =>
      { s with paymentMethodType := session.paymentMethodType })

structure ChargeObject where
  id : String
  paymentIntent : Option String
  status : String
  amount : Option Int
  amountRefunded : Int

def disputeClosed (obj : ChargeObject) :
    Program Unit :=
  if obj.status = "lost" then do
    let now : Int ← perform .now
    let _ ← perform (.markOrderRefunded order.id now
      (.disputeClosed obj.id .lost))
    pure ()
  else if obj.status = "won" ∨ obj.status = "warning_closed" then do
    let now : Int ← perform .now
    let approved : Bool ← perform (.approveOrder order.id .stripe now
      (some .dispute)
      (.disputeClosed obj.id (if obj.status = "won" then .won else .warningClosed)))
    if approved then onPaid order.id else pure ()
  else pure ()

def chargeRefunded (obj : ChargeObject) :
    Program Unit :=
  if obj.amount.any fun amount => amount ≤ obj.amountRefunded then do
    let now : Int ← perform .now
    let _ ← perform (.markOrderRefunded order.id now .refund)
    pure ()
  else pure ()

def findCharged (paymentIntent : Option String) : Program (Option TicketOrderRow) :=
  match paymentIntent with
  | none => pure none
  | some intent =>
    if intent = "" then pure none
    else perform (.getOrderByPaymentIntent intent)

def applyCharge (type : String) (obj : ChargeObject) : Program Unit := do
  let found ← findCharged obj.paymentIntent
  match found with
  | none => pure ()
  | some order =>
    if type = "charge.dispute.created" then do
      let _ ← perform (.markOrderNeedsReview order.id .dispute none
        (.disputeCreated obj.id))
      pure ()
    else if type = "charge.dispute.closed" then disputeClosed order obj
    else chargeRefunded order obj

/-- A parsed event: `session` and `charge` are its object read either way. -/
structure WebhookEvent where
  type : String
  livemode : Option Bool
  session : CheckoutSession
  metadataOrderId : Option String
  charge : ChargeObject

def findOrder (orderId : Option String) : Program (Option TicketOrderRow) :=
  match orderId with
  | none => pure none
  | some id => if id = "" then pure none else perform (.getOrder id)

def findBySession (sessionId : String) : Option TicketOrderRow → Program (Option TicketOrderRow)
  | some order => pure (some order)
  | none =>
    if sessionId = "" then pure none
    else perform (.getOrderBySession sessionId)

/-- The session branch of `webhook`. -/
def applySession (event : WebhookEvent) : Program Unit := do
  let byId ← findOrder
    (event.session.clientReferenceId.or event.metadataOrderId)
  let found ← findBySession event.session.id byId
  match found with
  | none => pure ()
  | some order => do
    let session ← (if event.session.paymentStatus = some "paid" then
      withPaymentMethod deps event.session else pure event.session)
    let _ ← settle deps order session (decide (event.type ∈ releaseEvents))
    pure ()

def webhook (event : WebhookEvent) :
    Program (Except DubError Unit) := do
  let verified : Bool ← perform .verifyStripeSignature
  if verified = false then
    pure (.error (.validationFailed [⟨"stripe-signature", "invalid"⟩]))
  else if event.type ∉ sessionEvents ∧ event.type ∉ chargeEvents then
    pure (.ok ())
  else if (deps.stripe.any fun stripe =>
      event.livemode = some stripe.livemode) = false then pure (.ok ())
  else if event.type ∈ chargeEvents then do
    applyCharge event.type event.charge
    pure (.ok ())
  else do
    applySession deps event
    pure (.ok ())

def reconcileOrder (order : TicketOrderRow) : Program Unit := do
  let fetched : Option CheckoutSession ← perform
    (.getCheckoutSession (order.stripeSessionId.getD ""))
  match fetched with
  | none => pure ()
  | some session => do
    let _ ← settle deps order session false
    pure ()

/-- One round of the backfill loop of a reconcile pass. -/
def backfillPaymentIntent (livemode : Bool) (order : TicketOrderRow) :
    Program Unit := do
  let fetched : Option CheckoutSession ← perform
    (.getCheckoutSession (order.stripeSessionId.getD ""))
  match fetched.bind CheckoutSession.paymentIntentId with
  | none => pure ()
  | some intent =>
    if (fetched.bind CheckoutSession.livemode) ≠ some livemode ∨ intent = ""
    then pure ()
    else perform (.setOrderPaymentIntent order.id intent)

/-- A loop in which a failure of one round never aborts the others. -/
def forEachOrder (round : TicketOrderRow → Program Unit) : List TicketOrderRow → Program Unit
  | [] => pure ()
  | order :: rest => do
    let _ ← attempt (round order)
    forEachOrder round rest

/-- The cron pass over pending orders; the summary it logs is left out. -/
def reconcile : Program Unit := do
  let since ← pendingSince
  let _ ← perform (.expireSessionlessPending since)
  match deps.stripe with
  | none => pure ()
  | some stripe => do
    let now : Int ← perform .now
    let rows : List TicketOrderRow ← perform (.listPendingWithSession
      (now - reconcileMaxAgeMs) (now - reconcileMinAgeMs) reconcileLimit)
    forEachOrder (reconcileOrder deps) rows
    let missing : List TicketOrderRow ← perform
      (.listMissingPaymentIntent stripe.livemode reconcileLimit)
    forEachOrder (backfillPaymentIntent stripe.livemode) missing

/-- The first sweep of a day looks at every order, the others at recent ones. -/
def sweptSince (full : Bool) : Program (Option Int) :=
  if full then pure none
  else do
    let now : Int ← perform .now
    pure (some (now - sweepRecentMs))

def fulfillAll : List TicketOrderRow → Program Unit
  | [] => pure ()
  | order :: rest => do
    fulfill order.id
    fulfillAll rest

/-- The delivery half of the cron pass: paid orders that crashed before `fulfill`. -/
def sweep : Program Unit := do
  let full : Bool ← perform .fullSweepDue
  let since ← sweptSince full
  let rows : List TicketOrderRow ← perform (.listUnfulfilled since sweepLimit)
  fulfillAll rows

/-- A validated ticket type, or the part of it that a patch names. -/
structure TicketTypeInput where
  name : Option String := none
  priceJpy : Option Nat := none
  capacity : Option (Option Nat) := none
  dayLabel : Option String := none
  maxPerOrder : Option Nat := none
  active : Option Bool := none

def TicketTypeInput.apply (patch : TicketTypeInput) (row : TicketTypeRow) :
    TicketTypeRow :=
  { row with
    name := patch.name.getD row.name
    priceJpy := patch.priceJpy.getD row.priceJpy
    capacity := patch.capacity.getD row.capacity
    dayLabel := patch.dayLabel.getD row.dayLabel
    maxPerOrder := patch.maxPerOrder.getD row.maxPerOrder
    active := patch.active.getD row.active }

def createType (input : TicketTypeInput) :
    Program (Except DubError TicketTypeRow) := do
  let now : Int ← perform .now
  let id : String ← perform .newTicketTypeId
  let row := input.apply
    { id, name := "", priceJpy := 0, capacity := none, dayLabel := ""
      maxPerOrder := 10, active := true, createdAt := now, updatedAt := now }
  let inserted : Bool ← perform (.insertTicketType row)
  pure (if inserted then .ok row else .error .storeFailed)

def patchType (patch : TicketTypeInput) :
    Program (Except DubError TicketTypeRow) := do
  match ← perform (.getTicketType id) with
  | none => pure (.error (.notFound "lp_ticket_type" (some id)))
  | some current =>
    let now : Int ← perform .now
    let row := { patch.apply current with updatedAt := now }
    perform (.updateTicketType row)
    pure (.ok row)

structure CouponInput where
  ticketTypeId : String
  maxUses : Nat
  expiresAt : Option Int

/-- At most three codes are tried. -/
def tryCouponCodes (userId : String) (input : CouponInput) (now : Int) :
    Nat → Program (Except DubError TicketCouponRow)
  | 0 => pure (.error (.conflict "code_collision"))
  | attempts + 1 => do
    let minted : String × String ← perform .newCoupon
    let row : TicketCouponRow :=
      { id := minted.1, code := minted.2, ticketTypeId := input.ticketTypeId
        maxUses := input.maxUses, expiresAt := input.expiresAt, active := true
        createdBy := userId, createdAt := now, updatedAt := now }
    let inserted : Bool ← perform (.insertCoupon row)
    if inserted then pure (.ok row)
    else tryCouponCodes userId input now attempts

def createCoupon (userId : String) (input : CouponInput) :
    Program (Except DubError TicketCouponRow) := do
  let now : Int ← perform .now
  let type : Option TicketTypeRow ← perform (.getTicketType input.ticketTypeId)
  match type with
  | none => pure (.error (.validationFailed [⟨"ticketTypeId", "unknown"⟩]))
  | some _ => tryCouponCodes userId input now 3

def setCouponActive (active : Bool) :
    Program (Except DubError Unit) := do
  let now : Int ← perform .now
  let changed : Bool ← perform (.setCouponActive id active now)
  pure (if changed then .ok ()
    else .error (.notFound "lp_ticket_coupon" (some id)))

/-- The requests and jobs that run against the shop. -/
inductive Operation where
  | checkout (body : CheckoutBody)
  | approve (userId id : String)
  | confirm (sessionId orderId : String)
  | webhook (event : WebhookEvent)
  | reconcile
  | fulfill (orderId : String)
  | sweep
  | createType (input : TicketTypeInput)
  | patchType (id : String) (patch : TicketTypeInput)
  | createCoupon (userId : String) (input : CouponInput)
  | setCouponActive (id : String) (active : Bool)
  | setEnabled (enabled : Bool)

/-- Run a program for its effects. -/
def discard {α : Type} (program : Program α) : Program Unit := do
  let _ ← program
  pure ()

def Operation.program : Operation → Program Unit
  | .checkout body => discard (LpTickets.checkout deps body)
  | .approve userId id => discard (LpTickets.approve userId id)
  | .confirm sessionId orderId =>
    discard (LpTickets.confirm deps sessionId orderId)
  | .webhook event => discard (LpTickets.webhook deps event)
  | .reconcile => LpTickets.reconcile deps
  | .fulfill orderId => LpTickets.fulfill orderId
  | .sweep => LpTickets.sweep
  | .createType input => discard (LpTickets.createType input)
  | .patchType id patch => discard (LpTickets.patchType id patch)
  | .createCoupon userId input => discard (LpTickets.createCoupon userId input)
  | .setCouponActive id active => discard (LpTickets.setCouponActive id active)
  | .setEnabled enabled => perform (.setTicketEnabled enabled)

/-- Any number of operations over one shop, whose clock does not go back. -/
def ticketShop : System ticketSignature World Operation where
  toMachine := ticketMachine
  program := Operation.program deps
  startable _ _ := True
  environment before after :=
    ∃ clock, before.clock ≤ clock ∧ after = { before with clock := clock }

end DubEcosystem.LpTickets
