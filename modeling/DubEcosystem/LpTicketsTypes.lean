import Mathlib.Algebra.GroupWithZero.Nat
import Mathlib.Data.List.Sort
import Mathlib.Data.String.Basic

/-!
# LP tickets: rows and pure rules

The rows of the ticket shop and the rules of `tickets.ts` that read no store.
Instants are milliseconds since the epoch, in place of the ISO 8601 strings that
the code compares.  There is one site, so rows carry no site column; columns
that no rule here reads (buyer, answers, labels) are left out.
-/

namespace DubEcosystem.LpTickets

open List

/-- The order may hold 20 tickets over all its types. -/
def orderQtyMax : Nat := 20

def perClientHeldMax : Nat := 20

def pendingHoldMs : Int := 35 * 60 * 1000

def reconcileMinAgeMs : Int := 5 * 60 * 1000

def reconcileMaxAgeMs : Int := 3 * 24 * 60 * 60 * 1000

def reconcileLimit : Nat := 50

def sweepLimit : Nat := 10

def sweepRecentMs : Int := 60 * 60 * 1000

def sessionEvents : List String :=
  ["checkout.session.completed", "checkout.session.async_payment_succeeded",
    "checkout.session.async_payment_failed", "checkout.session.expired"]

def releaseEvents : List String :=
  ["checkout.session.expired", "checkout.session.async_payment_failed"]

def chargeEvents : List String :=
  ["charge.refunded", "charge.dispute.created", "charge.dispute.closed"]

inductive LpTicketOrderStatus where
  | pending
  | paid
  | expired
  | refunded
  | needsReview
  deriving DecidableEq

inductive ReviewReason where
  | amountMismatch
  | currencyMismatch
  | oversold
  | dispute
  deriving DecidableEq

/-- Who turned `needs_review` into `paid`. -/
inductive Resolver where
  | stripe
  | user (id : String)
  deriving DecidableEq

structure LpTicketOrderItem where
  ticketTypeId : String
  ticketTypeName : String
  dayLabel : String
  unitPriceJpy : Nat
  quantity : Nat
  deriving DecidableEq

structure TicketTypeRow where
  id : String
  name : String
  priceJpy : Nat
  capacity : Option Nat
  dayLabel : String
  maxPerOrder : Nat
  active : Bool
  createdAt : Int
  updatedAt : Int

structure TicketOrderRow where
  id : String
  items : List LpTicketOrderItem
  quantity : Nat
  amountJpy : Nat
  status : LpTicketOrderStatus
  stripeSessionId : Option String
  createdAt : Int
  paidAt : Option Int
  paymentIntentId : Option String
  refundedAt : Option Int
  reviewReason : Option ReviewReason
  resolvedBy : Option Resolver
  resolvedAt : Option Int
  clientKey : Option String
  couponId : Option String
  paymentMethod : Option String
  preview : Bool
  deriving DecidableEq

structure TicketCouponRow where
  id : String
  code : String
  ticketTypeId : String
  maxUses : Nat
  expiresAt : Option Int
  active : Bool
  createdBy : String
  createdAt : Int
  updatedAt : Int
  deriving DecidableEq

inductive TicketStatus where
  | valid
  | void
  deriving DecidableEq

structure TicketRow where
  id : String
  orderId : String
  ticketTypeId : String
  ticketTypeName : String
  dayLabel : String
  status : TicketStatus
  createdAt : Int
  voidedAt : Option Int

inductive OutboxKind where
  | buyerConfirmation
  | opsCopy
  deriving DecidableEq

def OutboxKind.text : OutboxKind → String
  | .buyerConfirmation => "buyer_confirmation"
  | .opsCopy => "ops_copy"

inductive OutboxStatus where
  | pending
  | sent
  | failed
  deriving DecidableEq

/-- A mail that an order owes.  While it is pending, `nextAttemptAt` is when it is due. -/
structure OutboxRow where
  id : String
  orderId : String
  kind : OutboxKind
  status : OutboxStatus
  attempts : Nat
  nextAttemptAt : Int
  lastError : Option String
  sentAt : Option Int
  createdAt : Int

structure CheckoutSession where
  id : String
  url : Option String := none
  status : Option String := none
  paymentStatus : Option String := none
  clientReferenceId : Option String := none
  amountTotal : Option Int := none
  currency : Option String := none
  paymentIntentId : Option String := none
  livemode : Option Bool := none
  paymentMethodType : Option String := none
  deriving DecidableEq

/-- The configured Stripe key; its mode is all that the rules read. -/
structure StripeClient where
  livemode : Bool

/-- The dependencies that a deployment fixes. -/
structure AppDeps where
  stripe : Option StripeClient

structure PaidSettlement where
  paidAt : Int
  sessionId : Option String
  paymentIntentId : Option String
  capacitySince : Option Int := none

inductive SettleOutcome where
  | paid
  | needsReview
  | expired
  | unchanged
  | ignored
  deriving DecidableEq

structure FieldError where
  field : String
  reason : String

/-- The errors an operation answers with. -/
inductive DubError where
  | notFound (kind : String) (id : Option String)
  | validationFailed (issues : List FieldError)
  | paymentNotConfigured
  | rateLimited (retryAfterSec : Nat)
  | soldOut (ticketTypeId : String)
  | couponUsedUp
  | conflict (reason : String)
  | upstreamUnavailable
  | storeFailed

variable (order : TicketOrderRow)

def TicketOrderRow.seats (ticketTypeId : String) : Nat :=
  ((order.items.filter fun item => item.ticketTypeId = ticketTypeId).map
    LpTicketOrderItem.quantity).sum

def isHeld (pendingSince : Int) : Bool :=
  order.status = .paid ∨ order.status = .needsReview ∨
    (order.status = .pending ∧ pendingSince ≤ order.createdAt)

/-- The order still waits for its payment to settle. -/
def TicketOrderRow.isOpen : Bool :=
  order.status = .pending ∨ order.status = .expired

/-- One line of the posted form: the trimmed id (empty when there was none) and
the quantity (`none` when it was no integer). -/
structure RawItem where
  ticketTypeId : String
  quantity : Option Int

structure CheckoutItemInput where
  ticketTypeId : String
  quantity : Nat

/-- The posted form, as far as the rules read it.  `formIssues` are the issues
of the fields that the shop only stores: name, email, origin, answers, and a
coupon code that can not be one. -/
structure CheckoutBody where
  previewToken : Option String := none
  items : List RawItem
  formIssues : List FieldError := []
  clientKey : Option String := none
  couponCode : Option String := none

structure CheckoutInput where
  items : List CheckoutItemInput
  clientKey : Option String
  couponCode : Option String

/-- Validate one more line after the lines accepted so far. -/
def parseItem (accepted : List CheckoutItemInput) (raw : RawItem) :
    Except FieldError CheckoutItemInput :=
  let key := "items." ++ raw.ticketTypeId
  if raw.ticketTypeId = "" then .error ⟨"items", "invalid"⟩
  else if accepted.any fun item => item.ticketTypeId = raw.ticketTypeId then
    .error ⟨key, "duplicate"⟩
  else
    match raw.quantity with
    | none => .error ⟨key, "invalid"⟩
    | some quantity =>
      if quantity < 1 ∨ quantity > orderQtyMax then .error ⟨key, "invalid"⟩
      else .ok ⟨raw.ticketTypeId, quantity.toNat⟩

/-- The loop over the posted lines: accepted lines and issues, in order. -/
def parseItems : List RawItem → List CheckoutItemInput → List FieldError →
    List CheckoutItemInput × List FieldError
  | [], items, bad => (items, bad)
  | raw :: rest, items, bad =>
    match parseItem items raw with
    | .ok item => parseItems rest (items ++ [item]) bad
    | .error issue => parseItems rest items (bad ++ [issue])

variable (body : CheckoutBody)

def requiredIssues : List FieldError :=
  if body.items = [] then [⟨"items", "required"⟩] else []

def checkoutIssues : List FieldError :=
  let parsed := parseItems body.items [] (requiredIssues body)
  let tooMany : List FieldError :=
    if (parsed.1.map CheckoutItemInput.quantity).sum > orderQtyMax
    then [⟨"items", "too_many"⟩] else []
  parsed.2 ++ tooMany ++ body.formIssues

def parseCheckout : Except (List FieldError) CheckoutInput :=
  if checkoutIssues body = [] then
    .ok
      { items := (parseItems body.items [] (requiredIssues body)).1
        clientKey := body.clientKey
        couponCode := body.couponCode }
  else .error (checkoutIssues body)

/-- The lines of a valid form: no type twice, and no empty line. -/
structure ValidItems (items : List CheckoutItemInput) : Prop where
  distinct : (items.map CheckoutItemInput.ticketTypeId).Nodup
  positive : ∀ item ∈ items, 0 < item.quantity

theorem parseItem_eq_ok {accepted : List CheckoutItemInput} {raw : RawItem}
    {item : CheckoutItemInput} (parsed : parseItem accepted raw = .ok item) :
    item.ticketTypeId ∉ accepted.map CheckoutItemInput.ticketTypeId ∧ 0 < item.quantity := by
  unfold parseItem at parsed
  split at parsed
  · cases parsed
  · split at parsed
    · cases parsed
    · rename_i fresh
      split at parsed
      · cases parsed
      · rename_i quantity _
        split at parsed
        · cases parsed
        · rename_i inRange
          cases parsed
          refine ⟨by simpa using fresh, ?_⟩
          have positive : 1 ≤ quantity := by omega
          show 0 < quantity.toNat
          omega

/-- When no line raised an issue, every line was accepted. -/
theorem parseItems_valid {raws : List RawItem} {items : List CheckoutItemInput}
    {bad : List FieldError} {parsed : List CheckoutItemInput}
    (result : parseItems raws items bad = (parsed, [])) (valid : ValidItems items) :
    ValidItems parsed ∧ parsed.length = items.length + raws.length ∧ bad = [] := by
  induction raws generalizing items bad with
  | nil =>
    cases result
    exact ⟨valid, rfl, rfl⟩
  | cons raw rest ih =>
    unfold parseItems at result
    split at result
    · rename_i item accepted
      obtain ⟨fresh, positive⟩ := parseItem_eq_ok accepted
      have extended : ValidItems (items ++ [item]) := by
        constructor
        · rw [map_append, nodup_append]
          refine ⟨valid.distinct, by simp, ?_⟩
          intro first firstMem second secondMem equal
          simp only [map_cons, map_nil, mem_singleton] at secondMem
          exact fresh (secondMem ▸ equal ▸ firstMem)
        · intro other member
          rcases mem_append.mp member with old | new
          · exact valid.positive other old
          · rw [mem_singleton] at new
            exact new ▸ positive
      obtain ⟨parsedValid, length, noIssue⟩ := ih result extended
      refine ⟨parsedValid, ?_, noIssue⟩
      simp only [length_append, length_cons, length_nil] at length ⊢
      omega
    · obtain ⟨-, -, noIssue⟩ := ih result valid
      simp at noIssue

theorem parseCheckout_valid {body : CheckoutBody} {input : CheckoutInput}
    (parsed : parseCheckout body = .ok input) :
    ValidItems input.items ∧ input.items ≠ [] := by
  unfold parseCheckout at parsed
  split at parsed
  · rename_i noIssues
    cases parsed
    have noBad : (parseItems body.items [] (requiredIssues body)).2 = [] := by
      simp only [checkoutIssues, append_eq_nil_iff] at noIssues
      exact noIssues.1.1
    generalize items : (parseItems body.items [] (requiredIssues body)).1 = lines
    obtain ⟨valid, length, noneRequired⟩ :=
      parseItems_valid (Prod.ext items noBad) ⟨by simp, by simp⟩
    refine ⟨valid, ?_⟩
    rintro rfl
    have noLines : body.items = [] := by
      apply length_eq_zero_iff.mp
      simpa using length.symm
    simp [requiredIssues, noLines] at noneRequired
  · cases parsed

def priceItem (types : List TicketTypeRow) (coupon : Option TicketCouponRow)
    (item : CheckoutItemInput) : Except FieldError LpTicketOrderItem :=
  let key := "items." ++ item.ticketTypeId
  match types.find? fun row => row.id = item.ticketTypeId with
  | none => .error ⟨key, "unavailable"⟩
  | some row =>
    if row.active = false then .error ⟨key, "unavailable"⟩
    else if item.quantity > row.maxPerOrder then .error ⟨key, "too_many"⟩
    else if coupon.isNone ∧ row.priceJpy = 0 then
      .error ⟨key, "coupon_required"⟩
    else
      .ok
        { ticketTypeId := row.id, ticketTypeName := row.name
          dayLabel := row.dayLabel
          unitPriceJpy := if coupon.isSome then 0 else row.priceJpy
          quantity := item.quantity }

def priceItems (types : List TicketTypeRow) (coupon : Option TicketCouponRow) :
    List CheckoutItemInput → List LpTicketOrderItem × List FieldError
  | [] => ([], [])
  | item :: rest =>
    let others := priceItems types coupon rest
    match priceItem types coupon item with
    | .ok priced => (priced :: others.1, others.2)
    | .error issue => (others.1, issue :: others.2)

/-- A priced line: its type is for sale, its price is the type's unless a coupon
pays, and only a coupon makes it free. -/
structure Priced (types : List TicketTypeRow) (coupon : Option TicketCouponRow)
    (input : CheckoutItemInput) (item : LpTicketOrderItem) : Prop where
  ticketTypeId : item.ticketTypeId = input.ticketTypeId
  quantity : item.quantity = input.quantity
  known : ∃ row ∈ types, row.id = item.ticketTypeId
  costs : coupon = none → item.unitPriceJpy ≠ 0
  free : coupon ≠ none → item.unitPriceJpy = 0

variable {types : List TicketTypeRow} {coupon : Option TicketCouponRow}

theorem priceItem_eq_ok {input : CheckoutItemInput}
    {item : LpTicketOrderItem} (priced : priceItem types coupon input = .ok item) :
    Priced types coupon input item := by
  unfold priceItem at priced
  split at priced
  · cases priced
  · rename_i row found
    have rowMem := mem_of_find?_eq_some found
    have rowId : row.id = input.ticketTypeId := by
      simpa using find?_some found
    split at priced
    · cases priced
    · split at priced
      · cases priced
      · split at priced
        · cases priced
        · rename_i notFree
          cases priced
          refine ⟨rowId, rfl, ⟨row, rowMem, rfl⟩, ?_, ?_⟩
          · rintro rfl
            simpa using notFree
          · intro given
            simp [Option.isSome_iff_ne_none.mpr given]

theorem priceItems_priced {inputs : List CheckoutItemInput} {items : List LpTicketOrderItem}
    (result : priceItems types coupon inputs = (items, [])) :
    List.Forall₂ (Priced types coupon) inputs items := by
  induction inputs generalizing items with
  | nil =>
    cases result
    exact .nil
  | cons input rest ih =>
    unfold priceItems at result
    split at result
    · rename_i item priced
      obtain ⟨rfl, noIssue⟩ := Prod.mk.injEq .. ▸ result
      exact .cons (priceItem_eq_ok priced) (ih (Prod.ext rfl noIssue))
    · simp at result

/-- The rule behind `usableCoupon`: active, not expired at `now`, and for an
active type. -/
def isUsable (coupon : TicketCouponRow) (types : List TicketTypeRow) (now : Int) : Bool :=
  coupon.active ∧ (coupon.expiresAt.all fun expiry => now < expiry) ∧
    ((types.find? fun row => row.id = coupon.ticketTypeId).any TicketTypeRow.active)

/-- Why a paid payload can not settle the order by itself. -/
def mismatch (session : CheckoutSession) :
    Option ReviewReason :=
  if session.currency ≠ some "jpy" then some .currencyMismatch
  else if session.amountTotal ≠ some (order.amountJpy : Int) then
    some .amountMismatch
  else none

/-- A purchase that proves the flow and charges nobody. -/
def isTestOrder : Bool :=
  order.preview || order.stripeSessionId.any fun session => session.startsWith "cs_test_"

/-- What a paid order is owed. -/
structure Fulfilment where
  tickets : List TicketRow
  outbox : List OutboxRow

def TicketOrderRow.seatLines : List LpTicketOrderItem :=
  order.items.flatMap fun item => List.replicate item.quantity item

/-- The id of the ticket for the seat at `index`. -/
def ticketId (orderId : String) (index : Nat) : String :=
  orderId ++ "-" ++ toString (index + 1)

def outboxId (orderId : String) (kind : OutboxKind) : String :=
  orderId ++ ":" ++ kind.text

def TicketOrderRow.mailKinds : List OutboxKind :=
  if isTestOrder order then [.buyerConfirmation] else [.buyerConfirmation, .opsCopy]

/-- One ticket per seat and the mails the order owes; the ids are derived, so that
re-running yields the same rows. -/
def fulfilmentOf (now : Int) : Fulfilment where
  tickets := order.seatLines.zipIdx.map fun (item, index) =>
    { id := ticketId order.id index, orderId := order.id
      ticketTypeId := item.ticketTypeId, ticketTypeName := item.ticketTypeName
      dayLabel := item.dayLabel, status := .valid, createdAt := now
      voidedAt := none }
  outbox := order.mailKinds.map fun kind =>
    { id := outboxId order.id kind, orderId := order.id, kind, status := .pending
      attempts := 0, nextAttemptAt := now, lastError := none, sentAt := none
      createdAt := now }

variable (orders : List TicketOrderRow)

/-- Oldest first, by `created_at` and then `id`. -/
def oldestFirst : List TicketOrderRow :=
  orders.insertionSort fun first second =>
    first.createdAt < second.createdAt ∨ (first.createdAt = second.createdAt ∧ first.id ≤ second.id)

/-- By `paid_at`, a missing one first, and then `id`. -/
def firstPaidFirst : List TicketOrderRow :=
  orders.insertionSort fun first second =>
    (second.paidAt.any fun paidAt => first.paidAt.all fun earlier => earlier < paidAt) ∨
      (first.paidAt = second.paidAt ∧ first.id ≤ second.id)

end DubEcosystem.LpTickets
