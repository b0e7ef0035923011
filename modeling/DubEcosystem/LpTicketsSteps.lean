import DubEcosystem.LpTicketsService

/-!
# LP tickets: what one call does

Every repository call inserts one order, or maps each order that is there to
what `rowAfter` says, and prepends `newEvents` to the history.  Invariants are
read off these two functions, without looking at the repository again.
-/

namespace DubEcosystem.LpTickets

open Interleaving KeyedTable

variable (world : World)

def World.rowAfter (request : Call) (row : TicketOrderRow) :
    TicketOrderRow :=
  match request with
  | .markOrderPaid id settlement _ =>
    if row.id = id ∧ row.isOpen then world.settledRow settlement row else row
  | .markOrderExpired id =>
    if row.id = id ∧ row.status = .pending then
      { row with status := .expired }
    else row
  | .markOrderNeedsReview id reason paymentIntentId _ =>
    if row.id = id ∧ (row.isOpen ∨ row.status = .paid) then
      { row with
        status := .needsReview, reviewReason := some reason
        paymentIntentId := row.paymentIntentId.or paymentIntentId }
    else row
  | .markOrderRefunded id refundedAt _ =>
    if row.id = id ∧ (row.status = .paid ∨ row.status = .needsReview) then
      { row with status := .refunded, refundedAt := some refundedAt }
    else row
  | .approveOrder id resolvedBy resolvedAt onlyReason _ =>
    if row.id = id ∧ row.status = .needsReview ∧
        (onlyReason = none ∨ row.reviewReason = onlyReason) then
      { row with
        status := .paid, paidAt := row.paidAt.or (some resolvedAt)
        resolvedBy := some resolvedBy, resolvedAt := some resolvedAt }
    else row
  | .expireSessionlessPending before =>
    if row.status = .pending ∧ row.stripeSessionId = none ∧
        row.createdAt < before then
      { row with status := .expired }
    else row
  | .setOrderSession id sessionId =>
    if row.id = id then { row with stripeSessionId := some sessionId }
    else row
  | .setOrderPaymentIntent id paymentIntentId =>
    if row.id = id ∧ row.paymentIntentId = none then
      { row with paymentIntentId := some paymentIntentId }
    else row
  | .setOrderPaymentMethod id method =>
    if row.id = id then { row with paymentMethod := some method } else row
  | .markOrderPreview id =>
    if row.id = id then { row with preview := true } else row
  | _ => row

/-- The moves of one order, each with the guard it is made under. -/
inductive RowMove (world : World) : Call → TicketOrderRow → TicketOrderRow → Prop
  | kept (request : Call) (row : TicketOrderRow) : RowMove world request row row
  | settled {settlement : PaidSettlement} {cause : Cause} {row : TicketOrderRow}
      (isOpen : row.isOpen = true) :
      RowMove world (.markOrderPaid row.id settlement cause) row (world.settledRow settlement row)
  | expired {request : Call} {row : TicketOrderRow} (isPending : row.status = .pending) :
      RowMove world request row { row with status := .expired }
  | reviewed {reason : ReviewReason} {paymentIntentId : Option String}
      {cause : Cause} {row : TicketOrderRow}
      (live : row.isOpen = true ∨ row.status = .paid) :
      RowMove world (.markOrderNeedsReview row.id reason paymentIntentId cause) row
        { row with
          status := .needsReview, reviewReason := some reason
          paymentIntentId := row.paymentIntentId.or paymentIntentId }
  | refunded {refundedAt : Int} {cause : Cause} {row : TicketOrderRow}
      (settled : row.status = .paid ∨ row.status = .needsReview) :
      RowMove world (.markOrderRefunded row.id refundedAt cause) row
        { row with status := .refunded, refundedAt := some refundedAt }
  | approved {resolvedBy : Resolver} {resolvedAt : Int}
      {onlyReason : Option ReviewReason} {cause : Cause} {row : TicketOrderRow}
      (inReview : row.status = .needsReview)
      (reason : onlyReason = none ∨ row.reviewReason = onlyReason) :
      RowMove world (.approveOrder row.id resolvedBy resolvedAt onlyReason cause) row
        { row with
          status := .paid, paidAt := row.paidAt.or (some resolvedAt)
          resolvedBy := some resolvedBy, resolvedAt := some resolvedAt }
  | labelled (request : Call) (row : TicketOrderRow)
      (stripeSessionId paymentMethod : Option String) (preview : Bool) :
      RowMove world request row
        { row with
          stripeSessionId := stripeSessionId, paymentMethod := paymentMethod
          preview := preview }
  | intended {paymentIntentId : String} {row : TicketOrderRow}
      (unknown : row.paymentIntentId = none) :
      RowMove world (.setOrderPaymentIntent row.id paymentIntentId) row
        { row with paymentIntentId := some paymentIntentId }

theorem rowMove (request : Call) (row : TicketOrderRow) :
    RowMove world request row (world.rowAfter request row) := by
  cases request with
  | markOrderPaid id settlement cause =>
    simp only [World.rowAfter]
    split
    · rename_i moved
      obtain ⟨rfl, isOpen⟩ := moved
      exact .settled isOpen
    · exact .kept _ row
  | markOrderExpired id =>
    simp only [World.rowAfter]
    split
    · rename_i moved
      exact .expired moved.2
    · exact .kept _ row
  | markOrderNeedsReview id reason paymentIntentId cause =>
    simp only [World.rowAfter]
    split
    · rename_i moved
      obtain ⟨rfl, live⟩ := moved
      exact .reviewed live
    · exact .kept _ row
  | markOrderRefunded id refundedAt cause =>
    simp only [World.rowAfter]
    split
    · rename_i moved
      obtain ⟨rfl, settled⟩ := moved
      exact .refunded settled
    · exact .kept _ row
  | approveOrder id resolvedBy resolvedAt onlyReason cause =>
    simp only [World.rowAfter]
    split
    · rename_i moved
      obtain ⟨rfl, inReview, reason⟩ := moved
      exact .approved inReview reason
    · exact .kept _ row
  | expireSessionlessPending before =>
    simp only [World.rowAfter]
    split
    · rename_i moved
      exact .expired moved.1
    · exact .kept _ row
  | setOrderSession id sessionId =>
    simp only [World.rowAfter]
    split
    · exact .labelled _ row (some sessionId) row.paymentMethod row.preview
    · exact .kept _ row
  | setOrderPaymentIntent id paymentIntentId =>
    simp only [World.rowAfter]
    split
    · rename_i moved
      obtain ⟨rfl, unknown⟩ := moved
      exact .intended unknown
    · exact .kept _ row
  | setOrderPaymentMethod id method =>
    simp only [World.rowAfter]
    split
    · exact .labelled _ row row.stripeSessionId (some method) row.preview
    · exact .kept _ row
  | markOrderPreview id =>
    simp only [World.rowAfter]
    split
    · exact .labelled _ row row.stripeSessionId row.paymentMethod true
    · exact .kept _ row
  | _ => exact .kept _ row

theorem World.rowAfter_id (request : Call)
    (row : TicketOrderRow) : (world.rowAfter request row).id = row.id := by
  have move := rowMove world request row
  generalize world.rowAfter request row = current at move
  cases move <;> rfl

@[simp]
theorem World.settledRow_isOpen (settlement : PaidSettlement) (row : TicketOrderRow) :
    (world.settledRow settlement row).isOpen = false := by
  simp only [settledRow, TicketOrderRow.isOpen]
  split <;> simp

def World.finds (world : World) (id : String) (guard : TicketOrderRow → Bool) :
    Bool :=
  world.orders.selects fun row => decide (row.id = id) && guard row

theorem World.finds_eq_true {world : World} {id : String} {guard : TicketOrderRow → Bool} :
    world.finds id guard = true ↔ ∃ row ∈ world.orders, row.id = id ∧ guard row = true := by
  simp [finds]

/-- What a call adds to the history. -/
def World.newEvents : Call → List Event
  | .markOrderPaid id _ cause =>
    [.processed id cause (world.finds id TicketOrderRow.isOpen)]
  | .markOrderNeedsReview id _ _ cause =>
    [.processed id cause (world.finds id fun row => row.isOpen || row.status = .paid)]
  | .markOrderRefunded id _ cause =>
    [.processed id cause (world.finds id fun row =>
      row.status = .paid ∨ row.status = .needsReview)]
  | .approveOrder id _ _ onlyReason cause =>
    [.processed id cause (world.finds id fun row =>
      row.status = .needsReview ∧ (onlyReason = none ∨ row.reviewReason = onlyReason))]
  | .insertOrderIfAvailable row capacities pendingSince =>
    match world.insertOrderIfAvailable row capacities pendingSince with
    | (.ok, _) =>
      [.ordered row.id ((world.admitOrder row pendingSince).getD none)]
    | _ => []
  | .updateTicketType row =>
    if world.changesCapacity row then [.capacityChanged row.id] else []
  | .settled orderId payload => [.settled orderId payload]
  | _ => []

theorem newEvents_short (request : Call) :
    world.newEvents request = [] ∨ ∃ event, world.newEvents request = [event] := by
  unfold World.newEvents
  split
  case h_5 =>
    split
    · exact .inr ⟨_, rfl⟩
    · exact .inl rfl
  case h_6 =>
    split
    · exact .inr ⟨_, rfl⟩
    · exact .inl rfl
  all_goals first | exact .inl rfl | exact .inr ⟨_, rfl⟩

variable {row : TicketOrderRow}

theorem World.newEvents_approval {world : World} {resolvedBy : Resolver} {resolvedAt : Int}
    {cause : Cause} (member : row ∈ world.orders) (inReview : row.status = .needsReview) :
    world.newEvents (.approveOrder row.id resolvedBy resolvedAt none cause) =
      [.processed row.id cause true] := by
  have found : world.finds row.id (fun other =>
      other.status = .needsReview ∧
        ((none : Option ReviewReason) = none ∨ other.reviewReason = none)) =
      true :=
    World.finds_eq_true.mpr ⟨row, member, rfl, by simp [inReview]⟩
  show [Event.processed row.id cause _] = _
  rw [found]

/-- The order was inserted: its id was free, its coupon admitted it, and every
line fitted. -/
structure Inserts (before after : World) (row : TicketOrderRow)
    (capacities : Capacities) (pendingSince : Int)
    (coupon : Option TicketCouponRow) : Prop where
  inserted : before.orders.insert? row = some after.orders
  admitted : before.admitOrder row pendingSince = some coupon
  fits : before.short? row capacities pendingSince = none
  history : after.history = .ordered row.id coupon :: before.history
  clock : after.clock = before.clock
  ticketTypes : after.ticketTypes = before.ticketTypes

structure Maps (before after : World) (request : Call) : Prop where
  orders : after.orders =
    before.orders.map (before.rowAfter request) (before.rowAfter_id request)
  history : after.history = before.newEvents request ++ before.history
  clock : after.clock = before.clock

variable {before after : World}

variable {request : Call}

theorem Maps.mem_orders (maps : Maps before after request) : row ∈ after.orders ↔
      ∃ old ∈ before.orders, before.rowAfter request old = row := by
  rw [maps.orders]
  exact KeyedTable.mem_map

variable {capacities : Capacities} {pendingSince : Int}

theorem Inserts.mem_orders {coupon : Option TicketCouponRow}
    (inserts : Inserts before after row capacities pendingSince coupon) {other : TicketOrderRow} :
    other ∈ after.orders ↔ other ∈ before.orders ∨ other = row :=
  mem_insert? inserts.inserted

/-- A call whose effect leaves the orders, the history and the clock alone. -/
theorem Maps.of_quiet (rowAfter : ∀ row, before.rowAfter request row = row)
    (newEvents : before.newEvents request = []) (orders : after.orders = before.orders)
    (history : after.history = before.history) (clock : after.clock = before.clock) :
    Maps before after request where
  orders := by
    have same : before.rowAfter request = fun row => row := funext rowAfter
    simp [orders, same]
  history := by simp [history, newEvents]
  clock := clock

theorem Maps.of_update {selected : TicketOrderRow → Bool} {change : TicketOrderRow → TicketOrderRow}
    (orders : after.orders.rows = before.orders.rows.map fun row =>
      if selected row then change row else row)
    (pointwise : ∀ row, (if selected row then change row else row) = before.rowAfter request row)
    (history : after.history = before.newEvents request ++ before.history)
    (clock : after.clock = before.clock) : Maps before after request where
  orders := by
    ext1
    rw [orders, funext pointwise]
    rfl
  history := history
  clock := clock

theorem maps_or_inserts {outcome : HoldOutcome}
    (ran : before.insertOrderIfAvailable row capacities pendingSince = (outcome, after)) :
    Maps before after (.insertOrderIfAvailable row capacities pendingSince) ∨
      ∃ coupon, Inserts before after row capacities pendingSince coupon := by
  have refused : ∀ {refusal}, refusal ≠ .ok →
      before.insertOrderIfAvailable row capacities pendingSince = (refusal, before) →
      Maps before before (.insertOrderIfAvailable row capacities pendingSince) := by
    intro refusal notOk ran
    refine .of_quiet (fun _ => rfl) ?_ rfl rfl rfl
    simp only [World.newEvents, ran]
    cases refusal with
    | ok => exact (notOk rfl).elim
    | _ => rfl
  cases inserted : before.orders.insert? row with
  | none =>
    have ended := ran
    simp only [World.insertOrderIfAvailable, inserted] at ended
    cases ended
    exact .inl (refused (by simp) ran)
  | some orders =>
    cases admitted : before.admitOrder row pendingSince with
    | none =>
      have ended := ran
      simp only [World.insertOrderIfAvailable, inserted, admitted] at ended
      cases ended
      exact .inl (refused (by simp) ran)
    | some coupon =>
      cases fits : before.short? row capacities pendingSince with
      | some item =>
        have ended := ran
        simp only [World.insertOrderIfAvailable, inserted, admitted, fits] at ended
        cases ended
        exact .inl (refused (by simp) ran)
      | none =>
        simp only [World.insertOrderIfAvailable, inserted, admitted, fits] at ran
        cases ran
        exact .inr ⟨coupon, inserted, admitted, fits, rfl, rfl, rfl⟩

variable {answer : Answer request}

/-- The effect of a call on the orders, the history and the clock. -/
theorem effect_of_answers (answers : ticketMachine.Answers request before answer after) :
    Maps before after request ∨
    ∃ row capacities pendingSince coupon,
      request = .insertOrderIfAvailable row capacities pendingSince ∧
        Inserts before after row capacities pendingSince coupon := by
  cases request with
  | insertOrderIfAvailable row capacities pendingSince =>
    have ran : before.insertOrderIfAvailable row capacities pendingSince =
      (answer, after) := answers
    rcases maps_or_inserts ran with maps | ⟨coupon, inserts⟩
    · exact .inl maps
    · exact .inr ⟨row, capacities, pendingSince, coupon, rfl, inserts⟩
  | insertTicketType row =>
    left
    have ran : before.insertTicketType row = (answer, after) := answers
    unfold World.insertTicketType at ran
    split at ran <;> cases ran <;> exact .of_quiet (fun _ => rfl) rfl rfl rfl rfl
  | insertCoupon row =>
    left
    have ran : before.insertCoupon row = (answer, after) := answers
    unfold World.insertCoupon at ran
    split at ran
    · cases ran
      exact .of_quiet (fun _ => rfl) rfl rfl rfl rfl
    · split at ran <;> cases ran <;> exact .of_quiet (fun _ => rfl) rfl rfl rfl rfl
  | issueFulfilment orderId tickets outbox =>
    left
    have ran : (some ((), before.issueFulfilment orderId tickets outbox)) =
      some (answer, after) := congrArg some answers
    simp only [World.issueFulfilment] at ran
    split at ran <;> cases ran <;> exact .of_quiet (fun _ => rfl) rfl rfl rfl rfl
  | updateTicketType row | settled orderId payload =>
    left
    cases answers
    exact ⟨(map_self _ _).symm, rfl, rfl⟩
  | markOrderPaid id settlement cause | markOrderExpired id
  | markOrderNeedsReview id reason paymentIntentId cause | markOrderRefunded id refundedAt cause
  | approveOrder id resolvedBy resolvedAt onlyReason cause | expireSessionlessPending before
  | setOrderSession id sessionId | setOrderPaymentIntent id paymentIntentId
  | setOrderPaymentMethod id method | markOrderPreview id =>
    left
    cases answers
    exact .of_update rfl (by simp [World.rowAfter]) rfl rfl
  | _ =>
    left
    cases answers
    exact .of_quiet (fun _ => rfl) rfl rfl rfl rfl

/-- The type of a row stays in the table; its capacity changes only where the
history says so. -/
def KeepsType (type : TicketTypeRow) (after : World) : Prop :=
  ∃ current ∈ after.ticketTypes, current.id = type.id ∧ (current.capacity = type.capacity ∨
      .capacityChanged type.id ∈ after.history)

theorem ticketTypes_of_answers (answers : ticketMachine.Answers request before answer after)
    {type : TicketTypeRow} (member : type ∈ before.ticketTypes) :
    KeepsType type after := by
  have kept : after.ticketTypes = before.ticketTypes → KeepsType type after :=
    fun same => ⟨type, same ▸ member, rfl, .inl rfl⟩
  cases request with
  | insertTicketType row =>
    have ran : before.insertTicketType row = (answer, after) := answers
    unfold World.insertTicketType at ran
    split at ran
    · cases ran
      exact kept rfl
    · rename_i inserted success
      cases ran
      exact ⟨type, (mem_insert? success).mpr (.inl member), rfl, .inl rfl⟩
  | updateTicketType row =>
    cases answers
    by_cases named : type.id = row.id
    · refine ⟨{ row with id := type.id, createdAt := type.createdAt },
        List.mem_map.mpr ⟨type, member, by simp [named]⟩, rfl, ?_⟩
      by_cases same : row.capacity = type.capacity
      · exact .inl same
      · have found : before.ticketTypes.find? row.id = some type :=
          find?_eq_some.mpr ⟨member, named⟩
        have changed : before.changesCapacity row = true := by
          simp [World.changesCapacity, found, Ne.symm same]
        right
        simp [World.updateTicketType, changed, named]
    · exact ⟨type, List.mem_map.mpr ⟨type, member, by simp [named]⟩, rfl, .inl rfl⟩
  | insertCoupon row =>
    have ran : before.insertCoupon row = (answer, after) := answers
    unfold World.insertCoupon at ran
    split at ran
    · cases ran
      exact kept rfl
    · split at ran <;> cases ran <;> exact kept rfl
  | issueFulfilment orderId tickets outbox =>
    have ran : (some ((), before.issueFulfilment orderId tickets outbox)) =
      some (answer, after) := congrArg some answers
    simp only [World.issueFulfilment] at ran
    split at ran <;> cases ran <;> exact kept rfl
  | insertOrderIfAvailable row capacities pendingSince =>
    have ran : before.insertOrderIfAvailable row capacities pendingSince =
      (answer, after) := answers
    simp only [World.insertOrderIfAvailable] at ran
    split at ran
    · cases ran
      exact kept rfl
    · split at ran
      · cases ran
        exact kept rfl
      · split at ran <;> cases ran <;> exact kept rfl
  | _ => cases answers; exact kept rfl

end DubEcosystem.LpTickets
