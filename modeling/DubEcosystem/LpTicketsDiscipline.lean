import DubEcosystem.LpTicketsSteps

/-!
# LP tickets: the discipline of the shop

Every operation keeps to one set of preconditions: what it may assume when it
issues a call, however the other operations moved the tables in between.  What
any of them may do to the tables is `Evolves`: orders keep what they were
ordered as, and never become open again once they left `pending` and `expired`.
-/

namespace DubEcosystem.LpTickets

open Interleaving List

/-- A session payload that pays an order of this amount: of the mode of the
key, paid, in yen, over the whole amount. -/
structure IsPayment (deps : AppDeps) (payload : CheckoutSession) (amountJpy : Nat) : Prop where
  livemode : ∃ stripe, deps.stripe = some stripe ∧
    payload.livemode = some stripe.livemode
  paid : payload.paymentStatus = some "paid"
  currency : payload.currency = some "jpy"
  amount : payload.amountTotal = some (amountJpy : Int)

/-- `current` is `row` later on. -/
structure Continues (row current : TicketOrderRow) : Prop where
  id : current.id = row.id
  items : current.items = row.items
  quantity : current.quantity = row.quantity
  amountJpy : current.amountJpy = row.amountJpy
  createdAt : current.createdAt = row.createdAt
  couponId : current.couponId = row.couponId
  closed : row.isOpen = false → current.isOpen = false

theorem Continues.refl (row : TicketOrderRow) : Continues row row :=
  ⟨rfl, rfl, rfl, rfl, rfl, rfl, fun closed => closed⟩

theorem Continues.trans {first second third : TicketOrderRow}
    (left : Continues first second) (right : Continues second third) :
    Continues first third :=
  ⟨right.id.trans left.id, right.items.trans left.items,
    right.quantity.trans left.quantity, right.amountJpy.trans left.amountJpy,
    right.createdAt.trans left.createdAt, right.couponId.trans left.couponId,
    fun closed => right.closed (left.closed closed)⟩

/-- How the tables move, whoever moves them. -/
structure Evolves (before after : World) : Prop where
  clock : before.clock ≤ after.clock
  history : before.history <:+ after.history
  orders : ∀ row ∈ before.orders, ∃ current ∈ after.orders, Continues row current
  ticketTypes : ∀ type ∈ before.ticketTypes, KeepsType type after

theorem Evolves.refl (world : World) : Evolves world world where
  clock := le_refl _
  history := suffix_refl _
  orders row member := ⟨row, member, .refl row⟩
  ticketTypes type member := ⟨type, member, rfl, .inl rfl⟩

theorem Evolves.trans {first second third : World}
    (left : Evolves first second) (right : Evolves second third) :
    Evolves first third where
  clock := left.clock.trans right.clock
  history := left.history.trans right.history
  orders row member := by
    obtain ⟨middle, middleMem, toMiddle⟩ := left.orders row member
    obtain ⟨last, lastMem, toLast⟩ := right.orders middle middleMem
    exact ⟨last, lastMem, toMiddle.trans toLast⟩
  ticketTypes type member := by
    obtain ⟨middle, middleMem, middleId, middleKeeps⟩ :=
      left.ticketTypes type member
    obtain ⟨last, lastMem, lastId, lastKeeps⟩ :=
      right.ticketTypes middle middleMem
    refine ⟨last, lastMem, lastId.trans middleId, ?_⟩
    rcases middleKeeps with middleSame | changed
    · rcases lastKeeps with lastSame | changed
      · exact .inl (lastSame.trans middleSame)
      · exact .inr (middleId ▸ changed)
    · exact .inr (right.history.subset changed)

def Known (world : World) (order : TicketOrderRow) : Prop :=
  ∃ row ∈ world.orders, Continues order row

variable {world : World} {order : TicketOrderRow}

theorem Known.of_mem (member : order ∈ world.orders) :
    Known world order :=
  ⟨order, member, .refl order⟩

theorem Known.evolve {later : World} (known : Known world order) (evolves : Evolves world later) :
    Known later order := by
  obtain ⟨row, member, continues⟩ := known
  obtain ⟨current, currentMem, further⟩ := evolves.orders row member
  exact ⟨current, currentMem, continues.trans further⟩

/-- What every order in the table satisfies. -/
structure OrderInv (row : TicketOrderRow) : Prop where
  distinct : (row.items.map LpTicketOrderItem.ticketTypeId).Nodup
  /-- A payment intent is only known once the order has settled. -/
  intent : row.paymentIntentId ≠ none → row.isOpen = false

def ShopInv (world : World) : Prop :=
  ∀ row ∈ world.orders, OrderInv row

/-- The preconditions of inserting an order. -/
structure Insertable (world : World) (row : TicketOrderRow)
    (capacities : Capacities) (pendingSince : Int) : Prop where
  distinct : (row.items.map LpTicketOrderItem.ticketTypeId).Nodup
  noIntent : row.paymentIntentId = none
  noReview : row.reviewReason = none
  status : row.status = .pending ∨
    (row.status = .paid ∧ row.amountJpy = 0 ∧ row.couponId ≠ none)
  coupon : row.couponId ≠ none → row.status = .paid ∧ row.amountJpy = 0
  quantity : row.quantity = orderQuantity row.items
  since : pendingSince ≤ world.clock - pendingHoldMs
  capacities : ∀ item ∈ row.items, ∃ type ∈ world.ticketTypes,
    type.id = item.ticketTypeId ∧ (capacities.get item.ticketTypeId = type.capacity ∨
        .capacityChanged item.ticketTypeId ∈ world.history)

/-- The order is in the table and has left `pending` and `expired`. -/
def Closed (world : World) (id : String) : Prop :=
  ∃ row ∈ world.orders, row.id = id ∧ row.isOpen = false

def SettledBy (deps : AppDeps) (world : World) (id : String) (payload : CheckoutSession) : Prop :=
  ∃ row ∈ world.orders, row.id = id ∧ (IsPayment deps payload row.amountJpy → row.isOpen = false)

def Precondition (deps : AppDeps) : Call → World → Prop
  | .insertOrderIfAvailable row capacities pendingSince, world =>
    Insertable world row capacities pendingSince
  | .markOrderPaid id settlement cause, world =>
    (∃ row ∈ world.orders, row.id = id ∧ ∃ payload, cause = .session payload ∧
        IsPayment deps payload row.amountJpy) ∧
    ∀ since, settlement.capacitySince = some since → since ≤ world.clock - pendingHoldMs
  | .markOrderNeedsReview id reason _ cause, world =>
    (reason = .dispute ∧ Closed world id ∧ ∃ dispute, cause = .disputeCreated dispute) ∨
    ((reason = .amountMismatch ∨ reason = .currencyMismatch) ∧ ∃ payload, cause = .session payload)
  | .markOrderRefunded _ _ cause, _ =>
    cause = .refund ∨ ∃ dispute, cause = .disputeClosed dispute .lost
  | .approveOrder _ resolvedBy _ onlyReason cause, _ =>
    (resolvedBy = .stripe ∧ onlyReason = some .dispute ∧
      ∃ dispute outcome, cause = .disputeClosed dispute outcome) ∨
    (onlyReason = none ∧ (∃ userId, resolvedBy = .user userId) ∧ ∃ seen, cause = .approval seen ∧
        ¬ (seen.status = .needsReview ∧ seen.reviewReason = some .dispute))
  | .setOrderPaymentIntent id _, world => Closed world id
  | .issueFulfilment orderId tickets outbox, world =>
    ∃ order now, Known world order ∧ order.id = orderId ∧
      tickets = (fulfilmentOf order now).tickets ∧ outbox = (fulfilmentOf order now).outbox
  | .settled id payload, world => SettledBy deps world id payload
  | _, _ => True

variable {id : String}

theorem Closed.evolve {before after : World}
    (closed : Closed before id) (evolves : Evolves before after) :
    Closed after id := by
  obtain ⟨row, member, rfl, isClosed⟩ := closed
  obtain ⟨current, currentMem, continues⟩ := evolves.orders row member
  exact ⟨current, currentMem, continues.id, continues.closed isClosed⟩

variable {deps : AppDeps} {payload : CheckoutSession}

theorem SettledBy.evolve {before after : World} (settled : SettledBy deps before id payload)
    (evolves : Evolves before after) : SettledBy deps after id payload := by
  obtain ⟨row, member, rfl, settles⟩ := settled
  obtain ⟨current, currentMem, continues⟩ := evolves.orders row member
  refine ⟨current, currentMem, continues.id, fun payment => ?_⟩
  rw [continues.amountJpy] at payment
  exact continues.closed (settles payment)

theorem Closed.settledBy (closed : Closed world id) :
    SettledBy deps world id payload := by
  obtain ⟨row, member, named, isClosed⟩ := closed
  exact ⟨row, member, named, fun _ => isClosed⟩

/-- A call changes only how an order stands, and never reopens it. -/
theorem RowMove.continues {request : Call}
    {row current : TicketOrderRow} (move : RowMove world request row current) :
    Continues row current := by
  cases move with
  | kept => exact .refl row
  | settled isOpen => exact ⟨rfl, rfl, rfl, rfl, rfl, rfl, by simp⟩
  | expired isPending =>
    exact ⟨rfl, rfl, rfl, rfl, rfl, rfl, by
      simp [TicketOrderRow.isOpen, isPending]⟩
  | reviewed live | refunded settled | approved inReview reason =>
    exact ⟨rfl, rfl, rfl, rfl, rfl, rfl, by simp [TicketOrderRow.isOpen]⟩
  | labelled stripeSessionId paymentMethod preview | intended unknown =>
    exact ⟨rfl, rfl, rfl, rfl, rfl, rfl, fun closed => closed⟩

theorem RowMove.orderInv {request : Call}
    {row current : TicketOrderRow} (move : RowMove world request row current)
    (inv : OrderInv row) (member : row ∈ world.orders)
    (pre : Precondition deps request world) : OrderInv current := by
  have continues := move.continues
  refine ⟨continues.items ▸ inv.distinct, ?_⟩
  cases move with
  | kept | labelled stripeSessionId paymentMethod preview => exact inv.intent
  | settled isOpen => exact fun _ => by simp
  | expired isPending =>
    intro known
    have closed := inv.intent known
    simp [TicketOrderRow.isOpen, isPending] at closed
  | reviewed live | refunded settled | approved inReview reason =>
    exact fun _ => by simp [TicketOrderRow.isOpen]
  | intended unknown =>
    intro _
    obtain ⟨found, foundMem, named, isClosed⟩ := pre
    obtain rfl := KeyedTable.eq_of_key_eq foundMem member named
    exact isClosed

variable {request : Call} {answer : Answer request} {before after : World}

theorem evolves_of_answers (answers : ticketMachine.Answers request before answer after) :
    Evolves before after := by
  rcases effect_of_answers answers with
    maps | ⟨row, capacities, pendingSince, coupon, rfl, inserts⟩
  · refine ⟨maps.clock.ge, ?_, ?_, fun type => ticketTypes_of_answers answers⟩
    · rw [maps.history]
      exact suffix_append _ _
    · intro row member
      exact ⟨before.rowAfter request row, maps.mem_orders.mpr ⟨row, member, rfl⟩,
        (rowMove before request row).continues⟩
  · refine ⟨inserts.clock.ge, ?_, ?_, fun type => ticketTypes_of_answers answers⟩
    · rw [inserts.history]
      exact suffix_cons _ _
    · intro other member
      exact ⟨other, inserts.mem_orders.mpr (.inl member), .refl other⟩

theorem shopInv_of_answers (inv : ShopInv before) (pre : Precondition deps request before)
    (answers : ticketMachine.Answers request before answer after) :
    ShopInv after := by
  intro row member
  rcases effect_of_answers answers with
    maps | ⟨inserted, capacities, pendingSince, coupon, rfl, inserts⟩
  · obtain ⟨old, oldMem, rfl⟩ := maps.mem_orders.mp member
    exact (rowMove before request old).orderInv (inv old oldMem) oldMem pre
  · rcases inserts.mem_orders.mp member with old | rfl
    · exact inv row old
    · exact ⟨pre.distinct, fun known => (known pre.noIntent).elim⟩

def shopDiscipline (deps : AppDeps) : Discipline (ticketShop deps) :=
  Discipline.uniform (ticketShop deps) ShopInv
    (fun _ request world => Precondition deps request world) Evolves
    Evolves.refl Evolves.trans
    (fun inv pre answers =>
      ⟨shopInv_of_answers inv pre answers, evolves_of_answers answers⟩)
    (by
      rintro before after inv ⟨clock, later, rfl⟩
      exact ⟨inv, later, suffix_refl _, fun row member => ⟨row, member, .refl row⟩,
        fun type member => ⟨type, member, rfl, .inl rfl⟩⟩)

end DubEcosystem.LpTickets
