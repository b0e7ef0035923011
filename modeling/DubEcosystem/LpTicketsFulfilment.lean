import DubEcosystem.DerivedIds
import DubEcosystem.LpTicketsCapacity

/-!
# LP tickets: tickets follow the order

The ids of tickets and mails are derived from the order, so issuing them again inserts
nothing, and whatever is in the two tables stands for a seat or a mail of its order.
-/

namespace DubEcosystem.LpTickets

open Interleaving List KeyedTable

variable {deps : AppDeps} {world before after : World} {request : Call}
  {order current row : TicketOrderRow} {ticket : TicketRow}

def World.ticketsOf (world : World) (orderId : String) : List TicketRow :=
  world.tickets.rows.filter fun ticket => ticket.orderId = orderId

structure TicketsFollow (world : World) : Prop where
  valid : ∀ ticket ∈ world.tickets, ticket.status = .valid →
    ∃ order ∈ world.orders, order.id = ticket.orderId ∧
      (order.status = .paid ∨ order.status = .needsReview)
  refunded : ∀ order ∈ world.orders, order.status = .refunded →
    ∀ ticket ∈ world.ticketsOf order.id, ticket.status = .void
  quantity : ∀ order ∈ world.orders, (world.ticketsOf order.id).length ≤ order.quantity
  lines : ∀ order ∈ world.orders, ∀ ticket ∈ world.ticketsOf order.id,
    ∃ line ∈ order.items, line.ticketTypeId = ticket.ticketTypeId
  perLine : ∀ order ∈ world.orders, ∀ line ∈ order.items,
    ((world.ticketsOf order.id).filter fun ticket =>
      ticket.ticketTypeId = line.ticketTypeId).length ≤ line.quantity
  mails : ∀ order ∈ world.orders, ∀ kind, (world.outbox.rows.filter fun mail =>
    mail.orderId = order.id ∧ mail.kind = kind).length ≤ 1

/-- The order has one ticket for each seat, under the derived ids, and the buyer's mail. -/
structure World.IsFulfilled (world : World) (order : TicketOrderRow) : Prop where
  tickets : ((world.ticketsOf order.id).map TicketRow.id).Perm
    ((List.range order.quantity).map (ticketId order.id))
  mail : ∃ mail ∈ world.outbox, mail.orderId = order.id ∧ mail.kind = .buyerConfirmation

/-- The step of a `fulfill` that completes it. -/
inductive Fulfils (orderId : String) :
    Config ticketSignature World Operation → Config ticketSignature World Operation → Prop
  | issue {world before after op tickets outbox next} : Fulfils orderId
        ⟨world, before ++ (op, .call (.issueFulfilment orderId tickets outbox) next) :: after⟩
        ⟨world.issueFulfilment orderId tickets outbox, before ++ (op, next ()) :: after⟩

/-- Tickets follow their order in every state; a refunded order stays refunded; and once a
`fulfill` has completed for a paid order, the order stays fulfilled. -/
def TicketsFollowOrders (deps : AppDeps) (start : World) : Prop :=
  ∀ config, (ticketShop deps).Reachable start config → TicketsFollow config.world ∧
      ∀ order ∈ config.world.orders, (order.status = .refunded → ∀ later,
          (ticketShop deps).RunWhere anyCall config later →
            ∃ current ∈ later.world.orders, current.id = order.id ∧ current.status = .refunded) ∧
        (order.status = .paid → ∀ next, Fulfils order.id config next → ∀ later,
          (ticketShop deps).RunWhere anyCall next later → later.world.IsFulfilled order)

theorem ticketId_inj {first second : String} {m n : Nat}
    (same : ticketId first m = ticketId second n) : first = second ∧ m = n := by
  obtain ⟨sameOrder, sameNumber⟩ := DerivedIds.numbered_inj same
  exact ⟨sameOrder, by omega⟩

theorem outboxId_inj {first second : String} {kind other : OutboxKind}
    (same : outboxId first kind = outboxId second other) :
    first = second ∧ kind = other := by
  have noColon : ∀ kind : OutboxKind, ':' ∉ kind.text.toList := by
    intro kind
    cases kind <;> decide
  obtain ⟨sameOrder, sameText⟩ :=
    DerivedIds.separated_inj (noColon kind) (noColon other) same
  refine ⟨sameOrder, ?_⟩
  cases kind <;> cases other
  · rfl
  · exact absurd sameText (by decide)
  · exact absurd sameText (by decide)
  · rfl

theorem seatLines_length (order : TicketOrderRow) :
    order.seatLines.length = orderQuantity order.items := by
  unfold TicketOrderRow.seatLines orderQuantity
  induction order.items with
  | nil => rfl
  | cons line lines ih => simp [ih]

theorem seatLines_countP (order : TicketOrderRow) (ticketTypeId : String) :
    order.seatLines.countP (fun line => line.ticketTypeId = ticketTypeId) =
      order.seats ticketTypeId := by
  unfold TicketOrderRow.seatLines TicketOrderRow.seats
  induction order.items with
  | nil => rfl
  | cons line lines ih =>
    rw [flatMap_cons, countP_append, ih, countP_replicate]
    by_cases named : line.ticketTypeId = ticketTypeId
    · simp [named]
    · simp [named]

theorem mem_items_of_seatLines {line : LpTicketOrderItem}
    (member : line ∈ order.seatLines) : line ∈ order.items := by
  obtain ⟨item, itemMem, repeated⟩ := mem_flatMap.mp member
  exact eq_of_mem_replicate repeated ▸ itemMem

def IsTicketOf (order : TicketOrderRow) (ticket : TicketRow) : Prop :=
  ticket.orderId = order.id ∧ ∃ index line, order.seatLines[index]? = some line ∧
    ticket.id = ticketId order.id index ∧ ticket.ticketTypeId = line.ticketTypeId

variable {now : Int}

theorem isTicketOf_of_fulfilmentOf (member : ticket ∈ (fulfilmentOf order now).tickets) :
    IsTicketOf order ticket ∧ ticket.status = .valid := by
  obtain ⟨⟨line, index⟩, seat, rfl⟩ := List.mem_map.mp member
  exact ⟨⟨rfl, index, line, mem_zipIdx_iff_getElem?.mp seat, rfl, rfl⟩, rfl⟩

theorem IsTicketOf.continue (isTicket : IsTicketOf order ticket)
    (continues : Continues order current) : IsTicketOf current ticket := by
  have sameLines : current.seatLines = order.seatLines := by
    unfold TicketOrderRow.seatLines
    rw [continues.items]
  unfold IsTicketOf
  rw [continues.id, sameLines]
  exact isTicket

/-- Every seat has its ticket among those that are issued. -/
theorem exists_ticket_of_fulfilmentOf {index : Nat} (inRange : index < order.seatLines.length) :
    ∃ ticket ∈ (fulfilmentOf order now).tickets, ticket.id = ticketId order.id index := by
  refine ⟨_, List.mem_map.mpr ⟨(order.seatLines[index], index), ?_, rfl⟩, rfl⟩
  exact mem_zipIdx_iff_getElem?.mpr (getElem?_eq_getElem inRange)

theorem exists_mail_of_fulfilmentOf (order : TicketOrderRow) (now : Int) :
    ∃ mail ∈ (fulfilmentOf order now).outbox,
      mail.orderId = order.id ∧ mail.kind = .buyerConfirmation := by
  refine ⟨_, List.mem_map.mpr ⟨.buyerConfirmation, ?_, rfl⟩, rfl, rfl⟩
  unfold TicketOrderRow.mailKinds
  split <;> simp

def OutboxRow.IsDerived (mail : OutboxRow) : Prop :=
  mail.id = outboxId mail.orderId mail.kind

theorem isDerived_of_fulfilmentOf {mail : OutboxRow}
    (member : mail ∈ (fulfilmentOf order now).outbox) : mail.IsDerived := by
  obtain ⟨kind, -, rfl⟩ := List.mem_map.mp member
  rfl

variable {table : OutboxTable} {mail other : OutboxRow}

theorem mem_of_mem_insertMail (member : other ∈ insertMail table mail) :
    other ∈ table ∨ other = mail := by
  unfold insertMail at member
  split at member
  · exact .inl member
  · exact (mem_insertOrIgnore.mp member).imp_right And.left

theorem mem_insertMail_of_mem (member : other ∈ table) : other ∈ insertMail table mail := by
  unfold insertMail
  split
  · exact member
  · exact mem_insertOrIgnore.mpr (.inl member)

theorem exists_mem_insertMail (derived : ∀ other ∈ table, OutboxRow.IsDerived other)
    (isDerived : mail.IsDerived) :
    ∃ found ∈ insertMail table mail, found.orderId = mail.orderId ∧ found.kind = mail.kind := by
  unfold insertMail
  split
  · rename_i taken
    obtain ⟨found, member, sameId⟩ := any_eq_true.mp taken
    have same : outboxId found.orderId found.kind = outboxId mail.orderId mail.kind := by
      rw [← derived found member, ← isDerived]
      exact of_decide_eq_true sameId
    exact ⟨found, member, outboxId_inj same⟩
  · obtain ⟨found, member, same⟩ :=
      exists_mem_insertOrIgnore (@Or.inr (mail ∈ table) (mail = mail) rfl)
    exact ⟨found, member, Prod.mk.inj same⟩

variable {mails : List OutboxRow}

theorem mem_of_mem_foldl_insertMail
    (member : other ∈ mails.foldl insertMail table) : other ∈ table ∨ other ∈ mails := by
  induction mails generalizing table with
  | nil => exact .inl member
  | cons head tail ih =>
    rcases ih member with inTable | inTail
    · rcases mem_of_mem_insertMail inTable with old | rfl
      · exact .inl old
      · exact .inr (.head _)
    · exact .inr (mem_cons_of_mem head inTail)

theorem mem_foldl_insertMail_of_mem (member : other ∈ table) :
    other ∈ mails.foldl insertMail table := by
  induction mails generalizing table with
  | nil => exact member
  | cons head tail ih => exact ih (mem_insertMail_of_mem member)

theorem exists_mem_foldl_insertMail (derived : ∀ other ∈ table, OutboxRow.IsDerived other)
    (areDerived : ∀ mail ∈ mails, OutboxRow.IsDerived mail) (listed : mail ∈ mails) :
    ∃ found ∈ mails.foldl insertMail table,
      found.orderId = mail.orderId ∧ found.kind = mail.kind := by
  induction mails generalizing table with
  | nil => exact absurd listed not_mem_nil
  | cons head tail ih =>
    have headDerived := areDerived head (.head _)
    rcases mem_cons.mp listed with rfl | inTail
    · obtain ⟨found, member, same⟩ := exists_mem_insertMail derived headDerived
      have kept : found ∈ tail.foldl insertMail (insertMail table mail) :=
        mem_foldl_insertMail_of_mem member
      exact ⟨found, kept, same⟩
    · apply ih _ (fun other member => areDerived other (mem_cons_of_mem head member)) inTail
      intro other member
      rcases mem_of_mem_insertMail member with old | rfl
      · exact derived other old
      · exact headDerived

variable {answer : Answer request}

/-- A call that neither refunds nor issues leaves tickets and mails alone. -/
inductive TouchesTickets : Call → Prop
  | refund (id : String) (refundedAt : Int) (cause : Cause) :
      TouchesTickets (.markOrderRefunded id refundedAt cause)
  | issue (orderId : String) (tickets : List TicketRow) (outbox : List OutboxRow) :
      TouchesTickets (.issueFulfilment orderId tickets outbox)

theorem untouched_of_answers (answers : ticketMachine.Answers request before answer after)
    (untouched : ¬TouchesTickets request) :
    after.tickets = before.tickets ∧ after.outbox = before.outbox := by
  cases request with
  | markOrderRefunded id refundedAt cause => exact (untouched (.refund _ _ _)).elim
  | issueFulfilment orderId tickets outbox => exact (untouched (.issue _ _ _)).elim
  | insertTicketType row =>
    obtain ⟨-, rfl⟩ := Prod.mk.inj answers
    split <;> exact ⟨rfl, rfl⟩
  | insertCoupon coupon =>
    have ran : before.insertCoupon coupon = (answer, after) := answers
    unfold World.insertCoupon at ran
    split at ran
    · cases ran
      exact ⟨rfl, rfl⟩
    · split at ran <;> cases ran <;> exact ⟨rfl, rfl⟩
  | insertOrderIfAvailable row capacities pendingSince =>
    obtain ⟨-, rfl⟩ := Prod.mk.inj answers
    split
    · exact ⟨rfl, rfl⟩
    split
    · exact ⟨rfl, rfl⟩
    split <;> exact ⟨rfl, rfl⟩
  | _ =>
    cases answers
    exact ⟨rfl, rfl⟩

theorem isPaid_eq_true {orderId : String} : world.isPaid orderId = true ↔
      ∃ order ∈ world.orders, order.id = orderId ∧ order.status = .paid := by
  unfold World.isPaid
  rw [Option.any_eq_true]
  constructor
  · rintro ⟨order, found, paid⟩
    obtain ⟨member, named⟩ := find?_eq_some.mp found
    exact ⟨order, member, named, of_decide_eq_true paid⟩
  · rintro ⟨order, member, named, paid⟩
    exact ⟨order, find?_eq_some.mpr ⟨member, named⟩, decide_eq_true paid⟩

def TicketRow.afterRefund (orderId : String) (refundedAt : Int) (ticket : TicketRow) :
    TicketRow :=
  if ticket.orderId = orderId ∧ ticket.status = .valid then
    { ticket with status := .void, voidedAt := some refundedAt }
  else ticket

theorem mem_tickets_markOrderRefunded {id : String} {refundedAt : Int} {cause : Cause} :
    ticket ∈ (world.markOrderRefunded id refundedAt cause).2.tickets ↔
      ∃ old ∈ world.tickets, old.afterRefund id refundedAt = ticket := by
  have updated : ticket ∈ world.tickets.update
      (fun ticket => ticket.orderId = id ∧ ticket.status = .valid)
      (fun ticket => { ticket with status := .void, voidedAt := some refundedAt })
      (fun _ => rfl) ↔ ∃ old ∈ world.tickets, old.afterRefund id refundedAt = ticket := by
    simp only [mem_update, TicketRow.afterRefund, decide_eq_true_eq]
  exact updated

theorem TicketRow.afterRefund_same (orderId : String) (refundedAt : Int) (ticket : TicketRow) :
    (ticket.afterRefund orderId refundedAt).id = ticket.id ∧
      (ticket.afterRefund orderId refundedAt).orderId = ticket.orderId ∧
        (ticket.afterRefund orderId refundedAt).ticketTypeId = ticket.ticketTypeId := by
  unfold TicketRow.afterRefund
  split <;> exact ⟨rfl, rfl, rfl⟩

theorem TicketRow.valid_afterRefund {orderId : String} {refundedAt : Int}
    (valid : (ticket.afterRefund orderId refundedAt).status = .valid) :
    ticket.orderId ≠ orderId ∧ ticket.status = .valid := by
  unfold TicketRow.afterRefund at valid
  split at valid
  · cases valid
  · rename_i apart
    exact ⟨fun named => apart ⟨named, valid⟩, valid⟩

theorem issued_of_answers (answers : ticketMachine.Answers request before answer after) :
    (∀ ticket ∈ after.tickets, (∃ old ∈ before.tickets, ticket.id = old.id ∧
        ticket.orderId = old.orderId ∧ ticket.ticketTypeId = old.ticketTypeId ∧
          (ticket.status = .valid → old.status = .valid)) ∨
      ∃ orderId tickets outbox, request = .issueFulfilment orderId tickets outbox ∧
        before.isPaid orderId = true ∧ ticket ∈ tickets) ∧
    (∀ mail ∈ after.outbox, mail ∈ before.outbox ∨
      ∃ orderId tickets outbox, request = .issueFulfilment orderId tickets outbox ∧
        mail ∈ outbox) := by
  by_cases touches : TouchesTickets request
  · cases touches with
    | refund id refundedAt cause =>
      cases answers
      refine ⟨?_, fun mail member => .inl member⟩
      intro ticket member
      obtain ⟨old, oldMem, rfl⟩ := mem_tickets_markOrderRefunded.mp member
      obtain ⟨sameId, sameOrder, sameType⟩ := old.afterRefund_same id refundedAt
      exact .inl ⟨old, oldMem, sameId, sameOrder, sameType,
        fun valid => (TicketRow.valid_afterRefund valid).2⟩
    | issue orderId tickets outbox =>
      cases answers
      unfold World.issueFulfilment
      split
      · rename_i paid
        constructor
        · intro ticket member
          rcases mem_of_mem_foldl_insertOrIgnore member with old | new
          · exact .inl ⟨ticket, old, rfl, rfl, rfl, id⟩
          · exact .inr ⟨orderId, tickets, outbox, rfl, paid, new⟩
        · intro mail member
          rcases mem_of_mem_foldl_insertMail member with old | new
          · exact .inl old
          · exact .inr ⟨orderId, tickets, outbox, rfl, new⟩
      · exact ⟨fun ticket member => .inl ⟨ticket, member, rfl, rfl, rfl, id⟩,
          fun mail member => .inl member⟩
  · obtain ⟨sameTickets, sameOutbox⟩ := untouched_of_answers answers touches
    rw [sameTickets, sameOutbox]
    exact ⟨fun ticket member => .inl ⟨ticket, member, rfl, rfl, rfl, id⟩,
      fun mail member => .inl member⟩

structure KeepsRows (before after : World) : Prop where
  tickets : ∀ ticket ∈ before.tickets, ∃ later ∈ after.tickets, later.id = ticket.id
  outbox : ∀ mail ∈ before.outbox, mail ∈ after.outbox

theorem keepsRows_of_answers (answers : ticketMachine.Answers request before answer after) :
    KeepsRows before after := by
  by_cases touches : TouchesTickets request
  · cases touches with
    | refund id refundedAt cause =>
      cases answers
      refine ⟨?_, fun mail member => member⟩
      intro ticket member
      exact ⟨_, mem_tickets_markOrderRefunded.mpr ⟨ticket, member, rfl⟩,
        (ticket.afterRefund_same id refundedAt).1⟩
    | issue orderId tickets outbox =>
      cases answers
      unfold World.issueFulfilment
      split
      · exact ⟨fun ticket member =>
          exists_mem_foldl_insertOrIgnore (.inl member),
          fun mail member => mem_foldl_insertMail_of_mem member⟩
      · exact ⟨fun ticket member => ⟨ticket, member, rfl⟩, fun mail member => member⟩
  · obtain ⟨sameTickets, sameOutbox⟩ := untouched_of_answers answers touches
    constructor
    · exact fun ticket member => ⟨ticket, sameTickets ▸ member, rfl⟩
    · exact fun mail member => sameOutbox ▸ member

structure FulfilmentInv (world : World) : Prop where
  quantity : ∀ order ∈ world.orders, order.quantity = orderQuantity order.items
  tickets : ∀ ticket ∈ world.tickets, ∃ order ∈ world.orders, IsTicketOf order ticket ∧
    (ticket.status = .valid → order.status = .paid ∨ order.status = .needsReview)
  outbox : ∀ mail ∈ world.outbox, mail.IsDerived

theorem RowMove.sold (move : RowMove before request row current)
    (sold : row.status = .paid ∨ row.status = .needsReview) :
    (current.status = .paid ∨ current.status = .needsReview) ∨
      ∃ refundedAt cause, request = .markOrderRefunded row.id refundedAt cause := by
  have notOpen : row.isOpen = false := by
    rcases sold with paid | review
    · simp [TicketOrderRow.isOpen, paid]
    · simp [TicketOrderRow.isOpen, review]
  cases move with
  | kept | labelled stripeSessionId paymentMethod preview | intended unknown => exact .inl sold
  | settled isOpen => simp [notOpen] at isOpen
  | expired isPending => simp [TicketOrderRow.isOpen, isPending] at notOpen
  | reviewed live => exact .inl (.inr rfl)
  | refunded settled => exact .inr ⟨_, _, rfl⟩
  | approved inReview reason => exact .inl (.inl rfl)

theorem RowMove.refunded_stays (move : RowMove before request row current)
    (refunded : row.status = .refunded) : current.status = .refunded := by
  have notOpen : row.isOpen = false := by simp [TicketOrderRow.isOpen, refunded]
  cases move with
  | kept | labelled stripeSessionId paymentMethod preview | intended unknown => exact refunded
  | settled isOpen => simp [notOpen] at isOpen
  | expired isPending => simp [refunded] at isPending
  | reviewed live =>
    rcases live with isOpen | paid
    · simp [notOpen] at isOpen
    · simp [refunded] at paid
  | refunded settled => rfl
  | approved inReview reason => simp [refunded] at inReview

theorem ticket_of_old (answers : ticketMachine.Answers request before answer after)
    (member : ticket ∈ after.tickets) {old : TicketRow}
    (same : ticket.id = old.id ∧ ticket.orderId = old.orderId ∧
      ticket.ticketTypeId = old.ticketTypeId)
    (stillValid : ticket.status = .valid → old.status = .valid)
    (orderMem : order ∈ before.orders) (isTicket : IsTicketOf order old)
    (sold : old.status = .valid → order.status = .paid ∨ order.status = .needsReview) :
    ∃ current ∈ after.orders, IsTicketOf current ticket ∧
      (ticket.status = .valid → current.status = .paid ∨ current.status = .needsReview) := by
  obtain ⟨sameId, sameOrder, sameType⟩ := same
  have stands : IsTicketOf order ticket := by
    unfold IsTicketOf
    rw [sameId, sameOrder, sameType]
    exact isTicket
  rcases effect_of_answers answers with maps | ⟨_, _, _, _, rfl, inserts⟩
  · have move := rowMove before request order
    refine ⟨_, maps.mem_orders.mpr ⟨order, orderMem, rfl⟩, stands.continue move.continues, ?_⟩
    intro valid
    rcases move.sold (sold (stillValid valid)) with still | ⟨refundedAt, cause, rfl⟩
    · exact still
    · cases answers
      obtain ⟨voided, -, rfl⟩ := mem_tickets_markOrderRefunded.mp member
      obtain ⟨apart, -⟩ := TicketRow.valid_afterRefund valid
      exact (apart ((voided.afterRefund_same _ _).2.1.symm.trans stands.1)).elim
  · exact ⟨order, inserts.mem_orders.mpr (.inl orderMem), stands,
      fun valid => sold (stillValid valid)⟩

theorem fulfilmentInv_of_answers (pre : Precondition deps request before)
    (answers : ticketMachine.Answers request before answer after)
    (inv : FulfilmentInv before) : FulfilmentInv after where
  quantity := by
    intro order member
    rcases effect_of_answers answers with maps | ⟨row, _, _, _, rfl, inserts⟩
    · obtain ⟨old, oldMem, rfl⟩ := maps.mem_orders.mp member
      have continues := (rowMove before request old).continues
      rw [continues.quantity, continues.items]
      exact inv.quantity old oldMem
    · rcases inserts.mem_orders.mp member with old | rfl
      · exact inv.quantity order old
      · exact pre.quantity
  tickets := by
    intro ticket member
    rcases (issued_of_answers answers).1 ticket member with
      ⟨old, oldMem, sameId, sameOrder, sameType, stillValid⟩ |
        ⟨orderId, tickets, outbox, rfl, paid, listed⟩
    · obtain ⟨order, orderMem, isTicket, sold⟩ := inv.tickets old oldMem
      exact ticket_of_old answers member ⟨sameId, sameOrder, sameType⟩ stillValid orderMem
        isTicket sold
    · obtain ⟨read, now, ⟨current, currentMem, continues⟩, rfl, rfl, -⟩ := pre
      obtain ⟨isTicket, -⟩ := isTicketOf_of_fulfilmentOf listed
      obtain ⟨order, orderMem, named, isPaid⟩ := isPaid_eq_true.mp paid
      obtain rfl := eq_of_key_eq orderMem currentMem (named.trans continues.id.symm)
      have sameOrders : after.orders = before.orders := by
        cases answers
        unfold World.issueFulfilment
        split <;> rfl
      rw [sameOrders]
      exact ⟨order, orderMem, isTicket.continue continues, fun _ => .inl isPaid⟩
  outbox := by
    intro mail member
    rcases (issued_of_answers answers).2 mail member with
      old | ⟨orderId, tickets, outbox, rfl, listed⟩
    · exact inv.outbox mail old
    · obtain ⟨read, now, -, -, -, rfl⟩ := pre
      exact isDerived_of_fulfilmentOf listed

section Counts

variable (shop : ShopInv world) (inv : FulfilmentInv world)

include inv in
/-- The tickets of an order, by the seats that they stand for. -/
theorem isTicketOf_of_mem (orderMem : order ∈ world.orders)
    (member : ticket ∈ world.ticketsOf order.id) :
    IsTicketOf order ticket ∧
      (ticket.status = .valid → order.status = .paid ∨ order.status = .needsReview) := by
  obtain ⟨ticketMem, named⟩ := mem_filter.mp member
  obtain ⟨other, otherMem, isTicket, sold⟩ := inv.tickets ticket ticketMem
  obtain rfl := eq_of_key_eq otherMem orderMem (isTicket.1.symm.trans (of_decide_eq_true named))
  exact ⟨isTicket, sold⟩

theorem ticketsOf_ids_nodup (world : World) (orderId : String) :
    ((world.ticketsOf orderId).map TicketRow.id).Nodup :=
  world.tickets.keysNodup.sublist (filter_sublist.map TicketRow.id)

include inv in
theorem ticketsOf_filter_le (orderMem : order ∈ world.orders) (kind : String → Bool) :
    ((world.ticketsOf order.id).filter fun ticket => kind ticket.ticketTypeId).length ≤
      order.seatLines.countP fun line => kind line.ticketTypeId := by
  have seats : (order.seatLines.zipIdx.filter fun seat => kind seat.1.ticketTypeId).length =
      order.seatLines.countP fun line => kind line.ticketTypeId := by
    rw [← countP_eq_length_filter]
    conv => rhs; rw [← zipIdx_map_fst 0 order.seatLines, countP_map]
    rfl
  rw [← seats]
  have nodup : (((world.ticketsOf order.id).filter fun ticket =>
      kind ticket.ticketTypeId).map TicketRow.id).Nodup :=
    (ticketsOf_ids_nodup world order.id).sublist (filter_sublist.map TicketRow.id)
  have among : ∀ id ∈ ((world.ticketsOf order.id).filter fun ticket =>
      kind ticket.ticketTypeId).map TicketRow.id,
      id ∈ (order.seatLines.zipIdx.filter fun seat => kind seat.1.ticketTypeId).map
        fun seat => ticketId order.id seat.2 := by
    intro id listed
    obtain ⟨ticket, ticketMem, rfl⟩ := List.mem_map.mp listed
    obtain ⟨ofOrder, ofKind⟩ := mem_filter.mp ticketMem
    obtain ⟨⟨-, index, line, isSeat, isId, isType⟩, -⟩ :=
      isTicketOf_of_mem inv orderMem ofOrder
    refine List.mem_map.mpr ⟨(line, index), mem_filter.mpr ⟨?_, ?_⟩, isId.symm⟩
    · exact mem_zipIdx_iff_getElem?.mpr isSeat
    · rw [← isType]
      exact ofKind
  have bounded := (subperm_of_subset nodup among).length_le
  simpa using bounded

include inv in
theorem ticketsOf_length_le (orderMem : order ∈ world.orders) :
    (world.ticketsOf order.id).length ≤ order.quantity := by
  have bounded := ticketsOf_filter_le inv orderMem fun _ => true
  rw [inv.quantity order orderMem, ← seatLines_length]
  simpa using bounded

include shop inv in
theorem ticketsFollow : TicketsFollow world where
  valid ticket member valid := by
    obtain ⟨order, orderMem, isTicket, sold⟩ := inv.tickets ticket member
    exact ⟨order, orderMem, isTicket.1.symm, sold valid⟩
  refunded order orderMem refunded ticket member := by
    obtain ⟨-, sold⟩ := isTicketOf_of_mem inv orderMem member
    cases status : ticket.status with
    | void => rfl
    | valid => simp [refunded] at sold; exact (sold status).elim
  quantity order orderMem := ticketsOf_length_le inv orderMem
  lines order orderMem ticket member := by
    obtain ⟨⟨-, index, line, isSeat, -, sameType⟩, -⟩ :=
      isTicketOf_of_mem inv orderMem member
    exact ⟨line, mem_items_of_seatLines (mem_of_getElem? isSeat), sameType.symm⟩
  perLine order orderMem line lineMem := by
    have bounded := ticketsOf_filter_le inv orderMem fun kind => kind = line.ticketTypeId
    rw [seatLines_countP, seats_eq_quantity (shop order orderMem).distinct lineMem] at bounded
    exact bounded
  mails order orderMem kind := by
    have nodup : ((world.outbox.rows.filter fun mail =>
        mail.orderId = order.id ∧ mail.kind = kind).map
          fun mail => (mail.orderId, mail.kind)).Nodup :=
      world.outbox.keysNodup.sublist (filter_sublist.map _)
    have among : ∀ key ∈ (world.outbox.rows.filter fun mail =>
        mail.orderId = order.id ∧ mail.kind = kind).map
          fun mail => (mail.orderId, mail.kind), key ∈ [(order.id, kind)] := by
      intro key listed
      obtain ⟨mail, member, rfl⟩ := List.mem_map.mp listed
      obtain ⟨sameOrder, sameKind⟩ := of_decide_eq_true (mem_filter.mp member).2
      simp [sameOrder, sameKind]
    simpa using (subperm_of_subset nodup among).length_le

end Counts

/-- Every seat of the order has a ticket, and the buyer has their mail. -/
structure HasAll (order : TicketOrderRow) (world : World) : Prop where
  known : Known world order
  tickets : ∀ index < order.seatLines.length,
    ∃ ticket ∈ world.tickets, ticket.id = ticketId order.id index
  mail : ∃ mail ∈ world.outbox, mail.orderId = order.id ∧ mail.kind = .buyerConfirmation

theorem HasAll.keep (has : HasAll order before) (evolves : Evolves before after)
    (keeps : KeepsRows before after) : HasAll order after where
  known := has.known.evolve evolves
  tickets index inRange := by
    obtain ⟨ticket, member, named⟩ := has.tickets index inRange
    obtain ⟨later, laterMem, same⟩ := keeps.tickets ticket member
    exact ⟨later, laterMem, same.trans named⟩
  mail := by
    obtain ⟨mail, member, named⟩ := has.mail
    exact ⟨mail, keeps.outbox mail member, named⟩

theorem hasAll_issueFulfilment {read : TicketOrderRow}
    (inv : FulfilmentInv world) (member : order ∈ world.orders) (paid : order.status = .paid)
    (continues : Continues read order) :
    HasAll order (world.issueFulfilment order.id (fulfilmentOf read now).tickets
      (fulfilmentOf read now).outbox) := by
  have isPaid : world.isPaid order.id = true := isPaid_eq_true.mpr ⟨order, member, rfl, paid⟩
  have sameLines : order.seatLines = read.seatLines := by
    unfold TicketOrderRow.seatLines
    rw [continues.items]
  unfold World.issueFulfilment
  rw [if_pos isPaid]
  constructor
  · exact .of_mem member
  · intro index inRange
    rw [sameLines] at inRange
    obtain ⟨ticket, listed, named⟩ := exists_ticket_of_fulfilmentOf inRange
    obtain ⟨found, foundMem, same⟩ := exists_mem_foldl_insertOrIgnore
      (@Or.inr (ticket ∈ world.tickets) _ listed)
    rw [continues.id]
    exact ⟨found, foundMem, same.trans named⟩
  · obtain ⟨mail, listed, sameOrder, isBuyer⟩ := exists_mail_of_fulfilmentOf read now
    obtain ⟨found, foundMem, foundOrder, foundKind⟩ :=
      exists_mem_foldl_insertMail inv.outbox (fun _ => isDerived_of_fulfilmentOf) listed
    rw [continues.id]
    exact ⟨found, foundMem, foundOrder.trans sameOrder, foundKind.trans isBuyer⟩

theorem HasAll.isFulfilled (has : HasAll order world) (inv : FulfilmentInv world) :
    world.IsFulfilled order := by
  obtain ⟨current, currentMem, continues⟩ := has.known
  have sameLines : current.seatLines = order.seatLines := by
    unfold TicketOrderRow.seatLines
    rw [continues.items]
  have seats : order.quantity = order.seatLines.length := by
    rw [← continues.quantity, inv.quantity current currentMem, ← seatLines_length, sameLines]
  refine ⟨?_, has.mail⟩
  have derived : ((List.range order.quantity).map (ticketId order.id)).Nodup :=
    nodup_range.map fun _ _ same => (ticketId_inj same).2
  rw [perm_ext_iff_of_nodup (ticketsOf_ids_nodup world order.id) derived]
  intro id
  rw [List.mem_map, List.mem_map]
  constructor
  · rintro ⟨ticket, member, rfl⟩
    rw [← continues.id] at member
    obtain ⟨⟨-, index, line, isSeat, named, -⟩, -⟩ := isTicketOf_of_mem inv currentMem member
    obtain ⟨inRange, -⟩ := List.getElem?_eq_some_iff.mp isSeat
    rw [sameLines, ← seats] at inRange
    exact ⟨index, mem_range.mpr inRange, by rw [named, continues.id]⟩
  · rintro ⟨index, inRange, rfl⟩
    rw [mem_range, seats] at inRange
    obtain ⟨ticket, member, named⟩ := has.tickets index inRange
    -- A ticket with a derived id belongs to the order that the id names.
    obtain ⟨owner, -, ⟨sameOrder, other, -, -, isId, -⟩, -⟩ := inv.tickets ticket member
    have owned : owner.id = order.id := (ticketId_inj (isId.symm.trans named)).1
    refine ⟨ticket, mem_filter.mpr ⟨member, ?_⟩, named⟩
    exact decide_eq_true (sameOrder.trans owned)

theorem fulfilmentInv_of_worldStep (step : (shopDiscipline deps).WorldStep anyCall before after)
    (inv : FulfilmentInv before) : FulfilmentInv after := by
  cases step with
  | call op request answer invariant permitted precondition answers =>
    exact fulfilmentInv_of_answers precondition answers inv
  | environment invariant moves =>
    obtain ⟨clock, -, rfl⟩ := moves
    exact ⟨inv.quantity, inv.tickets, inv.outbox⟩

theorem hasAll_of_worldStep (step : (shopDiscipline deps).WorldStep anyCall before after)
    (has : HasAll order before) : HasAll order after := by
  apply has.keep ((shopDiscipline deps).evolves_of_worldStep step)
  cases step with
  | call op request answer invariant permitted precondition answers =>
    exact keepsRows_of_answers answers
  | environment invariant moves =>
    obtain ⟨clock, -, rfl⟩ := moves
    exact ⟨fun ticket member => ⟨ticket, member, rfl⟩, fun mail member => member⟩

def IsRefunded (id : String) (world : World) : Prop :=
  ∃ current ∈ world.orders, current.id = id ∧ current.status = .refunded

theorem isRefunded_of_worldStep {id : String}
    (step : (shopDiscipline deps).WorldStep anyCall before after)
    (refunded : IsRefunded id before) : IsRefunded id after := by
  obtain ⟨current, member, named, isRefunded⟩ := refunded
  cases step with
  | environment invariant moves =>
    obtain ⟨clock, -, rfl⟩ := moves
    exact ⟨current, member, named, isRefunded⟩
  | call op request answer invariant permitted precondition answers =>
    rcases effect_of_answers answers with maps | ⟨_, _, _, _, rfl, inserts⟩
    · have move := rowMove before request current
      exact ⟨_, maps.mem_orders.mpr ⟨current, member, rfl⟩,
        move.continues.id.trans named, move.refunded_stays isRefunded⟩
    · exact ⟨current, inserts.mem_orders.mpr (.inl member), named, isRefunded⟩

end DubEcosystem.LpTickets
