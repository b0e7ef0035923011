import DubEcosystem.LpTicketsProvenance

/-!
# LP tickets: no type is oversold

Beside the paid orders, the invariant counts the seats that can still become
paid without another look at the capacity: those of orders in dispute and of
pending orders inside their hold window.  A settlement that skips the capacity
check for an order that no longer holds its seats breaks it.
-/

namespace DubEcosystem.LpTickets

open Interleaving List KeyedTable

variable {deps : AppDeps} {world before after : World} {request : Call}
  {row current : TicketOrderRow}

def isApproval (orderId : String) : Event → Bool
  | .processed id (.approval _) moved => decide (id = orderId) && moved
  | _ => false

def World.isApproved (world : World) (orderId : String) : Bool :=
  world.history.any (isApproval orderId)

def World.soldSeats (world : World) (ticketTypeId : String) : Nat :=
  world.orders.total fun order =>
    if order.status = .paid ∧ world.isApproved order.id = false then
      order.seats ticketTypeId
    else 0

/-- Capacities do not change. -/
def CapacityKept : Call → World → Prop
  | .updateTicketType row, world => world.changesCapacity row = false
  | _, _ => True

/-- A settlement without a capacity check finds its order, if that is still
open, pending inside the hold window. -/
def HoldKept : Call → World → Prop
  | .markOrderPaid id settlement _, world =>
    settlement.capacitySince = none → ∀ row ∈ world.orders, row.id = id → row.isOpen = true →
        row.status = .pending ∧ world.clock - pendingHoldMs ≤ row.createdAt
  | _, _ => True

/-- In every state that runs under `allowed` reach, no type is oversold. -/
def NeverOversold (deps : AppDeps) (allowed : Call → World → Prop) (start : World) : Prop :=
  ∀ config, (ticketShop deps).ReachableWhere allowed start config →
    ∀ type ∈ config.world.ticketTypes, ∀ capacity, type.capacity = some capacity →
        config.world.soldSeats type.id ≤ capacity

/-- The order can stay or become paid without another capacity check. -/
def World.commits (world : World) (order : TicketOrderRow) : Bool :=
  !world.isApproved order.id && (order.status = .paid ||
      (order.status = .needsReview && order.reviewReason = some .dispute) ||
      (order.status = .pending && decide (world.clock - pendingHoldMs ≤ order.createdAt)))

def World.share (world : World) (ticketTypeId : String) (order : TicketOrderRow) : Nat :=
  if world.commits order then order.seats ticketTypeId else 0

def World.committed (world : World) (ticketTypeId : String) : Nat :=
  world.orders.total (world.share ticketTypeId)

theorem share_le_seats (world : World) (row : TicketOrderRow) (ticketTypeId : String) :
    world.share ticketTypeId row ≤ row.seats ticketTypeId := by
  unfold World.share
  split
  · exact le_refl _
  · exact Nat.zero_le _

theorem soldSeats_le_committed (ticketTypeId : String) :
    world.soldSeats ticketTypeId ≤ world.committed ticketTypeId := by
  apply total_le_total
  intro order _
  by_cases sold : order.status = .paid ∧ world.isApproved order.id = false
  · simp [World.share, World.commits, sold]
  · simp [sold]

variable {ticketTypeId : String}

theorem seats_eq_zero (absent : ∀ item ∈ row.items, item.ticketTypeId ≠ ticketTypeId) :
    row.seats ticketTypeId = 0 := by
  have none_selected : row.items.filter (fun item => item.ticketTypeId = ticketTypeId) = [] := by
    simpa [filter_eq_nil_iff] using absent
  simp [TicketOrderRow.seats, none_selected]

theorem seats_eq_quantity {item : LpTicketOrderItem}
    (distinct : (row.items.map LpTicketOrderItem.ticketTypeId).Nodup)
    (member : item ∈ row.items) :
    row.seats item.ticketTypeId = item.quantity := by
  obtain ⟨before, after, split⟩ := append_of_mem member
  rw [split, map_append, map_cons, nodup_append, nodup_cons] at distinct
  obtain ⟨-, ⟨notAfter, -⟩, apart⟩ := distinct
  have noneBefore : before.filter (fun other => other.ticketTypeId = item.ticketTypeId) = [] := by
    simp only [filter_eq_nil_iff, decide_eq_true_eq]
    intro other otherMem
    exact apart _ (mem_map_of_mem otherMem) _ (by simp)
  have noneAfter : after.filter (fun other => other.ticketTypeId = item.ticketTypeId) = [] := by
    simp only [filter_eq_nil_iff, decide_eq_true_eq]
    intro other otherMem equal
    exact notAfter (equal ▸ mem_map_of_mem otherMem)
  simp [TicketOrderRow.seats, split, filter_append, noneBefore, noneAfter]

variable {since : Int}

/-- An order that commits seats holds them in every check since a threshold
that has passed. -/
theorem isHeld_of_commits (commits : world.commits row = true)
    (passed : since ≤ world.clock - pendingHoldMs) : isHeld row since = true := by
  simp only [World.commits, Bool.and_eq_true, Bool.or_eq_true, decide_eq_true_eq] at commits
  simp only [isHeld, decide_eq_true_eq]
  rcases commits.2 with (paid | ⟨review, -⟩) | ⟨pending, inWindow⟩
  · exact .inl paid
  · exact .inr (.inl review)
  · exact .inr (.inr ⟨pending, by omega⟩)

def Rechecked (world : World) (request : Call) (row : TicketOrderRow) : Prop :=
  ∃ settlement cause since, request = .markOrderPaid row.id settlement cause ∧
    settlement.capacitySince = some since ∧
      since ≤ world.clock - pendingHoldMs ∧ world.isOver row since = false

theorem isApproved_mono {orderId : String} (grows : before.history <:+ after.history)
    (approved : before.isApproved orderId = true) :
    after.isApproved orderId = true := by
  simp only [World.isApproved, any_eq_true] at approved ⊢
  obtain ⟨event, member, isApproval⟩ := approved
  exact ⟨event, grows.subset member, isApproval⟩

/-- Seats are committed anew only by a settlement that checked the capacity. -/
theorem RowMove.share_le (move : RowMove before request row current)
    (member : row ∈ before.orders) (pre : Precondition deps request before)
    (holdKept : HoldKept request before)
    (history : after.history = before.newEvents request ++ before.history)
    (clock : after.clock = before.clock) (ticketTypeId : String) :
    after.share ticketTypeId current ≤ before.share ticketTypeId row ∨
      Rechecked before request row := by
  have continues := move.continues
  have sameSeats : current.seats ticketTypeId = row.seats ticketTypeId := by
    simp [TicketOrderRow.seats, continues.items]
  have grows : before.history <:+ after.history :=
    history ▸ suffix_append _ _
  -- It is enough that the order committed its seats before.
  have committed_before : (after.commits current = true → before.commits row = true) →
      after.share ticketTypeId current ≤ before.share ticketTypeId row := by
    intro commits
    by_cases now : after.commits current = true
    · simp [World.share, now, commits now, sameSeats]
    · simp [World.share, now]
  have unapproved : after.isApproved current.id = false → before.isApproved row.id = false := by
    intro notAfter
    rw [continues.id] at notAfter
    by_contra approved
    rw [Bool.not_eq_false] at approved
    rw [isApproved_mono grows approved] at notAfter
    cases notAfter
  simp only [World.commits, Bool.and_eq_true, Bool.not_eq_true',
    Bool.or_eq_true, decide_eq_true_eq] at committed_before
  rw [clock] at committed_before
  cases move with
  | kept | labelled stripeSessionId paymentMethod preview | intended unknown =>
    left
    exact committed_before fun commits => ⟨unapproved commits.1, commits.2⟩
  | expired isPending | refunded settled =>
    left
    apply committed_before
    rintro ⟨-, (paid | ⟨review, -⟩) | ⟨pending, -⟩⟩
    · cases paid
    · cases review
    · cases pending
  | @settled settlement cause row isOpen =>
    cases checked : settlement.capacitySince with
    | none =>
      left
      have held := holdKept checked row member rfl isOpen
      exact committed_before fun commits =>
        ⟨unapproved commits.1, .inr held⟩
    | some since =>
      by_cases exceeds : before.isOver row since = true
      · left
        apply committed_before
        simp [World.settledRow, checked, exceeds]
      · right
        exact ⟨settlement, cause, since, rfl, checked, pre.2 since checked,
          Bool.not_eq_true _ ▸ exceeds⟩
  | @reviewed reason paymentIntentId cause row live =>
    left
    apply committed_before
    rcases pre with ⟨rfl, ⟨found, foundMem, named, closed⟩, -⟩ | ⟨wrong, -⟩
    · obtain rfl := eq_of_key_eq foundMem member named
      rcases live with isOpen | paid
      · simp [closed] at isOpen
      · exact fun commits => ⟨unapproved commits.1, .inl (.inl paid)⟩
    · rintro ⟨-, (paid | ⟨-, dispute⟩) | ⟨pending, -⟩⟩
      · cases paid
      · cases dispute
        simp at wrong
      · cases pending
  | @approved resolvedBy resolvedAt onlyReason cause row inReview reason =>
    left
    apply committed_before
    rcases pre with ⟨-, rfl, -⟩ | ⟨rfl, -, seen, rfl, -⟩
    · rcases reason with impossible | dispute
      · cases impossible
      · exact fun commits =>
          ⟨unapproved commits.1, .inl (.inr ⟨inReview, dispute⟩)⟩
    · rintro ⟨notApproved, -⟩
      have approved : after.isApproved row.id = true := by
        rw [World.isApproved, history, World.newEvents_approval member inReview]
        simp [isApproval]
      rw [notApproved] at approved
      cases approved

variable {answer : Answer request} {type : TicketTypeRow}

theorem ticketTypes_kept (kept : CapacityKept request before)
    (answers : ticketMachine.Answers request before answer after)
    (member : type ∈ after.ticketTypes) :
    (∃ old ∈ before.ticketTypes, old.id = type.id ∧ old.capacity = type.capacity) ∨
        ∀ old ∈ before.ticketTypes, old.id ≠ type.id := by
  have same : after.ticketTypes = before.ticketTypes →
      ∃ old ∈ before.ticketTypes, old.id = type.id ∧ old.capacity = type.capacity :=
    fun equal => ⟨type, equal ▸ member, rfl, rfl⟩
  cases request with
  | insertTicketType row =>
    have ran : before.insertTicketType row = (answer, after) := answers
    unfold World.insertTicketType at ran
    split at ran
    · cases ran
      exact .inl (same rfl)
    · rename_i inserted success
      cases ran
      rcases (mem_insert? success).mp member with old | rfl
      · exact .inl ⟨type, old, rfl, rfl⟩
      · exact .inr (insert?_eq_some success).2
  | updateTicketType row =>
    cases answers
    left
    obtain ⟨old, oldMem, rfl⟩ := List.mem_map.mp member
    by_cases named : old.id = row.id
    · have found : before.ticketTypes.find? row.id = some old :=
        find?_eq_some.mpr ⟨oldMem, named⟩
      have unchanged : old.capacity = row.capacity := by
        simpa [CapacityKept, World.changesCapacity, found] using kept
      exact ⟨old, oldMem, by simp [named], by simp [named, unchanged]⟩
    · exact ⟨old, oldMem, by simp [named], by simp [named]⟩
  | insertCoupon row =>
    have ran : before.insertCoupon row = (answer, after) := answers
    unfold World.insertCoupon at ran
    split at ran
    · cases ran
      exact .inl (same rfl)
    · split at ran <;> cases ran <;> exact .inl (same rfl)
  | issueFulfilment orderId tickets outbox =>
    have ran : (some ((), before.issueFulfilment orderId tickets outbox)) =
      some (answer, after) := congrArg some answers
    simp only [World.issueFulfilment] at ran
    split at ran <;> cases ran <;> exact .inl (same rfl)
  | insertOrderIfAvailable row capacities pendingSince =>
    have ran : before.insertOrderIfAvailable row capacities pendingSince =
      (answer, after) := answers
    simp only [World.insertOrderIfAvailable] at ran
    split at ran
    · cases ran
      exact .inl (same rfl)
    · split at ran
      · cases ran
        exact .inl (same rfl)
      · split at ran <;> cases ran <;> exact .inl (same rfl)
  | _ => cases answers; exact .inl (same rfl)

/-- The invariant of a shop whose capacities are kept. -/
structure SeatInv (world : World) : Prop where
  known : ∀ order ∈ world.orders, ∀ item ∈ order.items,
    ∃ type ∈ world.ticketTypes, type.id = item.ticketTypeId
  fixed : ∀ ticketTypeId, .capacityChanged ticketTypeId ∉ world.history
  fits : ∀ type ∈ world.ticketTypes, ∀ capacity,
    type.capacity = some capacity → world.committed type.id ≤ capacity

/-- The other orders commit no more seats than a capacity check counts. -/
theorem others_le_heldBy (passed : since ≤ world.clock - pendingHoldMs)
    (ticketTypeId orderId : String) :
    (world.orders.total fun other =>
      if other.id = orderId then 0 else world.share ticketTypeId other) ≤
      world.heldBy ticketTypeId since fun other => other.id ≠ orderId := by
  apply total_le_total
  intro other _
  by_cases named : other.id = orderId
  · simp [named]
  · by_cases commits : world.commits other = true
    · have held := isHeld_of_commits commits passed
      simp [World.share, named, commits, held]
    · simp [World.share, commits]

theorem committed_le_held (passed : since ≤ world.clock - pendingHoldMs) (ticketTypeId : String) :
    world.committed ticketTypeId ≤ world.held ticketTypeId since := by
  apply total_le_total
  intro other _
  by_cases commits : world.commits other = true
  · have held := isHeld_of_commits commits passed
    simp [World.share, commits, held]
  · simp [World.share, commits]

/-- A call other than a checked settlement commits no seat anew. -/
theorem Maps.committed_le (maps : Maps before after request)
    (shares : ∀ row ∈ before.orders, after.share ticketTypeId (before.rowAfter request row) ≤
        before.share ticketTypeId row) :
    after.committed ticketTypeId ≤ before.committed ticketTypeId := by
  rw [World.committed, maps.orders, total_map]
  exact total_le_total shares

variable {capacity : Nat}

theorem Maps.committed_le_capacity (maps : Maps before after request)
    (inv : ShopInv before) (pre : Precondition deps request before)
    (holdKept : HoldKept request before) (member : row ∈ before.orders)
    (rechecked : Rechecked before request row) (typeMem : type ∈ before.ticketTypes)
    (limited : type.capacity = some capacity)
    (ordered : ∃ item ∈ row.items, item.ticketTypeId = type.id) :
    after.committed type.id ≤ capacity := by
  obtain ⟨settlement, cause, since, rfl, checked, passed, notOver⟩ := rechecked
  obtain ⟨item, itemMem, named⟩ := ordered
  have ownShare : after.share type.id (before.rowAfter
      (.markOrderPaid row.id settlement cause) row) ≤ item.quantity := by
    have seats := seats_eq_quantity (inv row member).distinct itemMem
    have items := (rowMove before (.markOrderPaid row.id settlement cause) row).continues.items
    calc after.share type.id _ ≤ TicketOrderRow.seats (before.rowAfter
            (.markOrderPaid row.id settlement cause) row) type.id :=
          share_le_seats _ _ type.id
      _ = row.seats type.id := by simp only [TicketOrderRow.seats, items]
      _ = item.quantity := by rw [← named, seats]
  have otherShares : (before.orders.total fun other =>
      if other.id = row.id then 0
      else after.share type.id (before.rowAfter (.markOrderPaid row.id settlement cause) other)) ≤
      before.orders.total fun other =>
        if other.id = row.id then 0 else before.share type.id other := by
    apply total_le_total
    intro other otherMem
    by_cases same : other.id = row.id
    · simp [same]
    · simp only [same, if_false]
      rcases (rowMove before (.markOrderPaid row.id settlement cause)
        other).share_le otherMem pre holdKept maps.history maps.clock type.id with
        less | ⟨_, _, _, sameCall, -⟩
      · exact less
      · exact (same (Call.markOrderPaid.inj sameCall).1.symm).elim
  have held := others_le_heldBy passed type.id row.id
  have fitted : before.heldBy type.id since (fun other => other.id ≠ row.id) +
      item.quantity ≤ capacity := by
    have found : before.ticketTypes.find? type.id = some type :=
      find?_eq_some.mpr ⟨typeMem, rfl⟩
    have fits := any_eq_false.mp notOver item itemMem
    rw [named, found, Option.bind_some, limited] at fits
    simpa using fits
  rw [World.committed, maps.orders, total_map, total_eq_add_others member]
  omega

/-- An order whose type is not in the table commits no seat of it. -/
theorem committed_eq_zero (absent : ∀ order ∈ world.orders, ∀ item ∈ order.items,
      item.ticketTypeId ≠ ticketTypeId) : world.committed ticketTypeId = 0 := by
  apply sum_eq_zero
  intro share shareMem
  obtain ⟨order, member, rfl⟩ := List.mem_map.mp shareMem
  have seats := share_le_seats world order ticketTypeId
  rw [seats_eq_zero (absent order member)] at seats
  exact Nat.le_zero.mp seats

theorem Maps.keepsFit (maps : Maps before after request) (inv : ShopInv before)
    (pre : Precondition deps request before)
    (holdKept : HoldKept request before)
    (typeMem : type ∈ before.ticketTypes)
    (limited : type.capacity = some capacity)
    (fits : before.committed type.id ≤ capacity) :
    after.committed type.id ≤ capacity := by
  by_cases shares : ∀ row ∈ before.orders, after.share type.id (before.rowAfter request row) ≤
        before.share type.id row
  · exact (maps.committed_le shares).trans fits
  · push Not at shares
    obtain ⟨row, member, more⟩ := shares
    have move := rowMove before request row
    rcases move.share_le member pre holdKept maps.history maps.clock type.id with less | rechecked
    · omega
    · refine maps.committed_le_capacity inv pre holdKept member rechecked typeMem limited ?_
      by_contra absent
      push Not at absent
      have noSeats : TicketOrderRow.seats (before.rowAfter request row) type.id = 0 := by
        apply seats_eq_zero
        rw [move.continues.items]
        exact absent
      have bounded := share_le_seats after (before.rowAfter request row) type.id
      omega

/-- An inserted order commits no more than its own check admitted. -/
theorem Inserts.keepsFit {capacities : Capacities} {pendingSince : Int}
    {coupon : Option TicketCouponRow}
    (inserts : Inserts before after row capacities pendingSince coupon)
    (insertable : Insertable before row capacities pendingSince)
    (fixed : ∀ ticketTypeId, .capacityChanged ticketTypeId ∉ before.history)
    (typeMem : type ∈ before.ticketTypes) (limited : type.capacity = some capacity)
    (fits : before.committed type.id ≤ capacity) :
    after.committed type.id ≤ capacity := by
  have sameShares : after.share type.id = before.share type.id := by
    funext order
    simp [World.share, World.commits, World.isApproved, inserts.history, inserts.clock, isApproval]
  have extended : after.committed type.id =
      before.committed type.id + before.share type.id row := by
    rw [World.committed, total_insert? inserts.inserted, sameShares]
    rfl
  by_cases ordered : ∃ item ∈ row.items, item.ticketTypeId = type.id
  · obtain ⟨item, itemMem, named⟩ := ordered
    have own : before.share type.id row ≤ item.quantity := by
      rw [← seats_eq_quantity insertable.distinct itemMem, named]
      exact share_le_seats _ _ type.id
    have known : capacities.get item.ticketTypeId = some capacity := by
      obtain ⟨found, foundMem, foundId, same⟩ :=
        insertable.capacities item itemMem
      have sameType : found = type :=
        eq_of_key_eq foundMem typeMem (foundId.trans named)
      rcases same with same | changed
      · rw [same, sameType, limited]
      · exact (fixed _ changed).elim
    have admitted := List.find?_eq_none.mp inserts.fits item itemMem
    rw [known, named] at admitted
    have room : before.held type.id pendingSince + item.quantity ≤ capacity := by
      simpa using admitted
    have held := committed_le_held insertable.since type.id
    omega
  · push Not at ordered
    have bounded := share_le_seats before row type.id
    rw [seats_eq_zero ordered] at bounded
    omega

theorem seatInv_of_answers (inv : ShopInv before) (pre : Precondition deps request before)
    (capacityKept : CapacityKept request before)
    (holdKept : HoldKept request before)
    (answers : ticketMachine.Answers request before answer after)
    (seats : SeatInv before) : SeatInv after := by
  have typesStay : ∀ {ticketTypeId : String},
      (∃ type ∈ before.ticketTypes, type.id = ticketTypeId) →
        ∃ type ∈ after.ticketTypes, type.id = ticketTypeId := by
    rintro ticketTypeId ⟨type, member, rfl⟩
    obtain ⟨current, currentMem, sameId, -⟩ :=
      ticketTypes_of_answers answers member
    exact ⟨current, currentMem, sameId⟩
  have knownAfter : ∀ order ∈ after.orders, ∀ item ∈ order.items,
      ∃ type ∈ before.ticketTypes, type.id = item.ticketTypeId := by
    intro order member item itemMem
    rcases effect_of_answers answers with
      maps | ⟨row, capacities, pendingSince, coupon, rfl, inserts⟩
    · obtain ⟨old, oldMem, rfl⟩ := maps.mem_orders.mp member
      rw [(rowMove before request old).continues.items] at itemMem
      exact seats.known old oldMem item itemMem
    · rcases inserts.mem_orders.mp member with old | rfl
      · exact seats.known order old item itemMem
      · obtain ⟨type, typeMem, sameId, -⟩ := pre.capacities item itemMem
        exact ⟨type, typeMem, sameId⟩
  refine ⟨fun order member item itemMem =>
    typesStay (knownAfter order member item itemMem), ?_, ?_⟩
  · intro ticketTypeId changed
    rcases effect_of_answers answers with
      maps | ⟨row, capacities, pendingSince, coupon, rfl, inserts⟩
    · rw [maps.history] at changed
      rcases mem_append.mp changed with latest | earlier
      · unfold World.newEvents at latest
        split at latest <;> try simp at latest
        · split at latest <;> simp at latest
        · rw [show before.changesCapacity _ = false from capacityKept] at latest
          simp at latest
      · exact seats.fixed ticketTypeId earlier
    · rw [inserts.history] at changed
      rcases mem_cons.mp changed with impossible | earlier
      · cases impossible
      · exact seats.fixed ticketTypeId earlier
  · intro type member capacity limited
    rcases ticketTypes_kept capacityKept answers member with
      ⟨old, oldMem, sameId, sameCapacity⟩ | fresh
    · rw [← sameCapacity] at limited
      have fitted := seats.fits old oldMem capacity limited
      rw [← sameId]
      rcases effect_of_answers answers with
        maps | ⟨row, capacities, pendingSince, coupon, rfl, inserts⟩
      · exact maps.keepsFit inv pre holdKept oldMem limited fitted
      · exact inserts.keepsFit pre seats.fixed oldMem limited fitted
    · rw [committed_eq_zero]
      · exact Nat.zero_le _
      · intro order orderMem item itemMem named
        obtain ⟨known, knownMem, knownId⟩ :=
          knownAfter order orderMem item itemMem
        exact fresh known knownMem (knownId.trans named)

theorem SeatInv.wait {clock : Int} (seats : SeatInv before) (later : before.clock ≤ clock) :
    SeatInv { before with clock := clock } := by
  refine ⟨seats.known, seats.fixed, ?_⟩
  intro type member capacity limited
  refine le_trans ?_ (seats.fits type member capacity limited)
  apply total_le_total
  intro order _
  by_cases commits : before.commits order = true
  · have own : before.share type.id order = order.seats type.id := by
      simp [World.share, commits]
    rw [own]
    exact share_le_seats _ _ type.id
  · have lapsed : World.commits { before with clock := clock } order = false := by
      simp only [World.commits, World.isApproved] at commits ⊢
      by_contra still
      simp only [Bool.not_eq_false, Bool.and_eq_true, Bool.or_eq_true,
        decide_eq_true_eq] at commits still
      apply commits
      refine ⟨still.1, still.2.imp_right fun pending => ⟨pending.1, ?_⟩⟩
      have inWindow := pending.2
      omega
    simp [World.share, lapsed]

/-- With kept capacities and kept holds, no type is ever oversold. -/
theorem neverOversold_of_holdKept (deps : AppDeps) (ticketTypes : KeyedTable TicketTypeRow.id)
    (coupons : KeyedTable TicketCouponRow.id) (enabled : Bool) (clock : Int) :
    NeverOversold deps (fun request world => CapacityKept request world ∧ HoldKept request world)
      (openingWorld ticketTypes coupons enabled clock) := by
  intro config reached type member capacity limited
  have seats : SeatInv config.world := by
    refine (shopDiscipline deps).property_of_reachable
      ticketShop_programsRespect SeatInv shopInv_openingWorld ?_ ?_ reached
    · refine ⟨?_, fun _ => not_mem_nil, ?_⟩
      · intro order orderMem
        exact (notMem_empty order orderMem).elim
      · intro type _ capacity _
        exact Nat.zero_le capacity
    · intro before after step seats
      cases step with
      | call op request answer invariant permitted precondition answers =>
        exact seatInv_of_answers invariant precondition permitted.1 permitted.2 answers seats
      | environment invariant moves =>
        obtain ⟨clock, later, rfl⟩ := moves
        exact seats.wait later
  exact (soldSeats_le_committed type.id).trans (seats.fits type member capacity limited)

/-- The moves that keep capacities. -/
def capacityReferee (deps : AppDeps) : Referee (ticketShop deps) CapacityKept where
  mayCall request world :=
    match request with
    | .updateTicketType row => !world.changesCapacity row
    | _ => true
  mayStart _ _ := true
  allowed_of_mayCall {request world} permitted := by
    cases request with
    | updateTicketType row => simpa [CapacityKept] using permitted
    | _ => trivial
  startable_of_mayStart _ := trivial

/-- Time passes. -/
def waits (duration : Nat) : Move ticketSignature World Operation :=
  .environment fun world => { world with clock := world.clock + duration }

/-- The webhook for A decides that A still holds its seat and is then held up
until the window is over; the seat is sold to B; the webhook goes on. -/
def settlesAfterLapse : Moves :=
  places "A" ++ runs (completed "A") 4 "A" ++ [waits (35 * 60 * 1000 + 1)] ++
    places "B" ++ runs (completed "B") 6 "B" ++
    List.replicate 2 (.call 2 (outside "A" (paidSession "A")))

theorem not_neverOversold : ¬ NeverOversold liveShop CapacityKept (dayPassShop (some 1)) := by
  intro never
  obtain ⟨config, reached, oversold⟩ :=
    (capacityReferee liveShop).exists_reachable_of_play settlesAfterLapse (dayPassShop (some 1))
      (fun world => world.ticketTypes.rows.any fun type =>
        type.capacity = some 1 ∧ world.soldSeats type.id = 2)
      (by
        simp only [settlesAfterLapse, places, runs, waits, mem_append,
          mem_cons, mem_replicate, reduceCtorEq, and_false, or_false,
          false_or, not_mem_nil, Move.environment.injEq]
        rintro moved rfl world
        exact ⟨_, by simp, rfl⟩) (by decide)
  simp only [any_eq_true, decide_eq_true_eq] at oversold
  obtain ⟨type, member, limited, sold⟩ := oversold
  have within := never config reached type member 1 limited
  omega

end DubEcosystem.LpTickets
