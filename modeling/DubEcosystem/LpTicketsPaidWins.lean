import DubEcosystem.LpTicketsCapacity

/-!
# LP tickets: paid wins, in any order

While nothing else happens to a pending order, it is pending, expired, paid or
oversold, and `settle` leaves it open only where its payload did not pay.  So
one matching payload decides the outcome, whatever expiries, releases,
duplicates and sweeps surround it.
-/

namespace DubEcosystem.LpTickets

open Interleaving List

variable {deps : AppDeps} {world before after : World} {request : Call}
  {order row current : TicketOrderRow}

def Undisturbed (orderId : String) : Call → World → Prop
  | .markOrderNeedsReview id _ _ _, _ => id ≠ orderId
  | .markOrderRefunded id _ _, _ => id ≠ orderId
  | .approveOrder id _ _ _ _, _ => id ≠ orderId
  | _, _ => True

/-- Some line of the order has a type with a capacity, or whose capacity was
changed. -/
def Limited (world : World) (order : TicketOrderRow) : Prop :=
  ∃ item ∈ order.items, .capacityChanged item.ticketTypeId ∈ world.history ∨
      ∃ type ∈ world.ticketTypes, type.id = item.ticketTypeId ∧ type.capacity ≠ none

theorem Limited.evolve (limited : Limited before order)
    (evolves : Evolves before after) : Limited after order := by
  obtain ⟨item, member, changed | ⟨type, typeMem, named, capacity⟩⟩ := limited
  · exact ⟨item, member, .inl (evolves.history.subset changed)⟩
  · obtain ⟨current, currentMem, sameId, same⟩ :=
      evolves.ticketTypes type typeMem
    refine ⟨item, member, ?_⟩
    rcases same with same | changed
    · exact .inr ⟨current, currentMem, sameId.trans named, same ▸ capacity⟩
    · exact .inl (named ▸ changed)

def Stands (world : World) (order current : TicketOrderRow) : Prop :=
  current.isOpen = true ∨ current.status = .paid ∨
    (current.status = .needsReview ∧ current.reviewReason = some .oversold ∧ Limited world order)

theorem Stands.evolve (stands : Stands before order current)
    (evolves : Evolves before after) : Stands after order current := by
  rcases stands with isOpen | paid | ⟨review, oversold, limited⟩
  · exact .inl isOpen
  · exact .inr (.inl paid)
  · exact .inr (.inr ⟨review, oversold, limited.evolve evolves⟩)

theorem limited_of_isOver {since : Int}
    (exceeds : world.isOver row since = true) : Limited world row := by
  obtain ⟨item, member, short⟩ := any_eq_true.mp exceeds
  refine ⟨item, member, .inr ?_⟩
  cases found : world.ticketTypes.find? item.ticketTypeId with
  | none => simp [found] at short
  | some type =>
    obtain ⟨typeMem, named⟩ := KeyedTable.find?_eq_some.mp found
    refine ⟨type, typeMem, named, ?_⟩
    intro unlimited
    simp [found, unlimited] at short

theorem RowMove.stands (move : RowMove before request row current)
    (undisturbed : Undisturbed row.id request before)
    (evolves : Evolves before after) (continues : Continues order row)
    (stands : Stands before order row) : Stands after order current := by
  have later := stands.evolve evolves
  cases move with
  | kept | labelled stripeSessionId paymentMethod preview | intended unknown => exact later
  | expired isPending => exact .inl (by simp [TicketOrderRow.isOpen])
  | reviewed live | refunded settled | approved inReview reason => exact (undisturbed rfl).elim
  | @settled settlement cause row isOpen =>
    right
    by_cases exceeds : settlement.capacitySince.any (before.isOver row) = true
    · right
      refine ⟨by simp [World.settledRow, exceeds], by simp [World.settledRow, exceeds], ?_⟩
      obtain ⟨since, -, overSince⟩ := Option.any_eq_true _ _ |>.mp exceeds
      obtain ⟨item, member, short⟩ := limited_of_isOver overSince
      exact Limited.evolve ⟨item, continues.items ▸ member, short⟩ evolves
    · left
      simp [World.settledRow, exceeds]

/-- What a run keeps while one order is left undisturbed. -/
structure Undecided (deps : AppDeps) (order : TicketOrderRow) (world : World) : Prop where
  stands : ∃ current ∈ world.orders, Continues order current ∧
    Stands world order current
  settled : ∀ payload, .settled order.id payload ∈ world.history →
    SettledBy deps world order.id payload

theorem settledBy_of_answers {answer : Answer request} (pre : Precondition deps request before)
    (answers : ticketMachine.Answers request before answer after)
    {orderId : String}
    (settled : ∀ payload, .settled orderId payload ∈ before.history →
      SettledBy deps before orderId payload)
    {payload : CheckoutSession}
    (member : .settled orderId payload ∈ after.history) :
    SettledBy deps after orderId payload := by
  apply SettledBy.evolve _ (evolves_of_answers answers)
  rcases effect_of_answers answers with
    maps | ⟨inserted, capacities, pendingSince, coupon, rfl, inserts⟩
  · rw [maps.history] at member
    rcases mem_append.mp member with latest | earlier
    · unfold World.newEvents at latest
      split at latest
      case h_7 =>
        obtain ⟨rfl, rfl⟩ := Event.settled.inj (mem_singleton.mp latest)
        exact pre
      all_goals try split at latest
      all_goals simp at latest
    · exact settled payload earlier
  · rw [inserts.history] at member
    rcases mem_cons.mp member with impossible | earlier
    · cases impossible
    · exact settled payload earlier

theorem undecided_of_worldStep
    (step : (shopDiscipline deps).WorldStep (Undisturbed order.id) before after)
    (undecided : Undecided deps order before) : Undecided deps order after := by
  have evolves : Evolves before after :=
    (shopDiscipline deps).evolves_of_worldStep step
  obtain ⟨current, member, continues, stands⟩ := undecided.stands
  cases step with
  | environment invariant moves =>
    obtain ⟨clock, later, rfl⟩ := moves
    exact ⟨⟨current, member, continues, stands.evolve evolves⟩, undecided.settled⟩
  | call op request answer invariant permitted precondition answers =>
    refine ⟨?_, fun payload member =>
      settledBy_of_answers precondition answers undecided.settled member⟩
    rcases effect_of_answers answers with
      maps | ⟨row, capacities, pendingSince, coupon, rfl, inserts⟩
    · have move := rowMove before request current
      exact ⟨_, maps.mem_orders.mpr ⟨current, member, rfl⟩, continues.trans move.continues,
        move.stands (continues.id ▸ permitted) evolves continues stands⟩
    · exact ⟨current, inserts.mem_orders.mpr (.inl member), continues, stands.evolve evolves⟩

theorem settledBy_of_worldStep {allowed : Call → World → Prop} {orderId : String}
    (step : (shopDiscipline deps).WorldStep allowed before after)
    (settled : ∀ payload, .settled orderId payload ∈ before.history →
      SettledBy deps before orderId payload) :
    ∀ payload, .settled orderId payload ∈ after.history →
      SettledBy deps after orderId payload := by
  intro payload member
  cases step with
  | call op request answer invariant permitted precondition answers =>
    exact settledBy_of_answers precondition answers settled member
  | environment invariant moves =>
    obtain ⟨clock, -, rfl⟩ := moves
    exact settled payload member

variable {ticketTypes : KeyedTable TicketTypeRow.id}
  {coupons : KeyedTable TicketCouponRow.id} {enabled : Bool} {clock : Int}
  {middle final : Config ticketSignature World Operation}

def undisturbedReferee (deps : AppDeps) (orderId : String) :
    Referee (ticketShop deps) (Undisturbed orderId) where
  mayCall request _ :=
    match request with
    | .markOrderNeedsReview id _ _ _ => id ≠ orderId
    | .markOrderRefunded id _ _ => id ≠ orderId
    | .approveOrder id _ _ _ _ => id ≠ orderId
    | _ => true
  mayStart _ _ := true
  allowed_of_mayCall {request world} permitted := by
    cases request with
    | markOrderNeedsReview id reason paymentIntentId cause | markOrderRefunded id instant cause
    | approveOrder id resolvedBy instant onlyReason cause =>
      simpa [Undisturbed] using permitted
    | _ => trivial
  startable_of_mayStart _ := trivial

def expiresThenPays : Moves :=
  runs (.webhook
    { type := "checkout.session.expired", livemode := some true
      session := { paidSession "A" with paymentStatus := some "unpaid" }
      metadataOrderId := none, charge := ⟨"", none, "", none, 0⟩ }) 4 "A" ++
    runs (completed "A") 13 "A" ++ runs (completed "A") 4 "A"

end DubEcosystem.LpTickets
