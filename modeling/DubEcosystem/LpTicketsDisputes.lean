import DubEcosystem.LpTicketsCapacity

/-!
# LP tickets: a dispute is Stripe's to decide

The single review reason of an order is all that keeps a person from approving
it while a dispute is open.  It records the dispute only if the order was paid
when the dispute came in, and `approve` reads it before its update.
-/

namespace DubEcosystem.LpTickets

open Interleaving List

variable {deps : AppDeps} {world before after : World} {request : Call}
  {row current : TicketOrderRow}

def TicketOrderRow.isDisputed (order : TicketOrderRow) : Prop :=
  order.status = .needsReview ∧ order.reviewReason = some .dispute

variable (orderId : String)

def disputeTurn : Event → Option Bool
  | .processed id (.disputeCreated _) _ =>
    if id = orderId then some true else none
  | .processed id (.disputeClosed _ _) _ =>
    if id = orderId then some false else none
  | _ => none

def disputeOpen (orderId : String) : List Event → Bool
  | [] => false
  | event :: earlier =>
    (disputeTurn orderId event).getD (disputeOpen orderId earlier)

/-- No approval moved an order while a dispute was open, and an order that is
in review because of a dispute is so because of one that came in after all that
Stripe closed in its favour. -/
structure DisputesRespected (world : World) : Prop where
  notByHand : ∀ orderId later seen earlier,
    world.history = later ++ .processed orderId (.approval seen) true :: earlier →
      disputeOpen orderId earlier = false
  released : ∀ order ∈ world.orders, order.isDisputed →
    ∀ later dispute outcome moved earlier, world.history = later ++
        .processed order.id (.disputeClosed dispute outcome) moved :: earlier →
      outcome ≠ .lost → ∃ other, other ≠ dispute ∧
          .processed order.id (.disputeCreated other) true ∈ later

/-- In every state that runs under `allowed` reach, disputes are respected. -/
def AlwaysStripes (deps : AppDeps) (allowed : Call → World → Prop) (start : World) : Prop :=
  ∀ config, (ticketShop deps).ReachableWhere allowed start config → DisputesRespected config.world

/-- A dispute that comes in finds its order neither in review for another
reason, nor paid although that dispute was closed before.  An approval finds its
order in dispute only if it was when it was read. -/
def DisputeRecorded : Call → World → Prop
  | .markOrderNeedsReview id _ _ (.disputeCreated dispute), world =>
    ∀ row ∈ world.orders, row.id = id →
      (row.status = .needsReview → row.reviewReason = some .dispute) ∧
        (row.status = .paid → ∀ outcome moved, outcome ≠ .lost →
          .processed id (.disputeClosed dispute outcome) moved ∉ world.history)
  | .approveOrder id _ _ _ (.approval seen), world =>
    ∀ row ∈ world.orders, row.id = id → row.isDisputed → seen.isDisputed
  | _, _ => True

def PendingDispute (history : List Event) (orderId : String) : Prop :=
  ∃ dispute newer older,
    history = newer ++ .processed orderId (.disputeCreated dispute) true :: older ∧
      (∀ other outcome moved, .processed orderId (.disputeClosed other outcome) moved ∈ newer →
          outcome = .lost) ∧
      ∀ outcome moved, outcome ≠ .lost →
        .processed orderId (.disputeClosed dispute outcome) moved ∉ older

/-- The invariant behind `DisputesRespected`. -/
structure DisputeInv (world : World) : Prop where
  held : ∀ orderId, disputeOpen orderId world.history = true →
    ∃ order ∈ world.orders, order.id = orderId ∧ (order.isDisputed ∨ order.status = .refunded)
  notByHand : ∀ orderId later seen earlier,
    world.history = later ++ .processed orderId (.approval seen) true :: earlier →
      disputeOpen orderId earlier = false
  disputed : ∀ order ∈ world.orders, order.isDisputed →
    PendingDispute world.history order.id

/-- The two ways to cut one history at an event. -/
theorem DisputeInv.respected (inv : DisputeInv world) :
    DisputesRespected world := by
  refine ⟨inv.notByHand, ?_⟩
  intro order member disputed later dispute outcome moved earlier cut favour
  obtain ⟨other, newer, older, cause, sinceLost, notOver⟩ :=
    inv.disputed order member disputed
  rw [cause] at cut
  rcases append_eq_append_iff.mp cut with
    ⟨rest, laterEq, tailEq⟩ | ⟨rest, newerEq, tailEq⟩
  · rcases rest with _ | ⟨event, rest⟩
    · cases tailEq
    · obtain ⟨rfl, olderEq⟩ := List.cons.inj tailEq
      refine ⟨other, ?_, laterEq ▸ by simp⟩
      rintro rfl
      exact notOver outcome moved favour (olderEq ▸ by simp)
  · rcases rest with _ | ⟨event, rest⟩
    · cases tailEq
    · obtain ⟨rfl, -⟩ := List.cons.inj tailEq
      exact (favour (sinceLost dispute outcome moved (newerEq ▸ by simp))).elim

inductive Processes : Call → String → Cause → Prop
  | session (request : Call) (id : String) (payload : CheckoutSession) :
      Processes request id (.session payload)
  | refund (request : Call) (id : String) : Processes request id .refund
  | opened (id : String) (paymentIntentId : Option String) (dispute : String) :
      Processes (.markOrderNeedsReview id .dispute paymentIntentId (.disputeCreated dispute))
        id (.disputeCreated dispute)
  | lost (id : String) (instant : Int) (dispute : String) :
      Processes (.markOrderRefunded id instant (.disputeClosed dispute .lost))
        id (.disputeClosed dispute .lost)
  | released (id : String) (instant : Int) (dispute : String) (outcome : DisputeOutcome) :
      Processes (.approveOrder id .stripe instant (some .dispute) (.disputeClosed dispute outcome))
        id (.disputeClosed dispute outcome)
  | approved (id userId : String) (instant : Int) (seen : TicketOrderRow)
      (undisputed : ¬ seen.isDisputed) :
      Processes (.approveOrder id (.user userId) instant none (.approval seen)) id (.approval seen)

section

variable (pre : Precondition deps request before)
include pre

theorem processes_of_newEvents {id : String} {cause : Cause} {moved : Bool}
    (member : .processed id cause moved ∈ before.newEvents request) :
    Processes request id cause := by
  cases request with
  | markOrderPaid orderId settlement orderCause =>
    obtain ⟨⟨_, _, _, payload, rfl, _⟩, -⟩ := pre
    cases mem_singleton.mp member
    exact .session _ _ payload
  | markOrderNeedsReview orderId reason paymentIntentId orderCause =>
    rcases pre with ⟨rfl, -, dispute, rfl⟩ | ⟨-, payload, rfl⟩
    · cases mem_singleton.mp member
      exact .opened _ paymentIntentId dispute
    · cases mem_singleton.mp member
      exact .session _ _ payload
  | markOrderRefunded orderId instant orderCause =>
    rcases pre with rfl | ⟨dispute, rfl⟩
    · cases mem_singleton.mp member
      exact .refund _ _
    · cases mem_singleton.mp member
      exact .lost _ instant dispute
  | approveOrder orderId resolvedBy instant onlyReason orderCause =>
    rcases pre with ⟨rfl, rfl, dispute, outcome, rfl⟩ | ⟨rfl, ⟨userId, rfl⟩, seen, rfl, undisputed⟩
    · cases mem_singleton.mp member
      exact .released _ instant dispute outcome
    · cases mem_singleton.mp member
      exact .approved _ userId instant seen undisputed
  | insertOrderIfAvailable row capacities pendingSince | updateTicketType row =>
    simp only [World.newEvents] at member
    split at member
    · cases mem_singleton.mp member
    · cases member
  | settled orderId payload => cases mem_singleton.mp member
  | _ => cases member

theorem RowMove.parked (move : RowMove before request row current) (member : row ∈ before.orders)
    (recorded : DisputeRecorded request before) (parked : row.isDisputed ∨ row.status = .refunded) :
    (current.isDisputed ∨ current.status = .refunded) ∨ ∃ instant dispute outcome, request =
        .approveOrder row.id .stripe instant (some .dispute) (.disputeClosed dispute outcome) := by
  have notPaid : row.status ≠ .paid := by
    rcases parked with ⟨review, -⟩ | refunded
    · simp [review]
    · simp [refunded]
  have notOpen : row.isOpen = false := by
    rcases parked with ⟨review, -⟩ | refunded
    · simp [TicketOrderRow.isOpen, review]
    · simp [TicketOrderRow.isOpen, refunded]
  cases move with
  | kept | labelled stripeSessionId paymentMethod preview | intended unknown => exact .inl parked
  | settled isOpen => simp [notOpen] at isOpen
  | expired isPending => simp [TicketOrderRow.isOpen, isPending] at notOpen
  | reviewed live =>
    rcases live with isOpen | paid
    · simp [notOpen] at isOpen
    · exact (notPaid paid).elim
  | refunded settled => exact .inl (.inr rfl)
  | approved inReview reason =>
    rcases pre with ⟨rfl, rfl, dispute, outcome, rfl⟩ | ⟨-, -, seen, rfl, undisputed⟩
    · exact .inr ⟨_, dispute, outcome, rfl⟩
    · rcases parked with disputed | refunded
      · exact (undisputed (recorded row member rfl disputed)).elim
      · rw [refunded] at inReview
        cases inReview

omit pre in
/-- A dispute that comes in takes its order out of `paid`, or finds it in
dispute or refunded. -/
theorem parked_of_opened {paymentIntentId : Option String} {dispute : String} {id : String}
    (closed : Closed before id)
    (recorded : DisputeRecorded (.markOrderNeedsReview id .dispute
      paymentIntentId (.disputeCreated dispute)) before) :
    ∃ row ∈ before.orders, row.id = id ∧
      ((before.rowAfter (.markOrderNeedsReview id .dispute paymentIntentId
          (.disputeCreated dispute)) row).isDisputed ∨
        (before.rowAfter (.markOrderNeedsReview id .dispute paymentIntentId
          (.disputeCreated dispute)) row).status = .refunded) := by
  obtain ⟨row, member, rfl, notOpen⟩ := closed
  refine ⟨row, member, rfl, ?_⟩
  cases status : row.status with
  | pending | expired => simp [TicketOrderRow.isOpen, status] at notOpen
  | paid =>
    left
    simp [World.rowAfter, status, TicketOrderRow.isDisputed]
  | refunded =>
    right
    simp [World.rowAfter, status, notOpen]
  | needsReview =>
    left
    have disputed := (recorded row member rfl).1 status
    simp [World.rowAfter, status, notOpen, TicketOrderRow.isDisputed, disputed]

theorem Maps.held (maps : Maps before after request) (recorded : DisputeRecorded request before)
    (inv : DisputeInv before) {orderId : String}
    (opened : disputeOpen orderId after.history = true) :
    ∃ order ∈ after.orders, order.id = orderId ∧ (order.isDisputed ∨ order.status = .refunded) := by
  have stays : disputeOpen orderId before.history = true →
      (∃ order ∈ after.orders, order.id = orderId ∧ (order.isDisputed ∨ order.status = .refunded)) ∨
      ∃ instant dispute outcome, request = .approveOrder orderId .stripe instant (some .dispute)
          (.disputeClosed dispute outcome) := by
    intro wasOpen
    obtain ⟨row, member, rfl, parked⟩ := inv.held orderId wasOpen
    have move := rowMove before request row
    rcases move.parked pre member recorded parked with still | released
    · exact .inl ⟨_, maps.mem_orders.mpr ⟨row, member, rfl⟩, move.continues.id, still⟩
    · exact .inr released
  rw [maps.history] at opened
  rcases newEvents_short before request with noEvent | ⟨event, only⟩
  · rw [noEvent] at opened
    rcases stays opened with held | ⟨instant, dispute, outcome, rfl⟩
    · exact held
    · cases noEvent
  · rw [only, singleton_append, disputeOpen] at opened
    cases turn : disputeTurn orderId event with
    | none =>
      rw [turn] at opened
      rcases stays opened with held | ⟨instant, dispute, outcome, rfl⟩
      · exact held
      · cases only
        simp [disputeTurn] at turn
    | some opens =>
      rw [turn] at opened
      obtain rfl : opens = true := opened
      unfold disputeTurn at turn
      split at turn
      · rename_i id dispute moved
        split at turn
        · rename_i named
          subst named
          have processes := processes_of_newEvents pre (only ▸ mem_singleton.mpr rfl)
          cases processes with
          | opened id paymentIntentId dispute =>
            rcases pre with ⟨-, closed, -⟩ | ⟨wrong, -⟩
            · obtain ⟨row, member, named, parked⟩ :=
                parked_of_opened closed recorded
              exact ⟨_, maps.mem_orders.mpr ⟨row, member, rfl⟩,
                (before.rowAfter_id _ row).trans named, parked⟩
            · simp at wrong
        · cases turn
      · split at turn <;> cases turn
      · cases turn

theorem notByHand_of_newEvents (recorded : DisputeRecorded request before)
    (inv : DisputeInv before) {orderId : String} {later earlier : List Event}
    {seen : TicketOrderRow}
    (cut : before.newEvents request ++ before.history =
      later ++ .processed orderId (.approval seen) true :: earlier) :
    disputeOpen orderId earlier = false := by
  rcases newEvents_short before request with noEvent | ⟨event, only⟩
  · rw [noEvent] at cut
    exact inv.notByHand orderId later seen earlier cut
  rw [only, singleton_append] at cut
  rcases later with _ | ⟨latest, later⟩
  · cases cut
    have processes := processes_of_newEvents pre (only ▸ mem_singleton.mpr rfl)
    cases processes with
    | approved id userId instant seen undisputed =>
      by_contra opened
      rw [Bool.not_eq_false] at opened
      obtain ⟨row, member, rfl, parked⟩ := inv.held _ opened
      -- The approval moved the order, so it found it in review.
      have found : before.finds row.id (fun other =>
          other.status = .needsReview ∧ ((none : Option ReviewReason) = none ∨
              other.reviewReason = none)) = true :=
        (Event.processed.inj (List.cons.inj only).1).2.2
      obtain ⟨other, otherMem, sameId, inReview⟩ :=
        World.finds_eq_true.mp found
      obtain rfl := KeyedTable.eq_of_key_eq otherMem member sameId
      simp only [true_or, and_true, decide_eq_true_eq] at inReview
      rcases parked with disputed | refunded
      · exact undisputed (recorded other otherMem rfl disputed)
      · rw [refunded] at inReview
        cases inReview
  · exact inv.notByHand orderId later seen earlier (List.cons.inj cut).2

/-- An order that is in dispute after a call was put there by it, or stays
there while Stripe closes nothing in its favour. -/
theorem pendingDispute_of_newEvents (member : row ∈ before.orders)
    (recorded : DisputeRecorded request before) (inv : DisputeInv before)
    (disputed : (before.rowAfter request row).isDisputed) :
    PendingDispute (before.newEvents request ++ before.history) row.id := by
  have stays : row.isDisputed →
      PendingDispute (before.newEvents request ++ before.history) row.id := by
    intro wasDisputed
    obtain ⟨dispute, newer, older, cause, sinceLost, notOver⟩ :=
      inv.disputed row member wasDisputed
    refine ⟨dispute, before.newEvents request ++ newer, older, ?_, ?_, notOver⟩
    · rw [cause, append_assoc]
    · intro other outcome moved closedMem
      rcases mem_append.mp closedMem with latest | earlier
      · have processes := processes_of_newEvents pre latest
        cases processes with
        | lost => rfl
        | released id instant other outcome =>
          have paid : (before.rowAfter (.approveOrder row.id .stripe instant
              (some .dispute) (.disputeClosed other outcome)) row).status =
              .paid := by
            simp [World.rowAfter, wasDisputed.1, wasDisputed.2]
          rw [disputed.1] at paid
          cases paid
      · exact sinceLost other outcome moved earlier
  have move := rowMove before request row
  generalize before.rowAfter request row = current at move disputed
  cases move with
  | kept | labelled stripeSessionId paymentMethod preview | intended unknown => exact stays disputed
  | expired isPending | refunded settled | approved inReview reason => cases disputed.1
  | @settled settlement cause row isOpen =>
    have reason := disputed.2
    simp only [World.settledRow] at reason
    split at reason <;> cases reason
  | @reviewed reason paymentIntentId cause row live =>
    obtain rfl : reason = .dispute := Option.some.inj disputed.2
    rcases pre with ⟨-, closed, dispute, rfl⟩ | ⟨wrong, -⟩
    · obtain ⟨found, foundMem, named, notOpen⟩ := closed
      obtain rfl := KeyedTable.eq_of_key_eq foundMem member named
      have paid : found.status = .paid := by
        rcases live with isOpen | paid
        · simp [notOpen] at isOpen
        · exact paid
      have moved : before.finds found.id (fun other =>
          other.isOpen || other.status = .paid) = true :=
        World.finds_eq_true.mpr ⟨found, foundMem, rfl, by simp [paid]⟩
      refine ⟨dispute, [], before.history, ?_, ?_, ?_⟩
      · show [Event.processed found.id _ _] ++ before.history = _
        rw [moved]
        rfl
      · intro other outcome moved closedMem
        cases closedMem
      · intro outcome moved favour
        exact (recorded found foundMem rfl).2 paid outcome moved favour
    · simp at wrong

omit pre in
theorem Inserts.disputeInv {capacities : Capacities} {pendingSince : Int}
    {coupon : Option TicketCouponRow}
    (inserts : Inserts before after row capacities pendingSince coupon)
    (insertable : Insertable before row capacities pendingSince)
    (inv : DisputeInv before) : DisputeInv after := by
  refine ⟨?_, ?_, ?_⟩
  · intro orderId opened
    rw [inserts.history] at opened
    obtain ⟨order, member, named, parked⟩ := inv.held orderId opened
    exact ⟨order, inserts.mem_orders.mpr (.inl member), named, parked⟩
  · intro orderId later seen earlier cut
    rw [inserts.history] at cut
    rcases later with _ | ⟨latest, later⟩
    · cases cut
    · exact inv.notByHand orderId later seen earlier (List.cons.inj cut).2
  · intro order member disputed
    rcases inserts.mem_orders.mp member with old | rfl
    · obtain ⟨dispute, newer, older, cause, sinceLost, notOver⟩ :=
        inv.disputed order old disputed
      refine ⟨dispute, .ordered row.id coupon :: newer, older, ?_, ?_, notOver⟩
      · rw [inserts.history, cause]
        rfl
      · intro other outcome moved closedMem
        rcases mem_cons.mp closedMem with impossible | earlier
        · cases impossible
        · exact sinceLost other outcome moved earlier
    · have noReview := disputed.2
      rw [insertable.noReview] at noReview
      cases noReview

theorem disputeInv_of_answers {answer : Answer request} (recorded : DisputeRecorded request before)
    (answers : ticketMachine.Answers request before answer after) (inv : DisputeInv before) :
    DisputeInv after := by
  rcases effect_of_answers answers with
    maps | ⟨row, capacities, pendingSince, coupon, rfl, inserts⟩
  · refine ⟨fun orderId => maps.held pre recorded inv, ?_, ?_⟩
    · intro orderId later seen earlier cut
      rw [maps.history] at cut
      exact notByHand_of_newEvents pre recorded inv cut
    · intro order member disputed
      obtain ⟨old, oldMem, rfl⟩ := maps.mem_orders.mp member
      rw [maps.history, before.rowAfter_id]
      exact pendingDispute_of_newEvents pre oldMem recorded inv disputed
  · exact inserts.disputeInv pre inv

end

def disputeCreated (dispute : String) : Operation :=
  .webhook
    { type := "charge.dispute.created", livemode := some true
      session := paidSession orderId, metadataOrderId := none
      charge := ⟨dispute, some ("pi_" ++ orderId), "needs_response", none, 0⟩ }

def underpaid : Operation :=
  .webhook
    { type := "checkout.session.completed", livemode := some true
      session := { paidSession orderId with amountTotal := some 1 }
      metadataOrderId := none, charge := ⟨"", none, "", none, 0⟩ }

/-- An order is in review for its amount when the dispute comes in; then a
person approves it. -/
def approvedDisputed : List Event → Bool
  | .processed orderId (.approval _) true :: earlier => disputeOpen orderId earlier
  | _ => false

def approvesDisputed : Moves :=
  places "A" ++ runs (underpaid "A") 4 "A" ++
    runs (disputeCreated "A" "dp") 3 "A" ++ runs (.approve "admin" "A") 3 "A"

end DubEcosystem.LpTickets
