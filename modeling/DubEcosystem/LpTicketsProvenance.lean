import DubEcosystem.LpTicketsPrograms
import DubEcosystem.InterleavingSchedule

/-!
# LP tickets: where a paid order comes from

An order is paid because it was free under a coupon, because a matching Stripe
payload was processed for it, or because a person approved it.  The invariant
also covers orders that a dispute took out of `paid`: winning the dispute makes
them paid again without any new reason.
-/

namespace DubEcosystem.LpTickets

open Interleaving List KeyedTable

variable {deps : AppDeps}

/-- The order was free, under a coupon that was active, not expired, and for
the type of its single line. -/
structure FreeUnder (history : List Event) (order : TicketOrderRow)
    (coupon : TicketCouponRow) : Prop where
  free : order.amountJpy = 0
  ordered : .ordered order.id (some coupon) ∈ history
  named : order.couponId = some coupon.id
  active : coupon.active = true
  unexpired : ∀ expiry, coupon.expiresAt = some expiry → order.createdAt < expiry
  line : ∃ item, order.items = [item] ∧ item.ticketTypeId = coupon.ticketTypeId

/-- What can make an order paid. -/
def Provenance (deps : AppDeps) (history : List Event) (order : TicketOrderRow) : Prop :=
  (∃ coupon, FreeUnder history order coupon) ∨
    (∃ payload moved, .processed order.id (.session payload) moved ∈ history ∧
      IsPayment deps payload order.amountJpy) ∨
    ∃ seen, .processed order.id (.approval seen) true ∈ history

variable {order : TicketOrderRow}

theorem Provenance.mono {history longer : List Event}
    (provenance : Provenance deps history order) (grows : history ⊆ longer) :
    Provenance deps longer order := by
  rcases provenance with ⟨coupon, free⟩ | ⟨payload, moved, processed, payment⟩ | ⟨seen, approved⟩
  · exact .inl ⟨coupon, { free with ordered := grows free.ordered }⟩
  · exact .inr (.inl ⟨payload, moved, grows processed, payment⟩)
  · exact .inr (.inr ⟨seen, grows approved⟩)

theorem Provenance.continues {history : List Event}
    {row current : TicketOrderRow} (provenance : Provenance deps history row)
    (continues : Continues row current) : Provenance deps history current := by
  rcases provenance with ⟨coupon, free⟩ | ⟨payload, moved, processed, payment⟩ | ⟨seen, approved⟩
  · left
    refine ⟨coupon, ?_⟩
    constructor
    · exact continues.amountJpy.trans free.free
    · exact continues.id ▸ free.ordered
    · exact continues.couponId.trans free.named
    · exact free.active
    · rw [continues.createdAt]
      exact free.unexpired
    · rw [continues.items]
      exact free.line
  · right; left
    rw [← continues.id] at processed
    rw [← continues.amountJpy] at payment
    exact ⟨payload, moved, processed, payment⟩
  · right; right
    rw [← continues.id] at approved
    exact ⟨seen, approved⟩

theorem provenance_append {latest earlier : List Event}
    (provenance : Provenance deps (latest ++ earlier) order) :
    Provenance deps latest order ∨ Provenance deps earlier order := by
  rcases provenance with ⟨coupon, free⟩ | ⟨payload, moved, processed, payment⟩ | ⟨seen, approved⟩
  · rcases mem_append.mp free.ordered with ordered | ordered
    · exact .inl (.inl ⟨coupon, { free with ordered }⟩)
    · exact .inr (.inl ⟨coupon, { free with ordered }⟩)
  · rcases mem_append.mp processed with processed | processed
    · exact .inl (.inr (.inl ⟨payload, moved, processed, payment⟩))
    · exact .inr (.inr (.inl ⟨payload, moved, processed, payment⟩))
  · rcases mem_append.mp approved with approved | approved
    · exact .inl (.inr (.inr ⟨seen, approved⟩))
    · exact .inr (.inr (.inr ⟨seen, approved⟩))

def TicketOrderRow.isBought (order : TicketOrderRow) : Prop :=
  order.status = .paid ∨ (order.status = .needsReview ∧ order.reviewReason = some .dispute)

def Vouched (deps : AppDeps) (world : World) : Prop :=
  ∀ order ∈ world.orders, order.isBought → Provenance deps world.history order

variable {before : World}

theorem RowMove.provenance {request : Call}
    {row current : TicketOrderRow} (move : RowMove before request row current)
    (member : row ∈ before.orders) (pre : Precondition deps request before)
    (vouched : row.isBought → Provenance deps before.history row)
    (bought : current.isBought) :
    Provenance deps (before.newEvents request ++ before.history) current := by
  have earlier : row.isBought →
      Provenance deps (before.newEvents request ++ before.history) current :=
    fun wasBought => ((vouched wasBought).continues move.continues).mono (subset_append_right _ _)
  cases move with
  | kept | labelled stripeSessionId paymentMethod preview | intended unknown => exact earlier bought
  | expired isPending | refunded settled =>
    rcases bought with paid | ⟨review, -⟩
    · cases paid
    · cases review
  | settled isOpen =>
    obtain ⟨⟨found, foundMem, named, payload, rfl, payment⟩, -⟩ := pre
    obtain rfl := eq_of_key_eq foundMem member named
    right; left
    exact ⟨payload, _, mem_append_left _ (mem_singleton.mpr rfl), payment⟩
  | @reviewed reason paymentIntentId cause row live =>
    rcases pre with ⟨rfl, ⟨found, foundMem, named, closed⟩, -⟩ | ⟨wrong, -⟩
    · obtain rfl := eq_of_key_eq foundMem member named
      rcases live with isOpen | paid
      · simp [closed] at isOpen
      · exact earlier (.inl paid)
    · rcases bought with paid | ⟨-, dispute⟩
      · cases paid
      · cases dispute
        simp at wrong
  | @approved resolvedBy resolvedAt onlyReason cause row inReview reason =>
    rcases pre with ⟨-, rfl, -⟩ | ⟨rfl, -, seen, rfl, -⟩
    · rcases reason with impossible | dispute
      · cases impossible
      · exact earlier (.inr ⟨inReview, dispute⟩)
    · right; right
      rw [World.newEvents_approval member inReview]
      exact ⟨seen, mem_append_left _ (.head _)⟩

variable {after : World}

theorem Inserts.provenance {row : TicketOrderRow} {capacities : Capacities} {pendingSince : Int}
    {coupon : Option TicketCouponRow}
    (inserts : Inserts before after row capacities pendingSince coupon)
    (insertable : Insertable before row capacities pendingSince)
    (bought : row.isBought) : Provenance deps after.history row := by
  have paid : row.status = .paid := by
    rcases bought with paid | ⟨-, dispute⟩
    · exact paid
    · rw [insertable.noReview] at dispute
      cases dispute
  obtain ⟨-, free, named⟩ : row.status = .paid ∧ row.amountJpy = 0 ∧ row.couponId ≠ none := by
    rcases insertable.status with pending | free
    · rw [pending] at paid
      cases paid
    · exact free
  have admitted := inserts.admitted
  unfold World.admitOrder at admitted
  split at admitted
  · rename_i unnamed
    exact (named unnamed).elim
  rename_i couponId couponNamed
  split at admitted
  · cases admitted
  rename_i found lookup
  split at admitted
  · rename_i fits
    cases admitted
    have sameId := (find?_eq_some.mp lookup).2
    simp only [World.couponFits, decide_eq_true_eq] at fits
    obtain ⟨active, single, sameType, unexpired, -⟩ := fits
    obtain ⟨item, items⟩ := length_eq_one_iff.mp single
    left
    refine ⟨found, free, ?_, ?_, active, ?_, item, items, ?_⟩
    · rw [inserts.history]
      exact .head _
    · rw [couponNamed, sameId]
    · intro expiry expires
      simpa [expires] using unexpired
    · simpa [items] using sameType
  · cases admitted

theorem vouched_of_answers {request : Call} {answer : Answer request}
    (pre : Precondition deps request before)
    (answers : ticketMachine.Answers request before answer after)
    (vouched : Vouched deps before) : Vouched deps after := by
  intro order member bought
  rcases effect_of_answers answers with
    maps | ⟨row, capacities, pendingSince, coupon, rfl, inserts⟩
  · obtain ⟨old, oldMem, rfl⟩ := maps.mem_orders.mp member
    rw [maps.history]
    exact (rowMove before request old).provenance oldMem pre (vouched old oldMem) bought
  · rcases inserts.mem_orders.mp member with old | rfl
    · rw [inserts.history]
      exact (vouched order old bought).mono (subset_cons_self _ _)
    · exact inserts.provenance pre bought

variable {allowed : Call → World → Prop}

theorem vouched_of_worldStep (step : (shopDiscipline deps).WorldStep allowed before after)
    (vouched : Vouched deps before) : Vouched deps after := by
  cases step with
  | call op request answer invariant permitted precondition answers =>
    exact vouched_of_answers precondition answers vouched
  | environment invariant moves =>
    obtain ⟨clock, -, rfl⟩ := moves
    exact vouched

theorem history_of_worldStep (step : (shopDiscipline deps).WorldStep allowed before after) :
    ∃ latest, after.history = latest ++ before.history ∧ latest.length ≤ 1 := by
  cases step with
  | call op request answer invariant permitted precondition answers =>
    rcases effect_of_answers answers with
      maps | ⟨row, capacities, pendingSince, coupon, rfl, inserts⟩
    · refine ⟨_, maps.history, ?_⟩
      rcases newEvents_short before request with none | ⟨event, only⟩
      · simp [none]
      · simp [only]
    · exact ⟨[_], inserts.history, le_refl _⟩
  | environment invariant moves =>
    obtain ⟨clock, -, rfl⟩ := moves
    exact ⟨[], rfl, by simp⟩

variable {ticketTypes : KeyedTable TicketTypeRow.id}
  {coupons : KeyedTable TicketCouponRow.id} {enabled : Bool} {clock : Int}
  {config : Config ticketSignature World Operation}

theorem vouched_of_reachable (reached : (ticketShop deps).Reachable
      (openingWorld ticketTypes coupons enabled clock) config) :
    Vouched deps config.world := by
  refine (shopDiscipline deps).property_of_reachable ticketShop_programsRespect
    (Vouched deps) shopInv_openingWorld ?_ vouched_of_worldStep reached
  intro order member
  exact (notMem_empty order member).elim

/-- Every paid order has its provenance, and the step that makes an order paid
is the reason for it unless there was one before. -/
theorem paid_has_provenance (reached : (ticketShop deps).Reachable
      (openingWorld ticketTypes coupons enabled clock) config) :
    (∀ order ∈ config.world.orders, order.status = .paid →
      Provenance deps config.world.history order) ∧
    ∀ next, (ticketShop deps).Step anyCall config next →
      ∀ order ∈ next.world.orders, order.status = .paid →
        Provenance deps config.world.history order ∨
          ∃ event, next.world.history = event :: config.world.history ∧
            Provenance deps [event] order := by
  refine ⟨fun order member paid =>
    vouched_of_reachable reached order member (.inl paid), ?_⟩
  intro next step order member paid
  have sound := ((shopDiscipline deps).run_sound ticketShop_programsRespect
    ((shopDiscipline deps).sound_initial shopInv_openingWorld) reached).2
  have reachedNext := Relation.ReflTransGen.tail reached step
  have provenance := vouched_of_reachable reachedNext order member (.inl paid)
  have moved := ((shopDiscipline deps).sound_step ticketShop_programsRespect sound step).1
  rcases (Relation.reflGen_iff _ _ _).mp moved with same | worldStep
  · exact .inl (same ▸ provenance)
  · obtain ⟨latest, grows, short⟩ := history_of_worldStep worldStep
    rw [grows] at provenance
    rcases provenance_append provenance with recent | earlier
    · right
      rcases latest with _ | ⟨event, _ | ⟨other, rest⟩⟩
      · rcases recent with ⟨coupon, free⟩ | ⟨_, _, processed, _⟩ | ⟨_, approved⟩
        · exact (not_mem_nil free.ordered).elim
        · exact (not_mem_nil processed).elim
        · exact (not_mem_nil approved).elim
      · exact ⟨event, grows, recent⟩
      · simp at short
    · exact .inl earlier

/-- How far an order has come. -/
def LpTicketOrderStatus.stage : LpTicketOrderStatus → Nat
  | .pending => 0
  | .expired => 1
  | .paid | .needsReview => 2
  | .refunded => 3

structure Advances (row current : TicketOrderRow) : Prop extends Continues row current where
  stage : row.status.stage ≤ current.status.stage
  intent : ∀ id, row.paymentIntentId = some id → current.paymentIntentId = some id

/-- From every state of every run on, an order stays in the table as it was ordered, never goes
back to an earlier stage, and keeps its payment intent. -/
def OrdersAdvance (deps : AppDeps) : Prop :=
  ∀ ticketTypes coupons enabled clock config later,
    (ticketShop deps).Reachable (openingWorld ticketTypes coupons enabled clock) config →
      (ticketShop deps).RunWhere anyCall config later →
        ∀ row ∈ config.world.orders, ∃ current ∈ later.world.orders, Advances row current

theorem Advances.trans {first second third : TicketOrderRow} (left : Advances first second)
    (right : Advances second third) : Advances first third :=
  ⟨left.toContinues.trans right.toContinues, left.stage.trans right.stage,
    fun id isIntent => right.intent id (left.intent id isIntent)⟩

theorem RowMove.advances {request : Call} {row current : TicketOrderRow}
    (move : RowMove before request row current) : Advances row current := by
  refine ⟨move.continues, ?_, fun id isIntent => ?_⟩
  · cases move with
    | kept | labelled | intended => exact le_rfl
    | settled isOpen =>
      unfold TicketOrderRow.isOpen at isOpen
      unfold World.settledRow
      dsimp only
      split <;> cases isStatus : row.status <;> simp_all [LpTicketOrderStatus.stage]
    | expired inStatus | approved inStatus => simp [inStatus, LpTicketOrderStatus.stage]
    | reviewed live | refunded live =>
      cases isStatus : row.status <;>
        simp_all [TicketOrderRow.isOpen, LpTicketOrderStatus.stage]
  · cases move with
    | intended unknown => rw [unknown] at isIntent; cases isIntent
    | settled | reviewed => simp [World.settledRow, isIntent]
    | _ => exact isIntent

theorem ordersAdvance : OrdersAdvance deps := by
  intro ticketTypes coupons enabled clock config later reached run row member
  have sound := ((shopDiscipline deps).run_sound ticketShop_programsRespect
    ((shopDiscipline deps).sound_initial shopInv_openingWorld) reached).2
  refine (shopDiscipline deps).property_of_run ticketShop_programsRespect
    (fun world => ∃ current ∈ world.orders, Advances row current) sound
    ⟨row, member, .refl row, le_rfl, fun _ isIntent => isIntent⟩ ?_ run
  rintro before after step ⟨current, currentMem, advances⟩
  cases step with
  | call op request answer invariant permitted precondition answers =>
    rcases effect_of_answers answers with maps | ⟨_, _, _, _, rfl, inserts⟩
    · exact ⟨_, maps.mem_orders.mpr ⟨current, currentMem, rfl⟩,
        advances.trans (rowMove before request current).advances⟩
    · exact ⟨current, inserts.mem_orders.mpr (.inl currentMem), advances⟩
  | environment invariant moves =>
    obtain ⟨clock, -, rfl⟩ := moves
    exact ⟨current, currentMem, advances⟩

instance (request : Call) : Inhabited (Answer request) := by
  cases request <;> first | exact inferInstance | exact ⟨HoldOutcome.idTaken⟩

variable (orderId : String)

/-- Nothing throws, Stripe answers with `session`, and new orders are named. -/
def outside (session : CheckoutSession) : (request : Call) → Answer request
  | .throws => false
  | .newOrderId => orderId
  | .canAcceptOrder _ => true
  | .verifyStripeSignature => true
  | .createCheckoutSession _ => some session
  | .getCheckoutSession _ => some session
  | _ => default

def liveShop : AppDeps where
  stripe := some ⟨true⟩

def dayPass (capacity : Option Nat) : TicketTypeRow where
  id := "day"
  name := "Day"
  priceJpy := 1000
  capacity
  dayLabel := ""
  maxPerOrder := 1
  active := true
  createdAt := 0
  updatedAt := 0

def dayPassShop (capacity : Option Nat) : World :=
  openingWorld ⟨[dayPass capacity], by simp⟩ .empty true 0

def paidSession : CheckoutSession where
  id := "cs_live_" ++ orderId
  url := some "pay"
  paymentStatus := some "paid"
  clientReferenceId := some orderId
  amountTotal := some 1000
  currency := some "jpy"
  paymentIntentId := some ("pi_" ++ orderId)
  livemode := some true

abbrev Moves := List (Move ticketSignature World Operation)

/-- An operation starts and goes through its first `count` calls, alone. -/
def runs (op : Operation) (count : Nat) (orderId : String) : Moves :=
  .start op :: List.replicate count (.call 0 (outside orderId (paidSession orderId)))

def places : Moves :=
  runs (.checkout { items := [⟨"day", some 1⟩] }) 10 orderId

def completed : Operation :=
  .webhook
    { type := "checkout.session.completed", livemode := some true
      session := paidSession orderId, metadataOrderId := none
      charge := ⟨"", none, "", none, 0⟩ }

theorem paid_has_provenance_dayPass :
    ∃ (config : Config ticketSignature World Operation) (order : TicketOrderRow),
      order ∈ config.world.orders ∧ order.status = .paid ∧
        Provenance liveShop config.world.history order := by
  obtain ⟨config, reached, paid⟩ :=
    (openReferee (ticketShop liveShop) fun _ _ => trivial).exists_reachable_of_play
      (places "A" ++ runs (completed "A") 6 "A") (dayPassShop (some 1))
      (fun world => world.orders.rows.any fun order => order.status = .paid)
      (by simp [places, runs]) (by decide)
  simp only [any_eq_true, decide_eq_true_eq] at paid
  obtain ⟨order, member, isPaid⟩ := paid
  exact ⟨config, order, member, isPaid, (paid_has_provenance reached).1 order member isPaid⟩

end DubEcosystem.LpTickets
