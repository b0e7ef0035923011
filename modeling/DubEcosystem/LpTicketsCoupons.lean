import DubEcosystem.LpTicketsCapacity

/-!
# LP tickets: the ceiling of a coupon

An order under a coupon is free and paid from the start, so it is never pending and never
expires.  Its tickets count until it is refunded, and nothing but the insertion adds to
them.
-/

namespace DubEcosystem.LpTickets

open Interleaving KeyedTable List

variable {deps : AppDeps} {world before after : World} {request : Call}
  {row current : TicketOrderRow}

structure WithinCeiling (world : World) : Prop where
  ceiling : ∀ coupon ∈ world.coupons,
    world.usedBy coupon.id (world.clock - pendingHoldMs) ≤ coupon.maxUses
  orders : ∀ row ∈ world.orders, ∀ couponId, row.couponId = some couponId →
    isHeld row (world.clock - pendingHoldMs) = true →
      row.amountJpy = 0 ∧ ∃ coupon ∈ world.coupons, coupon.id = couponId ∧
        ∃ item, row.items = [item] ∧ item.ticketTypeId = coupon.ticketTypeId

def TicketCouponRow.IsGoodAt (coupon : TicketCouponRow) (moment : Int) : Prop :=
  coupon.active = true ∧ ∀ expiry, coupon.expiresAt = some expiry → moment < expiry

/-- In every state, each coupon is within its ceiling, and whichever step inserts an order
under a coupon finds it good at the moment that it is judged by. -/
def CouponsKept (deps : AppDeps) (judgedAt : World → TicketOrderRow → Int) (start : World) : Prop :=
  ∀ config, (ticketShop deps).Reachable start config → WithinCeiling config.world ∧
      ∀ next, (ticketShop deps).Step anyCall config next →
        ∀ row ∈ next.world.orders, (∀ old ∈ config.world.orders, old.id ≠ row.id) →
          ∀ couponId, row.couponId = some couponId →
            ∃ coupon ∈ config.world.coupons, coupon.id = couponId ∧
              coupon.IsGoodAt (judgedAt config.world row)

/-- Coupons stay what they were made for; a new one has an id of its own. -/
structure KeepsCoupons (before after : World) : Prop where
  kept : ∀ coupon ∈ before.coupons, ∃ later ∈ after.coupons, later.id = coupon.id ∧
    later.ticketTypeId = coupon.ticketTypeId
  new : ∀ later ∈ after.coupons,
    (∃ coupon ∈ before.coupons, coupon.id = later.id ∧ coupon.maxUses = later.maxUses) ∨
      ∀ coupon ∈ before.coupons, coupon.id ≠ later.id

theorem KeepsCoupons.of_eq (same : after.coupons = before.coupons) : KeepsCoupons before after where
  kept coupon member := ⟨coupon, same ▸ member, rfl, rfl⟩
  new later member := .inl ⟨later, same ▸ member, rfl, rfl⟩

theorem keepsCoupons_of_insert {coupon : TicketCouponRow} :
    KeepsCoupons world (world.insertCoupon coupon).2 := by
  unfold World.insertCoupon
  split
  · exact .of_eq rfl
  split
  · exact .of_eq rfl
  · rename_i inserted success
    constructor
    · intro old member
      exact ⟨old, (mem_insert? success).mpr (.inl member), rfl, rfl⟩
    · intro later member
      rcases (mem_insert? success).mp member with old | rfl
      · exact .inl ⟨later, old, rfl, rfl⟩
      · exact .inr (insert?_eq_some success).2

theorem keepsCoupons_of_toggle {id : String} {active : Bool}
    {updatedAt : Int} : KeepsCoupons world (world.setCouponActive id active updatedAt).2 := by
  constructor
  · intro coupon member
    have updated : (if decide (coupon.id = id) then
        { coupon with active := active, updatedAt := updatedAt } else coupon) ∈
        world.coupons.update (fun coupon => coupon.id = id)
          (fun coupon => { coupon with active := active, updatedAt := updatedAt })
          fun _ => rfl :=
      mem_update.mpr ⟨coupon, member, rfl⟩
    refine ⟨_, updated, ?_⟩
    split
    · exact ⟨rfl, rfl⟩
    · exact ⟨rfl, rfl⟩
  · intro later member
    have updated : later ∈ world.coupons.update (fun coupon => coupon.id = id)
        (fun coupon => { coupon with active := active, updatedAt := updatedAt })
        fun _ => rfl := member
    obtain ⟨coupon, old, rfl⟩ := mem_update.mp updated
    refine .inl ⟨coupon, old, ?_⟩
    split
    · exact ⟨rfl, rfl⟩
    · exact ⟨rfl, rfl⟩

variable {answer : Answer request}

theorem keepsCoupons_of_answers (answers : ticketMachine.Answers request before answer after) :
    KeepsCoupons before after := by
  cases request with
  | insertCoupon coupon =>
    obtain ⟨-, rfl⟩ := Prod.mk.inj answers
    exact keepsCoupons_of_insert
  | setCouponActive id active updatedAt =>
    cases answers
    exact keepsCoupons_of_toggle
  | insertTicketType row =>
    obtain ⟨-, rfl⟩ := Prod.mk.inj answers
    split <;> exact .of_eq rfl
  | issueFulfilment orderId tickets outbox =>
    cases answers
    unfold World.issueFulfilment
    split <;> exact .of_eq rfl
  | insertOrderIfAvailable row capacities pendingSince =>
    obtain ⟨-, rfl⟩ := Prod.mk.inj answers
    split
    · exact .of_eq rfl
    split
    · exact .of_eq rfl
    split <;> exact .of_eq rfl
  | _ =>
    cases answers
    exact .of_eq rfl

def TicketOrderRow.takes (couponId : String) (row : TicketOrderRow) : Nat :=
  if row.couponId = some couponId ∧ row.status ≠ .refunded then row.quantity else 0

structure UnderCoupon (world : World) (row : TicketOrderRow) (couponId : String) : Prop where
  free : row.amountJpy = 0
  closed : row.isOpen = false
  line : ∃ coupon ∈ world.coupons, coupon.id = couponId ∧
    ∃ item, row.items = [item] ∧ item.ticketTypeId = coupon.ticketTypeId

structure CouponInv (world : World) : Prop where
  orders : ∀ row ∈ world.orders, ∀ couponId, row.couponId = some couponId →
    UnderCoupon world row couponId
  ceiling : ∀ coupon ∈ world.coupons,
    world.orders.total (TicketOrderRow.takes coupon.id) ≤ coupon.maxUses

theorem isHeld_of_closed (closed : row.isOpen = false) (since : Int) :
    isHeld row since = true ↔ row.status ≠ .refunded := by
  cases status : row.status <;> simp_all [TicketOrderRow.isOpen, isHeld]

theorem usedBy_eq_takes (inv : CouponInv world) (couponId : String) (since : Int) :
    world.usedBy couponId since = world.orders.total (TicketOrderRow.takes couponId) := by
  unfold World.usedBy KeyedTable.total
  congr 1
  apply map_congr_left
  intro row member
  unfold TicketOrderRow.takes
  by_cases named : row.couponId = some couponId
  · have held := isHeld_of_closed (inv.orders row member couponId named).closed since
    simp only [named, true_and, held]
  · simp only [named, false_and, if_false]

theorem CouponInv.withinCeiling (inv : CouponInv world) : WithinCeiling world where
  ceiling coupon member := by
    rw [usedBy_eq_takes inv]
    exact inv.ceiling coupon member
  orders row member couponId named _ :=
    let under := inv.orders row member couponId named
    ⟨under.free, under.line⟩

theorem RowMove.takes_le (move : RowMove before request row current)
    (closed : ∀ couponId, row.couponId = some couponId → row.isOpen = false)
    (couponId : String) : current.takes couponId ≤ row.takes couponId := by
  have same := move.continues
  by_cases named : row.couponId = some couponId
  · have isClosed := closed couponId named
    have notBack : current.status ≠ .refunded → row.status ≠ .refunded := by
      cases move with
      | kept | labelled stripeSessionId paymentMethod preview | intended unknown => exact id
      | settled isOpen => simp [isClosed] at isOpen
      | expired isPending => simp [TicketOrderRow.isOpen, isPending] at isClosed
      | reviewed live =>
        intro _ refunded
        rcases live with isOpen | paid
        · simp [isClosed] at isOpen
        · rw [paid] at refunded
          cases refunded
      | refunded settled => exact fun still => (still rfl).elim
      | approved inReview reason =>
        intro _ refunded
        rw [inReview] at refunded
        cases refunded
    unfold TicketOrderRow.takes
    rw [same.couponId, same.quantity]
    by_cases refunded : current.status = .refunded
    · simp [refunded]
    · simp [refunded, notBack refunded]
  · simp [TicketOrderRow.takes, same.couponId, named]

variable {couponId : String}

theorem UnderCoupon.keep (under : UnderCoupon before row couponId)
    (keeps : KeepsCoupons before after) (continues : Continues row current) :
    UnderCoupon after current couponId where
  free := continues.amountJpy.trans under.free
  closed := continues.closed under.closed
  line := by
    obtain ⟨coupon, member, named, item, items, sameType⟩ := under.line
    obtain ⟨later, laterMem, laterId, laterType⟩ := keeps.kept coupon member
    exact ⟨later, laterMem, laterId.trans named, item, continues.items.trans items,
      sameType.trans laterType.symm⟩

/-- A coupon that no order can name yet has no uses. -/
theorem takes_eq_zero (inv : CouponInv world)
    (unknown : ∀ coupon ∈ world.coupons, coupon.id ≠ couponId) :
    world.orders.total (TicketOrderRow.takes couponId) = 0 := by
  unfold KeyedTable.total
  apply sum_eq_zero
  intro share member
  obtain ⟨row, rowMem, rfl⟩ := List.mem_map.mp member
  unfold TicketOrderRow.takes
  rw [if_neg]
  rintro ⟨named, -⟩
  obtain ⟨coupon, couponMem, isCoupon, -⟩ := (inv.orders row rowMem couponId named).line
  exact unknown coupon couponMem isCoupon

/-- Uses that did not grow stay within the ceilings of the coupons that there are. -/
theorem CouponInv.ceiling_of_le (inv : CouponInv before) (keeps : KeepsCoupons before after)
    (le : ∀ couponId, after.orders.total (TicketOrderRow.takes couponId) ≤
      before.orders.total (TicketOrderRow.takes couponId)) :
    ∀ coupon ∈ after.coupons,
      after.orders.total (TicketOrderRow.takes coupon.id) ≤ coupon.maxUses := by
  intro later member
  apply (le later.id).trans
  rcases keeps.new later member with ⟨coupon, couponMem, sameId, sameUses⟩ | unknown
  · rw [← sameId, ← sameUses]
    exact inv.ceiling coupon couponMem
  · rw [takes_eq_zero inv unknown]
    exact Nat.zero_le _

theorem Maps.couponInv (maps : Maps before after request)
    (keeps : KeepsCoupons before after) (inv : CouponInv before) : CouponInv after where
  orders := by
    intro row member couponId named
    obtain ⟨old, oldMem, rfl⟩ := maps.mem_orders.mp member
    have continues := (rowMove before request old).continues
    exact (inv.orders old oldMem couponId (continues.couponId.symm.trans named)).keep keeps
      continues
  ceiling := by
    apply inv.ceiling_of_le keeps
    intro couponId
    rw [maps.orders, total_map]
    apply total_le_total
    intro old oldMem
    apply (rowMove before request old).takes_le
    intro couponId named
    exact (inv.orders old oldMem couponId named).closed

/-- What the statement that inserts an order under a coupon has checked. -/
structure Admitted (world : World) (row : TicketOrderRow) (couponId : String)
    (since : Int) : Prop where
  coupon : ∃ coupon ∈ world.coupons, coupon.id = couponId ∧
    coupon.IsGoodAt row.createdAt ∧
    (∃ item, row.items = [item] ∧ item.ticketTypeId = coupon.ticketTypeId) ∧
    world.usedBy coupon.id since + row.quantity ≤ coupon.maxUses

variable {coupon : Option TicketCouponRow}

theorem admitted_of_admitOrder {since : Int} (admits : world.admitOrder row since = some coupon)
    (named : row.couponId = some couponId) : Admitted world row couponId since := by
  unfold World.admitOrder at admits
  rw [named] at admits
  simp only [] at admits
  split at admits
  · cases admits
  rename_i found lookup
  split at admits
  · rename_i fits
    obtain ⟨member, sameId⟩ := find?_eq_some.mp lookup
    simp only [World.couponFits, decide_eq_true_eq] at fits
    obtain ⟨active, single, sameType, unexpired, room⟩ := fits
    obtain ⟨item, items⟩ := length_eq_one_iff.mp single
    refine ⟨found, member, sameId, ⟨active, ?_⟩, ⟨item, items, ?_⟩, room⟩
    · intro expiry expires
      simpa [expires] using unexpired
    · simpa [items] using sameType
  · cases admits

theorem Inserts.couponInv {capacities : Capacities} {pendingSince : Int}
    (inserts : Inserts before after row capacities pendingSince coupon)
    (insertable : Insertable before row capacities pendingSince)
    (keeps : KeepsCoupons before after) (sameCoupons : after.coupons = before.coupons)
    (inv : CouponInv before) : CouponInv after where
  orders := by
    intro other member couponId named
    rcases inserts.mem_orders.mp member with old | rfl
    · exact (inv.orders other old couponId named).keep keeps (.refl other)
    · obtain ⟨found, foundMem, sameId, -, line, -⟩ :=
        (admitted_of_admitOrder inserts.admitted named).coupon
      obtain ⟨paid, free⟩ := insertable.coupon (by simp [named])
      refine ⟨free, by simp [TicketOrderRow.isOpen, paid], ?_⟩
      exact ⟨found, sameCoupons ▸ foundMem, sameId, line⟩
  ceiling := by
    intro later laterMem
    rw [sameCoupons] at laterMem
    rw [total_insert? inserts.inserted]
    by_cases named : row.couponId = some later.id
    · obtain ⟨found, foundMem, sameId, -, -, room⟩ :=
        (admitted_of_admitOrder inserts.admitted named).coupon
      obtain rfl := eq_of_key_eq foundMem laterMem sameId
      rw [usedBy_eq_takes inv] at room
      have share : row.takes found.id ≤ row.quantity := by
        unfold TicketOrderRow.takes
        split
        · exact le_refl _
        · exact Nat.zero_le _
      omega
    · have share : row.takes later.id = 0 := by simp [TicketOrderRow.takes, named]
      have within := inv.ceiling later laterMem
      omega

theorem couponInv_of_answers (pre : Precondition deps request before)
    (answers : ticketMachine.Answers request before answer after)
    (inv : CouponInv before) : CouponInv after := by
  have keeps := keepsCoupons_of_answers answers
  rcases effect_of_answers answers with
    maps | ⟨row, capacities, pendingSince, coupon, rfl, inserts⟩
  · exact maps.couponInv keeps inv
  · have sameCoupons : after.coupons = before.coupons := by
      obtain ⟨-, rfl⟩ := Prod.mk.inj answers
      split
      · rfl
      split
      · rfl
      split <;> rfl
    exact inserts.couponInv pre keeps sameCoupons inv

theorem good_of_step {config next : Config ticketSignature World Operation}
    (step : (ticketShop deps).Step anyCall config next) (member : row ∈ next.world.orders)
    (isNew : ∀ old ∈ config.world.orders, old.id ≠ row.id)
    (named : row.couponId = some couponId) :
    ∃ coupon ∈ config.world.coupons, coupon.id = couponId ∧ coupon.IsGoodAt row.createdAt := by
  cases step with
  | start op startable | stop thread => exact (isNew row member rfl).elim
  | environment moves =>
    obtain ⟨clock, -, rfl⟩ := moves
    exact (isNew row member rfl).elim
  | call op request following answer moved permitted answers =>
    rcases effect_of_answers answers with
      maps | ⟨inserted, capacities, pendingSince, coupon, rfl, inserts⟩
    · obtain ⟨old, oldMem, rfl⟩ := maps.mem_orders.mp member
      exact (isNew old oldMem (World.rowAfter_id _ _ old).symm).elim
    · rcases inserts.mem_orders.mp member with old | rfl
      · exact (isNew row old rfl).elim
      · obtain ⟨found, foundMem, sameId, good, -⟩ :=
          (admitted_of_admitOrder inserts.admitted named).coupon
        exact ⟨found, foundMem, sameId, good⟩

/-- Coupons stay within their ceilings, and are judged by the time that the order was made
out at. -/
theorem couponsKept_createdAt (deps : AppDeps) (ticketTypes : KeyedTable TicketTypeRow.id)
    (coupons : KeyedTable TicketCouponRow.id) (enabled : Bool) (clock : Int) :
    CouponsKept deps (fun _ row => row.createdAt)
      (openingWorld ticketTypes coupons enabled clock) := by
  intro config reached
  have inv : CouponInv config.world := by
    refine (shopDiscipline deps).property_of_reachable ticketShop_programsRespect
      CouponInv shopInv_openingWorld ?_ ?_ reached
    · constructor
      · intro row member
        exact (notMem_empty row member).elim
      · intro coupon _
        exact Nat.zero_le coupon.maxUses
    · intro before after step inv
      cases step with
      | call op request answer invariant permitted precondition answers =>
        exact couponInv_of_answers precondition answers inv
      | environment invariant moves =>
        obtain ⟨clock, -, rfl⟩ := moves
        exact ⟨fun row member couponId named =>
          let under := inv.orders row member couponId named
          ⟨under.free, under.closed, under.line⟩, inv.ceiling⟩
  exact ⟨inv.withinCeiling, fun next step row member isNew couponId named =>
    good_of_step step member isNew named⟩

/-- A coupon for one day pass that expires at `expiry`. -/
def invitation (expiry : Int) : TicketCouponRow where
  id := "cpn_1"
  code := "INVITED"
  ticketTypeId := "day"
  maxUses := 1
  expiresAt := some expiry
  active := true
  createdBy := "user_1"
  createdAt := 0
  updatedAt := 0

def invitationShop (expiry : Int) : World :=
  openingWorld ⟨[dayPass none], by simp⟩ ⟨[invitation expiry], by simp⟩ true 0

/-- A checkout that is held up for a second after it has looked at the coupon, and then
goes on up to the insertion. -/
def redeemsLate : Moves :=
  runs (.checkout { items := [⟨"day", some 1⟩], couponCode := some "INVITED" }) 5 "A" ++
    waits 1000 :: List.replicate 3 (.call 0 (outside "A" (paidSession "A")))

/-- By the clock of the insertion, a coupon may have expired. -/
theorem not_couponsKept_clock :
    ¬CouponsKept liveShop (fun world _ => world.clock) (invitationShop 500) := by
  intro kept
  let referee := openReferee (ticketShop liveShop) fun _ _ => trivial
  obtain ⟨config, next, reached, step, inserted⟩ :=
    referee.exists_step_of_play redeemsLate (.call 0 (outside "A" (paidSession "A")))
      (invitationShop 500)
      (fun before after => before.orders.rows = [] ∧
        before.coupons.rows = [invitation 500] ∧ before.clock = 1000 ∧
          after.orders.rows.any fun row => row.couponId = some "cpn_1")
      (by
        simp only [redeemsLate, runs, waits, mem_append, mem_cons,
          mem_replicate, reduceCtorEq, and_false, or_false, false_or,
          Move.environment.injEq]
        rintro moved rfl world
        exact ⟨_, by simp, rfl⟩) (by decide)
  simp only [decide_eq_true_eq, any_eq_true] at inserted
  obtain ⟨noOrders, onlyCoupon, late, row, member, named⟩ := inserted
  have isNew : ∀ old ∈ config.world.orders, old.id ≠ row.id := by
    intro old oldMem
    rw [mem_def, noOrders] at oldMem
    exact absurd oldMem not_mem_nil
  obtain ⟨coupon, couponMem, -, -, unexpired⟩ :=
    (kept config reached).2 next step row member isNew "cpn_1" named
  rw [mem_def, onlyCoupon, mem_singleton] at couponMem
  subst couponMem
  have early : config.world.clock < 500 := unexpired 500 rfl
  omega

end DubEcosystem.LpTickets
