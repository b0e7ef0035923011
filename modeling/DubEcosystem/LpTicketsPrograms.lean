import DubEcosystem.LpTicketsSettle

/-!
# LP tickets: the operations obey the discipline

Each operation issues its calls under the preconditions of the shop, whatever
the others do in between.
-/

namespace DubEcosystem.LpTickets

open Interleaving List

variable {deps : AppDeps} {op : Operation} {world : World}

variable {types : List TicketTypeRow} {coupon : Option TicketCouponRow}
  {inputs : List CheckoutItemInput} {items : List LpTicketOrderItem}

theorem ticketTypeIds_of_priced (priced : List.Forall₂ (Priced types coupon) inputs items) :
    items.map LpTicketOrderItem.ticketTypeId = inputs.map CheckoutItemInput.ticketTypeId := by
  induction priced with
  | nil => rfl
  | cons item _ ih => simp [item.ticketTypeId, ih]

variable {item : LpTicketOrderItem}

theorem known_of_priced (priced : List.Forall₂ (Priced types coupon) inputs items)
    (member : item ∈ items) :
    ∃ row ∈ types, row.id = item.ticketTypeId := by
  induction priced with
  | nil => cases member
  | cons head _ ih =>
    rcases mem_cons.mp member with rfl | member
    · exact head.known
    · exact ih member

/-- Only a coupon makes an order free. -/
theorem orderAmount_ne_zero (priced : List.Forall₂ (Priced types none) inputs items)
    (valid : ValidItems inputs) (nonempty : inputs ≠ []) :
    orderAmount items ≠ 0 := by
  cases priced with
  | nil => exact (nonempty rfl).elim
  | @cons input item inputs items head rest =>
    have price : 0 < item.unitPriceJpy := Nat.pos_of_ne_zero (head.costs rfl)
    have quantity : 0 < item.quantity := by
      rw [head.quantity]
      exact valid.positive input (by simp)
    have positive := Nat.mul_pos price quantity
    simp only [orderAmount, map_cons, sum_cons]
    omega

theorem orderAmount_eq_zero {coupon : TicketCouponRow}
    (priced : List.Forall₂ (Priced types (some coupon)) inputs items) :
    orderAmount items = 0 := by
  induction priced with
  | nil => rfl
  | @cons input item inputs items head _ ih =>
    have free : item.unitPriceJpy = 0 := head.free (by simp)
    simp only [orderAmount, map_cons, sum_cons, free] at ih ⊢
    omega

theorem capacitiesOf_get (member : item ∈ items) :
    (capacitiesOf types items).get item.ticketTypeId =
      (types.find? fun row => row.id = item.ticketTypeId).bind TicketTypeRow.capacity := by
  induction items with
  | nil => cases member
  | cons head rest ih =>
    by_cases named : item.ticketTypeId = head.ticketTypeId
    · simp [capacitiesOf, Capacities.get, named]
    · have inRest : item ∈ rest := by
        rcases mem_cons.mp member with rfl | inRest
        · exact (named rfl).elim
        · exact inRest
      have skipped : (item.ticketTypeId == head.ticketTypeId) = false := by
        simp [named]
      rw [← ih inRest]
      simp [capacitiesOf, Capacities.get, lookup_cons, skipped]

variable {clientKey : Option String} {preview : Bool}

/-- What a checkout inserts meets the preconditions of the insertion. -/
theorem insertable_checkoutRow {id : String} {now since : Int}
    (priced : List.Forall₂ (Priced types coupon) inputs items)
    (valid : ValidItems inputs) (nonempty : inputs ≠ [])
    (kept : ∀ type ∈ types, KeepsType type world)
    (bound : since ≤ world.clock - pendingHoldMs) :
    Insertable world (checkoutRow id items now clientKey coupon preview)
      (capacitiesOf types items) since where
  distinct := by
    show (items.map LpTicketOrderItem.ticketTypeId).Nodup
    rw [ticketTypeIds_of_priced priced]
    exact valid.distinct
  noIntent := rfl
  noReview := rfl
  status := by
    by_cases free : orderAmount items = 0
    · right
      refine ⟨by simp [checkoutRow, free], free, ?_⟩
      cases coupon with
      | none => exact (orderAmount_ne_zero priced valid nonempty free).elim
      | some coupon => simp [checkoutRow]
    · left
      simp [checkoutRow, free]
  coupon := by
    intro given
    cases coupon with
    | none => exact (given rfl).elim
    | some coupon =>
      have free := orderAmount_eq_zero priced
      exact ⟨if_pos free, free⟩
  quantity := rfl
  since := bound
  capacities := by
    intro item member
    have inItems : item ∈ items := member
    obtain ⟨row, rowMem, rowId⟩ := known_of_priced priced inItems
    cases found : types.find? fun row => row.id = item.ticketTypeId with
    | none =>
      have missing := List.find?_eq_none.mp found row rowMem
      simp [rowId] at missing
    | some type =>
      have typeMem := mem_of_find?_eq_some found
      have typeId : type.id = item.ticketTypeId := by
        simpa using find?_some found
      obtain ⟨current, currentMem, currentId, same⟩ := kept type typeMem
      refine ⟨current, currentMem, currentId.trans typeId, ?_⟩
      rw [capacitiesOf_get inItems, found]
      rcases same with same | changed
      · exact .inl same.symm
      · exact .inr (typeId ▸ changed)

theorem keepsType_evolve {later : World} (evolves : Evolves world later)
    (kept : ∀ type ∈ types, KeepsType type world) :
    ∀ type ∈ types, KeepsType type later := by
  intro type member
  obtain ⟨current, currentMem, currentId, same⟩ := kept type member
  obtain ⟨last, lastMem, lastId, lastSame⟩ := evolves.ticketTypes current currentMem
  refine ⟨last, lastMem, lastId.trans currentId, ?_⟩
  rcases same with same | changed
  · rcases lastSame with lastSame | changed
    · exact .inl (lastSame.trans same)
    · exact .inr (currentId ▸ changed)
  · exact .inr (evolves.history.subset changed)

variable (row : TicketOrderRow)

theorem startPayment_free : (startPayment row).Issues (IsFree deps) := by
  refine ⟨fun _ _ => trivial, fun created => ?_⟩
  simp only [Prog.bind]
  split
  · exact ⟨fun _ _ => trivial, fun _ => trivial⟩
  · exact ⟨fun _ _ => trivial, fun _ => trivial⟩

theorem markPreview_free : (markPreview row).Issues (IsFree deps) := by
  unfold markPreview
  split
  · have asked : (perform (.markOrderPreview row.id)).Issues (IsFree deps) :=
      ⟨fun _ _ => trivial, fun _ => trivial⟩
    exact (attempt_free asked).bind fun _ => trivial
  · trivial

theorem afterHold_steady (held : HoldOutcome) : Steady deps (afterHold deps row held) := by
  cases held with
  | ok =>
    apply (steady_of_free (markPreview_free row)).bind
    intro _
    split
    · exact (onPaid_steady row.id).bind fun _ => steady_pure _
    · split
      · exact steady_pure _
      · exact steady_of_free (startPayment_free row)
  | _ => exact steady_pure _

theorem holdSeats_respects {now : Int} (priced : List.Forall₂ (Priced types coupon) inputs items)
    (valid : ValidItems inputs) (nonempty : inputs ≠ [])
    (kept : ∀ type ∈ types, KeepsType type world) :
    (shopDiscipline deps).Respects op (holdSeats deps clientKey types items now coupon preview)
      (fun _ _ => True) world := by
  unfold holdSeats
  apply respects_free_call
  · exact fun _ _ => trivial
  intro id minted toMinted
  apply Discipline.Respects.bind pendingSince_respects
  rintro since sinceWorld _ ⟨bound, toSince⟩
  apply respects_call_of
  · intro later _ moves
    have clock := moves.clock
    apply insertable_checkoutRow priced valid nonempty
    · exact keepsType_evolve ((toMinted.trans toSince).trans moves) kept
    · omega
  · intro held _ moved _ _ _ _ _
    exact afterHold_steady _ held op moved

theorem acceptsOrder_free (preview : Bool) : (acceptsOrder preview).Issues (IsFree deps) := by
  cases preview with
  | true => trivial
  | false =>
    exact pendingSince_free.bind fun _ => ⟨fun _ _ => trivial, fun _ => trivial⟩

theorem withinClientHold_free (clientKey : Option String) (items : List LpTicketOrderItem) :
    (withinClientHold clientKey items).Issues (IsFree deps) := by
  cases clientKey with
  | none => trivial
  | some key =>
    unfold withinClientHold
    simp only []
    split
    · trivial
    · exact pendingSince_free.bind fun _ =>
        ⟨fun _ _ => trivial, fun _ => trivial⟩

variable {input : CheckoutInput}

theorem checkoutPriced_respects {now : Int} (valid : ValidItems input.items)
    (nonempty : input.items ≠ [])
    (kept : ∀ type ∈ types, KeepsType type world) :
    (shopDiscipline deps).Respects op (checkoutPriced deps input types now coupon preview)
      (fun _ _ => True) world := by
  unfold checkoutPriced
  cases priced : priceItems types coupon input.items with
  | mk items bad =>
    simp only []
    split
    · exact fun _ _ _ => trivial
    rename_i noBad
    obtain rfl := not_not.mp noBad
    split
    · exact fun _ _ _ => trivial
    apply Discipline.Respects.bind (respects_of_free_evolves (acceptsOrder_free preview))
    intro accepts afterAccepts _ toAccepts
    split
    · exact fun _ _ _ => trivial
    apply Discipline.Respects.bind
      (respects_of_free_evolves (withinClientHold_free input.clientKey items))
    intro within afterWithin _ toWithin
    split
    · exact fun _ _ _ => trivial
    exact holdSeats_respects (priceItems_priced priced) valid nonempty
      (keepsType_evolve (toAccepts.trans toWithin) kept)

theorem checkoutParsed_respects (valid : ValidItems input.items) (nonempty : input.items ≠ []) :
    (shopDiscipline deps).Respects op (checkoutParsed deps input preview)
      (fun _ _ => True) world := by
  unfold checkoutParsed
  apply respects_call_of
  · exact fun _ _ _ => trivial
  intro (types : List TicketTypeRow) reading read _ _ answers _ _
  have kept : ∀ type ∈ types, KeepsType type read := by
    cases answers
    exact fun type member => ⟨type, member, rfl, .inl rfl⟩
  clear answers
  apply respects_free_call
  · exact fun _ _ => trivial
  intro now clocked toClocked
  have keptNow := keepsType_evolve toClocked kept
  rcases input.couponCode with _ | code
  · exact checkoutPriced_respects valid nonempty keptNow
  have looked : (usableCoupon code types now).Issues (IsFree deps) :=
    ⟨fun _ _ => trivial, fun _ => trivial⟩
  apply Discipline.Respects.bind (respects_of_free_evolves looked)
  rintro (_ | coupon) later _ toLater
  · exact fun _ _ _ => trivial
  show (shopDiscipline deps).Respects op
    (withCoupon deps input types now preview (some coupon)) _ later
  unfold withCoupon
  simp only []
  split
  · exact fun _ _ _ => trivial
  · exact checkoutPriced_respects valid nonempty (keepsType_evolve toLater keptNow)

theorem isPreview_free (enabled : Bool) (token : Option String) :
    (isPreview enabled token).Issues (IsFree deps) := by
  rcases token with _ | token
  · trivial
  · cases enabled with
    | true => trivial
    | false => exact ⟨fun _ _ => trivial, fun _ => trivial⟩

theorem checkout_respects (body : CheckoutBody) :
    (shopDiscipline deps).Respects op (checkout deps body) (fun _ _ => True) world := by
  unfold checkout
  apply respects_free_call
  · exact fun _ _ => trivial
  intro enabled settings _
  apply Discipline.Respects.bind
    (respects_of_free (isPreview_free enabled body.previewToken) settings)
  intro preview later _ _
  split
  · exact fun _ _ _ => trivial
  split
  · exact fun _ _ _ => trivial
  · rename_i input parsed
    obtain ⟨valid, nonempty⟩ := parseCheckout_valid parsed
    exact checkoutParsed_respects valid nonempty

theorem approve_steady (userId id : String) : Steady deps (approve userId id) := by
  apply steady_call
  · exact fun _ _ => trivial
  rintro (_ | order)
  · exact steady_pure _
  simp only []
  split
  · exact steady_pure _
  rename_i undisputed
  apply steady_call
  · exact fun _ _ => trivial
  intro now
  apply steady_call
  · exact fun _ _ => .inr ⟨rfl, ⟨userId, rfl⟩, order, rfl, undisputed⟩
  intro approved
  unfold afterApprove
  split
  · exact steady_pure _
  · apply (onPaid_steady id).bind
    intro _
    exact steady_call (fun _ _ => trivial) fun _ => steady_pure _

def Finds (found : Option TicketOrderRow) (later : World) : Prop :=
  ∀ order, found = some order → Known later order

theorem Finds.evolve {found : Option TicketOrderRow} {later : World}
    (finds : Finds found world) (evolves : Evolves world later) :
    Finds found later :=
  fun order same => (finds order same).evolve evolves

theorem finds_none : Finds none world := by
  rintro order ⟨⟩

theorem respects_lookup {request : Call} {α : Type}
    {next : Answer request → Program α} {post : α → World → Prop}
    {found : Answer request → Option TicketOrderRow}
    (free : IsFree deps request)
    (selects : ∀ {answer before after}, ticketMachine.Answers request before answer after →
        after = before ∧ ∀ order, found answer = some order → order ∈ before.orders)
    (rest : ∀ answer moved, Evolves world moved → Finds (found answer) moved →
      (shopDiscipline deps).Respects op (next answer) post moved) :
    (shopDiscipline deps).Respects op (perform request >>= next) post world := by
  apply respects_call_of
  · intro later inv _
    exact free later inv
  · intro answer later moved toLater _ answers _ evolved
    obtain ⟨rfl, member⟩ := selects answers
    exact rest answer moved toLater fun order same => .of_mem (member order same)

variable {answer : Option TicketOrderRow}

theorem getOrder_selects {id : String} {before after : World}
    (answers : ticketMachine.Answers (.getOrder id) before answer after) :
    after = before ∧ ∀ order, answer = some order → order ∈ before.orders := by
  cases answers
  exact ⟨rfl, fun order found => (KeyedTable.find?_eq_some.mp found).1⟩

theorem getOrderBySession_selects {sessionId : String} {before after : World}
    (answers : ticketMachine.Answers (.getOrderBySession sessionId) before answer after) :
    after = before ∧ ∀ order, answer = some order → order ∈ before.orders := by
  cases answers
  exact ⟨rfl, fun order found => mem_of_find?_eq_some found⟩

variable (sessionId : String)

theorem findConfirmed_respects (orderId : String) :
    (shopDiscipline deps).Respects op (findConfirmed sessionId orderId) Finds
      world := by
  unfold findConfirmed
  split
  · exact respects_lookup (fun _ _ => trivial) getOrderBySession_selects
      fun found moved _ finds later _ evolves => finds.evolve evolves
  · exact respects_lookup (fun _ _ => trivial) getOrder_selects
      fun found moved _ finds later _ evolves => finds.evolve evolves

variable {order : TicketOrderRow}

theorem confirmSession_respects (known : Known world order) :
    (shopDiscipline deps).Respects op (confirmSession deps order sessionId)
      (fun _ _ => True) world := by
  unfold confirmSession
  apply respects_free_call
  · exact fun _ _ => trivial
  intro fetched moved toMoved
  rcases fetched with _ | session
  · exact fun _ _ _ => trivial
  apply Discipline.Respects.bind (settle_respects false (known.evolve toMoved))
  intro outcome later _ _
  have reread : (perform (.getOrder order.id)).Issues (IsFree deps) :=
    ⟨fun _ _ => trivial, fun _ => trivial⟩
  exact respects_of_free reread later

theorem confirm_respects (orderId : String) :
    (shopDiscipline deps).Respects op (confirm deps sessionId orderId) (fun _ _ => True) world := by
  unfold confirm
  split
  · exact fun _ _ _ => trivial
  apply Discipline.Respects.bind (findConfirmed_respects sessionId orderId)
  rintro (_ | order) later _ finds
  · exact fun _ _ _ => trivial
  simp only []
  split
  · apply Discipline.Respects.bind
      (attempt_respects (confirmSession_respects sessionId (finds order rfl)))
    exact fun _ _ _ _ _ _ _ => trivial
  · exact fun _ _ _ => trivial

theorem disputeClosed_steady (order : TicketOrderRow) (obj : ChargeObject) :
    Steady deps (disputeClosed order obj) := by
  unfold disputeClosed
  split
  · apply steady_call
    · exact fun _ _ => trivial
    intro now
    exact steady_call (fun _ _ => .inr ⟨obj.id, rfl⟩) fun _ => steady_pure _
  · split
    · apply steady_call
      · exact fun _ _ => trivial
      intro now
      apply steady_call
      · exact fun _ _ => .inl ⟨rfl, rfl, obj.id, _, rfl⟩
      intro approved
      rcases approved with _ | _
      · exact steady_pure _
      · exact onPaid_steady order.id
    · exact steady_pure _

theorem chargeRefunded_free (order : TicketOrderRow) (obj : ChargeObject) :
    (chargeRefunded order obj).Issues (IsFree deps) := by
  unfold chargeRefunded
  split
  · exact ⟨fun _ _ => trivial, fun now => ⟨fun _ _ => .inl rfl, fun _ => trivial⟩⟩
  · trivial

theorem findCharged_respects (paymentIntent : Option String) :
    (shopDiscipline deps).Respects op (findCharged paymentIntent)
      (fun found later => ∀ order, found = some order → Closed later order.id)
      world := by
  unfold findCharged
  split
  · rintro later _ _ order ⟨⟩
  split
  · rintro later _ _ order ⟨⟩
  apply respects_call_of
  · exact fun _ _ _ => trivial
  intro found later moved _ inv answers _ _
  cases answers
  intro final _ evolves order same
  have member : order ∈ later.orders := mem_of_find?_eq_some same
  have intended := find?_some same
  have settled : order.isOpen = false := by
    apply (inv order member).intent
    intro unknown
    simp [unknown] at intended
  exact ((Known.of_mem member).closed settled).evolve evolves

theorem applyCharge_respects (type : String) (obj : ChargeObject) :
    (shopDiscipline deps).Respects op (applyCharge type obj) (fun _ _ => True) world := by
  unfold applyCharge
  apply Discipline.Respects.bind (findCharged_respects obj.paymentIntent)
  rintro (_ | order) later _ closed
  · exact fun _ _ _ => trivial
  simp only []
  split
  · apply respects_call_of
    · intro reached _ evolves
      exact .inl ⟨rfl, (closed order rfl).evolve evolves, obj.id, rfl⟩
    · exact fun _ _ _ _ _ _ _ _ _ _ _ => trivial
  · split
    · exact disputeClosed_steady order obj op later
    · exact respects_of_free (chargeRefunded_free order obj) later

theorem findOrder_respects (orderId : Option String) :
    (shopDiscipline deps).Respects op (findOrder orderId) Finds world := by
  unfold findOrder
  split
  · exact fun _ _ _ => finds_none
  split
  · exact fun _ _ _ => finds_none
  · exact respects_lookup (fun _ _ => trivial) getOrder_selects
      fun found moved _ finds later _ evolves => finds.evolve evolves

theorem findBySession_respects {byId : Option TicketOrderRow} (finds : Finds byId world) :
    (shopDiscipline deps).Respects op (findBySession sessionId byId) Finds
      world := by
  unfold findBySession
  split
  · exact fun later _ evolves => finds.evolve evolves
  split
  · exact fun _ _ _ => finds_none
  · exact respects_lookup (fun _ _ => trivial) getOrderBySession_selects
      fun found moved _ finds later _ evolves => finds.evolve evolves

theorem withPaymentMethod_free (s : CheckoutSession) :
    (withPaymentMethod deps s).Issues (IsFree deps) := by
  unfold withPaymentMethod
  split
  · trivial
  · exact ⟨fun _ _ => trivial, fun _ => trivial⟩

theorem applySession_respects (event : WebhookEvent) :
    (shopDiscipline deps).Respects op (applySession deps event) (fun _ _ => True) world := by
  unfold applySession
  apply Discipline.Respects.bind (findOrder_respects _)
  intro byId reading _ findsById
  apply Discipline.Respects.bind (findBySession_respects event.session.id findsById)
  rintro (_ | order) later _ finds
  · exact fun _ _ _ => trivial
  simp only []
  have completed : (if event.session.paymentStatus = some "paid" then
      withPaymentMethod deps event.session
      else pure event.session).Issues (IsFree deps) := by
    split
    · exact withPaymentMethod_free event.session
    · trivial
  apply Discipline.Respects.bind (respects_of_free_evolves completed)
  intro session afterMethod _ toMethod
  apply Discipline.Respects.bind (settle_respects _ ((finds order rfl).evolve toMethod))
  exact fun _ _ _ _ _ _ _ => trivial

theorem webhook_respects (event : WebhookEvent) :
    (shopDiscipline deps).Respects op (webhook deps event) (fun _ _ => True) world := by
  unfold webhook
  apply respects_free_call
  · exact fun _ _ => trivial
  intro verified checked _
  split
  · exact fun _ _ _ => trivial
  split
  · exact fun _ _ _ => trivial
  split
  · exact fun _ _ _ => trivial
  split
  · apply Discipline.Respects.bind (applyCharge_respects event.type event.charge)
    exact fun _ _ _ _ _ _ _ => trivial
  · apply Discipline.Respects.bind (applySession_respects event)
    exact fun _ _ _ _ _ _ _ => trivial

/-- A loop keeps the discipline when each round does, from what is known of its
order. -/
theorem forEachOrder_respects (round : TicketOrderRow → Program Unit)
    (holds : World → TicketOrderRow → Prop)
    (kept : ∀ {before after order}, Evolves before after → holds before order → holds after order)
    (rounds : ∀ {order later}, holds later order →
      (shopDiscipline deps).Respects op (round order) (fun _ _ => True) later)
    {orders : List TicketOrderRow} (initial : ∀ order ∈ orders, holds world order) :
    (shopDiscipline deps).Respects op (forEachOrder round orders)
      (fun _ later => Evolves world later) world := by
  induction orders generalizing world with
  | nil => exact fun _ _ evolves => evolves
  | cons order rest ih =>
    unfold forEachOrder
    apply Discipline.Respects.bind
      (respects_evolves (attempt_respects (rounds (initial order (by simp)))))
    rintro outcome later _ ⟨-, toLater⟩
    have remaining : ∀ other ∈ rest, holds later other := fun other member =>
      kept toLater (initial other (by simp [member]))
    exact (ih remaining).consequence fun _ _ evolved => toLater.trans evolved

theorem reconcileOrder_respects (known : Known world order) :
    (shopDiscipline deps).Respects op (reconcileOrder deps order) (fun _ _ => True) world := by
  unfold reconcileOrder
  apply respects_free_call
  · exact fun _ _ => trivial
  intro fetched moved toMoved
  rcases fetched with _ | session
  · exact fun _ _ _ => trivial
  apply Discipline.Respects.bind (settle_respects false (known.evolve toMoved))
  exact fun _ _ _ _ _ _ _ => trivial

theorem backfillPaymentIntent_respects {livemode : Bool} (closed : Closed world order.id) :
    (shopDiscipline deps).Respects op (backfillPaymentIntent livemode order)
      (fun _ _ => True) world := by
  unfold backfillPaymentIntent
  apply respects_free_call
  · exact fun _ _ => trivial
  intro (fetched : Option CheckoutSession) moved toMoved
  split
  · exact fun _ _ _ => trivial
  split
  · exact fun _ _ _ => trivial
  apply respects_call_of
  · intro later _ evolves
    exact closed.evolve (toMoved.trans evolves)
  · exact fun _ _ _ _ _ _ _ _ _ _ _ => trivial

theorem reconcile_respects : (shopDiscipline deps).Respects op (reconcile deps) (fun _ _ => True)
      world := by
  unfold reconcile
  apply Discipline.Respects.bind (respects_of_free pendingSince_free world)
  intro since afterSince _ _
  apply respects_free_call
  · exact fun _ _ => trivial
  intro expired afterExpired _
  split
  · exact fun _ _ _ => trivial
  rename_i stripe configured
  apply respects_free_call
  · exact fun _ _ => trivial
  intro now clocked _
  apply respects_call_of
  · exact fun _ _ _ => trivial
  intro rows later listing _ _ answers _ _
  have known : ∀ order ∈ rows, Known listing order := by
    cases answers
    intro order member
    have sorted := mem_of_mem_take member
    rw [oldestFirst, mem_insertionSort] at sorted
    exact .of_mem (mem_filter.mp sorted).1
  clear answers
  apply Discipline.Respects.bind (forEachOrder_respects (reconcileOrder deps) Known
      (fun evolves known => known.evolve evolves) reconcileOrder_respects known)
  intro _ afterRows _ _
  apply respects_call_of
  · exact fun _ _ _ => trivial
  intro missing _ listed _ _ answers _ _
  have closed : ∀ order ∈ missing, Closed listed order.id := by
    cases answers
    intro order member
    have sorted := mem_of_mem_take member
    rw [oldestFirst, mem_insertionSort] at sorted
    obtain ⟨stored, selected⟩ := mem_filter.mp sorted
    apply (Known.of_mem stored).closed
    simp only [decide_eq_true_eq] at selected
    rcases selected.1 with paid | review
    · simp [TicketOrderRow.isOpen, paid]
    · simp [TicketOrderRow.isOpen, review]
  clear answers
  apply Discipline.Respects.consequence
    (forEachOrder_respects (backfillPaymentIntent stripe.livemode)
      (fun later order => Closed later order.id)
      (fun evolves closed => closed.evolve evolves)
      backfillPaymentIntent_respects closed)
  exact fun _ _ _ => trivial

theorem sweep_steady : Steady deps sweep := by
  have fulfils : ∀ rows, Steady deps (fulfillAll rows) := by
    intro rows
    induction rows with
    | nil => exact steady_pure ()
    | cons order rest ih => exact (onPaid_steady order.id).bind fun _ => ih
  apply steady_call
  · exact fun _ _ => trivial
  intro full
  have reads : Steady deps (sweptSince full) := by
    unfold sweptSince
    split
    · exact steady_pure _
    · exact steady_call (fun _ _ => trivial) fun _ => steady_pure _
  apply reads.bind
  intro since
  exact steady_call (fun _ _ => trivial) fulfils

theorem createType_free (input : TicketTypeInput) : (createType input).Issues (IsFree deps) :=
  ⟨fun _ _ => trivial, fun _ => ⟨fun _ _ => trivial, fun _ =>
    ⟨fun _ _ => trivial, fun _ => trivial⟩⟩⟩

theorem patchType_free (id : String) (patch : TicketTypeInput) :
    (patchType id patch).Issues (IsFree deps) := by
  refine ⟨fun _ _ => trivial, fun current => ?_⟩
  rcases current with _ | current
  · trivial
  · exact ⟨fun _ _ => trivial, fun _ => ⟨fun _ _ => trivial, fun _ => trivial⟩⟩

theorem tryCouponCodes_free (userId : String) (input : CouponInput) (now : Int) (attempts : Nat) :
    (tryCouponCodes userId input now attempts).Issues (IsFree deps) := by
  induction attempts with
  | zero => trivial
  | succ attempts ih =>
    refine ⟨fun _ _ => trivial, fun minted =>
      ⟨fun _ _ => trivial, fun inserted => ?_⟩⟩
    rcases inserted with _ | _
    · exact ih
    · trivial

theorem createCoupon_free (userId : String) (input : CouponInput) :
    (createCoupon userId input).Issues (IsFree deps) := by
  refine ⟨fun _ _ => trivial, fun now => ⟨fun _ _ => trivial, fun type => ?_⟩⟩
  rcases type with _ | type
  · trivial
  · exact tryCouponCodes_free userId input now 3

theorem setCouponActive_free (id : String) (active : Bool) :
    (setCouponActive id active).Issues (IsFree deps) :=
  ⟨fun _ _ => trivial, fun _ => ⟨fun _ _ => trivial, fun _ => trivial⟩⟩

/-- A shop that has sold nothing yet. -/
def openingWorld (ticketTypes : KeyedTable TicketTypeRow.id)
    (coupons : KeyedTable TicketCouponRow.id) (enabled : Bool) (clock : Int) :
    World where
  ticketTypes
  coupons
  orders := .empty
  tickets := .empty
  outbox := .empty
  enabled
  clock
  history := []

theorem shopInv_openingWorld {ticketTypes : KeyedTable TicketTypeRow.id}
    {coupons : KeyedTable TicketCouponRow.id} {enabled : Bool} {clock : Int} :
    ShopInv (openingWorld ticketTypes coupons enabled clock) := by
  intro row member
  exact (KeyedTable.notMem_empty row member).elim

theorem ticketShop_programsRespect : (shopDiscipline deps).ProgramsRespect := by
  have discarded : ∀ {α : Type} {op : Operation} {world : World} {program : Program α},
      (shopDiscipline deps).Respects op program (fun _ _ => True) world →
        (shopDiscipline deps).Respects op (discard program) (fun _ _ => True)
          world := by
    intro α op world program respects
    exact respects.bind fun _ _ _ _ _ _ _ => trivial
  intro running op world _ _
  cases op with
  | checkout body => exact discarded (checkout_respects body)
  | approve userId id =>
    exact discarded (approve_steady userId id _ world)
  | confirm sessionId orderId =>
    exact discarded (confirm_respects sessionId orderId)
  | webhook event => exact discarded (webhook_respects event)
  | reconcile => exact reconcile_respects
  | fulfill orderId => exact onPaid_steady orderId _ world
  | sweep => exact sweep_steady _ world
  | createType input =>
    exact discarded (respects_of_free (createType_free input) world)
  | patchType id patch =>
    exact discarded (respects_of_free (patchType_free id patch) world)
  | createCoupon userId input =>
    exact discarded (respects_of_free (createCoupon_free userId input) world)
  | setCouponActive id active =>
    exact discarded (respects_of_free (setCouponActive_free id active) world)
  | setEnabled enabled =>
    have set : (perform (.setTicketEnabled enabled)).Issues (IsFree deps) :=
      ⟨fun _ _ => trivial, fun _ => trivial⟩
    exact respects_of_free set world

end DubEcosystem.LpTickets
