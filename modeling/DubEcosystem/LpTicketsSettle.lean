import DubEcosystem.LpTicketsDiscipline

/-!
# LP tickets: settling obeys the discipline

Two kinds of fact survive what the other operations do in between: a bound by
an instant that was read before, and what an order was when it was read.
-/

namespace DubEcosystem.LpTickets

open Interleaving

variable {deps : AppDeps} {op : Operation} {world : World}

def IsFree (deps : AppDeps) (request : Call) : Prop :=
  ∀ world, ShopInv world → Precondition deps request world

variable {α : Type} {program : Program α}

theorem respects_of_free (free : program.Issues (IsFree deps)) (world : World) :
    (shopDiscipline deps).Respects op program (fun _ _ => True) world :=
  Discipline.respects_of_issues free world

variable {frame : World → Prop}

/-- A program without preconditions ends with whatever the tables never lose. -/
theorem respects_of_free_keeping
    (kept : ∀ {before after}, Evolves before after → frame before → frame after)
    (free : program.Issues (IsFree deps)) (holds : frame world) :
    (shopDiscipline deps).Respects op program (fun _ later => frame later)
      world := by
  have respects : (shopDiscipline deps).Respects op program (fun _ _ => True) world :=
    respects_of_free free world
  have framed := respects.frame kept kept holds
  exact framed.consequence fun _ _ ended => ended.2

variable {post : α → World → Prop}

/-- When a program ends, the tables have evolved from where it began. -/
theorem respects_evolves (respects : (shopDiscipline deps).Respects op program post world) :
    (shopDiscipline deps).Respects op program
      (fun value later => post value later ∧ Evolves world later) world :=
  respects.frame (fun moves since => Evolves.trans since moves)
    (fun moves since => Evolves.trans since moves) (Evolves.refl world)

theorem respects_of_free_evolves (free : program.Issues (IsFree deps)) :
    (shopDiscipline deps).Respects op program (fun _ later => Evolves world later) world :=
  respects_of_free_keeping (fun moves since => Evolves.trans since moves) free (Evolves.refl world)

variable {request : Call} {next : Answer request → Program α}

/-- A single call with its precondition and what it establishes. -/
theorem respects_call_of
    (pre : ∀ later, ShopInv later → Evolves world later → Precondition deps request later)
    (rest : ∀ answer later moved, Evolves world later → ShopInv later →
      ticketMachine.Answers request later answer moved → ShopInv moved → Evolves later moved →
          (shopDiscipline deps).Respects op (next answer) post moved) :
    (shopDiscipline deps).Respects op (perform request >>= next) post world := by
  intro later inv moves
  exact ⟨pre later inv moves, fun answer moved answers movedInv evolved =>
    rest answer later moved moves inv answers movedInv evolved⟩

/-- A call that needs no precondition, and of which only the answer is used. -/
theorem respects_free_call (free : IsFree deps request)
    (rest : ∀ answer moved, Evolves world moved →
      (shopDiscipline deps).Respects op (next answer) post moved) :
    (shopDiscipline deps).Respects op (perform request >>= next) post world := by
  apply respects_call_of
  · intro later inv _
    exact free later inv
  · intro answer later moved toLater _ _ _ evolved
    exact rest answer moved (toLater.trans evolved)

/-- A threshold from the clock stays below every later threshold. -/
theorem pendingSince_respects : (shopDiscipline deps).Respects op pendingSince (fun since later =>
        since ≤ later.clock - pendingHoldMs ∧ Evolves world later) world := by
  apply respects_evolves
  apply respects_call_of
  · exact fun _ _ _ => trivial
  · intro now later moved _ _ answers _ _
    cases answers
    intro final _ (moves : Evolves later final)
    have clock := moves.clock
    show later.clock - pendingHoldMs ≤ final.clock - pendingHoldMs
    omega

theorem pendingSince_free : pendingSince.Issues (IsFree deps) :=
  ⟨fun _ _ => trivial, fun _ => trivial⟩

theorem attempt_respects
    (respects : (shopDiscipline deps).Respects op program (fun _ _ => True) world) :
    (shopDiscipline deps).Respects op (attempt program) (fun _ _ => True) world :=
  Discipline.Respects.attempt (fun _ _ => trivial)
    (by intro before answer after answers; exact answers)
    respects fun _ => trivial

theorem attempt_free (free : program.Issues (IsFree deps)) :
    (attempt program).Issues (IsFree deps) :=
  free.attempt fun _ _ => trivial

/-- From any state on, and for any operation, the program keeps to the discipline. -/
def Steady {α : Type} (deps : AppDeps) (program : Program α) : Prop :=
  ∀ op world, (shopDiscipline deps).Respects op program (fun _ _ => True) world

variable {β : Type}

theorem steady_of_free (free : program.Issues (IsFree deps)) : Steady deps program :=
  fun _ world => respects_of_free free world

theorem steady_pure (value : α) : Steady deps (pure value : Program α) :=
  fun _ _ _ _ _ => trivial

theorem Steady.bind {continuation : α → Program β} (first : Steady deps program)
    (second : ∀ value, Steady deps (continuation value)) :
    Steady deps (program >>= continuation) := by
  intro op world
  apply Discipline.Respects.bind (first op world)
  intro value later _ _
  exact second value op later

theorem steady_call (free : IsFree deps request) (rest : ∀ answer, Steady deps (next answer)) :
    Steady deps (perform request >>= next) := by
  intro op world
  apply respects_free_call free
  intro answer later _
  exact rest answer op later

theorem Steady.attempt (steady : Steady deps program) : Steady deps (attempt program) :=
  fun op world => attempt_respects (steady op world)

/-- A steady program ends with whatever the tables never lose. -/
theorem Steady.keeping (steady : Steady deps program)
    (kept : ∀ {before after}, Evolves before after → frame before → frame after)
    (holds : frame world) :
    (shopDiscipline deps).Respects op program (fun _ later => frame later) world := by
  have framed := (steady op world).frame kept kept holds
  exact framed.consequence fun _ _ ended => ended.2

theorem onPaid_steady (orderId : String) : Steady deps (onPaid orderId) := by
  have issues : Steady deps (do
      let found : Option TicketOrderRow ← perform (.getOrder orderId)
      issueTickets found) := by
    intro op world
    apply respects_call_of
    · exact fun _ _ _ => trivial
    intro found reading read _ _ answers _ _
    cases found with
    | none => exact fun _ _ _ => trivial
    | some order =>
      have known : Known read order := by
        obtain ⟨isFound, rfl⟩ := Prod.mk.inj answers
        exact .of_mem (KeyedTable.find?_eq_some.mp isFound).1
      clear answers
      simp only [issueTickets]
      split
      · exact fun _ _ _ => trivial
      apply respects_free_call
      · exact fun _ _ => trivial
      intro now clocked toClocked later _ moves
      constructor
      · exact ⟨order, now, known.evolve (toClocked.trans moves), rfl, rfl, rfl⟩
      · exact fun _ _ _ _ _ _ _ _ => trivial
  unfold onPaid fulfill
  exact issues.attempt.bind fun _ => steady_pure ()

variable {order : TicketOrderRow}

theorem Known.closed (known : Known world order) (closed : order.isOpen = false) :
    Closed world order.id := by
  obtain ⟨row, member, continues⟩ := known
  exact ⟨row, member, continues.id, continues.closed closed⟩

variable {s : CheckoutSession}

/-- A payload that does not pay an order settles nothing. -/
theorem Known.settledBy (known : Known world order) (unpaid : ¬ IsPayment deps s order.amountJpy) :
    SettledBy deps world order.id s := by
  obtain ⟨row, member, continues⟩ := known
  refine ⟨row, member, continues.id, fun payment => ?_⟩
  exact (unpaid (continues.amountJpy ▸ payment)).elim

/-- Whatever `markOrderPaid` answers, the order has left `pending` and
`expired` afterwards. -/
theorem closed_of_markOrderPaid {before after : World} {settlement : PaidSettlement} {cause : Cause}
    {answer : Option PaidOutcome} (known : Known before order)
    (answers : ticketMachine.Answers (.markOrderPaid order.id settlement cause) before answer after) :
    Closed after order.id := by
  obtain ⟨row, member, continues⟩ := known
  rcases effect_of_answers answers with maps | ⟨_, _, _, _, impossible, _⟩
  · refine ⟨_, maps.mem_orders.mpr ⟨row, member, rfl⟩,
      (before.rowAfter_id _ row).trans continues.id, ?_⟩
    by_cases isOpen : row.isOpen = true
    · simp [World.rowAfter, continues.id, isOpen]
    · simp [World.rowAfter, isOpen]
  · cases impossible

theorem isLate_free (order : TicketOrderRow) : (isLate order).Issues (IsFree deps) := by
  unfold isLate
  split
  · trivial
  · exact pendingSince_free.bind fun _ => trivial

theorem capacitySince_respects (late : Bool) :
    (shopDiscipline deps).Respects op (capacitySince late) (fun chosen later =>
        (∀ since, chosen = some since → since ≤ later.clock - pendingHoldMs) ∧
          Evolves world later) world := by
  apply respects_evolves
  cases late with
  | false =>
    rintro later _ _ since ⟨⟩
  | true =>
    apply Discipline.Respects.bind pendingSince_respects
    rintro since later _ ⟨bound, -⟩ final _ moves _ ⟨⟩
    have clock := moves.clock
    omega

theorem recordPaymentMethod_free (orderId : String) (method : Option String) :
    (recordPaymentMethod orderId method).Issues (IsFree deps) := by
  cases method with
  | none => trivial
  | some method =>
    have asked : (perform (.setOrderPaymentMethod orderId method)).Issues
        (IsFree deps) := ⟨fun _ _ => trivial, fun _ => trivial⟩
    exact (attempt_free asked).bind fun _ => trivial

theorem afterMarkPaid_steady (orderId : String) (method : Option String)
    (outcome : Option PaidOutcome) :
    Steady deps (afterMarkPaid orderId method outcome) := by
  have records := steady_of_free (@recordPaymentMethod_free deps orderId method)
  rcases outcome with _ | _ | _
  · exact steady_pure _
  · apply records.bind
    exact fun _ => (onPaid_steady orderId).bind fun _ => steady_pure _
  · exact records.bind fun _ => steady_pure _

theorem settlePaid_respects (known : Known world order) (payment : IsPayment deps s order.amountJpy) :
    (shopDiscipline deps).Respects op (settlePaid order s)
      (fun _ later => Closed later order.id) world := by
  unfold settlePaid
  apply Discipline.Respects.bind (respects_of_free_evolves (isLate_free order))
  intro late afterLate _ toLate
  apply respects_free_call
  · exact fun _ _ => trivial
  intro paidAt reading fromLate
  apply Discipline.Respects.bind (capacitySince_respects late)
  rintro chosen afterSince _ ⟨bound, toSince⟩
  have knownAfter := known.evolve ((toLate.trans fromLate).trans toSince)
  apply respects_call_of
  · intro later _ moves
    obtain ⟨row, member, continues⟩ := knownAfter.evolve moves
    refine ⟨⟨row, member, continues.id, s, rfl, ?_⟩, ?_⟩
    · exact continues.amountJpy ▸ payment
    · intro since chose
      have clock := moves.clock
      have bounded := bound since chose
      omega
  intro result later moved moves _ answers _ _
  have closed := closed_of_markOrderPaid (knownAfter.evolve moves) answers
  exact (afterMarkPaid_steady order.id s.paymentMethodType result).keeping
    (fun evolves closed => closed.evolve evolves) closed

theorem settleSession_respects (release : Bool) (known : Known world order) :
    (shopDiscipline deps).Respects op (settleSession deps order s release)
      (fun _ later => SettledBy deps later order.id s) world := by
  have unpaid : ¬ IsPayment deps s order.amountJpy →
      ∀ {program : Program SettleOutcome}, program.Issues (IsFree deps) →
        (shopDiscipline deps).Respects op program
          (fun _ later => SettledBy deps later order.id s) world := by
    intro notPayment program free
    exact respects_of_free_keeping (fun evolves settled => settled.evolve evolves)
      free (known.settledBy notPayment)
  unfold settleSession
  split
  · rename_i unconfigured
    refine unpaid ?_ (Prog.issues_done _ _)
    rintro ⟨⟨stripe, configured, -⟩, -, -, -⟩
    rw [unconfigured] at configured
    cases configured
  rename_i stripe configured
  split
  · rename_i otherMode
    refine unpaid ?_ (Prog.issues_done _ _)
    rintro ⟨⟨other, sameKey, mode⟩, -, -, -⟩
    rw [configured] at sameKey
    cases sameKey
    exact otherMode mode
  rename_i mode
  split
  · rename_i isClosed
    intro later _ moves
    exact ((known.closed isClosed).evolve moves).settledBy
  split
  · rename_i paid
    split
    · rename_i reason found
      have notPayment : ¬ IsPayment deps s order.amountJpy := by
        intro payment
        simp [mismatch, payment.currency, payment.amount] at found
      have wrong : reason = .amountMismatch ∨ reason = .currencyMismatch := by
        unfold mismatch at found
        split at found
        · exact .inr (Option.some.inj found).symm
        · split at found
          · exact .inl (Option.some.inj found).symm
          · cases found
      apply unpaid notPayment
      exact ⟨fun _ _ => .inr ⟨wrong, s, rfl⟩, fun _ => trivial⟩
    · rename_i matching
      have payment : IsPayment deps s order.amountJpy := by
        unfold mismatch at matching
        split at matching
        · cases matching
        · rename_i currency
          split at matching
          · cases matching
          · rename_i amount
            exact ⟨⟨stripe, configured, not_not.mp mode⟩, paid,
              not_not.mp currency, not_not.mp amount⟩
      exact (settlePaid_respects known payment).consequence fun _ _ closed => closed.settledBy
  · rename_i notPaid
    have notPayment : ¬ IsPayment deps s order.amountJpy :=
      fun payment => notPaid payment.paid
    apply unpaid notPayment
    split
    · exact ⟨fun _ _ => trivial, fun _ => trivial⟩
    · trivial

theorem settle_respects (release : Bool) (known : Known world order) :
    (shopDiscipline deps).Respects op (settle deps order s release) (fun _ _ => True) world := by
  unfold settle
  apply Discipline.Respects.bind (settleSession_respects release known)
  intro outcome settledWorld _ settled
  apply respects_call_of
  · intro later _ moves
    exact settled.evolve moves
  · exact fun _ _ _ _ _ _ _ _ _ _ _ => trivial

end DubEcosystem.LpTickets
