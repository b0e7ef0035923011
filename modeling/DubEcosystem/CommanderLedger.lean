import DubEcosystem.CommanderSystem

/-!
# commander-service: the phase ledger of a feature

The audit rows of a feature are to be a path of the flow that ends in its stored phase.  They
are as long as every move is written while the feature is in the phase that the move was
checked against; a move from a phase that was read earlier forks the path.
-/

namespace DubEcosystem.Commander

open Interleaving PortPrograms KeyedTable List

def Operation.movesFeatures : Operation → Bool
  | .transitionFeature _ _ _ _ => true
  | _ => false

/-- The rows lead along edges of the flow, with the approvals that these need. -/
def Leads (source : FeaturePhase) : List TransitionRow → FeaturePhase → Prop
  | [], target => target = source
  | row :: rest, target => row.fromPhase = source ∧
      IsMove row.fromPhase row.toPhase row.approvedByUser ∧ Leads row.toPhase rest target

/-- The audit rows of a feature, in the order in which they were committed. -/
def Store.ledger (store : Store) (featureId : String) : List TransitionRow :=
  store.transitions.rows.filter fun row => row.featureId = featureId

def Store.LedgersLead (store : Store) : Prop :=
  ∀ feature ∈ store.features, Leads INITIAL_PHASE (store.ledger feature.id) feature.phase

/-- A gated phase is entered with the approval of the user, which was given in the phase that
the feature is in. -/
def EntersApproved (before after : Store) : Prop :=
  ∀ feature ∈ before.features, ∀ later ∈ after.features, later.id = feature.id →
    later.phase ≠ feature.phase → later.phase.IsGated →
      ∃ row, after.ledger feature.id = before.ledger feature.id ++ [row] ∧
        row.fromPhase = feature.phase ∧ row.toPhase = later.phase ∧ row.approvedByUser = true

structure LedgerKept (runtime : Runtime)
    (condition : RunCondition commanderSignature Store Operation) (store : Store) : Prop where
  leads : ∀ config,
    (commanderSystem runtime Operation.movesFeatures).ReachableUnder condition store config →
      config.world.LedgersLead
  approved : ∀ config after,
    (commanderSystem runtime Operation.movesFeatures).ReachableUnder condition store config →
    (commanderSystem runtime Operation.movesFeatures).StepUnder condition config after →
      EntersApproved config.world after.world

/-- From any store whose ledgers lead to the stored phases they go on to do so, and gated
phases are entered with an approval. -/
def LedgersKept (condition : RunCondition commanderSignature Store Operation)
    (runtime : Runtime) : Prop :=
  ∀ store, store.LedgersLead → LedgerKept runtime condition store

/-- A move is written while the feature is in the phase that the move leaves. -/
def findsPhaseAsRead : RunCondition commanderSignature Store Operation where
  mayCall
    | .db (.advance row), store, _ =>
      ∀ feature ∈ store.features, feature.id = row.featureId → feature.phase = row.fromPhase
    | _, _, _ => True
  mayStop _ := True

def Call.Moves : Call → Prop
  | .db (.selectFeature _) => True
  | .db (.advance row) => IsMove row.fromPhase row.toPhase row.approvedByUser
  | .db _ => False
  | _ => True

theorem transitionFeature_moves (featureId target : String) (approvedByUser : Bool)
    (note : Option String) :
    Issues Call.Moves (transitionFeature featureId target approvedByUser note) := by
  apply Keeps.port_bind
  · exact trivial
  rintro (_ | feature) -
  · exact Keeps.pure
  simp only []
  split
  · exact Keeps.pure
  rename_i target _
  split
  · exact Keeps.pure
  rename_i moved isMoved
  have isMove : IsMove feature.phase target approvedByUser := by
    apply isMove_iff_transition.mpr
    rw [isMoved]
    unfold transition at isMoved
    split at isMoved
    · cases isMoved
    · split at isMoved
      · cases isMoved
      · exact isMoved.symm
  apply Keeps.port_bind
  · exact trivial
  intro now _
  apply Keeps.port_bind
  · exact trivial
  intro id _
  apply Keeps.port_bind
  · exact isMove
  exact fun _ _ => Keeps.pure

theorem system_moves (runtime : Runtime) :
    (commanderSystem runtime Operation.movesFeatures).Obeys Call.Moves := by
  apply commanderSystem_obeys
  intro op moves
  cases op with
  | transitionFeature featureId target approvedByUser note =>
    exact issues_silently (transitionFeature_moves featureId target approvedByUser note)
  | _ => cases moves

theorem Leads.append {source target : FeaturePhase} {rows : List TransitionRow}
    (leads : Leads source rows target) {row : TransitionRow} (isNext : row.fromPhase = target)
    (isMove : IsMove row.fromPhase row.toPhase row.approvedByUser) :
    Leads source (rows ++ [row]) row.toPhase := by
  induction rows generalizing source with
  | nil =>
    obtain rfl : target = source := leads
    exact ⟨isNext, isMove, rfl⟩
  | cons first rest ih => exact ⟨leads.1, leads.2.1, ih leads.2.2⟩

variable {store : Store} {row : TransitionRow}

/-- A move appends its row and sets the phase of its feature, or nothing happens. -/
theorem Store.advance_cases (store : Store) (row : TransitionRow) : (store.advance row).2 = store ∨
      ((store.advance row).2.transitions.rows = store.transitions.rows ++ [row] ∧
        ∀ later, later ∈ (store.advance row).2.features ↔ ∃ feature ∈ store.features,
          (if feature.id = row.featureId then
            { feature with phase := row.toPhase, updatedAt := row.createdAt }
          else feature) = later) := by
  unfold Store.advance
  split
  · split
    · exact .inl rfl
    · rename_i transitions inserted
      right
      refine ⟨(insert?_eq_some inserted).1, fun later => ?_⟩
      simp only [mem_update, decide_eq_true_eq]
  · exact .inl rfl

theorem Store.ledger_append {after : Store}
    (appended : after.transitions.rows = store.transitions.rows ++ [row]) (featureId : String) :
    after.ledger featureId =
      store.ledger featureId ++ if row.featureId = featureId then [row] else [] := by
  rw [Store.ledger, appended, filter_append, Store.ledger]
  by_cases isHere : row.featureId = featureId <;> simp [isHere]

theorem Store.LedgersLead.advance (leads : store.LedgersLead)
    (isMove : IsMove row.fromPhase row.toPhase row.approvedByUser)
    (asRead : ∀ feature ∈ store.features, feature.id = row.featureId →
      feature.phase = row.fromPhase) :
    (store.advance row).2.LedgersLead ∧ EntersApproved store (store.advance row).2 := by
  rcases store.advance_cases row with same | ⟨appended, isIn⟩
  · rw [same]
    refine ⟨leads, fun feature member later laterMem sameId differs => ?_⟩
    rw [eq_of_key_eq laterMem member sameId] at differs
    exact absurd rfl differs
  constructor
  · intro later laterMem
    obtain ⟨feature, member, rfl⟩ := (isIn later).mp laterMem
    rw [Store.ledger_append appended]
    by_cases isHere : feature.id = row.featureId
    · rw [if_pos isHere, if_pos isHere.symm]
      exact (leads feature member).append (asRead feature member isHere).symm isMove
    · rw [if_neg isHere, if_neg (Ne.symm isHere), append_nil]
      exact leads feature member
  · intro feature member later laterMem sameId differs isGated
    obtain ⟨old, oldMem, rfl⟩ := (isIn later).mp laterMem
    by_cases isHere : old.id = row.featureId
    · rw [if_pos isHere] at sameId isGated ⊢
      obtain rfl : old = feature := eq_of_key_eq oldMem member sameId
      refine ⟨row, ?_, (asRead old member isHere).symm, rfl, isMove.approved isGated⟩
      rw [Store.ledger_append appended, if_pos isHere.symm]
    · rw [if_neg isHere] at sameId differs
      rw [eq_of_key_eq oldMem member sameId] at differs
      exact absurd rfl differs

theorem entersApproved_refl (store : Store) : EntersApproved store store := by
  intro feature member later laterMem sameId differs
  rw [eq_of_key_eq laterMem member sameId] at differs
  exact absurd rfl differs

theorem ledgers_call {request : Call} {answer : Except CommanderError (Call.Result request)}
    {after : Store} {others : List (Operation × Prog commanderSignature Unit)}
    (moves : request.Moves) (mayCall : findsPhaseAsRead.mayCall request store others)
    (answers : commanderMachine.Answers request store answer after)
    (leads : store.LedgersLead) : after.LedgersLead ∧ EntersApproved store after := by
  cases request with
  | db statement =>
    cases statement with
    | selectFeature id =>
      rw [(answers_db answers).2]
      exact ⟨leads, entersApproved_refl store⟩
    | advance row =>
      rw [(answers_db answers).2]
      exact leads.advance moves mayCall
    | _ => exact moves.elim
  | _ =>
    rw [store_of_answers answers fun statement isDb => by cases isDb]
    exact ⟨leads, entersApproved_refl store⟩

theorem ledgers_keep (runtime : Runtime) :
    (commanderSystem runtime Operation.movesFeatures).Keeps findsPhaseAsRead Call.Moves
      Store.LedgersLead where
  call moves mayCall answers leads := (ledgers_call moves mayCall answers leads).1
  environment moves leads := moves ▸ leads

/-- Where every move is written in the phase that it leaves, the ledger leads to the stored
phase, and gated phases are entered with an approval. -/
theorem ledgersKept_ofFindsPhaseAsRead (runtime : Runtime) :
    LedgersKept findsPhaseAsRead runtime := by
  intro store initial
  have reached : ∀ {config}, (commanderSystem runtime Operation.movesFeatures).ReachableUnder
      findsPhaseAsRead store config → config.world.LedgersLead ∧ config.Obeys Call.Moves :=
    fun run => (ledgers_keep runtime).reached (system_moves runtime) initial run
  constructor
  · exact fun config run => (reached run).1
  · intro config after run step
    obtain ⟨leads, obeyed⟩ := reached run
    cases step with
    | start op startable | stop thread mayStop => exact entersApproved_refl _
    | call op request next answer moved mayCall answers =>
      have issues : (Prog.call request next).Issues Call.Moves :=
        obeyed (op, .call request next) (mem_append_right _ (.head _))
      exact (ledgers_call issues.1 mayCall answers leads).2
    | environment moves =>
      obtain rfl : _ = _ := moves
      exact entersApproved_refl _

def underReview : Store where
  features := KeyedTable.empty.insertOrIgnore ⟨"feat", "A feature", .demoReview, none, "0", "0"⟩
  transitions := KeyedTable.empty.insertOrIgnore
    ⟨"ptx", "feat", .demoBuilding, .demoReview, false, .system, none, "0"⟩
  tasks := .empty
  runs := .empty
  runEvents := .empty
  bundles := .empty

theorem underReview_leads : underReview.LedgersLead := by
  intro feature member
  obtain rfl := mem_singleton.mp member
  exact ⟨rfl, isMove_iff_transition.mpr rfl, rfl⟩

/-- The demo is rejected between the read and the write of its approval. -/
def approvedLate : List (Move commanderSignature Store Operation) :=
  [.start (.transitionFeature "feat" "staging_deployed" true none), .call 0 (numbered 1),
    .start (.transitionFeature "feat" "demo_rejected" false none)] ++
    List.replicate 4 (.call 0 (numbered 1)) ++ List.replicate 3 (.call 1 (numbered 2))

/-- A rejected demo is deployed with an approval that was given before the rejection. -/
theorem not_ledgersKept : ¬LedgersKept anyStep plainRuntime := by
  intro claimed
  obtain ⟨config, reached, forked⟩ :=
    (commanderReferee plainRuntime Operation.movesFeatures).exists_reachable_of_play approvedLate
      underReview
      (fun store => store.features.rows.any fun feature => feature.id = "feat" ∧
        (store.ledger "feat").map (fun row => (row.fromPhase, row.toPhase)) =
          [(.demoBuilding, .demoReview), (.demoReview, .demoRejected),
            (.demoReview, .stagingDeployed)])
      (by simp [approvedLate]) (by decide +kernel)
  have leads := (claimed underReview underReview_leads).leads config
    (reachableUnder_anyStep reached)
  obtain ⟨feature, member, isForked⟩ := any_eq_true.mp forked
  rw [decide_eq_true_eq] at isForked
  have path := leads feature member
  rw [isForked.1] at path
  obtain ⟨first, others, rows, -, isForked⟩ := map_eq_cons_iff.mp isForked.2
  obtain ⟨second, others, rfl, isSecond, isForked⟩ := map_eq_cons_iff.mp isForked
  obtain ⟨third, others, rfl, isThird, -⟩ := map_eq_cons_iff.mp isForked
  rw [rows] at path
  have continues : third.fromPhase = second.toPhase := path.2.2.2.2.1
  rw [(Prod.mk.inj isThird).1, (Prod.mk.inj isSecond).2] at continues
  cases continues

end DubEcosystem.Commander
