import DubEcosystem.PolicyGateGranter

/-!
# policy-gate: the cached granter refines the live one

A key is granted on a decision of identity-roster on that very user, organisation and
key, no older than its time to live.  When every answer is complete and tells what
holds, the cache makes no difference to what is granted.
-/

namespace DubEcosystem.PolicyGate

open List Function

variable {call : GranterCall} {granting : Granting}

/-- Every answer is complete and tells what holds. -/
def GranterCall.Truthful (truth : String → String → String → Bool) (call : GranterCall) : Prop :=
  ∀ i request, ∃ decisions, call.answer i request = .ok { decisions } ∧
    decisions.map AuthzDecision.allowed =
      request.checks.map (truth request.subjectUserId request.orgId)

def Exchange.Truthful (truth : String → String → String → Bool) (exchange : Exchange) : Prop :=
  ∀ userId orgId key decision, exchange.Says userId orgId key decision →
    decision.allowed = truth userId orgId key

variable {truth : String → String → String → Bool}

theorem exchangeOf_truthful (truthful : call.Truthful truth) (missIdx : List Nat) (i : Nat) :
    (exchangeOf call missIdx i).Truthful truth := by
  rintro userId orgId key decision ⟨rfl, rfl, response, answered, j, isKey, isDecision⟩
  obtain ⟨decisions, answers, agrees⟩ :=
    truthful i (checkRequest call (batchOf call missIdx i))
  have same : response = { decisions } := by
    have := answered.symm.trans answers
    exact Except.ok.inj this
  subst same
  have atJ := congrArg (fun verdicts => verdicts[j]?) agrees
  simp only [getElem?_map] at atJ
  rw [isDecision, show (checkRequest call (batchOf call missIdx i)).checks[j]? = some key
    from isKey] at atJ
  exact Option.some.inj atJ

/-- The key at the position is decided, or is to be asked about. -/
def Granting.Noted (granting : Granting) (i : Nat) : Prop :=
  (granting.allowed i).isSome ∨ i ∈ granting.missIdx

theorem lookUp_noted {permission : String} {i : Nat} :
    (lookUp call granting (permission, i)).Noted i ∧
      ∀ idx, granting.Noted idx → (lookUp call granting (permission, i)).Noted idx := by
  unfold lookUp Granting.Noted
  simp only []
  split
  · constructor
    · exact Or.inr (mem_append_right _ (.head _))
    · intro idx noted
      exact noted.imp_right fun member => mem_append_left _ member
  · constructor
    · simp
    · intro idx noted
      by_cases same : idx = i
      · subst same
        simp
      · simpa [update_of_ne same] using noted

theorem lookUpAll_noted {cache : AuthzDecisionCache} {i : Nat}
    (inRange : i < call.keys.length) : (lookUpAll call cache).Noted i := by
  have loop : ∀ (indexed : List (String × Nat)) (granting : Granting),
      (∀ idx, granting.Noted idx → (indexed.foldl (lookUp call) granting).Noted idx) ∧
        ∀ entry ∈ indexed, (indexed.foldl (lookUp call) granting).Noted entry.2 := by
    intro indexed
    induction indexed with
    | nil =>
      intro granting
      exact ⟨fun idx noted => noted, by simp⟩
    | cons head tail ih =>
      intro granting
      have here := @lookUp_noted call granting head.1 head.2
      have rest := ih (lookUp call granting head)
      refine ⟨fun idx noted => rest.1 idx (here.2 idx noted), ?_⟩
      exact forall_mem_cons.mpr ⟨rest.1 _ here.1, rest.2⟩
  apply (loop call.keys.zipIdx _).2 (call.keys[i], i)
  exact mk_mem_zipIdx_iff_getElem?.mpr (getElem?_eq_getElem inRange)

/-- The loop over complete decisions decides every position of the batch. -/
theorem recordDecisions_decides {i : Nat} {decisions : List AuthzDecision}
    (indexed : List (String × Nat))
    (complete : ∀ entry ∈ indexed, entry.2 < decisions.length) :
    (∀ idx, (granting.allowed idx).isSome →
      ((indexed.foldl (recordDecision call i decisions) granting).allowed idx).isSome) ∧
    ∀ entry ∈ indexed, ((indexed.foldl (recordDecision call i decisions)
      granting).allowed (granting.missIdx.getD (i + entry.2) 0)).isSome := by
  induction indexed generalizing granting with
  | nil => exact ⟨fun idx held => held, by simp⟩
  | cons head tail ih =>
    have inRange := complete head (.head _)
    have rest := @ih (recordDecision call i decisions granting head) fun entry member =>
      complete entry (.tail _ member)
    have updated : (recordDecision call i decisions granting head).allowed =
        update granting.allowed (granting.missIdx.getD (i + head.2) 0)
          (some decisions[head.2].allowed) := by
      simp [recordDecision, getElem?_eq_getElem inRange]
    rw [recordDecision_missIdx, updated] at rest
    constructor
    · intro idx held
      apply rest.1 idx
      by_cases same : idx = granting.missIdx.getD (i + head.2) 0
      · rw [same, update_self]
        rfl
      · rw [update_of_ne same]
        exact held
    · intro entry member
      rcases mem_cons.mp member with rfl | later
      · apply rest.1
        rw [update_self]
        rfl
      · exact rest.2 entry later

theorem askBatches_decides (truthful : call.Truthful truth) (starts : List Nat) :
    (askBatches call starts granting).2 = .ok () ∧
    (∀ idx, (granting.allowed idx).isSome →
      ((askBatches call starts granting).1.allowed idx).isSome) ∧
    ∀ i ∈ starts, ∀ j < MAX_BATCH_CHECKS, i + j < granting.missIdx.length →
      ((askBatches call starts granting).1.allowed (granting.missIdx.getD (i + j) 0)).isSome := by
  induction starts generalizing granting with
  | nil => exact ⟨rfl, fun idx held => held, by simp⟩
  | cons i later ih =>
    obtain ⟨decisions, answers, agrees⟩ :=
      truthful i (exchangeOf call granting.missIdx i).request
    have lengths : decisions.length =
        (exchangeOf call granting.missIdx i).request.checks.length := by
      simpa using congrArg List.length agrees
    have answered : (exchangeOf call granting.missIdx i).answer = .ok { decisions } :=
      answers
    have decided := @recordDecisions_decides call
      { granting with
        exchanges := granting.exchanges ++ [exchangeOf call granting.missIdx i] }
      i decisions (exchangeOf call granting.missIdx i).request.checks.zipIdx (by
        intro entry member
        rw [lengths]
        exact (List.getElem?_eq_some_iff.mp (mem_zipIdx_iff_getElem?.mp member)).1)
    have rest := @ih ((exchangeOf call granting.missIdx i).request.checks.zipIdx.foldl
      (recordDecision call i decisions)
      { granting with
        exchanges := granting.exchanges ++ [exchangeOf call granting.missIdx i] })
    unfold askBatches
    simp only [answered]
    rw [recordDecisions_missIdx] at rest
    refine ⟨rest.1, fun idx held => rest.2.1 idx (decided.1 idx held), ?_⟩
    intro start member j small inRange
    rcases mem_cons.mp member with rfl | isLater
    · apply rest.2.1
      have inBatch : j < (exchangeOf call granting.missIdx start).request.checks.length := by
        simp only [exchangeOf, checkRequest, batchOf, length_map, length_take, length_drop]
        omega
      exact decided.2 (_, j) (mk_mem_zipIdx_iff_getElem?.mpr (getElem?_eq_getElem inBatch))
    · exact rest.2.2 start isLater j small inRange

/-- Every position below the number of misses belongs to a batch. -/
theorem exists_batchStart {misses position : Nat} (inRange : position < misses) :
    ∃ i ∈ batchStarts misses, ∃ j < MAX_BATCH_CHECKS, i + j = position := by
  refine ⟨MAX_BATCH_CHECKS * (position / MAX_BATCH_CHECKS), ?_,
    position % MAX_BATCH_CHECKS, Nat.mod_lt _ (by decide), Nat.div_add_mod _ _⟩
  unfold batchStarts
  rw [mem_range']
  refine ⟨position / MAX_BATCH_CHECKS, ?_, by simp⟩
  unfold MAX_BATCH_CHECKS
  omega

/-- With complete answers the second loop decides every key. -/
theorem askBatches_total (truthful : call.Truthful truth) {cache : AuthzDecisionCache} {i : Nat}
    (inRange : i < call.keys.length) :
    ((askBatches call (batchStarts (lookUpAll call cache).missIdx.length)
      (lookUpAll call cache)).1.allowed i).isSome := by
  obtain ⟨-, kept, decided⟩ := @askBatches_decides call (lookUpAll call cache) truth
    truthful (batchStarts (lookUpAll call cache).missIdx.length)
  rcases @lookUpAll_noted call cache i inRange with held | missed
  · exact kept i held
  · obtain ⟨position, inMisses, rfl⟩ := mem_iff_getElem.mp missed
    obtain ⟨start, isStart, j, small, rfl⟩ := exists_batchStart inMisses
    have here := decided start isStart j small inMisses
    simpa [getD_eq_getElem?_getD, getElem?_eq_getElem inMisses] using here

variable {cache : AuthzDecisionCache}

/-- A call on a cache of truthful exchanges grants what holds, in the order asked. -/
theorem granter_truthful (truthful : call.Truthful truth) {maxTtlSeconds : ℚ} {past : List Exchange}
    (userFree : NulFree call.userId)
    (orgFree : NulFree call.orgId) (backed : Backed maxTtlSeconds past cache)
    (earlier : ∀ exchange ∈ past, exchange.Truthful truth) :
    (granter cache call).result = .ok (call.keys.filter (truth call.userId call.orgId)) := by
  have own : ∀ exchange ∈ (granter cache call).exchanges, exchange.Truthful truth :=
    granter_exchanges (exchangeOf_truthful truthful)
  unfold granter at own ⊢
  split
  · rename_i none
    rw [length_eq_zero_iff.mp none]
    rfl
  · rename_i nonempty
    simp only [nonempty, if_false] at own
    have looked := lookUpAll_sound userFree orgFree backed.bound backed.recorded
    have sound := askBatches_sound looked userFree
      orgFree (batchStarts (lookUpAll call cache).missIdx.length)
    have done := (@askBatches_decides call (lookUpAll call cache) truth truthful
      (batchStarts (lookUpAll call cache).missIdx.length)).1
    simp only [done, Except.map]
    congr 1
    have agrees : ∀ entry ∈ call.keys.zipIdx,
        decide ((askBatches call (batchStarts (lookUpAll call cache).missIdx.length)
          (lookUpAll call cache)).1.allowed entry.2 = some true) =
        truth call.userId call.orgId entry.1 := by
      rintro ⟨key, i⟩ member
      have atPosition := mk_mem_zipIdx_iff_getElem?.mp member
      obtain ⟨inRange, -⟩ := List.getElem?_eq_some_iff.mp atPosition
      obtain ⟨held, isHeld⟩ := Option.isSome_iff_exists.mp
        (@askBatches_total call truth truthful cache i inRange)
      obtain ⟨key', atPosition', sourced⟩ := sound.sourced i held isHeld
      rw [atPosition] at atPosition'
      cases atPosition'
      have isTrue : held = truth call.userId call.orgId key := by
        rcases sourced with ⟨-, exchange, member, decision, told, rfl, -⟩ |
          ⟨exchange, member, decision, told, rfl⟩
        · exact earlier exchange member _ _ _ _ told
        · exact own exchange member _ _ _ _ told
      simp [isHeld, isTrue]
    rw [filter_congr agrees]
    have mapped := @filter_map _ _ Prod.fst (truth call.userId call.orgId) call.keys.zipIdx
    rw [zipIdx_map_fst] at mapped
    exact mapped.symm

theorem replay_truthful {calls : List GranterCall}
    (truthful : ∀ call ∈ calls, call.Truthful truth) :
    ∀ exchange ∈ (replay cache calls).2, exchange.Truthful truth := by
  induction calls generalizing cache with
  | nil => simp [replay]
  | cons call later ih =>
    intro exchange member
    rcases mem_append.mp member with now | rest
    · exact granter_exchanges (exchangeOf_truthful (truthful call (.head _))) exchange now
    · exact ih (fun other isLater => truthful other (.tail _ isLater)) exchange rest

variable (options : AuthzCacheOptions)

theorem createAuthzCache_backed :
    Backed (options.maxTtlSeconds.getD DEFAULT_MAX_TTL_SECONDS) [] (createAuthzCache options) :=
  ⟨rfl, RecencyCache.eachEntry_empty⟩

/-- The options of a granter that asks identity-roster every time. -/
def uncached : AuthzCacheOptions where
  maxEntries := some (.finite 0)

/-- After any calls on a new cache, an allowed call grants a key only on a decision of
identity-roster on it that is fresh or its own, a dangerous key only on its own, sends
small batches, and grants what holds if all answers tell what holds. -/
def Refines (allowed : GranterCall → Prop) : Prop :=
  ∀ (history : List GranterCall) (call : GranterCall), (∀ step ∈ call :: history, allowed step) →
      let past := replay (createAuthzCache options) history
      let now := granter past.1 call
      (∀ granted, now.result = .ok granted → ∀ key ∈ granted, ((∃ exchange ∈ past.2, ∃ decision,
            exchange.Says call.userId call.orgId key decision ∧ decision.allowed = true ∧
              decision.Fresh (options.maxTtlSeconds.getD DEFAULT_MAX_TTL_SECONDS)
                (call.startedAt - exchange.answeredAt)) ∨
          ∃ exchange ∈ now.exchanges, exchange.Allows call.userId call.orgId key) ∧
        (isDangerousPermission key = true →
          ∃ exchange ∈ now.exchanges, exchange.Allows call.userId call.orgId key)) ∧
      (∀ exchange ∈ now.exchanges, exchange.request.checks.length ≤ MAX_BATCH_CHECKS) ∧
      ∀ truth : String → String → String → Bool, (∀ step ∈ call :: history, step.Truthful truth) →
          now.result = .ok (call.keys.filter (truth call.userId call.orgId)) ∧
          now.result = (granter (createAuthzCache uncached) call).result

/-- With any options the granter refines the live one, for ids without the separator. -/
theorem refines_of_nulFree (options : AuthzCacheOptions) :
    Refines options fun call => NulFree call.userId ∧ NulFree call.orgId := by
  intro history call free past now
  obtain ⟨userFree, orgFree⟩ := free call (.head _)
  have backed : Backed (options.maxTtlSeconds.getD DEFAULT_MAX_TTL_SECONDS) past.2
      past.1 :=
    replay_backed (fun other member => free other (.tail _ member))
      (createAuthzCache_backed options)
  refine ⟨?_, ?_, ?_⟩
  · intro granted isResult key member
    rcases granter_sourced userFree orgFree backed isResult member with
      ⟨safe, exchange, earlier, fresh⟩ | own
    · exact ⟨Or.inl ⟨exchange, earlier, fresh⟩, by simp [safe]⟩
    · exact ⟨Or.inr own, fun _ => own⟩
  · exact granter_exchanges fun missIdx i => batchOf_length_le
  · intro truth truthful
    have earlier : ∀ exchange ∈ past.2, exchange.Truthful truth :=
      replay_truthful fun other member => truthful other (.tail _ member)
    have holds := truthful call (.head _)
    have cached := granter_truthful holds userFree orgFree backed earlier
    have live := granter_truthful holds userFree orgFree
      (createAuthzCache_backed uncached) (by simp)
    exact ⟨cached, cached.trans live.symm⟩

def soleCheck (userId orgId : String) (allowed : Bool) : GranterCall where
  userId := userId
  orgId := orgId
  keys := ["task:read"]
  startedAt := 0
  answer := fun _ _ => .ok { decisions := [{ allowed, ttlSeconds := .finite 60 }] }
  answeredAt := fun _ => 0

/-- The separator within the ids lets one pair of ids be taken for another. -/
theorem not_refines : ¬Refines {} fun _ => True := by
  intro refines
  have granted := (refines [soleCheck "a" "b\x00c" true] (soleCheck "a\x00b" "c" false)
    (fun _ _ => trivial)).1 ["task:read"] (by decide +kernel) "task:read" (by decide)
  have subjects : (replay (createAuthzCache {})
      [soleCheck "a" "b\x00c" true]).2.map (fun exchange => exchange.request.subjectUserId) =
        ["a"] := by
    decide +kernel
  have asked : (granter (replay (createAuthzCache {})
      [soleCheck "a" "b\x00c" true]).1 (soleCheck "a\x00b" "c" false)).exchanges.length =
        0 := by
    decide +kernel
  rcases granted.1 with ⟨exchange, member, decision, told, -⟩ | ⟨exchange, member, -⟩
  · have subject := mem_map_of_mem (f := fun exchange : Exchange =>
      exchange.request.subjectUserId) member
    rw [subjects, mem_singleton] at subject
    exact absurd (subject.symm.trans told.1) (by decide)
  · rw [length_eq_zero_iff.mp asked] at member
    simp at member

end DubEcosystem.PolicyGate
