import Mathlib.Tactic.Linarith
import DubEcosystem.PolicyGateAuthz
import DubEcosystem.Texts

/-!
# policy-gate: what a key was granted on

Every entry of the cache goes back to an exchange with identity-roster that said so of
its user, organisation and key.  The granter keeps this, and the decision it holds at
the position of a key goes back to such an entry or to an exchange of the same call.
-/

namespace DubEcosystem.PolicyGate

open RecencyCache List Function Texts

/-- The separator of `cacheKey` does not occur in the text. -/
def NulFree (text : String) : Prop :=
  NUL ∉ text.toList

/-- Without the separator in the ids, a cache key determines what it is made of. -/
theorem cacheKey_injective {user user' org org' permission permission' : String}
    (userFree : NulFree user) (userFree' : NulFree user') (orgFree : NulFree org)
    (orgFree' : NulFree org')
    (same : cacheKey user org permission = cacheKey user' org' permission') :
    user = user' ∧ org = org' ∧ permission = permission' := by
  have lists := congrArg String.toList same
  simp only [cacheKey, String.toList_append, String.toList_singleton, append_assoc,
    cons_append] at lists
  obtain ⟨users, rest⟩ := split_at_separator userFree userFree' lists
  obtain ⟨orgs, permissions⟩ := split_at_separator orgFree orgFree' rest
  exact ⟨String.toList_injective users, String.toList_injective orgs,
    String.toList_injective permissions⟩

variable {cache : AuthzDecisionCache} {now : ℚ} {userId orgId permission : String}
  {property : String → CacheEntry → Prop}

@[simp]
theorem get_maxTtlSeconds :
    (cache.get now userId orgId permission).2.maxTtlSeconds = cache.maxTtlSeconds := by
  unfold AuthzDecisionCache.get
  split
  · rfl
  · simp only []
    split
    · rfl
    · split <;> rfl

variable {ttlSeconds : Number}

@[simp]
theorem set_maxTtlSeconds {allowed : Bool} :
    (cache.set now userId orgId permission allowed ttlSeconds).maxTtlSeconds =
      cache.maxTtlSeconds := by
  unfold AuthzDecisionCache.set
  split
  · rfl
  · split
    · split <;> rfl
    · rfl

theorem eachEntry_get (each : EachEntry property cache.entries) :
    EachEntry property (cache.get now userId orgId permission).2.entries := by
  unfold AuthzDecisionCache.get
  split
  · exact each
  · simp only []
    split
    · exact each
    · rename_i hit found
      split
      · exact each.erase _
      · exact (each.erase _).insert (each _ hit found)

theorem entry_of_get {held : Bool} (hit : (cache.get now userId orgId permission).1 = some held) :
    isDangerousPermission permission = false ∧ ∃ entry,
      cache.entries.lookup (cacheKey userId orgId permission) = some entry ∧
        now < entry.expiresAt ∧ entry.allowed = held := by
  unfold AuthzDecisionCache.get at hit
  split at hit
  · exact absurd hit (by simp)
  · rename_i passes
    push Not at passes
    refine ⟨by simpa using passes.2, ?_⟩
    simp only [] at hit
    split at hit
    · exact absurd hit (by simp)
    · rename_i entry found
      split at hit
      · exact absurd hit (by simp)
      · rename_i fresh
        exact ⟨entry, found, lt_of_not_ge fresh, Option.some.inj hit⟩

theorem eachEntry_set {allowed : Bool} (each : EachEntry property cache.entries)
    (recorded : ∀ seconds, ttlSeconds = .finite seconds →
      property (cacheKey userId orgId permission)
        { allowed, expiresAt := now + min seconds cache.maxTtlSeconds * 1000, userId }) :
    EachEntry property (cache.set now userId orgId permission allowed ttlSeconds).entries := by
  unfold AuthzDecisionCache.set
  split
  · exact each
  · split
    · rename_i seconds
      split
      · exact each
      · exact ((each.erase _).evict _).insert (recorded seconds rfl)
    · exact each

def Exchange.Says (exchange : Exchange) (userId orgId key : String)
    (decision : AuthzDecision) : Prop :=
  exchange.request.subjectUserId = userId ∧ exchange.request.orgId = orgId ∧
    ∃ response, exchange.answer = .ok response ∧ ∃ j : Nat,
      exchange.request.checks[j]? = some key ∧ response.decisions[j]? = some decision

def Exchange.Allows (exchange : Exchange) (userId orgId key : String) : Prop :=
  ∃ decision, exchange.Says userId orgId key decision ∧ decision.allowed = true

/-- The decision is not yet as old as its bounded time to live. -/
def AuthzDecision.Fresh (decision : AuthzDecision) (maxTtlSeconds age : ℚ) : Prop :=
  ∃ seconds, decision.ttlSeconds = .finite seconds ∧ age < min seconds maxTtlSeconds * 1000

def Recorded (maxTtlSeconds : ℚ) (exchanges : List Exchange) (key : String)
    (entry : CacheEntry) : Prop :=
  ∃ exchange ∈ exchanges, ∃ userId orgId permission decision seconds,
    NulFree userId ∧ NulFree orgId ∧ key = cacheKey userId orgId permission ∧
      exchange.Says userId orgId permission decision ∧
      entry.allowed = decision.allowed ∧ decision.ttlSeconds = .finite seconds ∧
      entry.expiresAt = exchange.answeredAt + min seconds maxTtlSeconds * 1000

variable {entry : CacheEntry}

variable {exchanges more : List Exchange} {key : String}

theorem Recorded.mono {maxTtlSeconds : ℚ}
    (recorded : Recorded maxTtlSeconds exchanges key entry)
    (subset : exchanges ⊆ more) : Recorded maxTtlSeconds more key entry := by
  obtain ⟨exchange, member, rest⟩ := recorded
  exact ⟨exchange, subset member, rest⟩

theorem Recorded.fresh {maxTtlSeconds now : ℚ} {exchanges : List Exchange}
    {userId orgId permission : String}
    (recorded : Recorded maxTtlSeconds exchanges (cacheKey userId orgId permission) entry)
    (userFree : NulFree userId) (orgFree : NulFree orgId)
    (fresh : now < entry.expiresAt) :
    ∃ exchange ∈ exchanges, ∃ decision, exchange.Says userId orgId permission decision ∧
        decision.allowed = entry.allowed ∧
        decision.Fresh maxTtlSeconds (now - exchange.answeredAt) := by
  obtain ⟨exchange, member, user, org, key, decision, seconds, userFree', orgFree', same,
    told, allowed, ttl, expires⟩ := recorded
  obtain ⟨rfl, rfl, rfl⟩ := cacheKey_injective userFree userFree' orgFree orgFree' same
  refine ⟨exchange, member, decision, told, allowed.symm, seconds, ttl, ?_⟩
  rw [expires] at fresh
  linarith

variable {maxTtlSeconds : ℚ} {call : GranterCall} {past : List Exchange} {granting : Granting}

/-- The decision held at a position goes back to an earlier exchange that is fresh when
the call looks up, or to an exchange of the call. -/
def Sourced (maxTtlSeconds : ℚ) (call : GranterCall) (past exchanges : List Exchange)
    (key : String) (held : Bool) : Prop :=
  (isDangerousPermission key = false ∧ ∃ exchange ∈ past, ∃ decision,
      exchange.Says call.userId call.orgId key decision ∧ decision.allowed = held ∧
        decision.Fresh maxTtlSeconds (call.startedAt - exchange.answeredAt)) ∨
    ∃ exchange ∈ exchanges, ∃ decision,
      exchange.Says call.userId call.orgId key decision ∧ decision.allowed = held

theorem Sourced.mono {held : Bool}
    (sourced : Sourced maxTtlSeconds call past exchanges key held)
    (subset : exchanges ⊆ more) : Sourced maxTtlSeconds call past more key held := by
  rcases sourced with earlier | ⟨exchange, member, rest⟩
  · exact Or.inl earlier
  · exact Or.inr ⟨exchange, subset member, rest⟩

/-- What both loops keep. -/
structure Sound (maxTtlSeconds : ℚ) (call : GranterCall) (past : List Exchange)
    (granting : Granting) : Prop where
  bound : granting.cache.maxTtlSeconds = maxTtlSeconds
  recorded : EachEntry (Recorded maxTtlSeconds (past ++ granting.exchanges))
    granting.cache.entries
  sourced : ∀ i held, granting.allowed i = some held → ∃ key, call.keys[i]? = some key ∧
    Sourced maxTtlSeconds call past granting.exchanges key held
  missed : ∀ i ∈ granting.missIdx, i < call.keys.length

variable {i : Nat}

section

variable (sound : Sound maxTtlSeconds call past granting)
include sound

variable {permission : String}

theorem lookUp_sound (userFree : NulFree call.userId) (orgFree : NulFree call.orgId) (atPosition : call.keys[i]? = some permission) :
    Sound maxTtlSeconds call past (lookUp call granting (permission, i)) := by
  have inRange : i < call.keys.length := (List.getElem?_eq_some_iff.mp atPosition).1
  have missed : ∀ idx ∈ granting.missIdx ++ [i], idx < call.keys.length := by
    intro idx member
    rcases mem_append.mp member with old | new
    · exact sound.missed idx old
    · rw [mem_singleton.mp new]
      exact inRange
  unfold lookUp
  by_cases dangerous : isDangerousPermission permission = true
  · simp only [dangerous, if_true]
    exact { sound with missed }
  · simp only [dangerous, Bool.false_eq_true, if_false]
    have kept : EachEntry (Recorded maxTtlSeconds (past ++ granting.exchanges))
        (granting.cache.get call.startedAt call.userId call.orgId permission).2.entries :=
      eachEntry_get sound.recorded
    split
    · exact { bound := by simpa using sound.bound, recorded := kept,
              sourced := sound.sourced, missed }
    · rename_i held hit
      refine { bound := by simpa using sound.bound, recorded := kept, sourced := ?_,
               missed := sound.missed }
      intro idx value isHeld
      by_cases same : idx = i
      · subst same
        simp only [update_self, Option.some.injEq] at isHeld
        subst isHeld
        refine ⟨permission, atPosition, ?_⟩
        obtain ⟨safe, entry, found, fresh, rfl⟩ := entry_of_get hit
        obtain ⟨exchange, member, decision, told, agrees, isFresh⟩ :=
          (sound.recorded _ entry found).fresh userFree orgFree fresh
        rcases mem_append.mp member with earlier | now
        · exact Or.inl ⟨safe, exchange, earlier, decision, told, agrees, isFresh⟩
        · exact Or.inr ⟨exchange, now, decision, told, agrees⟩
      · simp only [update_of_ne same] at isHeld
        exact sound.sourced idx value isHeld

omit sound in
theorem lookUpAll_sound {cache : AuthzDecisionCache} (userFree : NulFree call.userId)
    (orgFree : NulFree call.orgId) (bound : cache.maxTtlSeconds = maxTtlSeconds)
    (recorded : EachEntry (Recorded maxTtlSeconds past) cache.entries) :
    Sound maxTtlSeconds call past (lookUpAll call cache) := by
  unfold lookUpAll
  apply List.foldlRecOn
  · exact { bound, recorded := by simpa using recorded, sourced := by simp,
            missed := by simp }
  · intro granting sound indexed member
    exact lookUp_sound sound userFree orgFree (mk_mem_zipIdx_iff_getElem?.mp member)

variable {decisions : List AuthzDecision}

omit sound in
@[simp]
theorem recordDecision_missIdx {indexed : String × Nat} :
    (recordDecision call i decisions granting indexed).missIdx = granting.missIdx := by
  unfold recordDecision
  simp only []
  split <;> rfl

omit sound in
@[simp]
theorem recordDecision_exchanges {indexed : String × Nat} :
    (recordDecision call i decisions granting indexed).exchanges = granting.exchanges := by
  unfold recordDecision
  simp only []
  split <;> rfl

theorem recordDecision_sound (userFree : NulFree call.userId) (orgFree : NulFree call.orgId)
    {i j : Nat}
    (atPosition : call.keys[granting.missIdx.getD (i + j) 0]? = some permission)
    (answered : ∀ decision, decisions[j]? = some decision →
      ∃ exchange ∈ granting.exchanges, exchange.answeredAt = call.answeredAt i ∧
        exchange.Says call.userId call.orgId permission decision) :
    Sound maxTtlSeconds call past (recordDecision call i decisions granting (permission, j)) := by
  unfold recordDecision
  simp only []
  split
  · exact sound
  · rename_i decision isDecision
    obtain ⟨exchange, member, time, told⟩ := answered decision isDecision
    refine { bound := by simpa using sound.bound, recorded := ?_, sourced := ?_,
             missed := sound.missed }
    · apply eachEntry_set sound.recorded
      intro seconds isFinite
      rw [sound.bound]
      exact ⟨exchange, mem_append_right past member, call.userId, call.orgId,
        permission, decision, seconds, userFree, orgFree, rfl, told, rfl, isFinite,
        by rw [time]⟩
    · intro idx value isHeld
      by_cases same : idx = granting.missIdx.getD (i + j) 0
      · subst same
        simp only [update_self, Option.some.injEq] at isHeld
        exact ⟨permission, atPosition, Or.inr ⟨exchange, member, decision, told, isHeld⟩⟩
      · simp only [update_of_ne same] at isHeld
        exact sound.sourced idx value isHeld

theorem Sound.extend (exchange : Exchange) : Sound maxTtlSeconds call past
      { granting with exchanges := granting.exchanges ++ [exchange] } where
  bound := sound.bound
  recorded := by
    intro key entry found
    apply (sound.recorded key entry found).mono
    simp only [← append_assoc]
    exact subset_append_left _ _
  sourced := by
    intro i held isHeld
    obtain ⟨key, atPosition, sourced⟩ := sound.sourced i held isHeld
    exact ⟨key, atPosition, sourced.mono (subset_append_left _ _)⟩
  missed := sound.missed

omit sound in
/-- A key of a batch stands at the position that its decision is recorded at. -/
theorem atPosition_of_batchOf {missIdx : List Nat} {i j : Nat}
    (missed : ∀ idx ∈ missIdx, idx < call.keys.length)
    (inBatch : (batchOf call missIdx i)[j]? = some permission) :
    call.keys[missIdx.getD (i + j) 0]? = some permission := by
  unfold batchOf at inBatch
  rw [getElem?_map, getElem?_take] at inBatch
  split at inBatch
  · rw [getElem?_drop] at inBatch
    obtain ⟨idx, found, rfl⟩ := Option.map_eq_some_iff.mp inBatch
    have inRange := missed idx (mem_of_getElem? found)
    simp [getD_eq_getElem?_getD, found, inRange]
  · simp at inBatch

omit sound in
theorem batchOf_length_le {missIdx : List Nat} :
    (batchOf call missIdx i).length ≤ MAX_BATCH_CHECKS := by
  unfold batchOf
  rw [length_map]
  exact length_take_le _ _

variable {indexed : List (String × Nat)}

omit sound in
@[simp]
theorem recordDecisions_missIdx :
    (indexed.foldl (recordDecision call i decisions) granting).missIdx = granting.missIdx := by
  induction indexed generalizing granting with
  | nil => rfl
  | cons head tail ih => simp [ih]

omit sound in
@[simp]
theorem recordDecisions_exchanges :
    (indexed.foldl (recordDecision call i decisions) granting).exchanges = granting.exchanges := by
  induction indexed generalizing granting with
  | nil => rfl
  | cons head tail ih => simp [ih]

theorem recordDecisions_sound (userFree : NulFree call.userId) (orgFree : NulFree call.orgId)
    {exchange : Exchange} {res : AuthzCheckResponse}
    (sent : exchange = exchangeOf call granting.missIdx i) (answered : exchange.answer = .ok res)
    (member : exchange ∈ granting.exchanges) :
    Sound maxTtlSeconds call past
      (exchange.request.checks.zipIdx.foldl (recordDecision call i res.decisions) granting) := by
  have kept : ∀ (indexed : List (String × Nat)) (now : Granting),
      indexed ⊆ exchange.request.checks.zipIdx →
      now.missIdx = granting.missIdx → now.exchanges = granting.exchanges →
      Sound maxTtlSeconds call past now → Sound maxTtlSeconds call past
          (indexed.foldl (recordDecision call i res.decisions) now) := by
    intro indexed
    induction indexed with
    | nil =>
      intro now _ _ _ soundNow
      exact soundNow
    | cons head tail ih =>
      intro now inBatch misses sentNow soundNow
      obtain ⟨permission, j⟩ := head
      have here : exchange.request.checks[j]? = some permission :=
        mk_mem_zipIdx_iff_getElem?.mp (inBatch (.head _))
      apply ih _ (subset_of_cons_subset inBatch) (by simpa using misses) (by simpa using sentNow)
      apply recordDecision_sound soundNow userFree orgFree
      · rw [misses]
        rw [sent] at here
        exact atPosition_of_batchOf sound.missed here
      · intro decision isDecision
        rw [sentNow]
        refine ⟨exchange, member, ?_, ?_, ?_, res, answered, j, here, isDecision⟩
        all_goals rw [sent]; rfl
  exact kept _ granting (List.Subset.refl _) rfl rfl sound

theorem askBatches_sound (userFree : NulFree call.userId) (orgFree : NulFree call.orgId)
    (starts : List Nat) : Sound maxTtlSeconds call past (askBatches call starts granting).1 := by
  induction starts generalizing granting with
  | nil => exact sound
  | cons i later ih =>
    have extended := sound.extend (exchangeOf call granting.missIdx i)
    unfold askBatches
    simp only []
    split
    · exact extended
    · rename_i res answered
      apply ih
      exact recordDecisions_sound extended userFree orgFree rfl answered
        (mem_append_right _ (.head _))

end

variable {property : Exchange → Prop}

/-- What holds of each exchange that the call can make holds of those it makes. -/
theorem askBatches_exchanges
    (each : ∀ missIdx i, property (exchangeOf call missIdx i)) (starts : List Nat)
    (before : ∀ exchange ∈ granting.exchanges, property exchange) :
    ∀ exchange ∈ (askBatches call starts granting).1.exchanges, property exchange := by
  induction starts generalizing granting with
  | nil => exact before
  | cons i later ih =>
    have extended : ∀ exchange ∈ granting.exchanges ++ [exchangeOf call granting.missIdx i],
        property exchange := by
      intro exchange member
      rcases mem_append.mp member with old | new
      · exact before exchange old
      · rw [mem_singleton.mp new]
        exact each granting.missIdx i
    unfold askBatches
    simp only []
    split
    · exact extended
    · apply ih
      simpa using extended

variable {maxTtlSeconds : ℚ} {cache : AuthzDecisionCache} {past : List Exchange}
  {call : GranterCall}

structure Backed (maxTtlSeconds : ℚ) (past : List Exchange)
    (cache : AuthzDecisionCache) : Prop where
  bound : cache.maxTtlSeconds = maxTtlSeconds
  recorded : EachEntry (Recorded maxTtlSeconds past) cache.entries

@[simp]
theorem lookUpAll_exchanges : (lookUpAll call cache).exchanges = [] := by
  unfold lookUpAll
  apply List.foldlRecOn (motive := fun granting : Granting => granting.exchanges = [])
  · rfl
  · intro granting none indexed _
    unfold lookUp
    simp only []
    split <;> exact none

theorem granter_exchanges
    (each : ∀ missIdx i, property (exchangeOf call missIdx i)) :
    ∀ exchange ∈ (granter cache call).exchanges, property exchange := by
  unfold granter
  split
  · intro exchange member
    simp at member
  · apply askBatches_exchanges each
    simp

theorem granter_backed (userFree : NulFree call.userId) (orgFree : NulFree call.orgId)
    (backed : Backed maxTtlSeconds past cache) :
    Backed maxTtlSeconds (past ++ (granter cache call).exchanges) (granter cache call).cache := by
  unfold granter
  split
  · exact ⟨backed.bound, by simpa using backed.recorded⟩
  · have looked := lookUpAll_sound userFree orgFree backed.bound backed.recorded
    have sound := askBatches_sound looked userFree
      orgFree (batchStarts (lookUpAll call cache).missIdx.length)
    exact ⟨sound.bound, sound.recorded⟩

theorem granter_sourced (userFree : NulFree call.userId) (orgFree : NulFree call.orgId)
    (backed : Backed maxTtlSeconds past cache) {granted : List String}
    (isResult : (granter cache call).result = .ok granted)
    (member : key ∈ granted) :
    Sourced maxTtlSeconds call past (granter cache call).exchanges key true := by
  unfold granter at isResult ⊢
  split at isResult
  · cases isResult
    simp at member
  · rename_i nonempty
    simp only [nonempty, if_false]
    have looked := lookUpAll_sound userFree orgFree backed.bound backed.recorded
    have sound := askBatches_sound looked userFree
      orgFree (batchStarts (lookUpAll call cache).missIdx.length)
    simp only [Except.map] at isResult
    split at isResult
    · cases isResult
    · cases isResult
      obtain ⟨⟨key', i⟩, kept, rfl⟩ := List.mem_map.mp member
      rw [mem_filter, mk_mem_zipIdx_iff_getElem?] at kept
      obtain ⟨atPosition, isHeld⟩ := kept
      obtain ⟨key, atPosition', sourced⟩ := sound.sourced i true (by simpa using isHeld)
      rw [atPosition] at atPosition'
      cases atPosition'
      exact sourced

/-- A sequence of calls leaves a cache that goes back to its exchanges. -/
theorem replay_backed {calls : List GranterCall}
    (free : ∀ call ∈ calls, NulFree call.userId ∧ NulFree call.orgId)
    (backed : Backed maxTtlSeconds past cache) :
    Backed maxTtlSeconds (past ++ (replay cache calls).2) (replay cache calls).1 := by
  induction calls generalizing cache past with
  | nil => exact ⟨backed.bound, by simpa [replay] using backed.recorded⟩
  | cons call later ih =>
    obtain ⟨userFree, orgFree⟩ := free call (.head _)
    have next := ih (fun other member => free other (.tail _ member))
      (granter_backed userFree orgFree backed)
    simpa [replay, append_assoc] using next

end DubEcosystem.PolicyGate
