import DubEcosystem.AuthClientCheck
import DubEcosystem.SequentialPrograms

/-!
# auth-client: the gate of a route and the policy decision

The gate asks only for the keys that the requirement names, and decides on those of them that
are held.  Where the level is view and only the edit key is held, the policy allows what the
gate denies.
-/

namespace DubEcosystem.AuthClient

open Interleaving PortPrograms SequentialPrograms List Option

/-- What is cached for the subject, and has not expired, is what identity would answer. -/
def World.CacheAgrees (world : World) (userId : String) : Prop :=
  ∀ orgId q entry, world.cache.get (cacheKey userId orgId q) = some entry →
    world.now < entry.expiresAt →
      entry.decision.allowed = world.identity.granted userId q.permission

def Admits (config : AuthClientConfig) (outside : (request : Call) → authSignature.Answer request)
    (gate : AuthM Unit) (world : World) : Prop :=
  (run (authMachine config) outside gate.run world).1 = .ok ()

/-- The role holds the edit key of the app but not the view key, the action demands the view
level, and the one key more that it may demand is held and is not the edit key. -/
def LoneEdit (granted : String → Bool) (req : PolicyRequirement) : Prop :=
  ∃ app, getApp req.app = some app ∧ req.level = .view ∧ granted app.edit = true ∧
    granted app.view = false ∧ ∀ permission, req.permission = some permission →
        permission ≠ app.edit ∧ granted permission = true

variable {granted : String → Bool} {req : PolicyRequirement}

theorem level_reached {app : AppManifestEntry} {appId : String} {level : AppAccessLevel}
    (isApp : getApp appId = some app) :
    levelAtLeast (appAccessLevelOf granted appId) level = true ↔
      level = .none ∨ (level = .view ∧ (granted app.edit = true ∨ granted app.view = true)) ∨
        (level = .edit ∧ granted app.edit = true) := by
  rw [appAccessLevelOf, isApp]
  cases level <;> cases edit : granted app.edit <;> cases view : granted app.view <;>
    simp [levelAtLeast, levelRank, edit, view]

theorem mem_requiredKeysFor {key : String} (notEmpty : req.permission ≠ some "") :
    key ∈ requiredKeysFor req ↔
      key ∈ keysForAppLevel req.app req.level ∨ req.permission = some key := by
  unfold requiredKeysFor
  cases permission : req.permission with
  | none => simp
  | some extra =>
    have isKey : extra ≠ "" := by
      rintro rfl
      exact notEmpty permission
    simp only [Option.filter, isKey, ne_eq, not_false_eq_true, decide_true, if_true]
    by_cases member : extra ∈ keysForAppLevel req.app req.level
    · rw [if_pos member]
      constructor
      · exact .inl
      · rintro (isIn | same)
        · exact isIn
        · cases same
          exact member
    · rw [if_neg member, mem_append, mem_singleton]
      constructor
      · rintro (isIn | rfl)
        · exact .inl isIn
        · exact .inr rfl
      · rintro (isIn | same)
        · exact .inl isIn
        · cases same
          exact .inr rfl

def heldOf (granted : String → Bool) (req : PolicyRequirement) (key : String) : Bool :=
  ((requiredKeysFor req).filter granted).contains key

theorem heldOf_eq_true {key : String} (notEmpty : req.permission ≠ some "") :
    heldOf granted req key = true ↔
      (key ∈ keysForAppLevel req.app req.level ∨ req.permission = some key) ∧
        granted key = true := by
  simp only [heldOf, contains_eq_mem, mem_filter, mem_requiredKeysFor notEmpty, decide_eq_true_eq]

/-- The gate and the policy agree but for a lone edit key. -/
theorem held_agrees (notEmpty : req.permission ≠ some "") :
    ((decide (heldOf granted req) req).allowed = true ↔ (decide granted req).allowed = true) ↔
      ¬LoneEdit granted req := by
  rw [decide_allowed, decide_allowed]
  cases isApp : getApp req.app with
  | none => simp [LoneEdit, isApp]
  | some app =>
    rw [level_reached isApp, level_reached isApp]
    have extra : (∀ permission, req.permission = some permission →
        heldOf granted req permission = true) ↔
        ∀ permission, req.permission = some permission → granted permission = true := by
      apply forall_congr'
      intro permission
      apply imp_congr_right
      intro isExtra
      rw [heldOf_eq_true notEmpty]
      exact and_iff_right (.inr isExtra)
    rw [extra, heldOf_eq_true notEmpty, heldOf_eq_true notEmpty, keysForAppLevel, isApp]
    cases level : req.level with
    | none | edit => simp [LoneEdit, level]
    | view =>
      have differ : app.edit ≠ app.view := (view_ne_edit isApp).symm
      simp only [LoneEdit, isApp, level]
      cases permission : req.permission with
      | none =>
        cases edit : granted app.edit <;> cases view : granted app.view <;>
          simp [differ, edit, view]
      | some key =>
        by_cases isEdit : key = app.edit
        · cases edit : granted app.edit <;> simp [differ, isEdit, edit]
        · cases edit : granted app.edit <;> cases view : granted app.view <;>
            simp [differ, isEdit, edit, view]

section Runs

variable {config : AuthClientConfig} {outside : (request : Call) → authSignature.Answer request}
  {world : World}

theorem computes_checkPermissions {req : AuthzCheckRequest} {fresh : Bool}
    (isUp : world.identity.isDown = false) (agrees : world.CacheAgrees req.subjectUserId)
    (notNone : req.checks ≠ []) (few : req.checks.length ≤ MAX_CHECKS) :
    ∃ res after, Computes (authMachine config) outside (checkPermissions config req fresh) world
      (.ok res) after ∧
      List.Forall₂ (fun q decision => decision.allowed =
        world.identity.granted req.subjectUserId q.permission) req.checks res.decisions := by
  have inBounds : ¬(req.checks.length = 0 ∨ MAX_CHECKS < req.checks.length) := by
    rintro (isEmpty | tooMany)
    · exact notNone (length_eq_zero_iff.mp isEmpty)
    · omega
  have decided : DecidedBy (fun q decision => decision.allowed =
      world.identity.granted req.subjectUserId q.permission) req.checks
      (cachedDecisions config fresh req.checks ⟨world.now, req.checks.map fun q =>
        world.cache.get (cacheKey req.subjectUserId req.orgId q)⟩) := by
    apply cachedDecisions_decidedBy
    intro q _ decision isDecision
    simp only [cachedDecision] at isDecision
    split at isDecision
    · cases isDecision
    · obtain ⟨entry, isEntry, rfl⟩ := map_eq_some_iff.mp isDecision
      obtain ⟨isHit, unexpired⟩ := filter_eq_some_iff.mp isEntry
      exact agrees req.orgId q entry isHit (by simpa using unexpired)
  unfold checkPermissions
  rw [if_neg inBounds]
  let cached := cachedDecisions config fresh req.checks
    ⟨world.now, req.checks.map fun q =>
      world.cache.get (cacheKey req.subjectUserId req.orgId q)⟩
  by_cases noMiss : missed req.checks cached = []
  · refine ⟨_, world, computes_port_bind rfl ?_, (decided.all noMiss).final config world.now⟩
    simp only []
    rw [if_pos noMiss]
    exact computes_pure
  · have answered := @forall₂_map_answer (fun q decision => decision.allowed =
        world.identity.granted req.subjectUserId q.permission) (missed req.checks cached)
      (world.identity.answer { req with checks := missed req.checks cached }) fun q => rfl
    refine ⟨_, { world with
      cache := (storedEntries config req fresh world.now (missed req.checks cached)
        ((missed req.checks cached).map (world.identity.answer
          { req with checks := missed req.checks cached }))).foldl (putCache config) world.cache },
      computes_port_bind rfl ?_, (decided.fill answered).final config world.now⟩
    simp only []
    rw [if_neg noMiss]
    apply computes_port_bind
    · simp only [authMachine, isUp]
      rfl
    apply computes_port_bind
    · rfl
    rw [if_neg (by simp)]
    exact computes_pure

theorem filterMap_allowed {keys : List String}
    {queries : List AuthzQuery} {decisions : List AuthzDecision}
    (asked : queries.map AuthzQuery.permission = keys)
    (decided : List.Forall₂ (fun q decision => decision.allowed = granted q.permission) queries
      decisions) :
    ((keys.zip decisions).filterMap fun entry => if entry.2.allowed then some entry.1 else none) =
      keys.filter granted := by
  subst asked
  induction decided with
  | nil => rfl
  | @cons q decision _ _ isAllowed _ ih =>
    simp only [map_cons, zip_cons_cons, filterMap_cons, isAllowed]
    cases held : granted q.permission <;> simp [held, ih]

/-- The keys of a batch that the subject holds. -/
theorem computes_grantedSubset {userId orgId : String} {keys : List String} {scope : AuthzScope}
    {fresh : Bool} (isUp : world.identity.isDown = false) (agrees : world.CacheAgrees userId)
    (few : keys.length ≤ MAX_CHECKS) :
    ∃ after, Computes (authMachine config) outside
      (grantedSubset config userId orgId keys scope fresh) world
      (.ok (keys.filter (world.identity.granted userId))) after := by
  unfold grantedSubset
  by_cases isEmpty : keys.length = 0
  · rw [if_pos isEmpty]
    rw [length_eq_zero_iff.mp isEmpty]
    exact ⟨world, computes_pure⟩
  · rw [if_neg isEmpty]
    have notNone : keys.map (fun permission => (⟨permission,
        scope.resourceType.filter fun text => text ≠ "",
        scope.resourceId.filter fun text => text ≠ ""⟩ : AuthzQuery)) ≠ [] := by
      intro none
      exact isEmpty (length_eq_zero_iff.mpr (map_eq_nil_iff.mp none))
    obtain ⟨res, after, computes, decided⟩ := @computes_checkPermissions config outside world
      ⟨userId, orgId, keys.map fun permission => ⟨permission,
        scope.resourceType.filter fun text => text ≠ "",
        scope.resourceId.filter fun text => text ≠ ""⟩⟩ fresh isUp agrees notNone
      (by simpa using few)
    refine ⟨after, computes_bind computes ?_⟩
    rw [filterMap_allowed (by simp [Function.comp_def]) decided]
    exact computes_pure

theorem length_requiredKeysFor (req : PolicyRequirement) :
    (requiredKeysFor req).length ≤ MAX_CHECKS := by
  have graded : (keysForAppLevel req.app req.level).length ≤ 2 := by
    unfold keysForAppLevel
    cases getApp req.app with
    | none => simp
    | some app => cases req.level <;> simp
  unfold requiredKeysFor
  simp only [MAX_CHECKS]
  split
  · omega
  · split
    · omega
    · rw [length_append, length_singleton]
      omega

theorem admits_iff {userId app : String} {level : AppAccessLevel} {permission : Option String}
    {scope : AuthzScope} {fresh : Bool} (isUp : world.identity.isDown = false)
    (agrees : world.CacheAgrees userId) :
    (Admits config outside
        (requireAppAccess config (some userId) app level permission scope fresh) world ↔
      (decide (world.identity.granted userId) (requirementOf app level permission)).allowed =
        true) ↔
      ¬LoneEdit (world.identity.granted userId) (requirementOf app level permission) := by
  have notEmpty : (requirementOf app level permission).permission ≠ some "" := by
    simp [requirementOf, filter_eq_some_iff]
  rw [← held_agrees notEmpty]
  suffices admits : Admits config outside
      (requireAppAccess config (some userId) app level permission scope fresh) world ↔
      (decide (heldOf (world.identity.granted userId) (requirementOf app level permission))
        (requirementOf app level permission)).allowed = true by
    rw [admits]
  obtain ⟨after, subset⟩ := @computes_grantedSubset config outside world userId
    (scope.orgId.getD DUB_DEFAULT_ORG_ID) (requiredKeysFor (requirementOf app level permission))
    scope fresh isUp agrees (length_requiredKeysFor _)
  unfold Admits
  by_cases allowed : (decide (heldOf (world.identity.granted userId)
      (requirementOf app level permission)) (requirementOf app level permission)).allowed = true
  · have computes : Computes (authMachine config) outside
        (requireAppAccess config (some userId) app level permission scope fresh) world (.ok ())
        after := by
      apply computes_bind subset
      change Computes _ _ (if (decide (heldOf (world.identity.granted userId)
        (requirementOf app level permission)) (requirementOf app level permission)).allowed = true
          then _ else _) _ _ _
      rw [if_pos allowed]
      exact computes_pure
    rw [show run (authMachine config) outside _ world = _ from computes]
    exact iff_of_true rfl allowed
  · have computes : Computes (authMachine config) outside
        (requireAppAccess config (some userId) app level permission scope fresh) world
        (.error (.dub (forbidden app level (decide (heldOf (world.identity.granted userId)
          (requirementOf app level permission)) (requirementOf app level permission))))) after := by
      apply computes_bind subset
      change Computes _ _ (if (decide (heldOf (world.identity.granted userId)
        (requirementOf app level permission)) (requirementOf app level permission)).allowed = true
          then _ else _) _ _ _
      rw [if_neg allowed]
      rfl
    rw [show run (authMachine config) outside _ world = _ from computes]
    exact iff_of_false (fun isOk => by cases isOk) allowed

end Runs

end DubEcosystem.AuthClient
