import DubEcosystem.AuthClientPolicy
import DubEcosystem.InterleavingBystanders
import DubEcosystem.PolicyGateAuthz

/-!
# auth-client: checks and their cache

`checkPermissions` takes what it can from the cache of the isolate and asks identity for the
rest.  What is done without waiting is one step: the cache is looked at, identity answers,
and later its answer is put in the cache.
-/

namespace DubEcosystem.AuthClient

open Interleaving
open PolicyGate (Number isDangerousPermission)
open PortPrograms

structure AuthzQuery where
  permission : String
  resourceType : Option String
  resourceId : Option String

structure AuthzDecision where
  allowed : Bool
  evaluatedAt : String
  ttlSeconds : ℚ

structure AuthzCheckRequest where
  subjectUserId : String
  orgId : String
  checks : List AuthzQuery

structure AuthzCheckResponse where
  decisions : List AuthzDecision

structure AuthClientConfig where
  /-- `authzCache.enabled ?? true`. -/
  cacheEnabled : Bool
  /-- `authzCache.maxEntries ?? 1000`. -/
  maxEntries : Number
  toISOString : ℚ → String

structure ErrorDetail where
  field : String
  reason : String
  message : Option String

structure DubError where
  code : String
  message : String
  status : Nat
  details : List ErrorDetail

inductive AuthError where
  | dub (error : DubError)
  /-- What the service client throws when identity does not answer. -/
  | upstream
  /-- A decision that no query was asked for. -/
  | typeError

structure CacheEntry where
  decision : AuthzDecision
  expiresAt : ℚ
  userId : String

/-- A `Map`, in the order of insertion. -/
abbrev Cache : Type := List (String × CacheEntry)

def cacheKey (userId orgId : String) (q : AuthzQuery) : String :=
  userId ++ String.singleton '|' ++ (orgId ++ String.singleton '|' ++
    (q.permission ++ String.singleton '|' ++ (q.resourceType.getD "" ++ String.singleton '|' ++
      q.resourceId.getD "")))

variable (cache : Cache)

def Cache.get (key : String) : Option CacheEntry :=
  (cache.find? fun item => item.1 = key).map Prod.snd

/-- `Map.set`: a key that is there keeps its place. -/
def Cache.set (key : String) (entry : CacheEntry) : Cache :=
  if cache.any fun item => item.1 = key then
    cache.map fun item => if item.1 = key then (key, entry) else item
  else cache ++ [(key, entry)]

variable (config : AuthClientConfig)

def putCache (cache : Cache) (item : String × CacheEntry) : Cache :=
  if !config.cacheEnabled then cache
  else
    let room : Cache := if config.maxEntries.atMost cache.length then cache.drop 1 else cache
    room.set item.1 item.2

def invalidateAuthzCache : Option String → Cache
  | none => []
  | some userId => cache.filter fun item => item.2.userId ≠ userId

/-- The clock, and what the cache has for the queries. -/
structure Looked where
  now : ℚ
  hits : List (Option CacheEntry)

inductive Call where
  | look (req : AuthzCheckRequest)
  | post (req : AuthzCheckRequest)
  | put (userId : String) (entries : List (String × CacheEntry))
  | invalidate (userId : Option String)

abbrev Call.Result : Call → Type
  | .look _ => Looked
  | .post _ => List AuthzDecision
  | _ => Unit

abbrev authPorts : Ports where
  Call := Call
  Result := Call.Result

abbrev authSignature : Signature := authPorts.signature AuthError

abbrev AuthM (α : Type) := Action authPorts AuthError α

abbrev ask (request : Call) : AuthM (Call.Result request) :=
  port (P := authPorts) request

def MAX_CHECKS : Nat :=
  20

def bypasses (fresh : Bool) (q : AuthzQuery) : Bool :=
  fresh || isDangerousPermission q.permission || !config.cacheEnabled

/-- The first loop: what is decided by an entry that has not expired. -/
def cachedDecision (fresh : Bool) (now : ℚ) (q : AuthzQuery)
    (hit : Option CacheEntry) : Option AuthzDecision :=
  if bypasses config fresh q then none
  else (hit.filter fun entry => now < entry.expiresAt).map CacheEntry.decision

def cachedDecisions (fresh : Bool) (checks : List AuthzQuery)
    (looked : Looked) : List (Option AuthzDecision) :=
  List.zipWith (cachedDecision config fresh looked.now) checks looked.hits

/-- The queries that are not decided. -/
def missed : List AuthzQuery → List (Option AuthzDecision) → List AuthzQuery
  | q :: checks, none :: decisions => q :: missed checks decisions
  | _ :: checks, some _ :: decisions => missed checks decisions
  | _, _ => []

def fillMisses : List (Option AuthzDecision) → List AuthzDecision → List (Option AuthzDecision)
  | none :: decisions, answer :: answers => some answer :: fillMisses decisions answers
  | some decision :: decisions, answers => some decision :: fillMisses decisions answers
  | decisions, [] => decisions
  | [], _ => []

def storedEntries (req : AuthzCheckRequest) (fresh : Bool) (now : ℚ)
    (asked : List AuthzQuery) (answers : List AuthzDecision) : List (String × CacheEntry) :=
  ((asked.zip answers).filter fun entry => !bypasses config fresh entry.1).map fun entry =>
    (cacheKey req.subjectUserId req.orgId entry.1,
      ⟨entry.2, now + entry.2.ttlSeconds * 1000, req.subjectUserId⟩)

/-- What is not decided in the end is denied. -/
def finalDecisions (now : ℚ) (decisions : List (Option AuthzDecision)) : AuthzCheckResponse :=
  ⟨decisions.map fun decision => decision.getD ⟨false, config.toISOString now, 0⟩⟩

def checksError (checks : List AuthzQuery) : DubError :=
  ⟨"VALIDATION_FAILED", "checks must be 1..20", 400,
    [⟨"checks", if checks.length = 0 then "required" else "too_long", none⟩]⟩

def checkPermissions (req : AuthzCheckRequest) (fresh : Bool) :
    AuthM AuthzCheckResponse :=
  if req.checks.length = 0 ∨ MAX_CHECKS < req.checks.length then
    throw (.dub (checksError req.checks))
  else do
    let looked : Looked ← ask (.look req)
    let decisions := cachedDecisions config fresh req.checks looked
    let misses := missed req.checks decisions
    if misses = [] then pure (finalDecisions config looked.now decisions)
    else do
      let answers : List AuthzDecision ← ask (.post { req with checks := misses })
      ask (.put req.subjectUserId (storedEntries config req fresh looked.now misses answers))
      if misses.length < answers.length then throw .typeError
      else pure (finalDecisions config looked.now (fillMisses decisions answers))

section Answered

variable {justifies : AuthzQuery → AuthzDecision → Prop} {checks : List AuthzQuery}
  {cached : List (Option AuthzDecision)}

def DecidedBy (justifies : AuthzQuery → AuthzDecision → Prop) (checks : List AuthzQuery)
    (cached : List (Option AuthzDecision)) : Prop :=
  List.Forall₂ (fun q hit => ∀ decision, hit = some decision → justifies q decision) checks cached

def AllDecidedBy (justifies : AuthzQuery → AuthzDecision → Prop) (checks : List AuthzQuery)
    (decisions : List (Option AuthzDecision)) : Prop :=
  List.Forall₂ (fun q decided => ∃ decision, decided = some decision ∧ justifies q decision) checks
    decisions

theorem cachedDecisions_decidedBy {config : AuthClientConfig} {fresh : Bool} {now : ℚ}
    {hits : AuthzQuery → Option CacheEntry}
    (justified : ∀ q ∈ checks, ∀ decision,
      cachedDecision config fresh now q (hits q) = some decision → justifies q decision) :
    DecidedBy justifies checks (cachedDecisions config fresh checks ⟨now, checks.map hits⟩) := by
  induction checks with
  | nil => exact .nil
  | cons q rest ih =>
    apply List.Forall₂.cons
    · exact justified q (.head _)
    · exact ih fun other member => justified other (List.mem_cons_of_mem q member)

theorem DecidedBy.all (decided : DecidedBy justifies checks cached)
    (noMiss : missed checks cached = []) : AllDecidedBy justifies checks cached := by
  induction decided with
  | nil => exact .nil
  | @cons q hit checks cached justified _ ih =>
    cases hit with
    | none => cases noMiss
    | some decision => exact .cons ⟨decision, rfl, justified decision rfl⟩ (ih noMiss)

theorem DecidedBy.fill (decided : DecidedBy justifies checks cached) {answers : List AuthzDecision}
    (answered : List.Forall₂ justifies (missed checks cached) answers) :
    AllDecidedBy justifies checks (fillMisses cached answers) := by
  induction decided generalizing answers with
  | nil =>
    cases answered
    exact .nil
  | @cons q hit checks cached justified _ ih =>
    cases hit with
    | none =>
      cases answered with
      | cons isAnswer later => exact .cons ⟨_, rfl, isAnswer⟩ (ih later)
    | some decision =>
      have kept : fillMisses (some decision :: cached) answers =
          some decision :: fillMisses cached answers := by
        cases answers <;> rfl
      rw [kept]
      exact .cons ⟨decision, rfl, justified decision rfl⟩ (ih answered)

theorem AllDecidedBy.final {decisions : List (Option AuthzDecision)}
    (decided : AllDecidedBy justifies checks decisions) (config : AuthClientConfig) (now : ℚ) :
    List.Forall₂ justifies checks (finalDecisions config now decisions).decisions := by
  induction decided with
  | nil => exact .nil
  | cons justified _ ih =>
    obtain ⟨decision, rfl, isJustified⟩ := justified
    exact .cons isJustified ih

theorem forall₂_map_answer {asked : List AuthzQuery} {answer : AuthzQuery → AuthzDecision}
    (justified : ∀ q, justifies q (answer q)) :
    List.Forall₂ justifies asked (asked.map answer) := by
  rw [List.forall₂_map_right_iff]
  exact List.forall₂_same.mpr fun q _ => justified q

end Answered

/-- `resolve`: a missing or empty part is left out. -/
structure AuthzScope where
  orgId : Option String
  resourceType : Option String
  resourceId : Option String

def DUB_DEFAULT_ORG_ID : String :=
  "org_devhub"

def grantedSubset (subjectUserId orgId : String)
    (keys : List String) (scope : AuthzScope) (fresh : Bool) : AuthM (List String) :=
  if keys.length = 0 then pure []
  else do
    let checks := keys.map fun permission =>
      (⟨permission, scope.resourceType.filter fun text => text ≠ "",
        scope.resourceId.filter fun text => text ≠ ""⟩ : AuthzQuery)
    let res ← checkPermissions config ⟨subjectUserId, orgId, checks⟩ fresh
    pure ((keys.zip res.decisions).filterMap fun entry =>
      if entry.2.allowed then some entry.1 else none)

def unauthenticated : DubError :=
  ⟨"AUTH_INVALID_TOKEN", "requireAuth must run before requireAppAccess", 401, []⟩

/-- The requirement that a route states; an empty key is none. -/
def requirementOf (app : String) (level : AppAccessLevel) (permission : Option String) :
    PolicyRequirement :=
  ⟨app, level, permission.filter fun key => key ≠ ""⟩

def forbidden (app : String) (level : AppAccessLevel) (decision : PolicyDecision) : DubError :=
  ⟨"FORBIDDEN", denyMessage decision ((getApp app).map AppManifestEntry.label), 403,
    [⟨"app", (decision.reason.map PolicyDenyReason.text).getD "forbidden",
      some (app ++ ":" ++ level.text)⟩]⟩

/-- The gate of a route: what it returns from goes on to the handler. -/
def requireAppAccess (authn : Option String) (app : String)
    (level : AppAccessLevel) (permission : Option String) (scope : AuthzScope) (fresh : Bool) :
    AuthM Unit :=
  match authn with
  | none => throw (.dub unauthenticated)
  | some userId => do
    let requirement := requirementOf app level permission
    let granted ← grantedSubset config userId (scope.orgId.getD DUB_DEFAULT_ORG_ID)
      (requiredKeysFor requirement) scope fresh
    let decision := decide (fun key => granted.contains key) requirement
    if decision.allowed then pure ()
    else throw (.dub (forbidden app level decision))

/-- What identity answers from: the keys that each subject holds, and for how long an answer
may be kept. -/
structure Identity where
  granted : String → String → Bool
  ttlSeconds : AuthzCheckRequest → AuthzQuery → ℚ
  evaluatedAt : String
  isDown : Bool

/-- A moment of the run, with the number of times that the decisions on each user have been
invalidated before it. -/
structure Moment where
  serial : Nat
  now : ℚ
  granted : String → String → Bool
  invalidations : String → Nat

/-- The isolate beside identity.  The past moments are kept for what is to be shown. -/
structure World where
  cache : Cache
  now : ℚ
  identity : Identity
  serial : Nat
  invalidations : String → Nat
  past : List Moment

variable (world : World)

def World.moment : Moment :=
  ⟨world.serial, world.now, world.identity.granted, world.invalidations⟩

def World.moments : List Moment :=
  world.moment :: world.past

def Clears (cleared : Option String) (userId : String) : Prop :=
  cleared = none ∨ cleared = some userId

instance (cleared : Option String) (userId : String) : Decidable (Clears cleared userId) :=
  inferInstanceAs (Decidable (_ ∨ _))

def World.invalidate (cleared : Option String) : World :=
  { world with
    cache := invalidateAuthzCache world.cache cleared
    serial := world.serial + 1
    invalidations := fun userId =>
      if Clears cleared userId then world.invalidations userId + 1
      else world.invalidations userId
    past := world.moments }

def Identity.answer (identity : Identity) (req : AuthzCheckRequest) (q : AuthzQuery) :
    AuthzDecision :=
  ⟨identity.granted req.subjectUserId q.permission, identity.evaluatedAt, identity.ttlSeconds req q⟩

def authMachine : Machine authSignature World where
  exec
    | .look req, world =>
      some (.ok ⟨world.now, req.checks.map fun q =>
        world.cache.get (cacheKey req.subjectUserId req.orgId q)⟩, world)
    | .post req, world =>
      if world.identity.isDown then some (.error .upstream, world)
      else some (.ok (req.checks.map (world.identity.answer req)), world)
    | .put _ entries, world =>
      some (.ok (), { world with cache := entries.foldl (putCache config) world.cache })
    | .invalidate cleared, world => some (.ok (), world.invalidate cleared)
  observe _ _ world := world

/-- The clock goes on, and identity may change in any way. -/
inductive Passes : World → World → Prop
  | passes {world : World} (now : ℚ) (identity : Identity) (isLater : world.now ≤ now) :
      Passes world { world with now, identity, serial := world.serial + 1, past := world.moments }

inductive Operation where
  | checkPermissions (req : AuthzCheckRequest) (fresh : Bool)
  | invalidateAuthzCache (userId : Option String)

def actionOf : Operation → AuthM Unit
  | .checkPermissions req fresh => do
    let _ ← checkPermissions config req fresh
    pure ()
  | .invalidateAuthzCache userId => ask (.invalidate userId)

def authSystem : System authSignature World Operation where
  toMachine := authMachine config
  program op := (actionOf config op).run >>= fun _ => pure ()
  startable _ _ := True
  environment := Passes

end DubEcosystem.AuthClient
