import Mathlib.Algebra.Order.Ring.Rat
import DubEcosystem.RecencyCache

/-!
# policy-gate: the granter and its cache of decisions

`createAuthzGranter` answers which keys a user holds.  It takes what it can from
`createAuthzCache` and asks identity-roster for the rest, in batches.
-/

namespace DubEcosystem.PolicyGate

open RecencyCache

def DANGEROUS_PERMISSION_KEYS : List String :=
  ["identity:admin", "event:admin", "file:admin", "mail:send", "mail:read_all",
    "mail:read_role_shared", "mail:admin", "chat:moderate", "chat:delete_channel",
    "chat:slack_import", "chat:emoji_import", "chat:change_visibility", "infra:deploy",
    "infra:dns", "infra:admin", "github:admin", "drive:settings_edit",
    "calendar:meetings_edit", "lp:publish", "app:commander:view", "app:commander:edit",
    "hr:admin", "sponsor:admin", "identity:impersonate"]

def isDangerousPermission (key : String) : Bool :=
  key ∈ DANGEROUS_PERMISSION_KEYS

/-- A number of JavaScript.  The arithmetic on finite ones is exact here. -/
inductive Number where
  | finite (value : ℚ)
  | infinity
  | negInfinity
  | nan

namespace Number

/-- The comparison `number <= bound`. -/
def atMost (bound : ℚ) : Number → Bool
  | finite value => value ≤ bound
  | infinity => false
  | negInfinity => true
  | nan => false

end Number

def DEFAULT_MAX_ENTRIES : Number :=
  .finite 1000

def DEFAULT_MAX_TTL_SECONDS : ℚ :=
  300

structure AuthzCacheOptions where
  maxEntries : Option Number := none
  maxTtlSeconds : Option ℚ := none

structure CacheEntry where
  allowed : Bool
  /-- In milliseconds of the clock, as every time here. -/
  expiresAt : ℚ
  userId : String

structure AuthzDecisionCache where
  maxEntries : Number
  maxTtlSeconds : ℚ
  entries : Recency String CacheEntry

def createAuthzCache (opts : AuthzCacheOptions) : AuthzDecisionCache where
  maxEntries := opts.maxEntries.getD DEFAULT_MAX_ENTRIES
  maxTtlSeconds := opts.maxTtlSeconds.getD DEFAULT_MAX_TTL_SECONDS
  entries := ∅

/-- The separator of `cacheKey`. -/
def NUL : Char :=
  Char.ofNat 0

def cacheKey (userId orgId permission : String) : String :=
  userId ++ String.singleton NUL ++ orgId ++ String.singleton NUL ++ permission

namespace AuthzDecisionCache

variable (cache : AuthzDecisionCache)

/-- A fresh decision, or `none` where identity must be asked. -/
def get (now : ℚ) (userId orgId permission : String) : Option Bool × AuthzDecisionCache :=
  if cache.maxEntries.atMost 0 ∨ isDangerousPermission permission then (none, cache)
  else
    let key := cacheKey userId orgId permission
    match cache.entries.lookup key with
    | none => (none, cache)
    | some hit =>
      if hit.expiresAt ≤ now then
        (none, { cache with entries := cache.entries.erase key })
      else
        (some hit.allowed, { cache with entries := (cache.entries.erase key).insert key hit })

/-- Record a decision of identity. -/
def set (now : ℚ) (userId orgId permission : String)
    (allowed : Bool) (ttlSeconds : Number) : AuthzDecisionCache :=
  if cache.maxEntries.atMost 0 ∨ isDangerousPermission permission then cache
  else
    match ttlSeconds with
    | .finite seconds =>
      if seconds ≤ 0 then cache
      else
        let ttl := min seconds cache.maxTtlSeconds
        let key := cacheKey userId orgId permission
        let room := evict (fun size => cache.maxEntries.atMost size)
          (cache.entries.erase key)
        { cache with
          entries := room.insert key
            { allowed, expiresAt := now + ttl * 1000, userId } }
    | _ => cache

end AuthzDecisionCache

/-- What identity-roster answers about one check. -/
structure AuthzDecision where
  allowed : Bool
  ttlSeconds : Number

structure AuthzCheckRequest where
  subjectUserId : String
  orgId : String
  checks : List String

structure AuthzCheckResponse where
  decisions : List AuthzDecision

/-- identity-roster caps one `/authz/check` at so many queries. -/
def MAX_BATCH_CHECKS : Nat :=
  20

/-- One call of the granter, with what it meets: the clock when it looks the keys up,
and for the batch that starts at a miss what `/authz/check` answers or throws and the
clock when it has done so. -/
structure GranterCall where
  userId : String
  orgId : String
  keys : List String
  startedAt : ℚ
  answer : Nat → AuthzCheckRequest → Except String AuthzCheckResponse
  answeredAt : Nat → ℚ

structure Exchange where
  request : AuthzCheckRequest
  answer : Except String AuthzCheckResponse
  answeredAt : ℚ

/-- The variables of the granter: the decisions by position of the key, the positions
to ask about, the shared cache, and the exchanges of this call. -/
structure Granting where
  cache : AuthzDecisionCache
  allowed : Nat → Option Bool := fun _ => none
  missIdx : List Nat := []
  exchanges : List Exchange := []

variable (call : GranterCall)

/-- The first loop, for the key at one position. -/
def lookUp (granting : Granting) (indexed : String × Nat) :
    Granting :=
  let (permission, i) := indexed
  let (hit, cache) :=
    if isDangerousPermission permission then (none, granting.cache)
    else granting.cache.get call.startedAt call.userId call.orgId permission
  match hit with
  | none => { granting with cache, missIdx := granting.missIdx ++ [i] }
  | some hit =>
    { granting with cache, allowed := Function.update granting.allowed i (some hit) }

def lookUpAll (cache : AuthzDecisionCache) : Granting :=
  call.keys.zipIdx.foldl (lookUp call) { cache }

/-- The decision at position `j` of the answer to the batch that starts at `i`. -/
def recordDecision (i : Nat) (decisions : List AuthzDecision)
    (granting : Granting) (indexed : String × Nat) : Granting :=
  let (permission, j) := indexed
  match decisions[j]? with
  | none => granting
  | some decision =>
    { granting with
      allowed := Function.update granting.allowed (granting.missIdx.getD (i + j) 0)
        (some decision.allowed)
      cache := granting.cache.set (call.answeredAt i) call.userId call.orgId permission
        decision.allowed decision.ttlSeconds }

/-- The keys of the batch that starts at `i`. -/
def batchOf (missIdx : List Nat) (i : Nat) : List String :=
  ((missIdx.drop i).take MAX_BATCH_CHECKS).map fun idx => call.keys.getD idx ""

def checkRequest (batch : List String) : AuthzCheckRequest where
  subjectUserId := call.userId
  orgId := call.orgId
  checks := batch

/-- The request for the batch that starts at `i`, and what comes back. -/
def exchangeOf (missIdx : List Nat) (i : Nat) : Exchange :=
  let request := checkRequest call (batchOf call missIdx i)
  { request, answer := call.answer i request, answeredAt := call.answeredAt i }

/-- The second loop, over the starts of the batches.  A throw ends it, and keeps what
earlier batches brought into the cache. -/
def askBatches (call : GranterCall) : List Nat → Granting → Granting × Except String Unit
  | [], granting => (granting, .ok ())
  | i :: later, granting =>
    let exchange := exchangeOf call granting.missIdx i
    let asked := { granting with exchanges := granting.exchanges ++ [exchange] }
    match exchange.answer with
    | .error thrown => (asked, .error thrown)
    | .ok res =>
      askBatches call later (exchange.request.checks.zipIdx.foldl
          (recordDecision call i res.decisions) asked)

/-- The values of `i` in `for (let i = 0; i < misses; i += MAX_BATCH_CHECKS)`. -/
def batchStarts (misses : Nat) : List Nat :=
  List.range' 0 ((misses + MAX_BATCH_CHECKS - 1) / MAX_BATCH_CHECKS) MAX_BATCH_CHECKS

/-- What a call of the granter leaves behind. -/
structure Granted where
  result : Except String (List String)
  cache : AuthzDecisionCache
  exchanges : List Exchange

def granter (cache : AuthzDecisionCache) (call : GranterCall) : Granted :=
  if call.keys.length = 0 then { result := .ok [], cache, exchanges := [] }
  else
    let lookedUp := lookUpAll call cache
    let (granting, outcome) :=
      askBatches call (batchStarts lookedUp.missIdx.length) lookedUp
    { result := outcome.map fun _ =>
        (call.keys.zipIdx.filter fun (_, i) => granting.allowed i = some true).map Prod.fst
      cache := granting.cache
      exchanges := granting.exchanges }

def replay (cache : AuthzDecisionCache) : List GranterCall → AuthzDecisionCache × List Exchange
  | [] => (cache, [])
  | call :: later =>
    let granted := granter cache call
    let (final, exchanges) := replay granted.cache later
    (final, granted.exchanges ++ exchanges)

end DubEcosystem.PolicyGate
