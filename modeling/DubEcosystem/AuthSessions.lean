import DubEcosystem.InterleavingProtocols
import DubEcosystem.InterleavingSchedule
import DubEcosystem.SequentialPrograms
import Mathlib.Data.List.DropRight

/-!
# auth-service: sessions

`sessions.ts` and `crypto.ts`.  A session is a record in KV under its token; a refresh puts a
successor and then leaves a grace record behind.  KV answers each call at once, and drops what has
outlived its TTL at any later time.
-/

namespace DubEcosystem.AuthSessions

open Interleaving PortPrograms List Function
open SequentialPrograms (Reaches)

def base64Digit (n : Nat) : Char :=
  if n < 26 then Char.ofNat (65 + n)
  else if n < 52 then Char.ofNat (71 + n)
  else if n < 62 then Char.ofNat (n - 4)
  else if n = 62 then '+'
  else '/'

def btoa : List UInt8 → List Char
  | a :: b :: c :: rest =>
    base64Digit (a.toNat / 4) :: base64Digit (a.toNat % 4 * 16 + b.toNat / 16) ::
      base64Digit (b.toNat % 16 * 4 + c.toNat / 64) :: base64Digit (c.toNat % 64) :: btoa rest
  | [a, b] =>
    [base64Digit (a.toNat / 4), base64Digit (a.toNat % 4 * 16 + b.toNat / 16),
      base64Digit (b.toNat % 16 * 4), '=']
  | [a] => [base64Digit (a.toNat / 4), base64Digit (a.toNat % 4 * 16), '=', '=']
  | [] => []

def urlDigit (c : Char) : Char :=
  if c = '+' then '-' else if c = '/' then '_' else c

variable (bytes : List UInt8)

def toBase64Url : String :=
  String.ofList (((btoa bytes).map urlDigit).rdropWhile fun c => c = '=')

/-- What `randomBytes(32)` fills. -/
abbrev RandomBytes :=
  Fin 32 → UInt8

def newSessionToken (bytes : RandomBytes) : String :=
  toBase64Url (List.ofFn bytes)

/-- A character of `BASE64URL`. -/
def isBase64Url (c : Char) : Bool :=
  c.isAlphanum || c = '_' || c = '-'

def looksLikeToken (token : String) : Bool :=
  32 ≤ token.length && token.length ≤ 512 && token.toList.all isBase64Url

theorem isBase64Url_urlDigit : ∀ n < 64, isBase64Url (urlDigit (base64Digit n)) = true ∧
    urlDigit (base64Digit n) ≠ '=' := by decide

theorem exists_digits : ∃ digits padding, btoa bytes = digits ++ padding ∧
    digits.length = (4 * bytes.length + 2) / 3 ∧ (∀ c ∈ digits, ∃ n < 64, c = base64Digit n) ∧
      ∀ c ∈ padding, c = '=' := by
  have small : ∀ byte : UInt8, byte.toNat < 256 := fun byte => byte.toNat_lt
  induction bytes using btoa.induct with
  | case1 a b c rest ih =>
    obtain ⟨digits, padding, isBtoa, length, isDigit, isPadding⟩ := ih
    have := small a; have := small b; have := small c
    refine ⟨base64Digit (a.toNat / 4) :: base64Digit (a.toNat % 4 * 16 + b.toNat / 16) ::
      base64Digit (b.toNat % 16 * 4 + c.toNat / 64) :: base64Digit (c.toNat % 64) :: digits,
      padding, by simp [btoa, isBtoa], by simp [length]; omega, ?_, isPadding⟩
    simp only [mem_cons, forall_eq_or_imp]
    exact ⟨⟨_, by omega, rfl⟩, ⟨_, by omega, rfl⟩, ⟨_, by omega, rfl⟩, ⟨_, by omega, rfl⟩, isDigit⟩
  | case2 a b =>
    have := small a; have := small b
    refine ⟨[base64Digit (a.toNat / 4), base64Digit (a.toNat % 4 * 16 + b.toNat / 16),
      base64Digit (b.toNat % 16 * 4)], ['='], rfl, by simp, ?_, by simp⟩
    simp only [mem_cons, forall_eq_or_imp, not_mem_nil, false_implies, implies_true, and_true]
    exact ⟨⟨_, by omega, rfl⟩, ⟨_, by omega, rfl⟩, ⟨_, by omega, rfl⟩⟩
  | case3 a =>
    have := small a
    refine ⟨[base64Digit (a.toNat / 4), base64Digit (a.toNat % 4 * 16)], ['=', '='], rfl,
      by simp, ?_, by simp⟩
    simp only [mem_cons, forall_eq_or_imp, not_mem_nil, false_implies, implies_true, and_true]
    exact ⟨⟨_, by omega, rfl⟩, ⟨_, by omega, rfl⟩⟩
  | case4 => exact ⟨[], [], rfl, rfl, by simp, by simp⟩

theorem toBase64Url_toList : (toBase64Url bytes).toList.length = (4 * bytes.length + 2) / 3 ∧
      ∀ c ∈ (toBase64Url bytes).toList, isBase64Url c = true := by
  obtain ⟨digits, padding, isBtoa, length, isDigit, isPadding⟩ := exists_digits bytes
  have padded : ∀ c ∈ (padding.map urlDigit).reverse, decide (c = '=') = true := by
    intro c member
    obtain ⟨d, dMember, rfl⟩ := List.mem_map.mp (mem_reverse.mp member)
    rw [isPadding d dMember]
    rfl
  have kept : (digits.map urlDigit).rdropWhile (fun c => decide (c = '=')) = digits.map urlDigit := by
    rw [rdropWhile_eq_self_iff]
    intro notEmpty isPad
    obtain ⟨d, dMember, same⟩ := List.mem_map.mp (getLast_mem notEmpty)
    obtain ⟨n, small, rfl⟩ := isDigit d dMember
    exact (isBase64Url_urlDigit n small).2 (same.trans (of_decide_eq_true isPad))
  have isList : (toBase64Url bytes).toList = digits.map urlDigit := by
    unfold toBase64Url
    rw [isBtoa, map_append, List.rdropWhile, reverse_append, dropWhile_append_of_pos padded]
    rw [List.rdropWhile] at kept
    rw [kept, String.toList_ofList]
  rw [isList]
  refine ⟨by rw [length_map, length], fun c member => ?_⟩
  obtain ⟨d, dMember, rfl⟩ := List.mem_map.mp member
  obtain ⟨n, small, rfl⟩ := isDigit d dMember
  exact (isBase64Url_urlDigit n small).1

/-- A minted token is one that the calls take. -/
theorem looksLikeToken_newSessionToken (bytes : RandomBytes) :
    looksLikeToken (newSessionToken bytes) = true := by
  obtain ⟨digitCount, isDigit⟩ := toBase64Url_toList (List.ofFn bytes)
  have isLength : (newSessionToken bytes).length = 43 := by
    rw [length_ofFn] at digitCount
    exact (String.length_toList).symm.trans digitCount
  simp only [looksLikeToken, isLength, Bool.and_eq_true, decide_eq_true_eq, all_eq_true]
  exact ⟨⟨by omega, by omega⟩, isDigit⟩

inductive AuthClient where
  | web
  | mobile
  deriving DecidableEq

structure StoredImpersonation where
  actorId : String
  actorToken : String
  startedAt : Int
  deriving DecidableEq

structure StoredSession where
  sessionId : String
  userId : String
  client : AuthClient
  issuedAt : Int
  accessExpiresAt : Int
  absoluteExpiresAt : Int
  lastSeenAt : Option Int
  rotatedTo : Option String
  impersonation : Option StoredImpersonation
  deriving DecidableEq

/-- `stored.rotatedTo`, as a condition: the empty text is none. -/
def StoredSession.successor? (stored : StoredSession) : Option String :=
  stored.rotatedTo.filter fun token => token ≠ ""

structure SessionInfo where
  userId : String
  client : AuthClient
  sessionExpiresAt : Int
  deriving DecidableEq

structure ImpersonationInfo where
  actorId : String
  subjectId : String
  startedAt : Int
  expiresAt : Int
  deriving DecidableEq

inductive AuthVerifyReason where
  | malformed
  | expired
  | revoked
  deriving DecidableEq

structure AuthVerifyResponse where
  valid : Bool
  userId : Option String
  session : Option SessionInfo
  reason : Option AuthVerifyReason
  impersonation : Option ImpersonationInfo
  deriving DecidableEq

structure CreatedSession where
  token : String
  session : SessionInfo
  absoluteExpiresAt : Int
  effectiveExpiresAt : Int
  deriving DecidableEq

structure EndedImpersonation where
  impersonation : ImpersonationInfo
  expired : Bool
  deriving DecidableEq

structure RefreshedSession extends CreatedSession where
  endedImpersonation : Option EndedImpersonation
  deriving DecidableEq

abbrev RefreshResult :=
  Except AuthVerifyReason RefreshedSession

inductive ImpersonationStartError where
  | actor_session_invalid
  | nested
  deriving DecidableEq

structure StartedImpersonation extends CreatedSession where
  impersonation : ImpersonationInfo
  deriving DecidableEq

structure StoppedImpersonation where
  impersonation : ImpersonationInfo
  expired : Bool
  restored : RefreshResult
  deriving DecidableEq

/-- The variables that the sessions depend on; `configFromEnv` takes positive numbers only. -/
structure AppConfig where
  accessTtlSec : Nat
  absWebTtlSec : Nat
  absMobileTtlSec : Nat
  idleTtlSec : Nat
  refreshGraceSec : Nat
  impersonationTtlSec : Nat
  impersonationRestoreGraceSec : Nat
  accessTtl_pos : 0 < accessTtlSec
  absWebTtl_pos : 0 < absWebTtlSec
  idleTtl_pos : 0 < idleTtlSec

inductive Operation where
  | create (userId : String) (client : AuthClient)
  | verify (token : String)
  | refresh (token : String)
  | logout (token : String)
  | startImpersonation (actorToken actorId subjectId : String)
  | stopImpersonation (token : String)
  | revokeUser (userId : String)
  deriving DecidableEq

/-- What a call answers.  What a logout has read is for the statements only. -/
inductive Outcome where
  | created (session : CreatedSession)
  | verified (response : AuthVerifyResponse)
  | refreshed (result : RefreshResult)
  | loggedOut (stored : Option StoredSession)
  | started (result : Except ImpersonationStartError StartedImpersonation)
  | stopped (result : Option StoppedImpersonation)
  | revoked
  deriving DecidableEq

/-- How a record came to be written. -/
inductive Origin where
  | created
  | rotated (old : String)
  | started
  | grace
  deriving DecidableEq

/-- A record that was put under a token, and the first token of its chain. -/
structure Written where
  origin : Origin
  token : String
  root : String
  record : StoredSession
  deriving DecidableEq

/-- Why a record is deleted. -/
inductive Deletion where
  | idle
  | ends (call : Nat)
  | logsOut (known : Bool)

/-- The number of a call, and what it arrived after: so many answers, this time, and what was
written and revoked by then. -/
structure Arrival where
  number : Nat
  answers : Nat
  time : Int
  written : List Written
  revocations : List (String × Int)
  deriving DecidableEq

structure Answered where
  index : Nat
  op : Operation
  arrival : Arrival
  outcome : Outcome
  time : Int
  deriving DecidableEq

structure Entry where
  record : StoredSession
  expiresAt : Int

/-- KV, the clock, and the bytes that will be drawn.  The rest is for the statements only: what was
written, by which calls impersonations were ended, which chains were logged out, when users were
revoked, and what was answered. -/
structure World where
  sessions : String → Option Entry
  revoked : String → Option Int
  time : Int
  random : Nat → RandomBytes
  drawn : Nat
  written : List Written
  ended : List (String × Nat)
  closed : List String
  revocations : List (String × Int)
  arrivals : Nat
  answered : List Answered

namespace World

variable (world : World)

/-- The token that is drawn at this point. -/
def token (k : Nat) : String :=
  newSessionToken (world.random k)

def rootOf (token : String) : String :=
  ((world.written.find? fun written => written.token = token).map Written.root).getD token

def draw : String × World :=
  (world.token world.drawn, { world with drawn := world.drawn + 1 })

variable (origin : Origin)

/-- The first token of the chain that a record with this origin is of. -/
def rootFrom (token : String) : String :=
  match origin with
  | .rotated old => world.rootOf old
  | .grace => world.rootOf token
  | .created => token
  | .started => token

def putSession (token : String) (record : StoredSession) (expirationTtl : Nat) :
    World :=
  { world with
    sessions := update world.sessions token (some ⟨record, world.time + expirationTtl * 1000⟩)
    written := ⟨origin, token, world.rootFrom origin token, record⟩ :: world.written }

def putNewSession (record : StoredSession) (expirationTtl : Nat) : String × World :=
  (world.draw.1, world.draw.2.putSession origin world.draw.1 record expirationTtl)

def dropSession (token : String) : World :=
  { world with sessions := update world.sessions token none }

def deleteSession (why : Deletion) (token : String) : World :=
  match why with
  | .idle => world.dropSession token
  | .ends call => { world.dropSession token with ended := (token, call) :: world.ended }
  | .logsOut known =>
    if known then { world.dropSession token with closed := world.rootOf token :: world.closed }
    else world.dropSession token

def putRevoked (userId : String) (expirationTtl : Nat) : World :=
  { world with
    revoked := update world.revoked userId (some (world.time + expirationTtl * 1000))
    revocations := (userId, world.time) :: world.revocations }

def arrive : Arrival × World :=
  (⟨world.arrivals, world.answered.length, world.time, world.written, world.revocations⟩,
    { world with arrivals := world.arrivals + 1 })

def respond (op : Operation) (arrival : Arrival) (outcome : Outcome) : World :=
  { world with
    answered := ⟨world.answered.length, op, arrival, outcome, world.time⟩ :: world.answered }

end World

/-- The calls.  `putNewSession` draws the token that it puts the record under. -/
inductive Call where
  | arrive
  | now
  | newSessionToken
  | getSession (token : String)
  | putNewSession (origin : Origin) (record : StoredSession) (expirationTtl : Nat)
  | putGrace (token : String) (record : StoredSession) (expirationTtl : Nat)
  | deleteSession (why : Deletion) (token : String)
  | getRevoked (userId : String)
  | putRevoked (userId : String) (expirationTtl : Nat)
  | respond (op : Operation) (arrival : Arrival) (outcome : Outcome)

abbrev Call.Result : Call → Type
  | .arrive => Arrival
  | .now => Int
  | .newSessionToken => String
  | .getSession _ => Option StoredSession
  | .putNewSession _ _ _ => String
  | .putGrace _ _ _ => Unit
  | .deleteSession _ _ => Unit
  | .getRevoked _ => Bool
  | .putRevoked _ _ => Unit
  | .respond _ _ _ => Unit

abbrev sessionPorts : Ports where
  Call := Call
  Result := Call.Result

/-- A refresh followed more parked tokens than it was given depth for. -/
inductive TooDeep where
  | tooDeep
  deriving DecidableEq

abbrev sessionSignature : Signature :=
  sessionPorts.signature TooDeep

def answer : (request : Call) → World → Call.Result request × World
  | .arrive, world => world.arrive
  | .now, world => (world.time, world)
  | .newSessionToken, world => world.draw
  | .getSession token, world => ((world.sessions token).map Entry.record, world)
  | .putNewSession origin record ttl, world => world.putNewSession origin record ttl
  | .putGrace token record ttl, world => ((), world.putSession .grace token record ttl)
  | .deleteSession why token, world => ((), world.deleteSession why token)
  | .getRevoked userId, world => ((world.revoked userId).isSome, world)
  | .putRevoked userId ttl, world => ((), world.putRevoked userId ttl)
  | .respond op arrival outcome, world => ((), world.respond op arrival outcome)

def sessionMachine : Machine sessionSignature World where
  exec request world := some (.ok (answer request world).1, (answer request world).2)
  observe _ _ world := world

section Service

abbrev SessionM (α : Type) :=
  Action sessionPorts TooDeep α

abbrev ask (request : Call) : SessionM (Call.Result request) :=
  @port sessionPorts TooDeep request

def KV_MIN_TTL : Nat := 60

/-- The TTL for a lifetime in milliseconds. -/
def kvTtl (millis : Int) : Nat :=
  max KV_MIN_TTL (-(-millis / 1000)).toNat

variable (s : StoredSession)

def toSessionInfo : SessionInfo where
  userId := s.userId
  client := s.client
  sessionExpiresAt := s.accessExpiresAt

def toImpersonationInfo : Option ImpersonationInfo :=
  s.impersonation.map fun impersonation =>
    ⟨impersonation.actorId, s.userId, impersonation.startedAt, s.absoluteExpiresAt⟩

def lastSeenOf : Int :=
  s.lastSeenAt.getD s.issuedAt

def invalid (reason : AuthVerifyReason) : AuthVerifyResponse where
  valid := false
  userId := none
  session := none
  reason := some reason
  impersonation := none

/-- `!token || !looksLikeToken(token)`. -/
def isMalformed (token : String) : Bool :=
  token = "" || !looksLikeToken token

variable (config : AppConfig)

def absTtlSec : AuthClient → Nat
  | .mobile => config.absMobileTtlSec
  | .web => config.absWebTtlSec

def isSliding (client : AuthClient) : Bool :=
  client ≠ .mobile

def idleTtlSec : AuthClient → Nat
  | .mobile => 0
  | .web => config.idleTtlSec

def effectiveDeadline (s : StoredSession) : Int :=
  if idleTtlSec config s.client ≤ 0 then s.absoluteExpiresAt
  else min s.absoluteExpiresAt (lastSeenOf s + idleTtlSec config s.client * 1000)

def createdRecord (userId : String) (client : AuthClient) (now : Int) (sessionId : String) :
    StoredSession where
  sessionId := sessionId
  userId := userId
  client := client
  issuedAt := now
  accessExpiresAt := now + config.accessTtlSec * 1000
  absoluteExpiresAt := now + absTtlSec config client * 1000
  lastSeenAt := some now
  rotatedTo := none
  impersonation := none

def create (userId : String) (client : AuthClient) : SessionM CreatedSession := do
  let now : Int ← ask .now
  let sessionId : String ← ask .newSessionToken
  let stored := createdRecord config userId client now sessionId
  let effectiveExpiresAt := effectiveDeadline config stored
  let token : String ← ask (.putNewSession .created stored (kvTtl (effectiveExpiresAt - now)))
  pure ⟨token, toSessionInfo stored, stored.absoluteExpiresAt, effectiveExpiresAt⟩

variable (stored : StoredSession)

/-- `verify`, once its user and the actor are known not to be revoked. -/
def verifyAt (now : Int) : AuthVerifyResponse :=
  if effectiveDeadline config stored ≤ now then invalid .revoked
  else if stored.accessExpiresAt ≤ now then invalid .expired
  else
    { valid := true
      userId := some stored.userId
      session := some (toSessionInfo stored)
      reason := none
      impersonation := toImpersonationInfo stored }

def isActorRevoked : SessionM Bool :=
  match stored.impersonation with
  | some impersonation => ask (.getRevoked impersonation.actorId)
  | none => pure false

def verifyStored : SessionM AuthVerifyResponse := do
  let isUserRevoked : Bool ← ask (.getRevoked stored.userId)
  if isUserRevoked then pure (invalid .revoked)
  else do
    let actorRevoked ← isActorRevoked stored
    if actorRevoked then pure (invalid .revoked)
    else do
      let now : Int ← ask .now
      pure (verifyAt config stored now)

def verify (token : String) : SessionM AuthVerifyResponse :=
  if isMalformed token then pure (invalid .malformed)
  else do
    let read : Option StoredSession ← ask (.getSession token)
    match read with
    | none => pure (invalid .revoked)
    | some stored =>
      if stored.successor?.isSome then pure (invalid .revoked)
      else verifyStored config stored

def rotatedRecord (now : Int) : StoredSession :=
  { stored with
    accessExpiresAt := now + config.accessTtlSec * 1000
    lastSeenAt := some now
    absoluteExpiresAt :=
      if isSliding stored.client then now + absTtlSec config stored.client * 1000
      else stored.absoluteExpiresAt }

/-- Put the successor, and leave the old token as a pointer to it. -/
def rotate (token : String) (stored : StoredSession) (now : Int) : SessionM RefreshResult := do
  let rotated := rotatedRecord config stored now
  let effectiveExpiresAt := effectiveDeadline config rotated
  let remainingSec := kvTtl (effectiveExpiresAt - now)
  let newToken : String ← ask (.putNewSession (.rotated token) rotated remainingSec)
  let graceSec := kvTtl (min config.refreshGraceSec remainingSec * 1000)
  ask (.putGrace token { stored with rotatedTo := some newToken } graceSec)
  pure (.ok ⟨⟨newToken, toSessionInfo rotated, rotated.absoluteExpiresAt, effectiveExpiresAt⟩, none⟩)

def successorResult (token : String) (successor : Option StoredSession) (now : Int) :
    RefreshResult :=
  match successor with
  | none => .error .revoked
  | some successor =>
    if effectiveDeadline config successor ≤ now ∨ successor.successor?.isSome then
      .error .revoked
    else
      .ok ⟨⟨token, toSessionInfo successor, successor.absoluteExpiresAt,
        effectiveDeadline config successor⟩, none⟩

/-- The idle rule of `refresh`. -/
def isIdle (now : Int) : Bool :=
  0 < idleTtlSec config stored.client ∧
    lastSeenOf stored + idleTtlSec config stored.client * 1000 ≤ now

def refreshStored (token : String) (stored : StoredSession) : SessionM RefreshResult := do
  let isUserRevoked : Bool ← ask (.getRevoked stored.userId)
  if isUserRevoked then pure (.error .revoked)
  else do
    let now : Int ← ask .now
    match stored.successor? with
    | some rotatedTo => do
      let successor : Option StoredSession ← ask (.getSession rotatedTo)
      pure (successorResult config rotatedTo successor now)
    | none =>
      if stored.absoluteExpiresAt ≤ now then pure (.error .revoked)
      else if isIdle config stored now then do
        ask (.deleteSession .idle token)
        pure (.error .revoked)
      else rotate config token stored now

/-- `call` is the number of the call, for the statements only. -/
def endImpersonation (refresh : String → SessionM RefreshResult) (call : Nat) (token : String)
    (stored : StoredSession) (impersonation : StoredImpersonation) :
    SessionM StoppedImpersonation := do
  let now : Int ← ask .now
  ask (.deleteSession (.ends call) token)
  let restored ← refresh impersonation.actorToken
  pure
    { impersonation := ⟨impersonation.actorId, stored.userId, impersonation.startedAt,
        stored.absoluteExpiresAt⟩
      expired := stored.absoluteExpiresAt ≤ now
      restored }

def StoppedImpersonation.toResult (ended : StoppedImpersonation) : RefreshResult :=
  match ended.restored with
  | .error reason => .error reason
  | .ok session =>
    .ok { session with endedImpersonation := some ⟨ended.impersonation, ended.expired⟩ }

/-- `depth` bounds how many parked tokens are followed. -/
def refresh (call : Nat) : Nat → String → SessionM RefreshResult
  | 0, _ => throw .tooDeep
  | depth + 1, token =>
    if isMalformed token then pure (.error .malformed)
    else do
      let read : Option StoredSession ← ask (.getSession token)
      match read with
      | none => pure (.error .revoked)
      | some stored =>
        match stored.impersonation with
        | some impersonation => do
          let ended ← endImpersonation (refresh call depth) call token stored impersonation
          pure ended.toResult
        | none => refreshStored config token stored

/-- The record that was read is returned for the statements only. -/
def logout (token : String) : SessionM (Option StoredSession) :=
  if isMalformed token then pure none
  else do
    let stored : Option StoredSession ← ask (.getSession token)
    match stored.bind StoredSession.impersonation with
    | some impersonation => do
      ask (.deleteSession (.logsOut true) impersonation.actorToken)
      ask (.deleteSession (.logsOut stored.isSome) token)
      pure stored
    | none => do
      ask (.deleteSession (.logsOut stored.isSome) token)
      pure stored

def impersonationRecord (actorToken actorId subjectId : String) (ttlSec : Nat) (now : Int)
    (sessionId : String) : StoredSession where
  sessionId := sessionId
  userId := subjectId
  client := .web
  issuedAt := now
  accessExpiresAt := now + ttlSec * 1000
  absoluteExpiresAt := now + ttlSec * 1000
  lastSeenAt := some now
  rotatedTo := none
  impersonation := some ⟨actorId, actorToken, now⟩

/-- `startImpersonation`, once the session of the actor has verified. -/
def mintImpersonation (actorToken actorId subjectId : String) (ttlSec restoreGraceSec : Nat) :
    SessionM StartedImpersonation := do
  let now : Int ← ask .now
  let sessionId : String ← ask .newSessionToken
  let stored := impersonationRecord actorToken actorId subjectId ttlSec now sessionId
  let token : String ← ask (.putNewSession .started stored (kvTtl ((ttlSec + restoreGraceSec) * 1000)))
  pure
    { token, session := toSessionInfo stored
      absoluteExpiresAt := stored.absoluteExpiresAt
      effectiveExpiresAt := stored.absoluteExpiresAt
      impersonation := ⟨actorId, subjectId, now, stored.absoluteExpiresAt⟩ }

def startImpersonation (actorToken actorId subjectId : String) (ttlSec restoreGraceSec : Nat) :
    SessionM (Except ImpersonationStartError StartedImpersonation) :=
  if isMalformed actorToken then pure (.error .actor_session_invalid)
  else do
    let read : Option StoredSession ← ask (.getSession actorToken)
    match read with
    | none => pure (.error .actor_session_invalid)
    | some actor =>
      if actor.successor?.isSome ∨ actor.userId ≠ actorId then
        pure (.error .actor_session_invalid)
      else if actor.impersonation.isSome then pure (.error .nested)
      else do
        let verified ← verify config actorToken
        if verified.valid then do
          let started ← mintImpersonation actorToken actorId subjectId ttlSec restoreGraceSec
          pure (.ok started)
        else pure (.error .actor_session_invalid)

def stopImpersonation (call depth : Nat) (token : String) : SessionM (Option StoppedImpersonation) :=
  if isMalformed token then pure none
  else do
    let read : Option StoredSession ← ask (.getSession token)
    match read with
    | none => pure none
    | some stored =>
      match stored.impersonation with
      | none => pure none
      | some impersonation => do
        let ended ← endImpersonation (refresh config call depth) call token stored impersonation
        pure (some ended)

def revokeUser (userId : String) : SessionM Unit :=
  ask (.putRevoked userId (kvTtl (config.absMobileTtlSec * 1000)))

/-- What the call with this number comes to. -/
def Operation.outcome (depth call : Nat) : Operation → SessionM Outcome
  | .create userId client => do
    let session ← AuthSessions.create config userId client
    pure (.created session)
  | .verify token => do
    let response ← AuthSessions.verify config token
    pure (.verified response)
  | .refresh token => do
    let result ← AuthSessions.refresh config call depth token
    pure (.refreshed result)
  | .logout token => do
    let stored ← AuthSessions.logout token
    pure (.loggedOut stored)
  | .startImpersonation actorToken actorId subjectId => do
    let result ← AuthSessions.startImpersonation config actorToken actorId subjectId
      config.impersonationTtlSec config.impersonationRestoreGraceSec
    pure (.started result)
  | .stopImpersonation token => do
    let result ← AuthSessions.stopImpersonation config call depth token
    pure (.stopped result)
  | .revokeUser userId => do
    AuthSessions.revokeUser config userId
    pure .revoked

def Operation.action (depth : Nat) (op : Operation) : SessionM Unit := do
  let arrival : Arrival ← ask .arrive
  let outcome ← op.outcome config depth arrival.number
  ask (.respond op arrival outcome)

/-- The clock goes on, and KV drops what has outlived its TTL. -/
inductive World.Moves : World → World → Prop
  | tick {world : World} {time : Int} (later : world.time ≤ time) : Moves world { world with time }
  | dropSession {world : World} {token : String} {entry : Entry}
      (isEntry : world.sessions token = some entry) (outlived : entry.expiresAt ≤ world.time) :
      Moves world (world.dropSession token)
  | dropRevoked {world : World} {userId : String} {expiresAt : Int}
      (isEntry : world.revoked userId = some expiresAt) (outlived : expiresAt ≤ world.time) :
      Moves world { world with revoked := update world.revoked userId none }

/-- Any number of calls of the operations that `runs` admits. -/
def authSessions (depth : Nat) (runs : Operation → Bool) : System sessionSignature World Operation where
  toMachine := sessionMachine
  program op := (op.action config depth).run >>= fun _ => pure ()
  startable _ op := runs op = true
  environment := World.Moves

end Service

end DubEcosystem.AuthSessions
