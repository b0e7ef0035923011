import DubEcosystem.AuthSessionsSound

/-!
# auth-service: what holds in the phases of a session call

What a call relies on in each phase stays true under the steps of the others, lets it issue its
next call, and is renewed by the answer.
-/

namespace DubEcosystem.AuthSessions

open Interleaving List Option

variable {config : AppConfig} {tracked : Prop} {world before after moved : World}

/-- The call that is in this phase, once it has arrived. -/
def Phase.own? : Phase → Option Asked
  | .creating own _ _ | .naming own _ _ _ | .opening own _ _ _ _ => some own
  | .reading own _ _ | .checking own _ _ _ | .checkingActor own _ _ _ _ => some own
  | .timing own _ _ _ | .judged own _ _ _ => some own
  | .starting own _ | .labelling own _ _ | .admitting own _ _ _ => some own
  | .refreshing own _ _ | .permitting own _ _ _ | .dating own _ _ _ => some own
  | .following own _ _ _ _ _ | .lapsing own _ _ _ | .rotating own _ _ _ _ => some own
  | .gracing own _ _ _ _ _ | .returned own _ _ _ => some own
  | .stopping own _ | .ending own _ _ _ | .dropping own _ _ _ => some own
  | .leaving own _ | .parting own _ _ _ | .closing own _ _ => some own
  | .revoking own _ | .answering own _ => some own
  | .arriving _ | .ended | .astray => none

theorem own_refreshFrom (own : Asked) (parked : Option Parked) (token : String) :
    (refreshFrom own parked token).own? = some own := by
  unfold refreshFrom
  split <;> rfl

theorem own_begin (own : Asked) : own.begin.own? = some own := by
  unfold Asked.begin
  split <;> first | rfl | exact own_refreshFrom .. | (split <;> rfl)

def Start.isOp (args : Start) (op : Operation) : Prop :=
  op = .startImpersonation args.actorToken args.actorId args.subjectId

namespace World

variable (world : World)

/-- The session of the admin who starts an impersonation is one of its own. -/
def IsActor (args : Start) : Prop :=
  ∀ startedAt, world.Parks ⟨args.actorId, args.actorToken, startedAt⟩

def Asks (own : Asked) (purpose : Purpose) (token : String) : Prop :=
  match purpose with
  | .reply => own.op = .verify token
  | .start args => args.isOp own.op ∧ token = args.actorToken ∧ world.IsActor args

/-- The call is to refresh the token, or has ended an impersonation that it is parked in. -/
def Serves (tracked : Prop) (own : Asked) (parked : Option Parked) (token : String) : Prop :=
  match parked with
  | none => own.op = .refresh token
  | some parked =>
    (own.op = .refresh parked.token ∨ own.op = .stopImpersonation parked.token) ∧
      parked.impersonation.actorToken = token ∧
      world.Reads tracked own.arrival parked.token parked.stored ∧
      parked.stored.impersonation = some parked.impersonation ∧
      (parked.token, own.arrival.number) ∈ world.ended

/-- The call has read this record of a token that is to be refreshed. -/
structure Finds (tracked : Prop) (own : Asked) (parked : Option Parked) (token : String) (stored : StoredSession) :
    Prop where
  serves : world.Serves tracked own parked token
  disposed : world.Disposed own.op own.arrival
  isRecord : world.IsRecord token stored
  isOwn : stored.impersonation = none
  notClosed : tracked → stored.successor? = none → ¬world.ClosedBefore own.arrival token

def holds (config : AppConfig) (tracked : Prop) : Phase → Prop
  | .creating own _ _ => own.op.ends? = none
  | .naming own _ _ now => own.op.ends? = none ∧ now ≤ world.time
  | .opening own _ _ now _ => own.op.ends? = none ∧ now ≤ world.time
  | .reading own purpose token => world.Asks own purpose token
  | .checking own purpose token stored =>
    world.Asks own purpose token ∧ world.Reads tracked own.arrival token stored
  | .checkingActor own purpose token stored impersonation =>
    world.Asks own purpose token ∧ world.Reads tracked own.arrival token stored ∧
      stored.impersonation = some impersonation ∧
      own.arrival.Unrevoked config stored.userId world.time
  | .timing own purpose token stored =>
    world.Asks own purpose token ∧ world.Reads tracked own.arrival token stored ∧
      own.arrival.Unrevoked config stored.userId world.time ∧
      ∀ impersonation, stored.impersonation = some impersonation →
        own.arrival.Unrevoked config impersonation.actorId world.time
  | .judged own purpose token response =>
    world.Asks own purpose token ∧
      (response.valid = true → world.Verified config tracked own.arrival token response)
  | .starting own args => args.isOp own.op
  | .labelling own args now => args.isOp own.op ∧ world.IsActor args ∧ now ≤ world.time
  | .admitting own args now _ => args.isOp own.op ∧ world.IsActor args ∧ now ≤ world.time
  | .refreshing own parked token => world.Serves tracked own parked token
  | .permitting own parked token stored => world.Finds tracked own parked token stored
  | .dating own parked token stored => world.Finds tracked own parked token stored ∧
      own.arrival.Unrevoked config stored.userId world.time
  | .following own parked token stored next now => world.Finds tracked own parked token stored ∧
      stored.successor? = some next ∧ own.arrival.time ≤ now ∧
      own.arrival.Unrevoked config stored.userId now
  | .lapsing own parked token stored => world.Finds tracked own parked token stored ∧
      effectiveDeadline config stored ≤ world.time
  | .rotating own parked token stored now => world.Finds tracked own parked token stored ∧
      stored.successor? = none ∧ own.arrival.time ≤ now ∧ now < effectiveDeadline config stored ∧
      own.arrival.Unrevoked config stored.userId now ∧ lastSeenOf stored ≤ now ∧
      now ≤ world.time
  | .gracing own parked token stored now next => world.Finds tracked own parked token stored ∧
      world.Hands config tracked own.arrival token (rotatedSession config stored now next).toCreatedSession
  | .returned own parked token result =>
    world.Serves tracked own parked token ∧ world.Disposed own.op own.arrival ∧
      ∀ session, result = .ok session →
        world.Hands config tracked own.arrival token session.toCreatedSession
  | .stopping own token => own.op = .stopImpersonation token
  | .ending own token stored impersonation =>
    (own.op = .refresh token ∨ own.op = .stopImpersonation token) ∧
      world.Reads tracked own.arrival token stored ∧ stored.impersonation = some impersonation
  | .dropping own token stored impersonation =>
    (own.op = .refresh token ∨ own.op = .stopImpersonation token) ∧
      world.Reads tracked own.arrival token stored ∧ stored.impersonation = some impersonation
  | .leaving own token => own.op = .logout token
  | .parting own token stored impersonation =>
    own.op = .logout token ∧ world.IsRecord token stored ∧ stored.impersonation = some impersonation
  | .closing own token read =>
    own.op = .logout token ∧ ∀ stored, read = some stored → world.IsRecord token stored ∧
      ∀ impersonation, stored.impersonation = some impersonation →
        world.rootOf impersonation.actorToken ∈ world.closed
  | .revoking own _ => own.op.ends? = none
  | .answering own outcome => world.Disposed own.op own.arrival ∧
      world.Earns config tracked own.op own.arrival outcome
  | .arriving _ => True
  | .ended => True
  | .astray => False

def DrawsFresh : Call → Prop
  | .putNewSession _ _ _ => ∀ k < world.drawn, world.token k ≠ world.token world.drawn
  | _ => True

/-- A token is given no second successor. -/
def RotatesOnce : Call → Prop
  | .putNewSession (.rotated old) _ _ => ¬world.Superseded old
  | _ => True

/-- No chain that was logged out is given a new token, and a logout finds no other token of the
chain live. -/
def RespectsLogout : Call → Prop
  | .putNewSession (.rotated old) _ _ => world.rootOf old ∉ world.closed
  | .deleteSession (.logsOut true) token =>
    ∀ other, world.rootOf other = world.rootOf token → world.Live other → other = token
  | _ => True

end World

namespace World.Grows

section

variable (grows : before.Grows after)
include grows

theorem unrevoked {arrival : Arrival} {userId : String}
    (unrevoked : arrival.Unrevoked config userId before.time) :
    arrival.Unrevoked config userId after.time :=
  fun revokedAt member => Int.le_trans (unrevoked revokedAt member) grows.time

theorem isActor {args : Start} (isActor : before.IsActor args) : after.IsActor args := by
  intro startedAt
  obtain ⟨v, member, isParked⟩ := isActor startedAt
  exact ⟨v, grows.written v member, isParked⟩

theorem asks {own : Asked} {purpose : Purpose} {token : String}
    (asks : before.Asks own purpose token) : after.Asks own purpose token := by
  cases purpose with
  | reply => exact asks
  | start args => exact ⟨asks.1, asks.2.1, grows.isActor asks.2.2⟩

theorem serves (sound : before.Sound config tracked) {own : Asked} {parked : Option Parked}
    {token : String} (arrived : before.Arrived own.arrival)
    (serves : before.Serves tracked own parked token) : after.Serves tracked own parked token := by
  cases parked with
  | none => exact serves
  | some parked =>
    obtain ⟨isOp, isParked, reads, isFor, isEnded⟩ := serves
    exact ⟨isOp, isParked, grows.reads sound arrived reads, isFor, grows.ended _ isEnded⟩

theorem finds (sound : before.Sound config tracked) {own : Asked} {parked : Option Parked}
    {token : String} {stored : StoredSession} (arrived : before.Arrived own.arrival)
    (finds : before.Finds tracked own parked token stored) :
    after.Finds tracked own parked token stored where
  serves := grows.serves sound arrived finds.serves
  disposed := grows.disposed arrived finds.disposed
  isRecord := grows.isRecord finds.isRecord
  isOwn := finds.isOwn
  notClosed isTracked unrotated closed := finds.notClosed isTracked unrotated
    (grows.closedBefore sound arrived finds.isRecord.known closed)

/-- What a call relies on stays true when the world grows. -/
theorem holds (sound : before.Sound config tracked) {phase : Phase}
    (arrived : ∀ own, phase.own? = some own → before.Arrived own.arrival)
    (holds : before.holds config tracked phase) : after.holds config tracked phase := by
  cases phase with
  | arriving op | ended => trivial
  | creating own userId client | starting own args | stopping own token | leaving own token
  | revoking own userId | astray =>
    exact holds
  | naming own userId client now | opening own userId client now sessionId =>
    exact ⟨holds.1, Int.le_trans holds.2 grows.time⟩
  | reading own purpose token => exact grows.asks holds
  | checking own purpose token stored =>
    exact ⟨grows.asks holds.1, grows.reads sound (arrived own rfl) holds.2⟩
  | checkingActor own purpose token stored impersonation =>
    obtain ⟨asks, reads, isFor, unrevoked⟩ := holds
    exact ⟨grows.asks asks, grows.reads sound (arrived own rfl) reads, isFor,
      grows.unrevoked unrevoked⟩
  | timing own purpose token stored =>
    obtain ⟨asks, reads, unrevoked, actor⟩ := holds
    exact ⟨grows.asks asks, grows.reads sound (arrived own rfl) reads,
      grows.unrevoked unrevoked, fun impersonation isFor =>
        grows.unrevoked (actor impersonation isFor)⟩
  | judged own purpose token response =>
    exact ⟨grows.asks holds.1, fun isValid =>
      grows.verified sound (arrived own rfl) (holds.2 isValid)⟩
  | labelling own args now | admitting own args now sessionId =>
    exact ⟨holds.1, grows.isActor holds.2.1, Int.le_trans holds.2.2 grows.time⟩
  | refreshing own parked token => exact grows.serves sound (arrived own rfl) holds
  | permitting own parked token stored => exact grows.finds sound (arrived own rfl) holds
  | dating own parked token stored =>
    exact ⟨grows.finds sound (arrived own rfl) holds.1, grows.unrevoked holds.2⟩
  | following own parked token stored next now =>
    exact ⟨grows.finds sound (arrived own rfl) holds.1, holds.2⟩
  | lapsing own parked token stored =>
    exact ⟨grows.finds sound (arrived own rfl) holds.1, Int.le_trans holds.2 grows.time⟩
  | rotating own parked token stored now =>
    obtain ⟨finds, unrotated, isTime, notOver, unrevoked, isLater, isPast⟩ := holds
    exact ⟨grows.finds sound (arrived own rfl) finds, unrotated, isTime, notOver, unrevoked,
      isLater, Int.le_trans isPast grows.time⟩
  | gracing own parked token stored now next =>
    exact ⟨grows.finds sound (arrived own rfl) holds.1, grows.hands sound (arrived own rfl) holds.2⟩
  | returned own parked token result =>
    obtain ⟨serves, disposed, hands⟩ := holds
    exact ⟨grows.serves sound (arrived own rfl) serves,
      grows.disposed (arrived own rfl) disposed, fun session isOk =>
        grows.hands sound (arrived own rfl) (hands session isOk)⟩
  | ending own token stored impersonation | dropping own token stored impersonation =>
    exact ⟨holds.1, grows.reads sound (arrived own rfl) holds.2.1, holds.2.2⟩
  | parting own token stored impersonation =>
    exact ⟨holds.1, grows.isRecord holds.2.1, holds.2.2⟩
  | closing own token read =>
    refine ⟨holds.1, fun stored isRead => ?_⟩
    obtain ⟨isRecord, isClosed⟩ := holds.2 stored isRead
    refine ⟨grows.isRecord isRecord, fun impersonation isFor => ?_⟩
    rw [grows.rootOf _ (sound.ledger.known_actorToken isRecord isFor)]
    exact grows.closed _ (isClosed impersonation isFor)
  | answering own outcome =>
    exact ⟨grows.disposed (arrived own rfl) holds.1, grows.earns sound (arrived own rfl) holds.2⟩

end

end World.Grows

namespace World.Sound

variable {arrival : Arrival} {token : String} {stored : StoredSession}

section

variable (sound : world.Sound config tracked)
include sound

theorem isMalformed_eq_false (isKnown : world.Known token) : isMalformed token = false := by
  obtain ⟨w, member, rfl⟩ := isKnown
  obtain ⟨k, -, isToken⟩ := sound.ledger.drawn w member
  have looks := looksLikeToken_newSessionToken (world.random k)
  rw [show newSessionToken (world.random k) = w.token from isToken] at looks
  have notEmpty : w.token ≠ "" := by
    intro isEmpty
    rw [isEmpty] at looks
    exact absurd looks (by decide)
  simp [isMalformed, looks, notEmpty]

theorem not_closedBefore (isTracked : tracked) {live : String} (isLive : world.Live live)
    (same : world.rootOf live = world.rootOf token) : ¬world.ClosedBefore arrival token := by
  rintro ⟨a, member, -, t, stored, isLogout, isOutcome, isRoot⟩
  have earned := sound.earned a member
  rw [isOutcome] at earned
  obtain ⟨-, isClosed, parked⟩ := earned t isLogout
  have closed : world.rootOf token ∈ world.closed := by
    rcases isRoot with own | ⟨impersonation, isFor, isParked⟩
    · exact own ▸ isClosed
    · exact isParked ▸ parked impersonation isFor
  exact (sound.closed _ closed).2 isTracked live same isLive

theorem reads {entry : Entry} (isEntry : world.sessions token = some entry)
    (unrotated : entry.record.successor? = none) :
    world.Reads tracked arrival token entry.record where
  isRecord := sound.stored token entry isEntry
  notClosed isTracked := sound.not_closedBefore isTracked ⟨entry, isEntry, unrotated⟩ rfl
  notDisposed := by
    rintro ⟨a, member, -, ends, isThere⟩
    rw [sound.disposed a member token ends isThere] at isEntry
    cases isEntry

theorem unrevoked (arrived : world.Arrived arrival) {userId : String}
    (isFree : (world.revoked userId).isSome = false) :
    arrival.Unrevoked config userId world.time := by
  intro revokedAt member
  rcases sound.flags userId revokedAt (arrived.revocations _ member) with passed | ⟨expires, isFlag, -⟩
  · exact passed
  · rw [isFlag] at isFree
    cases isFree

theorem not_impersonates (isRecord : world.IsRecord token stored)
    (isOwn : stored.impersonation = none) : ¬world.Impersonates token := by
  rintro ⟨w, member, rfl, isFor⟩
  have same := sound.ledger.sameLogin ⟨w, member, rfl, rfl⟩ isRecord rfl
  exact isFor (same.impersonation.trans isOwn)

end

/-- The token that a call is to end is over when it is no impersonation or not in KV. -/
theorem disposed_of (_ : world.Sound config tracked) {op : Operation} (arrived : world.Arrived arrival)
    (ends : op.ends? = some token)
    (isOver : ¬world.Impersonates token ∨ world.sessions token = none) :
    world.Disposed op arrival := by
  intro other otherEnds isThere
  obtain rfl : token = other := some.inj (ends.symm.trans otherEnds)
  rcases isOver with notFor | gone
  · obtain ⟨w, member, isToken, isFor⟩ := isThere
    exact absurd ⟨w, arrived.written w member, isToken, isFor⟩ notFor
  · exact gone

variable {parked : Option Parked}

theorem disposed_of_serves (sound : world.Sound config tracked) {own : Asked}
    (arrived : world.Arrived own.arrival) (serves : world.Serves tracked own parked token)
    (isOver : parked = none → ¬world.Impersonates token ∨ world.sessions token = none) :
    world.Disposed own.op own.arrival := by
  cases parked with
  | none =>
    have isOp : own.op = .refresh token := serves
    exact sound.disposed_of arrived (by rw [isOp]; rfl) (isOver rfl)
  | some parked =>
    obtain ⟨isOp, -, -, -, isEnded⟩ := serves
    have ends : own.op.ends? = some parked.token := by
      rcases isOp with isOp | isOp <;> rw [isOp] <;> rfl
    exact sound.disposed_of arrived ends (.inr (sound.ended _ isEnded).2)

theorem holds_refreshFrom (sound : world.Sound config tracked) {own : Asked}
    (arrived : world.Arrived own.arrival) (serves : world.Serves tracked own parked token) :
    world.holds config tracked (refreshFrom own parked token) := by
  unfold refreshFrom
  split
  · rename_i malformed
    refine ⟨serves, sound.disposed_of_serves arrived serves fun _ => .inl fun isFor => ?_, ?_⟩
    · rw [sound.isMalformed_eq_false isFor.known] at malformed
      cases malformed
    · intro session isOk
      cases isOk
  · exact serves

end World.Sound

theorem Start.isOp.ends {args : Start} {op : Operation} (isOp : args.isOp op) : op.ends? = none := by
  rw [show op = _ from isOp]
  rfl

theorem disposed_of_none {op : Operation} {arrival : Arrival} (ends : op.ends? = none) :
    world.Disposed op arrival := by
  intro token isToken
  rw [ends] at isToken
  cases isToken

variable {stored : StoredSession}

variable {now : Int}

theorem effectiveDeadline_le_of_isIdle
    (idle : isIdle config stored now = true) : effectiveDeadline config stored ≤ now := by
  simp only [isIdle, decide_eq_true_eq] at idle
  unfold effectiveDeadline
  split <;> omega

theorem lt_effectiveDeadline
    (notOver : now < stored.absoluteExpiresAt) (notIdle : isIdle config stored now = false) :
    now < effectiveDeadline config stored := by
  simp only [isIdle, decide_eq_false_iff_not, not_and, Int.not_le] at notIdle
  unfold effectiveDeadline
  split
  · exact notOver
  · have notLater := notIdle (by omega)
    omega

section Step

variable {phase next : Phase} {request : Call} {outcome : Except TooDeep (Call.Result request)}

variable {own : Asked}

theorem admits_rotated {parked : Option Parked} {token : String}
    (sound : world.Sound config tracked)
    (finds : world.Finds tracked own parked token stored) (unrotated : stored.successor? = none)
    (free : ¬world.Superseded token) (isLater : lastSeenOf stored ≤ now) (isPast : now ≤ world.time) :
    World.Ledger.Admits world config (.rotated token) (rotatedRecord config stored now) where
  unrotated := unrotated
  notGrace := by simp
  rotated old isOld := by
    obtain rfl : token = old := by simpa using isOld
    exact ⟨free, stored, finds.isRecord, ⟨rfl, rfl, rfl, rfl⟩, finds.isOwn, isLater⟩
  parked impersonation isFor := by
    rw [show (rotatedRecord config stored now).impersonation = none from finds.isOwn] at isFor
    cases isFor
  bounded impersonation isFor := by
    rw [show (rotatedRecord config stored now).impersonation = none from finds.isOwn] at isFor
    cases isFor
  started isStarted := by cases isStarted
  mobile isMobile := by
    have isClient : stored.client = .mobile := isMobile
    obtain ⟨w, member, -, rfl⟩ := finds.isRecord
    simpa [rotatedRecord, isSliding, isClient] using sound.ledger.mobile w member isClient
  seen := by
    obtain ⟨w, member, -, rfl⟩ := finds.isRecord
    exact ⟨Int.le_trans (sound.ledger.seen w member).1 isLater, isPast⟩

section

variable {own : Asked} {result : RefreshResult} {token : String}
  (hands : ∀ session, result = .ok session → world.Hands config tracked own.arrival token session.toCreatedSession)
include hands

theorem earns_returned (serves : world.Serves tracked own none token) :
    world.Earns config tracked own.op own.arrival (.refreshed result) := by
  cases result with
  | error reason => trivial
  | ok session =>
    intro other isOp
    have isOwn : own.op = .refresh token := serves
    obtain rfl : token = other := by simpa using isOwn.symm.trans isOp
    exact .inl (hands session rfl)

omit hands in
theorem handsBack_of_serves {parked : Parked} {other : String}
    {session : CreatedSession} (serves : world.Serves tracked own (some parked) token)
    (isOp : own.op = .refresh other ∨ own.op = .stopImpersonation other)
    (hands : world.Hands config tracked own.arrival token session) :
    world.HandsBack config tracked own.arrival other session := by
  obtain ⟨isOwn, rfl, reads, isFor, isEnded⟩ := serves
  have same : parked.token = other := by
    rcases isOwn with isOwn | isOwn <;> rcases isOp with isOp | isOp <;>
      simpa using isOwn.symm.trans isOp
  subst same
  exact ⟨parked.stored, parked.impersonation, reads, isFor, isEnded, hands⟩

theorem earns_toResult {parked : Parked}
    (serves : world.Serves tracked own (some parked) token) :
    world.Earns config tracked own.op own.arrival (.refreshed (parked.stopped now result).toResult) := by
  cases result with
  | error reason => trivial
  | ok session =>
    intro other isOp
    exact .inr (handsBack_of_serves serves (.inl isOp) (hands session rfl))

end

section

variable (arrived : ∀ own, phase.own? = some own → world.Arrived own.arrival)
  (sound : world.Sound config tracked) (leads : Leads config phase request outcome next)
include arrived sound leads

/-- A call finds what it relies on. -/
theorem admits_of_leads (holds : world.holds config tracked phase)
    (isFresh : world.DrawsFresh request) (once : world.RotatesOnce request)
    (respects : tracked → world.RespectsLogout request) : world.Admits config tracked request := by
  cases leads with
  | opens isTtl =>
    refine ⟨⟨rfl, by simp, by simp, ?_, ?_, by simp, ?_, ?_⟩, isFresh, by simp⟩
    · exact fun impersonation isFor => by cases isFor
    · exact fun impersonation isFor => by cases isFor
    · rintro isMobile
      obtain rfl := isMobile
      rfl
    · exact ⟨Int.le_refl _, holds.2⟩
  | @replies own token response answer =>
    have isOwn : own.op = .verify token := holds.1
    refine ⟨arrived own rfl, disposed_of_none (by rw [isOwn]; rfl), fun other isOp isValid => ?_⟩
    obtain rfl : token = other := by simpa using isOwn.symm.trans isOp
    exact holds.2 isValid
  | @startRefused own args token response reason answer =>
    exact ⟨arrived own rfl, disposed_of_none holds.1.1.ends, trivial⟩
  | @admits own args now sessionId ttl session isTtl =>
    refine ⟨⟨rfl, by simp, by simp, ?_, ?_, fun _ => by simp [impersonationRecord], ?_, ?_⟩,
      isFresh, by simp⟩
    · rintro impersonation isFor
      cases isFor
      exact holds.2.1 now
    · rintro impersonation isFor
      cases isFor
      exact ⟨rfl, rfl, rfl⟩
    · exact fun isMobile => by cases isMobile
    · exact ⟨Int.le_refl _, holds.2.2⟩
  | @drops own token stored impersonation answer =>
    obtain ⟨-, reads, isFor⟩ := holds
    obtain ⟨w, member, isToken, isStored⟩ := reads.isRecord
    exact ⟨w, member, isToken, by simp [isStored, isFor]⟩
  | parts => exact ⟨sound.ledger.known_actorToken holds.2.1 holds.2.2, respects⟩
  | @closes own token read answer =>
    cases read with
    | none => trivial
    | some stored => exact ⟨(holds.2 stored rfl).1.known, respects⟩
  | rotates isTtl =>
    obtain ⟨finds, unrotated, -, -, -, isLater, isPast⟩ := holds
    refine ⟨admits_rotated sound finds unrotated once isLater isPast, isFresh, fun isTracked old isOld => ?_⟩
    cases isOld
    exact respects isTracked
  | graces =>
    obtain ⟨finds, ⟨w, member, isRotated, isToken, -⟩, -⟩ := holds
    exact ⟨_, _, finds.isRecord, rfl, w, member, isRotated, isToken⟩
  | revokes => rfl
  | @answersRefresh own token result answer =>
    exact ⟨arrived own rfl, holds.2.1, earns_returned holds.2.2 holds.1⟩
  | @answersEnded own parked token result now answer t isRefresh =>
    exact ⟨arrived own rfl, holds.2.1, earns_toResult holds.2.2 holds.1⟩
  | @answersStopped own parked token result now answer t isStop =>
    refine ⟨arrived own rfl, holds.2.1, fun other session isOp isOk => ?_⟩
    exact handsBack_of_serves holds.1 (.inr isOp) (holds.2.2 session isOk)
  | @answers own outcome answer => exact ⟨arrived own rfl, holds.1, holds.2⟩
  | wanders => exact absurd holds id
  | _ => trivial

omit sound in
/-- A call has arrived when it is on its way. -/
theorem arrived_of_leads (grows : world.Grows moved) (isMoved : (answer request world).2 = moved)
    (isOutcome : outcome = .ok (answer request world).1) :
    ∀ own, next.own? = some own → moved.Arrived own.arrival := by
  have kept : ∀ own, phase.own? = some own → moved.Arrived own.arrival :=
    fun own isOwn => grows.arrived (arrived own isOwn)
  cases leads with
  | @arrives op arrival =>
    cases isOutcome
    subst isMoved
    have isArrived : world.arrive.2.Arrived world.arrive.1 :=
      ⟨Nat.le_refl _, Int.le_refl _, fun _ member => member, fun _ member => member⟩
    intro own isOwn
    obtain rfl := some.inj ((own_begin _).symm.trans isOwn)
    exact isArrived
  | @drops own token stored impersonation answer =>
    intro other isOther
    exact kept other (by rw [← isOther, own_refreshFrom]; rfl)
  | replies | startRefused | strays | answersRefresh | answersEnded | answersStopped | answers =>
    intro own isOwn; cases isOwn
  | _ => exact kept

omit arrived leads in
/-- Where a call begins, it relies on nothing yet. -/
theorem holds_begin (arrived : world.Arrived own.arrival) :
    world.holds config tracked own.begin := by
  have passed : ∀ {token}, isMalformed token = true → own.op.ends? = some token →
      world.Disposed own.op own.arrival := by
    intro token malformed ends
    refine sound.disposed_of arrived ends (.inl fun isFor => ?_)
    rw [sound.isMalformed_eq_false isFor.known] at malformed
    cases malformed
  obtain ⟨op, arrival⟩ := own
  cases op with
  | create userId client | revokeUser userId => rfl
  | verify token =>
    simp only [Asked.begin]
    split
    · exact ⟨rfl, fun isValid => by cases isValid⟩
    · exact rfl
  | refresh token => exact sound.holds_refreshFrom arrived rfl
  | logout token | stopImpersonation token =>
    simp only [Asked.begin]
    split
    · rename_i malformed
      exact ⟨passed malformed rfl, trivial⟩
    · exact rfl
  | startImpersonation actorToken actorId subjectId =>
    simp only [Asked.begin]
    split
    · exact ⟨disposed_of_none rfl, trivial⟩
    · exact rfl

omit arrived leads in
theorem hands_successor {parked : Option Parked} {token after : String}
    {session : RefreshedSession}
    (finds : world.Finds tracked own parked token stored)
    (isNext : stored.successor? = some after) (isTime : own.arrival.time ≤ now)
    (unrevoked : own.arrival.Unrevoked config stored.userId now)
    (isOk : successorResult config after ((world.sessions after).map Entry.record) now =
      .ok session) : world.Hands config tracked own.arrival token session.toCreatedSession := by
  obtain ⟨w, member, rfl, rfl⟩ := finds.isRecord
  obtain ⟨s, sMember, isRotated, rfl⟩ := sound.ledger.graced w member after isNext
  cases isEntry : world.sessions s.token with
  | none =>
    rw [isEntry] at isOk
    cases isOk
  | some entry =>
    rw [isEntry] at isOk
    simp only [successorResult, map_some] at isOk
    split at isOk
    · cases isOk
    · rename_i goesOn
      cases isOk
      rw [not_or, Int.not_le, Bool.not_eq_true, Option.isSome_eq_false_iff,
        Option.isNone_iff_eq_none] at goesOn
      have isSuccessor := sound.stored _ _ isEntry
      obtain ⟨-, sameRoot, -⟩ := sound.ledger.rotated s sMember _ isRotated
      have isChain : world.rootOf w.token = world.rootOf s.token := by
        rw [sameRoot, sound.ledger.root s sMember]
      have isUser := (sound.ledger.sameLogin ⟨w, member, rfl, rfl⟩ isSuccessor isChain).userId
      constructor
      · exact ⟨s, sMember, isRotated, rfl,
          (sound.ledger.sameLogin ⟨s, sMember, rfl, rfl⟩ isSuccessor rfl).userId⟩
      · exact fun isTracked =>
          sound.not_closedBefore isTracked ⟨entry, isEntry, goesOn.2⟩ isChain.symm
      · rw [isUser] at unrevoked
        exact ⟨entry.record, now, .inr isSuccessor, goesOn.2, isTime, goesOn.1, unrevoked⟩

/-- What is answered lets a call rely on what it needs next. -/
theorem holds_of_leads (soundMoved : moved.Sound config tracked) (grows : world.Grows moved)
    (holds : world.holds config tracked phase) (isMoved : (answer request world).2 = moved)
    (isOutcome : outcome = .ok (answer request world).1) : moved.holds config tracked next := by
  have kept := grows.holds sound arrived holds
  subst isMoved
  cases leads with
  | @arrives op arrival =>
    cases isOutcome
    exact holds_begin soundMoved
      ⟨Nat.le_refl _, Int.le_refl _, fun _ member => member, fun _ member => member⟩
  | stamps =>
    cases isOutcome
    exact ⟨kept, Int.le_refl _⟩
  | names | labels | ends | wanders => exact kept
  | opens isTtl => exact ⟨disposed_of_none kept.1, trivial⟩
  | rejects => exact ⟨kept, fun isValid => by cases isValid⟩
  | @reads own purpose token stored unrotated =>
    obtain ⟨entry, isEntry, rfl⟩ := map_eq_some_iff.mp (Except.ok.inj isOutcome).symm
    exact ⟨kept, sound.reads isEntry unrotated⟩
  | refuses | refusesActor => exact ⟨kept.1, fun isValid => by cases isValid⟩
  | @passes own purpose token stored isOwn =>
    have isFree := (Except.ok.inj isOutcome).symm
    refine ⟨kept.1, kept.2, sound.unrevoked (arrived own rfl) isFree, fun impersonation isFor => ?_⟩
    rw [isOwn] at isFor
    cases isFor
  | @passesSubject own purpose token stored impersonation isFor =>
    have isFree := (Except.ok.inj isOutcome).symm
    exact ⟨kept.1, kept.2, isFor, sound.unrevoked (arrived own rfl) isFree⟩
  | @passesActor own purpose token stored impersonation =>
    have isFree := (Except.ok.inj isOutcome).symm
    obtain ⟨asks, reads, isFor, unrevoked⟩ := kept
    refine ⟨asks, reads, unrevoked, fun other isOther => ?_⟩
    obtain rfl : impersonation = other := some.inj (isFor.symm.trans isOther)
    exact sound.unrevoked (arrived own rfl) isFree
  | @times own purpose token stored now =>
    cases isOutcome
    obtain ⟨asks, reads, unrevoked, actor⟩ := kept
    exact ⟨asks, fun _ => ⟨stored, _, reads, (arrived own rfl).time, unrevoked, actor, rfl⟩⟩
  | replies | startRefused | @answersRefresh | @answersEnded | @answersStopped | answers => trivial
  | grants =>
    cases isOutcome
    exact ⟨kept.1.1, kept.1.2.2, Int.le_refl _⟩
  | @admits own args now sessionId ttl session isTtl =>
    refine ⟨disposed_of_none kept.1.ends, fun actorToken actorId subjectId isOp => ?_⟩
    obtain ⟨rfl, rfl, rfl⟩ := Operation.startImpersonation.inj (kept.1.symm.trans isOp)
    exact ⟨_, .head _, rfl, (Except.ok.inj isOutcome).symm, rfl, now, rfl⟩
  | startFails => exact ⟨disposed_of_none kept.ends, trivial⟩
  | @starts own args actor isActor isOwn =>
    obtain ⟨entry, isEntry, rfl⟩ := map_eq_some_iff.mp (Except.ok.inj isOutcome).symm
    refine ⟨kept, rfl, fun startedAt => ?_⟩
    obtain ⟨w, member, isToken, isStored⟩ := sound.stored _ _ isEntry
    exact ⟨w, member, isToken, by rw [isStored, isActor], by rw [isStored, isOwn]⟩
  | @loses own parked token =>
    have gone := map_eq_none_iff.mp (Except.ok.inj isOutcome).symm
    exact ⟨kept, sound.disposed_of_serves (arrived own rfl) kept fun _ => .inr gone,
      fun session isOk => by cases isOk⟩
  | @finds own parked token stored isOwn =>
    obtain ⟨entry, isEntry, rfl⟩ := map_eq_some_iff.mp (Except.ok.inj isOutcome).symm
    have isRecord := sound.stored _ _ isEntry
    refine ⟨kept, sound.disposed_of_serves (arrived own rfl) kept fun _ =>
      .inl (sound.not_impersonates isRecord isOwn), isRecord, isOwn, fun isTracked unrotated => ?_⟩
    exact sound.not_closedBefore isTracked ⟨entry, isEntry, unrotated⟩ rfl
  | @findsImpersonation own token stored impersonation isFor =>
    obtain ⟨entry, isEntry, rfl⟩ := map_eq_some_iff.mp (Except.ok.inj isOutcome).symm
    have unrotated := sound.ledger.successor?_eq_none (sound.stored _ _ isEntry) (by simp [isFor])
    exact ⟨.inl kept, sound.reads isEntry unrotated, isFor⟩
  | @strays own parked token stored impersonation isFor =>
    obtain ⟨entry, isEntry, rfl⟩ := map_eq_some_iff.mp (Except.ok.inj isOutcome).symm
    obtain ⟨-, rfl, reads, isParked, -⟩ := kept
    obtain ⟨w, member, -, isStored⟩ := reads.isRecord
    rw [← isStored] at isParked
    obtain ⟨v, vMember, isToken, -, isOwn⟩ := sound.ledger.parked w member _ isParked
    have same := sound.ledger.sameLogin ⟨v, vMember, isToken, rfl⟩ (sound.stored _ _ isEntry) rfl
    rw [← same.impersonation, isOwn] at isFor
    cases isFor
  | @drops own token stored impersonation answer =>
    obtain ⟨isOp, reads, isFor⟩ := kept
    apply soundMoved.holds_refreshFrom (grows.arrived (arrived own rfl))
    exact ⟨isOp, rfl, reads, isFor, .head _⟩
  | forbids => exact ⟨kept.serves, kept.disposed, fun session isOk => by cases isOk⟩
  | @permits own parked token stored =>
    have isFree := (Except.ok.inj isOutcome).symm
    exact ⟨kept, sound.unrevoked (arrived own rfl) isFree⟩
  | @datesRotated own parked token stored next now isNext =>
    cases isOutcome
    exact ⟨kept.1, isNext, (arrived own rfl).time, kept.2⟩
  | datesOver | lapses => exact ⟨kept.1.serves, kept.1.disposed, fun session isOk => by cases isOk⟩
  | datesIdle unrotated idle =>
    cases isOutcome
    exact ⟨kept.1, effectiveDeadline_le_of_isIdle idle⟩
  | @datesLive own parked token stored now unrotated notOver notIdle =>
    cases isOutcome
    obtain ⟨w, member, -, isStored⟩ := kept.1.isRecord
    have isLater := (sound.ledger.seen w member).2
    exact ⟨kept.1, unrotated, (arrived own rfl).time, lt_effectiveDeadline notOver notIdle, kept.2,
      isStored ▸ isLater, Int.le_refl _⟩
  | @follows own parked token stored next now successor =>
    cases isOutcome
    obtain ⟨finds, isNext, isTime, unrevoked⟩ := kept
    exact ⟨finds.serves, finds.disposed, fun session isOk =>
      hands_successor sound finds isNext isTime unrevoked isOk⟩
  | @rotates own parked token stored now ttl next isTtl =>
    cases isOutcome
    obtain ⟨finds, unrotated, isTime, notOver, unrevoked, -⟩ := kept
    refine ⟨finds, ⟨_, .head _, rfl, rfl, rfl⟩,
      fun isTracked => finds.notClosed isTracked unrotated, ?_⟩
    exact ⟨stored, now, .inl finds.isRecord, unrotated, isTime, notOver, unrevoked⟩
  | graces =>
    obtain ⟨finds, hands⟩ := kept
    refine ⟨finds.serves, finds.disposed, fun session isOk => ?_⟩
    cases isOk
    exact hands
  | @stopsNothing own token read isOwn =>
    cases isOutcome
    have isOp : own.op = .stopImpersonation token := kept
    refine ⟨sound.disposed_of (arrived own rfl) (by rw [isOp]; rfl) ?_, trivial⟩
    cases isEntry : world.sessions token with
    | none => exact .inr rfl
    | some entry =>
      have isNone := isOwn entry.record (by simp [answer, isEntry])
      exact .inl (sound.not_impersonates (sound.stored _ _ isEntry) isNone)
  | @stops own token stored impersonation isFor =>
    obtain ⟨entry, isEntry, rfl⟩ := map_eq_some_iff.mp (Except.ok.inj isOutcome).symm
    have unrotated := sound.ledger.successor?_eq_none (sound.stored _ _ isEntry) (by simp [isFor])
    exact ⟨.inr kept, sound.reads isEntry unrotated, isFor⟩
  | @leaves own token read isOwn =>
    refine ⟨kept, fun stored isRead => ?_⟩
    rw [isRead] at isOutcome
    obtain ⟨entry, isEntry, isStored⟩ := map_eq_some_iff.mp (Except.ok.inj isOutcome).symm
    refine ⟨isStored ▸ sound.stored _ _ isEntry, fun impersonation isFor => ?_⟩
    rw [isOwn stored isRead] at isFor
    cases isFor
  | @leavesImpersonation own token stored impersonation isFor =>
    obtain ⟨entry, isEntry, rfl⟩ := map_eq_some_iff.mp (Except.ok.inj isOutcome).symm
    exact ⟨kept, sound.stored _ _ isEntry, isFor⟩
  | @parts own token stored impersonation answer =>
    obtain ⟨isOp, isRecord, isFor⟩ := kept
    refine ⟨isOp, fun other isOther => ?_⟩
    cases isOther
    refine ⟨isRecord, fun again isAgain => ?_⟩
    obtain rfl : impersonation = again := some.inj (isFor.symm.trans isAgain)
    exact .head _
  | @closes own token read answer =>
    obtain ⟨isOp, isRead⟩ := kept
    cases read with
    | none =>
      refine ⟨soundMoved.disposed_of (grows.arrived (arrived own rfl)) (by rw [isOp]; rfl)
        (.inr ?_), trivial⟩
      exact World.sessions_dropSession_eq_none (.inl rfl)
    | some stored =>
      obtain ⟨isRecord, parked⟩ := isRead stored rfl
      refine ⟨soundMoved.disposed_of (grows.arrived (arrived own rfl)) (by rw [isOp]; rfl)
        (.inr ?_), fun other isOther => ?_⟩
      · exact World.sessions_dropSession_eq_none (.inl rfl)
      · obtain rfl : token = other := by simpa using isOp.symm.trans isOther
        exact ⟨isRecord, .head _, parked⟩
  | revokes => exact ⟨disposed_of_none kept, trivial⟩

end

end Step

end DubEcosystem.AuthSessions
