import DubEcosystem.AuthSessionsKept
import Mathlib.Data.List.Nodup

/-!
# auth-service: impersonations

An impersonation parks the token of its admin by value, while the admin may go on with that token
elsewhere.  Calls that take turns keep it within its bounds, and hand the admin's session back once.
-/

namespace DubEcosystem.AuthSessions

open Interleaving List Option

variable {config : AppConfig} {tracked : Prop} {world moved : World}

def Answered.Yields (answered : Answered) (token : String) (session : RefreshedSession) : Prop :=
  (answered.op = .refresh token ∧ answered.outcome = .refreshed (.ok session)) ∨
    (answered.op = .stopImpersonation token ∧
      ∃ stopped, answered.outcome = .stopped (some stopped) ∧ stopped.restored = .ok session)

def Answered.Accepts (answered : Answered) (token : String) : Prop :=
  (answered.op = .verify token ∧
      ∃ response, answered.outcome = .verified response ∧ response.valid = true) ∨
    (answered.op = .refresh token ∧ ∃ session, answered.outcome = .refreshed (.ok session))

def World.Minted (world : World) (token subjectId : String) (impersonation : StoredImpersonation) :
    Prop :=
  ∃ w ∈ world.written, w.origin = .started ∧ w.token = token ∧ w.record.userId = subjectId ∧
    w.record.impersonation = some impersonation

structure World.BoundsImpersonations (world : World) (config : AppConfig) : Prop where
  /-- What a start answers is the token of the impersonation that it was asked for. -/
  started : ∀ a ∈ world.answered, ∀ actorToken actorId subjectId session,
    a.op = .startImpersonation actorToken actorId subjectId → a.outcome = .started (.ok session) →
      ∃ startedAt, world.Minted session.token subjectId ⟨actorId, actorToken, startedAt⟩
  /-- The token verifies as its subject, before its deadline, and when neither the subject nor the
  actor was revoked since. -/
  verifies : ∀ token subjectId impersonation, world.Minted token subjectId impersonation →
    ∀ b ∈ world.answered, ∀ response, b.op = .verify token → b.outcome = .verified response →
      response.valid = true → response.userId = some subjectId ∧
        b.arrival.time < impersonation.startedAt + config.impersonationTtlSec * 1000 ∧
        ∀ revokedAt, (subjectId, revokedAt) ∈ b.arrival.revocations ∨
          (impersonation.actorId, revokedAt) ∈ b.arrival.revocations →
            revokedAt < impersonation.startedAt
  /-- What is parked is a session of the actor, and parks nothing. -/
  parked : ∀ token subjectId impersonation, world.Minted token subjectId impersonation →
    world.Known impersonation.actorToken ∧ ∀ w ∈ world.written, w.token = impersonation.actorToken →
        w.record.userId = impersonation.actorId ∧ w.record.impersonation = none
  /-- Once a stop, a refresh or a logout of it has returned, the token verifies no more. -/
  spent : ∀ a ∈ world.answered, ∀ token, a.Disposes token → ∀ b ∈ world.answered,
    a.index < b.arrival.answers → ∀ response, b.op = .verify token →
      b.outcome = .verified response → response.valid = false
  /-- What is handed back is a successor of the token that was parked, of a session of the actor
  that was live and not revoked since it was last refreshed. -/
  yields : ∀ token subjectId impersonation, world.Minted token subjectId impersonation →
    ∀ a ∈ world.answered, ∀ session, a.Yields token session →
      session.session.userId = impersonation.actorId ∧
        (∃ w ∈ world.written, w.origin = .rotated impersonation.actorToken ∧
          w.token = session.token) ∧
        ∃ stored now, (world.IsRecord impersonation.actorToken stored ∨
            world.IsRecord session.token stored) ∧
          stored.successor? = none ∧ a.arrival.time ≤ now ∧ now < effectiveDeadline config stored ∧
          ∀ revokedAt, (impersonation.actorId, revokedAt) ∈ a.arrival.revocations →
            revokedAt < lastSeenOf stored
  /-- It is handed back once. -/
  once : ∀ token subjectId impersonation, world.Minted token subjectId impersonation →
    ∀ a ∈ world.answered, ∀ b ∈ world.answered, ∀ session other, a.Yields token session →
      b.Yields token other → a = b
  /-- After a logout of the impersonation no token of the parked chain is accepted. -/
  loggedOut : ∀ a ∈ world.answered, ∀ token stored impersonation, a.op = .logout token →
    a.outcome = .loggedOut (some stored) → stored.impersonation = some impersonation →
      ∀ b ∈ world.answered, a.index < b.arrival.answers → ∀ other,
        world.rootOf other = world.rootOf impersonation.actorToken → ¬b.Accepts other

def KeepsImpersonations (condition : AppConfig → RunCondition sessionSignature World Operation)
    (config : AppConfig) (depth : Nat) : Prop :=
  ∀ world final, world.IsFresh →
    (authSessions config depth fun _ => true).ReachableUnder (freshTokens.and (condition config))
      world final → final.world.BoundsImpersonations config

/-- An impersonation is ended by one call, and started where the flag of a revoked user outlives
it and an idle session of its actor. -/
def endsOnce (config : AppConfig) : RunCondition sessionSignature World Operation :=
  callsMeet fun request world =>
    match request with
    | .deleteSession (.ends _) token => ∀ e ∈ world.ended, e.1 ≠ token
    | .putNewSession .started _ _ => config.impersonationTtlSec * 1000 ≤ flagLife config ∧
        config.idleTtlSec * 1000 ≤ flagLife config
    | _ => True

def boundsImpersonations (config : AppConfig) : RunCondition sessionSignature World Operation :=
  takesTurns.and (endsOnce config)

theorem absMobile_le_flagLife : config.absMobileTtlSec * 1000 ≤ flagLife config := by
  unfold flagLife kvTtl
  omega

variable {stored : StoredSession}

theorem effectiveDeadline_le_of_seen (isMobile : stored.client = .mobile →
      stored.absoluteExpiresAt = stored.issuedAt + config.absMobileTtlSec * 1000)
    (isSeen : stored.issuedAt ≤ lastSeenOf stored)
    (lasting : config.idleTtlSec * 1000 ≤ flagLife config) :
    effectiveDeadline config stored ≤ lastSeenOf stored + flagLife config := by
  have positive := config.idleTtl_pos
  cases isClient : stored.client with
  | mobile =>
    have isDeadline := isMobile isClient
    have notLonger := @absMobile_le_flagLife config
    simp only [effectiveDeadline, isClient, idleTtlSec]
    omega
  | web =>
    simp only [effectiveDeadline, isClient, idleTtlSec]
    omega

theorem effectiveDeadline_le {token : String}
    (ledger : world.Ledger config) (isRecord : world.IsRecord token stored)
    (lasting : config.idleTtlSec * 1000 ≤ flagLife config) :
    effectiveDeadline config stored ≤ lastSeenOf stored + flagLife config := by
  obtain ⟨w, member, -, rfl⟩ := isRecord
  exact effectiveDeadline_le_of_seen (ledger.mobile w member) (ledger.seen w member).1 lasting

section Numbers

variable {phase next : Phase} {request : Call} {outcome : Except TooDeep (Call.Result request)}
  {phases : List Phase}

/-- The numbers of the calls that have arrived and are not dropped. -/
def World.numbers (world : World) (phases : List Phase) : List Nat :=
  phases.filterMap (fun phase => phase.own?.map fun own => own.arrival.number) ++
    world.answered.map fun answered => answered.arrival.number

/-- No two calls have one number. -/
structure World.Numbered (world : World) (phases : List Phase) : Prop where
  nodup : (world.numbers phases).Nodup
  below : ∀ n ∈ world.numbers phases, n < world.arrivals

/-- Nothing arrives, and nothing is answered. -/
def Call.isQuiet : Call → Bool
  | .arrive => false
  | .respond _ _ _ => false
  | _ => true

theorem answered_of_isQuiet (quiet : request.isQuiet = true) :
    (answer request world).2.answered = world.answered ∧
      (answer request world).2.arrivals = world.arrivals := by
  cases request with
  | arrive | respond op arrival outcome => cases quiet
  | deleteSession why token =>
    cases why with
    | logsOut known => cases known <;> simp [answer, World.deleteSession, World.dropSession]
    | _ => simp [answer, World.deleteSession, World.dropSession]
  | _ =>
    simp [answer, World.putNewSession, World.putSession, World.draw, World.putRevoked]

/-- A call arrives, or answers, or goes on. -/
theorem own_of_leads (leads : Leads config phase request outcome next)
    (isOutcome : outcome = .ok (answer request world).1) (isMoved : (answer request world).2 = moved)
    (holds : world.holds config tracked phase) :
    (phase.own? = none ∧ moved.answered = world.answered ∧ moved.arrivals = world.arrivals + 1 ∧
      ∃ own, next.own? = some own ∧ own.arrival.number = world.arrivals) ∨
    (next.own? = none ∧ moved.arrivals = world.arrivals ∧
      ∃ own answered, phase.own? = some own ∧ answered.arrival = own.arrival ∧
        moved.answered = answered :: world.answered) ∨
    ((next.own? = phase.own? ∨ next.own? = none) ∧ moved.answered = world.answered ∧
      moved.arrivals = world.arrivals) := by
  subst isMoved
  have goesOn : request.isQuiet = true → next.own? = phase.own? ∨ next.own? = none →
      (next.own? = phase.own? ∨ next.own? = none) ∧
        (answer request world).2.answered = world.answered ∧
          (answer request world).2.arrivals = world.arrivals :=
    fun quiet isOwn => ⟨isOwn, answered_of_isQuiet quiet⟩
  cases leads with
  | @arrives op arrival =>
    cases isOutcome
    exact .inl ⟨rfl, rfl, rfl, _, own_begin _, rfl⟩
  | @replies own | @startRefused own | @answersRefresh own | @answersEnded own | @answersStopped own
  | @answers own =>
    exact .inr (.inl ⟨rfl, rfl, own, _, rfl, rfl, rfl⟩)
  | strays => exact .inr (.inr (goesOn rfl (.inr rfl)))
  | drops => exact .inr (.inr (goesOn rfl (.inl (own_refreshFrom ..))))
  | wanders => exact absurd holds id
  | _ => exact .inr (.inr (goesOn rfl (.inl rfl)))

theorem numbers_cons (world : World) (phase : Phase) (phases : List Phase) :
    world.numbers (phase :: phases) =
      (phase.own?.map fun own => own.arrival.number).toList ++ world.numbers phases := by
  unfold World.numbers
  cases isOwn : phase.own? <;> simp [isOwn]

theorem World.Numbered.step (numbered : world.Numbered (phase :: phases))
    (leads : Leads config phase request outcome next)
    (isOutcome : outcome = .ok (answer request world).1) (isMoved : (answer request world).2 = moved)
    (holds : world.holds config tracked phase) : moved.Numbered (next :: phases) := by
  obtain ⟨nodup, below⟩ := numbered
  rw [numbers_cons] at nodup below
  rcases own_of_leads leads isOutcome isMoved holds with
    ⟨isNone, answered, arrivals, own, isOwn, isNumber⟩ |
    ⟨isNone, arrivals, own, new, isOwn, isArrival, answered⟩ | ⟨isOwn, answered, arrivals⟩
  · have same : moved.numbers phases = world.numbers phases := by
      unfold World.numbers
      rw [answered]
    rw [isNone] at nodup below
    constructor <;> rw [numbers_cons, isOwn, same]
    · have isNew : own.arrival.number ∉ world.numbers phases := by
        intro member
        have isBelow := below _ member
        omega
      simpa using ⟨isNew, nodup⟩
    · intro n member
      rcases mem_cons.mp member with rfl | old
      · exact (Nat.lt_succ_of_le isNumber.le).trans_eq arrivals.symm
      · have isBelow := below n old
        omega
  · have perm : (world.numbers (phase :: phases)).Perm (moved.numbers (next :: phases)) := by
      unfold World.numbers
      simp only [filterMap_cons, isOwn, isNone, map_some, map_none, answered,
        map_cons, isArrival, cons_append]
      exact perm_middle.symm
    rw [numbers_cons] at perm
    exact ⟨perm.nodup_iff.mp nodup, fun n member => arrivals ▸ below n (perm.mem_iff.mpr member)⟩
  · have same : moved.numbers phases = world.numbers phases := by
      unfold World.numbers
      rw [answered]
    constructor <;> rw [numbers_cons, same]
    · rcases isOwn with isOwn | isNone
      · rw [isOwn]
        exact nodup
      · rw [isNone]
        exact (nodup_append.mp nodup).2.1
    · intro n member
      rw [arrivals]
      apply below n
      rcases isOwn with isOwn | isNone
      · rwa [isOwn] at member
      · rw [isNone] at member
        exact mem_append_right _ member

end Numbers

section Preserve

variable {phase next : Phase} {request : Call} {outcome : Except TooDeep (Call.Result request)}
  {phases : List Phase}

structure World.Bounded (world : World) (config : AppConfig) (phases : List Phase) : Prop where
  inv : world.Inv config True phases
  numbered : world.Numbered phases
  once : ∀ first ∈ world.ended, ∀ second ∈ world.ended, first.1 = second.1 → first = second
  lasting : ∀ w ∈ world.written, w.origin = .started →
    config.impersonationTtlSec * 1000 ≤ flagLife config ∧ config.idleTtlSec * 1000 ≤ flagLife config

theorem adds_of_answer (isMoved : (answer request world).2 = moved) :
    (∀ e ∈ moved.ended, e ∈ world.ended ∨ ∃ call, request = .deleteSession (.ends call) e.1 ∧
        e.2 = call) ∧
      ∀ w ∈ moved.written, w.origin = .started → w ∈ world.written ∨
        ∃ record ttl, request = .putNewSession .started record ttl := by
  subst isMoved
  cases request with
  | putNewSession origin record ttl =>
    refine ⟨fun e member => .inl member, fun w member isStarted => ?_⟩
    rcases mem_putSession.mp member with rfl | old
    · obtain rfl : origin = .started := isStarted
      exact .inr ⟨_, _, rfl⟩
    · exact .inl old
  | putGrace token record ttl =>
    refine ⟨fun e member => .inl member, fun w member isStarted => ?_⟩
    rcases mem_putSession.mp member with rfl | old
    · cases isStarted
    · exact .inl old
  | deleteSession why token =>
    cases why with
    | idle => exact ⟨fun e member => .inl member, fun w member _ => .inl member⟩
    | ends call =>
      refine ⟨fun e member => ?_, fun w member _ => .inl member⟩
      rcases mem_cons.mp member with rfl | old
      · exact .inr ⟨call, rfl, rfl⟩
      · exact .inl old
    | logsOut known =>
      cases known <;> exact ⟨fun e member => .inl member, fun w member _ => .inl member⟩
  | _ => exact ⟨fun e member => .inl member, fun w member _ => .inl member⟩

theorem World.Bounded.step (bounded : world.Bounded config (phase :: phases))
    (leads : Leads config phase request outcome next) {others : List (Operation × Prog sessionSignature Unit)}
    (permitted : (freshTokens.and (boundsImpersonations config)).mayCall request world others)
    (isMoved : (answer request world).2 = moved)
    (isOutcome : outcome = .ok (answer request world).1) : moved.Bounded config (next :: phases) := by
  obtain ⟨isFresh, ⟨once, respects⟩, ends⟩ := permitted
  obtain ⟨addsEnded, addsWritten⟩ := @adds_of_answer world moved request isMoved
  constructor
  · exact bounded.inv.step leads isFresh once (fun _ => respects) isMoved isOutcome
  · exact bounded.numbered.step leads isOutcome isMoved (bounded.inv.holds phase (.head _))
  · intro first firstMember second secondMember same
    rcases addsEnded first firstMember with old | ⟨call, rfl, isCall⟩ <;>
      rcases addsEnded second secondMember with oldToo | ⟨callToo, isRequest, isCallToo⟩
    · exact bounded.once first old second oldToo same
    · subst isRequest
      exact absurd same (ends first old)
    · exact absurd same.symm (ends second oldToo)
    · obtain ⟨isEnds, -⟩ := Call.deleteSession.inj isRequest
      exact Prod.ext same (by rw [isCall, isCallToo, Deletion.ends.inj isEnds])
  · intro w member isStarted
    rcases addsWritten w member isStarted with old | ⟨record, ttl, rfl⟩
    · exact bounded.lasting w old isStarted
    · exact ends

theorem preservesBounded (depth : Nat) (runs : Operation → Bool) :
    (sessionProtocol config).Preserves (authSessions config depth runs)
      (freshTokens.and (boundsImpersonations config)) Phase.arriving
      fun world phases => world.Bounded config phases where
  perm := by
    intro world phases reordered perm bounded
    have same : (world.numbers phases).Perm (world.numbers reordered) :=
      (perm.filterMap _).append_right _
    exact ⟨(preserves depth runs).perm perm bounded.inv, ⟨same.nodup_iff.mp bounded.numbered.nodup,
        fun n member => bounded.numbered.below n (same.mem_iff.mpr member)⟩,
      bounded.once, bounded.lasting⟩
  start := by
    intro world phases op running startable bounded
    exact ⟨(preserves depth runs).start op running startable bounded.inv,
      ⟨bounded.numbered.nodup, bounded.numbered.below⟩, bounded.once, bounded.lasting⟩
  call := by
    intro world moved phase after phases request outcome others tracks permitted answers leads bounded
    obtain ⟨isOutcome, isMoved⟩ := Prod.mk.inj answers
    exact bounded.step leads permitted isMoved isOutcome.symm
  environment := by
    intro world moved phases moves bounded
    have numbered : moved.Numbered phases ∧ moved.ended = world.ended ∧
        moved.written = world.written := by
      cases moves <;> exact ⟨⟨bounded.numbered.nodup, bounded.numbered.below⟩, rfl, rfl⟩
    refine ⟨(preserves depth runs).environment moves bounded.inv, numbered.1, ?_, ?_⟩
    · rw [numbered.2.1]
      exact bounded.once
    · rw [numbered.2.2]
      exact bounded.lasting
  stop := by
    intro world phase phases thread follows permitted bounded
    refine ⟨(preserves depth runs).stop follows ⟨permitted.1, permitted.2.1⟩ bounded.inv,
      ⟨?_, ?_⟩, bounded.once, bounded.lasting⟩
    · have nodup := bounded.numbered.nodup
      rw [numbers_cons] at nodup
      exact (nodup_append.mp nodup).2.1
    · intro n member
      apply bounded.numbered.below
      rw [numbers_cons]
      exact mem_append_right _ member

theorem World.IsFresh.bounded (isFresh : world.IsFresh) : world.Bounded config [] where
  inv := isFresh.inv
  numbered := by
    have nothing : world.numbers [] = [] := by simp [World.numbers, isFresh.answered]
    constructor <;> simp [nothing]
  once := by simp [isFresh.ended]
  lasting := by simp [isFresh.written]

end Preserve

variable {phases : List Phase} {token subjectId : String} {impersonation : StoredImpersonation}

namespace World.Bounded

section

variable (bounded : world.Bounded config phases)
include bounded

section

variable (minted : world.Minted token subjectId impersonation)
include minted

theorem exists_minted (isRecord : world.IsRecord token stored) :
    stored.userId = subjectId ∧ stored.impersonation = some impersonation := by
  obtain ⟨w, member, -, rfl, rfl, isFor⟩ := minted
  have same := bounded.inv.sound.ledger.sameLogin ⟨w, member, rfl, rfl⟩ isRecord rfl
  exact ⟨same.userId.symm, same.impersonation.symm.trans isFor⟩

theorem lasts : config.impersonationTtlSec * 1000 ≤ flagLife config ∧
      config.idleTtlSec * 1000 ≤ flagLife config := by
  obtain ⟨w, member, isStarted, -⟩ := minted
  exact bounded.lasting w member isStarted

theorem handsBack {a : Answered} (member : a ∈ world.answered) {session : RefreshedSession}
    (yields : a.Yields token session) :
    world.HandsBack config True a.arrival token session.toCreatedSession := by
  have sound := bounded.inv.sound
  have earns := sound.earned a member
  rcases yields with ⟨isRefresh, isOutcome⟩ | ⟨isStop, stopped, isOutcome, isOk⟩
  · rw [isOutcome] at earns
    rcases earns token isRefresh with hands | handsBack
    · obtain ⟨v, vMember, isRotated, -⟩ := hands.successor
      obtain ⟨w, wMember, -, isToken, -, isFor⟩ := minted
      exact absurd ⟨v, vMember, isRotated⟩
        (sound.ledger.not_superseded ⟨w, wMember, isToken, rfl⟩ (by simp [isFor]))
    · exact handsBack
  · rw [isOutcome] at earns
    exact earns token session isStop isOk

variable {arrival : Arrival} {session : CreatedSession}

theorem hands (handsBack : world.HandsBack config True arrival token session) :
    world.Hands config True arrival impersonation.actorToken session ∧
      (token, arrival.number) ∈ world.ended := by
  obtain ⟨stored, other, reads, isFor, isEnded, hands⟩ := handsBack
  obtain ⟨-, isSame⟩ := bounded.exists_minted minted reads.isRecord
  obtain rfl : other = impersonation := some.inj (isFor.symm.trans isSame)
  exact ⟨hands, isEnded⟩

theorem parked (isRecord : world.IsRecord impersonation.actorToken stored) :
    stored.userId = impersonation.actorId ∧ stored.impersonation = none := by
  have ledger := bounded.inv.sound.ledger
  obtain ⟨w, member, -, -, -, isFor⟩ := minted
  obtain ⟨v, vMember, isToken, isActor, isOwn⟩ := ledger.parked w member impersonation isFor
  have same := ledger.sameLogin ⟨v, vMember, isToken, rfl⟩ isRecord rfl
  exact ⟨same.userId.symm.trans isActor, same.impersonation.symm.trans isOwn⟩

theorem verifies {b : Answered} (member : b ∈ world.answered) {response : AuthVerifyResponse}
    (isVerify : b.op = .verify token) (isOutcome : b.outcome = .verified response)
    (isValid : response.valid = true) :
    response.userId = some subjectId ∧
      b.arrival.time < impersonation.startedAt + config.impersonationTtlSec * 1000 ∧
      ∀ revokedAt, (subjectId, revokedAt) ∈ b.arrival.revocations ∨
        (impersonation.actorId, revokedAt) ∈ b.arrival.revocations →
          revokedAt < impersonation.startedAt := by
  have earns := bounded.inv.sound.earned b member
  rw [isOutcome] at earns
  obtain ⟨stored, now, reads, isTime, unrevoked, actor, rfl⟩ := earns token isVerify isValid
  obtain ⟨rfl, isFor⟩ := bounded.exists_minted minted reads.isRecord
  obtain ⟨w, wMember, -, rfl⟩ := reads.isRecord
  obtain ⟨isBound, isAccess, -⟩ := bounded.inv.sound.ledger.bounded w wMember impersonation isFor
  have lasting := (bounded.lasts minted).1
  have isGood : now < w.record.accessExpiresAt ∧
      (verifyAt config w.record now).userId = some w.record.userId := by
    unfold verifyAt at isValid ⊢
    split at isValid
    · cases isValid
    · split at isValid
      · cases isValid
      · rename_i notOver notExpired
        rw [if_neg notOver, if_neg notExpired]
        exact ⟨by omega, rfl⟩
  refine ⟨isGood.2, by omega, fun revokedAt isRevoked => ?_⟩
  have isOver : revokedAt + flagLife config ≤ now := by
    rcases isRevoked with isSubject | isActor
    · exact unrevoked revokedAt isSubject
    · exact actor impersonation isFor revokedAt isActor
  omega

theorem yields (hands : world.Hands config True arrival impersonation.actorToken session) :
    session.session.userId = impersonation.actorId ∧
      (∃ w ∈ world.written, w.origin = .rotated impersonation.actorToken ∧
        w.token = session.token) ∧
      ∃ stored now, (world.IsRecord impersonation.actorToken stored ∨
          world.IsRecord session.token stored) ∧
        stored.successor? = none ∧ arrival.time ≤ now ∧ now < effectiveDeadline config stored ∧
        ∀ revokedAt, (impersonation.actorId, revokedAt) ∈ arrival.revocations →
          revokedAt < lastSeenOf stored := by
  have ledger := bounded.inv.sound.ledger
  obtain ⟨⟨v, vMember, isRotated, isToken, isUser⟩, -, stored, now, isRecord, rest⟩ := hands
  obtain ⟨unrotated, isTime, notOver, unrevoked⟩ := rest
  obtain ⟨⟨p, pMember, isParked⟩, sameRoot, -⟩ := ledger.rotated v vMember _ isRotated
  have isActor : session.session.userId = impersonation.actorId := by
    have isChain : world.rootOf p.token = world.rootOf v.token := by
      rw [isParked, sameRoot, ledger.root v vMember]
    have same := ledger.sameLogin ⟨p, pMember, rfl, rfl⟩ ⟨v, vMember, rfl, rfl⟩ isChain
    have isOwn := (bounded.parked minted ⟨p, pMember, isParked, rfl⟩).1
    rw [← isUser, ← same.userId, isOwn]
  refine ⟨isActor, ⟨v, vMember, isRotated, isToken⟩, stored, now, isRecord, unrotated, isTime,
    notOver, fun revokedAt isRevoked => ?_⟩
  have lasting : effectiveDeadline config stored ≤ lastSeenOf stored + flagLife config := by
    rcases isRecord with isRecord | isRecord <;>
      exact effectiveDeadline_le ledger isRecord (bounded.lasts minted).2
  have isOver := unrevoked revokedAt (isActor ▸ isRevoked)
  omega

end

theorem eq_of_ended {a b : Answered} (aMember : a ∈ world.answered) (bMember : b ∈ world.answered)
    (aEnded : (token, a.arrival.number) ∈ world.ended)
    (bEnded : (token, b.arrival.number) ∈ world.ended) : a = b := by
  have same : a.arrival.number = b.arrival.number :=
    (Prod.mk.inj (bounded.once _ aEnded _ bEnded rfl)).2
  exact inj_on_of_nodup_map (nodup_append.mp bounded.numbered.nodup).2.1 aMember bMember same

end

end World.Bounded

/-- The token of the admin is refreshed in another tab while it is parked, and the admin logs out
of the impersonation: the successor lives on. -/
def otherTab : List (Move sessionSignature World Operation) :=
  [.start (.create "admin" .web)] ++ calls 5 0 ++
    [.start (.startImpersonation (freshWorld.token 1) "admin" "subject")] ++ calls 8 0 ++
    [.start (.refresh (freshWorld.token 1))] ++ calls 7 0 ++
    [.start (.logout (freshWorld.token 3))] ++ calls 5 0 ++
    [.start (.verify (freshWorld.token 4))] ++ calls 5 0

def World.outlives (world : World) (token parked : String) : Bool :=
  world.answered.any fun a => world.answered.any fun b =>
    decide (a.op = .logout token) && decide (a.index < b.arrival.answers) &&
      match a.outcome, b.op, b.outcome with
      | .loggedOut (some stored), .verify other, .verified response =>
        decide (stored.impersonation.map StoredImpersonation.actorToken = some parked) &&
          decide (world.rootOf other = world.rootOf parked) && response.valid
      | _, _, _ => false

/-- A token is given no second successor, and no refresh stops between its two puts. -/
def rotatesOnce : RunCondition sessionSignature World Operation where
  mayCall request world _ := world.RotatesOnce request
  mayStop := takesTurns.mayStop

theorem preserves_rotatesOnce (depth : Nat) (runs : Operation → Bool) :
    (sessionProtocol config).Preserves (authSessions config depth runs)
      (freshTokens.and rotatesOnce) Phase.arriving fun world phases => world.Inv config False phases :=
  { preserves depth runs with
    call := by
      intro world moved phase after phases request outcome others tracks permitted answers leads inv
      obtain ⟨isOutcome, isMoved⟩ := Prod.mk.inj answers
      exact inv.step leads permitted.1 permitted.2 nofun isMoved isOutcome.symm
    stop := (preserves depth runs).stop }

/-- A verify answers well only before the deadlines of the record that it read: its user is that of
the chain's first token, a mobile chain ends at a fixed time after its start, and the record is
younger than every revocation that came before the call. -/
def VerifiesInTime (config : AppConfig) (depth : Nat) : Prop :=
  ∀ world final, world.IsFresh →
    (authSessions config depth fun _ => true).ReachableUnder (freshTokens.and rotatesOnce) world final →
      ∀ b ∈ final.world.answered, ∀ token response, b.op = .verify token →
        b.outcome = .verified response → response.valid = true →
          ∃ stored now, ∃ first ∈ final.world.written, final.world.IsRecord token stored ∧
            first.token = final.world.rootOf token ∧ first.record.SameLogin stored ∧
            response.userId = some first.record.userId ∧ b.arrival.time ≤ now ∧
            now < stored.accessExpiresAt ∧ now < effectiveDeadline config stored ∧
            (stored.client = .mobile → stored.absoluteExpiresAt =
              first.record.issuedAt + config.absMobileTtlSec * 1000) ∧
            (config.idleTtlSec * 1000 ≤ flagLife config → ∀ revokedAt,
              (stored.userId, revokedAt) ∈ b.arrival.revocations → revokedAt < lastSeenOf stored)

theorem verifyAt_valid {stored : StoredSession} {now : Int}
    (isValid : (verifyAt config stored now).valid = true) :
    (verifyAt config stored now).userId = some stored.userId ∧
      now < stored.accessExpiresAt ∧ now < effectiveDeadline config stored := by
  unfold verifyAt at isValid ⊢
  split_ifs at isValid ⊢ with isOver isExpired
  · cases isValid
  · cases isValid
  · exact ⟨rfl, by omega, by omega⟩

theorem verifiesInTime (depth : Nat) : VerifiesInTime config depth := by
  intro world final isFresh reached b member token response isVerify isOutcome isValid
  obtain ⟨phases, -, inv⟩ :=
    (preserves_rotatesOnce depth _).reached (governs depth _) reached isFresh.inv
  have ledger := inv.sound.ledger
  have earns := inv.sound.earned b member
  rw [isOutcome] at earns
  obtain ⟨stored, now, reads, isTime, unrevoked, -, rfl⟩ := earns token isVerify isValid
  obtain ⟨isUser, inAccess, inTime⟩ := verifyAt_valid isValid
  obtain ⟨w, wMember, rfl, rfl⟩ := reads.isRecord
  obtain ⟨first, firstMember, isRoot, sameRoot, -⟩ := ledger.rooted w wMember
  have login := ledger.login first firstMember w wMember sameRoot
  refine ⟨w.record, now, first, firstMember, reads.isRecord, isRoot.trans (ledger.root w wMember),
    login, login.userId ▸ isUser, isTime, inAccess, inTime, ?_, fun lasting revokedAt isRevoked => ?_⟩
  · rw [login.issuedAt]
    exact ledger.mobile w wMember
  · have flagged := unrevoked revokedAt isRevoked
    have seen := effectiveDeadline_le ledger reads.isRecord lasting
    omega

end DubEcosystem.AuthSessions
