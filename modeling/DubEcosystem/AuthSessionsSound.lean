import DubEcosystem.AuthSessionsLedger

/-!
# auth-service: what a session call relies on

A record that was read is one that was written, and what a call has seen since it arrived stays
true whatever the other calls do.  What is answered is earned by that.
-/

namespace DubEcosystem.AuthSessions

open Interleaving List Function

variable {config : AppConfig} {tracked : Prop} {world before after moved : World}

/-- How long the flag of a revoked user stands, in milliseconds. -/
def flagLife (config : AppConfig) : Int :=
  kvTtl (config.absMobileTtlSec * 1000) * 1000

def Operation.ends? : Operation → Option String
  | .refresh token => some token
  | .logout token => some token
  | .stopImpersonation token => some token
  | _ => none

/-- The impersonation was there when the call arrived, and is over after it. -/
def Answered.Disposes (answered : Answered) (token : String) : Prop :=
  answered.op.ends? = some token ∧
    ∃ w ∈ answered.arrival.written, w.token = token ∧ w.record.impersonation ≠ none

/-- A logout that could read its token has ended this chain: that of the token, or that of the
token that is parked in it. -/
def Answered.Closes (answered : Answered) (world : World) (root : String) : Prop :=
  ∃ token stored, answered.op = .logout token ∧ answered.outcome = .loggedOut (some stored) ∧
    (world.rootOf token = root ∨ ∃ impersonation, stored.impersonation = some impersonation ∧
      world.rootOf impersonation.actorToken = root)

/-- No flag that was put before the call arrived is still to stand at this time. -/
def Arrival.Unrevoked (arrival : Arrival) (config : AppConfig) (userId : String) (now : Int) :
    Prop :=
  ∀ revokedAt, (userId, revokedAt) ∈ arrival.revocations → revokedAt + flagLife config ≤ now

namespace World

variable (world : World)

def Impersonates (token : String) : Prop :=
  ∃ w ∈ world.written, w.token = token ∧ w.record.impersonation ≠ none

/-- The chain of the token was logged out before the call arrived. -/
def ClosedBefore (arrival : Arrival) (token : String) : Prop :=
  ∃ answered ∈ world.answered, answered.index < arrival.answers ∧
    answered.Closes world (world.rootOf token)

/-- The impersonation was ended before the call arrived. -/
def DisposedBefore (arrival : Arrival) (token : String) : Prop :=
  ∃ answered ∈ world.answered, answered.index < arrival.answers ∧ answered.Disposes token

structure Arrived (arrival : Arrival) : Prop where
  answers : arrival.answers ≤ world.answered.length
  time : arrival.time ≤ world.time
  written : ∀ w ∈ arrival.written, w ∈ world.written
  revocations : ∀ r ∈ arrival.revocations, r ∈ world.revocations

/-- The call has read this record of a token, which was not over when it arrived. -/
structure Reads (tracked : Prop) (arrival : Arrival) (token : String) (stored : StoredSession) : Prop where
  isRecord : world.IsRecord token stored
  notClosed : tracked → ¬world.ClosedBefore arrival token
  notDisposed : ¬world.DisposedBefore arrival token

def Verified (config : AppConfig) (tracked : Prop) (arrival : Arrival) (token : String)
    (response : AuthVerifyResponse) : Prop :=
  ∃ stored now, world.Reads tracked arrival token stored ∧ arrival.time ≤ now ∧
    arrival.Unrevoked config stored.userId now ∧
    (∀ impersonation, stored.impersonation = some impersonation →
      arrival.Unrevoked config impersonation.actorId now) ∧
    response = verifyAt config stored now

structure Hands (config : AppConfig) (tracked : Prop) (arrival : Arrival) (token : String)
    (session : CreatedSession) : Prop where
  successor : ∃ w ∈ world.written, w.origin = .rotated token ∧ w.token = session.token ∧
    w.record.userId = session.session.userId
  notClosed : tracked → ¬world.ClosedBefore arrival token
  live : ∃ stored now, (world.IsRecord token stored ∨ world.IsRecord session.token stored) ∧
    stored.successor? = none ∧ arrival.time ≤ now ∧ now < effectiveDeadline config stored ∧
    arrival.Unrevoked config session.session.userId now

def HandsBack (config : AppConfig) (tracked : Prop) (arrival : Arrival) (token : String)
    (session : CreatedSession) : Prop :=
  ∃ stored impersonation, world.Reads tracked arrival token stored ∧
    stored.impersonation = some impersonation ∧ (token, arrival.number) ∈ world.ended ∧
    world.Hands config tracked arrival impersonation.actorToken session

/-- The token that the call is to end is over, if it is that of an impersonation. -/
def Disposed (op : Operation) (arrival : Arrival) : Prop :=
  ∀ token, op.ends? = some token →
    (∃ w ∈ arrival.written, w.token = token ∧ w.record.impersonation ≠ none) →
      world.sessions token = none

/-- What is to be answered. -/
def Earns (config : AppConfig) (tracked : Prop) (op : Operation) (arrival : Arrival) : Outcome → Prop
  | .verified response => ∀ token, op = .verify token → response.valid = true →
      world.Verified config tracked arrival token response
  | .refreshed (.ok session) => ∀ token, op = .refresh token →
      world.Hands config tracked arrival token session.toCreatedSession ∨
        world.HandsBack config tracked arrival token session.toCreatedSession
  | .stopped (some stopped) => ∀ token session, op = .stopImpersonation token →
      stopped.restored = .ok session →
        world.HandsBack config tracked arrival token session.toCreatedSession
  | .started (.ok session) => ∀ actorToken actorId subjectId,
      op = .startImpersonation actorToken actorId subjectId → ∃ w ∈ world.written,
        w.origin = .started ∧ w.token = session.token ∧ w.record.userId = subjectId ∧
          ∃ startedAt, w.record.impersonation = some ⟨actorId, actorToken, startedAt⟩
  | .loggedOut (some stored) => ∀ token, op = .logout token →
      world.IsRecord token stored ∧ world.rootOf token ∈ world.closed ∧
        ∀ impersonation, stored.impersonation = some impersonation →
          world.rootOf impersonation.actorToken ∈ world.closed
  | _ => True

/-- The records, the flags and the answers fit what was written.  Where logouts are tracked, a chain
that was logged out has no live token. -/
structure Sound (config : AppConfig) (tracked : Prop) : Prop where
  ledger : world.Ledger config
  stored : ∀ token entry, world.sessions token = some entry → world.IsRecord token entry.record
  closed : ∀ root ∈ world.closed, world.Known root ∧
    (tracked → ∀ token, world.rootOf token = root → ¬world.Live token)
  ended : ∀ e ∈ world.ended, world.Impersonates e.1 ∧ world.sessions e.1 = none
  flags : ∀ userId revokedAt, (userId, revokedAt) ∈ world.revocations →
    revokedAt + flagLife config ≤ world.time ∨
      ∃ expiresAt, world.revoked userId = some expiresAt ∧ revokedAt + flagLife config ≤ expiresAt
  dated : ∀ userId revokedAt, (userId, revokedAt) ∈ world.revocations → revokedAt ≤ world.time
  index : ∀ answered ∈ world.answered, answered.index < world.answered.length
  arrived : ∀ answered ∈ world.answered, world.Arrived answered.arrival
  disposed : ∀ answered ∈ world.answered, world.Disposed answered.op answered.arrival
  earned : ∀ answered ∈ world.answered,
    world.Earns config tracked answered.op answered.arrival answered.outcome

/-- What every call leaves standing. -/
structure Grows (before after : World) : Prop where
  written : ∀ w ∈ before.written, w ∈ after.written
  rootOf : ∀ token, before.Known token → after.rootOf token = before.rootOf token
  answered : ∀ a ∈ after.answered, a ∈ before.answered ∨ before.answered.length ≤ a.index
  length : before.answered.length ≤ after.answered.length
  time : before.time ≤ after.time
  closed : ∀ root ∈ before.closed, root ∈ after.closed
  ended : ∀ e ∈ before.ended, e ∈ after.ended
  revocations : ∀ r ∈ before.revocations, r ∈ after.revocations
  gone : ∀ token, before.Impersonates token → before.sessions token = none →
    after.sessions token = none

end World

variable {token : String}

theorem World.Impersonates.known (isImpersonation : world.Impersonates token) :
    world.Known token := by
  obtain ⟨w, member, isToken, -⟩ := isImpersonation
  exact ⟨w, member, isToken⟩

variable {stored : StoredSession}

theorem World.IsRecord.known
    (isRecord : world.IsRecord token stored) : world.Known token := by
  obtain ⟨w, member, isToken, -⟩ := isRecord
  exact ⟨w, member, isToken⟩

namespace World.Grows

theorem known (grows : before.Grows after) (isKnown : before.Known token) :
    after.Known token := by
  obtain ⟨w, member, isToken⟩ := isKnown
  exact ⟨w, grows.written w member, isToken⟩

theorem isRecord (grows : before.Grows after)
    (isRecord : before.IsRecord token stored) : after.IsRecord token stored := by
  obtain ⟨w, member, isToken, isStored⟩ := isRecord
  exact ⟨w, grows.written w member, isToken, isStored⟩

variable {arrival : Arrival}

section

variable (grows : before.Grows after)
include grows

theorem arrived (arrived : before.Arrived arrival) : after.Arrived arrival where
  answers := arrived.answers.trans grows.length
  time := Int.le_trans arrived.time grows.time
  written w member := grows.written w (arrived.written w member)
  revocations r member := grows.revocations r (arrived.revocations r member)

theorem disposed {op : Operation} (arrived : before.Arrived arrival)
    (disposed : before.Disposed op arrival) : after.Disposed op arrival := by
  intro token ends isThere
  have isImpersonation : before.Impersonates token := by
    obtain ⟨w, member, isToken, isFor⟩ := isThere
    exact ⟨w, arrived.written w member, isToken, isFor⟩
  exact grows.gone token isImpersonation (disposed token ends isThere)

theorem answeredBefore (arrived : before.Arrived arrival) {a : Answered}
    (member : a ∈ after.answered) (isEarlier : a.index < arrival.answers) :
    a ∈ before.answered := by
  rcases grows.answered a member with old | new
  · exact old
  · have := arrived.answers
    omega

theorem disposedBefore (arrived : before.Arrived arrival)
    (disposed : after.DisposedBefore arrival token) : before.DisposedBefore arrival token := by
  obtain ⟨a, member, isEarlier, disposes⟩ := disposed
  exact ⟨a, grows.answeredBefore arrived member isEarlier, isEarlier, disposes⟩

section

variable (sound : before.Sound config tracked) (arrived : before.Arrived arrival)
include sound arrived

variable {token : String}

theorem closedBefore (isKnown : before.Known token)
    (closed : after.ClosedBefore arrival token) : before.ClosedBefore arrival token := by
  obtain ⟨a, member, isEarlier, t, stored, isLogout, isOutcome, isRoot⟩ := closed
  have old := grows.answeredBefore arrived member isEarlier
  have earned := sound.earned a old
  rw [isOutcome] at earned
  obtain ⟨isRecord, -⟩ := earned t isLogout
  refine ⟨a, old, isEarlier, t, stored, isLogout, isOutcome, ?_⟩
  rw [grows.rootOf token isKnown] at isRoot
  rcases isRoot with own | ⟨impersonation, isFor, isParked⟩
  · exact .inl ((grows.rootOf t isRecord.known).symm.trans own)
  · have isParkedKnown := sound.ledger.known_actorToken isRecord isFor
    exact .inr ⟨impersonation, isFor, (grows.rootOf _ isParkedKnown).symm.trans isParked⟩

theorem reads {token : String}
    (reads : before.Reads tracked arrival token stored) :
    after.Reads tracked arrival token stored where
  isRecord := grows.isRecord reads.isRecord
  notClosed isTracked closed := reads.notClosed isTracked
    (grows.closedBefore sound arrived reads.isRecord.known closed)
  notDisposed disposed := reads.notDisposed (grows.disposedBefore arrived disposed)

theorem verified {response : AuthVerifyResponse}
    (verified : before.Verified config tracked arrival token response) :
    after.Verified config tracked arrival token response := by
  obtain ⟨stored, now, reads, rest⟩ := verified
  exact ⟨stored, now, grows.reads sound arrived reads, rest⟩

variable {session : CreatedSession}

theorem hands (hands : before.Hands config tracked arrival token session) :
    after.Hands config tracked arrival token session := by
  obtain ⟨⟨w, member, isRotated, further⟩, notClosed, stored, now, isRecord, rest⟩ := hands
  obtain ⟨isKnown, -⟩ := sound.ledger.rotated w member token isRotated
  constructor
  · exact ⟨w, grows.written w member, isRotated, further⟩
  · exact fun isTracked closed =>
      notClosed isTracked (grows.closedBefore sound arrived isKnown closed)
  · exact ⟨stored, now, isRecord.imp grows.isRecord grows.isRecord, rest⟩

theorem handsBack (handsBack : before.HandsBack config tracked arrival token session) :
    after.HandsBack config tracked arrival token session := by
  obtain ⟨stored, impersonation, reads, isFor, isEnded, hands⟩ := handsBack
  exact ⟨stored, impersonation, grows.reads sound arrived reads, isFor, grows.ended _ isEnded,
    grows.hands sound arrived hands⟩

theorem earns {op : Operation} {outcome : Outcome}
    (earns : before.Earns config tracked op arrival outcome) :
    after.Earns config tracked op arrival outcome := by
  unfold World.Earns at earns ⊢
  split
  · exact fun token isOp isValid => grows.verified sound arrived (earns token isOp isValid)
  · exact fun token isOp => (earns token isOp).imp (grows.hands sound arrived)
      (grows.handsBack sound arrived)
  · exact fun token session isOp isOk => grows.handsBack sound arrived (earns token session isOp isOk)
  · intro actorToken actorId subjectId isOp
    obtain ⟨w, member, isStarted⟩ := earns actorToken actorId subjectId isOp
    exact ⟨w, grows.written w member, isStarted⟩
  · intro token isOp
    obtain ⟨isRecord, isClosed, parked⟩ := earns token isOp
    refine ⟨grows.isRecord isRecord, ?_, ?_⟩
    · rw [grows.rootOf token isRecord.known]
      exact grows.closed _ isClosed
    · intro impersonation isFor
      rw [grows.rootOf _ (sound.ledger.known_actorToken isRecord isFor)]
      exact grows.closed _ (parked impersonation isFor)
  · trivial

end

end

end World.Grows

def World.Admits (world : World) (config : AppConfig) (tracked : Prop) : Call → Prop
  | .putNewSession origin record _ =>
    World.Ledger.Admits world config origin record ∧
      (∀ k < world.drawn, world.token k ≠ world.token world.drawn) ∧
        (tracked → ∀ old, origin = .rotated old → world.rootOf old ∉ world.closed)
  | .putGrace token record _ => ∃ stored next, world.IsRecord token stored ∧
      record = { stored with rotatedTo := some next } ∧
        ∃ s ∈ world.written, s.origin = .rotated token ∧ s.token = next
  | .deleteSession (.ends _) token => world.Impersonates token
  | .deleteSession (.logsOut true) token => world.Known token ∧
      (tracked → ∀ other, world.rootOf other = world.rootOf token → world.Live other →
        other = token)
  | .putRevoked _ ttl => ttl = kvTtl (config.absMobileTtlSec * 1000)
  | .respond op arrival outcome => world.Arrived arrival ∧ world.Disposed op arrival ∧
      world.Earns config tracked op arrival outcome
  | _ => True

namespace World

theorem Grows.refl (world : World) : world.Grows world where
  written _ member := member
  rootOf _ _ := rfl
  answered _ member := .inl member
  length := Nat.le_refl _
  time := Int.le_refl _
  closed _ member := member
  ended _ member := member
  revocations _ member := member
  gone _ _ gone := gone

/-- What is answered and what was read stay in order when the world grows. -/
theorem Sound.of_grows (sound : before.Sound config tracked) (grows : before.Grows after)
    (ledger : after.Ledger config)
    (stored : ∀ token entry, after.sessions token = some entry → after.IsRecord token entry.record)
    (closed : ∀ root ∈ after.closed, after.Known root ∧
      (tracked → ∀ token, after.rootOf token = root → ¬after.Live token))
    (ended : ∀ e ∈ after.ended, after.Impersonates e.1 ∧ after.sessions e.1 = none)
    (dated : ∀ userId revokedAt, (userId, revokedAt) ∈ after.revocations → revokedAt ≤ after.time)
    (flags : ∀ userId revokedAt, (userId, revokedAt) ∈ after.revocations →
      revokedAt + flagLife config ≤ after.time ∨
        ∃ expiresAt, after.revoked userId = some expiresAt ∧
          revokedAt + flagLife config ≤ expiresAt)
    (answered : ∀ a ∈ after.answered, a ∈ before.answered ∨
      (a.index < after.answered.length ∧ after.Arrived a.arrival ∧ after.Disposed a.op a.arrival ∧
        after.Earns config tracked a.op a.arrival a.outcome)) : after.Sound config tracked where
  ledger := ledger
  stored := stored
  closed := closed
  ended := ended
  dated := dated
  flags := flags
  index a member := by
    rcases answered a member with old | new
    · exact Nat.lt_of_lt_of_le (sound.index a old) grows.length
    · exact new.1
  arrived a member := by
    rcases answered a member with old | new
    · exact grows.arrived (sound.arrived a old)
    · exact new.2.1
  disposed a member := by
    rcases answered a member with old | new
    · exact grows.disposed (sound.arrived a old) (sound.disposed a old)
    · exact new.2.2.1
  earned a member := by
    rcases answered a member with old | new
    · exact grows.earns sound (sound.arrived a old) (sound.earned a old)
    · exact new.2.2.2

variable {origin : Origin} {token : String} {record : StoredSession} {ttl : Nat}

variable {t : String}

theorem live_putSession : (world.putSession origin token record ttl).Live t ↔
      (t = token ∧ record.successor? = none) ∨ (t ≠ token ∧ world.Live t) := by
  unfold Live putSession
  by_cases same : t = token
  · subst same
    simp
  · simp [same]

theorem sessions_putSession_of_ne (notToken : t ≠ token) :
    (world.putSession origin token record ttl).sessions t = world.sessions t :=
  update_of_ne notToken ..

theorem grows_putSession
    (rootOf : ∀ t, world.Known t → (world.putSession origin token record ttl).rootOf t =
      world.rootOf t)
    (notFor : ¬world.Impersonates token) :
    world.Grows (world.putSession origin token record ttl) where
  written w member := mem_putSession.mpr (.inr member)
  rootOf := rootOf
  answered _ member := .inl member
  length := Nat.le_refl _
  time := Int.le_refl _
  closed _ member := member
  ended _ member := member
  revocations _ member := member
  gone t isFor gone := by
    have notToken : t ≠ token := fun same => notFor (same ▸ isFor)
    rw [sessions_putSession_of_ne notToken, gone]

theorem isRecord_putSession (stored : ∀ t entry, world.sessions t = some entry →
      world.IsRecord t entry.record) (t : String) (entry : Entry)
    (isEntry : (world.putSession origin token record ttl).sessions t = some entry) :
    (world.putSession origin token record ttl).IsRecord t entry.record := by
  by_cases same : t = token
  · subst same
    have isNew : entry.record = record := by
      simp only [putSession, update_self, Option.some.injEq] at isEntry
      rw [← isEntry]
    exact ⟨_, mem_putSession.mpr (.inl rfl), rfl, isNew.symm⟩
  · rw [sessions_putSession_of_ne same] at isEntry
    obtain ⟨w, member, isToken, isStored⟩ := stored t entry isEntry
    exact ⟨w, mem_putSession.mpr (.inr member), isToken, isStored⟩

theorem Sound.draw (sound : world.Sound config tracked) :
    world.draw.2.Sound config tracked ∧ world.Grows world.draw.2 := by
  have grows : world.Grows world.draw.2 :=
    ⟨fun _ member => member, fun _ _ => rfl, fun _ member => .inl member, Nat.le_refl _,
      Int.le_refl _, fun _ member => member, fun _ member => member, fun _ member => member,
      fun _ _ gone => gone⟩
  have ledger : world.draw.2.Ledger config := sound.ledger.congr rfl rfl (Nat.le_succ _) (Int.le_refl _)
  exact ⟨sound.of_grows grows ledger sound.stored sound.closed sound.ended sound.dated sound.flags
    fun a member => .inl member, grows⟩

theorem Grows.trans {middle : World} (first : before.Grows middle) (second : middle.Grows after) :
    before.Grows after where
  written w member := second.written w (first.written w member)
  rootOf token isKnown :=
    (second.rootOf token (first.known isKnown)).trans (first.rootOf token isKnown)
  answered a member := by
    rcases second.answered a member with old | new
    · exact first.answered a old
    · exact .inr (Nat.le_trans first.length new)
  length := Nat.le_trans first.length second.length
  time := Int.le_trans first.time second.time
  closed root member := second.closed root (first.closed root member)
  ended e member := second.ended e (first.ended e member)
  revocations r member := second.revocations r (first.revocations r member)
  gone token isFor gone := by
    obtain ⟨w, member, further⟩ := isFor
    exact second.gone token ⟨w, first.written w member, further⟩
      (first.gone token ⟨w, member, further⟩ gone)

theorem Sound.putNew {origin : Origin} {token : String} {record : StoredSession} {ttl : Nat}
    (sound : world.Sound config tracked) (admits : Ledger.Admits world config origin record)
    (isDrawn : ∃ k < world.drawn, world.token k = token) (isNew : ¬world.Known token)
    (notClosed : tracked → ∀ old, origin = .rotated old → world.rootOf old ∉ world.closed) :
    (world.putSession origin token record ttl).Sound config tracked ∧
      world.Grows (world.putSession origin token record ttl) := by
  have rootOf : ∀ t, world.Known t → (world.putSession origin token record ttl).rootOf t =
      world.rootOf t := fun t isKnown => rootOf_putSession_of_known isNew isKnown
  have grows := grows_putSession rootOf fun isFor => isNew isFor.known
  refine ⟨sound.of_grows grows (sound.ledger.putNew admits isDrawn isNew)
    (isRecord_putSession sound.stored) ?_ ?_ sound.dated sound.flags fun a member => .inl member, grows⟩
  · intro root isClosed
    obtain ⟨isKnown, notLive⟩ := sound.closed root isClosed
    refine ⟨grows.known isKnown, fun isTracked t isRoot isLive => ?_⟩
    rcases live_putSession.mp isLive with ⟨rfl, -⟩ | ⟨notToken, isLive⟩
    · rw [rootOf_putSession, if_pos rfl] at isRoot
      subst isRoot
      cases origin with
      | created | started => exact isNew isKnown
      | rotated old => exact notClosed isTracked old rfl isClosed
      | grace => exact admits.notGrace rfl
    · obtain ⟨entry, isEntry, unrotated⟩ := isLive
      have isOld : world.Known t := (sound.stored t entry isEntry).known
      exact notLive isTracked t (by rw [← isRoot, rootOf t isOld]) ⟨entry, isEntry, unrotated⟩
  · intro e member
    obtain ⟨isFor, gone⟩ := sound.ended e member
    refine ⟨?_, grows.gone _ isFor gone⟩
    obtain ⟨w, wMember, further⟩ := isFor
    exact ⟨w, grows.written w wMember, further⟩

theorem Sound.putNewSession (sound : world.Sound config tracked)
    (admits : world.Admits config tracked (.putNewSession origin record ttl)) :
    (world.putNewSession origin record ttl).2.Sound config tracked ∧
      world.Grows (world.putNewSession origin record ttl).2 := by
  obtain ⟨admits, isFresh, notClosed⟩ := admits
  have isNew : ¬world.Known (world.token world.drawn) := by
    rintro ⟨w, member, isToken⟩
    obtain ⟨k, isDrawn, isOld⟩ := sound.ledger.drawn w member
    exact isFresh k isDrawn (isOld.trans isToken)
  obtain ⟨drawn, draws⟩ := sound.draw
  have admitsDrawn : Ledger.Admits world.draw.2 config origin record :=
    ⟨admits.unrotated, admits.notGrace, admits.rotated, admits.parked, admits.bounded,
      admits.started, admits.mobile, admits.seen⟩
  have isDrawn : ∃ k < world.draw.2.drawn, world.draw.2.token k = world.draw.1 :=
    ⟨world.drawn, Nat.lt_succ_self _, rfl⟩
  obtain ⟨put, puts⟩ := @Sound.putNew config tracked world.draw.2 origin world.draw.1 record ttl drawn
    admitsDrawn isDrawn isNew notClosed
  exact ⟨put, draws.trans puts⟩

section

variable (admits : world.Admits config tracked (.putGrace token record ttl))
include admits

theorem Sound.successor?_grace (sound : world.Sound config tracked) : record.successor? ≠ none := by
  obtain ⟨stored, next, -, rfl, s, sMember, -, isNext⟩ := admits
  obtain ⟨k, -, isToken⟩ := sound.ledger.drawn s sMember
  have looks := looksLikeToken_newSessionToken (world.random k)
  have hasSuccessor : next ≠ "" := by
    rintro rfl
    rw [show newSessionToken (world.random k) = "" from isToken.trans isNext] at looks
    exact absurd looks (by decide)
  simp [StoredSession.successor?, hasSuccessor]

theorem Sound.putGrace (sound : world.Sound config tracked) :
    (world.putSession .grace token record ttl).Sound config tracked ∧
      world.Grows (world.putSession .grace token record ttl) := by
  have hasSuccessor := sound.successor?_grace admits
  obtain ⟨stored, next, isRecord, rfl, s, sMember, isRotated, isNext⟩ := admits
  have notFor : ¬world.Impersonates token := by
    rintro ⟨w, member, isToken, isFor⟩
    exact sound.ledger.not_superseded ⟨w, member, isToken, rfl⟩ isFor ⟨s, sMember, isRotated⟩
  have rootOf : ∀ t, (world.putSession .grace token { stored with rotatedTo := some next }
      ttl).rootOf t = world.rootOf t := by
    intro t
    rw [rootOf_putSession]
    split
    · rename_i same
      rw [← same]
      rfl
    · rfl
  have grows := @grows_putSession world .grace token { stored with rotatedTo := some next } ttl
    (fun t _ => rootOf t) notFor
  refine ⟨sound.of_grows grows (sound.ledger.putGrace isRecord ⟨s, sMember, isRotated, isNext⟩)
    (isRecord_putSession sound.stored) ?_ ?_ sound.dated sound.flags fun a member => .inl member, grows⟩
  · intro root isClosed
    obtain ⟨isKnown, notLive⟩ := sound.closed root isClosed
    refine ⟨grows.known isKnown, fun isTracked t isRoot isLive => ?_⟩
    rcases live_putSession.mp isLive with ⟨-, unrotated⟩ | ⟨-, isLive⟩
    · exact hasSuccessor unrotated
    · exact notLive isTracked t (by rw [← isRoot, rootOf t]) isLive
  · intro e member
    obtain ⟨isFor, gone⟩ := sound.ended e member
    refine ⟨?_, grows.gone _ isFor gone⟩
    obtain ⟨w, wMember, further⟩ := isFor
    exact ⟨w, grows.written w wMember, further⟩

end

theorem live_dropSession :
    (world.dropSession token).Live t ↔ t ≠ token ∧ world.Live t := by
  unfold Live dropSession
  by_cases same : t = token
  · subst same
    simp
  · simp [same]

theorem sessions_dropSession {entry : Entry}
    (isEntry : (world.dropSession token).sessions t = some entry) :
    t ≠ token ∧ world.sessions t = some entry := by
  by_cases same : t = token
  · subst same
    simp [dropSession] at isEntry
  · rw [show (world.dropSession token).sessions t = world.sessions t from
      update_of_ne same ..] at isEntry
    exact ⟨same, isEntry⟩

theorem sessions_dropSession_eq_none
    (gone : t = token ∨ world.sessions t = none) : (world.dropSession token).sessions t = none := by
  cases isEntry : (world.dropSession token).sessions t with
  | none => rfl
  | some entry =>
    obtain ⟨notToken, isOld⟩ := sessions_dropSession isEntry
    rcases gone with same | gone
    · exact absurd same notToken
    · rw [gone] at isOld
      cases isOld

/-- A record is taken away, and it is noted that this ends an impersonation or a chain. -/
theorem Sound.drop {token : String} {ended : List (String × Nat)} {closed : List String}
    (sound : world.Sound config tracked) (endedGrows : ∀ e ∈ world.ended, e ∈ ended)
    (closedGrows : ∀ root ∈ world.closed, root ∈ closed)
    (ends : ∀ e ∈ ended, e ∈ world.ended ∨ (e.1 = token ∧ world.Impersonates token))
    (closes : ∀ root ∈ closed, root ∈ world.closed ∨
      (root = world.rootOf token ∧ world.Known token ∧
        (tracked → ∀ other, world.rootOf other = world.rootOf token → world.Live other →
          other = token))) :
    ({ world.dropSession token with ended, closed } : World).Sound config tracked ∧
      world.Grows { world.dropSession token with ended, closed } := by
  have grows : world.Grows { world.dropSession token with ended, closed } :=
    ⟨fun _ member => member, fun _ _ => rfl, fun _ member => .inl member, Nat.le_refl _,
      Int.le_refl _, closedGrows, endedGrows, fun _ member => member,
      fun _ _ gone => sessions_dropSession_eq_none (.inr gone)⟩
  have ledger : ({ world.dropSession token with ended, closed } : World).Ledger config :=
    sound.ledger.congr rfl rfl (Nat.le_refl _) (Int.le_refl _)
  refine ⟨sound.of_grows grows ledger ?_ ?_ ?_ sound.dated sound.flags fun a member => .inl member, grows⟩
  · exact fun t entry isEntry => sound.stored t entry (sessions_dropSession isEntry).2
  · intro root isClosed
    rcases closes root isClosed with old | ⟨rfl, isKnown, alone⟩
    · obtain ⟨isKnown, notLive⟩ := sound.closed root old
      exact ⟨isKnown, fun isTracked t isRoot isLive =>
        notLive isTracked t isRoot (live_dropSession.mp isLive).2⟩
    · refine ⟨sound.ledger.known_rootOf isKnown, fun isTracked t isRoot isLive => ?_⟩
      obtain ⟨notToken, isLive⟩ := live_dropSession.mp isLive
      exact notToken (alone isTracked t isRoot isLive)
  · intro e member
    rcases ends e member with old | ⟨rfl, isFor⟩
    · obtain ⟨isFor, gone⟩ := sound.ended e old
      exact ⟨isFor, sessions_dropSession_eq_none (.inr gone)⟩
    · exact ⟨isFor, sessions_dropSession_eq_none (.inl rfl)⟩

theorem Sound.deleteSession {why : Deletion} (sound : world.Sound config tracked)
    (admits : world.Admits config tracked (.deleteSession why token)) :
    (world.deleteSession why token).Sound config tracked ∧
      world.Grows (world.deleteSession why token) := by
  have plain := @Sound.drop config tracked world token world.ended world.closed sound
    (fun _ member => member) (fun _ member => member) (fun _ member => .inl member)
    fun _ member => .inl member
  cases why with
  | idle => exact plain
  | ends call =>
    apply sound.drop (fun _ member => mem_cons_of_mem _ member) (fun _ member => member)
    · rintro e (_ | ⟨_, old⟩)
      · exact .inr ⟨rfl, admits⟩
      · exact .inl old
    · exact fun _ member => .inl member
  | logsOut known =>
    cases known with
    | false => exact plain
    | true =>
      apply sound.drop (fun _ member => member) fun _ member => mem_cons_of_mem _ member
      · exact fun _ member => .inl member
      · rintro root (_ | ⟨_, old⟩)
        · exact .inr ⟨rfl, admits⟩
        · exact .inl old

theorem Sound.putRevoked {userId : String} (sound : world.Sound config tracked) :
    (world.putRevoked userId (kvTtl (config.absMobileTtlSec * 1000))).Sound config tracked ∧
      world.Grows (world.putRevoked userId (kvTtl (config.absMobileTtlSec * 1000))) := by
  have grows : world.Grows (world.putRevoked userId (kvTtl (config.absMobileTtlSec * 1000))) :=
    ⟨fun _ member => member, fun _ _ => rfl, fun _ member => .inl member, Nat.le_refl _,
      Int.le_refl _, fun _ member => member, fun _ member => member,
      fun _ member => mem_cons_of_mem _ member, fun _ _ gone => gone⟩
  have ledger : (world.putRevoked userId (kvTtl (config.absMobileTtlSec * 1000))).Ledger config :=
    sound.ledger.congr rfl rfl (Nat.le_refl _) (Int.le_refl _)
  refine ⟨sound.of_grows grows ledger sound.stored sound.closed sound.ended ?_ ?_
    fun a member => .inl member, grows⟩
  · intro user revokedAt member
    rcases mem_cons.mp member with isNew | old
    · rw [(Prod.mk.inj isNew).2]
      exact Int.le_refl _
    · exact sound.dated user revokedAt old
  intro user revokedAt member
  by_cases same : user = userId
  · subst same
    right
    refine ⟨_, update_self .., ?_⟩
    rcases mem_cons.mp member with isNew | old
    · rw [(Prod.mk.inj isNew).2]
      exact Int.le_refl _
    · -- An earlier revocation of the user is outlived by this one.
      have notLater := sound.dated _ _ old
      unfold flagLife
      omega
  · have old : (user, revokedAt) ∈ world.revocations := by
      rcases mem_cons.mp member with isNew | old
      · exact absurd (Prod.mk.inj isNew).1 same
      · exact old
    rcases sound.flags user revokedAt old with passed | ⟨expiresAt, isFlag, stands⟩
    · exact .inl passed
    · exact .inr ⟨expiresAt, (update_of_ne same ..).trans isFlag, stands⟩

theorem Sound.respond {op : Operation} {arrival : Arrival} {outcome : Outcome}
    (sound : world.Sound config tracked) (admits : world.Admits config tracked (.respond op arrival outcome)) :
    (world.respond op arrival outcome).Sound config tracked ∧
      world.Grows (world.respond op arrival outcome) := by
  obtain ⟨arrived, disposed, earns⟩ := admits
  have grows : world.Grows (world.respond op arrival outcome) := by
    refine ⟨fun _ member => member, fun _ _ => rfl, ?_, Nat.le_succ _, Int.le_refl _,
      fun _ member => member, fun _ member => member, fun _ member => member,
      fun _ _ gone => gone⟩
    exact forall_mem_cons.mpr ⟨.inr (Nat.le_refl _), fun a old => .inl old⟩
  have ledger : (world.respond op arrival outcome).Ledger config :=
    sound.ledger.congr rfl rfl (Nat.le_refl _) (Int.le_refl _)
  refine ⟨sound.of_grows grows ledger sound.stored sound.closed sound.ended sound.dated sound.flags ?_, grows⟩
  intro a member
  rcases mem_cons.mp member with rfl | old
  · exact .inr ⟨Nat.lt_succ_self _, grows.arrived arrived, grows.disposed arrived disposed,
      grows.earns sound arrived earns⟩
  · exact .inl old

/-- A call that finds what it relies on keeps the world in order. -/
theorem Sound.answer {request : Call} (sound : world.Sound config tracked)
    (admits : world.Admits config tracked request)
    (isMoved : (answer request world).2 = moved) :
    moved.Sound config tracked ∧ world.Grows moved := by
  subst isMoved
  cases request with
  | arrive =>
    have grows : world.Grows world.arrive.2 :=
      ⟨fun _ member => member, fun _ _ => rfl, fun _ member => .inl member, Nat.le_refl _,
        Int.le_refl _, fun _ member => member, fun _ member => member, fun _ member => member,
        fun _ _ gone => gone⟩
    have ledger : world.arrive.2.Ledger config :=
      sound.ledger.congr rfl rfl (Nat.le_refl _) (Int.le_refl _)
    exact ⟨sound.of_grows grows ledger sound.stored sound.closed sound.ended sound.dated
      sound.flags fun a member => .inl member, grows⟩
  | now | getSession token | getRevoked userId => exact ⟨sound, .refl world⟩
  | newSessionToken => exact sound.draw
  | putNewSession origin record ttl => exact sound.putNewSession admits
  | putGrace token record ttl => exact sound.putGrace admits
  | deleteSession why token => exact sound.deleteSession admits
  | putRevoked userId ttl =>
    obtain rfl := admits
    exact sound.putRevoked
  | respond op arrival outcome => exact sound.respond admits

theorem Sound.environment (sound : world.Sound config tracked) (moves : world.Moves moved) :
    moved.Sound config tracked ∧ world.Grows moved := by
  cases moves with
  | @tick time later =>
    have grows : world.Grows { world with time } :=
      ⟨fun _ member => member, fun _ _ => rfl, fun _ member => .inl member, Nat.le_refl _,
        later, fun _ member => member, fun _ member => member, fun _ member => member,
        fun _ _ gone => gone⟩
    have ledger : ({ world with time } : World).Ledger config :=
      sound.ledger.congr rfl rfl (Nat.le_refl _) later
    refine ⟨sound.of_grows grows ledger sound.stored sound.closed sound.ended ?_ ?_
      fun a member => .inl member, grows⟩
    · exact fun userId revokedAt member => Int.le_trans (sound.dated _ _ member) later
    · intro userId revokedAt member
      exact (sound.flags userId revokedAt member).imp_left fun passed => Int.le_trans passed later
  | dropSession isEntry outlived =>
    apply sound.drop (fun _ member => member) (fun _ member => member)
    · exact fun _ member => .inl member
    · exact fun _ member => .inl member
  | @dropRevoked userId expiresAt isFlag outlived =>
    have grows : world.Grows { world with revoked := update world.revoked userId none } :=
      ⟨fun _ member => member, fun _ _ => rfl, fun _ member => .inl member, Nat.le_refl _,
        Int.le_refl _, fun _ member => member, fun _ member => member, fun _ member => member,
        fun _ _ gone => gone⟩
    have ledger : ({ world with revoked := update world.revoked userId none }
        : World).Ledger config := sound.ledger.congr rfl rfl (Nat.le_refl _) (Int.le_refl _)
    refine ⟨sound.of_grows grows ledger sound.stored sound.closed sound.ended sound.dated ?_
      fun a member => .inl member, grows⟩
    intro user revokedAt member
    rcases sound.flags user revokedAt member with passed | ⟨expires, isEntry, stands⟩
    · exact .inl passed
    · by_cases same : user = userId
      · subst same
        rw [isFlag] at isEntry
        cases isEntry
        exact .inl (Int.le_trans stands outlived)
      · exact .inr ⟨expires, (update_of_ne same ..).trans isEntry, stands⟩

end World

end DubEcosystem.AuthSessions
