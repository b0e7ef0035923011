import DubEcosystem.AuthSessions

/-!
# auth-service: the phases of a session call

What a call has read so far decides what it does next.  Each program of the session service is
shown once to follow these phases.
-/

namespace DubEcosystem.AuthSessions

open Interleaving PortPrograms Option

variable {config : AppConfig}

/-- A call that has arrived. -/
structure Asked where
  op : Operation
  arrival : Arrival

/-- The arguments of `startImpersonation`. -/
structure Start where
  actorToken : String
  actorId : String
  subjectId : String

/-- What a token is verified for. -/
inductive Purpose where
  | reply
  | start (args : Start)

/-- An impersonation that was ended, whose parked token is refreshed. -/
structure Parked where
  token : String
  stored : StoredSession
  impersonation : StoredImpersonation

inductive Phase where
  | arriving (op : Operation)
  | creating (own : Asked) (userId : String) (client : AuthClient)
  | naming (own : Asked) (userId : String) (client : AuthClient) (now : Int)
  | opening (own : Asked) (userId : String) (client : AuthClient) (now : Int) (sessionId : String)
  | reading (own : Asked) (purpose : Purpose) (token : String)
  | checking (own : Asked) (purpose : Purpose) (token : String) (stored : StoredSession)
  | checkingActor (own : Asked) (purpose : Purpose) (token : String) (stored : StoredSession)
      (impersonation : StoredImpersonation)
  | timing (own : Asked) (purpose : Purpose) (token : String) (stored : StoredSession)
  /-- The token has been verified, with this response. -/
  | judged (own : Asked) (purpose : Purpose) (token : String) (response : AuthVerifyResponse)
  | starting (own : Asked) (args : Start)
  | labelling (own : Asked) (args : Start) (now : Int)
  | admitting (own : Asked) (args : Start) (now : Int) (sessionId : String)
  | refreshing (own : Asked) (parked : Option Parked) (token : String)
  | permitting (own : Asked) (parked : Option Parked) (token : String) (stored : StoredSession)
  | dating (own : Asked) (parked : Option Parked) (token : String) (stored : StoredSession)
  | following (own : Asked) (parked : Option Parked) (token : String) (stored : StoredSession)
      (next : String) (now : Int)
  | lapsing (own : Asked) (parked : Option Parked) (token : String) (stored : StoredSession)
  | rotating (own : Asked) (parked : Option Parked) (token : String) (stored : StoredSession)
      (now : Int)
  | gracing (own : Asked) (parked : Option Parked) (token : String) (stored : StoredSession)
      (now : Int) (next : String)
  /-- The token has been refreshed, with this result. -/
  | returned (own : Asked) (parked : Option Parked) (token : String) (result : RefreshResult)
  | stopping (own : Asked) (token : String)
  | ending (own : Asked) (token : String) (stored : StoredSession)
      (impersonation : StoredImpersonation)
  | dropping (own : Asked) (token : String) (stored : StoredSession)
      (impersonation : StoredImpersonation)
  | leaving (own : Asked) (token : String)
  | parting (own : Asked) (token : String) (stored : StoredSession)
      (impersonation : StoredImpersonation)
  | closing (own : Asked) (token : String) (stored : Option StoredSession)
  | revoking (own : Asked) (userId : String)
  | answering (own : Asked) (outcome : Outcome)
  | ended
  /-- A parked token was that of an impersonation; this is never reached. -/
  | astray

def refreshFrom (own : Asked) (parked : Option Parked) (token : String) : Phase :=
  if isMalformed token then .returned own parked token (.error .malformed)
  else .refreshing own parked token

/-- Where a call is once it has arrived. -/
def Asked.begin (own : Asked) : Phase :=
  match own.op with
  | .create userId client => .creating own userId client
  | .verify token =>
    if isMalformed token then .judged own .reply token (invalid .malformed)
    else .reading own .reply token
  | .refresh token => refreshFrom own none token
  | .logout token => if isMalformed token then .answering own (.loggedOut none) else .leaving own token
  | .startImpersonation actorToken actorId subjectId =>
    if isMalformed actorToken then .answering own (.started (.error .actor_session_invalid))
    else .starting own ⟨actorToken, actorId, subjectId⟩
  | .stopImpersonation token =>
    if isMalformed token then .answering own (.stopped none) else .stopping own token
  | .revokeUser userId => .revoking own userId

/-- The answer of a rotation. -/
def rotatedSession (config : AppConfig) (stored : StoredSession) (now : Int) (next : String) :
    RefreshedSession where
  token := next
  session := toSessionInfo (rotatedRecord config stored now)
  absoluteExpiresAt := (rotatedRecord config stored now).absoluteExpiresAt
  effectiveExpiresAt := effectiveDeadline config (rotatedRecord config stored now)
  endedImpersonation := none

def Parked.stopped (parked : Parked) (now : Int) (restored : RefreshResult) :
    StoppedImpersonation where
  impersonation := ⟨parked.impersonation.actorId, parked.stored.userId,
    parked.impersonation.startedAt, parked.stored.absoluteExpiresAt⟩
  expired := parked.stored.absoluteExpiresAt ≤ now
  restored := restored

inductive Leads (config : AppConfig) :
    Phase → (request : Call) → Except TooDeep (Call.Result request) → Phase → Prop
  | arrives {op arrival} :
      Leads config (.arriving op) .arrive (.ok arrival) (Asked.begin ⟨op, arrival⟩)
  | stamps {own userId client} {now : Int} :
      Leads config (.creating own userId client) .now (.ok now) (.naming own userId client now)
  | names {own userId client now} {sessionId : String} :
      Leads config (.naming own userId client now) .newSessionToken (.ok sessionId)
        (.opening own userId client now sessionId)
  | opens {own userId client now sessionId ttl} {session : CreatedSession}
      (isTtl : ttl = kvTtl (effectiveDeadline config
        (createdRecord config userId client now sessionId) - now)) :
      Leads config (.opening own userId client now sessionId)
        (.putNewSession .created (createdRecord config userId client now sessionId) ttl)
        (.ok session.token) (.answering own (.created session))
  | rejects {own purpose token read} :
      Leads config (.reading own purpose token) (.getSession token) (.ok read)
        (.judged own purpose token (invalid .revoked))
  | reads {own purpose token} {stored : StoredSession} (unrotated : stored.successor? = none) :
      Leads config (.reading own purpose token) (.getSession token) (.ok (some stored))
        (.checking own purpose token stored)
  | refuses {own purpose token} {stored : StoredSession} :
      Leads config (.checking own purpose token stored) (.getRevoked stored.userId) (.ok true)
        (.judged own purpose token (invalid .revoked))
  | passes {own purpose token} {stored : StoredSession} (isOwn : stored.impersonation = none) :
      Leads config (.checking own purpose token stored) (.getRevoked stored.userId) (.ok false)
        (.timing own purpose token stored)
  | passesSubject {own purpose token} {stored : StoredSession} {impersonation}
      (isFor : stored.impersonation = some impersonation) :
      Leads config (.checking own purpose token stored) (.getRevoked stored.userId) (.ok false)
        (.checkingActor own purpose token stored impersonation)
  | refusesActor {own purpose token stored impersonation} :
      Leads config (.checkingActor own purpose token stored impersonation)
        (.getRevoked impersonation.actorId) (.ok true) (.judged own purpose token (invalid .revoked))
  | passesActor {own purpose token stored impersonation} :
      Leads config (.checkingActor own purpose token stored impersonation)
        (.getRevoked impersonation.actorId) (.ok false) (.timing own purpose token stored)
  | times {own purpose token stored} {now : Int} :
      Leads config (.timing own purpose token stored) .now (.ok now)
        (.judged own purpose token (verifyAt config stored now))
  | replies {own token response answer} : Leads config (.judged own .reply token response)
        (.respond own.op own.arrival (.verified response)) answer .ended
  | startRefused {own args token response reason answer} :
      Leads config (.judged own (.start args) token response)
        (.respond own.op own.arrival (.started (.error reason))) answer .ended
  | grants {own args token response} {now : Int} :
      Leads config (.judged own (.start args) token response) .now (.ok now)
        (.labelling own args now)
  | labels {own args now} {sessionId : String} :
      Leads config (.labelling own args now) .newSessionToken (.ok sessionId)
        (.admitting own args now sessionId)
  | admits {own args now sessionId ttl} {session : StartedImpersonation}
      (isTtl : ttl = kvTtl ((config.impersonationTtlSec + config.impersonationRestoreGraceSec) *
        1000)) :
      Leads config (.admitting own args now sessionId)
        (.putNewSession .started (impersonationRecord args.actorToken args.actorId args.subjectId
          config.impersonationTtlSec now sessionId) ttl)
        (.ok session.token) (.answering own (.started (.ok session)))
  | startFails {own args read reason} :
      Leads config (.starting own args) (.getSession args.actorToken) (.ok read)
        (.answering own (.started (.error reason)))
  | starts {own} {args : Start} {actor : StoredSession} (isActor : actor.userId = args.actorId)
      (isOwn : actor.impersonation = none) :
      Leads config (.starting own args) (.getSession args.actorToken) (.ok (some actor))
        (.reading own (.start args) args.actorToken)
  | loses {own parked token} :
      Leads config (.refreshing own parked token) (.getSession token) (.ok none)
        (.returned own parked token (.error .revoked))
  | finds {own parked token} {stored : StoredSession} (isOwn : stored.impersonation = none) :
      Leads config (.refreshing own parked token) (.getSession token) (.ok (some stored))
        (.permitting own parked token stored)
  | findsImpersonation {own token} {stored : StoredSession} {impersonation}
      (isFor : stored.impersonation = some impersonation) :
      Leads config (.refreshing own none token) (.getSession token) (.ok (some stored))
        (.ending own token stored impersonation)
  | strays {own parked token} {stored : StoredSession} {impersonation}
      (isFor : stored.impersonation = some impersonation) :
      Leads config (.refreshing own (some parked) token) (.getSession token) (.ok (some stored))
        .astray
  | ends {own token stored impersonation} {now : Int} :
      Leads config (.ending own token stored impersonation) .now (.ok now)
        (.dropping own token stored impersonation)
  | drops {own token stored} {impersonation : StoredImpersonation} {answer} :
      Leads config (.dropping own token stored impersonation)
        (.deleteSession (.ends own.arrival.number) token) answer
        (refreshFrom own (some ⟨token, stored, impersonation⟩) impersonation.actorToken)
  | forbids {own parked token} {stored : StoredSession} :
      Leads config (.permitting own parked token stored) (.getRevoked stored.userId) (.ok true)
        (.returned own parked token (.error .revoked))
  | permits {own parked token} {stored : StoredSession} :
      Leads config (.permitting own parked token stored) (.getRevoked stored.userId) (.ok false)
        (.dating own parked token stored)
  | datesRotated {own parked token} {stored : StoredSession} {next} {now : Int}
      (isNext : stored.successor? = some next) :
      Leads config (.dating own parked token stored) .now (.ok now)
        (.following own parked token stored next now)
  | datesOver {own parked token stored} {now : Int} :
      Leads config (.dating own parked token stored) .now (.ok now)
        (.returned own parked token (.error .revoked))
  | datesIdle {own parked token} {stored : StoredSession} {now : Int}
      (unrotated : stored.successor? = none) (idle : isIdle config stored now = true) :
      Leads config (.dating own parked token stored) .now (.ok now)
        (.lapsing own parked token stored)
  | datesLive {own parked token} {stored : StoredSession} {now : Int}
      (unrotated : stored.successor? = none) (notOver : now < stored.absoluteExpiresAt)
      (notIdle : isIdle config stored now = false) :
      Leads config (.dating own parked token stored) .now (.ok now)
        (.rotating own parked token stored now)
  | follows {own parked token stored next now successor} :
      Leads config (.following own parked token stored next now) (.getSession next) (.ok successor)
        (.returned own parked token (successorResult config next successor now))
  | lapses {own parked token stored answer} :
      Leads config (.lapsing own parked token stored) (.deleteSession .idle token) answer
        (.returned own parked token (.error .revoked))
  | rotates {own parked token stored now ttl} {next : String}
      (isTtl : ttl = kvTtl (effectiveDeadline config (rotatedRecord config stored now) - now)) :
      Leads config (.rotating own parked token stored now)
        (.putNewSession (.rotated token) (rotatedRecord config stored now) ttl) (.ok next)
        (.gracing own parked token stored now next)
  | graces {own parked token} {stored : StoredSession} {now next ttl answer} :
      Leads config (.gracing own parked token stored now next)
        (.putGrace token { stored with rotatedTo := some next } ttl) answer
        (.returned own parked token (.ok (rotatedSession config stored now next)))
  | answersRefresh {own token result answer} : Leads config (.returned own none token result)
        (.respond own.op own.arrival (.refreshed result)) answer .ended
  | answersEnded {own} {parked : Parked} {token result now answer} {t : String}
      (isRefresh : own.op = .refresh t) :
      Leads config (.returned own (some parked) token result)
        (.respond own.op own.arrival (.refreshed (parked.stopped now result).toResult)) answer .ended
  | answersStopped {own} {parked : Parked} {token result now answer} {t : String}
      (isStop : own.op = .stopImpersonation t) :
      Leads config (.returned own (some parked) token result)
        (.respond own.op own.arrival (.stopped (some (parked.stopped now result)))) answer .ended
  | stopsNothing {own token} {read : Option StoredSession}
      (isOwn : ∀ stored, read = some stored → stored.impersonation = none) :
      Leads config (.stopping own token) (.getSession token) (.ok read)
        (.answering own (.stopped none))
  | stops {own token} {stored : StoredSession} {impersonation}
      (isFor : stored.impersonation = some impersonation) :
      Leads config (.stopping own token) (.getSession token) (.ok (some stored))
        (.ending own token stored impersonation)
  | leaves {own token} {read : Option StoredSession}
      (isOwn : ∀ stored, read = some stored → stored.impersonation = none) :
      Leads config (.leaving own token) (.getSession token) (.ok read) (.closing own token read)
  | leavesImpersonation {own token} {stored : StoredSession} {impersonation}
      (isFor : stored.impersonation = some impersonation) :
      Leads config (.leaving own token) (.getSession token) (.ok (some stored))
        (.parting own token stored impersonation)
  | parts {own token stored} {impersonation : StoredImpersonation} {answer} :
      Leads config (.parting own token stored impersonation)
        (.deleteSession (.logsOut true) impersonation.actorToken) answer
        (.closing own token (some stored))
  | closes {own token} {read : Option StoredSession} {answer} :
      Leads config (.closing own token read) (.deleteSession (.logsOut read.isSome) token) answer
        (.answering own (.loggedOut read))
  | revokes {own userId answer} : Leads config (.revoking own userId)
        (.putRevoked userId (kvTtl (config.absMobileTtlSec * 1000))) answer
        (.answering own .revoked)
  | answers {own outcome answer} :
      Leads config (.answering own outcome) (.respond own.op own.arrival outcome) answer .ended
  | wanders {request answer} : Leads config .astray request answer .astray

def sessionProtocol (config : AppConfig) : Protocol sessionSignature Phase where
  possible _ answer := ∃ result, answer = .ok result
  leads := Leads config
  final phase := match phase with
    | .ended => True
    | .refreshing _ _ _ => True
    | .returned _ _ _ _ => True
    | .astray => True
    | _ => False

section Follow

variable {α β : Type} {phase : Phase}

theorem follows_ask {request : Call} {post : Except TooDeep (Call.Result request) → Phase → Prop}
    (returns : ∀ result, ∃ after, Leads config phase request (.ok result) after ∧
      post (.ok result) after) :
    Follows (sessionProtocol config) phase (ask request) post := by
  apply follows_port
  rintro _ ⟨result, rfl⟩
  exact returns result

variable {post : Except TooDeep α → Phase → Prop}

theorem follows_ask_bind {request : Call} {continuation : Call.Result request → SessionM α}
    (returns : ∀ result, ∃ after, Leads config phase request (.ok result) after ∧
      Follows (sessionProtocol config) after (continuation result) post) :
    Follows (sessionProtocol config) phase (ask request >>= continuation) post := by
  apply follows_bind
  exact follows_ask returns

theorem follows_astray (action : SessionM α) (holds : ∀ outcome, post outcome .astray) :
    Follows (sessionProtocol config) .astray action post := by
  have keeps : Keeps (fun _ _ => True) (fun _ => True) action := by
    suffices program : ∀ program : Prog sessionSignature (Except TooDeep α),
        Prog.Meets (S := sessionSignature) (fun _ _ => True) (fun _ => True) program
          fun _ => True by
      unfold Keeps Meets
      exact program action.run
    intro program
    induction program with
    | done value => trivial
    | call request next ih => exact ⟨trivial, fun answer _ => ih answer⟩
  apply (follows_of_keeps keeps fun _ _ _ => Leads.wanders).mono
  rintro outcome _ rfl
  exact holds outcome

abbrev Returns (leadsTo : α → Phase) (outcome : Except TooDeep α) (after : Phase) : Prop :=
  ∃ value, outcome = .ok value ∧ after = leadsTo value

/-- The call has gone astray or has thrown where it may. -/
abbrev Fails (config : AppConfig) (outcome : Except TooDeep α) (after : Phase) : Prop :=
  after = .astray ∨ (∃ thrown, outcome = .error thrown) ∧ (sessionProtocol config).final after

def Comes (leadsTo : α → Phase) (outcome : Except TooDeep α) (after : Phase) : Prop :=
  (∃ value, outcome = .ok value ∧ after = leadsTo value) ∨ after = .astray ∨
    (∃ thrown, outcome = .error thrown) ∧ (sessionProtocol config).final after

variable (own : Asked)

abbrev Responds (config : AppConfig) (outcome : Except TooDeep Outcome) (after : Phase) : Prop :=
  ∃ value, outcome = .ok value ∧ ∀ answer,
    Leads config after (.respond own.op own.arrival value) answer .ended

theorem verifyStored_follows (purpose : Purpose) (token : String) (stored : StoredSession) :
    Follows (sessionProtocol config) (.checking own purpose token stored)
      (verifyStored config stored) (Returns (.judged own purpose token)) := by
  unfold verifyStored isActorRevoked
  apply follows_ask_bind
  rintro (isRevoked | isRevoked)
  · have rest : ∀ phase : Phase, phase = .timing own purpose token stored →
        Follows (sessionProtocol config) phase
          (do let now : Int ← ask .now; pure (verifyAt config stored now))
          (Returns (.judged own purpose token)) := by
      rintro _ rfl
      apply follows_ask_bind
      exact fun now => ⟨_, .times, follows_pure ⟨_, rfl, rfl⟩⟩
    cases isFor : stored.impersonation with
    | none =>
      refine ⟨_, .passes isFor, ?_⟩
      apply follows_bind
      exact follows_pure (rest _ rfl)
    | some impersonation =>
      refine ⟨_, .passesSubject isFor, ?_⟩
      apply follows_bind
      apply follows_ask
      rintro (actorRevoked | actorRevoked)
      · exact ⟨_, .passesActor, rest _ rfl⟩
      · exact ⟨_, .refusesActor, follows_pure ⟨_, rfl, rfl⟩⟩
  · exact ⟨_, .refuses, follows_pure ⟨_, rfl, rfl⟩⟩

variable {token : String}

theorem verify_follows (purpose : Purpose) (isToken : isMalformed token = false) :
    Follows (sessionProtocol config) (.reading own purpose token) (verify config token)
      (Returns (.judged own purpose token)) := by
  unfold verify
  rw [if_neg (by simp [isToken])]
  apply follows_ask_bind
  rintro (_ | stored)
  · exact ⟨_, .rejects, follows_pure ⟨_, rfl, rfl⟩⟩
  · cases unrotated : stored.successor? with
    | none =>
      refine ⟨_, .reads unrotated, ?_⟩
      simp only [unrotated, isSome_none, Bool.false_eq_true, if_false]
      exact verifyStored_follows own purpose token stored
    | some next =>
      refine ⟨_, .rejects, ?_⟩
      simp only [unrotated, Option.isSome_some, if_true]
      exact follows_pure ⟨_, rfl, rfl⟩

theorem rotate_follows (parked : Option Parked) (token : String) (stored : StoredSession)
    (now : Int) :
    Follows (sessionProtocol config) (.rotating own parked token stored now)
      (rotate config token stored now) (Returns (.returned own parked token)) := by
  unfold rotate
  apply follows_ask_bind
  intro next
  refine ⟨_, .rotates rfl, ?_⟩
  apply follows_ask_bind
  exact fun _ => ⟨_, .graces, follows_pure ⟨_, rfl, rfl⟩⟩

theorem refreshStored_follows (parked : Option Parked) (token : String) (stored : StoredSession) :
    Follows (sessionProtocol config) (.permitting own parked token stored)
      (refreshStored config token stored) (Returns (.returned own parked token)) := by
  unfold refreshStored
  apply follows_ask_bind
  rintro (isRevoked | isRevoked)
  · refine ⟨_, .permits, ?_⟩
    apply follows_ask_bind
    intro now
    cases isNext : stored.successor? with
    | some next =>
      refine ⟨_, .datesRotated isNext, ?_⟩
      apply follows_ask_bind
      exact fun successor => ⟨_, .follows, follows_pure ⟨_, rfl, rfl⟩⟩
    | none =>
      by_cases isOver : stored.absoluteExpiresAt ≤ now
      · simp only [if_pos isOver]
        exact ⟨_, .datesOver, follows_pure ⟨_, rfl, rfl⟩⟩
      · simp only [if_neg isOver]
        cases idle : isIdle config stored now with
        | true =>
          refine ⟨_, .datesIdle isNext idle, ?_⟩
          simp only [if_true]
          apply follows_ask_bind
          exact fun _ => ⟨_, .lapses, follows_pure ⟨_, rfl, rfl⟩⟩
        | false =>
          refine ⟨_, .datesLive isNext (Int.not_le.mp isOver) idle, ?_⟩
          exact rotate_follows own parked token stored now
  · exact ⟨_, .forbids, follows_pure ⟨_, rfl, rfl⟩⟩

theorem endImpersonation_follows (token : String) (stored : StoredSession)
    (impersonation : StoredImpersonation) {again : String → SessionM RefreshResult}
    (refreshes : Follows (sessionProtocol config)
      (refreshFrom own (some ⟨token, stored, impersonation⟩) impersonation.actorToken)
      (again impersonation.actorToken) (@Comes config _ fun result =>
        .returned own (some ⟨token, stored, impersonation⟩) impersonation.actorToken result)) :
    Follows (sessionProtocol config) (.ending own token stored impersonation)
      (endImpersonation again own.arrival.number token stored impersonation) fun outcome after =>
        (∃ now result, outcome = .ok (Parked.stopped ⟨token, stored, impersonation⟩ now result) ∧
          after = .returned own (some ⟨token, stored, impersonation⟩) impersonation.actorToken
            result) ∨ Fails config outcome after := by
  unfold endImpersonation
  apply follows_ask_bind
  intro now
  refine ⟨_, .ends, ?_⟩
  apply follows_ask_bind
  intro _
  refine ⟨_, .drops, ?_⟩
  apply follows_bind
  apply refreshes.mono
  rintro outcome after (⟨result, rfl, rfl⟩ | rfl | ⟨⟨thrown, rfl⟩, isFinal⟩)
  · exact follows_pure (.inl ⟨now, result, rfl, rfl⟩)
  · cases outcome with
    | ok result => exact follows_pure (.inr (.inl rfl))
    | error thrown => exact .inr (.inl rfl)
  · exact .inr (.inr ⟨⟨thrown, rfl⟩, isFinal⟩)

theorem refresh_follows_parked (parked : Parked) (depth : Nat) (token : String) :
    Follows (sessionProtocol config) (refreshFrom own (some parked) token)
      (refresh config own.arrival.number depth token)
      (@Comes config _ fun result => .returned own (some parked) token result) := by
  unfold refreshFrom
  cases depth with
  | zero =>
    apply follows_throw
    refine .inr (.inr ⟨⟨_, rfl⟩, ?_⟩)
    split <;> trivial
  | succ depth =>
    unfold refresh
    cases isToken : isMalformed token with
    | true => exact follows_pure (.inl ⟨_, rfl, rfl⟩)
    | false =>
      simp only [Bool.false_eq_true, if_false]
      apply follows_ask_bind
      rintro (_ | stored)
      · exact ⟨_, .loses, follows_pure (.inl ⟨_, rfl, rfl⟩)⟩
      · cases isFor : stored.impersonation with
        | none =>
          refine ⟨_, .finds isFor, ?_⟩
          simp only [isFor]
          apply (refreshStored_follows own _ token stored).mono
          exact fun outcome after comes => .inl comes
        | some impersonation =>
          refine ⟨_, .strays isFor, ?_⟩
          exact follows_astray _ fun _ => .inr (.inl rfl)

variable (depth : Nat)

theorem refresh_follows (isRefresh : own.op = .refresh token) :
    Follows (sessionProtocol config) (refreshFrom own none token)
      (do let result ← refresh config own.arrival.number depth token; pure (Outcome.refreshed result))
      fun outcome after => Responds own config outcome after ∨ Fails config outcome after := by
  unfold refreshFrom
  apply follows_bind
  cases depth with
  | zero =>
    apply follows_throw
    refine .inr (.inr ⟨⟨_, rfl⟩, ?_⟩)
    split <;> trivial
  | succ depth =>
    unfold refresh
    cases isToken : isMalformed token with
    | true => exact follows_pure (follows_pure (.inl ⟨_, rfl, fun _ => .answersRefresh⟩))
    | false =>
      simp only [Bool.false_eq_true, if_false]
      apply follows_ask_bind
      rintro (_ | stored)
      · refine ⟨_, .loses, follows_pure (follows_pure (.inl ⟨_, rfl, fun _ => ?_⟩))⟩
        exact .answersRefresh
      · cases isFor : stored.impersonation with
        | none =>
          refine ⟨_, .finds isFor, ?_⟩
          simp only [isFor]
          apply (refreshStored_follows own _ token stored).mono
          rintro outcome after ⟨result, rfl, rfl⟩
          exact follows_pure (.inl ⟨_, rfl, fun _ => .answersRefresh⟩)
        | some impersonation =>
          refine ⟨_, .findsImpersonation isFor, ?_⟩
          simp only [isFor]
          apply follows_bind
          apply (endImpersonation_follows own token stored impersonation
            (refresh_follows_parked own _ depth _)).mono
          rintro outcome after (⟨now, result, rfl, rfl⟩ | rfl | ⟨⟨thrown, rfl⟩, isFinal⟩)
          · exact follows_pure (follows_pure (.inl ⟨_, rfl, fun _ => .answersEnded isRefresh⟩))
          · cases outcome with
            | ok result => exact follows_pure (follows_pure (.inr (.inl rfl)))
            | error thrown => exact .inr (.inl rfl)
          · exact .inr (.inr ⟨⟨thrown, rfl⟩, isFinal⟩)

theorem stopImpersonation_follows (isStop : own.op = .stopImpersonation token) :
    Follows (sessionProtocol config)
      (if isMalformed token then .answering own (.stopped none) else .stopping own token)
      (do
        let result ← stopImpersonation config own.arrival.number depth token
        pure (Outcome.stopped result))
      fun outcome after => Responds own config outcome after ∨ Fails config outcome after := by
  apply follows_bind
  unfold stopImpersonation
  cases isToken : isMalformed token with
  | true => exact follows_pure (follows_pure (.inl ⟨_, rfl, fun _ => .answers⟩))
  | false =>
    simp only [Bool.false_eq_true, if_false]
    apply follows_ask_bind
    rintro (_ | stored)
    · refine ⟨_, .stopsNothing (fun stored isRead => by cases isRead), ?_⟩
      exact follows_pure (follows_pure (.inl ⟨_, rfl, fun _ => .answers⟩))
    · cases isFor : stored.impersonation with
      | none =>
        refine ⟨_, .stopsNothing (fun other isRead => some.inj isRead ▸ isFor), ?_⟩
        simp only [isFor]
        exact follows_pure (follows_pure (.inl ⟨_, rfl, fun _ => .answers⟩))
      | some impersonation =>
        refine ⟨_, .stops isFor, ?_⟩
        simp only [isFor]
        apply follows_bind
        apply (endImpersonation_follows own token stored impersonation
          (refresh_follows_parked own _ depth _)).mono
        rintro outcome after (⟨now, result, rfl, rfl⟩ | rfl | ⟨⟨thrown, rfl⟩, isFinal⟩)
        · exact follows_pure (follows_pure (.inl ⟨_, rfl, fun _ => .answersStopped isStop⟩))
        · cases outcome with
          | ok result => exact follows_pure (follows_pure (.inr (.inl rfl)))
          | error thrown => exact .inr (.inl rfl)
        · exact .inr (.inr ⟨⟨thrown, rfl⟩, isFinal⟩)

theorem logout_follows (token : String) : Follows (sessionProtocol config)
      (if isMalformed token then .answering own (.loggedOut none) else .leaving own token)
      (logout token) (Returns fun read => .answering own (.loggedOut read)) := by
  unfold logout
  cases isToken : isMalformed token with
  | true => exact follows_pure ⟨_, rfl, rfl⟩
  | false =>
    simp only [Bool.false_eq_true, if_false]
    have closes : ∀ read : Option StoredSession, Follows (sessionProtocol config)
        (.closing own token read)
        (do ask (.deleteSession (.logsOut read.isSome) token); pure read)
        (Returns fun read => .answering own (.loggedOut read)) := by
      intro read
      apply follows_ask_bind
      exact fun _ => ⟨_, .closes, follows_pure ⟨_, rfl, rfl⟩⟩
    apply follows_ask_bind
    rintro (_ | stored)
    · refine ⟨_, .leaves (fun stored isRead => by cases isRead), ?_⟩
      exact closes none
    · cases isFor : stored.impersonation with
      | none =>
        refine ⟨_, .leaves (fun other isRead => some.inj isRead ▸ isFor), ?_⟩
        simp only [bind_some, isFor]
        exact closes (some stored)
      | some impersonation =>
        refine ⟨_, .leavesImpersonation isFor, ?_⟩
        simp only [bind_some, isFor]
        apply follows_ask_bind
        exact fun _ => ⟨_, .parts, closes (some stored)⟩

theorem mintImpersonation_follows (args : Start) {response : AuthVerifyResponse} :
    Follows (sessionProtocol config) (.judged own (.start args) token response)
      (mintImpersonation args.actorToken args.actorId args.subjectId config.impersonationTtlSec
        config.impersonationRestoreGraceSec)
      (Returns fun session => .answering own (.started (.ok session))) := by
  unfold mintImpersonation
  apply follows_ask_bind
  intro now
  refine ⟨_, .grants, ?_⟩
  apply follows_ask_bind
  intro sessionId
  refine ⟨_, .labels, ?_⟩
  apply follows_ask_bind
  intro next
  refine ⟨_, ?_, follows_pure ⟨_, rfl, rfl⟩⟩
  exact @Leads.admits _ _ _ _ _ _ ⟨⟨next, _, _, _⟩, _⟩ rfl

theorem startImpersonation_follows (args : Start) : Follows (sessionProtocol config)
      (if isMalformed args.actorToken then
        .answering own (.started (.error .actor_session_invalid))
      else .starting own args)
      (do
        let result ← startImpersonation config args.actorToken args.actorId args.subjectId
          config.impersonationTtlSec config.impersonationRestoreGraceSec
        pure (Outcome.started result)) (Responds own config) := by
  apply follows_bind
  unfold startImpersonation
  cases isToken : isMalformed args.actorToken with
  | true => exact follows_pure (follows_pure ⟨_, rfl, fun _ => .answers⟩)
  | false =>
    simp only [Bool.false_eq_true, if_false]
    apply follows_ask_bind
    rintro (_ | actor)
    · exact ⟨_, .startFails, follows_pure (follows_pure ⟨_, rfl, fun _ => .answers⟩)⟩
    by_cases isInvalid : actor.successor?.isSome ∨ actor.userId ≠ args.actorId
    · simp only [if_pos isInvalid]
      exact ⟨_, .startFails, follows_pure (follows_pure ⟨_, rfl, fun _ => .answers⟩)⟩
    simp only [if_neg isInvalid]
    cases isFor : actor.impersonation with
    | some impersonation =>
      simp only [Option.isSome_some, if_true]
      exact ⟨_, .startFails, follows_pure (follows_pure ⟨_, rfl, fun _ => .answers⟩)⟩
    | none =>
      have isActor : actor.userId = args.actorId :=
        not_not.mp fun notActor => isInvalid (.inr notActor)
      refine ⟨_, .starts isActor isFor, ?_⟩
      simp only [isSome_none, Bool.false_eq_true, if_false]
      apply follows_bind
      apply (verify_follows own (.start args) isToken).mono
      rintro _ after ⟨response, rfl, rfl⟩
      cases isValid : response.valid with
      | true =>
        simp only [isValid, if_true]
        apply follows_bind
        apply (mintImpersonation_follows own args).mono
        rintro _ after ⟨session, rfl, rfl⟩
        exact follows_pure (follows_pure ⟨_, rfl, fun _ => .answers⟩)
      | false =>
        simp only [isValid, Bool.false_eq_true, if_false]
        exact follows_pure (follows_pure ⟨_, rfl, fun _ => .startRefused⟩)

theorem create_follows (userId : String) (client : AuthClient) :
    Follows (sessionProtocol config) (.creating own userId client)
      (create config userId client) (Returns fun session => .answering own (.created session)) := by
  unfold create
  apply follows_ask_bind
  intro now
  refine ⟨_, .stamps, ?_⟩
  apply follows_ask_bind
  intro sessionId
  refine ⟨_, .names, ?_⟩
  apply follows_ask_bind
  intro next
  refine ⟨_, ?_, follows_pure ⟨_, rfl, rfl⟩⟩
  exact @Leads.opens _ _ _ _ _ _ _ ⟨next, _, _, _⟩ rfl

theorem outcome_follows : Follows (sessionProtocol config) own.begin
      (own.op.outcome config depth own.arrival.number)
      fun outcome after => Responds own config outcome after ∨ Fails config outcome after := by
  unfold Asked.begin
  cases isOp : own.op with
  | create userId client =>
    apply follows_bind
    apply (create_follows own userId client).mono
    rintro _ after ⟨session, rfl, rfl⟩
    exact follows_pure (.inl ⟨_, rfl, fun _ => .answers⟩)
  | verify token =>
    cases isToken : isMalformed token with
    | true =>
      simp only [Operation.outcome, verify, isToken, if_true]
      exact follows_bind (follows_pure (follows_pure (.inl ⟨_, rfl, fun _ => .replies⟩)))
    | false =>
      simp only [isToken, Bool.false_eq_true, if_false]
      apply follows_bind
      apply (verify_follows own .reply isToken).mono
      rintro _ after ⟨response, rfl, rfl⟩
      exact follows_pure (.inl ⟨_, rfl, fun _ => .replies⟩)
  | refresh token =>
    exact refresh_follows own depth isOp
  | logout token =>
    apply follows_bind
    apply (logout_follows own token).mono
    rintro _ after ⟨read, rfl, rfl⟩
    exact follows_pure (.inl ⟨_, rfl, fun _ => .answers⟩)
  | startImpersonation actorToken actorId subjectId =>
    apply (startImpersonation_follows own ⟨actorToken, actorId, subjectId⟩).mono
    exact fun _ _ => .inl
  | stopImpersonation token =>
    exact stopImpersonation_follows own depth isOp
  | revokeUser userId =>
    apply follows_bind
    apply follows_ask
    exact fun _ => ⟨_, .revokes, follows_pure (.inl ⟨_, rfl, fun _ => .answers⟩)⟩

theorem program_follows (runs : Operation → Bool) (op : Operation) :
    (sessionProtocol config).Follows (.arriving op)
      ((authSessions config depth runs).program op) := by
  have isFollowed : Follows (sessionProtocol config) (.arriving op) (op.action config depth)
      fun _ after => (sessionProtocol config).final after := by
    unfold Operation.action
    apply follows_ask_bind
    intro arrival
    refine ⟨_, .arrives, ?_⟩
    apply follows_bind
    apply (outcome_follows ⟨op, arrival⟩ depth).mono
    rintro outcome after (⟨value, rfl, responds⟩ | rfl | ⟨⟨thrown, rfl⟩, isFinal⟩)
    · apply follows_ask
      exact fun answer => ⟨_, responds (.ok answer), trivial⟩
    · cases outcome with
      | ok value => exact follows_astray _ fun _ => trivial
      | error thrown => trivial
    · exact isFinal
  unfold Follows at isFollowed
  exact Protocol.followsTo_bind isFollowed

end Follow

end DubEcosystem.AuthSessions
