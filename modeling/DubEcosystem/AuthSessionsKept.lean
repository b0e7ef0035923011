import DubEcosystem.AuthSessionsPhases

/-!
# auth-service: one live token for a login

Of the tokens that descend from one login one verifies, as long as each is given one successor and
a logout meets the token that is live.  Two calls that overlap can break that.
-/

namespace DubEcosystem.AuthSessions

open Interleaving PortPrograms SequentialPrograms List Option

variable {config : AppConfig} {tracked : Prop} {world moved : World}

/-- What `verify` answers when no other call comes between. -/
def World.verdict (world : World) (config : AppConfig) (token : String) : AuthVerifyResponse :=
  if isMalformed token then invalid .malformed
  else
    match world.sessions token with
    | none => invalid .revoked
    | some entry =>
      if entry.record.successor?.isSome then invalid .revoked
      else if (world.revoked entry.record.userId).isSome then invalid .revoked
      else if entry.record.impersonation.any
          fun impersonation => (world.revoked impersonation.actorId).isSome then
        invalid .revoked
      else verifyAt config entry.record world.time

theorem reads_verifyStored (stored : StoredSession) :
    Reads sessionMachine (verifyStored config stored) world
      (if (world.revoked stored.userId).isSome then invalid .revoked
      else if stored.impersonation.any
          fun impersonation => (world.revoked impersonation.actorId).isSome then
        invalid .revoked
      else verifyAt config stored world.time) := by
  unfold verifyStored isActorRevoked
  apply reads_port_bind rfl
  cases isUser : (world.revoked stored.userId).isSome with
  | true =>
    rw [show (answer (.getRevoked stored.userId) world).1 = true from isUser]
    exact reads_pure
  | false =>
    rw [show (answer (.getRevoked stored.userId) world).1 = false from isUser]
    cases stored.impersonation with
    | none =>
      apply reads_bind reads_pure
      exact reads_port_bind rfl reads_pure
    | some impersonation =>
      apply reads_port_bind rfl
      cases isActor : (world.revoked impersonation.actorId).isSome with
      | true =>
        rw [show (answer (.getRevoked impersonation.actorId) world).1 = true from isActor]
        simp only [any_some, isActor]
        exact reads_pure
      | false =>
        rw [show (answer (.getRevoked impersonation.actorId) world).1 = false from isActor]
        simp only [any_some, isActor]
        exact reads_port_bind rfl reads_pure

theorem reads_verify (token : String) :
    Reads sessionMachine (verify config token) world (world.verdict config token) := by
  unfold verify World.verdict
  split
  · exact reads_pure
  · apply reads_port_bind rfl
    rw [show (answer (.getSession token) world).1 = (world.sessions token).map Entry.record from rfl]
    cases world.sessions token with
    | none => exact reads_pure
    | some entry =>
      simp only [map_some]
      split
      · exact reads_pure
      · exact reads_verifyStored entry.record

def World.Verifies (world : World) (config : AppConfig) (token : String) : Prop :=
  ∃ response, SequentialPrograms.Reads sessionMachine (verify config token) world response ∧ response.valid = true

variable {token : String}

theorem World.verifies_iff :
    world.Verifies config token ↔ (world.verdict config token).valid = true := by
  constructor
  · rintro ⟨response, reads, isValid⟩
    have same := (reads fun _ => .error .tooDeep).symm.trans
      (reads_verify token fun _ => .error .tooDeep)
    rw [← Except.ok.inj (Prod.mk.inj same).1]
    exact isValid
  · exact fun isValid => ⟨_, reads_verify token, isValid⟩

/-- What is read of a token that verifies. -/
structure World.Passes (world : World) (config : AppConfig) (entry : Entry) : Prop where
  unrotated : entry.record.successor? = none
  unrevoked : world.revoked entry.record.userId = none
  actor : ∀ impersonation, entry.record.impersonation = some impersonation →
    world.revoked impersonation.actorId = none
  notOver : world.time < effectiveDeadline config entry.record
  notExpired : world.time < entry.record.accessExpiresAt

theorem World.verifies_iff_passes : world.Verifies config token ↔ isMalformed token = false ∧
      ∃ entry, world.sessions token = some entry ∧ world.Passes config entry := by
  rw [World.verifies_iff]
  unfold World.verdict
  constructor
  · intro isValid
    split at isValid
    · cases isValid
    · rename_i wellFormed
      refine ⟨by simpa using wellFormed, ?_⟩
      split at isValid
      · cases isValid
      · rename_i entry isEntry
        split_ifs at isValid with rotated revoked actor
        · cases isValid
        · cases isValid
        · cases isValid
        · unfold verifyAt at isValid
          split_ifs at isValid with isOver isExpired
          · cases isValid
          · cases isValid
          · refine ⟨entry, isEntry, by simpa using rotated, by simpa using revoked, ?_, by omega,
              by omega⟩
            intro impersonation isFor
            simpa [isFor] using actor
  · rintro ⟨wellFormed, entry, isEntry, unrotated, unrevoked, actor, notOver, notExpired⟩
    have notActor : entry.record.impersonation.any
        (fun impersonation => (world.revoked impersonation.actorId).isSome) = false := by
      cases isFor : entry.record.impersonation with
      | none => rfl
      | some impersonation => simp [actor impersonation isFor]
    simp only [wellFormed, isEntry, unrotated, unrevoked, notActor, isSome_none,
      Bool.false_eq_true, if_false, verifyAt]
    rw [if_neg (by omega), if_neg (by omega)]

theorem World.Verifies.live (verifies : world.Verifies config token) :
    world.Live token := by
  obtain ⟨-, entry, isEntry, passes⟩ := World.verifies_iff_passes.mp verifies
  exact ⟨entry, isEntry, passes.unrotated⟩

def Operation.isLogin : Operation → Bool
  | .create _ _ => true
  | .verify _ => true
  | .refresh _ => true
  | .logout _ => true
  | .revokeUser _ => true
  | _ => false

def loginSessions (config : AppConfig) (depth : Nat) : System sessionSignature World Operation :=
  authSessions config depth Operation.isLogin

/-- Nothing is in KV yet. -/
structure World.IsFresh (world : World) : Prop where
  sessions : ∀ token, world.sessions token = none
  revoked : ∀ userId, world.revoked userId = none
  written : world.written = []
  ended : world.ended = []
  closed : world.closed = []
  revocations : world.revocations = []
  answered : world.answered = []

/-- New tokens never repeat. -/
def freshTokens : RunCondition sessionSignature World Operation :=
  callsMeet fun request world => world.DrawsFresh request

def Call.putsNew : Call → Prop
  | .putNewSession _ _ _ => True
  | _ => False

def Call.graces (token : String) : Call → Prop
  | .putGrace other _ _ => other = token
  | _ => False

def isRotating (token : String) (program : Prog sessionSignature Unit) : Prop :=
  program.MayReach (S := sessionSignature) Call.putsNew (Call.graces token)

/-- What is promised of a login, in a configuration that was reached. -/
structure KeepsLogin (config : AppConfig) (final : Config sessionSignature World Operation) :
    Prop where
  /-- Unless a refresh of the chain is between its two puts, one token of the chain verifies. -/
  one : ∀ first second, final.world.rootOf first = final.world.rootOf second →
    final.world.Verifies config first → final.world.Verifies config second →
      (∀ thread ∈ final.threads, ∀ token, final.world.rootOf token = final.world.rootOf first →
        ¬isRotating token thread.2) → first = second
  /-- Two refreshes of one token come to the same token. -/
  same : ∀ a ∈ final.world.answered, ∀ b ∈ final.world.answered, ∀ token session other,
    a.op = .refresh token → b.op = .refresh token → a.outcome = .refreshed (.ok session) →
      b.outcome = .refreshed (.ok other) → session.token = other.token
  /-- No call that arrives after a logout finds a token of the chain good. -/
  ended : ∀ a ∈ final.world.answered, ∀ token stored, a.op = .logout token →
    a.outcome = .loggedOut (some stored) → ∀ b ∈ final.world.answered,
      a.index < b.arrival.answers → ∀ other, final.world.rootOf other = final.world.rootOf token →
        (∀ response, b.op = .verify other → b.outcome = .verified response →
          response.valid = false) ∧
        ∀ session, b.op = .refresh other → b.outcome ≠ .refreshed (.ok session)

def KeepsLogins (condition : RunCondition sessionSignature World Operation)
    (config : AppConfig) (depth : Nat) : Prop :=
  ∀ world final, world.IsFresh →
    (loginSessions config depth).ReachableUnder (freshTokens.and condition) world final →
      KeepsLogin config final

/-- A token is given no second successor, and none once its chain was logged out; a logout finds
no other token of the chain live; and no refresh stops between its two puts. -/
def takesTurns : RunCondition sessionSignature World Operation where
  mayCall request world _ := world.RotatesOnce request ∧ world.RespectsLogout request
  mayStop thread := ∀ token, ¬isRotating token thread.2

section Preserve

variable {phase next : Phase} {request : Call} {outcome : Except TooDeep (Call.Result request)}
  {phases : List Phase}

/-- The token that the call has minted a successor of, and not yet marked. -/
def Phase.graced? : Phase → Option String
  | .gracing _ _ token _ _ _ => some token
  | _ => none

theorem request_of_graced (leads : Leads config phase request outcome next)
    (isGraced : phase.graced? = some token) : ∃ record ttl, request = .putGrace token record ttl := by
  cases phase with
  | gracing own parked other stored now successor =>
    cases isGraced
    cases leads with
    | graces => exact ⟨_, _, rfl⟩
  | _ => cases isGraced

theorem graced_of_rotated {old : String} {record : StoredSession} {ttl : Nat}
    {outcome : Except TooDeep (Call.Result (.putNewSession (.rotated old) record ttl))}
    (leads : Leads config phase (.putNewSession (.rotated old) record ttl) outcome next)
    (holds : world.holds config tracked phase) : next.graced? = some old := by
  cases leads with
  | rotates isTtl => rfl
  | wanders => exact absurd holds id

def World.Marks (world : World) (phases : List Phase) : Prop :=
  ∀ token, world.Superseded token → world.Live token → ∃ phase ∈ phases, phase.graced? = some token

theorem marked_of_answer (sound : world.Sound config tracked)
    (admits : world.Admits config tracked request) (isMoved : (answer request world).2 = moved)
    (superseded : moved.Superseded token) (isLive : moved.Live token) :
    (∃ record ttl, request = .putNewSession (.rotated token) record ttl) ∨
      (world.Superseded token ∧ world.Live token ∧
        ∀ record ttl, request ≠ .putGrace token record ttl) := by
  subst isMoved
  cases request with
  | putNewSession origin record ttl =>
    rcases superseded_putSession.mp superseded with rfl | superseded
    · exact .inl ⟨_, _, rfl⟩
    · right
      refine ⟨superseded, ?_, by simp⟩
      rcases World.live_putSession.mp isLive with ⟨rfl, -⟩ | ⟨-, isLive⟩
      · obtain ⟨w, member, isRotated⟩ := superseded
        obtain ⟨⟨v, vMember, isToken⟩, -⟩ := sound.ledger.rotated w member _ isRotated
        obtain ⟨k, isDrawn, isOld⟩ := sound.ledger.drawn v vMember
        exact absurd (isOld.trans isToken) (admits.2.1 k isDrawn)
      · exact isLive
  | putGrace other record ttl =>
    right
    rcases superseded_putSession.mp superseded with isGrace | superseded
    · cases isGrace
    · rcases World.live_putSession.mp isLive with ⟨-, unrotated⟩ | ⟨notOther, isLive⟩
      · exact absurd unrotated (sound.successor?_grace admits)
      · refine ⟨superseded, isLive, fun _ _ same => ?_⟩
        exact notOther (Call.putGrace.inj same).1.symm
  | deleteSession why other =>
    right
    have before : world.Superseded token ∧ (world.dropSession other).Live token := by
      cases why with
      | idle | ends call => exact ⟨superseded, isLive⟩
      | logsOut known => cases known <;> exact ⟨superseded, isLive⟩
    exact ⟨before.1, (World.live_dropSession.mp before.2).2, by simp⟩
  | _ => exact .inr ⟨superseded, isLive, by simp⟩

theorem marks_of_leads (leads : Leads config phase request outcome next)
    (sound : world.Sound config tracked) (admits : world.Admits config tracked request)
    (holds : world.holds config tracked phase) (isMoved : (answer request world).2 = moved)
    (marks : world.Marks (phase :: phases)) : moved.Marks (next :: phases) := by
  intro token superseded isLive
  rcases marked_of_answer sound admits isMoved superseded isLive with
    ⟨record, ttl, rfl⟩ | ⟨before, wasLive, notGrace⟩
  · exact ⟨next, .head _, graced_of_rotated leads holds⟩
  · obtain ⟨other, member, isGraced⟩ := marks token before wasLive
    rcases mem_cons.mp member with rfl | member
    · obtain ⟨record, ttl, isRequest⟩ := request_of_graced leads isGraced
      exact absurd isRequest (notGrace record ttl)
    · exact ⟨other, .tail _ member, isGraced⟩

/-- A call that is to mark a token is between its two puts. -/
theorem isRotating_of_graced (world : World) {program : Prog sessionSignature Unit}
    (follows : (sessionProtocol config).Follows phase program)
    (isGraced : phase.graced? = some token) : isRotating token program := by
  apply @Protocol.Follows.mayReach _ _ _ _ _ _ _ (fun phase => phase.graced? = some token) _
    follows isGraced
  · intro phase isGraced
    cases phase <;> first | exact id | cases isGraced
  · exact fun request => ⟨.ok (answer request world).1, _, rfl⟩
  · intro phase request outcome after isGraced _ leads
    obtain ⟨record, ttl, rfl⟩ := request_of_graced leads isGraced
    exact .inl rfl

/-- What is kept of the world and the calls in flight. -/
structure World.Inv (world : World) (config : AppConfig) (tracked : Prop) (phases : List Phase) : Prop where
  sound : world.Sound config tracked
  arrived : ∀ phase ∈ phases, ∀ own, phase.own? = some own → world.Arrived own.arrival
  holds : ∀ phase ∈ phases, world.holds config tracked phase
  marks : world.Marks phases

theorem World.Inv.step (inv : world.Inv config tracked (phase :: phases))
    (leads : Leads config phase request outcome next) (isFresh : world.DrawsFresh request)
    (once : world.RotatesOnce request) (respects : tracked → world.RespectsLogout request)
    (isMoved : (answer request world).2 = moved)
    (isOutcome : outcome = .ok (answer request world).1) : moved.Inv config tracked (next :: phases) := by
  have arrived := inv.arrived phase (.head _)
  have holds := inv.holds phase (.head _)
  have admits := admits_of_leads arrived inv.sound leads holds isFresh once respects
  obtain ⟨sound, grows⟩ := inv.sound.answer admits isMoved
  constructor
  · exact sound
  · intro other member
    rcases mem_cons.mp member with rfl | member
    · exact arrived_of_leads arrived leads grows isMoved isOutcome
    · exact fun own isOwn =>
        grows.arrived (inv.arrived other (.tail _ member) own isOwn)
  · intro other member
    rcases mem_cons.mp member with rfl | member
    · exact holds_of_leads arrived inv.sound leads sound grows holds isMoved isOutcome
    · have old : other ∈ phase :: phases := mem_cons_of_mem _ member
      exact grows.holds inv.sound (inv.arrived other old) (inv.holds other old)
  · exact marks_of_leads leads inv.sound admits holds isMoved inv.marks

theorem World.Inv.moves (inv : world.Inv config tracked phases) (moves : world.Moves moved) :
    moved.Inv config tracked phases := by
  obtain ⟨sound, grows⟩ := inv.sound.environment moves
  constructor
  · exact sound
  · exact fun phase member own isOwn => grows.arrived (inv.arrived phase member own isOwn)
  · exact fun phase member =>
      grows.holds inv.sound (inv.arrived phase member) (inv.holds phase member)
  · intro token superseded isLive
    have before : world.Superseded token ∧ world.Live token := by
      cases moves with
      | tick later | dropRevoked isEntry outlived => exact ⟨superseded, isLive⟩
      | dropSession isEntry outlived => exact ⟨superseded, (World.live_dropSession.mp isLive).2⟩
    exact inv.marks token before.1 before.2

theorem preserves (depth : Nat) (runs : Operation → Bool) :
    (sessionProtocol config).Preserves (authSessions config depth runs)
      (freshTokens.and takesTurns) Phase.arriving fun world phases => world.Inv config tracked phases where
  perm := by
    intro world phases reordered perm inv
    constructor
    · exact inv.sound
    · exact fun phase member => inv.arrived phase (perm.mem_iff.mpr member)
    · exact fun phase member => inv.holds phase (perm.mem_iff.mpr member)
    · intro token superseded isLive
      obtain ⟨phase, member, isGraced⟩ := inv.marks token superseded isLive
      exact ⟨phase, perm.mem_iff.mp member, isGraced⟩
  start := by
    intro world phases op running startable inv
    constructor
    · exact inv.sound
    · rintro phase (_ | ⟨_, member⟩)
      · intro own isOwn
        cases isOwn
      · exact inv.arrived phase member
    · rintro phase (_ | ⟨_, member⟩)
      · trivial
      · exact inv.holds phase member
    · intro token superseded isLive
      obtain ⟨phase, member, isGraced⟩ := inv.marks token superseded isLive
      exact ⟨phase, .tail _ member, isGraced⟩
  call := by
    intro world moved phase after phases request outcome others tracks permitted answers leads inv
    obtain ⟨isOutcome, isMoved⟩ := Prod.mk.inj answers
    exact inv.step leads permitted.1 permitted.2.1 (fun _ => permitted.2.2) isMoved isOutcome.symm
  environment := by
    intro world moved phases moves inv
    exact inv.moves moves
  stop := by
    intro world phase phases thread follows permitted inv
    constructor
    · exact inv.sound
    · exact fun other member => inv.arrived other (.tail _ member)
    · exact fun other member => inv.holds other (.tail _ member)
    · intro token superseded isLive
      obtain ⟨other, member, isGraced⟩ := inv.marks token superseded isLive
      rcases mem_cons.mp member with rfl | member
      · exact absurd (isRotating_of_graced world follows isGraced) (permitted.2 token)
      · exact ⟨other, member, isGraced⟩

theorem governs (depth : Nat) (runs : Operation → Bool) :
    (sessionProtocol config).Governs (authSessions config depth runs) Phase.arriving where
  program op _ _ := program_follows depth runs op
  possible := by
    intro request before outcome after answers
    exact ⟨_, (Prod.mk.inj answers).1.symm⟩

theorem World.IsFresh.inv (isFresh : world.IsFresh) : world.Inv config tracked [] := by
  have nothing : ∀ token, ¬world.Superseded token := by
    rintro token ⟨w, member, -⟩
    simp [isFresh.written] at member
  constructor
  · constructor
    · constructor <;> simp [isFresh.written]
    · simp [isFresh.sessions]
    · simp [isFresh.closed]
    · simp [isFresh.ended]
    · simp [isFresh.revocations]
    · simp [isFresh.revocations]
    · simp [isFresh.answered]
    · simp [isFresh.answered]
    · simp [isFresh.answered]
    · simp [isFresh.answered]
  · simp
  · simp
  · exact fun token superseded => absurd superseded (nothing token)

theorem inv_of_reachable {depth : Nat} {runs : Operation → Bool}
    {final : Config sessionSignature World Operation} (isFresh : world.IsFresh)
    (reached : (authSessions config depth runs).ReachableUnder (freshTokens.and takesTurns) world
      final) :
    (sessionProtocol config).Holds (fun world phases => world.Inv config tracked phases) final :=
  (preserves depth runs).reached (governs depth runs) reached isFresh.inv

end Preserve

variable {arrival : Arrival} {session other : CreatedSession}

section

variable (sound : world.Sound config tracked)
include sound

variable {later : Arrival}

/-- What a token is refreshed to is settled. -/
theorem token_eq_of_hands (hands : world.Hands config tracked arrival token session)
    (again : world.Hands config tracked later token other) : session.token = other.token := by
  obtain ⟨w, member, isRotated, isToken, -⟩ := hands.successor
  obtain ⟨v, vMember, vRotated, isOther, -⟩ := again.successor
  rw [← isToken, ← isOther]
  exact sound.ledger.one w member v vMember token isRotated vRotated

theorem not_hands_of_handsBack (handsBack : world.HandsBack config tracked arrival token session) :
    ¬world.Hands config tracked later token other := by
  intro hands
  obtain ⟨stored, impersonation, reads, isFor, -⟩ := handsBack
  obtain ⟨w, member, isRotated, -⟩ := hands.successor
  exact sound.ledger.not_superseded reads.isRecord (by simp [isFor]) ⟨w, member, isRotated⟩

theorem token_eq_of_handsBack (handsBack : world.HandsBack config tracked arrival token session)
    (again : world.HandsBack config tracked later token other) : session.token = other.token := by
  obtain ⟨stored, impersonation, reads, isFor, -, hands⟩ := handsBack
  obtain ⟨stored', impersonation', reads', isFor', -, hands'⟩ := again
  have same := (sound.ledger.sameLogin reads.isRecord reads'.isRecord rfl).impersonation
  obtain rfl : impersonation = impersonation' := by
    rw [isFor, isFor'] at same
    exact some.inj same
  exact token_eq_of_hands sound hands hands'

theorem World.Sound.same {a b : Answered} (aMember : a ∈ world.answered)
    (bMember : b ∈ world.answered) {first second : RefreshedSession}
    (aRefresh : a.op = .refresh token) (bRefresh : b.op = .refresh token)
    (aOutcome : a.outcome = .refreshed (.ok first))
    (bOutcome : b.outcome = .refreshed (.ok second)) : first.token = second.token := by
  have aEarns := sound.earned a aMember
  have bEarns := sound.earned b bMember
  rw [aOutcome] at aEarns
  rw [bOutcome] at bEarns
  rcases aEarns token aRefresh with aHands | aBack <;>
    rcases bEarns token bRefresh with bHands | bBack
  · exact token_eq_of_hands sound aHands bHands
  · exact absurd aHands (not_hands_of_handsBack sound bBack)
  · exact absurd bHands (not_hands_of_handsBack sound aBack)
  · exact token_eq_of_handsBack sound aBack bBack

theorem World.Sound.not_closed (isTracked : tracked) {b : Answered} (member : b ∈ world.answered)
    (closed : world.ClosedBefore b.arrival token) :
    (∀ response, b.op = .verify token → b.outcome = .verified response → response.valid = false) ∧
      ∀ session, b.op = .refresh token → b.outcome ≠ .refreshed (.ok session) := by
  have earns := sound.earned b member
  constructor
  · intro response isVerify isOutcome
    rw [isOutcome] at earns
    by_contra isValid
    obtain ⟨stored, now, reads, -⟩ := earns token isVerify (by simpa using isValid)
    exact reads.notClosed isTracked closed
  · intro session isRefresh isOutcome
    rw [isOutcome] at earns
    rcases earns token isRefresh with hands | ⟨stored, impersonation, reads, -⟩
    · exact hands.notClosed isTracked closed
    · exact reads.notClosed isTracked closed

end

instance (world : World) (request : Call) : Decidable (world.DrawsFresh request) :=
  match request with
  | .putNewSession _ _ _ =>
    inferInstanceAs (Decidable (∀ k < world.drawn, world.token k ≠ world.token world.drawn))
  | .arrive | .now | .newSessionToken | .getSession _ | .putGrace _ _ _ | .deleteSession _ _ =>
    .isTrue trivial
  | .getRevoked _ | .putRevoked _ _ | .respond _ _ _ => .isTrue trivial

/-- New tokens do not repeat, and the rest is free. -/
def freshReferee (config : AppConfig) (depth : Nat) (runs : Operation → Bool) :
    Referee (authSessions config depth runs) fun request world => world.DrawsFresh request where
  mayCall request world := decide (world.DrawsFresh request)
  mayStart _ op := runs op
  allowed_of_mayCall := of_decide_eq_true
  startable_of_mayStart isRun := isRun

theorem reachableUnder_fresh {system : System sessionSignature World Operation}
    {final : Config sessionSignature World Operation}
    (reached : system.ReachableWhere (fun request world => world.DrawsFresh request) world final) :
    system.ReachableUnder (freshTokens.and anyStep) world final := by
  apply runUnder_of_allowed _ _ reached
  · exact fun request world others isFresh => ⟨isFresh, trivial⟩
  · exact fun thread => ⟨trivial, trivial⟩

def defaultConfig : AppConfig where
  accessTtlSec := 3600
  absWebTtlSec := 7776000
  absMobileTtlSec := 15552000
  idleTtlSec := 2592000
  refreshGraceSec := 60
  impersonationTtlSec := 3600
  impersonationRestoreGraceSec := 43200
  accessTtl_pos := by decide
  absWebTtl_pos := by decide
  idleTtl_pos := by decide

def freshWorld : World where
  sessions _ := none
  revoked _ := none
  time := 1780272000000
  random k _ := UInt8.ofNat k
  drawn := 0
  written := []
  ended := []
  closed := []
  revocations := []
  arrivals := 0
  answered := []

theorem freshWorld_isFresh : freshWorld.IsFresh := by
  constructor <;> simp [freshWorld]

def calls (count index : Nat) : List (Move sessionSignature World Operation) :=
  List.replicate count (.call index fun _ => .error .tooDeep)

/-- Two refreshes of a token were answered with different successors. -/
def World.forks (world : World) (token : String) : Bool :=
  world.answered.any fun a => world.answered.any fun b =>
    decide (a.op = .refresh token) && decide (b.op = .refresh token) &&
      match a.outcome, b.outcome with
      | .refreshed (.ok session), .refreshed (.ok other) => decide (session.token ≠ other.token)
      | _, _ => false

/-- The session of a login is refreshed from two tabs, which both read it before either puts a
successor. -/
def twoTabs : List (Move sessionSignature World Operation) :=
  [.start (.create "u" .web)] ++ calls 5 0 ++
    [.start (.refresh (freshWorld.token 1)), .start (.refresh (freshWorld.token 1))] ++
    calls 4 1 ++ calls 4 0 ++ calls 3 1 ++ calls 3 0

end DubEcosystem.AuthSessions
