import DubEcosystem.InterleavingPairs
import DubEcosystem.MailGatewayOneMail

/-!
# mail-gateway: two requests under one idempotency key

A send that finds the row of another request under its key is to answer with a conflict.
A send that loses the race for the key answers from the row without a look at its hash.
-/

namespace DubEcosystem.MailGateway

open Relation Interleaving PortPrograms KeyedTable Except

variable {env : Env} {faults : Bool} {world moved : World} {key : String}
  {request : Call} {answer : Except Thrown (Result request)}

/-- A call of `sendMail`, but for its key. -/
structure Submission where
  deps : SendDeps
  rawReq : SendMailRequest
  requester : String

def Submission.hash (submission : Submission) : String :=
  hashRequest (withArchiveCc submission.rawReq submission.deps.archiveCc)

def Submission.program (submission : Submission) (key : String) :
    Prog mailSignature (Except Thrown SendResult) :=
  (sendMail submission.deps submission.rawReq key submission.requester).run

def IsConflict : Except Thrown SendResult → Prop
  | .error thrown => thrown.code = some MAIL_IDEMPOTENCY_CONFLICT
  | .ok _ => False

/-- Neither call is answered for the other one's request: at most one of them returns, with
a message of its own, and where no statement fails one ends with a conflict. -/
structure Apart (faults : Bool)
    (pair : Pair mailSignature World (Except Thrown SendResult)) : Prop where
  sent : ∀ result, pair.first = .done (.ok result) ∨ pair.second = .done (.ok result) →
    result.status = .sent
  once : ∀ result other, pair.first = .done (.ok result) → pair.second ≠ .done (.ok other)
  conflicts : faults = false → ∀ outcome other, pair.first = .done outcome →
    pair.second = .done other → IsConflict outcome ∨ IsConflict other

/-- In every run of the two sends under a key that is not in the log. -/
def KeyAnswersForOne (env : Env) (faults : Bool) (allowed : Call → World → Prop)
    (key : String) (first second : Submission) : Prop :=
  ∀ start pair, start.findSendByKey key = none →
    ReflTransGen (Pair.Step (mailMachine env faults) allowed drifts)
      ⟨start, first.program key, second.program key⟩ pair → Apart faults pair

/-- No claim is refused: its key and its id are free when it is inserted. -/
def claimsWin : Call → World → Prop
  | .insertSendClaim claim, world =>
    ∀ row ∈ world.sendLog, row.id ≠ claim.id ∧ row.idempotencyKey ≠ claim.idempotencyKey
  | _, _ => True

/-- How far a send has come, as far as it matters to the other one. -/
inductive Course where
  | looking
  | owned
  | conflicted
  | failed
  /-- It found a row with its own hash, or lost the race for the key. -/
  | astray
  deriving DecidableEq

def Claims : Call → Prop
  | .insertSendClaim _ => True
  | _ => False

inductive Course.Leads (key hash : String) :
    Course → (request : Call) → Except Thrown (Result request) → Course → Prop
  | goesOn {course request answer} (others : ¬Claims request) :
      Leads key hash course request answer course
  | fails {course thrown} : Leads key hash course .fault (.error thrown) .failed
  | conflicts {row : SendLogRow} (differs : row.reqHash ≠ hash) :
      Leads key hash .looking (.findSendByKey key) (.ok (some row)) .conflicted
  | finds {row : SendLogRow} (same : row.reqHash = hash) :
      Leads key hash .looking (.findSendByKey key) (.ok (some row)) .astray
  | claims {claim : SendClaim} {count : Nat} (isKey : claim.idempotencyKey = key)
      (isHash : claim.reqHash = hash) (won : count ≠ 0) :
      Leads key hash .looking (.insertSendClaim claim) (.ok count) .owned
  | loses {claim : SendClaim} (isHash : claim.reqHash = hash) :
      Leads key hash .looking (.insertSendClaim claim) (.ok 0) .astray

/-- A phase is the hash of a request with the course of its send. -/
def courseProtocol (env : Env) (faults : Bool) (key : String) :
    Protocol mailSignature (String × Course) where
  possible := possible env faults
  leads phase request answer after :=
    after.1 = phase.1 ∧ Course.Leads key phase.1 phase.2 request answer after.2
  final _ := True

def Ended : Except Thrown SendResult → String × Course → Prop
  | _, (_, .astray) => True
  | .ok result, (_, course) => course = .owned ∧ result.status = .sent
  | .error thrown, (_, course) => course = .owned ∨ course = .failed ∨
      course = .conflicted ∧ IsConflict (.error thrown)

variable {α : Type}

abbrev Plain (action : Mail α) (ends : Except Thrown α → Prop) : Prop :=
  Meets (fun _ _ => True) (fun request => ¬Claims request) action ends

theorem statement_plain (request : Call) (others : ¬Claims request) :
    Plain (statement request) fun _ => True :=
  Keeps.bind (Keeps.port id) fun _ => Keeps.port others

def Sends : Except Thrown SendResult → Prop :=
  fun outcome => ∀ result, outcome = .ok result → result.status = .sent

theorem sends_error (thrown : Thrown) : Sends (.error thrown) :=
  fun _ isOk => nomatch isOk

theorem plain_bind {action : Mail α} {rest : α → Mail SendResult}
    (first : Plain action fun _ => True) (second : ∀ value, Plain (rest value) Sends) :
    Plain (action >>= rest) Sends := by
  apply meets_bind.mpr
  refine first.mono ?_
  rintro (thrown | value) -
  · exact sends_error thrown
  · exact second value

theorem retrying_plain (outbound : OutboundMail) (left : Nat) :
    Plain (retrying (ask (.providerSend key outbound)) left) fun _ => True := by
  induction left with
  | zero => exact Keeps.port id
  | succ left ih =>
    apply Keeps.attempt_bind (Keeps.port id)
    rintro (thrown | value)
    · simp only []
      split
      · exact ih
      · exact Keeps.throw
    · exact Keeps.pure

variable (deps : SendDeps)

theorem handOver_plain (id : String) (outbound : OutboundMail) :
    Plain (handOver deps key id outbound) Sends := by
  apply plain_bind (retrying_plain outbound _)
  intro messageId
  apply plain_bind (statement_plain (.markSendSent id deps.provider messageId) nofun)
  intro _
  apply plain_bind (Keeps.port (fun claims : Claims .now => claims))
  intro acceptedAt
  exact meets_pure.mpr fun result isOk => ok.inj isOk ▸ rfl

theorem plain_handedOver (id : String) (outbound : OutboundMail) : Plain (do
      match ← attempt (handOver deps key id outbound) with
      | .ok result => pure result
      | .error err => do
        statement (.markSendFailed id (codeOf err))
        throw { err with code := some (codeOf err) }) Sends := by
  apply meets_attempt_bind.mpr
  refine (handOver_plain deps id _).mono ?_
  rintro (thrown | result) sends
  · apply plain_bind (statement_plain (.markSendFailed id (codeOf thrown)) fun claims => claims)
    exact fun _ => meets_throw.mpr (sends_error _)
  · exact meets_pure.mpr sends

theorem deliver_plain (rawReq req : SendMailRequest) (threadId : Option String) (id : String) :
    Plain (deliver deps rawReq req key threadId id) Sends := by
  unfold deliver
  cases req.parent with
  | none => exact plain_handedOver deps id _
  | some parent => exact plain_bind (Keeps.port fun claims => claims) fun _ =>
    plain_handedOver deps id _

abbrev CourseFollows (env : Env) (faults : Bool) (key hash : String) (course : Course)
    (action : Mail α) (post : Except Thrown α → String × Course → Prop) : Prop :=
  Follows (courseProtocol env faults key) (hash, course) action post

variable {hash : String} {course : Course}

theorem follows_of_plain {action : Mail α} {ends : Except Thrown α → Prop}
    (plain : Plain action ends) : CourseFollows env faults key hash course action
      fun outcome after => after = (hash, course) ∧ ends outcome :=
  follows_of_meets plain fun _ _ others => ⟨rfl, .goesOn others⟩

theorem astray_of_plain {action : Mail SendResult} {ends : Except Thrown SendResult → Prop}
    (plain : Plain action ends) : CourseFollows env faults key hash .astray action Ended := by
  refine (follows_of_plain plain).mono ?_
  rintro outcome _ ⟨rfl, -⟩
  cases outcome <;> trivial

/-- A statement, which fails in any course, and its rest. -/
theorem follows_course_statement {rest : Result request → Mail SendResult}
    (answers : ∀ result, ∃ after, Course.Leads key hash course request (.ok result) after ∧
      CourseFollows env faults key hash after (rest result) Ended)
    (returns : ∀ thrown, ¬possible env faults request (.error thrown)) :
    CourseFollows env faults key hash course (statement request >>= rest) Ended := by
  have fails : ∀ thrown, Ended (.error thrown) (hash, .failed) :=
    fun thrown => .inr (.inl rfl)
  apply follows_bind
  apply follows_port_bind
  · rintro ⟨⟩ -
    refine ⟨(hash, course), ⟨rfl, .goesOn id⟩, follows_port ?_⟩
    rintro (thrown | result) isPossible
    · exact absurd isPossible (returns thrown)
    · obtain ⟨after, leads, follows⟩ := answers result
      exact ⟨(hash, after), ⟨rfl, leads⟩, follows⟩
  · exact fun thrown _ => ⟨(hash, .failed), ⟨rfl, .fails⟩, fails thrown⟩

theorem sendMail_course (submission : Submission) :
    CourseFollows env faults key submission.hash .looking
      (sendMail submission.deps submission.rawReq key submission.requester) Ended := by
  obtain ⟨deps, rawReq, requester⟩ := submission
  unfold Submission.hash sendMail
  simp only []
  apply follows_bind
  generalize withArchiveCc rawReq deps.archiveCc = req
  have resolved : CourseFollows env faults key (hashRequest req) .looking (resolveThread req)
      fun outcome after =>
        (∃ threadId, outcome = .ok threadId) ∧ after = (hashRequest req, .looking) := by
    unfold resolveThread
    cases req.parent with
    | none => exact follows_pure ⟨⟨none, rfl⟩, rfl⟩
    | some parent =>
      apply follows_port_bind
      · exact fun root _ => ⟨_, ⟨rfl, .goesOn id⟩, follows_pure ⟨⟨_, rfl⟩, rfl⟩⟩
      · exact fun _ => False.elim
  apply resolved.mono
  rintro _ _ ⟨⟨threadId, rfl⟩, rfl⟩
  apply follows_course_statement _ fun thrown => id
  rintro (- | existing)
  · refine ⟨.looking, .goesOn id, ?_⟩
    apply follows_port_bind
    · intro drawn _
      refine ⟨_, ⟨rfl, .goesOn id⟩, ?_⟩
      apply follows_course_statement _ fun thrown => id
      intro claimed
      cases claimed with
      | zero =>
        refine ⟨.astray, .loses rfl, ?_⟩
        refine astray_of_plain (Keeps.bind (statement_plain _ id) ?_ : Plain _ fun _ => True)
        rintro (- | now)
        · exact Keeps.throw
        · exact Keeps.pure
      | succ count =>
        refine ⟨.owned, .claims rfl rfl (Nat.succ_ne_zero count), ?_⟩
        refine (follows_of_plain (deliver_plain _ _ _ _ _)).mono ?_
        rintro (thrown | result) _ ⟨rfl, sends⟩
        · exact .inl rfl
        · exact ⟨rfl, sends result rfl⟩
    · exact fun _ => False.elim
  · by_cases differs : existing.reqHash ≠ hashRequest req
    · refine ⟨.conflicted, .conflicts differs, ?_⟩
      simp only []
      rw [if_pos differs]
      exact follows_throw (.inr (.inr ⟨rfl, rfl⟩))
    · refine ⟨.astray, .finds (not_not.mp differs), ?_⟩
      simp only []
      rw [if_neg differs]
      split
      · exact astray_of_plain (Keeps.pure : Plain _ fun _ => True)
      · exact astray_of_plain (deliver_plain _ _ _ _ _)

/-- What the log says of a send with this hash. -/
def World.Bears (world : World) (faults : Bool) (key hash : String) : Course → Prop
  | .looking => ∀ row ∈ world.sendLog, row.idempotencyKey = key → row.reqHash ≠ hash
  | .owned => ∃ row ∈ world.sendLog, row.idempotencyKey = key ∧ row.reqHash = hash
  | .conflicted => True
  | .failed => faults = true
  | .astray => False

/-- The log bears out both sends, whose hashes differ. -/
def World.BearsBoth (faults : Bool) (key : String) (world : World)
    (phase other : String × Course) : Prop :=
  phase.1 ≠ other.1 ∧ world.Bears faults key phase.1 phase.2 ∧
    world.Bears faults key other.1 other.2

theorem bears_of_answers (answers : (mailMachine env faults).Answers request world answer moved)
    (others : ∀ claim, request = .insertSendClaim claim → claim.reqHash ≠ hash)
    (bears : world.Bears faults key hash course) : moved.Bears faults key hash course := by
  cases course with
  | looking =>
    intro row member isKey
    rcases mem_sendLog_of_answers answers member with
      ⟨entry, entryMem, -, sameKey, sameHash⟩ | ⟨claim, isClaim, rfl, -⟩
    · exact sameHash ▸ bears entry entryMem (sameKey.symm.trans isKey)
    · exact others claim isClaim
  | owned =>
    obtain ⟨row, member, isKey, isHash⟩ := bears
    obtain ⟨now, nowMem, -, sameKey, sameHash⟩ := entry_of_answers answers member
    exact ⟨now, nowMem, sameKey.trans isKey, sameHash.trans isHash⟩
  | conflicted => trivial
  | failed | astray => exact bears

theorem claim_wins {claim : SendClaim} (wins : claimsWin (.insertSendClaim claim) world) :
    (world.insertSendClaim claim).1 ≠ 0 := by
  have idIsFree : world.sendLog.rows.any (fun row => row.id = claim.id) = false := by
    apply List.any_eq_false.mpr
    intro row member
    simpa using (wins row member).1
  unfold World.insertSendClaim
  simp only [idIsFree]
  cases inserts : world.sendLog.insert? (world.pendingRow claim) with
  | none =>
    obtain ⟨row, member, sameKey⟩ := insert?_eq_none.mp inserts
    exact absurd sameKey (wins row member).2
  | some sendLog => exact Nat.one_ne_zero

theorem bearsBoth_call {phase after other : String × Course} (wins : claimsWin request world)
    (answers : (mailMachine env faults).Answers request world answer moved)
    (leads : (courseProtocol env faults key).leads phase request answer after)
    (both : world.BearsBoth faults key phase other) : moved.BearsBoth faults key after other := by
  obtain ⟨hash, course⟩ := phase
  obtain ⟨_, later⟩ := after
  obtain ⟨rfl, leads⟩ := leads
  obtain ⟨differ, bears, otherBears⟩ := both
  simp only [] at differ bears leads
  refine ⟨differ, ?_, bears_of_answers answers ?_ otherBears⟩
  · cases leads with
    | goesOn others =>
      exact bears_of_answers answers (fun claim isClaim => (others (isClaim ▸ trivial)).elim) bears
    | fails => exact possible_of_answers answers
    | conflicts => trivial
    | finds same =>
      have found := ok.inj (Prod.mk.inj answers).1
      obtain ⟨member, isKey⟩ := find?_eq_some.mp found
      exact bears _ member isKey same
    | @claims claim count isKey isHash won =>
      have isMoved : (world.insertSendClaim claim).2 = moved := (Prod.mk.inj answers).2
      rcases insertSendClaim_cases world claim with ⟨lost, -⟩ | ⟨-, sendLog, inserts, -, isAfter⟩
      · exact absurd lost (claim_wins wins)
      · refine ⟨world.pendingRow claim, ?_, isKey, isHash⟩
        rw [← isMoved, isAfter]
        exact (mem_insert? inserts).mpr (.inr rfl)
    | loses => exact claim_wins wins (ok.inj (Prod.mk.inj answers).1)
  · intro claim isClaim
    cases leads with
    | goesOn others => exact (others (isClaim ▸ trivial)).elim
    | claims isKey isHash won | loses isHash =>
      cases isClaim
      exact isHash ▸ differ
    | _ => cases isClaim

theorem apart_of_bearsBoth {pair : Pair mailSignature World (Except Thrown SendResult)}
    (holds : pair.Holds (courseProtocol env faults key) Ended (World.BearsBoth faults key)) :
    Apart faults pair := by
  obtain ⟨world, first, second⟩ := pair
  obtain ⟨⟨hash, course⟩, ⟨otherHash, other⟩, follows, otherFollows, differ, bears, otherBears⟩ :=
    holds
  simp only [] at differ bears otherBears follows otherFollows
  have notBoth : ¬(course = .owned ∧ other = .owned) := by
    rintro ⟨rfl, rfl⟩
    obtain ⟨row, member, isKey, isHash⟩ := bears
    obtain ⟨otherRow, otherMem, otherKey, isOther⟩ := otherBears
    have same := eq_of_key_eq member otherMem (isKey.trans otherKey.symm)
    exact differ (isHash.symm.trans (same ▸ isOther))
  have ends : ∀ {outcome : Except Thrown SendResult} {hash course},
      world.Bears faults key hash course → Ended outcome (hash, course) →
        (∀ result, outcome = .ok result → course = .owned ∧ result.status = .sent) ∧
          (faults = false → course ≠ .owned → IsConflict outcome) := by
    intro outcome hash course bears ended
    cases course <;> cases outcome <;> simp_all [World.Bears, Ended]
  refine ⟨?_, ?_, ?_⟩
  · rintro result (rfl | rfl)
    · exact ((ends bears follows).1 result rfl).2
    · exact ((ends otherBears otherFollows).1 result rfl).2
  · rintro result other rfl rfl
    exact notBoth ⟨((ends bears follows).1 result rfl).1,
      ((ends otherBears otherFollows).1 other rfl).1⟩
  · rintro noFaults outcome otherOutcome rfl rfl
    by_cases owned : course = .owned
    · exact .inr ((ends otherBears otherFollows).2 noFaults fun also => notBoth ⟨owned, also⟩)
    · exact .inl ((ends bears follows).2 noFaults owned)

def submissionOf (req : SendMailRequest) : Submission where
  deps := plainDeps
  rawReq := req
  requester := "task-service"

def farewell : SendMailRequest := { greeting with subject := "goodbye" }

def returned : Prog mailSignature (Except Thrown SendResult) → Bool
  | .done (.ok _) => true
  | _ => false

theorem exists_of_returned {program : Prog mailSignature (Except Thrown SendResult)}
    (isReturned : returned program = true) : ∃ result, program = .done (.ok result) := by
  unfold returned at isReturned
  split at isReturned
  · exact ⟨_, rfl⟩
  · cases isReturned

def redrawn (world : World) : World :=
  { world with around := { world.around with drawnId := "log_2" } }

/-- The farewell has looked its key up and drawn an id. -/
def lookedUp : Pair mailSignature World (Except Thrown SendResult) :=
  Pair.play (mailMachine plainEnv true) (List.replicate 3 (false, accepting))
    ⟨emptyWorld, (submissionOf greeting).program "key_1", (submissionOf farewell).program "key_1"⟩

/-- The greeting is sent under the key meanwhile, and the farewell loses the race. -/
def overtaken : Pair mailSignature World (Except Thrown SendResult) :=
  Pair.play (mailMachine plainEnv true)
    (List.replicate 9 (true, accepting) ++ List.replicate 4 (false, accepting))
    { lookedUp with world := redrawn lookedUp.world }

end DubEcosystem.MailGateway
