import Mathlib.Data.List.Pairwise
import DubEcosystem.InterleavingSchedule
import DubEcosystem.MailGatewayEffects

/-!
# mail-gateway: one mail for an idempotency key

A send that owns the row of its key may hand the message over.  Claiming the key makes it
the only owner; taking up a failed row does not, because the row stays as it is.
-/

namespace DubEcosystem.MailGateway

open Interleaving PortPrograms List

variable {env : Env} {faults : Bool} {world moved : World} {key : String} {phase after : Phase}

def LooksUp : Call → Prop
  | .findSendByKey _ => True
  | .insertSendClaim _ => True
  | _ => False

def Offers (key : String) : Call → Prop
  | .providerSend sentFor _ => sentFor = key
  | _ => False

/-- The program may hand a message over for the key without another look at the log. -/
def MayOffer {α : Type} (key : String) (program : Prog mailSignature α) : Prop :=
  program.MayReach LooksUp (Offers key)

/-- A failed row is only found where its message was not accepted and nobody else may
still hand it over. -/
def failedIsFree : RunCondition mailSignature World Operation where
  mayCall request world others :=
    match request with
    | .findSendByKey key => ∀ row, world.findSendByKey key = some row → row.status = .failed →
        world.acceptedFor key = [] ∧ ∀ thread ∈ others, ¬MayOffer key thread.2
    | _ => True
  mayStop _ := True

def sendsOf (rawReq : SendMailRequest) (key : String) : Operation → Prop
  | .send deps req sentFor _ => req = rawReq ∧ sentFor = key ∧ deps.maxAttempts = 1
  | _ => False

/-- In every run of the sends the provider accepts at most one message for the key. -/
def OneMailPerKey (env : Env) (rawReq : SendMailRequest) (key : String)
    (condition : RunCondition mailSignature World Operation) : Prop :=
  ∀ start config, start.accepted = [] →
    (gateway env true (sendsOf rawReq key)).ReachableUnder condition start config →
      (config.world.acceptedFor key).length ≤ 1

section Ownership

def Phase.Owns (key : String) : Phase → Prop
  | .send sentFor _ (.owned _) => sentFor = key
  | .work row (.owned _) _ => schedKey row.id = key
  | _ => False

variable {request : Call} {answer : Except Thrown (Result request)}

theorem Stage.Leads.owned_after {hash id : String} {fits : OutboundMail → Prop}
    {stage next : Stage} (leads : Stage.Leads key hash fits stage request answer next)
    (owned : next = .owned id) :
    (∃ id, stage = .owned id) ∨ Acquires key id request answer := by
  cases leads with
  | goesOn => exact .inl ⟨id, owned⟩
  | takesUp same failed =>
    cases owned
    exact .inr (.takesUp failed)
  | claims isKey isHash won =>
    cases owned
    exact .inr (.claims isKey won)
  | refers | retries => exact .inl ⟨_, rfl⟩
  | _ => cases owned

/-- An operation comes to own a row only by an answer that gives it the row. -/
theorem Phase.Leads.owns_after (leads : Phase.Leads env phase request answer after)
    (owns : after.Owns key) : phase.Owns key ∨ ∃ id, Acquires key id request answer := by
  have turned : ∀ rows, ¬(Phase.turnTo rows).Owns key := by
    intro rows owns
    cases rows with
    | nil | cons row rest => exact owns
  cases leads with
  | goesOn => exact .inl owns
  | @send sentFor hash stage _ _ next leads =>
    cases next with
    | owned id =>
      obtain rfl : sentFor = key := owns
      rcases leads.owned_after rfl with ⟨id, rfl⟩ | acquires
      · exact .inl rfl
      · exact .inr ⟨_, acquires⟩
    | _ => exact owns.elim
  | @work row stage _ _ next rest leads =>
    cases next with
    | owned id =>
      obtain rfl : schedKey row.id = key := owns
      rcases leads.owned_after rfl with ⟨id, rfl⟩ | acquires
      · exact .inl rfl
      · exact .inr ⟨_, acquires⟩
    | _ => exact owns.elim
  | claims | marks | releases | attemptFails => exact (turned _ owns).elim
  | _ => exact owns.elim

/-- Only who owns the row hands the message over, and does so once. -/
theorem Phase.Leads.owns_of_accepts {outbound : OutboundMail}
    (leads : Phase.Leads env phase request answer after)
    (accepts : Accepts key outbound request answer) :
    phase.Owns key ∧ ∀ other, ¬after.Owns other := by
  cases accepts with
  | accepts =>
    cases leads with
    | send leads | work leads =>
      cases leads with
      | accepts => exact ⟨rfl, fun other owns => owns⟩

/-- A program that owns the row may hand the message over. -/
theorem mayOffer_of_owns {program : Prog mailSignature Unit}
    (follows : (mailProtocol env faults).Follows phase program) (owns : phase.Owns key) :
    MayOffer key program := by
  apply follows.mayReach owns
  · rintro (⟨_, _, stage⟩ | _ | ⟨_, stage, _⟩ | _ | _ | _) owns isFinal
    · cases stage <;> first | exact owns | exact isFinal
    · exact owns
    · cases stage <;> first | exact owns | exact isFinal
    all_goals exact owns
  · exact exists_possible env faults
  · intro phase request answer after owns _ leads
    cases leads with
    | goesOn => exact .inr ⟨id, owns⟩
    | send leads | work leads =>
      cases leads with
      | goesOn | refers => exact .inr ⟨id, owns⟩
      | accepts | retries | refuses => exact .inl owns
      | _ => exact owns.elim
    | _ => exact owns.elim

end Ownership

section Invariant

/-- Every key has at most one owner, and one whose message was not accepted. -/
structure OneMail (world : World) (phases : List Phase) : Prop where
  once : ∀ key, (world.acceptedFor key).length ≤ 1
  apart : phases.Pairwise fun first second => ∀ key, first.Owns key → ¬second.Owns key
  unsent : ∀ phase ∈ phases, ∀ key, phase.Owns key →
    world.acceptedFor key = [] ∧ world.Logs key
  logged : ∀ sent ∈ world.accepted, world.Logs sent.1

variable {phases : List Phase} {request : Call} {answer : Except Thrown (Result request)}
  {others : List (Operation × Prog mailSignature Unit)}

/-- An answer that gives an operation the row of a key comes when nothing was accepted
for it and nobody else owns it. -/
theorem OneMail.of_acquires (holds : OneMail world (phase :: phases))
    (tracks : (mailProtocol env true).Tracks others phases)
    (permitted : failedIsFree.mayCall request world others)
    (answers : (mailMachine env true).Answers request world answer moved)
    {id : String} (acquires : Acquires key id request answer) :
    world.acceptedFor key = [] ∧ moved.Logs key ∧ ∀ other ∈ phases, ¬other.Owns key := by
  cases acquires with
  | @takesUp existing failed =>
    have isFound := (Prod.mk.inj answers).1
    have found : world.findSendByKey key = some existing := Except.ok.inj isFound
    obtain ⟨unsent, free⟩ := permitted existing found failed
    refine ⟨unsent, logs_of_acquires answers (.takesUp failed), ?_⟩
    · intro other member owns
      obtain ⟨thread, threadMem, follows⟩ := tracks.exists_of_mem member
      exact free thread threadMem (mayOffer_of_owns follows owns)
  | claims isKey won =>
    have wasFree := isKey ▸ not_logs_of_claims won answers
    refine ⟨acceptedFor_eq_nil_of_not_logs holds.logged wasFree,
      logs_of_acquires answers (.claims isKey won), ?_⟩
    intro other member owns
    exact wasFree (holds.unsent other (.tail _ member) key owns).2

theorem OneMail.call (holds : OneMail world (phase :: phases))
    (tracks : (mailProtocol env true).Tracks others phases)
    (permitted : failedIsFree.mayCall request world others)
    (answers : (mailMachine env true).Answers request world answer moved)
    (leads : Phase.Leads env phase request answer after) :
    OneMail moved (after :: phases) := by
  have acquired : ∀ key id, Acquires key id request answer →
      world.acceptedFor key = [] ∧ moved.Logs key ∧ ∀ other ∈ phases, ¬other.Owns key :=
    fun key id => holds.of_acquires tracks permitted answers
  have kept : ∀ {key}, world.Logs key → moved.Logs key := logs_of_answers answers
  obtain ⟨once, apart, unsent, logged⟩ := holds
  obtain ⟨firstApart, restApart⟩ := pairwise_cons.mp apart
  have restApartNow : (after :: phases).Pairwise
      fun first second => ∀ key, first.Owns key → ¬second.Owns key := by
    apply pairwise_cons.mpr
    refine ⟨?_, restApart⟩
    intro other member key owns
    rcases leads.owns_after owns with owned | ⟨id, acquires⟩
    · exact firstApart other member key owned
    · exact (acquired key id acquires).2.2 other member
  rcases accepted_of_answers answers with same | ⟨sentFor, outbound, accepts, isCons⟩
  · have acceptedFor := acceptedFor_eq_of_accepted_eq same
    refine ⟨fun key => acceptedFor key ▸ once key, restApartNow, ?_, ?_⟩
    · intro other member key owns
      rw [acceptedFor]
      rcases mem_cons.mp member with rfl | member
      · rcases leads.owns_after owns with owned | ⟨id, acquires⟩
        · obtain ⟨isUnsent, logs⟩ := unsent _ (.head _) key owned
          exact ⟨isUnsent, kept logs⟩
        · obtain ⟨isUnsent, logs, -⟩ := acquired key id acquires
          exact ⟨isUnsent, logs⟩
      · obtain ⟨isUnsent, logs⟩ := unsent _ (.tail _ member) key owns
        exact ⟨isUnsent, kept logs⟩
    · intro sent member
      exact kept (logged sent (same ▸ member))
  · obtain ⟨owns, ownsNone⟩ := leads.owns_of_accepts accepts
    obtain ⟨wasUnsent, wasLogged⟩ := unsent _ (.head _) sentFor owns
    have acceptedFor := acceptedFor_of_accepted_cons isCons
    refine ⟨?_, restApartNow, ?_, ?_⟩
    · intro key
      rw [acceptedFor]
      split
      · rename_i isKey
        subst isKey
        simp [wasUnsent]
      · exact once key
    · intro other member key otherOwns
      rcases mem_cons.mp member with rfl | member
      · exact (ownsNone key otherOwns).elim
      · obtain ⟨isUnsent, logs⟩ := unsent _ (.tail _ member) key otherOwns
        have different : sentFor ≠ key := by
          rintro rfl
          exact firstApart other member _ owns otherOwns
        rw [acceptedFor, if_neg different]
        exact ⟨isUnsent, kept logs⟩
    · intro sent member
      rw [isCons] at member
      rcases mem_cons.mp member with rfl | member
      · exact kept wasLogged
      · exact kept (logged sent member)

/-- One step leaves every key with at most one owner and at most one mail. -/
theorem oneMail_preserved (env : Env) (startable : Operation → Prop) :
    (mailProtocol env true).Preserves (gateway env true startable) failedIsFree
      Operation.first OneMail where
  perm reordered holds := by
    obtain ⟨once, apart, unsent, logged⟩ := holds
    refine ⟨once, ?_, fun phase member => unsent phase (reordered.mem_iff.mpr member), logged⟩
    apply (reordered.pairwise_iff ?_).mp apart
    intro first second disjoint key owns others
    exact disjoint key others owns
  start op running _ holds := by
    have ownsNone : ∀ key, ¬op.first.Owns key := by
      intro key owns
      cases op <;> exact owns
    obtain ⟨once, apart, unsent, logged⟩ := holds
    refine ⟨once, ?_, ?_, logged⟩
    · exact pairwise_cons.mpr ⟨fun _ _ key owns => (ownsNone key owns).elim, apart⟩
    · intro phase member key owns
      rcases mem_cons.mp member with rfl | member
      · exact (ownsNone key owns).elim
      · exact unsent phase member key owns
  call tracks permitted answers leads holds := holds.call tracks permitted answers leads
  environment moves holds := by
    obtain ⟨clock, around, -, rfl⟩ := moves
    exact ⟨holds.once, holds.apart, holds.unsent, holds.logged⟩
  stop _ _ holds := by
    obtain ⟨once, apart, unsent, logged⟩ := holds
    exact ⟨once, (pairwise_cons.mp apart).2,
      fun phase member => unsent phase (.tail _ member), logged⟩

end Invariant

def plainSurroundings : Surroundings where
  threadRoot _ := none
  references _ _ _ := []
  fromAddress _ _ := "noreply@example.org"
  drawnId := "log_1"

def emptyWorld : World where
  clock := 0
  around := plainSurroundings
  sendLog := .empty
  scheduled := .empty
  released := []
  accepted := []
  claims := []

/-- A worker that stores no files and keeps no archive copies. -/
def plainEnv : Env where
  provider := "ses"
  archiveCc := none
  maxAttempts := 1
  assembleMime _ := ""
  parked _ := []

def plainDeps : SendDeps := buildSendDeps plainEnv "info@example.org" none

def greeting : SendMailRequest where
  toAddresses := [⟨"member@example.com", none⟩]
  subject := "hello"
  textBody := "welcome"

/-- The statement takes effect, and the message is accepted. -/
def accepting : (request : Call) → Except Thrown (Result request)
  | .fault => .ok ()
  | .providerSend _ _ => .ok "ses_1"
  | _ => .error { code := none }

def failing : (request : Call) → Except Thrown (Result request) :=
  fun _ => .error { code := none }

def sendReferee : Referee (gateway plainEnv true (sendsOf greeting "key_1")) anyCall where
  mayCall _ _ := true
  mayStart _ op :=
    match op with
    | .send deps req sentFor _ =>
      decide (req = greeting ∧ sentFor = "key_1" ∧ deps.maxAttempts = 1)
    | _ => false
  allowed_of_mayCall _ := trivial
  startable_of_mayStart {running op} permitted := by
    cases op with
    | send deps req sentFor requester =>
      have isSend : req = greeting ∧ sentFor = "key_1" ∧ deps.maxAttempts = 1 :=
        of_decide_eq_true permitted
      exact isSend
    | _ => cases permitted

/-- The first send's message is accepted and its row cannot be marked; the second send
finds the row failed. -/
def markedFailed : List (Move mailSignature World Operation) :=
  let send := .start (.send plainDeps greeting "key_1" "task-service")
  send :: List.replicate 6 (.call 0 accepting) ++
    [.call 0 failing, .call 0 accepting, .call 0 accepting] ++
      send :: List.replicate 3 (.call 0 accepting)

end DubEcosystem.MailGateway
