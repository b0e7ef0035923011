import DubEcosystem.IdentityRosterTypes

/-!
# auth-service: guesses of a password

Three endpoints compare a password with the stored hash of an account.  Two of them
read and bump the failure counters of the account and of the caller's address;
`POST /auth/password` does neither.
-/

namespace DubEcosystem.PasswordGuesses

open IdentityRoster (trim jsLength)

structure Counter where
  count : Nat
  expiresAt : Nat

abbrev Kv := String → Option Counter

def RL_PREFIX : String := "pwrl:"

/-- `KvRateLimiter.peek`; the store drops a counter when it expires. -/
def peek (kv : Kv) (now : Nat) (key : String) : Nat :=
  match kv (RL_PREFIX ++ key) with
  | some counter => if now < counter.expiresAt then counter.count else 0
  | none => 0

def hit (now windowSec : Nat) (key : String) (kv : Kv) : Kv :=
  Function.update kv (RL_PREFIX ++ key) (some ⟨peek kv now key + 1, now + windowSec * 1000⟩)

def reset (key : String) (kv : Kv) : Kv :=
  Function.update kv (RL_PREFIX ++ key) none

def emailKey (email : String) : String := "e:" ++ email

def account (kv : Kv) (email : String) : Option Counter :=
  kv (RL_PREFIX ++ emailKey email)

def ipKey (ip : String) : String := "i:" ++ ip

/-- `intVar` takes positive numbers only. -/
structure AppConfig where
  maxFailures : Nat
  windowSec : Nat
  allowedLoginDomain : String
  passwordMinLength : Nat
  hasPasskeys : Bool
  window_pos : 0 < windowSec

/-- The configuration, and what the handlers use of the language and of `passwords.ts`. -/
structure Deps (Hash : Type) extends AppConfig where
  toLowerCase : String → String
  verifyPassword : String → Hash → Bool

inductive Answer where
  | validationFailed (field reason : String)
  | passkeyDisabled
  | invalidToken
  | impersonationActionBlocked
  | domainNotAllowed
  | rateLimited (windowSec : Nat)
  | notOnAllowlist
  | invalidCredentials
  | stepUpFailed
  | session (userId : String)
  | ok
  | registrationOptions (email : String)

/-- The answers that refuse a request for its password or for earlier ones. -/
def Answer.refusesPassword : Answer → Bool
  | .rateLimited _ | .invalidCredentials | .stepUpFailed => true
  | _ => false

structure Verified where
  valid : Bool
  userId : Option String
  impersonation : Bool

structure User where
  id : String
  email : String
  isActive : Bool

inductive Body where
  | login (email password : Option String)
  | changePassword (currentPassword newPassword : Option String)
  | registerOptions (password : Option String)

/-- A request, the milliseconds since the one before, and what the services that it asks
answer at that time. -/
structure Request (Hash : Type) where
  delay : Nat
  cfConnectingIp : Option String
  xForwardedFor : Option String
  token : String
  body : Body
  verify : String → Verified
  lookupByEmail : String → Option User
  getUser : String → Option User
  hashPassword : String → Hash

structure State (Hash : Type) where
  now : Nat
  counters : Kv
  credentials : String → Option Hash

/-- The account and the passwords of a request that has passed the checks before any peek. -/
structure Presented where
  email : String
  password : String
  newPassword : String

/-- `tested` is the account whose password was compared, and whether it was right. -/
structure Handled (Hash : Type) where
  answer : Answer
  state : State Hash
  tested : Option (String × Bool) := none

variable {Hash : Type}

def Request.clientIp (request : Request Hash) : String :=
  match request.cfConnectingIp.filter (· ≠ ""), request.xForwardedFor.filter (· ≠ "") with
  | some cf, _ => cf
  | none, some xff => trim (String.ofList (xff.toList.takeWhile (· ≠ ',')))
  | none, none => "unknown"

def emailDomain (email : String) : String :=
  if '@' ∈ email.toList then
    String.ofList (email.toList.reverse.takeWhile (· ≠ '@')).reverse
  else ""

def requireString (value : Option String) (field : String) : Except Answer String :=
  match value.filter (· ≠ "") with
  | some text => .ok text
  | none => .error (.validationFailed field "required")

def Request.sessionUserId (request : Request Hash) : Except Answer String :=
  let verified := request.verify request.token
  match verified.userId.filter fun userId => verified.valid && userId ≠ "" with
  | none => .error .invalidToken
  | some userId => if verified.impersonation then .error .impersonationActionBlocked else .ok userId

section Handlers

variable (deps : Deps Hash) (st : State Hash)

variable (request : Request Hash)

def presents : Except Answer Presented :=
  match request.body with
  | .login email password => do
    let emailRaw ← requireString email "email"
    let password ← requireString password "password"
    let email := deps.toLowerCase (trim emailRaw)
    if deps.allowedLoginDomain ≠ "" ∧ emailDomain email ≠ deps.allowedLoginDomain then
      .error .domainNotAllowed
    else .ok ⟨email, password, ""⟩
  | .changePassword currentPassword newPassword => do
    let userId ← request.sessionUserId
    let currentPassword ← requireString currentPassword "currentPassword"
    let newPassword ← requireString newPassword "newPassword"
    if jsLength newPassword < deps.passwordMinLength then
      .error (.validationFailed "newPassword" "too_short")
    else match request.getUser userId with
      | none => .error .invalidToken
      | some me => .ok ⟨deps.toLowerCase (trim me.email), currentPassword, newPassword⟩
  | .registerOptions password =>
    if deps.hasPasskeys then do
      let userId ← request.sessionUserId
      let password ← requireString password "password"
      match (request.getUser userId).filter User.isActive with
      | none => .error .invalidToken
      | some me => .ok ⟨deps.toLowerCase (trim me.email), password, ""⟩
    else .error .passkeyDisabled

def State.isRight (presented : Presented) : Bool :=
  (st.credentials presented.email).any (deps.verifyPassword presented.password)

def State.isLimited (email ip : String) : Bool :=
  deps.maxFailures ≤ peek st.counters st.now (emailKey email) ∨
    deps.maxFailures ≤ peek st.counters st.now (ipKey ip)

def State.bumpFailure (email ip : String) : State Hash :=
  let counters := hit st.now deps.windowSec (emailKey email) st.counters
  { st with counters := hit st.now deps.windowSec (ipKey ip) counters }

def login (presented : Presented) : Handled Hash :=
  let email := presented.email
  let ip := request.clientIp
  if st.isLimited deps email ip then ⟨.rateLimited deps.windowSec, st, none⟩
  else match (request.lookupByEmail email).filter User.isActive with
    | none => ⟨.notOnAllowlist,
        { st with counters := hit st.now deps.windowSec (ipKey ip) st.counters }, none⟩
    | some user =>
      if st.isRight deps presented then
        ⟨.session user.id, { st with counters := reset (emailKey email) st.counters },
          some (email, true)⟩
      else ⟨.invalidCredentials, st.bumpFailure deps email ip, some (email, false)⟩

def changePassword (presented : Presented) : Handled Hash :=
  let email := presented.email
  if st.isRight deps presented then
    let hash := request.hashPassword presented.newPassword
    ⟨.ok, { st with credentials := Function.update st.credentials email (some hash) },
      some (email, true)⟩
  else ⟨.invalidCredentials, st, some (email, false)⟩

def registerOptions (presented : Presented) : Handled Hash :=
  let email := presented.email
  let ip := request.clientIp
  if st.isLimited deps email ip then ⟨.rateLimited deps.windowSec, st, none⟩
  else if st.isRight deps presented then
    ⟨.registrationOptions email, st, some (email, true)⟩
  else ⟨.stepUpFailed, st.bumpFailure deps email ip, some (email, false)⟩

def handle : Handled Hash :=
  match presents deps request with
  | .error answer => ⟨answer, st, none⟩
  | .ok presented =>
    match request.body with
    | .login .. => login deps st request presented
    | .changePassword .. => changePassword deps st request presented
    | .registerOptions .. => registerOptions deps st request presented

structure Entry (Hash : Type) where
  request : Request Hash
  before : State Hash
  handled : Handled Hash

/-- Handle the requests one at a time. -/
def run (st : State Hash) : List (Request Hash) → List (Entry Hash)
  | [] => []
  | request :: requests =>
    let before := { st with now := st.now + request.delay }
    let handled := handle deps before request
    ⟨request, before, handled⟩ :: run handled.state requests

end Handlers

section Bound

variable (deps : Deps Hash)

/-- The request comes in the stretch of `windowSec` from `start` on. -/
def Entry.within (entry : Entry Hash) (start : Nat) : Bool :=
  start ≤ entry.before.now ∧ entry.before.now < start + deps.windowSec * 1000

/-- What the counters are for, over all that was handled.  A password counts as presented only
when it was compared, so `bounded` asks for less than that no right one was sent. -/
structure GuessesBounded (log : List (Entry Hash)) : Prop where
  bounded : ∀ email start,
    (∀ entry ∈ log, entry.within deps start → entry.handled.tested ≠ some (email, true)) →
    log.countP (fun entry => entry.within deps start ∧
      entry.handled.tested = some (email, false)) ≤ deps.maxFailures
  counted : ∀ entry ∈ log, ∀ email, entry.handled.tested = some (email, false) →
    ∀ key ∈ [emailKey email, ipKey entry.request.clientIp],
      peek entry.handled.state.counters entry.before.now key =
        peek entry.before.counters entry.before.now key + 1
  admitted : ∀ entry ∈ log, ∀ presented,
    presents deps entry.request = .ok presented →
    entry.before.isRight deps presented →
    entry.before.isLimited deps presented.email entry.request.clientIp = false →
    entry.handled.answer.refusesPassword = false

/-- The request sends a wrong current password to `POST /auth/password`, in a session of its own
account and with a new password that may be set. -/
def Entry.ChangesWrongly (entry : Entry Hash) : Prop :=
  (∃ current new, entry.request.body = .changePassword current new) ∧
    ∃ presented, presents deps entry.request = .ok presented ∧
      entry.before.isRight deps presented = false

/-- What a handler did: it compared nothing and bumped at most the counter of the address; it
counted a wrong password; it found a right one; or it passed a wrong one over. -/
inductive Handles (st : State Hash) (request : Request Hash) : Handled Hash → Prop
  | untested {answer counters}
      (same : ∀ email, account counters email = account st.counters email) :
      Handles st request ⟨answer, { st with counters }, none⟩
  | counted {answer email} (free : st.isLimited deps email request.clientIp = false) :
      Handles st request ⟨answer, st.bumpFailure deps email request.clientIp, some (email, false)⟩
  | right {answer email counters credentials}
      (same : ∀ other, other ≠ email → account counters other = account st.counters other) :
      Handles st request ⟨answer, ⟨st.now, counters, credentials⟩, some (email, true)⟩
  | uncounted {answer email} (wrongly : Entry.ChangesWrongly deps
        ⟨request, st, answer, st, some (email, false)⟩) :
      Handles st request ⟨answer, st, some (email, false)⟩

variable {deps} {kv : Kv} {now w : Nat} {key other email : String}
variable {st : State Hash} {request : Request Hash} {handled : Handled Hash} {start k : Nat}

theorem kvKey_ne (ne : key ≠ other) : RL_PREFIX ++ key ≠ RL_PREFIX ++ other := fun same =>
  ne ((String.append_right_inj _).mp same)

theorem emailKey_ne (ne : key ≠ other) : emailKey key ≠ emailKey other := fun same =>
  ne ((String.append_right_inj _).mp same)

theorem emailKey_ne_ipKey (email ip : String) : emailKey email ≠ ipKey ip := fun same => by
  simpa [emailKey, ipKey] using congrArg (·.toList.head?) same

theorem hit_of_ne (ne : other ≠ key) :
    hit now w key kv (RL_PREFIX ++ other) = kv (RL_PREFIX ++ other) :=
  Function.update_of_ne (kvKey_ne ne) _ _

theorem peek_congr {after : Kv} (same : after (RL_PREFIX ++ key) = kv (RL_PREFIX ++ key)) :
    peek after now key = peek kv now key := by
  rw [peek, peek, same]

theorem peek_hit (positive : 0 < w) : peek (hit now w key kv) now key = peek kv now key + 1 := by
  conv_lhs => rw [peek, hit, Function.update_self]
  exact if_pos (Nat.lt_add_of_pos_right (Nat.mul_pos positive (by decide)))

/-- A wrong password is counted on both keys. -/
theorem peek_bumpFailure (email ip : String) : ∀ key ∈ [emailKey email, ipKey ip],
    peek (st.bumpFailure deps email ip).counters st.now key = peek st.counters st.now key + 1 := by
  have apart := emailKey_ne_ipKey email ip
  simp only [List.forall_mem_cons, State.bumpFailure]
  refine ⟨?_, ?_, fun _ member => absurd member List.not_mem_nil⟩
  · rw [peek_congr (hit_of_ne apart), peek_hit deps.window_pos]
  · rw [peek_hit deps.window_pos, peek_congr (hit_of_ne apart.symm)]

theorem account_bumpFailure (email ip : String) :
    account (st.bumpFailure deps email ip).counters email =
      some ⟨peek st.counters st.now (emailKey email) + 1, st.now + deps.windowSec * 1000⟩ := by
  simp only [State.bumpFailure, account]
  rw [hit_of_ne (emailKey_ne_ipKey email ip)]
  exact Function.update_self ..

theorem account_bumpFailure_of_ne (ip : String) (ne : other ≠ email) :
    account (st.bumpFailure deps email ip).counters other = account st.counters other := by
  simp only [State.bumpFailure, account]
  rw [hit_of_ne (emailKey_ne_ipKey other ip), hit_of_ne (emailKey_ne ne)]

theorem handles (st : State Hash) (request : Request Hash) : Handles deps st request
      (handle deps st request) := by
  rw [handle]
  cases asks : presents deps request with
  | error answer => exact .untested fun _ => rfl
  | ok presented =>
    dsimp only
    split
    · simp only [login]
      cases (request.lookupByEmail presented.email).filter User.isActive <;>
        dsimp only <;> split_ifs with limited
      · exact .untested fun _ => rfl
      · exact .untested fun email => hit_of_ne (emailKey_ne_ipKey email _)
      · exact .untested fun _ => rfl
      · exact .right fun other ne => Function.update_of_ne (kvKey_ne (emailKey_ne ne)) _ _
      · exact .counted (eq_false_of_ne_true limited)
    · rename_i current new isBody
      simp only [changePassword]
      split_ifs with isRight
      · exact .right fun _ _ => rfl
      · exact .uncounted ⟨⟨current, new, isBody⟩, presented, asks, eq_false_of_ne_true isRight⟩
    · simp only [registerOptions]
      split_ifs with limited
      · exact .untested fun _ => rfl
      · exact .right fun _ _ => rfl
      · exact .counted (eq_false_of_ne_true limited)

theorem handle_admits {presented : Presented} (asks : presents deps request = .ok presented)
    (isRight : st.isRight deps presented = true)
    (free : st.isLimited deps presented.email request.clientIp = false) :
    (handle deps st request).answer.refusesPassword = false := by
  rw [handle, asks]
  dsimp only
  split
  · simp only [login, free, isRight]
    cases (request.lookupByEmail presented.email).filter User.isActive <;> rfl
  · simp [changePassword, isRight, Answer.refusesPassword]
  · simp [registerOptions, free, isRight, Answer.refusesPassword]

/-- Of the stretch from `start` on, `k` wrong passwords of the account have been compared. -/
structure Guessed (deps : Deps Hash) (email : String) (start : Nat) (st : State Hash)
    (k : Nat) : Prop where
  le : k ≤ deps.maxFailures
  early : st.now < start → k = 0
  held : st.now < start + deps.windowSec * 1000 → k = 0 ∨
    ∃ counter, account st.counters email = some counter ∧ k ≤ counter.count ∧
      start + deps.windowSec * 1000 ≤ counter.expiresAt

variable {after : State Hash}

theorem Guessed.of_same (guessed : Guessed deps email start st k) (later : st.now ≤ after.now)
    (same : account after.counters email = account st.counters email) : Guessed deps email start after k where
  le := guessed.le
  early isEarly := guessed.early (later.trans_lt isEarly)
  held isOpen := by
    rw [same]
    exact guessed.held (later.trans_lt isOpen)

theorem Guessed.of_outside (guessed : Guessed deps email start st k) (sameTime : after.now = st.now)
    (outside : ¬(start ≤ st.now ∧ st.now < start + deps.windowSec * 1000)) :
    Guessed deps email start after k where
  le := guessed.le
  early isEarly := guessed.early (sameTime ▸ isEarly)
  held isOpen := .inl (guessed.early (by omega))

theorem Guessed.le_peek (guessed : Guessed deps email start st k)
    (isOpen : st.now < start + deps.windowSec * 1000) :
    k ≤ peek st.counters st.now (emailKey email) := by
  rcases guessed.held isOpen with rfl | ⟨counter, isCounter, counts, expires⟩
  · exact Nat.zero_le _
  · rw [account] at isCounter
    simpa only [peek, isCounter, if_pos (isOpen.trans_le expires)] using counts

/-- A request keeps the count of the wrong passwords right. -/
theorem Guessed.step (guessed : Guessed deps email start st k)
    (handles : Handles deps st request handled)
    (notRight : Entry.within deps ⟨request, st, handled⟩ start →
      handled.tested ≠ some (email, true))
    (notWrongly : ¬Entry.ChangesWrongly deps ⟨request, st, handled⟩) :
    Guessed deps email start handled.state
      (if Entry.within deps ⟨request, st, handled⟩ start ∧ handled.tested = some (email, false)
        then k + 1 else k) := by
  simp only [Entry.within, decide_eq_true_eq] at notRight ⊢
  by_cases outside : ¬(start ≤ st.now ∧ st.now < start + deps.windowSec * 1000)
  · rw [if_neg fun counts => outside counts.1]
    exact guessed.of_outside (by cases handles <;> rfl) outside
  · have inside := not_not.mp outside
    cases handles with
    | untested same =>
      rw [if_neg (by simp)]
      exact guessed.of_same le_rfl (same email)
    | uncounted wrongly => exact absurd wrongly notWrongly
    | @right answer other counters credentials same =>
      have ne : email ≠ other := fun isAccount => notRight inside (by rw [isAccount])
      rw [if_neg (by simp)]
      exact guessed.of_same le_rfl (same email ne)
    | @counted answer other free =>
      by_cases isAccount : other = email
      · subst isAccount
        have below : peek st.counters st.now (emailKey other) < deps.maxFailures := by
          simp only [State.isLimited, decide_eq_false_iff_not, not_or, not_le] at free
          exact free.1
        have counts := guessed.le_peek inside.2
        rw [if_pos ⟨inside, rfl⟩]
        exact ⟨counts.trans_lt below, fun isEarly => absurd isEarly inside.1.not_gt,
          fun _ => .inr ⟨_, account_bumpFailure other _, Nat.succ_le_succ counts,
            Nat.add_le_add_right inside.1 _⟩⟩
      · rw [if_neg (by simp [isAccount])]
        exact guessed.of_same le_rfl (account_bumpFailure_of_ne _ (Ne.symm isAccount))

theorem countP_le (requests : List (Request Hash)) (guessed : Guessed deps email start st k)
    (notRight : ∀ entry ∈ run deps st requests,
      entry.within deps start → entry.handled.tested ≠ some (email, true))
    (notWrongly : ∀ entry ∈ run deps st requests, ¬entry.ChangesWrongly deps) :
    k + (run deps st requests).countP (fun entry =>
      entry.within deps start ∧ entry.handled.tested = some (email, false)) ≤
      deps.maxFailures := by
  induction requests generalizing st k with
  | nil => simpa [run] using guessed.le
  | cons request requests ih =>
    rw [run, List.forall_mem_cons] at notRight notWrongly
    have waited : Guessed deps email start { st with now := st.now + request.delay } k :=
      guessed.of_same (Nat.le_add_right ..) rfl
    have bound := ih (waited.step (handles ..) notRight.1 notWrongly.1) notRight.2 notWrongly.2
    rw [run, List.countP_cons]
    simp only [decide_eq_true_eq]
    split_ifs at bound ⊢ <;> omega

theorem exists_of_mem_run {requests : List (Request Hash)} {entry : Entry Hash}
    (member : entry ∈ run deps st requests) :
    ∃ request before, entry = ⟨request, before, handle deps before request⟩ := by
  induction requests generalizing st with
  | nil => cases member
  | cons request requests ih =>
    rcases List.mem_cons.mp member with rfl | later
    · exact ⟨request, _, rfl⟩
    · exact ih later

/-- The counters bound the guesses in every run in which no wrong current password is sent to
`POST /auth/password`, and in no other. -/
theorem guessesBounded_iff (deps : Deps Hash) (st : State Hash) (requests : List (Request Hash)) :
    GuessesBounded deps (run deps st requests) ↔
      ∀ entry ∈ run deps st requests, ¬entry.ChangesWrongly deps := by
  constructor
  · rintro ⟨-, counted, -⟩ entry member
    obtain ⟨request, before, rfl⟩ := exists_of_mem_run member
    rintro ⟨⟨current, new, isBody⟩, presented, asks, isWrong⟩
    dsimp only at isBody asks isWrong
    have passed : handle deps before request =
        ⟨.invalidCredentials, before, some (presented.email, false)⟩ := by
      simp only [handle, asks, isBody, changePassword]
      rw [isWrong, if_neg (by decide)]
    have same := counted _ member presented.email (by rw [passed]) _ (.head _)
    rw [passed] at same
    exact absurd same (Nat.succ_ne_self _).symm
  · intro notWrongly
    refine ⟨fun email start notRight => ?_, fun entry member email isWrong => ?_,
      fun entry member presented asks isRight free => ?_⟩
    · have none : Guessed deps email start st 0 := ⟨Nat.zero_le _, fun _ => rfl, fun _ => .inl rfl⟩
      simpa using countP_le requests none notRight notWrongly
    · obtain ⟨request, before, rfl⟩ := exists_of_mem_run member
      have did : Handles deps before request (handle deps before request) := handles ..
      have notPassed := notWrongly _ member
      generalize handle deps before request = handled at did isWrong notPassed ⊢
      cases did with
      | uncounted wrongly => exact absurd wrongly notPassed
      | counted =>
        cases isWrong
        exact peek_bumpFailure _ _
      | untested | right => cases isWrong
    · obtain ⟨request, before, rfl⟩ := exists_of_mem_run member
      exact handle_admits asks isRight free

end Bound

def fiveFailures : Deps String where
  maxFailures := 5
  windowSec := 900
  allowedLoginDomain := ""
  passwordMinLength := 8
  hasPasskeys := true
  window_pos := by decide
  toLowerCase text := text
  verifyPassword password hash := password = hash

/-- A guess from a stolen session. -/
def guess : Request String where
  delay := 1000
  cfConnectingIp := some "203.0.113.7"
  xForwardedFor := none
  token := "stolen"
  body := .changePassword (some "letmein1") (some "mine-now")
  verify _ := ⟨true, some "usr_a", false⟩
  lookupByEmail _ := none
  getUser _ := some ⟨"usr_a", "a@dub.example", true⟩
  hashPassword password := password

def onePassword : State String where
  now := 0
  counters _ := none
  credentials _ := some "correct horse"

/-- Six wrong passwords in six seconds are all compared. -/
theorem not_guessesBounded :
    ¬GuessesBounded fiveFailures (run fiveFailures onePassword (List.replicate 6 guess)) := by
  intro holds
  exact absurd (holds.bounded "a@dub.example" 0 (by decide +kernel)) (by decide +kernel)
end DubEcosystem.PasswordGuesses
