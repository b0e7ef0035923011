import DubEcosystem.HttpClient

/-!
# packages/http: what is retried

An attempt asks for another one as it should when its request throws or is answered with a
status that the policy retries.  The errors that the client itself throws over an answer are
caught by the same `catch`, where the policy may take them for errors of the transport.
-/

namespace DubEcosystem.HttpClient

open Commander (Json)
open RetryLoops

section Claim

variable (parseJson : String → Option Json) (client : ServiceClientOptions) (method : Method)
  (options : CallOptions)

def Outcome.Retryable : Outcome → Prop
  | .thrown _ => True
  | .response answer => (effPolicy client options).retryOn ⟨some answer.status, none⟩ = true

/-- A call sends no more requests than it may, and retries only what is retryable. -/
structure RetriesSafely (outcomes : Nat → Outcome) : Prop where
  single : (method = .post ∨ method = .patch) → options.idempotencyKey = none →
    options.retry = .absent → (call parseJson client method options outcomes).sent.length = 1
  bounded : (call parseJson client method options outcomes).sent.length ≤
    maxAttempts client method options
  retried : ∀ index outcome,
    index + 1 < (call parseJson client method options outcomes).sent.length →
      (call parseJson client method options outcomes).sent[index]? = some outcome →
        outcome.Retryable client options
  ends : ∀ index answer,
    (call parseJson client method options outcomes).sent[index]? = some (.response answer) →
      answer.ok = true → index + 1 = (call parseJson client method options outcomes).sent.length
  restored : ∀ answer envelope,
    (call parseJson client method options outcomes).sent.getLast? = some (.response answer) →
      answer.ok = false → answer.envelope parseJson = some envelope →
        ∃ error, (call parseJson client method options outcomes).result = .error (.dub error) ∧
          error.code = envelope.code ∧ error.status = answer.status

/-- An error that `catch` may retry. -/
def Thrown.IsCaught (error : Thrown) : Prop :=
  (∀ plain, error ≠ .dub plain) ∧ (effPolicy client options).retryOn ⟨none, error.given⟩ = true

def Outcome.AsksAgain : Outcome → Prop
  | .thrown error => error.IsCaught client options
  | .response answer =>
    answer.ok = false ∧ (effPolicy client options).retryOn ⟨some answer.status, none⟩ = true

/-- An answer that is not to be retried, over which the client throws an error that it
retries: the body of a success is no JSON, or a failure that is not retried is no error
response. -/
def Outcome.IsMistaken (attempt : Nat) : Outcome → Prop
  | .thrown _ => False
  | .response answer =>
    (answer.ok = true ∧ ∃ error, answer.value parseJson = .error error ∧
      error.IsCaught client options) ∨
    (answer.ok = false ∧ (effPolicy client options).retryOn ⟨some answer.status, none⟩ = false ∧
      answer.envelope parseJson = none ∧
      (Thrown.http (dubHttpUnavailableError client.service attempt)).IsCaught client options)

/-- If attempts are left, the first outcome that does not ask for another attempt as it should
is not mistaken. -/
def NeverMistaken (outcomes : Nat → Outcome) : Prop :=
  retryEnabled method options = true → ∀ index, index + 1 < maxAttempts client method options →
      (∀ earlier < index, (outcomes earlier).AsksAgain client options) →
        ¬ (outcomes index).IsMistaken parseJson client options (index + 1)

end Claim

variable {parseJson : String → Option Json} {client : ServiceClientOptions} {method : Method}
  {options : CallOptions} {outcomes : Nat → Outcome}

variable (attempt : Nat)

theorem mayRetry_iff (attempted : Attempted) :
    mayRetry client method options attempt attempted = true ↔
      retryEnabled method options = true ∧ attempt < maxAttempts client method options ∧
        (effPolicy client options).retryOn attempted = true := by
  simp [mayRetry, and_assoc]

theorem caught_eq_none_iff (error : Thrown) : caught client method options attempt error = none ↔
      retryEnabled method options = true ∧ attempt < maxAttempts client method options ∧
        error.IsCaught client options := by
  have settles : ∀ given : Option Thrown, ∀ otherwise : Except Thrown (Option Json),
      (if mayRetry client method options attempt ⟨none, given⟩ = true then none
        else some otherwise) = none ↔
        retryEnabled method options = true ∧ attempt < maxAttempts client method options ∧
          (effPolicy client options).retryOn ⟨none, given⟩ = true := by
    intro given otherwise
    rw [← mayRetry_iff]
    simp
  cases error with
  | dub plain => simp [caught, Thrown.IsCaught]
  | http error | value value => simpa [caught, Thrown.IsCaught] using settles _ (.ok none)
  | native name =>
    by_cases aborted : name = "AbortError"
    · subst aborted
      simpa [caught, Thrown.IsCaught] using settles _ (.ok none)
    · simpa [caught, Thrown.IsCaught, aborted] using settles _ (.ok none)

theorem terminal_eq_none_iff (answer : Response) :
    terminal parseJson client method options attempt answer = none ↔
      retryEnabled method options = true ∧ attempt < maxAttempts client method options ∧
        answer.envelope parseJson = none ∧
          (Thrown.http (dubHttpUnavailableError client.service attempt)).IsCaught client
            options := by
  cases envelope : answer.envelope parseJson with
  | some envelope => simp [terminal, envelope, caught]
  | none => simpa [terminal, envelope] using caught_eq_none_iff attempt _

theorem settle_eq_none_iff (outcome : Outcome) :
    settle parseJson client method options attempt outcome = none ↔
      retryEnabled method options = true ∧ attempt < maxAttempts client method options ∧
        (outcome.AsksAgain client options ∨
          outcome.IsMistaken parseJson client options attempt) := by
  cases outcome with
  | thrown error =>
    simpa [settle, Outcome.AsksAgain, Outcome.IsMistaken] using caught_eq_none_iff attempt error
  | response answer =>
    cases isOk : answer.ok with
    | true =>
      cases value : answer.value parseJson with
      | ok value => simp [settle, Outcome.AsksAgain, Outcome.IsMistaken, isOk, value]
      | error error =>
        simpa [settle, Outcome.AsksAgain, Outcome.IsMistaken, isOk, value] using
          caught_eq_none_iff attempt error
    | false =>
      simp only [settle, isOk, Bool.false_eq_true, if_false, Outcome.AsksAgain,
        Outcome.IsMistaken, false_and, false_or, true_and]
      by_cases retried : (effPolicy client options).retryOn ⟨some answer.status, none⟩ = true
      · by_cases enough : mayRetry client method options attempt ⟨some answer.status, none⟩ = true
        · rw [mayRetry_iff] at enough
          simp [mayRetry_iff, enough]
        · rw [if_neg enough, terminal_eq_none_iff]
          rw [mayRetry_iff] at enough
          tauto
      · have noRetry : ¬ mayRetry client method options attempt
            ⟨some answer.status, none⟩ = true := by
          rw [mayRetry_iff]
          tauto
        rw [if_neg noRetry, terminal_eq_none_iff]
        simp [retried]

/-- A call without a mistake makes another attempt only over outcomes that ask for it. -/
theorem asksAgain_of_neverMistaken
    (never : NeverMistaken parseJson client method options outcomes) {index : Nat}
    (notLast : index + 1 < (call parseJson client method options outcomes).sent.length) :
    (outcomes index).AsksAgain client options := by
  induction index using Nat.strong_induction_on with
  | h index ih =>
    have again := RetryLoops.again_of_lt notLast
    rw [Nat.zero_add, settle_eq_none_iff] at again
    obtain ⟨enabled, more, asks | mistaken⟩ := again
    · exact asks
    · have earlier : ∀ earlier < index, (outcomes earlier).AsksAgain client options :=
        fun earlier lt => ih earlier lt (by omega)
      exact absurd mistaken (never enabled index more earlier)

theorem outcome_of_sent {index : Nat} {outcome : Outcome}
    (sent : (call parseJson client method options outcomes).sent[index]? = some outcome) :
    outcome = outcomes index := by
  have seen := RetryLoops.getElem?_run sent
  rwa [Nat.zero_add] at seen

theorem length_sent_of_not_retryEnabled (once : retryEnabled method options = false) :
    (call parseJson client method options outcomes).sent.length = 1 := by
  have one : maxAttempts client method options = 1 := by simp [maxAttempts, once]
  simp only [call, one]
  cases settles : settle parseJson client method options 1 (outcomes 0) with
  | some result => rw [RetryLoops.run_of_settle settles]; rfl
  | none => rw [RetryLoops.run_of_again settles]; rfl

theorem result_of_envelope {answer : Response} {envelope : ErrorResponse}
    (isLast : (call parseJson client method options outcomes).sent.getLast? =
      some (.response answer))
    (failed : answer.ok = false) (isEnvelope : answer.envelope parseJson = some envelope) :
    (call parseJson client method options outcomes).result =
      .error (.dub (fromResponse answer.status envelope)) := by
  have lastIndex := isLast
  rw [List.getLast?_eq_getElem?] at lastIndex
  have inRange := (List.getElem?_eq_some_iff.mp lastIndex).1
  obtain ⟨index, isIndex⟩ : ∃ index,
      index + 1 = (call parseJson client method options outcomes).sent.length :=
    ⟨_, Nat.succ_pred_eq_of_pos (by omega)⟩
  have isAnswer : Outcome.response answer = outcomes index := by
    rw [← isIndex, Nat.add_sub_cancel] at lastIndex
    exact outcome_of_sent lastIndex
  have settles : settle parseJson client method options (index + 1) (outcomes index) =
      some (.error (.dub (fromResponse answer.status envelope))) := by
    have isTerminal : terminal parseJson client method options (index + 1) answer =
        some (.error (.dub (fromResponse answer.status envelope))) := by
      simp [terminal, isEnvelope, caught]
    by_cases retried : mayRetry client method options (index + 1) ⟨some answer.status, none⟩ = true
    · have more := (mayRetry_iff _ _).mp retried
      have again : ∀ earlier ≤ index,
          settle parseJson client method options (0 + earlier + 1) (outcomes (0 + earlier)) =
            none := by
        intro earlier earlierLe
        rcases Nat.lt_or_eq_of_le earlierLe with lt | rfl
        · apply RetryLoops.again_of_lt
          change earlier + 1 < (call parseJson client method options outcomes).sent.length
          omega
        · rw [Nat.zero_add, ← isAnswer]
          simp [settle, failed, retried]
      have follows := RetryLoops.lt_of_again more.2.1 again
      change index + 1 < (call parseJson client method options outcomes).sent.length at follows
      omega
    · rw [← isAnswer]
      simp [settle, failed, retried, isTerminal]
  have settled := RetryLoops.settled_of_last isIndex (by simpa using settles)
  simp [call, settled]

theorem retriesSafely_of_neverMistaken
    (never : NeverMistaken parseJson client method options outcomes) :
    RetriesSafely parseJson client method options outcomes where
  single := by
    intro posts noKey absent
    apply length_sent_of_not_retryEnabled
    rcases posts with rfl | rfl <;> simp [retryEnabled, absent, noKey, Method.isIdempotent]
  bounded := RetryLoops.length_run_le _ _
  retried := by
    intro index outcome notLast sent
    have asks := asksAgain_of_neverMistaken never notLast
    rw [← outcome_of_sent sent] at asks
    cases outcome with
    | thrown => trivial
    | response => exact asks.2
  ends := by
    intro index answer sent isOk
    have inRange : index < (call parseJson client method options outcomes).sent.length :=
      (List.getElem?_eq_some_iff.mp sent).1
    by_contra notLast
    have asks := @asksAgain_of_neverMistaken _ _ _ _ _ never index (by omega)
    rw [← outcome_of_sent sent] at asks
    exact absurd isOk (by simp [asks.1])
  restored := by
    intro answer envelope isLast failed isEnvelope
    exact ⟨_, result_of_envelope isLast failed isEnvelope, rfl, rfl⟩

/-- The first mistake makes a call send another request. -/
theorem neverMistaken_of_retriesSafely
    (safely : RetriesSafely parseJson client method options outcomes) :
    NeverMistaken parseJson client method options outcomes := by
  intro enabled index more asks mistaken
  have again : ∀ earlier ≤ index,
      settle parseJson client method options (0 + earlier + 1) (outcomes (0 + earlier)) = none := by
    intro earlier earlierLe
    rw [Nat.zero_add, settle_eq_none_iff]
    rcases Nat.lt_or_eq_of_le earlierLe with lt | rfl
    · exact ⟨enabled, by omega, .inl (asks earlier lt)⟩
    · exact ⟨enabled, more, .inr mistaken⟩
  have follows : index + 1 < (call parseJson client method options outcomes).sent.length :=
    RetryLoops.lt_of_again more again
  obtain ⟨outcome, sent⟩ : ∃ outcome,
      (call parseJson client method options outcomes).sent[index]? = some outcome :=
    ⟨_, List.getElem?_eq_getElem (by omega)⟩
  rw [← outcome_of_sent sent] at mistaken
  cases outcome with
  | thrown => exact mistaken
  | response answer =>
    rcases mistaken with ⟨isOk, -⟩ | ⟨-, notRetried, -⟩
    · have isLast := safely.ends index answer sent isOk
      omega
    · have retried : (effPolicy client options).retryOn ⟨some answer.status, none⟩ = true :=
        safely.retried index _ follows sent
      rw [retried] at notRetried
      cases notRetried

/-- A call retries only what is safe exactly when the client never takes an error of its own
over an answer for one that it retries. -/
theorem retriesSafely_iff (parseJson : String → Option Json) (client : ServiceClientOptions)
    (method : Method) (options : CallOptions) (outcomes : Nat → Outcome) :
    RetriesSafely parseJson client method options outcomes ↔
      NeverMistaken parseJson client method options outcomes :=
  ⟨neverMistaken_of_retriesSafely, retriesSafely_of_neverMistaken⟩

/-- A success whose body is no JSON text. -/
def unreadableSuccess : Nat → Outcome :=
  fun _ => .response ⟨200, .ok "<html>"⟩

/-- A `GET` whose answer is a success is sent again when its body is no JSON. -/
theorem not_retriesSafely :
    ¬ RetriesSafely (fun _ => none) ⟨"task-service", none⟩ .get ⟨none, .absent⟩
      unreadableSuccess := by
  intro safely
  have isLast := safely.ends 0 ⟨200, .ok "<html>"⟩ rfl rfl
  exact absurd isLast (by decide)

end DubEcosystem.HttpClient
