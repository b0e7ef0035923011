import DubEcosystem.CommanderUrls
import DubEcosystem.RetryLoops

/-!
# packages/http: the service client

`call` of `client.ts` with the errors of `@dub/errors` that it restores.  The binding answers
each request with a response or throws; the hooks are told and not asked, and what a call
sleeps between two attempts does not matter here.  `JSON.parse` is a parameter.
-/

namespace DubEcosystem.HttpClient

open Commander (Json)

structure DubError where
  code : String
  message : String
  status : Nat
  details : Option Json
  retryable : Bool
  service : Option Json

structure DubHttpError extends DubError where
  callee : String
  upstreamCode : Option String
  attempts : Nat

/-- What may be thrown: an error of the client's own classes, another `Error` by its name, or
another value. -/
inductive Thrown where
  | dub (error : DubError)
  | http (error : DubHttpError)
  | native (name : String)
  | value (value : Option Json)

/-- `error !== undefined`. -/
def Thrown.given : Thrown → Option Thrown
  | value none => none
  | error => some error

def retryableByDefault : List String :=
  ["UPSTREAM_UNAVAILABLE", "UPSTREAM_TIMEOUT", "RATE_LIMITED"]

def dubHttpError (code message callee : String) (attempts status : Nat)
    (upstreamCode : Option String) : DubHttpError where
  code := code
  message := message
  status := status
  details := none
  retryable := true
  service := some (.str callee)
  callee := callee
  upstreamCode := upstreamCode
  attempts := attempts

def dubHttpTimeoutError (callee : String) (attempts : Nat) : DubHttpError :=
  dubHttpError "UPSTREAM_TIMEOUT" ("Upstream timeout: " ++ callee) callee attempts 504 none

def dubHttpUnavailableError (callee : String) (attempts : Nat) : DubHttpError :=
  dubHttpError "UPSTREAM_UNAVAILABLE" ("Upstream unavailable: " ++ callee) callee attempts 502 none

/-- What `isErrorResponse` makes sure of, and what comes with it. -/
structure ErrorResponse where
  code : String
  message : String
  retryable : Bool
  details : Option Json
  service : Option Json

def errorResponse? (body : Json) : Option ErrorResponse :=
  (body.field "error").bind fun error =>
    match error.field "code", error.field "message", error.field "retryable" with
    | some (.str code), some (.str message), some (.bool retryable) =>
      some ⟨code, message, retryable, error.field "details", error.field "service"⟩
    | _, _, _ => none

/-- `fromResponse` of a body that is an error response. -/
def fromResponse (status : Nat) (body : ErrorResponse) : DubError where
  code := body.code
  message := body.message
  status := status
  details := body.details
  retryable := body.retryable
  service := body.service

def rateLimitedError : DubError where
  code := "RATE_LIMITED"
  message := "Rate limited (retries exhausted)"
  status := 429
  details := some (.obj [("retryAfterSec", .num 1)])
  retryable := retryableByDefault.contains "RATE_LIMITED"
  service := none

section Options

/-- What `retryOn` is asked about: a status or an error. -/
structure Attempted where
  status : Option Nat
  error : Option Thrown

structure RetryPolicy where
  maxAttempts : Nat
  retryOn : Attempted → Bool

structure PartialRetryPolicy where
  maxAttempts : Option Nat
  retryOn : Option (Attempted → Bool)

def defaultRetryStatuses : List Nat :=
  [429, 500, 502, 503, 504]

def defaultRetry : RetryPolicy where
  maxAttempts := 3
  retryOn attempted := attempted.error.isSome || attempted.status.any defaultRetryStatuses.contains

/-- `{ ...policy, ...changes }`. -/
def RetryPolicy.with (policy : RetryPolicy) (changes : PartialRetryPolicy) : RetryPolicy where
  maxAttempts := changes.maxAttempts.getD policy.maxAttempts
  retryOn := changes.retryOn.getD policy.retryOn

structure ServiceClientOptions where
  service : String
  retry : Option PartialRetryPolicy

inductive RetryOption where
  | absent
  | disabled
  | policy (changes : PartialRetryPolicy)

structure CallOptions where
  idempotencyKey : Option String
  retry : RetryOption

inductive Method where
  | get
  | post
  | patch
  | delete
  deriving DecidableEq

/-- `IDEMPOTENT_METHODS`. -/
def Method.isIdempotent : Method → Bool
  | get => true
  | delete => true
  | _ => false

variable (client : ServiceClientOptions) (method : Method) (options : CallOptions)

def retryEnabled : Bool :=
  match options.retry with
  | .disabled => false
  | .policy _ => true
  | .absent => method.isIdempotent || options.idempotencyKey.isSome

def effPolicy : RetryPolicy :=
  let policy := (client.retry.map defaultRetry.with).getD defaultRetry
  match options.retry with
  | .policy changes => policy.with changes
  | _ => policy

def maxAttempts : Nat :=
  if retryEnabled method options then (effPolicy client options).maxAttempts else 1

end Options

section Calls

structure Response where
  status : Nat
  body : Except Thrown String

def Response.ok (response : Response) : Bool :=
  200 ≤ response.status && response.status ≤ 299

/-- What comes of one request. -/
inductive Outcome where
  | response (response : Response)
  | thrown (error : Thrown)

variable (parseJson : String → Option Json)

/-- The value of a successful response; `none` is `undefined`. -/
def Response.value (response : Response) : Except Thrown (Option Json) :=
  if response.status = 204 then .ok none
  else
    match response.body with
    | .error error => .error error
    | .ok text =>
      if text = "" then .ok none
      else
        match parseJson text with
        | some value => .ok (some value)
        | none => .error (.native "SyntaxError")

/-- `safeJson`, where `null` is `none`. -/
def safeJson (response : Response) : Option Json :=
  match response.body with
  | .error _ => none
  | .ok text => if text = "" then none else parseJson text

def Response.envelope (response : Response) : Option ErrorResponse :=
  (safeJson parseJson response).bind errorResponse?

variable (client : ServiceClientOptions) (method : Method) (options : CallOptions)

variable (attempt : Nat)

def mayRetry (attempted : Attempted) : Bool :=
  retryEnabled method options && decide (attempt < maxAttempts client method options) &&
    (effPolicy client options).retryOn attempted

/-- The `catch` of one attempt; `none` continues the loop. -/
def caught (error : Thrown) : Option (Except Thrown (Option Json)) :=
  match error with
  | .dub error => some (.error (.dub error))
  | error =>
    if mayRetry client method options attempt ⟨none, error.given⟩ then none
    else
      match error with
      | .http error => some (.error (.http error))
      | .native "AbortError" =>
        some (.error (.http (dubHttpTimeoutError client.service attempt)))
      | _ => some (.error (.http (dubHttpUnavailableError client.service attempt)))

/-- A failure that is not retried is restored or normalized. -/
def terminal (response : Response) : Option (Except Thrown (Option Json)) :=
  match response.envelope parseJson with
  | some envelope =>
    caught client method options attempt (.dub (fromResponse response.status envelope))
  | none =>
    caught client method options attempt (.http (dubHttpUnavailableError client.service attempt))

/-- What one attempt settles; `none` continues the loop. -/
def settle : Outcome → Option (Except Thrown (Option Json))
  | .thrown error => caught client method options attempt error
  | .response response =>
    if response.ok then
      match response.value parseJson with
      | .ok value => some (.ok value)
      | .error error => caught client method options attempt error
    else if mayRetry client method options attempt ⟨some response.status, none⟩ then none
    else terminal parseJson client method options attempt response

/-- The outcomes of the requests that were sent, and what the caller gets. -/
structure Called where
  sent : List Outcome
  result : Except Thrown (Option Json)

def Outcome.status? : Outcome → Option Nat
  | .response answer => some answer.status
  | .thrown _ => none

def lastStatus (sent : List Outcome) : Option Nat :=
  sent.reverse.findSome? Outcome.status?

def call (outcomes : Nat → Outcome) : Called :=
  let history := RetryLoops.run (settle parseJson client method options) outcomes
    (maxAttempts client method options) 0
  let exhausted :=
    if lastStatus history.seen = some 429 then Thrown.dub rateLimitedError
    else .http (dubHttpUnavailableError client.service history.seen.length)
  ⟨history.seen, history.settled.getD (.error exhausted)⟩

end Calls

end DubEcosystem.HttpClient
