import DubEcosystem.InterleavingConditions
import DubEcosystem.MailGatewayRepo
import DubEcosystem.PortPrograms

/-!
# mail-gateway: sends and scheduled sends

`sendMail` of `send.ts`, `withRetry` of `retry.ts` and the drain of
`scheduled-send.ts`, as programs of atomic statements.  A statement may fail before it
takes effect.  Publishing, auditing and the storage of attachments come after the last
write of a send, do not throw and touch neither table, so they are left out.
-/

namespace DubEcosystem.MailGateway

open Interleaving PortPrograms

/-- What is thrown; `code` is there for a `DubError`. -/
structure Thrown where
  code : Option String
  retryable : Bool := false

inductive Call where
  | fault
  | now
  | resolveThreadId (candidateIds : List String)
  | findSendByKey (idempotencyKey : String)
  | newSendLogId
  | insertSendClaim (claim : SendClaim)
  | buildReferences (inReplyTo : String) (threadId : Option String) (fallbackFrom : String)
  /-- `provider.send`; the key names the send that hands the message over. -/
  | providerSend (idempotencyKey : String) (outbound : OutboundMail)
  | markSendSent (id provider providerMessageId : String)
  | markSendFailed (id errorCode : String)
  | claimDueScheduled (now : Int) (limit : Nat)
  | loadScheduledAttachments (id : String)
  | releaseScheduledAttachments (id : String)
  | resolveFromAddress (inReplyTo ownerUserId : Option String)
  | markScheduledSent (id sentMessageId : String) (attempts : Nat)
  | markScheduledAttemptFailed (id errorCode : String) (attempts maxAttempts : Nat)
  | cancelScheduled (id : String) (scope : MailScope)
  | updateScheduled (id : String) (scope : MailScope) (patch : SchedulePatch)

abbrev Result : Call → Type
  | .now => Int
  | .resolveThreadId _ => Option String
  | .findSendByKey _ => Option SendLogRow
  | .newSendLogId => String
  | .insertSendClaim _ => Nat
  | .buildReferences _ _ _ => List String
  | .providerSend _ _ => String
  | .claimDueScheduled _ _ => List ScheduledRow
  | .loadScheduledAttachments _ => List MailAttachmentInput
  | .resolveFromAddress _ _ => String
  | .cancelScheduled _ _ => Nat
  | .updateScheduled _ _ _ => Nat
  | _ => Unit

abbrev mailPorts : Ports where
  Call := Call
  Result := Result

abbrev mailSignature : Signature := mailPorts.signature Thrown

abbrev Mail (α : Type) := Action mailPorts Thrown α

abbrev ask (request : Call) : Mail (Result request) :=
  port (P := mailPorts) request

/-- A statement of the database, which may fail before it takes effect. -/
def statement (request : Call) : Mail (Result request) := do
  ask .fault
  ask request

/-- What a send is given beside the request. -/
structure SendDeps where
  provider : String
  fromAddress : String
  ownerUserId : Option String
  archiveCc : Option String
  maxAttempts : Nat
  assembleMime : MimeInput → String

structure SendMailResponse where
  messageId : String
  provider : String
  acceptedAt : Int

inductive SendResultStatus where
  | sent
  | duplicate

structure SendResult where
  response : SendMailResponse
  status : SendResultStatus

def MAIL_PROVIDER_UNAVAILABLE : String := "MAIL_PROVIDER_UNAVAILABLE"

def MAIL_IDEMPOTENCY_CONFLICT : String := "MAIL_IDEMPOTENCY_CONFLICT"

def codeOf (err : Thrown) : String := err.code.getD MAIL_PROVIDER_UNAVAILABLE

def duplicateResponse (row : SendLogRow) (fromAddress : String) : SendMailResponse where
  messageId := rfcMessageId row.id fromAddress
  provider := row.provider.getD "ses"
  acceptedAt := row.createdAt

/-- Only a `DubError` can be flagged. -/
def isRetryable (err : Thrown) : Bool := err.code.isSome && err.retryable

/-- `withRetry`: an error that is flagged retryable is retried while attempts are left. -/
def retrying {α : Type} (fn : Mail α) : Nat → Mail α
  | 0 => fn
  | left + 1 => do
    match ← attempt fn with
    | .ok value => pure value
    | .error err => if isRetryable err then retrying fn left else throw err

def withRetry {α : Type} (fn : Mail α) (maxAttempts : Nat) : Mail α :=
  retrying fn (maxAttempts - 1)

/-- The message that is answered; an empty text is none. -/
def SendMailRequest.parent (req : SendMailRequest) : Option String :=
  req.inReplyTo.filter fun parent => parent ≠ ""

def resolveThread (req : SendMailRequest) : Mail (Option String) :=
  match req.parent with
  | none => pure none
  | some parent => do
    let root ← ask (.resolveThreadId [parent])
    pure (some (root.getD parent))

variable (deps : SendDeps)

def claimOf (req : SendMailRequest) (idempotencyKey requester : String)
    (threadId : Option String) (id : String) : SendClaim where
  id := id
  idempotencyKey := idempotencyKey
  reqHash := hashRequest req
  requester := requester
  toAddresses := req.toAddresses
  subject := req.subject
  threadId := threadId
  textBody := req.textBody
  htmlBody := req.htmlBody
  cc := req.cc.getD []
  bcc := req.bcc.filter fun bcc => bcc ≠ []
  fromAddress := deps.fromAddress
  ownerUserId := deps.ownerUserId

def outboundOf (rawReq req : SendMailRequest) (messageId : String)
    (references : List String) : OutboundMail :=
  let split := splitArchive rawReq req
  let attachments := req.attachments.getD []
  { fromAddress := deps.fromAddress
    toAddresses := req.toAddresses
    cc := split.1
    bcc := req.bcc.getD [] ++ split.2
    subject := req.subject
    textBody := req.textBody
    htmlBody := req.htmlBody
    messageId
    inReplyTo := req.inReplyTo
    references
    mime := deps.assembleMime
      { fromAddress := deps.fromAddress
        toAddresses := req.toAddresses
        cc := split.1
        subject := req.subject
        textBody := req.textBody
        htmlBody := req.htmlBody
        messageId
        inReplyTo := req.inReplyTo
        references
        loopHeaders := req.loopHeaders
        attachments }
    attachments }

/-- The `try` block: the message is handed over, and the row marked. -/
def handOver (idempotencyKey ownedId : String) (outbound : OutboundMail) :
    Mail SendResult := do
  let providerMessageId ←
    withRetry (ask (.providerSend idempotencyKey outbound)) deps.maxAttempts
  statement (.markSendSent ownedId deps.provider providerMessageId)
  let acceptedAt : Int ← ask .now
  pure ⟨⟨outbound.messageId, deps.provider, acceptedAt⟩, .sent⟩

def deliver (rawReq req : SendMailRequest) (idempotencyKey : String)
    (threadId : Option String) (ownedId : String) : Mail SendResult := do
  let references ← match req.parent with
    | none => pure []
    | some parent => ask (.buildReferences parent threadId deps.fromAddress)
  let outbound :=
    outboundOf deps rawReq req (rfcMessageId ownedId deps.fromAddress) references
  match ← attempt (handOver deps idempotencyKey ownedId outbound) with
  | .ok result => pure result
  | .error err => do
    statement (.markSendFailed ownedId (codeOf err))
    throw { err with code := some (codeOf err) }

def sendMail (rawReq : SendMailRequest) (idempotencyKey requester : String) :
    Mail SendResult := do
  let req := withArchiveCc rawReq deps.archiveCc
  let threadId ← resolveThread req
  let existing : Option SendLogRow ← statement (.findSendByKey idempotencyKey)
  match existing with
  | some existing =>
    if existing.reqHash ≠ hashRequest req then throw { code := some MAIL_IDEMPOTENCY_CONFLICT }
    else if existing.status = .sent ∨ existing.status = .pending then
      pure ⟨duplicateResponse existing deps.fromAddress, .duplicate⟩
    else deliver deps rawReq req idempotencyKey threadId existing.id
  | none => do
    let id : String ← ask .newSendLogId
    let claimed : Nat ←
      statement (.insertSendClaim (claimOf deps req idempotencyKey requester threadId id))
    if claimed = 0 then do
      let now : Option SendLogRow ← statement (.findSendByKey idempotencyKey)
      match now with
      | some now => pure ⟨duplicateResponse now deps.fromAddress, .duplicate⟩
      | none => throw { code := some MAIL_PROVIDER_UNAVAILABLE }
    else deliver deps rawReq req idempotencyKey threadId id

/-- What the drain takes from the environment of the worker. -/
structure Env where
  provider : String
  archiveCc : Option String
  maxAttempts : Nat
  assembleMime : MimeInput → String
  parked : String → List MailAttachmentInput

def SERVICE_NAME : String := "mail-gateway"

variable (env : Env)

def buildSendDeps (fromAddress : String) (ownerUserId : Option String) : SendDeps where
  provider := env.provider
  fromAddress := fromAddress
  ownerUserId := ownerUserId
  archiveCc := env.archiveCc
  maxAttempts := env.maxAttempts
  assembleMime := env.assembleMime

structure ScheduledDrainResult where
  claimed : Nat
  sent : Nat
  failed : Nat
  retried : Nat

/-- The `try` block of a pass, for one row. -/
def attemptRow (row : ScheduledRow) : Mail Unit := do
  let attachments : List MailAttachmentInput ← statement (.loadScheduledAttachments row.id)
  let fromAddress : String ← match row.fromAddress with
    | some address => pure address
    | none => ask (.resolveFromAddress row.inReplyTo row.ownerUserId)
  let result ← sendMail (buildSendDeps env fromAddress row.ownerUserId)
    (toSendRequest row attachments) (schedKey row.id) (row.ownerUserId.getD SERVICE_NAME)
  statement (.markScheduledSent row.id result.response.messageId (row.attempts + 1))
  if attachments = [] then pure () else ask (.releaseScheduledAttachments row.id)

/-- The rows that a pass has claimed, one after the other. -/
def drainRows (env : Env) : List ScheduledRow → ScheduledDrainResult → Mail ScheduledDrainResult
  | [], out => pure out
  | row :: rest, out => do
    match ← attempt (attemptRow env row) with
    | .ok _ => drainRows env rest { out with sent := out.sent + 1 }
    | .error err => do
      statement (.markScheduledAttemptFailed row.id (codeOf err) (row.attempts + 1)
        SCHEDULED_MAX_ATTEMPTS)
      if SCHEDULED_MAX_ATTEMPTS ≤ row.attempts + 1 then
        drainRows env rest { out with failed := out.failed + 1 }
      else drainRows env rest { out with retried := out.retried + 1 }

def runScheduledSendDrain (now : Int) : Mail ScheduledDrainResult := do
  let due : List ScheduledRow ← statement (.claimDueScheduled now SCHEDULED_DRAIN_BATCH)
  drainRows env due ⟨due.length, 0, 0, 0⟩

def cancel (id : String) (scope : MailScope) : Mail Unit := do
  let changed : Nat ← statement (.cancelScheduled id scope)
  if changed = 0 then pure () else ask (.releaseScheduledAttachments id)

def edit (id : String) (scope : MailScope) (patch : SchedulePatch) : Mail Unit := do
  let _ : Nat ← statement (.updateScheduled id scope patch)
  pure ()

def MAIL_ATTACHMENT_NOT_STORED : String := "MAIL_ATTACHMENT_NOT_STORED"

def executed {α : Type} (result : α) (world : World) : Option (Except Thrown α × World) :=
  some (.ok result, world)

def World.loadAnswer (world : World) (parked : String → List MailAttachmentInput)
    (id : String) : Except Thrown (List MailAttachmentInput) :=
  match world.loadScheduledAttachments parked id with
  | some files => .ok files
  | none => .error { code := some MAIL_ATTACHMENT_NOT_STORED }

/-- The gateway's database and provider.  Whether a message is accepted is up to the
provider; statements fail only where `faults` allows it. -/
def mailMachine (faults : Bool) : Machine mailSignature World where
  exec
    | .fault, world => if faults then none else executed () world
    | .now, world => executed world.clock world
    | .resolveThreadId ids, world => executed (world.around.threadRoot ids) world
    | .findSendByKey key, world => executed (world.findSendByKey key) world
    | .newSendLogId, world => executed world.around.drawnId world
    | .insertSendClaim claim, world =>
      executed (world.insertSendClaim claim).1 (world.insertSendClaim claim).2
    | .buildReferences parent threadId fallback, world =>
      executed (world.around.references parent threadId fallback) world
    | .providerSend _ _, _ => none
    | .markSendSent id provider messageId, world =>
      executed () (world.markSendSent id provider messageId)
    | .markSendFailed id code, world => executed () (world.markSendFailed id code)
    | .claimDueScheduled now limit, world =>
      let due := world.claimDueScheduled now limit
      executed due { world with claims := world.claims ++ due.map ScheduledRow.id }
    | .loadScheduledAttachments id, world =>
      some (world.loadAnswer env.parked id, world)
    | .releaseScheduledAttachments id, world =>
      executed () { world with released := id :: world.released }
    | .resolveFromAddress parent owner, world =>
      executed (world.around.fromAddress parent owner) world
    | .markScheduledSent id messageId attempts, world =>
      executed () (world.markScheduledSent id messageId attempts)
    | .markScheduledAttemptFailed id code attempts maxAttempts, world =>
      executed () (world.markScheduledAttemptFailed id code attempts maxAttempts)
    | .cancelScheduled id scope, world =>
      executed (world.cancelScheduled id scope).1 (world.cancelScheduled id scope).2
    | .updateScheduled id scope patch, world =>
      executed (world.updateScheduled id scope patch).1 (world.updateScheduled id scope patch).2
  observe
    | .providerSend key outbound, .ok _, world =>
      { world with accepted := (key, outbound) :: world.accepted }
    | _, _, world => world

/-- What runs in the gateway. -/
inductive Operation where
  | send (deps : SendDeps) (rawReq : SendMailRequest) (idempotencyKey requester : String)
  | drain (now : Int)
  | cancel (id : String) (scope : MailScope)
  | edit (id : String) (scope : MailScope) (patch : SchedulePatch)

def Operation.action : Operation → Mail Unit
  | .send deps rawReq key requester => do
    let _ ← sendMail deps rawReq key requester
    pure ()
  | .drain now => do
    let _ ← runScheduledSendDrain env now
    pure ()
  | .cancel id scope => MailGateway.cancel id scope
  | .edit id scope patch => MailGateway.edit id scope patch

/-- The clock goes forward, and the rest of the surroundings may change in any way. -/
def drifts (before after : World) : Prop :=
  ∃ clock around, before.clock ≤ clock ∧ after = { before with clock, around }

def gateway (faults : Bool) (startable : Operation → Prop) :
    System mailSignature World Operation where
  toMachine := mailMachine env faults
  program op := (op.action env).run >>= fun _ => pure ()
  startable _ op := startable op
  environment := drifts

end DubEcosystem.MailGateway
