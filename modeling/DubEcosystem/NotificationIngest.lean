import DubEcosystem.InterleavingConditions
import DubEcosystem.NotificationTypes
import DubEcosystem.PortPrograms

/-!
# notification: ingest and its deliveries

`ingest` of `ingest.ts` with the fan-out of `adapters.ts`, and what hands it events: the
queue consumer, `dispatchEvent` and `POST /notify`.  Statements of the database succeed;
the other services may fail, and everything may stop at any call.
-/

namespace DubEcosystem.Notification

open Interleaving PortPrograms

/-- A row of `notif_notifications`. -/
structure NotificationRow where
  id : Nat
  type : String
  title : String
  body : Option String
  priority : NotificationPriority
  audience : NotificationAudience
  dedupKey : Option String
  source : IngestSource
  sourceEvent : Option String
  actorId : Option String
  requestId : String
  resourceType : Option String
  resourceId : Option String

structure InboxRow where
  notificationId : Nat
  userId : String
  deriving DecidableEq

inductive DeliveryOutcome where
  | sent
  | failed
  | skipped
  deriving DecidableEq

structure DeliveryRow where
  notificationId : Nat
  userId : String
  channel : NotificationChannel
  status : DeliveryOutcome
  attempts : Nat
  lastError : Option String

structure World where
  /-- Ids are drawn in order; none is drawn twice. -/
  nextId : Nat
  notifications : List NotificationRow
  inbox : List InboxRow
  deliveries : List DeliveryRow
  processed : List String
  /-- Deliveries that were acknowledged. -/
  acknowledged : Nat

namespace World

variable (world : World)

def findByDedupKey (dedupKey : String) : Option Nat :=
  (world.notifications.find? fun row => row.dedupKey = some dedupKey).map NotificationRow.id

def notificationRow (input : IngestInput) : NotificationRow where
  id := world.nextId
  type := input.type
  title := input.title
  body := input.body
  priority := input.priority
  audience := input.audience.getD .members
  dedupKey := input.dedupKey
  source := input.source
  sourceEvent := input.sourceEvent
  actorId := input.actorId
  requestId := input.requestId
  resourceType := input.resourceType
  resourceId := input.resourceId

def insertNotification (input : IngestInput) : Except String Nat × World :=
  if input.title.length < 1 ∨ 200 < input.title.length then
    (.error "CHECK constraint failed", world)
  else if input.dedupKey.isSome ∧
      world.notifications.any (fun row => row.dedupKey = input.dedupKey) then
    (.error "UNIQUE constraint failed", world)
  else
    (.ok world.nextId,
      { world with
        nextId := world.nextId + 1
        notifications := world.notifications ++ [world.notificationRow input] })

/-- `INSERT OR IGNORE`. -/
def insertInbox (notificationId : Nat) (userId : String) : World :=
  if ⟨notificationId, userId⟩ ∈ world.inbox then world
  else { world with inbox := world.inbox ++ [⟨notificationId, userId⟩] }

/-- The delivery of one notification to one user over one channel is updated, or inserted
when there is none. -/
def recordDelivery (delivery : DeliveryRow) : World :=
  let same := fun row : DeliveryRow => row.notificationId = delivery.notificationId ∧
    row.userId = delivery.userId ∧ row.channel = delivery.channel
  { world with
    deliveries :=
      if world.deliveries.any fun row => same row then
        world.deliveries.map fun row => if same row then delivery else row
      else world.deliveries ++ [delivery] }

def markProcessed (eventId : String) : World :=
  if eventId ∈ world.processed then world
  else { world with processed := world.processed ++ [eventId] }

end World

structure DeliveryJob where
  notificationId : Nat
  userId : String
  channel : NotificationChannel
  type : String
  title : String
  body : Option String
  priority : NotificationPriority
  resourceType : Option String
  resourceId : Option String
  requestId : String

structure DeliveryResult where
  status : DeliveryOutcome
  detail : Option String

inductive Call where
  | wasProcessed (eventId : String)
  | findByDedupKey (dedupKey : String)
  /-- Another service is asked to expand the recipients, and may fail. -/
  | expand
  | resolve (recipients : NotifyRecipients)
  | insertNotification (input : IngestInput)
  | listPreferenceOverrides (userId : String)
  | insertInbox (job : DeliveryJob)
  /-- The adapter of another channel delivers. -/
  | deliver (job : DeliveryJob)
  | recordDelivery (delivery : DeliveryRow)
  | publishAudit (job : DeliveryJob) (attempts : Nat) (lastError : Option String)
  | pushInboxChanged (userId : String)
  | markProcessed (eventId : String)
  /-- The delivery is acknowledged: `message.ack()`, or a 202. -/
  | ack
  | retry

abbrev Result : Call → Type
  | .wasProcessed _ => Bool
  | .findByDedupKey _ => Option Nat
  | .resolve _ => List String
  | .insertNotification _ => Nat
  | .listPreferenceOverrides _ => List PreferenceRow
  | .deliver _ => DeliveryResult
  | _ => Unit

abbrev notificationPorts : Ports where
  Call := Call
  Result := Result

abbrev notificationSignature : Signature := notificationPorts.signature String

abbrev Notify (α : Type) := Action notificationPorts String α

abbrev ask (request : Call) : Notify (Result request) :=
  port (P := notificationPorts) request

def MAX_DELIVERY_ATTEMPTS : Nat := 3

variable (job : DeliveryJob)

def adapterDeliver : Notify DeliveryResult :=
  match job.channel with
  | .inApp => do
    ask (.insertInbox job)
    pure ⟨.sent, none⟩
  | _ => ask (.deliver job)

def record (status : DeliveryOutcome) (attempts : Nat) (lastError : Option String) : Notify Unit :=
  ask (.recordDelivery ⟨job.notificationId, job.userId, job.channel, status, attempts, lastError⟩)

def attemptDelivery (attempts : Nat) : Notify DeliveryResult := do
  let result ← adapterDeliver job
  if result.status = .skipped then do
    record job .skipped 0 result.detail
    pure result
  else do
    record job .sent attempts none
    pure result

def deliverAttempts (job : DeliveryJob) : Nat → Nat → Option String → Notify DeliveryResult
  | attempts, 0, lastError => do
    record job .failed attempts lastError
    let _ ← attempt (ask (.publishAudit job attempts lastError))
    pure ⟨.failed, lastError⟩
  | attempts, left + 1, _ => do
    match ← attempt (attemptDelivery job (attempts + 1)) with
    | .ok result => pure result
    | .error err => deliverAttempts job (attempts + 1) left (some err)

def runDelivery : Notify DeliveryResult :=
  deliverAttempts job 0 MAX_DELIVERY_ATTEMPTS none

variable (input : IngestInput)

def jobOf (notificationId : Nat) (userId : String)
    (channel : NotificationChannel) : DeliveryJob where
  notificationId := notificationId
  userId := userId
  channel := channel
  type := input.type
  title := input.title
  body := input.body
  priority := input.priority
  resourceType := input.resourceType
  resourceId := input.resourceId
  requestId := input.requestId

def fanOutChannel (notificationId : Nat) (userId : String)
    (overrides : List PreferenceRow) (channel : NotificationChannel) : Notify Unit := do
  let job := jobOf input notificationId userId channel
  if channelEnabled input overrides channel then do
    let _ ← runDelivery job
    pure ()
  else record job .skipped 0 (some "preference_off")

def fanOutChannels (input : IngestInput) (notificationId : Nat) (userId : String)
    (overrides : List PreferenceRow) : List NotificationChannel → Notify Unit
  | [] => pure ()
  | channel :: rest => do
    fanOutChannel input notificationId userId overrides channel
    fanOutChannels input notificationId userId overrides rest

/-- The users are served one after the other; the result are those whose inbox was. -/
def fanOut (input : IngestInput) (notificationId : Nat) : List String → Notify (List String)
  | [] => pure []
  | userId :: rest => do
    let overrides : List PreferenceRow ← ask (.listPreferenceOverrides userId)
    fanOutChannels input notificationId userId overrides (candidateChannels input)
    let inAppDelivered ← fanOut input notificationId rest
    if .inApp ∈ candidateChannels input ∧ channelEnabled input overrides .inApp then
      pure (userId :: inAppDelivered)
    else pure inAppDelivered

/-- Whose live clients are told, after the rows are there. -/
def pushChanged : List String → Notify Unit
  | [] => pure ()
  | userId :: rest => do
    ask (.pushInboxChanged userId)
    pushChanged rest

structure IngestResult where
  notificationId : Nat
  deduplicated : Bool

def persist : Notify IngestResult := do
  ask .expand
  let userIds : List String ← ask (.resolve input.recipients)
  let notificationId : Nat ← ask (.insertNotification input)
  let inAppDelivered ← fanOut input notificationId userIds
  pushChanged inAppDelivered
  pure ⟨notificationId, false⟩

def ingest : Notify IngestResult :=
  match input.dedupKey.filter fun dedupKey => dedupKey ≠ "" with
  | none => persist input
  | some dedupKey => do
    let existing : Option Nat ← ask (.findByDedupKey dedupKey)
    match existing with
    | some existing => pure ⟨existing, true⟩
    | none => persist input

def ingestAll : List IngestInput → Notify Unit
  | [] => pure ()
  | input :: rest => do
    let _ ← ingest input
    ingestAll rest

/-- The body of the queue consumer for one message; without a handler the event is not
marked. -/
def consumeMessage (env : DubEventEnvelope) : Notify Unit := do
  let processed : Bool ← ask (.wasProcessed env.id)
  if processed then ask .ack
  else
    match handlerInputs env with
    | none => ask .ack
    | some inputs => do
      ingestAll inputs
      ask (.markProcessed env.id)
      ask .ack

/-- `consumeEventQueue`: a message whose handler throws is retried later. -/
def consumeEventQueue : List DubEventEnvelope → Notify Unit
  | [] => pure ()
  | env :: rest => do
    match ← attempt (consumeMessage env) with
    | .ok _ => consumeEventQueue rest
    | .error _ => do
      ask .retry
      consumeEventQueue rest

def dispatchEvent (env : DubEventEnvelope) : Notify Unit := do
  let processed : Bool ← ask (.wasProcessed env.id)
  if processed then pure ()
  else do
    ingestAll ((handlerInputs env).getD [])
    ask (.markProcessed env.id)

/-- How a notification comes in. -/
inductive Operation where
  | consume (messages : List DubEventEnvelope)
  | dispatch (env : DubEventEnvelope)
  | notify (input : IngestInput)

def Operation.action : Operation → Notify Unit
  | .consume messages => consumeEventQueue messages
  | .dispatch env => do
    dispatchEvent env
    ask .ack
  | .notify input => do
    let _ ← ingest input
    ask .ack

def executed {α : Type} (result : α) (world : World) : Option (Except String α × World) :=
  some (.ok result, world)

/-- The notification database; the other services answer as they like. -/
def notificationMachine (directory : Directory) : Machine notificationSignature World where
  exec
    | .wasProcessed eventId, world => executed (decide (eventId ∈ world.processed)) world
    | .findByDedupKey dedupKey, world => executed (world.findByDedupKey dedupKey) world
    | .expand, _ => none
    | .resolve recipients, world => executed (directory.resolve recipients) world
    | .insertNotification input, world => some (world.insertNotification input)
    | .listPreferenceOverrides userId, world =>
      executed (directory.listPreferenceOverrides userId) world
    | .insertInbox job, world =>
      executed () (world.insertInbox job.notificationId job.userId)
    | .deliver _, _ => none
    | .recordDelivery delivery, world => executed () (world.recordDelivery delivery)
    | .publishAudit _ _ _, _ => none
    | .pushInboxChanged _, world => executed () world
    | .markProcessed eventId, world => executed () (world.markProcessed eventId)
    | .ack, world => executed () { world with acknowledged := world.acknowledged + 1 }
    | .retry, world => executed () world
  observe _ _ world := world

/-- What is delivered, as often as it takes: an event, or a request to notify. -/
inductive Request where
  | event (env : DubEventEnvelope)
  | notify (input : IngestInput)

def Request.inputs : Request → List IngestInput
  | .event env => (handlerInputs env).getD []
  | .notify input => [input]

def Request.eventId : Request → Option String
  | .event env => some env.id
  | .notify _ => none

def Request.delivers : Request → Operation → Prop
  | .event env, .consume messages => ∀ message ∈ messages, message = env
  | .event env, .dispatch delivered => delivered = env
  | .notify input, .notify delivered => delivered = input
  | _, _ => False

def deliveries (directory : Directory) (subject : Request) :
    System notificationSignature World Operation where
  toMachine := notificationMachine directory
  program op := op.action.run >>= fun _ => pure ()
  startable _ op := subject.delivers op
  environment before after := before = after

end DubEcosystem.Notification
