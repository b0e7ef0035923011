import DubEcosystem.InterleavingSchedule
import DubEcosystem.KeyedTable
import DubEcosystem.PortPrograms

/-!
# webhook-ingest: deliveries and their retention

`ingest.ts`, the statements of `repo.ts` that it uses, and `cleanup.ts`.  A request to D1, R2 or
the queue may fail, before or after it was carried out, and a call may die between two of them.
-/

namespace DubEcosystem.WebhookIngest

open Interleaving PortPrograms

inductive WebhookSource where
  | github
  | google_drive
  | gmail
  | stripe
  deriving DecidableEq

def WebhookSource.text : WebhookSource → String
  | .github => "github"
  | .google_drive => "google-drive"
  | .gmail => "gmail"
  | .stripe => "stripe"

abbrev Body :=
  List UInt8

structure VerifiedRequest where
  source : WebhookSource
  externalId : String
  eventKind : String
  rawBytes : Body
  headers : List (String × String)
  requestId : String
  deriving DecidableEq

inductive WebhookDeliveryStatus where
  | received
  | processed
  | failed
  deriving DecidableEq

structure DeliveryRecord where
  id : String
  source : WebhookSource
  externalId : String
  eventKind : String
  status : WebhookDeliveryStatus
  queue : String
  r2Key : Option String
  bodySize : Nat
  receivedAt : String
  processedAt : Option String
  requestId : String

/-- `payload` is its JSON text. -/
structure WebhookEnvelope where
  id : String
  source : WebhookSource
  externalId : String
  eventKind : String
  receivedAt : String
  requestId : String
  headers : List (String × String)
  payload : Option String
  r2Key : Option String

structure WebhookIngestAck where
  deliveryId : String
  accepted : Bool
  deriving DecidableEq

structure DubError where
  code : String
  message : String
  status : Nat
  deriving DecidableEq

inductive Thrown where
  | dub (error : DubError)
  | other (message : String)
  deriving DecidableEq

structure Answered where
  req : VerifiedRequest
  id : String
  receivedAt : String
  outcome : Except Thrown WebhookIngestAck
  deriving DecidableEq

/-- `toISOString`, `JSON.parse`, and the queues that are bound. -/
structure IngestDeps where
  toISOString : Int → String
  parseBody : Body → Option String
  queues : WebhookSource → Bool

/-- What was sent to a queue, and what its key held in R2 at that time. -/
structure Publication where
  envelope : WebhookEnvelope
  raw : Option Body

/-- What becomes of a request to D1, R2 or a queue. -/
inductive Fate where
  | carriedOut
  /-- It is carried out, and fails all the same. -/
  | unanswered (thrown : Thrown)
  | refused (thrown : Thrown)

/-- D1, R2, the queues, the clock and the ids that will be minted.  The rest is for the statements
only: whose rows went in, what calls were made and answered, and up to which instants rows were
purged. -/
structure Scene where
  rows : KeyedTable DeliveryRecord.id
  raw : String → Option Body
  published : List Publication
  time : Int
  ids : Nat → String
  minted : Nat
  inserted : List String
  delivered : List VerifiedRequest
  answered : List Answered
  cutoffs : List String

/-- Nothing was delivered yet, and no id is minted twice. -/
structure Scene.IsFresh (scene : Scene) : Prop where
  rows : scene.rows = .empty
  raw : scene.raw = fun _ => none
  published : scene.published = []
  ids : Function.Injective scene.ids
  inserted : scene.inserted = []
  answered : scene.answered = []

namespace Scene

variable (scene : Scene)

def mint (req : VerifiedRequest) : String × Scene :=
  (scene.ids scene.minted,
    { scene with minted := scene.minted + 1, delivered := req :: scene.delivered })

/-- `INSERT OR IGNORE`, with `UNIQUE (source, external_id)`. -/
def insert (rec : DeliveryRecord) : Bool × Scene :=
  if scene.rows.selects fun row => row.source = rec.source ∧ row.externalId = rec.externalId then
    (false, scene)
  else
    match scene.rows.insert? rec with
    | none => (false, scene)
    | some rows => (true, { scene with rows, inserted := rec.id :: scene.inserted })

def selectExisting (source : WebhookSource) (externalId : String) : Option String :=
  (scene.rows.rows.find? fun row => row.source = source ∧ row.externalId = externalId).map
    DeliveryRecord.id

def rawPut (key : String) (body : Body) : Scene :=
  { scene with raw := Function.update scene.raw key (some body) }

def rawDelete (key : String) : Scene :=
  { scene with raw := Function.update scene.raw key none }

def send (envelope : WebhookEnvelope) : Scene :=
  { scene with published := ⟨envelope, envelope.r2Key.bind scene.raw⟩ :: scene.published }

def deleteById (id : String) : Scene :=
  { scene with rows := scene.rows.deleteWhere fun row => row.id = id }

/-- `SELECT id, r2_key FROM webhook_deliveries WHERE received_at < ?`. -/
def selectPurged (cutoffIso : String) : List (String × Option String) :=
  (scene.rows.rows.filter fun row => row.receivedAt < cutoffIso).map fun row => (row.id, row.r2Key)

def purge (cutoffIso : String) : Scene :=
  { scene with
    rows := scene.rows.deleteWhere fun row => row.receivedAt < cutoffIso
    cutoffs := cutoffIso :: scene.cutoffs }

def respond (answered : Answered) : Scene :=
  { scene with answered := answered :: scene.answered }

end Scene

structure World extends Scene where
  fates : Nat → Fate

/-- A request meets its fate. -/
def World.fated {α : Type} (world : World) (effect : Scene → α × Scene) : Except Thrown α × World :=
  let done := effect world.toScene
  let fates := fun n => world.fates (n + 1)
  match world.fates 0 with
  | .carriedOut => (.ok done.1, ⟨done.2, fates⟩)
  | .unanswered thrown => (.error thrown, ⟨done.2, fates⟩)
  | .refused thrown => (.error thrown, ⟨world.toScene, fates⟩)

/-- The calls.  `own` is for the statements only: the object is one of the call itself, which is
about to fail. -/
inductive Call where
  | mint (req : VerifiedRequest)
  | now
  | insert (rec : DeliveryRecord)
  | selectExisting (source : WebhookSource) (externalId : String)
  | rawPut (key : String) (body : Body)
  | send (envelope : WebhookEnvelope)
  | deleteById (id : String)
  | rawDelete (own : Bool) (key : String)
  | respond (answered : Answered)
  | dateNow
  | selectPurged (cutoffIso : String)
  | purge (cutoffIso : String)

abbrev Call.Result : Call → Type
  | .mint _ => String
  | .now => String
  | .insert _ => Bool
  | .selectExisting _ _ => Option String
  | .rawPut _ _ => Unit
  | .send _ => Unit
  | .deleteById _ => Unit
  | .rawDelete _ _ => Unit
  | .respond _ => Unit
  | .dateNow => Int
  | .selectPurged _ => List (String × Option String)
  | .purge _ => Unit

abbrev ingestPorts : Ports where
  Call := Call
  Result := Call.Result

abbrev ingestSignature : Signature :=
  ingestPorts.signature Thrown

def exec (deps : IngestDeps) : (request : Call) → World →
    Option (Except Thrown (Call.Result request) × World)
  | .mint req, world => some (.ok (world.mint req).1, ⟨(world.mint req).2, world.fates⟩)
  | .now, world => some (.ok (deps.toISOString world.time), world)
  | .insert rec, world => some (world.fated fun scene => scene.insert rec)
  | .selectExisting source externalId, world =>
    some (world.fated fun scene => (scene.selectExisting source externalId, scene))
  | .rawPut key body, world => some (world.fated fun scene => ((), scene.rawPut key body))
  | .send envelope, world => some (world.fated fun scene => ((), scene.send envelope))
  | .deleteById id, world => some (world.fated fun scene => ((), scene.deleteById id))
  | .rawDelete _ key, world => some (world.fated fun scene => ((), scene.rawDelete key))
  | .respond answered, world => some (.ok (), ⟨world.respond answered, world.fates⟩)
  | .dateNow, world => some (.ok world.time, world)
  | .selectPurged cutoffIso, world =>
    some (world.fated fun scene => (scene.selectPurged cutoffIso, scene))
  | .purge cutoffIso, world => some (world.fated fun scene => ((), scene.purge cutoffIso))

section Programs

abbrev IngestM (α : Type) := Action ingestPorts Thrown α

abbrev ask (request : Call) : IngestM (Call.Result request) :=
  @port ingestPorts Thrown request

def OFFLOAD_THRESHOLD_BYTES : Nat := 96 * 1024

def QUEUE_NAME_BY_SOURCE : WebhookSource → String
  | .github => "dub-q-wh-github"
  | .google_drive => "dub-q-wh-google-drive"
  | .gmail => "dub-q-wh-gmail"
  | .stripe => "dub-q-wh-stripe"

def WEBHOOK_QUEUE_BY_SOURCE : WebhookSource → String
  | .github => "WH_GITHUB"
  | .google_drive => "WH_GOOGLE_DRIVE"
  | .gmail => "WH_GMAIL"
  | .stripe => "WH_STRIPE"

def rawKey (source : WebhookSource) (id : String) : String :=
  "webhook-raw/" ++ source.text ++ "/" ++ id

structure InsertResult where
  inserted : Bool
  existingId : Option String

def insertIfNew (rec : DeliveryRecord) : IngestM InsertResult := do
  let inserted : Bool ← ask (.insert rec)
  if inserted then pure ⟨true, none⟩
  else do
    let existing : Option String ← ask (.selectExisting rec.source rec.externalId)
    pure ⟨false, existing⟩

structure PurgeResult where
  deletedIds : List String
  r2Keys : List String

def purgeOlderThan (cutoffIso : String) : IngestM PurgeResult := do
  let rows : List (String × Option String) ← ask (.selectPurged cutoffIso)
  if rows.length = 0 then pure ⟨[], []⟩
  else do
    ask (.purge cutoffIso)
    pure ⟨rows.map Prod.fst, rows.filterMap Prod.snd⟩

variable (deps : IngestDeps)

def publishWebhookEvent (envelope : WebhookEnvelope) : IngestM Unit :=
  if deps.queues envelope.source then ask (.send envelope)
  else
    throw (.dub
      { code := "EVENTS_MISSING_BINDING"
        message := "Missing webhook queue binding " ++ WEBHOOK_QUEUE_BY_SOURCE envelope.source
        status := 500 })

variable (req : VerifiedRequest) (id receivedAt : String)

def r2KeyOf : Option String :=
  if OFFLOAD_THRESHOLD_BYTES < req.rawBytes.length then some (rawKey req.source id) else none

def recordOf : DeliveryRecord where
  id := id
  source := req.source
  externalId := req.externalId
  eventKind := req.eventKind
  status := .received
  queue := QUEUE_NAME_BY_SOURCE req.source
  r2Key := r2KeyOf req id
  bodySize := req.rawBytes.length
  receivedAt := receivedAt
  processedAt := none
  requestId := req.requestId

def envelopeOf (payload : Option String) : WebhookEnvelope where
  id := id
  source := req.source
  externalId := req.externalId
  eventKind := req.eventKind
  receivedAt := receivedAt
  requestId := req.requestId
  headers := req.headers
  payload := payload
  r2Key := r2KeyOf req id

def offloadOrParse : IngestM (Option String) :=
  match r2KeyOf req id with
  | some key => do
    ask (.rawPut key req.rawBytes)
    pure none
  | none =>
    if 0 < req.rawBytes.length then
      match deps.parseBody req.rawBytes with
      | some payload => pure (some payload)
      | none => throw (.other "SyntaxError")
    else pure none

/-- The body of the `try`. -/
def publish : IngestM WebhookIngestAck := do
  let payload : Option String ← offloadOrParse deps req id
  publishWebhookEvent deps (envelopeOf req id receivedAt payload)
  pure ⟨id, true⟩

/-- `cause` if it is an error of the service. -/
def publishFailed : Thrown → Thrown
  | .dub error => .dub error
  | .other _ => .dub { code := "INTERNAL", message := "webhook publish failed", status := 500 }

/-- Remove the row and the object, so that a resend can succeed. -/
def compensate (cause : Thrown) : IngestM WebhookIngestAck := do
  let _ ← attempt (ask (.deleteById id))
  match r2KeyOf req id with
  | some key => do
    let _ ← attempt (ask (.rawDelete true key))
    throw (publishFailed cause)
  | none => throw (publishFailed cause)

/-- `ingest`, once it has its id and its instant. -/
def ingestAs : IngestM WebhookIngestAck := do
  let ins ← insertIfNew (recordOf req id receivedAt)
  if ins.inserted then do
    let outcome ← attempt (publish deps req id receivedAt)
    match outcome with
    | .ok ack => pure ack
    | .error cause => compensate req id cause
  else pure ⟨ins.existingId.getD id, false⟩

def ingest : IngestM Answered := do
  let id : String ← ask (.mint req)
  let receivedAt : String ← ask .now
  let outcome ← attempt (ingestAs deps req id receivedAt)
  pure ⟨req, id, receivedAt, outcome⟩

/-- The objects of purged rows; one that cannot be deleted stays. -/
def deleteObjects : List String → IngestM Nat
  | [] => pure 0
  | key :: keys => do
    let outcome ← attempt (ask (.rawDelete false key))
    let deleted ← deleteObjects keys
    pure (match outcome with
      | .ok _ => deleted + 1
      | .error _ => deleted)

structure CleanupResult where
  deletedRows : Nat
  deletedObjects : Nat

def cleanup (retentionDays : Int) : IngestM CleanupResult := do
  let nowMs : Int ← ask .dateNow
  let purged ← purgeOlderThan (deps.toISOString (nowMs - retentionDays * 24 * 60 * 60 * 1000))
  let deletedObjects ← deleteObjects purged.r2Keys
  pure ⟨purged.deletedIds.length, deletedObjects⟩

inductive Operation where
  | ingest (req : VerifiedRequest)
  | cleanup (retentionDays : Int)

def Operation.action : Operation → IngestM Unit
  | .ingest req => do
    let answered ← WebhookIngest.ingest deps req
    ask (.respond answered)
  | .cleanup retentionDays => do
    let _ ← WebhookIngest.cleanup deps retentionDays
    pure ()

/-- Any number of deliveries and cleanups, while the clock goes on. -/
def webhookIngest : System ingestSignature World Operation where
  exec := exec deps
  observe _ _ world := world
  program op := (op.action deps).run >>= fun _ => pure ()
  startable _ _ := True
  environment world moved := ∃ time, moved = { world with time }

end Programs

section Claim

variable (deps : IngestDeps)

def Publication.Carries (publication : Publication) (body : Body) : Prop :=
  match publication.envelope.r2Key with
  | some _ => publication.raw = some body
  | none =>
    publication.envelope.payload = if 0 < body.length then deps.parseBody body else none

def Scene.Published (scene : Scene) (source : WebhookSource) (externalId : String) : Prop :=
  ∃ publication ∈ scene.published, publication.envelope.source = source ∧
    publication.envelope.externalId = externalId ∧
      ∃ req ∈ scene.delivered, req.source = source ∧ req.externalId = externalId ∧
        publication.Carries deps req.rawBytes

structure Scene.Honoured (scene : Scene) : Prop where
  /-- What was answered 200 has been published. -/
  acknowledged : ∀ answered ∈ scene.answered, ∀ ack, answered.outcome = .ok ack →
    scene.Published deps answered.req.source answered.req.externalId
  /-- What was answered by an error has left no row and no object. -/
  undone : ∀ answered ∈ scene.answered, ∀ thrown, answered.outcome = .error thrown →
    (∀ row ∈ scene.rows, row.id ≠ answered.id) ∧
      scene.raw (rawKey answered.req.source answered.id) = none
  /-- A published key is readable while its row exists. -/
  readable : ∀ publication ∈ scene.published, ∀ key, publication.envelope.r2Key = some key →
    ∀ row ∈ scene.rows, row.id = publication.envelope.id → ∃ body, scene.raw key = some body

/-- In every run that meets the condition the answers are honoured, and nothing is sent again that
was accepted, until rows as old as its row are purged. -/
def KeepsDeliveries (condition : RunCondition ingestSignature World Operation) : Prop :=
  ∀ start config, start.toScene.IsFresh → (webhookIngest deps).ReachableUnder condition start config →
    config.world.toScene.Honoured deps ∧
    ∀ envelope answer after,
      (webhookIngest deps).CallUnder condition (.send envelope) answer config after →
      ∀ answered ∈ config.world.answered, ∀ deliveryId, answered.outcome = .ok ⟨deliveryId, true⟩ →
        answered.req.source = envelope.source → answered.req.externalId = envelope.externalId →
          ∃ cutoffIso ∈ config.world.cutoffs, answered.receivedAt < cutoffIso

end Claim

end DubEcosystem.WebhookIngest
