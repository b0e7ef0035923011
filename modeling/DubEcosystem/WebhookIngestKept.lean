import DubEcosystem.InterleavingProtocols
import DubEcosystem.WebhookIngest

/-!
# webhook-ingest: when an acknowledged delivery is on its queue

The row of a delivery is there before it is published, and a duplicate is acknowledged on the
strength of the row alone.
-/

namespace DubEcosystem.WebhookIngest

open Interleaving PortPrograms Function

variable {deps : IngestDeps}

/-- A call with its id and its instant. -/
structure Own where
  req : VerifiedRequest
  id : String
  receivedAt : String

def Own.record (own : Own) : DeliveryRecord :=
  recordOf own.req own.id own.receivedAt

def Own.key (own : Own) : String :=
  rawKey own.req.source own.id

def Own.offloads (own : Own) : Prop :=
  r2KeyOf own.req own.id = some own.key

def Own.answer (own : Own) (outcome : Except Thrown WebhookIngestAck) : Answered :=
  ⟨own.req, own.id, own.receivedAt, outcome⟩

theorem Own.r2KeyOf_eq (own : Own) : own.offloads ∨ r2KeyOf own.req own.id = none := by
  unfold Own.offloads r2KeyOf Own.key
  split
  · exact .inl rfl
  · exact .inr rfl

/-- Where a call stands whose row went in. -/
inductive Stage where
  | fresh
  /-- The object was put. -/
  | stored
  /-- The put or the publish has failed. -/
  | failed

inductive Phase where
  | minting (req : VerifiedRequest)
  | stamping (req : VerifiedRequest) (id : String)
  | inserting (own : Own)
  /-- There is a row of the same delivery. -/
  | refused (own : Own)
  | held (own : Own) (stage : Stage)
  | sent (own : Own)
  /-- The row is taken back. -/
  | cleared (own : Own)
  | answering (answered : Answered)
  | sweeping
  | selecting
  | purging (cutoffIso : String) (rows : List (String × Option String))
  | erasing (keys : List String)
  | ended

/-- The id that an operation has for itself. -/
def Phase.id? : Phase → Option String
  | .stamping _ id => some id
  | .inserting own | .refused own | .held own _ | .sent own | .cleared own => some own.id
  | .answering answered => some answered.id
  | _ => none

/-- Nothing has been asked for that may fail. -/
def Phase.isEarly : Phase → Bool
  | .minting _ | .stamping _ _ | .sweeping => true
  | _ => false

/-- The call cannot fail. -/
def Call.isSure : Call → Prop
  | .mint _ | .now | .respond _ | .dateNow => True
  | _ => False

def Own.Publishes (deps : IngestDeps) (own : Own) (payload : Option String) : Stage → Prop
  | .fresh => r2KeyOf own.req own.id = none ∧
      payload = if 0 < own.req.rawBytes.length then deps.parseBody own.req.rawBytes else none
  | .stored => own.offloads
  | .failed => False

inductive Leads (deps : IngestDeps) :
    Phase → (request : Call) → Except Thrown (Call.Result request) → Phase → Prop
  | fails {phase request thrown} (isEarly : phase.isEarly = true) (isSure : request.isSure) :
      Leads deps phase request (.error thrown) .ended
  | mints {req} {id : String} : Leads deps (.minting req) (.mint req) (.ok id) (.stamping req id)
  | stamps {req id} {receivedAt : String} :
      Leads deps (.stamping req id) .now (.ok receivedAt) (.inserting ⟨req, id, receivedAt⟩)
  | inserts {own : Own} :
      Leads deps (.inserting own) (.insert own.record) (.ok true) (.held own .fresh)
  | meets {own : Own} : Leads deps (.inserting own) (.insert own.record) (.ok false) (.refused own)
  | insertFails {own : Own} {thrown} :
      Leads deps (.inserting own) (.insert own.record) (.error thrown)
        (.answering (own.answer (.error thrown)))
  | finds {own : Own} {existing : Option String} :
      Leads deps (.refused own) (.selectExisting own.req.source own.req.externalId) (.ok existing)
        (.answering (own.answer (.ok ⟨existing.getD own.id, false⟩)))
  | findFails {own : Own} {thrown} :
      Leads deps (.refused own) (.selectExisting own.req.source own.req.externalId) (.error thrown)
        (.answering (own.answer (.error thrown)))
  | stores {own : Own} (offloads : own.offloads) :
      Leads deps (.held own .fresh) (.rawPut own.key own.req.rawBytes) (.ok ()) (.held own .stored)
  | storeFails {own : Own} {thrown} (offloads : own.offloads) :
      Leads deps (.held own .fresh) (.rawPut own.key own.req.rawBytes) (.error thrown)
        (.held own .failed)
  | sends {own : Own} {stage payload} (publishes : own.Publishes deps payload stage) :
      Leads deps (.held own stage) (.send (envelopeOf own.req own.id own.receivedAt payload)) (.ok ())
        (.sent own)
  | sendFails {own : Own} {stage payload thrown} (publishes : own.Publishes deps payload stage) :
      Leads deps (.held own stage) (.send (envelopeOf own.req own.id own.receivedAt payload))
        (.error thrown) (.held own .failed)
  | undoes {own : Own} {stage answer} :
      Leads deps (.held own stage) (.deleteById own.id) answer (.cleared own)
  | erases {own : Own} {answer thrown} (offloads : own.offloads) :
      Leads deps (.cleared own) (.rawDelete true own.key) answer
        (.answering (own.answer (.error thrown)))
  | answersFailed {own : Own} {thrown answer} (noKey : r2KeyOf own.req own.id = none) :
      Leads deps (.cleared own) (.respond (own.answer (.error thrown))) answer .ended
  | answersSent {own : Own} {answer} :
      Leads deps (.sent own) (.respond (own.answer (.ok ⟨own.id, true⟩))) answer .ended
  | responds {answered answer} : Leads deps (.answering answered) (.respond answered) answer .ended
  | starts {now : Int} : Leads deps .sweeping .dateNow (.ok now) .selecting
  | selects {cutoffIso} {rows : List (String × Option String)} :
      Leads deps .selecting (.selectPurged cutoffIso) (.ok rows) (.purging cutoffIso rows)
  | selectEnds {cutoffIso answer} : Leads deps .selecting (.selectPurged cutoffIso) answer .ended
  | purges {cutoffIso rows} : Leads deps (.purging cutoffIso rows) (.purge cutoffIso) (.ok ())
        (.erasing (rows.filterMap Prod.snd))
  | purgeFails {cutoffIso rows thrown} :
      Leads deps (.purging cutoffIso rows) (.purge cutoffIso) (.error thrown) .ended
  | deletes {key keys answer} :
      Leads deps (.erasing (key :: keys)) (.rawDelete false key) answer (.erasing keys)

def ingestProtocol (deps : IngestDeps) : Protocol ingestSignature Phase where
  possible _ _ := True
  leads := Leads deps
  final phase := phase = .ended ∨ phase = .erasing []

def Operation.first : Operation → Phase
  | .ingest req => .minting req
  | .cleanup _ => .sweeping

variable {stage : Stage}

theorem compensate_follows (own : Own) (cause : Thrown) :
    Follows (ingestProtocol deps) (.held own stage) (compensate own.req own.id cause)
      fun outcome after => ∃ thrown, outcome = .error thrown ∧
        (after = .answering (own.answer (.error thrown)) ∨
          after = .cleared own ∧ r2KeyOf own.req own.id = none) := by
  unfold compensate
  apply follows_attempt_bind
  apply follows_port
  intro outcome _
  refine ⟨.cleared own, .undoes, ?_⟩
  rcases own.r2KeyOf_eq with offloads | noKey
  · rw [show r2KeyOf own.req own.id = some own.key from offloads]
    apply follows_attempt_bind
    apply follows_port
    intro outcome _
    exact ⟨_, .erases offloads, follows_throw ⟨_, rfl, .inl rfl⟩⟩
  · rw [noKey]
    exact follows_throw ⟨_, rfl, .inr ⟨rfl, rfl⟩⟩

/-- What the body of the `try` comes to. -/
def Own.Tried (own : Own) (outcome : Except Thrown WebhookIngestAck) (after : Phase) : Prop :=
  (outcome = .ok ⟨own.id, true⟩ ∧ after = .sent own) ∨
    ∃ thrown stage, outcome = .error thrown ∧ after = .held own stage

theorem publishWebhookEvent_follows (own : Own) {payload : Option String}
    (publishes : own.Publishes deps payload stage) :
    Follows (ingestProtocol deps) (.held own stage)
      (publishWebhookEvent deps (envelopeOf own.req own.id own.receivedAt payload))
      fun outcome after => (outcome = .ok () ∧ after = .sent own) ∨
        ∃ thrown stage, outcome = .error thrown ∧ after = .held own stage := by
  unfold publishWebhookEvent
  split
  · apply follows_port
    rintro (thrown | ⟨⟩) _
    · exact ⟨_, .sendFails publishes, .inr ⟨thrown, .failed, rfl, rfl⟩⟩
    · exact ⟨_, .sends publishes, .inl ⟨rfl, rfl⟩⟩
  · exact follows_throw (.inr ⟨_, stage, rfl, rfl⟩)

theorem publish_follows (own : Own) :
    Follows (ingestProtocol deps) (.held own .fresh) (publish deps own.req own.id own.receivedAt)
      own.Tried := by
  unfold publish offloadOrParse
  have sends : ∀ {stage payload}, own.Publishes deps payload stage →
      Follows (ingestProtocol deps) (.held own stage) (do
        publishWebhookEvent deps (envelopeOf own.req own.id own.receivedAt payload)
        pure (⟨own.id, true⟩ : WebhookIngestAck)) own.Tried := by
    intro stage payload publishes
    apply follows_bind
    apply (publishWebhookEvent_follows own publishes).mono
    rintro outcome after (⟨rfl, rfl⟩ | ⟨thrown, stage, rfl, rfl⟩)
    · exact follows_pure (.inl ⟨rfl, rfl⟩)
    · exact .inr ⟨thrown, stage, rfl, rfl⟩
  rcases own.r2KeyOf_eq with offloads | noKey
  · rw [show r2KeyOf own.req own.id = some own.key from offloads]
    apply follows_bind
    apply follows_port_bind
    · exact fun _ _ => ⟨_, .stores offloads, follows_pure (sends offloads)⟩
    · exact fun thrown _ => ⟨_, .storeFails offloads, .inr ⟨thrown, .failed, rfl, rfl⟩⟩
  · simp only [noKey]
    apply follows_bind
    split
    · rename_i hasBody
      split
      · rename_i payload parsed
        have publishes : own.Publishes deps (some payload) .fresh :=
          ⟨noKey, by rw [if_pos hasBody, parsed]⟩
        exact follows_pure (sends publishes)
      · exact follows_throw (.inr ⟨_, .fresh, rfl, rfl⟩)
    · rename_i noBody
      have publishes : own.Publishes deps none .fresh := ⟨noKey, by rw [if_neg noBody]⟩
      exact follows_pure (sends publishes)

/-- A call is about to answer. -/
def Own.Concludes (own : Own) (outcome : Except Thrown WebhookIngestAck) (after : Phase) : Prop :=
  after = .answering (own.answer outcome) ∨ (after = .sent own ∧ outcome = .ok ⟨own.id, true⟩) ∨
      ∃ thrown, after = .cleared own ∧ r2KeyOf own.req own.id = none ∧ outcome = .error thrown

theorem ingestAs_follows (own : Own) :
    Follows (ingestProtocol deps) (.inserting own) (ingestAs deps own.req own.id own.receivedAt)
      own.Concludes := by
  unfold ingestAs insertIfNew
  apply follows_bind
  apply follows_port_bind
  · rintro (inserted | inserted) _
    · refine ⟨.refused own, .meets, ?_⟩
      apply follows_port_bind
      · exact fun existing _ => ⟨_, .finds, follows_pure (follows_pure (.inl rfl))⟩
      · exact fun thrown _ => ⟨_, .findFails, .inl rfl⟩
    · refine ⟨.held own .fresh, .inserts, follows_pure ?_⟩
      apply follows_attempt_bind
      apply (publish_follows own).mono
      rintro outcome after (⟨rfl, rfl⟩ | ⟨thrown, stage, rfl, rfl⟩)
      · exact follows_pure (.inr (.inl ⟨rfl, rfl⟩))
      · apply (compensate_follows own thrown).mono
        rintro outcome after ⟨thrown, rfl, rfl | ⟨rfl, noKey⟩⟩
        · exact .inl rfl
        · exact .inr (.inr ⟨thrown, rfl, noKey, rfl⟩)
  · exact fun thrown _ => ⟨_, .insertFails, .inl rfl⟩

theorem respond_follows (own : Own) {outcome : Except Thrown WebhookIngestAck} {phase : Phase}
    (concludes : own.Concludes outcome phase) :
    Follows (ingestProtocol deps) phase (ask (.respond (own.answer outcome)))
      fun _ after => after = .ended := by
  apply follows_port
  intro answer _
  rcases concludes with rfl | ⟨rfl, rfl⟩ | ⟨thrown, rfl, noKey, rfl⟩
  · exact ⟨_, .responds, rfl⟩
  · exact ⟨_, .answersSent, rfl⟩
  · exact ⟨_, .answersFailed noKey, rfl⟩

theorem ingest_follows (req : VerifiedRequest) :
    Follows (ingestProtocol deps) (.minting req) (Operation.action deps (.ingest req))
      fun _ after => after = .ended := by
  unfold Operation.action ingest
  apply follows_bind
  apply follows_port_bind
  · intro id _
    refine ⟨_, .mints, ?_⟩
    apply follows_port_bind
    · intro receivedAt _
      refine ⟨_, .stamps, ?_⟩
      apply follows_attempt_bind
      apply (ingestAs_follows ⟨req, id, receivedAt⟩).mono
      intro outcome after concludes
      exact follows_pure (respond_follows _ concludes)
    · exact fun thrown _ => ⟨_, .fails rfl trivial, rfl⟩
  · exact fun thrown _ => ⟨_, .fails rfl trivial, rfl⟩

theorem deleteObjects_follows (keys : List String) :
    Follows (ingestProtocol deps) (.erasing keys) (deleteObjects keys)
      fun _ after => after = .erasing [] := by
  induction keys with
  | nil => exact follows_pure rfl
  | cons key keys ih =>
    unfold deleteObjects
    apply follows_attempt_bind
    apply follows_port
    intro outcome _
    refine ⟨_, .deletes, ?_⟩
    apply follows_bind
    apply ih.mono
    rintro (thrown | deleted) after rfl
    · rfl
    · exact follows_pure rfl

theorem cleanup_follows (retentionDays : Int) :
    Follows (ingestProtocol deps) .sweeping (Operation.action deps (.cleanup retentionDays))
      fun _ after => after = .ended ∨ after = .erasing [] := by
  unfold Operation.action cleanup purgeOlderThan
  apply follows_bind
  apply follows_port_bind
  · intro now _
    refine ⟨_, .starts, ?_⟩
    apply follows_bind
    apply follows_port_bind
    · intro rows _
      split
      · exact ⟨_, .selectEnds, follows_pure (follows_bind (follows_bind
          (follows_pure (follows_pure (follows_pure (follows_pure (.inl rfl)))))))⟩
      · refine ⟨_, .selects, ?_⟩
        apply follows_port_bind
        · intro _ _
          refine ⟨_, .purges, follows_pure ?_⟩
          apply follows_bind
          apply (deleteObjects_follows _).mono
          rintro (thrown | deleted) after rfl
          · exact .inr rfl
          · exact follows_pure (follows_pure (.inr rfl))
        · exact fun thrown _ => ⟨_, .purgeFails, .inl rfl⟩
    · exact fun thrown _ => ⟨_, .selectEnds, .inl rfl⟩
  · exact fun thrown _ => ⟨_, .fails rfl trivial, .inl rfl⟩

/-- Nothing stops. -/
def Call.isNever (_ : Call) : Prop :=
  False

def Call.settles (id : String) : Call → Prop
  | .send envelope => envelope.id = id
  | .deleteById other => other = id
  | _ => False

/-- The call whose row has the id has not yet sent its envelope, nor taken the row back. -/
def isUnsettled (id : String) (program : Prog ingestSignature Unit) : Prop :=
  program.MayReach (S := ingestSignature) Call.isNever (Call.settles id)

/-- A delivery meets no row but one that was published, and no insert fails after it was carried
out.  A call that fails can take its row and its object back.  No cleanup purges the row of a call
that is on its way. -/
def meetsPublished : RunCondition ingestSignature World Operation where
  mayCall
    | .insert rec, world, _ =>
      (∀ row ∈ world.rows, row.source = rec.source → row.externalId = rec.externalId →
        ∃ publication ∈ world.published, publication.envelope.id = row.id) ∧
      ∀ thrown, world.fates 0 = .unanswered thrown → (world.insert rec).1 = false
    | .deleteById id, world, _ =>
      ∀ thrown, world.fates 0 = .refused thrown → ∀ row ∈ world.rows, row.id ≠ id
    | .rawDelete own key, world, _ =>
      own = true → ∀ thrown, world.fates 0 = .refused thrown → world.raw key = none
    | .purge cutoffIso, world, others =>
      ∀ row ∈ world.rows, row.receivedAt < cutoffIso → ∀ other ∈ others, ¬isUnsettled row.id other.2
    | _, _, _ => True
  mayStop _ := True

open List KeyedTable

section Facts

variable {source : WebhookSource} {id : String}

theorem rawKey_injective {other : WebhookSource} {otherId : String}
    (same : rawKey source id = rawKey other otherId) : id = otherId := by
  have lists := congrArg String.toList same
  simp only [rawKey, String.toList_append, append_assoc] at lists
  cases source <;> cases other <;> simp [WebhookSource.text] at lists
  all_goals exact String.ext lists

variable (scene : Scene)

def Scene.isMinted (id : String) : Prop :=
  ∃ k < scene.minted, scene.ids k = id

def Scene.Retains (row : DeliveryRecord) : Prop :=
  row ∈ scene.rows ∨ ∃ cutoffIso ∈ scene.cutoffs, row.receivedAt < cutoffIso

/-- Nothing is left of a call. -/
def Scene.Clear (source : WebhookSource) (id : String) : Prop :=
  (∀ row ∈ scene.rows, row.id ≠ id) ∧ scene.raw (rawKey source id) = none

def Scene.Gone (id : String) : Prop :=
  id ∈ scene.inserted ∧ ∀ row ∈ scene.rows, row.id ≠ id

def Scene.Earns (deps : IngestDeps) (answered : Answered) : Prop :=
  match answered.outcome with
  | .ok ack => ack.accepted = false ∧
      scene.Published deps answered.req.source answered.req.externalId
  | .error _ => scene.Clear answered.req.source answered.id

def Scene.holds (deps : IngestDeps) : Phase → Prop
  | .stamping req id => id ∉ scene.inserted ∧ req ∈ scene.delivered
  | .inserting own => own.id ∉ scene.inserted ∧ own.req ∈ scene.delivered
  | .refused own => own.id ∉ scene.inserted ∧ scene.Published deps own.req.source own.req.externalId
  | .held own stage => own.record ∈ scene.rows ∧ own.req ∈ scene.delivered ∧
      (r2KeyOf own.req own.id = none → scene.raw own.key = none) ∧
      (stage matches .stored → scene.raw own.key = some own.req.rawBytes)
  | .sent own => scene.Published deps own.req.source own.req.externalId ∧ scene.Retains own.record
  | .cleared own => scene.Gone own.id ∧ (r2KeyOf own.req own.id = none → scene.raw own.key = none)
  | .answering answered => scene.Earns deps answered
  | .purging cutoffIso rows => ∀ row ∈ rows, row.1 ∈ scene.inserted ∧
      (∀ key, row.2 = some key → ∃ source, key = rawKey source row.1) ∧
      ∀ stored ∈ scene.rows, stored.id = row.1 → stored.receivedAt < cutoffIso
  | .erasing keys => ∀ key ∈ keys, ∃ source id, key = rawKey source id ∧ scene.Gone id
  | _ => True

/-- What every call leaves standing. -/
structure Scene.Grows (before after : Scene) : Prop where
  delivered : before.delivered ⊆ after.delivered
  published : before.published ⊆ after.published
  cutoffs : before.cutoffs ⊆ after.cutoffs
  inserted : before.inserted ⊆ after.inserted
  rows : ∀ row ∈ after.rows, row ∈ before.rows ∨ row.id ∉ before.inserted

/-- What a call leaves standing of the id of another call. -/
structure Scene.Spares (before after : Scene) (id : String) : Prop where
  shrinks : ∀ row ∈ after.rows, row.id = id → row ∈ before.rows
  retains : ∀ row ∈ before.rows, row.id = id → after.Retains row
  raw : ∀ source, after.raw (rawKey source id) = before.raw (rawKey source id) ∨
    after.raw (rawKey source id) = none ∧ ∀ row ∈ before.rows, row.id ≠ id
  inserted : id ∈ after.inserted → id ∈ before.inserted

variable {scene} {before after : Scene}

theorem Scene.Published.mono {externalId : String}
    (published : before.Published deps source externalId) (grows : before.Grows after) :
    after.Published deps source externalId := by
  obtain ⟨publication, member, isSource, isExternal, req, delivered, rest⟩ := published
  exact ⟨publication, grows.published member, isSource, isExternal, req, grows.delivered delivered,
    rest⟩

theorem Scene.Spares.raw_none
    (spares : before.Spares after id) (isNone : before.raw (rawKey source id) = none) :
    after.raw (rawKey source id) = none := by
  rcases spares.raw source with same | ⟨isGone, -⟩
  · exact same.trans isNone
  · exact isGone

theorem Scene.Clear.mono (clear : before.Clear source id)
    (spares : before.Spares after id) : after.Clear source id := by
  refine ⟨fun row member isId => clear.1 row (spares.shrinks row member isId) isId, ?_⟩
  exact spares.raw_none clear.2

theorem Scene.Gone.mono (gone : before.Gone id) (grows : before.Grows after) :
    after.Gone id := by
  refine ⟨grows.inserted gone.1, fun row member isId => ?_⟩
  rcases grows.rows row member with old | isNew
  · exact gone.2 row old isId
  · exact isNew (isId ▸ gone.1)

theorem Scene.Retains.mono {row : DeliveryRecord} (retains : before.Retains row)
    (grows : before.Grows after) (spares : before.Spares after row.id) : after.Retains row := by
  rcases retains with stored | ⟨cutoffIso, purged, older⟩
  · exact spares.retains row stored rfl
  · exact .inr ⟨cutoffIso, grows.cutoffs purged, older⟩

theorem Scene.Earns.mono {answered : Answered} (earns : before.Earns deps answered)
    (grows : before.Grows after) (spares : before.Spares after answered.id) :
    after.Earns deps answered := by
  obtain ⟨req, id, receivedAt, outcome⟩ := answered
  cases outcome with
  | ok ack => exact ⟨earns.1, earns.2.mono grows⟩
  | error thrown => exact Scene.Clear.mono earns spares

theorem Scene.holds.mono {phase : Phase} (holds : before.holds deps phase)
    (grows : before.Grows after) (spares : ∀ id ∈ phase.id?, before.Spares after id)
    (stays : ∀ own stage, phase = .held own stage → own.record ∈ after.rows) :
    after.holds deps phase := by
  cases phase with
  | stamping req id =>
    exact ⟨fun isIn => holds.1 ((spares id rfl).inserted isIn), grows.delivered holds.2⟩
  | inserting own =>
    exact ⟨fun isIn => holds.1 ((spares own.id rfl).inserted isIn), grows.delivered holds.2⟩
  | refused own =>
    exact ⟨fun isIn => holds.1 ((spares own.id rfl).inserted isIn), holds.2.mono grows⟩
  | held own stage =>
    obtain ⟨isRow, delivered, noKey, stored⟩ := holds
    have sameRaw : after.raw own.key = before.raw own.key :=
      ((spares own.id rfl).raw _).resolve_right fun gone => gone.2 own.record isRow rfl
    exact ⟨stays own stage rfl, grows.delivered delivered, fun isNone => sameRaw.trans (noKey isNone),
      fun isStored => sameRaw.trans (stored isStored)⟩
  | sent own => exact ⟨holds.1.mono grows, holds.2.mono grows (spares own.id rfl)⟩
  | cleared own =>
    exact ⟨holds.1.mono grows, fun isNone => (spares own.id rfl).raw_none (holds.2 isNone)⟩
  | answering answered => exact Scene.Earns.mono holds grows (spares answered.id rfl)
  | purging cutoffIso rows =>
    intro row member
    obtain ⟨isIn, isKey, older⟩ := holds row member
    refine ⟨grows.inserted isIn, isKey, fun stored storedMem isId => ?_⟩
    rcases grows.rows stored storedMem with old | isNew
    · exact older stored old isId
    · exact absurd isIn (isId ▸ isNew)
  | erasing keys =>
    intro key member
    obtain ⟨source, id, isKey, gone⟩ := holds key member
    exact ⟨source, id, isKey, gone.mono grows⟩
  | _ => trivial

end Facts

/-- What holds of the scene at every moment. -/
structure Scene.Sound (deps : IngestDeps) (scene : Scene) : Prop where
  ids : Function.Injective scene.ids
  minted : ∀ id ∈ scene.inserted, scene.isMinted id
  rows : ∀ row ∈ scene.rows, row.id ∈ scene.inserted ∧ ∃ own : Own, row = own.record
  sole : ∀ row ∈ scene.rows, ∀ other ∈ scene.rows, row.source = other.source →
    row.externalId = other.externalId → row = other
  raw : ∀ key body, scene.raw key = some body → ∃ source, ∃ id ∈ scene.inserted,
    key = rawKey source id
  published : ∀ publication ∈ scene.published, publication.envelope.id ∈ scene.inserted ∧
    scene.Published deps publication.envelope.source publication.envelope.externalId ∧
    ∀ row ∈ scene.rows, row.id = publication.envelope.id →
      row.source = publication.envelope.source ∧
      row.externalId = publication.envelope.externalId ∧
      ∀ key, publication.envelope.r2Key = some key →
        (∃ source, key = rawKey source row.id) ∧ ∃ body, scene.raw key = some body
  acknowledged : ∀ answered ∈ scene.answered, ∀ ack, answered.outcome = .ok ack →
    scene.Published deps answered.req.source answered.req.externalId
  undone : ∀ answered ∈ scene.answered, ∀ thrown, answered.outcome = .error thrown →
    scene.Clear answered.req.source answered.id
  accepted : ∀ answered ∈ scene.answered, ∀ deliveryId,
    answered.outcome = .ok ⟨deliveryId, true⟩ →
      scene.Retains (recordOf answered.req answered.id answered.receivedAt)

variable {scene : Scene}

theorem Scene.Sound.honoured (sound : scene.Sound deps) : scene.Honoured deps where
  acknowledged := sound.acknowledged
  undone answered member thrown isError := sound.undone answered member thrown isError
  readable publication member key isKey row rowMem isId :=
    (((sound.published publication member).2.2 row rowMem isId).2.2 key isKey).2

theorem Scene.Sound.notInserted (sound : scene.Sound deps) {id : String}
    (isNew : id ∉ scene.inserted) :
    (∀ row ∈ scene.rows, row.id ≠ id) ∧ ∀ source, scene.raw (rawKey source id) = none := by
  constructor
  · exact fun row member isId => isNew (isId ▸ (sound.rows row member).1)
  · intro source
    cases stored : scene.raw (rawKey source id) with
    | none => rfl
    | some body =>
      obtain ⟨other, otherId, isIn, sameKey⟩ := sound.raw _ body stored
      exact absurd (rawKey_injective sameKey ▸ isIn) isNew

/-- What an effect leaves standing of every id but one. -/
structure Scene.Moves (deps : IngestDeps) (before after : Scene) (id : String) : Prop where
  grows : before.Grows after
  spares : ∀ other, other ≠ id → before.Spares after other
  sound : after.Sound deps

variable {scene : Scene}

theorem Scene.Grows.refl (scene : Scene) : scene.Grows scene where
  delivered := List.Subset.refl _
  published := List.Subset.refl _
  cutoffs := List.Subset.refl _
  inserted := List.Subset.refl _
  rows _ member := .inl member

theorem Scene.Spares.refl (scene : Scene) (id : String) : scene.Spares scene id where
  shrinks _ member _ := member
  retains _ member _ := .inl member
  raw _ := .inl rfl
  inserted isIn := isIn

/-- The answers that were given stay honoured, by calls that are not of theirs. -/
theorem Scene.Sound.answers {before after : Scene} (sound : before.Sound deps)
    (grows : before.Grows after) (spares : ∀ answered ∈ before.answered,
      before.Spares after answered.id) (same : after.answered = before.answered) :
    (∀ answered ∈ after.answered, ∀ ack, answered.outcome = .ok ack →
      after.Published deps answered.req.source answered.req.externalId) ∧
    (∀ answered ∈ after.answered, ∀ thrown, answered.outcome = .error thrown →
      after.Clear answered.req.source answered.id) ∧
    ∀ answered ∈ after.answered, ∀ deliveryId, answered.outcome = .ok ⟨deliveryId, true⟩ →
      after.Retains (recordOf answered.req answered.id answered.receivedAt) := by
  rw [same]
  refine ⟨?_, ?_, ?_⟩
  · intro answered member ack isOk
    exact (sound.acknowledged answered member ack isOk).mono grows
  · intro answered member thrown isError
    exact (sound.undone answered member thrown isError).mono (spares answered member)
  · intro answered member deliveryId isOk
    exact (sound.accepted answered member deliveryId isOk).mono grows (spares answered member)

theorem Scene.Sound.mint (sound : scene.Sound deps) (req : VerifiedRequest) (id : String) :
    scene.Moves deps (scene.mint req).2 id := by
  have grows : scene.Grows (scene.mint req).2 :=
    { Scene.Grows.refl scene with delivered := subset_cons_self _ _ }
  have spares : ∀ other, scene.Spares (scene.mint req).2 other :=
    fun other => { Scene.Spares.refl scene other with }
  obtain ⟨acknowledged, undone, accepted⟩ := sound.answers grows (fun answered _ => spares _) rfl
  refine ⟨grows, fun other _ => spares other, sound.ids, ?_, sound.rows, sound.sole, sound.raw, ?_,
    acknowledged, undone, accepted⟩
  · intro other isIn
    obtain ⟨k, less, isId⟩ := sound.minted other isIn
    exact ⟨k, Nat.lt_succ_of_lt less, isId⟩
  · intro publication member
    obtain ⟨isIn, published, rest⟩ := sound.published publication member
    exact ⟨isIn, published.mono grows, rest⟩

variable {rec : DeliveryRecord}

theorem Scene.insert_true (inserted : (scene.insert rec).1 = true) :
    (∀ row ∈ scene.rows, ¬(row.source = rec.source ∧ row.externalId = rec.externalId)) ∧
      (∀ row, row ∈ (scene.insert rec).2.rows ↔ row ∈ scene.rows ∨ row = rec) ∧
      ∃ rows, (scene.insert rec).2 = { scene with rows, inserted := rec.id :: scene.inserted } := by
  unfold Scene.insert at inserted ⊢
  split at inserted
  · cases inserted
  · rename_i noConflict
    rw [if_neg noConflict]
    split at inserted
    · cases inserted
    · rename_i rows isNew
      refine ⟨fun row member same => noConflict ?_, fun row => mem_insert? isNew, rows, rfl⟩
      exact selects_eq_true.mpr ⟨row, member, by simpa using same⟩

theorem Scene.insert_false (ignored : (scene.insert rec).1 = false) :
    (scene.insert rec).2 = scene ∧ ∃ row ∈ scene.rows,
      (row.source = rec.source ∧ row.externalId = rec.externalId) ∨ row.id = rec.id := by
  unfold Scene.insert at ignored ⊢
  split
  · rename_i conflict
    obtain ⟨row, member, same⟩ := selects_eq_true.mp conflict
    exact ⟨rfl, row, member, .inl (by simpa using same)⟩
  · rename_i noConflict
    rw [if_neg noConflict] at ignored
    cases isNew : scene.rows.insert? rec with
    | none =>
      obtain ⟨row, member, sameId⟩ := insert?_eq_none.mp isNew
      exact ⟨rfl, row, member, .inr sameId⟩
    | some rows => simp [isNew] at ignored

section

variable (sound : scene.Sound deps)
include sound

theorem Scene.Sound.insert {own : Own} (isMinted : scene.isMinted own.id)
    (isNew : own.id ∉ scene.inserted) (fresh : ∀ answered ∈ scene.answered, answered.id ≠ own.id)
    (inserted : (scene.insert own.record).1 = true) :
    scene.Moves deps (scene.insert own.record).2 own.id := by
  obtain ⟨noConflict, isRow, rows, isAfter⟩ := Scene.insert_true inserted
  generalize (scene.insert own.record).2 = after at *
  subst isAfter
  have grows : scene.Grows { scene with rows, inserted := own.record.id :: scene.inserted } :=
    { Scene.Grows.refl scene with
      inserted := subset_cons_self _ _
      rows := by
        intro row member
        rcases (isRow row).mp member with old | rfl
        · exact .inl old
        · exact .inr isNew }
  have spares : ∀ other, other ≠ own.id → scene.Spares
      { scene with rows, inserted := own.record.id :: scene.inserted } other := by
    intro other apart
    refine ⟨fun row member isId => ?_, fun row member _ => .inl ((isRow row).mpr (.inl member)),
      fun _ => .inl rfl, fun isIn => (mem_cons.mp isIn).resolve_left apart⟩
    rcases (isRow row).mp member with old | rfl
    · exact old
    · exact absurd isId.symm apart
  obtain ⟨acknowledged, undone, accepted⟩ :=
    sound.answers grows (fun answered member => spares _ (fresh answered member)) rfl
  refine ⟨grows, spares, sound.ids, ?_, ?_, ?_, ?_, ?_, acknowledged, undone, accepted⟩
  · exact forall_mem_cons.mpr ⟨isMinted, sound.minted⟩
  · intro row member
    rcases (isRow row).mp member with old | rfl
    · exact ⟨.tail _ (sound.rows row old).1, (sound.rows row old).2⟩
    · exact ⟨.head _, own, rfl⟩
  · intro row member other otherMem sameSource sameExternal
    rcases (isRow row).mp member with old | rfl
    · rcases (isRow other).mp otherMem with otherOld | rfl
      · exact sound.sole row old other otherOld sameSource sameExternal
      · exact absurd ⟨sameSource, sameExternal⟩ (noConflict row old)
    · rcases (isRow other).mp otherMem with otherOld | rfl
      · exact absurd ⟨sameSource.symm, sameExternal.symm⟩ (noConflict other otherOld)
      · rfl
  · intro key body stored
    obtain ⟨source, id, isIn, isKey⟩ := sound.raw key body stored
    exact ⟨source, id, .tail _ isIn, isKey⟩
  · intro publication member
    obtain ⟨isIn, published, rest⟩ := sound.published publication member
    refine ⟨.tail _ isIn, published.mono grows, fun row rowMem isId => ?_⟩
    rcases (isRow row).mp rowMem with old | rfl
    · exact rest row old isId
    · have sameId : own.id = publication.envelope.id := isId
      exact absurd (sameId ▸ isIn) isNew

/-- An object is put under the key of a call whose row is there. -/
theorem Scene.Sound.setRaw {key : String} {value : Option Body}
    (spares : ∀ answered ∈ scene.answered,
      scene.Spares { scene with raw := update scene.raw key value } answered.id)
    (isKey : value ≠ none → ∃ source, ∃ id ∈ scene.inserted, key = rawKey source id)
    (unread : value = none → ∀ row ∈ scene.rows, ∀ source, rawKey source row.id ≠ key) :
    scene.Grows { scene with raw := update scene.raw key value } ∧
      Scene.Sound deps { scene with raw := update scene.raw key value } := by
  have grows : scene.Grows { scene with raw := update scene.raw key value } :=
    { Scene.Grows.refl scene with }
  obtain ⟨acknowledged, undone, accepted⟩ := sound.answers grows spares rfl
  refine ⟨grows, sound.ids, sound.minted, sound.rows, sound.sole, ?_, ?_, acknowledged, undone,
    accepted⟩
  · intro other body stored
    by_cases same : other = key
    · subst same
      have isBody : value = some body := (update_self other value scene.raw).symm.trans stored
      exact isKey (by rw [isBody]; exact nofun)
    · exact sound.raw other body ((update_of_ne same ..).symm.trans stored)
  · intro publication member
    obtain ⟨isIn, published, rest⟩ := sound.published publication member
    refine ⟨isIn, published.mono grows, fun row rowMem isId => ?_⟩
    obtain ⟨sameSource, sameExternal, readable⟩ := rest row rowMem isId
    refine ⟨sameSource, sameExternal, fun other isOther => ?_⟩
    obtain ⟨⟨source, ofRow⟩, stored, isStored⟩ := readable other isOther
    refine ⟨⟨source, ofRow⟩, ?_⟩
    by_cases same : other = key
    · obtain ⟨body, isBody⟩ := Option.ne_none_iff_exists'.mp fun isNone =>
        unread isNone row rowMem source (ofRow.symm.trans same)
      exact ⟨body, by rw [same]; exact (update_self ..).trans isBody⟩
    · exact ⟨stored, (update_of_ne same ..).trans isStored⟩

theorem Scene.Sound.rawPut {own : Own} (isRow : own.record ∈ scene.rows)
    (fresh : ∀ answered ∈ scene.answered, answered.id ≠ own.id) (body : Body) :
    scene.Moves deps (scene.rawPut own.key body) own.id := by
  have spares : ∀ other, other ≠ own.id → scene.Spares (scene.rawPut own.key body) other := by
    intro other apart
    refine { Scene.Spares.refl scene other with raw := fun source => .inl ?_ }
    exact update_of_ne (fun same => apart (rawKey_injective same)) ..
  obtain ⟨grows, isSound⟩ := sound.setRaw (fun answered member => spares _ (fresh answered member))
    (fun _ => ⟨own.req.source, own.id, (sound.rows own.record isRow).1, rfl⟩) nofun
  exact ⟨grows, spares, isSound⟩

theorem Scene.Sound.rawDelete {source : WebhookSource} {id : String}
    (noRow : ∀ row ∈ scene.rows, row.id ≠ id) :
    (∀ other, scene.Spares (scene.rawDelete (rawKey source id)) other) ∧
      scene.Moves deps (scene.rawDelete (rawKey source id)) id := by
  have spares : ∀ other, scene.Spares (scene.rawDelete (rawKey source id)) other := by
    intro other
    refine { Scene.Spares.refl scene other with raw := fun its => ?_ }
    by_cases same : rawKey its other = rawKey source id
    · refine .inr ⟨by rw [same]; exact update_self .., ?_⟩
      rw [rawKey_injective same]
      exact noRow
    · exact .inl (update_of_ne same ..)
  obtain ⟨grows, isSound⟩ := sound.setRaw (fun answered _ => spares answered.id)
    (fun isSome => absurd rfl isSome)
    fun _ row rowMem _ same => noRow row rowMem (rawKey_injective same)
  exact ⟨spares, grows, fun other _ => spares other, isSound⟩

theorem Scene.Sound.send {own : Own} {stage : Stage} {payload : Option String}
    (holds : scene.holds deps (.held own stage)) (publishes : own.Publishes deps payload stage) :
    scene.Moves deps (scene.send (envelopeOf own.req own.id own.receivedAt payload)) own.id ∧
      (scene.send (envelopeOf own.req own.id own.receivedAt payload)).Published deps own.req.source
        own.req.externalId := by
  obtain ⟨isRow, delivered, -, stored⟩ := holds
  have grows : scene.Grows (scene.send (envelopeOf own.req own.id own.receivedAt payload)) :=
    { Scene.Grows.refl scene with published := subset_cons_self _ _ }
  have spares : ∀ other, scene.Spares
      (scene.send (envelopeOf own.req own.id own.receivedAt payload)) other :=
    fun other => { Scene.Spares.refl scene other with }
  have raw : ∀ key, r2KeyOf own.req own.id = some key →
      key = own.key ∧ scene.raw own.key = some own.req.rawBytes := by
    intro key isKey
    rcases own.r2KeyOf_eq with offloads | noKey
    · have sameKey : key = own.key := Option.some.inj (isKey.symm.trans offloads)
      cases stage with
      | fresh => exact absurd (offloads.symm.trans publishes.1) nofun
      | stored => exact ⟨sameKey, stored rfl⟩
      | failed => exact publishes.elim
    · exact absurd (isKey.symm.trans noKey) nofun
  have carries : (⟨envelopeOf own.req own.id own.receivedAt payload,
      (r2KeyOf own.req own.id).bind scene.raw⟩ : Publication).Carries deps own.req.rawBytes := by
    unfold Publication.Carries
    cases isKey : r2KeyOf own.req own.id with
    | none =>
      cases stage with
      | fresh => simpa [envelopeOf, isKey] using publishes.2
      | stored => exact absurd (isKey.symm.trans publishes) nofun
      | failed => exact publishes.elim
    | some key =>
      obtain ⟨rfl, isStored⟩ := raw key isKey
      simpa [envelopeOf, isKey] using isStored
  have published : (scene.send (envelopeOf own.req own.id own.receivedAt payload)).Published deps
      own.req.source own.req.externalId :=
    ⟨_, .head _, rfl, rfl, own.req, delivered, rfl, rfl, carries⟩
  obtain ⟨acknowledged, undone, accepted⟩ := sound.answers grows (fun answered _ => spares _) rfl
  refine ⟨⟨grows, fun other _ => spares other, sound.ids, sound.minted, sound.rows, sound.sole,
    sound.raw, ?_, acknowledged, undone, accepted⟩, published⟩
  intro publication member
  rcases mem_cons.mp member with rfl | old
  · refine ⟨(sound.rows own.record isRow).1, published, fun row rowMem isId => ?_⟩
    obtain rfl := eq_of_key_eq rowMem isRow isId
    refine ⟨rfl, rfl, fun key isKey => ?_⟩
    obtain ⟨rfl, isStored⟩ := raw key isKey
    exact ⟨⟨own.req.source, rfl⟩, own.req.rawBytes, isStored⟩
  · obtain ⟨isIn, isPublished, rest⟩ := sound.published publication old
    exact ⟨isIn, isPublished.mono grows, rest⟩

theorem Scene.Sound.shrink (rows : KeyedTable DeliveryRecord.id) (cutoffs : List String)
    (isOld : ∀ row ∈ rows, row ∈ scene.rows) (grows : scene.cutoffs ⊆ cutoffs)
    (retains : ∀ answered ∈ scene.answered, ∀ row ∈ scene.rows, row.id = answered.id →
      ({ scene with rows, cutoffs } : Scene).Retains row) :
    scene.Grows { scene with rows, cutoffs } ∧ Scene.Sound deps { scene with rows, cutoffs } := by
  have isGrown : scene.Grows { scene with rows, cutoffs } :=
    { Scene.Grows.refl scene with cutoffs := grows, rows := fun row member => .inl (isOld row member) }
  obtain ⟨acknowledged, undone, accepted⟩ := sound.answers isGrown (fun answered member => ⟨fun row rowMem _ => isOld row rowMem,
      retains answered member, fun _ => .inl rfl, fun isIn => isIn⟩) rfl
  refine ⟨isGrown, sound.ids, sound.minted, fun row member => sound.rows row (isOld row member), ?_,
    sound.raw, ?_, acknowledged, undone, accepted⟩
  · exact fun row member other otherMem => sound.sole row (isOld row member) other (isOld other otherMem)
  · intro publication member
    obtain ⟨isIn, published, rest⟩ := sound.published publication member
    exact ⟨isIn, published.mono isGrown, fun row rowMem => rest row (isOld row rowMem)⟩

theorem Scene.Sound.deleteById {id : String}
    (fresh : ∀ answered ∈ scene.answered, answered.id ≠ id) :
    scene.Moves deps (scene.deleteById id) id ∧ ∀ row ∈ (scene.deleteById id).rows, row.id ≠ id := by
  have isRow : ∀ row, row ∈ (scene.deleteById id).rows ↔ row ∈ scene.rows ∧ row.id ≠ id := by
    intro row
    simp [Scene.deleteById, mem_deleteWhere]
  have keeps : ∀ row ∈ scene.rows, row.id ≠ id → (scene.deleteById id).Retains row :=
    fun row member apart => .inl ((isRow row).mpr ⟨member, apart⟩)
  obtain ⟨grows, isSound⟩ := sound.shrink (scene.deleteById id).rows scene.cutoffs
    (fun row member => ((isRow row).mp member).1) (List.Subset.refl scene.cutoffs)
    fun answered member row rowMem isId => keeps row rowMem (isId ▸ fresh answered member)
  refine ⟨⟨grows, fun other apart => ⟨fun row member _ => ((isRow row).mp member).1,
    fun row member isId => keeps row member (isId ▸ apart), fun _ => .inl rfl, fun isIn => isIn⟩,
    isSound⟩, fun row member => ((isRow row).mp member).2⟩

theorem Scene.Sound.purge (cutoffIso : String) :
    scene.Grows (scene.purge cutoffIso) ∧ (∀ id, scene.Spares (scene.purge cutoffIso) id) ∧
      (scene.purge cutoffIso).Sound deps ∧
      ∀ row, row ∈ (scene.purge cutoffIso).rows ↔
        row ∈ scene.rows ∧ ¬row.receivedAt < cutoffIso := by
  have isRow : ∀ row, row ∈ (scene.purge cutoffIso).rows ↔
      row ∈ scene.rows ∧ ¬row.receivedAt < cutoffIso := by
    intro row
    simp [Scene.purge, mem_deleteWhere]
  have keeps : ∀ row ∈ scene.rows, (scene.purge cutoffIso).Retains row := by
    intro row member
    by_cases older : row.receivedAt < cutoffIso
    · exact .inr ⟨cutoffIso, .head _, older⟩
    · exact .inl ((isRow row).mpr ⟨member, older⟩)
  obtain ⟨grows, isSound⟩ := sound.shrink (scene.purge cutoffIso).rows
    (cutoffIso :: scene.cutoffs) (fun row member => ((isRow row).mp member).1)
    (subset_cons_self _ _) fun answered _ row member _ => keeps row member
  exact ⟨grows, fun id => { Scene.Spares.refl scene id with
      shrinks := fun row member _ => ((isRow row).mp member).1
      retains := fun row member _ => keeps row member }, isSound, isRow⟩

theorem Scene.Sound.respond {answered : Answered}
    (acknowledged : ∀ ack, answered.outcome = .ok ack →
      scene.Published deps answered.req.source answered.req.externalId)
    (undone : ∀ thrown, answered.outcome = .error thrown →
      scene.Clear answered.req.source answered.id)
    (accepted : ∀ deliveryId, answered.outcome = .ok ⟨deliveryId, true⟩ →
      scene.Retains (recordOf answered.req answered.id answered.receivedAt)) :
    scene.Moves deps (scene.respond answered) answered.id := by
  have grows : scene.Grows (scene.respond answered) := { Scene.Grows.refl scene with }
  refine ⟨grows, fun other _ => { Scene.Spares.refl scene other with }, sound.ids, sound.minted,
    sound.rows, sound.sole, sound.raw, sound.published, ?_, ?_, ?_⟩
  · exact forall_mem_cons.mpr ⟨acknowledged, sound.acknowledged⟩
  · exact forall_mem_cons.mpr ⟨undone, sound.undone⟩
  · exact forall_mem_cons.mpr ⟨accepted, sound.accepted⟩

end

variable {α : Type} {world moved : World} {effect : Scene → α × Scene}

/-- A request that may fail is carried out, or is refused. -/
theorem World.fated_scene {answer : Except Thrown α}
    (met : world.fated effect = (answer, moved)) : moved.toScene = (effect world.toScene).2 ∨
      ∃ thrown, world.fates 0 = .refused thrown ∧ moved.toScene = world.toScene := by
  unfold World.fated at met
  cases isFate : world.fates 0 <;> rw [isFate] at met <;> cases met
  case refused thrown => exact .inr ⟨thrown, rfl, rfl⟩
  all_goals exact .inl rfl

theorem World.fated_ok {value : α} (met : world.fated effect = (.ok value, moved)) :
    (effect world.toScene).1 = value ∧ moved.toScene = (effect world.toScene).2 := by
  unfold World.fated at met
  cases isFate : world.fates 0 <;> rw [isFate] at met <;> obtain ⟨isOk, rfl⟩ := Prod.mk.inj met
  case carriedOut => exact ⟨Except.ok.inj isOk, rfl⟩
  all_goals cases isOk

theorem World.fated_error {thrown : Thrown} (met : world.fated effect = (.error thrown, moved)) :
    (world.fates 0 = .unanswered thrown ∧ moved.toScene = (effect world.toScene).2) ∨
      moved.toScene = world.toScene := by
  unfold World.fated at met
  cases isFate : world.fates 0 <;> rw [isFate] at met <;> obtain ⟨isError, rfl⟩ := Prod.mk.inj met
  case carriedOut => cases isError
  case unanswered => exact .inl ⟨congrArg Fate.unanswered (Except.error.inj isError), rfl⟩
  case refused => exact .inr rfl

def Scene.idsInUse (scene : Scene) (phases : List Phase) : List String :=
  scene.answered.map Answered.id ++ phases.filterMap Phase.id?

/-- The scene is sound, what each operation relies on holds, and no two have the same id. -/
structure Scene.Inv (deps : IngestDeps) (scene : Scene) (phases : List Phase) : Prop where
  sound : scene.Sound deps
  holds : ∀ phase ∈ phases, scene.holds deps phase
  nodup : (scene.idsInUse phases).Nodup
  minted : ∀ id ∈ scene.idsInUse phases, scene.isMinted id

variable {before after : Scene} {phase next : Phase} {phases : List Phase} {id : String}

theorem Scene.Inv.perm {reordered : List Phase} (same : phases.Perm reordered)
    (inv : scene.Inv deps phases) : scene.Inv deps reordered where
  sound := inv.sound
  holds phase member := inv.holds phase (same.mem_iff.mpr member)
  nodup := ((same.filterMap _).append_left _).nodup_iff.mp inv.nodup
  minted id member := inv.minted id (((same.filterMap _).append_left _).mem_iff.mpr member)

section

variable (inv : before.Inv deps (phase :: phases))
include inv

/-- The ids of the others are not that of the call at hand. -/
theorem Scene.Inv.apart (isId : phase.id? = some id) :
    (∀ answered ∈ before.answered, answered.id ≠ id) ∧
      ∀ other ∈ phases, ∀ otherId ∈ other.id?, otherId ≠ id := by
  have nodup := inv.nodup
  rw [Scene.idsInUse, filterMap_cons_some isId] at nodup
  obtain ⟨-, tail, disjoint⟩ := nodup_append.mp nodup
  constructor
  · intro answered member
    exact disjoint _ (mem_map_of_mem member) _ (.head _)
  · rintro other member otherId isOther rfl
    exact (nodup_cons.mp tail).1 (mem_filterMap.mpr ⟨other, member, isOther⟩)

/-- What the others rely on stays, and the operation at hand goes on. -/
theorem Scene.Inv.move (grows : before.Grows after)
    (spares : ∀ other ∈ phases, ∀ otherId ∈ other.id?, before.Spares after otherId)
    (stays : ∀ own stage, .held own stage ∈ phases → own.record ∈ after.rows)
    (sound : after.Sound deps) (holds : after.holds deps next)
    (sameIds : (after.idsInUse (next :: phases)).Perm (before.idsInUse (phase :: phases)))
    (isMinted : ∀ id, before.isMinted id → after.isMinted id) :
    after.Inv deps (next :: phases) where
  sound := sound
  holds := by
    intro other member
    rcases mem_cons.mp member with rfl | member
    · exact holds
    · apply (inv.holds other (.tail _ member)).mono grows (spares other member)
      rintro own stage rfl
      exact stays own stage member
  nodup := sameIds.nodup_iff.mpr inv.nodup
  minted other member := isMinted other (inv.minted other (sameIds.mem_iff.mp member))

theorem Scene.Inv.heldRow {own : Own} {stage : Stage} (member : .held own stage ∈ phases) :
    own.record ∈ before.rows :=
  (inv.holds _ (.tail _ member)).1

theorem Scene.Inv.goesOn (isId : phase.id? = some id) (sameId : next.id? = some id)
    (moves : before.Moves deps after id) (sameAnswers : after.answered = before.answered)
    (isMinted : ∀ id, before.isMinted id → after.isMinted id)
    (stays : ∀ row ∈ before.rows, row.id ≠ id → row ∈ after.rows) (holds : after.holds deps next) :
    after.Inv deps (next :: phases) := by
  have apart := (inv.apart isId).2
  apply inv.move moves.grows _ _ moves.sound holds _ isMinted
  · exact fun other member otherId isOther => moves.spares otherId (apart other member otherId isOther)
  · exact fun own stage member => stays _ (inv.heldRow member) (apart _ member own.id rfl)
  · rw [Scene.idsInUse, Scene.idsInUse, sameAnswers, filterMap_cons_some isId,
      filterMap_cons_some sameId]

theorem Scene.Inv.rests (sameId : next.id? = phase.id?) (holds : before.holds deps next) :
    before.Inv deps (next :: phases) := by
  apply inv.move (.refl before) (fun _ _ _ _ => .refl before _) _ inv.sound holds _ fun _ isMinted =>
    isMinted
  · exact fun own stage member => inv.heldRow member
  · simp [Scene.idsInUse, filterMap_cons, sameId]

/-- What is known without an operation that ends or stops. -/
theorem Scene.Inv.drop : before.Inv deps phases where
  sound := inv.sound
  holds other member := inv.holds other (.tail _ member)
  nodup := inv.nodup.sublist (((sublist_cons_self phase phases).filterMap _).append_left _)
  minted other member := inv.minted other
    ((((sublist_cons_self phase phases).filterMap _).append_left _).subset member)

end

theorem Scene.Inv.add (inv : before.Inv deps phases) (noId : next.id? = none)
    (holds : before.holds deps next) : before.Inv deps (next :: phases) where
  sound := inv.sound
  holds := by
    exact forall_mem_cons.mpr ⟨holds, inv.holds⟩
  nodup := by
    rw [Scene.idsInUse, filterMap_cons_none noId]
    exact inv.nodup
  minted := by
    rw [Scene.idsInUse, filterMap_cons_none noId]
    exact inv.minted

theorem Scene.Inv.responds (inv : before.Inv deps (phase :: phases)) {answered : Answered}
    (isId : phase.id? = some answered.id)
    (moves : before.Moves deps (before.respond answered) answered.id) :
    (before.respond answered).Inv deps (.ended :: phases) := by
  have apart := (inv.apart isId).2
  have nothing : (before.respond answered).holds deps .ended := trivial
  apply inv.move moves.grows _ _ moves.sound nothing _ fun _ isMinted => isMinted
  · exact fun other member otherId isOther => moves.spares otherId (apart other member otherId isOther)
  · exact fun own stage member => inv.heldRow member
  · rw [Scene.idsInUse, Scene.idsInUse, filterMap_cons_some isId, filterMap_cons_none rfl]
    exact perm_middle.symm

theorem Scene.Inv.mints {req : VerifiedRequest} (inv : before.Inv deps (.minting req :: phases)) :
    (before.mint req).2.Inv deps (.stamping req (before.mint req).1 :: phases) := by
  have notMinted : ¬before.isMinted (before.mint req).1 := by
    rintro ⟨k, less, sameId⟩
    exact absurd (inv.sound.ids sameId) (Nat.ne_of_lt less)
  have isMinted : ∀ id, before.isMinted id → (before.mint req).2.isMinted id := by
    rintro id ⟨k, less, isId⟩
    exact ⟨k, Nat.lt_succ_of_lt less, isId⟩
  obtain ⟨grows, spares, sound⟩ := inv.sound.mint req (before.mint req).1
  have isNew : (before.mint req).1 ∉ before.inserted :=
    fun isIn => notMinted (inv.sound.minted _ isIn)
  have unused : (before.mint req).1 ∉ before.idsInUse phases := fun member =>
    notMinted (inv.drop.minted _ member)
  have sameIds : ((before.mint req).2.idsInUse (.stamping req (before.mint req).1 :: phases)).Perm
        ((before.mint req).1 :: before.idsInUse phases) := by
    have isId : (Phase.stamping req (before.mint req).1).id? = some (before.mint req).1 := rfl
    rw [Scene.idsInUse, filterMap_cons_some isId]
    exact perm_middle
  refine ⟨sound, ?_, ?_, ?_⟩
  · intro other member
    rcases mem_cons.mp member with rfl | member
    · exact ⟨isNew, .head _⟩
    · apply (inv.drop.holds other member).mono grows
      · intro otherId isOther
        apply spares
        rintro rfl
        exact unused (mem_append_right _ (mem_filterMap.mpr ⟨other, member, isOther⟩))
      · rintro own stage rfl
        exact inv.heldRow member
  · exact sameIds.nodup_iff.mpr (nodup_cons.mpr ⟨unused, inv.drop.nodup⟩)
  · intro id member
    rcases mem_cons.mp (sameIds.mem_iff.mp member) with rfl | old
    · exact ⟨before.minted, Nat.lt_succ_self _, rfl⟩
    · exact isMinted id (inv.drop.minted id old)

variable {own : Own} {thrown : Thrown}

theorem Scene.Inv.inserts (inv : scene.Inv deps (.inserting own :: phases))
    (inserted : (scene.insert own.record).1 = true) :
    (scene.insert own.record).2.Inv deps (.held own .fresh :: phases) := by
  obtain ⟨isNew, delivered⟩ := inv.holds _ (.head _)
  have isMinted : scene.isMinted own.id :=
    inv.minted _ (mem_append_right _ (mem_filterMap.mpr ⟨_, .head _, rfl⟩))
  have moves := inv.sound.insert isMinted isNew (inv.apart rfl).1 inserted
  have noObject := (inv.sound.notInserted isNew).2 own.req.source
  obtain ⟨-, isRow, rows, isAfter⟩ := Scene.insert_true inserted
  generalize (scene.insert own.record).2 = after at *
  subst isAfter
  apply inv.goesOn rfl rfl moves rfl (fun _ isMinted => isMinted)
  · exact fun row member _ => (isRow row).mpr (.inl member)
  · exact ⟨(isRow _).mpr (.inr rfl), delivered, fun _ => noObject, nofun⟩

theorem Scene.Inv.fails (inv : scene.Inv deps (phase :: phases)) (isId : phase.id? = some own.id)
    (isNew : own.id ∉ scene.inserted) :
    scene.Inv deps (.answering (own.answer (.error thrown)) :: phases) := by
  obtain ⟨noRow, noObject⟩ := inv.sound.notInserted isNew
  apply inv.rests
  · exact isId.symm
  · exact ⟨noRow, noObject _⟩

theorem Scene.Inv.meets (inv : scene.Inv deps (.inserting own :: phases))
    (ignored : (scene.insert own.record).1 = false)
    (isPublished : ∀ row ∈ scene.rows, row.source = own.record.source →
      row.externalId = own.record.externalId →
        ∃ publication ∈ scene.published, publication.envelope.id = row.id) :
    scene.Inv deps (.refused own :: phases) := by
  obtain ⟨isNew, -⟩ := inv.holds _ (.head _)
  apply inv.rests
  · rfl
  refine ⟨isNew, ?_⟩
  obtain ⟨-, row, rowMem, ⟨sameSource, sameExternal⟩ | sameId⟩ := Scene.insert_false ignored
  · obtain ⟨publication, member, isId⟩ := isPublished row rowMem sameSource sameExternal
    obtain ⟨-, published, rest⟩ := inv.sound.published publication member
    obtain ⟨isSource, isExternal, -⟩ := rest row rowMem isId.symm
    rw [← isSource, ← isExternal, sameSource, sameExternal] at published
    exact published
  · exact absurd sameId ((inv.sound.notInserted isNew).1 row rowMem)

theorem Scene.Inv.stores {stage : Stage} (inv : scene.Inv deps (.held own .fresh :: phases))
    (offloads : own.offloads) :
    (scene.rawPut own.key own.req.rawBytes).Inv deps (.held own stage :: phases) := by
  obtain ⟨isRow, delivered, -⟩ := inv.holds _ (.head _)
  apply inv.goesOn rfl rfl (inv.sound.rawPut isRow (inv.apart rfl).1 own.req.rawBytes) rfl
    (fun _ isMinted => isMinted) (fun row member _ => member)
  refine ⟨isRow, delivered, fun noKey => absurd (offloads.symm.trans noKey) nofun, fun _ => ?_⟩
  exact update_self ..

section

variable {stage : Stage} (inv : scene.Inv deps (.held own stage :: phases))
include inv

theorem Scene.Inv.gives : scene.Inv deps (.held own .failed :: phases) := by
  obtain ⟨isRow, delivered, noObject, -⟩ := inv.holds _ (.head _)
  exact inv.rests rfl ⟨isRow, delivered, noObject, nofun⟩

theorem Scene.Inv.sends {payload : Option String} (publishes : own.Publishes deps payload stage) :
    (scene.send (envelopeOf own.req own.id own.receivedAt payload)).Inv deps (.sent own :: phases) ∧
      (scene.send (envelopeOf own.req own.id own.receivedAt payload)).Inv deps
        (.held own .failed :: phases) := by
  have holds := inv.holds _ (.head _)
  obtain ⟨moves, published⟩ := inv.sound.send holds publishes
  obtain ⟨isRow, delivered, noObject, -⟩ := holds
  constructor
  · exact inv.goesOn rfl rfl moves rfl (fun _ isMinted => isMinted) (fun row member _ => member)
      ⟨published, .inl isRow⟩
  · exact inv.goesOn rfl rfl moves rfl (fun _ isMinted => isMinted) (fun row member _ => member)
      ⟨isRow, delivered, noObject, nofun⟩

theorem Scene.Inv.undoes : (scene.deleteById own.id).Inv deps (.cleared own :: phases) := by
  obtain ⟨isRow, -, noObject, -⟩ := inv.holds _ (.head _)
  obtain ⟨moves, noRow⟩ := inv.sound.deleteById (inv.apart rfl).1
  apply inv.goesOn rfl rfl moves rfl (fun _ isMinted => isMinted)
  · intro row member apart
    exact mem_deleteWhere.mpr ⟨member, by simpa using apart⟩
  · exact ⟨⟨(inv.sound.rows own.record isRow).1, noRow⟩, noObject⟩

end

theorem Scene.Inv.erases (inv : scene.Inv deps (.cleared own :: phases)) :
    (scene.rawDelete own.key).Inv deps (.answering (own.answer (.error thrown)) :: phases) := by
  obtain ⟨⟨-, noRow⟩, -⟩ := inv.holds _ (.head _)
  apply inv.goesOn rfl rfl (inv.sound.rawDelete noRow).2 rfl (fun _ isMinted => isMinted)
    (fun row member _ => member)
  exact ⟨noRow, update_self ..⟩

theorem Scene.Inv.answersFailed (inv : scene.Inv deps (.cleared own :: phases))
    (noKey : r2KeyOf own.req own.id = none) :
    (scene.respond (own.answer (.error thrown))).Inv deps (.ended :: phases) := by
  obtain ⟨⟨-, noRow⟩, noObject⟩ := inv.holds _ (.head _)
  apply inv.responds rfl
  apply inv.sound.respond
  · intro ack isOk
    cases isOk
  · exact fun _ _ => ⟨noRow, noObject noKey⟩
  · intro deliveryId isOk
    cases isOk

theorem Scene.Inv.answersSent (inv : scene.Inv deps (.sent own :: phases)) :
    (scene.respond (own.answer (.ok ⟨own.id, true⟩))).Inv deps (.ended :: phases) := by
  obtain ⟨published, retains⟩ := inv.holds _ (.head _)
  apply inv.responds rfl
  apply inv.sound.respond
  · exact fun _ _ => published
  · intro thrown isError
    cases isError
  · exact fun _ _ => retains

theorem Scene.Inv.answers {answered : Answered}
    (inv : scene.Inv deps (.answering answered :: phases)) :
    (scene.respond answered).Inv deps (.ended :: phases) := by
  have earns := inv.holds _ (.head _)
  obtain ⟨req, id, receivedAt, outcome⟩ := answered
  apply inv.responds rfl
  cases outcome with
  | ok ack =>
    obtain ⟨notAccepted, published⟩ := earns
    apply inv.sound.respond
    · exact fun _ _ => published
    · intro thrown isError
      cases isError
    · intro deliveryId isAccepted
      cases isAccepted
      cases notAccepted
  | error thrown =>
    apply inv.sound.respond
    · intro ack isOk
      cases isOk
    · exact fun _ _ => earns
    · intro deliveryId isOk
      cases isOk

theorem Scene.Inv.selects (inv : scene.Inv deps (.selecting :: phases)) (cutoffIso : String) :
    scene.Inv deps (.purging cutoffIso (scene.selectPurged cutoffIso) :: phases) := by
  apply inv.rests
  · rfl
  intro selected member
  obtain ⟨row, rowMem, rfl⟩ := List.mem_map.mp member
  obtain ⟨stored, older⟩ := mem_filter.mp rowMem
  obtain ⟨isIn, own, isOwn⟩ := inv.sound.rows row stored
  refine ⟨isIn, fun key isKey => ?_, fun other otherMem sameId => ?_⟩
  · subst isOwn
    rcases own.r2KeyOf_eq with offloads | noKey
    · exact ⟨own.req.source, Option.some.inj (isKey.symm.trans offloads)⟩
    · exact absurd (isKey.symm.trans noKey) nofun
  · obtain rfl := eq_of_key_eq otherMem stored sameId
    exact of_decide_eq_true older

theorem Scene.Inv.purges {cutoffIso : String} {rows : List (String × Option String)}
    (inv : scene.Inv deps (.purging cutoffIso rows :: phases))
    (spared : ∀ own stage, .held own stage ∈ phases → ¬own.receivedAt < cutoffIso) :
    (scene.purge cutoffIso).Inv deps (.erasing (rows.filterMap Prod.snd) :: phases) := by
  obtain ⟨grows, spares, sound, isRow⟩ := inv.sound.purge cutoffIso
  have holds : (scene.purge cutoffIso).holds deps (.erasing (rows.filterMap Prod.snd)) := by
    intro key member
    obtain ⟨selected, selectedMem, isKey⟩ := mem_filterMap.mp member
    obtain ⟨isIn, ofId, older⟩ := inv.holds _ (.head _) selected selectedMem
    obtain ⟨source, sameKey⟩ := ofId key isKey
    refine ⟨source, selected.1, sameKey, isIn, fun row rowMem isId => ?_⟩
    obtain ⟨stored, notOlder⟩ := (isRow row).mp rowMem
    exact notOlder (older row stored isId)
  apply inv.move grows (fun _ _ otherId _ => spares otherId) _ sound holds (.refl _)
    fun _ isMinted => isMinted
  exact fun own stage member => (isRow _).mpr ⟨inv.heldRow member, spared own stage member⟩

theorem Scene.Inv.deletes {key : String} {keys : List String}
    (inv : scene.Inv deps (.erasing (key :: keys) :: phases)) :
    (scene.rawDelete key).Inv deps (.erasing keys :: phases) ∧
      scene.Inv deps (.erasing keys :: phases) := by
  have holds := inv.holds _ (.head _)
  obtain ⟨source, id, rfl, -, noRow⟩ := holds key (.head _)
  obtain ⟨spares, moves⟩ := @Scene.Sound.rawDelete _ _ inv.sound source id noRow
  have rest : scene.holds deps (.erasing keys) := fun other member =>
    holds other (.tail _ member)
  constructor
  · apply inv.move moves.grows (fun _ _ otherId _ => spares otherId) _ moves.sound
      (Scene.holds.mono rest moves.grows nofun nofun) (.refl _) fun _ isMinted => isMinted
    exact fun own stage member => inv.heldRow member
  · exact inv.rests rfl rest

/-- A call whose row is there has not settled. -/
theorem isUnsettled_of_held {program : Prog ingestSignature Unit}
    (follows : (ingestProtocol deps).Follows (.held own stage) program) :
    isUnsettled own.id program := by
  have answered : ∀ request, ∃ answer, (ingestProtocol deps).possible request answer :=
    fun request => ⟨.error (.other ""), trivial⟩
  apply @Protocol.Follows.mayReach _ _ _ _ _ _ _ (fun phase => ∃ stage, phase = .held own stage) _
    follows ⟨stage, rfl⟩ _ answered
  · rintro _ request answer after ⟨stage, rfl⟩ _ leads
    cases leads with
    | stores offloads | storeFails offloads => exact .inr ⟨id, _, rfl⟩
    | sends publishes | sendFails publishes | undoes => exact .inl rfl
    | fails isEarly => cases isEarly
  · rintro _ ⟨stage, rfl⟩ (isEnded | isErased)
    · cases isEnded
    · cases isErased

theorem leads_inv {request : Call}
    {answer : Except Thrown (Call.Result request)} {others : List (Operation × Prog ingestSignature Unit)}
    (tracks : (ingestProtocol deps).Tracks others phases)
    (permitted : meetsPublished.mayCall request world others)
    (answers : (webhookIngest deps).toMachine.Answers request world answer moved)
    (leads : Leads deps phase request answer next)
    (inv : world.toScene.Inv deps (phase :: phases)) : moved.toScene.Inv deps (next :: phases) := by
  have spared : ∀ {cutoffIso}, meetsPublished.mayCall (.purge cutoffIso) world others →
      ∀ own stage, .held own stage ∈ phases → ¬own.receivedAt < cutoffIso := by
    intro cutoffIso permitted own stage member older
    obtain ⟨thread, threadMem, follows⟩ := tracks.exists_of_mem member
    exact permitted _ (inv.heldRow member) older thread threadMem (isUnsettled_of_held follows)
  cases leads with
  | fails isEarly isSure =>
    cases request with
    | mint req | now | respond answered | dateNow => cases (Prod.mk.inj answers).1
    | _ => exact isSure.elim
  | mints =>
    obtain ⟨isId, rfl⟩ := Prod.mk.inj answers
    cases isId
    exact inv.mints
  | stamps =>
    cases answers
    have holds := inv.holds _ (.head _)
    apply inv.rests
    · rfl
    · exact holds
  | inserts =>
    obtain ⟨inserted, isMoved⟩ := World.fated_ok answers
    rw [isMoved]
    exact inv.inserts inserted
  | meets =>
    obtain ⟨ignored, isMoved⟩ := World.fated_ok answers
    rw [isMoved, (Scene.insert_false ignored).1]
    exact inv.meets ignored permitted.1
  | insertFails =>
    have same : moved.toScene = world.toScene := by
      rcases World.fated_error answers with ⟨isFate, isMoved⟩ | isMoved
      · exact isMoved.trans (Scene.insert_false (permitted.2 _ isFate)).1
      · exact isMoved
    rw [same]
    exact inv.fails rfl (inv.holds _ (.head _)).1
  | finds =>
    rw [(World.fated_ok answers).2]
    exact inv.rests rfl ⟨rfl, (inv.holds _ (.head _)).2⟩
  | findFails =>
    rw [show moved.toScene = world.toScene from
      (World.fated_error answers).elim And.right id]
    exact inv.fails rfl (inv.holds _ (.head _)).1
  | stores offloads =>
    rw [(World.fated_ok answers).2]
    exact inv.stores offloads
  | storeFails offloads =>
    rcases World.fated_error answers with ⟨-, isMoved⟩ | isMoved <;> rw [isMoved]
    · exact inv.stores offloads
    · exact inv.gives
  | sends publishes =>
    rw [(World.fated_ok answers).2]
    exact (inv.sends publishes).1
  | sendFails publishes =>
    rcases World.fated_error answers with ⟨-, isMoved⟩ | isMoved <;> rw [isMoved]
    · exact (inv.sends publishes).2
    · exact inv.gives
  | undoes =>
    rcases World.fated_scene answers with isMoved | ⟨thrown, isFate, -⟩
    · rw [isMoved]
      exact inv.undoes
    · exact absurd rfl (permitted thrown isFate _ (inv.holds _ (.head _)).1)
  | erases =>
    rcases World.fated_scene answers with isMoved | ⟨thrown, isFate, isMoved⟩ <;> rw [isMoved]
    · exact inv.erases
    · obtain ⟨⟨-, noRow⟩, -⟩ := inv.holds _ (.head _)
      exact inv.rests rfl ⟨noRow, permitted rfl thrown isFate⟩
  | answersFailed noKey =>
    cases answers
    exact inv.answersFailed noKey
  | answersSent =>
    cases answers
    exact inv.answersSent
  | responds =>
    cases answers
    exact inv.answers
  | starts =>
    cases answers
    exact inv.rests rfl trivial
  | @selects cutoffIso =>
    obtain ⟨isOk, isMoved⟩ := World.fated_ok answers
    rw [isMoved, ← isOk]
    exact inv.selects cutoffIso
  | selectEnds =>
    have same : moved.toScene = world.toScene := by
      rcases World.fated_scene answers with isMoved | ⟨-, -, isMoved⟩ <;> exact isMoved
    rw [same]
    exact inv.rests rfl trivial
  | purges =>
    rw [(World.fated_ok answers).2]
    exact inv.purges (spared permitted)
  | @purgeFails cutoffIso =>
    have nothing : (world.purge cutoffIso).holds deps .ended := trivial
    rcases World.fated_error answers with ⟨-, isMoved⟩ | isMoved <;> rw [isMoved]
    · exact (inv.purges (spared permitted)).drop.add rfl nothing
    · exact inv.rests rfl trivial
  | deletes =>
    rcases World.fated_scene answers with isMoved | ⟨-, -, isMoved⟩ <;> rw [isMoved]
    · exact inv.deletes.1
    · exact inv.deletes.2

theorem preserves : (ingestProtocol deps).Preserves (webhookIngest deps) meetsPublished
    Operation.first fun world phases => world.toScene.Inv deps phases where
  perm same inv := inv.perm same
  start op _ _ inv := by
    cases op with
    | ingest req | cleanup retentionDays => exact inv.add rfl trivial
  call tracks permitted answers leads inv := leads_inv tracks permitted answers leads inv
  environment := by
    rintro world _ phases ⟨time, rfl⟩ inv
    refine ⟨⟨inv.sound.ids, inv.sound.minted, inv.sound.rows, inv.sound.sole, inv.sound.raw,
      inv.sound.published, inv.sound.acknowledged, inv.sound.undone, inv.sound.accepted⟩, ?_,
      inv.nodup, inv.minted⟩
    intro phase member
    apply (inv.holds phase member).mono
    · exact { Scene.Grows.refl world.toScene with }
    · exact fun id _ => ⟨fun _ member _ => member, fun _ member _ => .inl member, fun _ => .inl rfl,
        fun isIn => isIn⟩
    · rintro own stage rfl
      exact (inv.holds _ member).1
  stop _ _ inv := inv.drop

theorem governs : (ingestProtocol deps).Governs (webhookIngest deps) Operation.first where
  program op _ _ := by
    have isFollowed : Follows (ingestProtocol deps) op.first (op.action deps)
        fun _ after => (ingestProtocol deps).final after := by
      cases op with
      | ingest req => exact (ingest_follows req).mono fun _ _ isEnded => .inl isEnded
      | cleanup retentionDays => exact cleanup_follows retentionDays
    unfold Follows at isFollowed
    exact Protocol.followsTo_bind isFollowed
  possible _ := trivial

theorem Scene.IsFresh.inv (fresh : scene.IsFresh) : scene.Inv deps [] where
  sound := by
    refine ⟨fresh.ids, ?_, ?_, ?_, ?_, ?_, ?_, ?_, ?_⟩ <;>
      simp [fresh.inserted, fresh.rows, fresh.raw, fresh.published, fresh.answered]
  holds phase member := absurd member not_mem_nil
  nodup := by simp [Scene.idsInUse, fresh.answered]
  minted := by simp [Scene.idsInUse, fresh.answered]

/-- While every delivery meets none but published rows, and a call that fails can take back what it
has left, what is answered is honoured. -/
theorem keepsDeliveries_of_meetsPublished (deps : IngestDeps) :
    KeepsDeliveries deps meetsPublished := by
  intro start config fresh reached
  have reachedInv : (ingestProtocol deps).Holds
      (fun world phases => world.toScene.Inv deps phases) config :=
    preserves.reached governs reached fresh.inv
  refine ⟨?_, ?_⟩
  · obtain ⟨phases, -, inv⟩ := reachedInv
    exact inv.sound.honoured
  intro envelope answer after call answered member deliveryId isAccepted sameSource sameExternal
  cases call with
  | call op next moved permitted answers =>
    obtain ⟨phase, phases, follows, -, inv⟩ := reachedInv.front (fun same inv => inv.perm same)
    obtain ⟨later, leads, -⟩ := follows answer trivial
    have retains := inv.sound.accepted answered member deliveryId isAccepted
    suffices apart : ∃ own stage, phase = .held own stage ∧ own.req.source = envelope.source ∧
        own.req.externalId = envelope.externalId by
      obtain ⟨own, stage, rfl, ownSource, ownExternal⟩ := apart
      rcases retains with stored | purged
      · have isRow := (inv.holds _ (.head _)).1
        have same := inv.sound.sole _ stored _ isRow (sameSource.trans ownSource.symm)
          (sameExternal.trans ownExternal.symm)
        exact absurd (congrArg DeliveryRecord.id same) ((inv.apart rfl).1 answered member)
      · exact purged
    cases leads with
    | @sends own stage | @sendFails own stage => exact ⟨own, stage, rfl, rfl, rfl⟩
    | fails _ isSure => exact isSure.elim

/-- A delivery of one small body. -/
def pushed : VerifiedRequest where
  source := .github
  externalId := "delivery-1"
  eventKind := "push"
  rawBytes := [123, 125]
  headers := []
  requestId := "r"

def githubDeps : IngestDeps where
  toISOString _ := "2026-06-01T00:00:00.000Z"
  parseBody body := if body = [123, 125] then some "{}" else none
  queues source := source = .github

/-- Nothing is there, and every request is carried out. -/
def freshWorld : World where
  rows := .empty
  raw _ := none
  published := []
  time := 1780272000000
  ids k := String.ofList (List.replicate k 'x')
  minted := 0
  inserted := []
  delivered := []
  answered := []
  cutoffs := []
  fates _ := .carriedOut

theorem freshWorld_isFresh : freshWorld.toScene.IsFresh where
  rows := rfl
  raw := rfl
  published := rfl
  ids := by
    intro k other same
    have lengths := congrArg (fun text : String => text.toList.length) same
    simpa [freshWorld] using lengths
  inserted := rfl
  answered := rfl

/-- The delivery is sent again before it is published. -/
def resent : List (Move ingestSignature World Operation) :=
  [.start (.ingest pushed)] ++ List.replicate 3 (.call 0 fun _ => .error (.other "")) ++
    [.start (.ingest pushed)] ++ List.replicate 5 (.call 0 fun _ => .error (.other ""))

theorem not_keepsDeliveries : ¬KeepsDeliveries githubDeps anyStep := by
  intro keeps
  obtain ⟨config, reached, left⟩ :=
    (openReferee (webhookIngest githubDeps) fun _ _ => trivial).exists_reachable_of_play resent
      freshWorld
      (fun world => decide (world.published = [] ∧ world.answered =
        [⟨pushed, "x", "2026-06-01T00:00:00.000Z", .ok ⟨"", false⟩⟩]))
      (by simp [resent]) (by decide +kernel)
  obtain ⟨nothing, answered⟩ := of_decide_eq_true left
  obtain ⟨honoured, -⟩ := keeps freshWorld config freshWorld_isFresh (reachableUnder_anyStep reached)
  have isAnswered : (⟨pushed, "x", "2026-06-01T00:00:00.000Z", .ok ⟨"", false⟩⟩ : Answered) ∈
      config.world.answered := by
    rw [answered]
    exact mem_singleton_self _
  obtain ⟨publication, member, -⟩ := honoured.acknowledged _ isAnswered _ rfl
  rw [nothing] at member
  exact absurd member not_mem_nil

end DubEcosystem.WebhookIngest
