import Mathlib.Data.List.Dedup

/-!
# notification: what an event asks for

The mapping of domain events to notifications, the recipients that a notification reaches,
and the preferences that decide which of its channels are on for a user.
-/

namespace DubEcosystem.Notification

open List Option

inductive NotificationChannel where
  | inApp
  | email
  | chat
  | push
  deriving DecidableEq

inductive NotificationPriority where
  | normal
  | urgent
  deriving DecidableEq

inductive NotificationAudience where
  | admin
  | members
  deriving DecidableEq

inductive ReceiveAudience where
  | all
  | admin
  deriving DecidableEq

structure NotifyRecipients where
  userIds : List String := []
  roles : List String := []
  eventId : Option String := none
  audiences : List ReceiveAudience := []

inductive IngestSource where
  | queue
  | api
  deriving DecidableEq

structure IngestInput where
  type : String
  recipients : NotifyRecipients
  title : String
  body : Option String
  priority : NotificationPriority
  audience : Option NotificationAudience := none
  channels : Option (List NotificationChannel) := none
  dedupKey : Option String := none
  resourceType : Option String := none
  resourceId : Option String := none
  source : IngestSource
  sourceEvent : Option String := none
  actorId : Option String
  requestId : String

def CHANNELS : List NotificationChannel := [.inApp, .email, .chat, .push]

def BROADCAST_IN_APP_TYPES : List String := ["system.announcement", "release"]

def CHAT_MENTION_NOTIFY_TYPE : String := "chat.mention"

def CHAT_DM_NOTIFY_TYPE : String := "chat.dm"

def withInboxPush (channels : List NotificationChannel) : List NotificationChannel :=
  if .inApp ∈ channels ∧ .push ∉ channels then channels ++ [.push] else channels

def candidateChannels (input : IngestInput) : List NotificationChannel :=
  withInboxPush ((input.channels.filter fun channels => channels ≠ []).getD CHANNELS)

structure PreferenceRow where
  userId : String
  type : String
  channel : NotificationChannel
  enabled : Bool

variable (type : String)

def defaultEnabled (channel : NotificationChannel) (priority : NotificationPriority) : Bool :=
  match channel with
  | .inApp =>
    type = CHAT_MENTION_NOTIFY_TYPE || type = CHAT_DM_NOTIFY_TYPE || !type.startsWith "chat."
  | .email => priority = .urgent
  | .chat => false
  | .push => true

/-- An exact type beats every prefix, and a prefix beats the wildcard; `none` is `Infinity`. -/
def specificity (pattern : String) : Option Int :=
  if pattern = "*" then some (-1)
  else if pattern.endsWith "." then some pattern.length
  else none

/-- `first < second`. -/
def lessSpecific : Option Int → Option Int → Bool
  | none, _ => false
  | some _, none => true
  | some first, some second => decide (first < second)

def matchesType (pattern type : String) : Bool :=
  if pattern = "*" then true
  else if pattern.endsWith "." then type.startsWith pattern
  else pattern = type

/-- The most specific override that matches decides, the first one among equals. -/
def resolveEnabled (overrides : List PreferenceRow) (type : String)
    (channel : NotificationChannel) (priority : NotificationPriority) : Bool :=
  let best := overrides.foldl (fun (best : Option (Option Int × Bool)) row =>
    if row.channel ≠ channel ∨ matchesType row.type type = false then best
    else
      match best with
      | none => some (specificity row.type, row.enabled)
      | some (spec, _) =>
        if lessSpecific spec (specificity row.type) then some (specificity row.type, row.enabled)
        else best) none
  match best with
  | some (_, enabled) => enabled
  | none => defaultEnabled type channel priority

def channelEnabled (input : IngestInput) (overrides : List PreferenceRow)
    (channel : NotificationChannel) : Bool :=
  (BROADCAST_IN_APP_TYPES.contains input.type && channel = .inApp) ||
    resolveEnabled overrides input.type channel input.priority

/-- What is asked of other services, and does not change. -/
structure Directory where
  permissionHolders : String → List String
  listUserIdsByRole : String → List String
  listParticipantIds : String → List String
  listPreferenceOverrides : String → List PreferenceRow

def receiveAudiencePermission : ReceiveAudience → String
  | .all => "notif:receive_all"
  | .admin => "notif:receive_admin"

def Directory.resolve (directory : Directory) (recipients : NotifyRecipients) :
    List String :=
  (recipients.userIds ++ recipients.audiences.flatMap (fun audience =>
      directory.permissionHolders (receiveAudiencePermission audience)) ++
    recipients.roles.flatMap directory.listUserIdsByRole ++
    ((recipients.eventId.filter fun eventId => eventId ≠ "").map
      directory.listParticipantIds).getD []).reverse.dedup.reverse

/-- The recipients whose inbox the notification is to reach. -/
def Directory.inAppRecipients (directory : Directory) (input : IngestInput) : List String :=
  if .inApp ∈ candidateChannels input then
    (directory.resolve input.recipients).filter fun userId =>
      channelEnabled input (directory.listPreferenceOverrides userId) .inApp
  else []

structure Payload where
  eventId : Option String := none
  taskId : String := ""
  assigneeId : Option String := none
  status : String := ""
  dueAt : String := ""
  title : String := ""
  phase : String := ""
  actionId : String := ""
  channelId : String := ""
  messageId : String := ""
  authorId : String := ""
  mentions : Option (List String) := none
  isDm : Bool := false
  dmRecipientIds : Option (List String) := none
  kind : String := ""
  name : String := ""
  email : String := ""
  message : String := ""
  scope : String := ""
  error : String := ""
  deploymentId : String := ""
  zone : String := ""
  type : String := ""
  recipientIds : List String := []
  body : Option String := none
  deriving DecidableEq

structure DubEventEnvelope where
  id : String
  name : String
  actorId : Option String
  requestId : String
  payload : Payload
  deriving DecidableEq

structure Content where
  title : String
  body : Option String := none
  resourceType : Option String := none
  resourceId : Option String := none

structure EventMappingRule where
  type : String
  channels : List NotificationChannel
  priority : NotificationPriority
  audience : Option NotificationAudience := none
  buildRecipients : Payload → NotifyRecipients
  buildContent : Payload → Content
  buildDedupKey : Option (Payload → String) := none

def ADMINS : NotifyRecipients := { audiences := [.admin] }

def byEvent (p : Payload) : NotifyRecipients :=
  { eventId := p.eventId.filter fun eventId => eventId ≠ "" }

def eventRule (buildContent : Payload → Content) : EventMappingRule where
  type := type
  channels := [.inApp]
  priority := .normal
  buildRecipients := byEvent
  buildContent := buildContent

/-- A rule that tells the administrators. -/
def adminRule (buildContent : Payload → Content) : EventMappingRule where
  type := type
  channels := [.inApp]
  priority := .normal
  audience := some .admin
  buildRecipients _ := ADMINS
  buildContent := buildContent

def EVENT_MAPPINGS : String → Option EventMappingRule
  | "task.created" => some (eventRule "task.created" fun t =>
    { title := "New task created", resourceType := some "task", resourceId := some t.taskId })
  | "task.assigned" => some
      { type := "task.assigned"
        channels := [.inApp, .email]
        priority := .normal
        buildRecipients := fun t =>
          { userIds := (t.assigneeId.filter fun assignee => assignee ≠ "").toList }
        buildContent := fun t =>
          { title := "A task was assigned to you", resourceType := some "task"
            resourceId := some t.taskId } }
  | "task.status_changed" => some (eventRule "task.status_changed" fun t =>
    { title := "Task status: " ++ t.status, resourceType := some "task"
      resourceId := some t.taskId })
  | "task.due_soon" => some
      { type := "task.due_soon"
        channels := [.inApp, .email]
        priority := .urgent
        buildRecipients := byEvent
        buildContent := fun t =>
          { title := "Task due soon", body := some ("Due at " ++ t.dueAt)
            resourceType := some "task", resourceId := some t.taskId }
        buildDedupKey := some fun t => "task.due_soon:" ++ t.taskId }
  | "task.archived" => some (eventRule "task.archived" fun t =>
    { title := "Task archived", resourceType := some "task", resourceId := some t.taskId })
  | "event.created" => some (eventRule "event.created" fun e =>
    { title := "Event created: " ++ e.title, resourceType := some "event"
      resourceId := e.eventId })
  | "event.updated" => some (eventRule "event.updated" fun e =>
    { title := "Event updated", resourceType := some "event", resourceId := e.eventId })
  | "event.phase_changed" => some
      { eventRule "event.phase_changed" fun e =>
          { title := "Event phase: " ++ e.phase, resourceType := some "event"
            resourceId := e.eventId } with
        channels := [.inApp, .email] }
  | "event.archived" => some (eventRule "event.archived" fun e =>
    { title := "Event archived", resourceType := some "event", resourceId := e.eventId })
  | "action.created" => some (eventRule "action.created" fun a =>
    { title := "New action created", resourceType := some "action"
      resourceId := some a.actionId })
  | "action.updated" => some (eventRule "action.updated" fun a =>
    { title := "Action updated", resourceType := some "action"
      resourceId := some a.actionId })
  | "action.status_changed" => some (eventRule "action.status_changed" fun a =>
    { title := "Action status changed", resourceType := some "action"
      resourceId := some a.actionId })
  | "action.archived" => some (eventRule "action.archived" fun a =>
    { title := "Action archived", resourceType := some "action"
      resourceId := some a.actionId })
  | "chat.message.created" => some
      { type := CHAT_MENTION_NOTIFY_TYPE
        channels := [.inApp]
        priority := .normal
        buildRecipients := fun m => { userIds := m.mentions.getD [] }
        buildContent := fun m =>
          { title := "メンションされました", resourceType := some "channel"
            resourceId := some m.channelId } }
  | "public.inquiry.received" => some
      { adminRule "public.inquiry.received" fun i =>
          { title := "New inquiry: " ++ i.kind
            body := some ("From " ++ i.name ++ " <" ++ i.email ++ ">\n\n" ++ i.message)
            resourceType := some "inquiry" } with
        priority := .urgent }
  | "github.sync_failed" => some (adminRule "github.sync_failed" fun g =>
    { title := "GitHub sync failed: " ++ g.scope, body := some g.error })
  | "github.conflict_detected" => some (adminRule "github.conflict_detected" fun g =>
    { title := "GitHub conflict detected", resourceType := some "task"
      resourceId := some g.taskId })
  | "deploy.deployment.status_changed" =>
    some (adminRule "deploy.deployment.status_changed" fun d =>
      { title := "Deployment " ++ d.status, resourceType := some "deployment"
        resourceId := some d.deploymentId })
  | "deploy.dns.record_changed" => some (adminRule "deploy.dns.record_changed" fun d =>
    { title := "DNS changed: " ++ d.name, body := some ("zone " ++ d.zone) })
  | _ => none

def mappingToIngest (rule : EventMappingRule) (env : DubEventEnvelope) : IngestInput :=
  let content := rule.buildContent env.payload
  { type := rule.type
    recipients := rule.buildRecipients env.payload
    title := content.title
    body := content.body
    priority := rule.priority
    audience := rule.audience
    channels := some rule.channels
    dedupKey := rule.buildDedupKey.map fun build => build env.payload
    resourceType := content.resourceType
    resourceId := content.resourceId
    source := .queue
    sourceEvent := some env.name
    actorId := env.actorId
    requestId := env.requestId }

def requestedToIngest (env : DubEventEnvelope) : IngestInput where
  type := env.payload.type
  recipients := { userIds := env.payload.recipientIds }
  title := env.payload.title
  body := env.payload.body
  priority := .normal
  source := .queue
  sourceEvent := some "notification.requested"
  actorId := env.actorId
  requestId := env.requestId

/-- A direct message is also told to its other members. -/
def buildChatDmNotifyInput (env : DubEventEnvelope) : Option IngestInput :=
  let p := env.payload
  let recipients := (p.dmRecipientIds.getD []).filter fun uid => uid ≠ p.authorId
  if p.isDm = false ∨ recipients = [] then none
  else some
    { type := CHAT_DM_NOTIFY_TYPE
      recipients := { userIds := recipients }
      title := "ダイレクトメッセージが届きました"
      body := none
      priority := .normal
      channels := some [.inApp]
      dedupKey := some ("chat.dm:" ++ p.messageId)
      resourceType := some "channel"
      resourceId := some p.channelId
      source := .queue
      sourceEvent := some env.name
      actorId := env.actorId
      requestId := env.requestId }

/-- The notifications that the handler of an event ingests, one after the other; `none`
when the event has no handler. -/
def handlerInputs (env : DubEventEnvelope) : Option (List IngestInput) :=
  if env.name = "notification.requested" then some [requestedToIngest env]
  else if env.name = "chat.message.created" then
    some (((EVENT_MAPPINGS env.name).map fun rule => mappingToIngest rule env).toList ++
      (buildChatDmNotifyInput env).toList)
  else (EVENT_MAPPINGS env.name).map fun rule => [mappingToIngest rule env]

variable {env : DubEventEnvelope}

theorem buildChatDmNotifyInput_type {input : IngestInput}
    (built : buildChatDmNotifyInput env = some input) : input.type = CHAT_DM_NOTIFY_TYPE := by
  unfold buildChatDmNotifyInput at built
  simp only [] at built
  split at built
  · cases built
  · cases built
    rfl

variable {inputs : List IngestInput}

/-- The notifications of one event are of different types. -/
theorem handlerInputs_types_nodup
    (handled : handlerInputs env = some inputs) : (inputs.map IngestInput.type).Nodup := by
  unfold handlerInputs at handled
  split at handled
  · cases handled
    exact nodup_singleton _
  split at handled
  · rename_i isChat
    rw [isChat] at handled
    cases handled
    cases built : buildChatDmNotifyInput env with
    | none => exact nodup_singleton _
    | some input =>
      have isDm := buildChatDmNotifyInput_type built
      have types : [CHAT_MENTION_NOTIFY_TYPE, input.type].Nodup := by
        rw [isDm]
        decide
      exact types
  · obtain ⟨rule, -, rfl⟩ := map_eq_some_iff.mp handled
    exact nodup_singleton _

theorem handlerInputs_eq_of_dedupKey
    (handled : handlerInputs env = some inputs) {first second : IngestInput}
    (firstMem : first ∈ inputs) (secondMem : second ∈ inputs)
    (isKeyed : first.dedupKey.isSome) (sameKey : first.dedupKey = second.dedupKey) :
    first = second := by
  have alone : ∀ {input : IngestInput}, inputs = [input] → first = second := by
    rintro input rfl
    rw [mem_singleton.mp firstMem, mem_singleton.mp secondMem]
  unfold handlerInputs at handled
  split at handled
  · cases handled
    exact alone rfl
  split at handled
  · rename_i isChat
    rw [isChat] at handled
    have mentions : ∀ {input : IngestInput}, input ∈ ((EVENT_MAPPINGS
        "chat.message.created").map fun rule => mappingToIngest rule env).toList →
          input.dedupKey = none := by
      intro input member
      obtain rfl := mem_singleton.mp member
      rfl
    cases handled
    have directs : ∀ {input}, input ∈ ((EVENT_MAPPINGS "chat.message.created").map fun rule =>
        mappingToIngest rule env).toList ++ (buildChatDmNotifyInput env).toList → input.dedupKey.isSome →
        buildChatDmNotifyInput env = some input := by
      intro input member keyed
      rcases mem_append.mp member with isMention | isDirect
      · rw [mentions isMention] at keyed
        cases keyed
      · exact Option.mem_toList.mp isDirect
    have isFirst := directs firstMem isKeyed
    have isSecond := directs secondMem (sameKey ▸ isKeyed)
    exact some.inj (isFirst.symm.trans isSecond)
  · obtain ⟨rule, -, rfl⟩ := map_eq_some_iff.mp handled
    exact alone rfl

end DubEcosystem.Notification
