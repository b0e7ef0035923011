import DubEcosystem.InterleavingProtocols
import DubEcosystem.NotificationIngest

/-!
# notification: the protocol of a delivery

Which notifications of a request a delivery has still to ingest, and which inboxes it has
still to fill for the one it is at.
-/

namespace DubEcosystem.Notification

open Interleaving PortPrograms

inductive Phase where
  /-- Between two deliveries. -/
  | idle
  /-- `input` is to be ingested, and the others after it. -/
  | handling (input : IngestInput) (rest : List IngestInput)
  /-- The notification `id` of `input` is stored; it goes to the inbox of `userId`, and to
  those of `left` after that. -/
  | filling (input : IngestInput) (rest : List IngestInput) (id : Nat) (userId : String)
      (left : List String)
  /-- Everything was ingested. -/
  | done

def Phase.turnTo : List IngestInput → Phase
  | [] => .done
  | input :: rest => .handling input rest

def Phase.advance (input : IngestInput) (rest : List IngestInput) (id : Nat) : List String → Phase
  | [] => .turnTo rest
  | userId :: left => .filling input rest id userId left

/-- The calls that change neither notifications nor inboxes nor what was processed. -/
def Quiet : Call → Prop
  | .listPreferenceOverrides _ => True
  | .deliver _ => True
  | .recordDelivery _ => True
  | .publishAudit _ _ _ => True
  | .pushInboxChanged _ => True
  | .retry => True
  | _ => False

/-- How often the adapter of the inbox is called for a user over these channels. -/
def pendingChannels (input : IngestInput) (overrides : List PreferenceRow) (userId : String)
    (channels : List NotificationChannel) : List String :=
  channels.flatMap fun channel =>
    if channel = .inApp ∧ channelEnabled input overrides channel then [userId] else []

/-- The users whose inbox is to be filled, once for each call. -/
def pending (directory : Directory) (input : IngestInput) (userIds : List String) :
    List String :=
  userIds.flatMap fun userId =>
    pendingChannels input (directory.listPreferenceOverrides userId) userId
      (candidateChannels input)

inductive Phase.Leads (directory : Directory) (subject : Request) :
    Phase → (request : Call) → Except String (Result request) → Phase → Prop
  | quiet {phase request answer} (isQuiet : Quiet request) :
      Leads directory subject phase request answer phase
  | unprocessed {eventId} :
      Leads directory subject .idle (.wasProcessed eventId) (.ok false) (.turnTo subject.inputs)
  | processed {eventId} (isEvent : subject.eventId = some eventId) :
      Leads directory subject .idle (.wasProcessed eventId) (.ok true) .done
  | found {input rest dedupKey id} (isKey : input.dedupKey = some dedupKey) :
      Leads directory subject (.handling input rest) (.findByDedupKey dedupKey)
        (.ok (some id)) (.turnTo rest)
  | absent {input rest dedupKey} :
      Leads directory subject (.handling input rest) (.findByDedupKey dedupKey) (.ok none)
        (.handling input rest)
  | expands {input rest} :
      Leads directory subject (.handling input rest) .expand (.ok ()) (.handling input rest)
  | expandFails {input rest thrown} :
      Leads directory subject (.handling input rest) .expand (.error thrown) .idle
  | resolves {input rest recipients userIds} :
      Leads directory subject (.handling input rest) (.resolve recipients) (.ok userIds)
        (.handling input rest)
  | inserts {input rest id} :
      Leads directory subject (.handling input rest) (.insertNotification input) (.ok id)
        (.advance input rest id (pending directory input (directory.resolve input.recipients)))
  | refused {input rest thrown} :
      Leads directory subject (.handling input rest) (.insertNotification input)
        (.error thrown) .idle
  | fills {input rest id userId left job} (isId : job.notificationId = id)
      (isUser : job.userId = userId) (isType : job.type = input.type) :
      Leads directory subject (.filling input rest id userId left) (.insertInbox job) (.ok ())
        (.advance input rest id left)
  | marks {eventId} : Leads directory subject .done (.markProcessed eventId) (.ok ()) .done
  | acks : Leads directory subject .done .ack (.ok ()) .idle

/-- What may be answered; only other services and a constraint throw. -/
def possible (directory : Directory) : (request : Call) → Except String (Result request) → Prop
  | .resolve recipients, .ok userIds => userIds = directory.resolve recipients
  | .listPreferenceOverrides userId, .ok overrides =>
    overrides = directory.listPreferenceOverrides userId
  | .expand, _ => True
  | .deliver _, _ => True
  | .publishAudit _ _ _, _ => True
  | .insertNotification _, _ => True
  | _, .ok _ => True
  | _, .error _ => False

def deliveryProtocol (directory : Directory) (subject : Request) :
    Protocol notificationSignature Phase where
  possible := possible directory
  leads := Phase.Leads directory subject
  final phase := phase = .idle

/-- The phase in which a delivery starts. -/
def Operation.first : Operation → Phase
  | .notify input => .turnTo [input]
  | _ => .idle

theorem possible_of_answers {directory : Directory} {request : Call} {before after : World}
    {answer : Except String (Result request)}
    (answers : (notificationMachine directory).Answers request before answer after) :
    possible directory request answer := by
  cases request with
  | resolve | listPreferenceOverrides => exact (Prod.mk.inj answers).1 ▸ rfl
  | expand | deliver | publishAudit | insertNotification => trivial
  | _ =>
    cases answer with
    | ok => trivial
    | error => cases answers

theorem exists_possible (directory : Directory) (request : Call) :
    ∃ answer, possible directory request answer := by
  cases request with
  | wasProcessed => exact ⟨.ok true, trivial⟩
  | findByDedupKey => exact ⟨.ok none, trivial⟩
  | resolve recipients => exact ⟨.ok (directory.resolve recipients), rfl⟩
  | insertNotification => exact ⟨.ok 0, trivial⟩
  | listPreferenceOverrides userId =>
    exact ⟨.ok (directory.listPreferenceOverrides userId), rfl⟩
  | deliver => exact ⟨.ok ⟨.sent, none⟩, trivial⟩
  | _ => exact ⟨.ok (), trivial⟩

variable {directory : Directory} {subject : Request} {α : Type} {phase : Phase}

abbrev NotifyFollows (directory : Directory) (subject : Request) (phase : Phase)
    (action : Notify α) (post : Except String α → Phase → Prop) : Prop :=
  Follows (deliveryProtocol directory subject) phase action post

theorem follows_quiet_bind {request : Call} {continuation : Result request → Notify α}
    {post : Except String α → Phase → Prop} (isQuiet : Quiet request)
    (never : ∀ thrown, ¬possible directory request (.error thrown))
    (returns : ∀ result, possible directory request (.ok result) →
      NotifyFollows directory subject phase (continuation result) post) :
    NotifyFollows directory subject phase (ask request >>= continuation) post := by
  apply follows_port_bind
  · intro result isPossible
    exact ⟨phase, .quiet isQuiet, returns result isPossible⟩
  · intro thrown isPossible
    exact absurd isPossible (never thrown)

theorem record_follows {job : DeliveryJob} {status : DeliveryOutcome} {attempts : Nat}
    {lastError : Option String} :
    NotifyFollows directory subject phase (record job status attempts lastError)
      fun outcome after => outcome = .ok () ∧ after = phase := by
  apply follows_port
  rintro (thrown | ⟨⟩) isPossible
  · exact isPossible.elim
  · exact ⟨phase, .quiet trivial, rfl, rfl⟩

variable {input : IngestInput} {rest : List IngestInput} {id : Nat} {userId : String}
  {left : List String}

variable {job : DeliveryJob}

/-- One attempt over another channel leaves the phase, however it ends. -/
theorem attemptDelivery_follows {attempts : Nat} (other : job.channel ≠ .inApp) :
    NotifyFollows directory subject phase (attemptDelivery job attempts)
      fun _ after => after = phase := by
  have adapter : adapterDeliver job = ask (.deliver job) := by
    unfold adapterDeliver
    cases isChannel : job.channel with
    | inApp => exact absurd isChannel other
    | _ => rfl
  unfold attemptDelivery
  rw [adapter]
  apply follows_port_bind
  · intro result _
    refine ⟨phase, .quiet trivial, ?_⟩
    split
    · apply follows_bind
      apply record_follows.mono
      rintro _ after ⟨rfl, rfl⟩
      exact follows_pure rfl
    · apply follows_bind
      apply record_follows.mono
      rintro _ after ⟨rfl, rfl⟩
      exact follows_pure rfl
  · exact fun thrown _ => ⟨phase, .quiet trivial, rfl⟩

theorem deliverAttempts_follows (other : job.channel ≠ .inApp)
    (left attempts : Nat) (lastError : Option String) :
    NotifyFollows directory subject phase (deliverAttempts job attempts left lastError)
      fun outcome after => (∃ result, outcome = .ok result) ∧ after = phase := by
  induction left generalizing attempts lastError with
  | zero =>
    apply follows_bind
    apply record_follows.mono
    rintro _ after ⟨rfl, rfl⟩
    apply follows_attempt_bind
    apply follows_port
    intro answer _
    exact ⟨after, .quiet trivial, follows_pure ⟨⟨_, rfl⟩, rfl⟩⟩
  | succ left ih =>
    apply follows_attempt_bind
    apply (attemptDelivery_follows other).mono
    rintro (thrown | result) after rfl
    · exact ih _ _
    · exact follows_pure ⟨⟨result, rfl⟩, rfl⟩

theorem runDelivery_follows (isInApp : job.channel = .inApp)
    (isId : job.notificationId = id) (isUser : job.userId = userId)
    (isType : job.type = input.type) :
    NotifyFollows directory subject (.filling input rest id userId left) (runDelivery job)
      fun outcome after =>
        (∃ result, outcome = .ok result) ∧ after = .advance input rest id left := by
  have adapter : adapterDeliver job = ask (.insertInbox job) >>= fun _ => pure ⟨.sent, none⟩ := by
    unfold adapterDeliver
    rw [isInApp]
  have attempted : NotifyFollows directory subject (.filling input rest id userId left)
      (attemptDelivery job 1) fun outcome after =>
        (∃ result, outcome = .ok result) ∧ after = .advance input rest id left := by
    unfold attemptDelivery
    rw [adapter]
    apply follows_bind
    apply follows_port_bind
    · rintro ⟨⟩ -
      refine ⟨_, .fills isId isUser isType, ?_⟩
      apply follows_pure
      simp only [reduceCtorEq, if_false]
      apply follows_bind
      apply record_follows.mono
      rintro _ after ⟨rfl, rfl⟩
      exact follows_pure ⟨⟨_, rfl⟩, rfl⟩
    · exact fun _ => False.elim
  unfold runDelivery MAX_DELIVERY_ATTEMPTS
  apply follows_attempt_bind
  apply attempted.mono
  rintro _ after ⟨⟨result, rfl⟩, rfl⟩
  exact follows_pure ⟨⟨result, rfl⟩, rfl⟩

variable {overrides : List PreferenceRow}

theorem fanOutChannel_follows (channel : NotificationChannel) (more : List String) :
    NotifyFollows directory subject
      (.advance input rest id (pendingChannels input overrides userId [channel] ++ more))
      (fanOutChannel input id userId overrides channel)
      fun outcome after => outcome = .ok () ∧ after = .advance input rest id more := by
  unfold fanOutChannel
  by_cases enabled : channelEnabled input overrides channel = true
  · simp only [enabled, if_true]
    apply follows_bind
    by_cases isInApp : channel = .inApp
    · subst isInApp
      have isPending : pendingChannels input overrides userId [.inApp] ++ more =
          userId :: more := by
        simp [pendingChannels, enabled]
      have isFilling : Phase.advance input rest id (userId :: more) =
          .filling input rest id userId more := rfl
      rw [isPending, isFilling]
      have served : NotifyFollows directory subject (.filling input rest id userId more)
          (runDelivery (jobOf input id userId .inApp)) fun outcome after =>
            (∃ result, outcome = .ok result) ∧ after = .advance input rest id more :=
        runDelivery_follows rfl rfl rfl rfl
      apply served.mono
      rintro _ after ⟨⟨result, rfl⟩, rfl⟩
      exact follows_pure ⟨rfl, rfl⟩
    · have noPending : pendingChannels input overrides userId [channel] ++ more = more := by
        simp [pendingChannels, isInApp]
      rw [noPending]
      apply (deliverAttempts_follows isInApp _ _ _).mono
      rintro _ after ⟨⟨result, rfl⟩, rfl⟩
      exact follows_pure ⟨rfl, rfl⟩
  · have noPending : pendingChannels input overrides userId [channel] ++ more = more := by
      simp [pendingChannels, enabled]
    rw [noPending]
    simp only [enabled]
    exact record_follows

theorem fanOutChannels_follows (channels : List NotificationChannel) (more : List String) :
    NotifyFollows directory subject
      (.advance input rest id (pendingChannels input overrides userId channels ++ more))
      (fanOutChannels input id userId overrides channels)
      fun outcome after => outcome = .ok () ∧ after = .advance input rest id more := by
  induction channels with
  | nil => exact follows_pure ⟨rfl, rfl⟩
  | cons channel channels ih =>
    have split : pendingChannels input overrides userId (channel :: channels) ++ more =
        pendingChannels input overrides userId [channel] ++
          (pendingChannels input overrides userId channels ++ more) := by
      simp [pendingChannels]
    rw [split]
    apply follows_bind
    apply (fanOutChannel_follows channel _).mono
    rintro _ after ⟨rfl, rfl⟩
    exact ih

theorem fanOut_follows (userIds : List String) : NotifyFollows directory subject
      (.advance input rest id (pending directory input userIds)) (fanOut input id userIds)
      fun outcome after => (∃ delivered, outcome = .ok delivered) ∧ after = .turnTo rest := by
  induction userIds with
  | nil => exact follows_pure ⟨⟨[], rfl⟩, rfl⟩
  | cons userId userIds ih =>
    apply follows_quiet_bind
    · trivial
    · exact fun thrown impossible => impossible
    rintro overrides rfl
    apply follows_bind
    apply (fanOutChannels_follows (candidateChannels input) _).mono
    rintro _ after ⟨rfl, rfl⟩
    apply follows_bind
    apply ih.mono
    rintro _ after ⟨⟨delivered, rfl⟩, rfl⟩
    simp only []
    split
    · exact follows_pure ⟨⟨userId :: delivered, rfl⟩, rfl⟩
    · exact follows_pure ⟨⟨delivered, rfl⟩, rfl⟩

theorem pushChanged_follows (userIds : List String) :
    NotifyFollows directory subject phase (pushChanged userIds) fun outcome after =>
      outcome = .ok () ∧ after = phase := by
  induction userIds with
  | nil => exact follows_pure ⟨rfl, rfl⟩
  | cons userId userIds ih =>
    apply follows_quiet_bind
    · trivial
    · exact fun thrown impossible => impossible
    · exact fun _ _ => ih

/-- Where the ingest of one notification ends. -/
def Ingested (rest : List IngestInput) : Except String α → Phase → Prop
  | .ok _, after => after = .turnTo rest
  | .error _, after => after = .idle

theorem persist_follows : NotifyFollows directory subject (.handling input rest) (persist input)
      (Ingested rest) := by
  apply follows_port_bind
  · intro _ _
    refine ⟨_, .expands, ?_⟩
    apply follows_port_bind
    · rintro userIds rfl
      refine ⟨_, .resolves, ?_⟩
      apply follows_port_bind
      · intro id _
        refine ⟨_, .inserts, ?_⟩
        apply follows_bind
        apply (fanOut_follows _).mono
        rintro _ after ⟨⟨delivered, rfl⟩, rfl⟩
        apply follows_bind
        apply (pushChanged_follows delivered).mono
        rintro _ after ⟨rfl, rfl⟩
        exact follows_pure rfl
      · exact fun thrown _ => ⟨_, .refused, rfl⟩
    · exact fun _ => False.elim
  · exact fun thrown _ => ⟨_, .expandFails, rfl⟩

theorem ingest_follows :
    NotifyFollows directory subject (.handling input rest) (ingest input) (Ingested rest) := by
  unfold ingest
  cases isKey : input.dedupKey.filter fun dedupKey => dedupKey ≠ "" with
  | none => exact persist_follows
  | some dedupKey =>
    apply follows_port_bind
    · rintro (- | existing) -
      · exact ⟨_, .absent, persist_follows⟩
      · exact ⟨_, .found (Option.filter_eq_some_iff.mp isKey).1, follows_pure rfl⟩
    · exact fun _ => False.elim

theorem ingestAll_follows (left : List IngestInput) :
    NotifyFollows directory subject (.turnTo left) (ingestAll left) (Ingested []) := by
  induction left with
  | nil => exact follows_pure rfl
  | cons input rest ih =>
    apply follows_bind
    apply ingest_follows.mono
    rintro (thrown | result) after rfl
    · rfl
    · exact ih

theorem ack_follows :
    NotifyFollows directory subject .done (ask .ack) fun _ after => after = .idle := by
  apply follows_port
  rintro (thrown | ⟨⟩) isPossible
  · exact isPossible.elim
  · exact ⟨_, .acks, rfl⟩

variable {env : DubEventEnvelope}

theorem consumeMessage_follows :
    NotifyFollows directory (.event env) .idle (consumeMessage env) fun _ after =>
      after = .idle := by
  apply follows_port_bind
  · rintro (- | -) -
    · refine ⟨_, .unprocessed, ?_⟩
      have isInputs : (Request.event env).inputs = (handlerInputs env).getD [] := rfl
      rw [isInputs]
      cases handlerInputs env with
      | none => exact ack_follows
      | some inputs =>
        apply follows_bind
        apply (ingestAll_follows inputs).mono
        rintro (thrown | ⟨⟩) after rfl
        · rfl
        · apply follows_port_bind
          · exact fun _ _ => ⟨_, .marks, ack_follows⟩
          · exact fun _ => False.elim
    · exact ⟨_, .processed rfl, ack_follows⟩
  · exact fun _ => False.elim

theorem consumeEventQueue_follows (messages : List DubEventEnvelope)
    (copies : ∀ message ∈ messages, message = env) :
    NotifyFollows directory (.event env) .idle (consumeEventQueue messages) fun _ after =>
      after = .idle := by
  induction messages with
  | nil => exact follows_pure rfl
  | cons message messages ih =>
    obtain rfl := copies message (.head _)
    have later := ih fun other member => copies other (List.mem_cons_of_mem _ member)
    apply follows_attempt_bind
    apply consumeMessage_follows.mono
    rintro (thrown | ⟨⟩) after rfl
    · apply follows_quiet_bind
      · trivial
      · exact fun thrown impossible => impossible
      · exact fun _ _ => later
    · exact later

theorem dispatchEvent_follows :
    NotifyFollows directory (.event env) .idle (dispatchEvent env) (Ingested []) := by
  apply follows_port_bind
  · rintro (- | -) -
    · refine ⟨_, .unprocessed, ?_⟩
      apply follows_bind
      apply (ingestAll_follows _).mono
      rintro (thrown | ⟨⟩) after rfl
      · rfl
      · apply follows_port
        rintro (thrown | ⟨⟩) isPossible
        · exact isPossible.elim
        · exact ⟨_, .marks, rfl⟩
    · exact ⟨_, .processed rfl, follows_pure rfl⟩
  · exact fun _ => False.elim

theorem action_follows {op : Operation} (delivers : subject.delivers op) :
    NotifyFollows directory subject op.first op.action fun _ after => after = .idle := by
  cases subject with
  | event env =>
    cases op with
    | consume messages => exact consumeEventQueue_follows messages delivers
    | dispatch delivered =>
      obtain rfl : delivered = env := delivers
      apply follows_bind
      apply dispatchEvent_follows.mono
      rintro (thrown | ⟨⟩) after rfl
      · rfl
      · exact ack_follows
    | notify => exact delivers.elim
  | notify input =>
    cases op with
    | consume | dispatch => exact delivers.elim
    | notify delivered =>
      obtain rfl : delivered = input := delivers
      apply follows_bind
      apply ingest_follows.mono
      rintro (thrown | result) after rfl
      · rfl
      · exact ack_follows

theorem deliveries_governed (directory : Directory) (subject : Request) :
    (deliveryProtocol directory subject).Governs (deliveries directory subject)
      Operation.first where
  program op running startable := by
    have follows := @action_follows directory subject op startable
    unfold NotifyFollows Follows at follows
    apply Protocol.followsTo_bind
    exact follows
  possible := possible_of_answers

end DubEcosystem.Notification
