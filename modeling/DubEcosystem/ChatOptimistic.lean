import DubEcosystem.ChatTimeline

/-!
# fe6-chat: optimistic changes of the open timeline

`store/optimistic.ts` and the mutations of `useChannelView.ts`: a call changes the view at
once, its request is answered or fails later, and frames, pages and other calls change the
view in between.  A handler runs to its end before the next one starts.
-/

namespace DubEcosystem.ChatTimeline

variable {Id : Type}

section Calls

/-- What `runOptimistic` is given.  The rollback reads the box; without one the snapshot is
restored. -/
structure OptimisticSpec (TState TResult : Type) where
  apply : TState → TState
  reconcile : TState → TResult → TState
  rollback : Option (TState → TState)

/-- The commit of a failed call, from the box and the snapshot of its start. -/
def OptimisticSpec.rolledBack {TState TResult : Type} (spec : OptimisticSpec TState TResult)
    (current snapshot : TState) : TState :=
  match spec.rollback with
  | some rollback => rollback current
  | none => snapshot

/-- A mutation with what it is called with and what it reads when it starts: the clock, and
the mode that the cached policy predicts. -/
inductive Call (Id : Type) where
  | sendPending (pending : PendingMessage Id)
  | editMessage (id : Id) (body editedAt : String)
  | deleteMessage (id : Id) (predicted : MessageDeletionMode) (deletedAt : String)
  | toggleReaction (id : Id) (emoji : String)

structure DeleteMessageResult (Id : Type) where
  mode : MessageDeletionMode
  message : Option (WireMessage Id)

structure ReactionToggleResponse (Id : Type) where
  messageId : Id
  reactions : List Reaction

/-- What the request of a call is answered with. -/
def Call.Result : Call Id → Type
  | sendPending _ => WireMessage Id
  | editMessage _ _ _ => WireMessage Id
  | deleteMessage _ _ _ => DeleteMessageResult Id
  | toggleReaction _ _ => ReactionToggleResponse Id

variable [LinearOrder Id] (currentUserId : String)

def sendSpec (pending : PendingMessage Id) :
    OptimisticSpec (ChannelViewState Id) (WireMessage Id) where
  apply state := addPending state pending
  -- The client puts the `clientTempId` of the request into the result.
  reconcile state message := ackPending state pending.clientTempId message
  rollback := some fun state => failPending state pending.clientTempId

def editSpec (id : Id) (body editedAt : String) :
    OptimisticSpec (ChannelViewState Id) (WireMessage Id) where
  apply state :=
    { state with
      messages := state.messages.modify (state.messages.findIdx fun m => m.id = id)
        fun m => { m with body, editedAt := some editedAt } }
  reconcile state message := { state with messages := upsertMessage state.messages message }
  rollback := none

def deleteSpec (id : Id) (predicted : MessageDeletionMode) (deletedAt : String) :
    OptimisticSpec (ChannelViewState Id) (DeleteMessageResult Id) where
  apply state :=
    if predicted = .hard then { state with messages := removeMessage state.messages id }
    else { state with messages := markDeleted state.messages id deletedAt }
  reconcile state result :=
    match result.mode, result.message with
    | .tombstone, some message => { state with messages := upsertMessage state.messages message }
    | _, _ => { state with messages := removeMessage state.messages id }
  rollback := none

def toggleSpec (id : Id) (emoji : String) :
    OptimisticSpec (ChannelViewState Id) (ReactionToggleResponse Id) where
  apply state :=
    { state with messages := toggleReactionLocal state.messages id emoji currentUserId }
  reconcile state result :=
    { state with messages := applyReactions state.messages result.messageId result.reactions }
  rollback := none

def Call.spec : (call : Call Id) → OptimisticSpec (ChannelViewState Id) call.Result
  | sendPending pending => sendSpec pending
  | editMessage id body editedAt => editSpec id body editedAt
  | deleteMessage id predicted deletedAt => deleteSpec id predicted deletedAt
  | toggleReaction id emoji => toggleSpec currentUserId id emoji

end Calls

section Updates

/-- A change of the view by one handler. -/
inductive Update (Id : Type) where
  | started (call : Call Id)
  | answered (call : Call Id) (result : call.Result)
  | failed (call : Call Id) (snapshot : ChannelViewState Id)
  | event (frame : ChatRealtimeEvent Id)
  | firstPage (items : List (WireMessage Id)) (nextCursor : Option String)
  | olderPage (items : List (WireMessage Id)) (nextCursor : Option String)
  /-- A gap-fill or a fallback poll. -/
  | newerPage (items : List (WireMessage Id))

def Call.clientTempId : Call Id → Option String
  | sendPending pending => some pending.clientTempId
  | _ => none

variable [LinearOrder Id] (currentUserId : String)

def Update.run (state : ChannelViewState Id) : Update Id → ChannelViewState Id
  | .started call => (call.spec currentUserId).apply state
  | .answered call result => (call.spec currentUserId).reconcile state result
  | .failed call snapshot => (call.spec currentUserId).rolledBack state snapshot
  | .event frame => applyRealtimeEvent state frame currentUserId
  | .firstPage items nextCursor =>
    { state with messages := mergeMessages [] items, nextCursor }
  | .olderPage items nextCursor =>
    { state with messages := mergeMessages state.messages items, nextCursor }
  | .newerPage items => { state with messages := mergeMessages state.messages items }

end Updates

section System

/-- A call whose request is under way. -/
structure Flight (Id : Type) where
  id : Nat
  call : Call Id
  snapshot : ChannelViewState Id
  /-- The changes of the view since it started, each with the view that it found. -/
  since : List (ChannelViewState Id × Update Id)

structure World (Id : Type) where
  initial : ChannelViewState Id
  state : ChannelViewState Id
  flights : List (Flight Id)
  nextCall : Nat
  /-- The failed calls, by number. -/
  failed : List (Nat × Call Id)
  /-- The changes of the view other than the failures, each with the call it is made by. -/
  log : List (Option Nat × Update Id)
  /-- The temporary ids in use so far. -/
  tempIds : List String

def World.start (state : ChannelViewState Id) : World Id where
  initial := state
  state := state
  flights := []
  nextCall := 0
  failed := []
  log := []
  tempIds := state.pending.map PendingMessage.clientTempId

def Flight.note (state : ChannelViewState Id) (update : Update Id) (flight : Flight Id) :
    Flight Id :=
  { flight with since := flight.since ++ [(state, update)] }

inductive Move (Id : Type) where
  | call (made : Call Id)
  | answer (flight : Flight Id) (result : flight.call.Result)
  | fail (flight : Flight Id)
  | event (frame : ChatRealtimeEvent Id)
  | firstPage (items : List (WireMessage Id)) (nextCursor : Option String)
  | olderPage (items : List (WireMessage Id)) (nextCursor : Option String)
  | newerPage (items : List (WireMessage Id))

def World.isNew (world : World Id) (call : Call Id) : Prop :=
  ∀ tempId, call.clientTempId = some tempId → tempId ∉ world.tempIds

def Move.allowed (world : World Id) : Move Id → Prop
  | .call made => world.isNew made
  | .answer flight _ => flight ∈ world.flights
  | .fail flight => flight ∈ world.flights
  | _ => True

variable [LinearOrder Id] (currentUserId : String)

/-- Change the view, and let the calls under way know. -/
def World.update (world : World Id) (owner : Option Nat) (update : Update Id) : World Id :=
  { world with
    state := update.run currentUserId world.state
    flights := world.flights.map (Flight.note world.state update)
    log := world.log ++ [(owner, update)] }

def World.land (world : World Id) (flight : Flight Id) : World Id :=
  { world with flights := world.flights.filter fun other => other.id ≠ flight.id }

def World.begin (world : World Id) (call : Call Id) : World Id :=
  let after := world.update currentUserId (some world.nextCall) (.started call)
  { after with
    flights := after.flights ++ [⟨world.nextCall, call, world.state, []⟩]
    nextCall := world.nextCall + 1
    tempIds := world.tempIds ++ call.clientTempId.toList }

def World.rollback (world : World Id) (flight : Flight Id) : World Id :=
  let update := Update.failed flight.call flight.snapshot
  { world.land flight with
    state := update.run currentUserId world.state
    flights := (world.land flight).flights.map (Flight.note world.state update)
    failed := (flight.id, flight.call) :: world.failed }

def Move.next (world : World Id) : Move Id → World Id
  | .call made => world.begin currentUserId made
  | .answer flight result =>
    (world.land flight).update currentUserId (some flight.id) (.answered flight.call result)
  | .fail flight => world.rollback currentUserId flight
  | .event frame => world.update currentUserId none (.event frame)
  | .firstPage items nextCursor => world.update currentUserId none (.firstPage items nextCursor)
  | .olderPage items nextCursor => world.update currentUserId none (.olderPage items nextCursor)
  | .newerPage items => world.update currentUserId none (.newerPage items)

variable (condition : Flight Id → Prop)

def Step (world after : World Id) : Prop :=
  ∃ move : Move Id, move.allowed world ∧ (∀ flight, move = .fail flight → condition flight) ∧
      after = move.next currentUserId world

def Reachable (world : World Id) : Prop :=
  ∃ state, Relation.ReflTransGen (Step currentUserId condition) (World.start state) world

end System

section Claim

variable [LinearOrder Id] (currentUserId : String)

/-- Make the changes of a log but those of some calls. -/
def replay (omitted : Nat → Bool) (log : List (Option Nat × Update Id))
    (state : ChannelViewState Id) : ChannelViewState Id :=
  (log.filter fun entry => !entry.1.any omitted).foldl
    (fun state entry => entry.2.run currentUserId state) state

def without (hidden : String → Bool) (state : ChannelViewState Id) : ChannelViewState Id :=
  { state with pending := state.pending.filter fun p => !hidden p.clientTempId }

def World.hasFailed (world : World Id) (id : Nat) : Bool :=
  world.failed.any fun failure => failure.1 = id

/-- The entries of the posts that have failed. -/
def World.ofFailed (world : World Id) (tempId : String) : Bool :=
  world.failed.any fun failure => failure.2.clientTempId = some tempId

/-- The view is what all other changes make of it, except for the entries of the failed
posts, which are marked failed. -/
structure World.UndoesOnlyFailed (world : World Id) : Prop where
  asWithout : without world.ofFailed world.state =
    replay currentUserId world.hasFailed world.log world.initial
  marked : ∀ p ∈ world.state.pending, world.ofFailed p.clientTempId = true → p.state = .failed

/-- After every failure, the failed calls alone are undone. -/
def FailureUndoesOnlyItself (condition : String → Flight Id → Prop) : Prop :=
  ∀ (currentUserId : String) (world : World Id) (flight : Flight Id),
    Reachable currentUserId (condition currentUserId) world → flight ∈ world.flights →
      condition currentUserId flight →
        (world.rollback currentUserId flight).UndoesOnlyFailed currentUserId

/-- The frame of a post by the user that is shown in the view. -/
def IsEchoIn (state : ChannelViewState Id) (update : Update Id) (event : MessageCreated Id) : Prop :=
  update = .event (.messageCreated event) ∧ event.channelId = state.channelId ∧
    event.threadRootId = none

/-- Nothing that changed the view since the call started would have changed the view it
started from.  For a post, which is only marked failed: no echo took its entry away while
another entry with the same body waited. -/
def Flight.Undisturbed (flight : Flight Id) : Prop :=
  match flight.call with
  | .sendPending pending =>
    ∀ state update event echo, (state, update) ∈ flight.since → IsEchoIn state update event →
      echoed state.pending event currentUserId = some echo →
        echo.clientTempId = pending.clientTempId →
          ∀ other ∈ state.pending, other.clientTempId ≠ pending.clientTempId →
            other.state ≠ .failed → other.request.body ≠ event.body
  | _ => ∀ state update, (state, update) ∈ flight.since →
      update.run currentUserId flight.snapshot = flight.snapshot

end Claim

end DubEcosystem.ChatTimeline
