import DubEcosystem.AscendingTables
import DubEcosystem.ChatSocketClient

/-!
# fe6-chat: the reducers of the open timeline

`store/timeline.ts`: the loaded messages of the channel that is looked at, ascending by id,
and the own posts that no answer has come for.  Ids are compared by `<` and `===` only, so
that they are taken from any linear order; an id that is absent, null or empty is `none`.
-/

namespace DubEcosystem.ChatTimeline

open AscendingTables

section Messages

structure Reaction where
  emoji : String
  userIds : List String
  deriving DecidableEq

structure Attachment where
  fileId : String
  name : String
  mime : String
  size : Nat
  url : Option String
  deriving DecidableEq

/-- A reaction value on the wire: the client's array, or the entries of chat-service's record. -/
inductive WireReactions where
  | array (reactions : List Reaction)
  | record (entries : List (String × List String))

variable (Id : Type)

structure Message where
  id : Id
  channelId : String
  authorId : Option String
  body : String
  threadRootId : Option Id
  replyCount : Nat
  reactions : List Reaction
  attachments : List Attachment
  editedAt : Option String
  deletedAt : Option String
  version : Nat
  createdAt : String
  deriving DecidableEq

/-- A message as a response carries it. -/
structure WireMessage where
  id : Id
  channelId : String
  authorId : Option String
  body : String
  threadRootId : Option Id
  replyCount : Option Nat
  reactions : Option WireReactions
  attachments : Option (List Attachment)
  attachmentFileIds : Option (List String)
  editedAt : Option String
  deletedAt : Option String
  version : Nat
  createdAt : String

structure PostMessageRequest where
  channelId : String
  body : String
  threadRootId : Option Id
  attachments : Option (List Attachment)
  clientTempId : String

inductive PendingState where
  | sending
  | failed
  deriving DecidableEq

structure PendingMessage where
  clientTempId : String
  request : PostMessageRequest Id
  authorId : String
  state : PendingState
  createdAt : String

structure ChannelViewState where
  channelId : String
  messages : List (Message Id)
  pending : List (PendingMessage Id)
  nextCursor : Option String
  lastReadMessageId : Option Id
  unreadCount : Nat
  rtStatus : ChatSocket.RealtimeStatus

inductive MessageDeletionMode where
  | hard
  | tombstone
  deriving DecidableEq

structure MessageCreated where
  channelId : String
  messageId : Id
  authorId : String
  body : String
  «at» : String
  threadRootId : Option Id

inductive ChatRealtimeEvent where
  | messageCreated (event : MessageCreated Id)
  | messageDeleted (channelId : String) (messageId : Id) («at» : String)
      (mode : Option MessageDeletionMode)
  | memberAdded (channelId userId «at» : String)
  | memberRemoved (channelId userId «at» : String)
  | reactionUpdated (channelId : String) (messageId : Id) (reactions : List (String × List String))

end Messages

section Reducers

variable {Id : Type}

def emptyChannelView (channelId : String) : ChannelViewState Id where
  channelId := channelId
  messages := []
  pending := []
  nextCursor := none
  lastReadMessageId := none
  unreadCount := 0
  rtStatus := .connecting

def reactionsFromWire : Option WireReactions → List Reaction
  | some (.array reactions) => reactions
  | some (.record entries) => entries.map fun (emoji, userIds) => ⟨emoji, userIds⟩
  | none => []

def normalizeMessage (message : WireMessage Id) : Message Id where
  id := message.id
  channelId := message.channelId
  authorId := message.authorId
  body := message.body
  threadRootId := message.threadRootId
  replyCount := message.replyCount.getD 0
  reactions := reactionsFromWire message.reactions
  attachments :=
    match message.attachments with
    | some attachments => attachments
    | none => (message.attachmentFileIds.getD []).map fun fileId => ⟨fileId, fileId, "", 0, none⟩
  editedAt := message.editedAt
  deletedAt := message.deletedAt
  version := message.version
  createdAt := message.createdAt

/-- A message of the client's own shape, which carries every field. -/
def Message.toWire (message : Message Id) : WireMessage Id where
  id := message.id
  channelId := message.channelId
  authorId := message.authorId
  body := message.body
  threadRootId := message.threadRootId
  replyCount := some message.replyCount
  reactions := some (.array message.reactions)
  attachments := some message.attachments
  attachmentFileIds := none
  editedAt := message.editedAt
  deletedAt := message.deletedAt
  version := message.version
  createdAt := message.createdAt

@[simp]
theorem normalizeMessage_toWire (message : Message Id) :
    normalizeMessage message.toWire = message :=
  rfl

@[simp]
theorem normalizeMessage_id (message : WireMessage Id) :
    (normalizeMessage message).id = message.id :=
  rfl

variable [LinearOrder Id]

def upsertMessage (messages : List (Message Id)) (message : WireMessage Id) : List (Message Id) :=
  place Message.id messages (normalizeMessage message)

def mergeMessages (messages : List (Message Id)) (page : List (WireMessage Id)) :
    List (Message Id) :=
  page.foldl upsertMessage messages

def markDeleted (messages : List (Message Id)) (id : Id) («at» : String) : List (Message Id) :=
  change Message.id messages id fun existing =>
    { existing with deletedAt := some «at», body := "", attachments := [] }

def removeMessage (messages : List (Message Id)) (id : Id) : List (Message Id) :=
  drop Message.id messages id

def addPending (state : ChannelViewState Id) (pending : PendingMessage Id) : ChannelViewState Id :=
  { state with pending := state.pending ++ [pending] }

def ackPending (state : ChannelViewState Id) (clientTempId : String) (message : WireMessage Id) :
    ChannelViewState Id :=
  { state with
    pending := state.pending.filter fun p => p.clientTempId ≠ clientTempId
    messages := upsertMessage state.messages message }

def failPending (state : ChannelViewState Id) (clientTempId : String) : ChannelViewState Id :=
  { state with
    pending := state.pending.map fun p =>
      if p.clientTempId = clientTempId then { p with state := .failed } else p }

def discardPending (state : ChannelViewState Id) (clientTempId : String) : ChannelViewState Id :=
  { state with pending := state.pending.filter fun p => p.clientTempId ≠ clientTempId }

def applyReactions (messages : List (Message Id)) (messageId : Id) (reactions : List Reaction) :
    List (Message Id) :=
  change Message.id messages messageId fun m => { m with reactions }

/-- The user's entry in the reactions of one message, put in or taken out. -/
def toggled (reactions : List Reaction) (emoji userId : String) : List Reaction :=
  match reactions.findIdx? fun r => r.emoji = emoji with
  | none => reactions ++ [⟨emoji, [userId]⟩]
  | some ri =>
    let userIds := (reactions[ri]?.map Reaction.userIds).getD []
    let changed :=
      if userIds.contains userId then userIds.filter fun u => u ≠ userId
      else userIds ++ [userId]
    if changed.isEmpty then reactions.eraseIdx ri
    else reactions.modify ri fun r => { r with userIds := changed }

def toggleReactionLocal (messages : List (Message Id)) (id : Id) (emoji userId : String) :
    List (Message Id) :=
  change Message.id messages id fun m => { m with reactions := toggled m.reactions emoji userId }

def MessageCreated.message (event : MessageCreated Id) : Message Id where
  id := event.messageId
  channelId := event.channelId
  authorId := some event.authorId
  body := event.body
  threadRootId := none
  replyCount := 0
  reactions := []
  attachments := []
  editedAt := none
  deletedAt := none
  version := 1
  createdAt := event.«at»

/-- The own post that a frame of a new message is taken for the echo of. -/
def echoed (pending : List (PendingMessage Id)) (event : MessageCreated Id)
    (currentUserId : String) : Option (PendingMessage Id) :=
  if event.authorId = currentUserId then
    pending.find? fun p => p.state != .failed && p.request.body == event.body
  else none

def withoutEchoed (pending : List (PendingMessage Id)) (event : MessageCreated Id)
    (currentUserId : String) : List (PendingMessage Id) :=
  match echoed pending event currentUserId with
  | some echo => pending.filter fun p => p.clientTempId ≠ echo.clientTempId
  | none => pending

def applyMessageCreated (state : ChannelViewState Id) (event : MessageCreated Id)
    (currentUserId : String) : ChannelViewState Id :=
  match event.threadRootId with
  | some threadRootId =>
    { state with
      messages := change Message.id state.messages threadRootId fun root =>
        { root with replyCount := root.replyCount + 1 } }
  | none =>
    { state with
      pending := withoutEchoed state.pending event currentUserId
      messages := upsertMessage state.messages event.message.toWire }

def ChatRealtimeEvent.channelId : ChatRealtimeEvent Id → String
  | messageCreated event => event.channelId
  | messageDeleted channelId _ _ _ => channelId
  | memberAdded channelId _ _ => channelId
  | memberRemoved channelId _ _ => channelId
  | reactionUpdated channelId _ _ => channelId

def applyRealtimeEvent (state : ChannelViewState Id) (event : ChatRealtimeEvent Id)
    (currentUserId : String) : ChannelViewState Id :=
  if event.channelId ≠ state.channelId then state
  else
    match event with
    | .messageCreated event => applyMessageCreated state event currentUserId
    | .messageDeleted _ messageId «at» mode =>
      if mode = some .hard then
        { state with messages := removeMessage state.messages messageId }
      else { state with messages := markDeleted state.messages messageId «at» }
    | .memberAdded .. => state
    | .memberRemoved .. => state
    | .reactionUpdated _ messageId reactions =>
      { state with
        messages :=
          applyReactions state.messages messageId (reactionsFromWire (some (.record reactions))) }

end Reducers

end DubEcosystem.ChatTimeline
