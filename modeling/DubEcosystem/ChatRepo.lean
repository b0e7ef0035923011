import DubEcosystem.ChatStore
import DubEcosystem.PortPrograms

/-!
# chat-service: the repository

The calls of the chat service, and the operations of `createD1ChatRepo` as the statements
that they issue.
-/

namespace DubEcosystem.Chat

open Interleaving PortPrograms

inductive DomainEvent where
  | channelCreated (channelId name : String)
  | memberAdded (channelId userId : String)
  | memberRemoved (channelId userId : String)
  | messageCreated (channelId messageId authorId : String) (mentions : List String)
      (dmRecipientIds : List String)
  | messageDeleted (channelId messageId : String)

inductive ChatRealtimeEvent where
  | memberAdded (channelId userId at' : String)
  | memberRemoved (channelId userId at' : String)
  | messageCreated (channelId messageId authorId body at' : String) (threadRootId : Option String)
  | messageDeleted (channelId messageId at' : String) (mode : MessageDeletionMode)
  | reactionUpdated (channelId messageId emoji userId : String) (added : Bool)
      (reactions : Reactions) (at' : String)

inductive AuditDetails where
  | none
  | created (type : ChannelType) (visibility : ChannelVisibility)
  | deleted (name : String) (type : ChannelType)
  | visibility (before after : ChannelVisibility)
  | member (userId : String) (self : Option Bool)
  | policy (policy : MessageDeletionPolicy) (version : Int)
  | message (channelId : String) (byAuthor : Bool) (mode : MessageDeletionMode)
  | channel (channelId : String)

structure AuditRecord where
  action : String
  actorId : Option String
  resourceType : String
  resourceId : String
  details : AuditDetails

/-- A statement, a clock or id that is read, or a call of something outside. -/
inductive Call where
  | db (statement : Statement)
  | now
  | newChannelId
  | newMessageId
  | newSectionId
  /-- Does the user hold `chat:moderate`? -/
  | holdsModerate (userId : String)
  | eventExists (eventId : String)
  | teamMemberUserIds (teamIds : List String)
  | registerLinks (messageId : String) (fileIds : List String)
  | publish (event : DomainEvent)
  | publishToChannel (channelId : String) (event : ChatRealtimeEvent)
  | evictNonMembers (channelId : String) (memberIds : List String)
  | audit (record : AuditRecord)
  | signWsTicket (channelId userId : String)

abbrev Call.Result : Call → Type
  | .db statement => statement.Result
  | .now => String
  | .newChannelId => String
  | .newMessageId => String
  | .newSectionId => String
  | .holdsModerate _ => Bool
  | .eventExists _ => Bool
  | .teamMemberUserIds _ => List String
  | .signWsTicket _ _ => WsTicketResponse
  | _ => Unit

abbrev chatPorts : Ports where
  Call := Call
  Result := Call.Result

abbrev chatSignature : Signature := chatPorts.signature ChatError

/-- A program of the chat service. -/
abbrev ChatM (α : Type) := Action chatPorts ChatError α

abbrev ask (request : Call) : ChatM (Call.Result request) :=
  port (P := chatPorts) request

abbrev query (statement : Statement) : ChatM statement.Result :=
  ask (.db statement)

namespace Repo

def addMember (row : MemberRow) : ChatM Unit := do
  let updated : Bool ← query (.updateMember row)
  if updated then pure ()
  else query (.insertMember row)

def setReadState (channelId userId lastReadMessageId at' : String) : ChatM Unit := do
  let row : ReadStateRow := ⟨channelId, userId, some lastReadMessageId, at'⟩
  let updated : Bool ← query (.updateReadState row)
  if updated then pure ()
  else query (.insertReadState row)

def setDeletionPolicy (input : PolicyInput) : ChatM (Option Int) := do
  if input.expectedVersion = 0 then do
    let inserted : Bool ← query (.insertSettings input)
    pure (if inserted then some 1 else none)
  else do
    let updated : Bool ← query (.updateSettings input)
    pure (if updated then some (input.expectedVersion + 1) else none)

def hardDeleteMessage (id : String) : ChatM Unit := do
  query (.deleteReactionsOf id)
  query (.deletePinsOf id)
  query (.deleteReplies id)
  query (.deleteMessage id)

def addToReactions (reactions : Reactions) (emoji userId : String) : Reactions :=
  if reactions.any fun entry => entry.1 = emoji then
    reactions.map fun entry => if entry.1 = emoji then (entry.1, entry.2 ++ [userId]) else entry
  else reactions ++ [(emoji, [userId])]

/-- What the map of `reactionsFor` holds for a message, or nothing. -/
def reactionsOf (rows : List ReactionRow) (messageId : String) : Reactions :=
  (rows.filter fun row => row.messageId = messageId).foldl
    (fun reactions row => addToReactions reactions row.emoji row.userId) []

def reactionsFor (messageIds : List String) : ChatM (List ReactionRow) :=
  if messageIds = [] then pure []
  else query (.selectReactions messageIds)

def replyCounts (rootIds : List String) : ChatM (List (String × Nat)) :=
  if rootIds = [] then pure []
  else query (.selectReplyCounts rootIds)

/-- What the map of `replyCounts` holds for a message, or 0. -/
def countOf (counts : List (String × Nat)) (messageId : String) : Nat :=
  ((counts.find? fun entry => entry.1 = messageId).map Prod.snd).getD 0

/-- In chunks of 90, since a statement has at most 100 parameters. -/
def memberIdsIn : Nat → List String → ChatM (List (String × String))
  | _, [] => pure []
  | 0, _ => pure []
  | chunks + 1, channelIds => do
    let rows : List (String × String) ← query (.selectMemberIds (channelIds.take 90))
    let others ← memberIdsIn chunks (channelIds.drop 90)
    pure (rows ++ others)

def memberIdsFor (channelIds : List String) : ChatM (List (String × String)) :=
  memberIdsIn channelIds.length channelIds

/-- What the map of `memberIdsFor` holds for a channel, or nobody. -/
def memberIdsOf (rows : List (String × String)) (channelId : String) : List String :=
  (rows.filter fun row => row.1 = channelId).map Prod.snd

end Repo

end DubEcosystem.Chat
