import DubEcosystem.ChatService
import DubEcosystem.DerivedIds
import DubEcosystem.InterleavingProtocols
import DubEcosystem.InterleavingSchedule

/-!
# chat-service: its operations, side by side

The operations of the service on behalf of any users, over one database.  The clock, the
permissions and the other services answer as they like, or fail; ids are drawn one after the
other, and none is drawn twice.
-/

namespace DubEcosystem.Chat

open Interleaving PortPrograms
open TaskService (JsonField)

/-- A call of the service. -/
inductive Operation where
  | createChannel (userId : String) (body : CreateChannelRequest)
  | getChannel (userId id : String)
  | listChannels (userId : String) (cursor : Option Cursor) (limit : JsonField ℚ)
      (eventId : Option String)
  | updateChannel (userId id : String) (body : UpdateChannelRequest)
  | deleteChannel (userId id : String)
  | updateChannelVisibility (userId id : String) (version : Option Int)
      (visibility : Option ChannelVisibility)
  | listSections (userId : String)
  | createSection (userId : String) (name : JsonField String)
  | updateSection (userId id : String) (name : JsonField String) (position : JsonField Int)
  | deleteSection (userId id : String)
  | setChannelSection (userId channelId : String) (sectionId : JsonField String)
  | addMember (userId id : String) (member : JsonField String) (asAdmin : Bool)
  | removeMember (userId id removed : String)
  | listMembers (userId id : String)
  | postMessage (userId : String) (body : PostMessageRequest)
  | listMessages (userId : String) (q : ListMessagesQuery)
  | editMessage (userId id : String) (version : Option Int) (body : JsonField String)
  | getDeletionPolicy (userId : String)
  | updateDeletionPolicy (userId : String) (version : Option Int)
      (policy : Option (Option MessageDeletionMode × Option MessageDeletionMode))
  | deleteMessage (userId id : String)
  | toggleReaction (userId id : String) (emoji : JsonField String)
  | search (userId : String) (q channelId : Option String) (limit : JsonField ℚ)
  | listPins (userId id : String)
  | togglePin (userId id : String) (messageId : JsonField String)
  | updateReadState (userId id : String) (lastReadMessageId : JsonField String)
  | unread (userId : String)
  | issueWsTicket (userId id : String)
  | postSystemMessage (body : PostSystemMessageRequest)

/-- What an operation returns. -/
inductive Reply where
  | nothing
  | channel (channel : Channel)
  | channelWith (response : GetChannelResponse)
  | channels (page : Paginated Channel)
  | sections (list : ChatSectionList)
  | oneSection (chatSection : ChatSection)
  | members (members : List MemberRow)
  | message (message : Message)
  | messages (page : Paginated Message)
  | messageList (messages : List Message)
  | policy (response : DeletionPolicyResponse)
  | deleted (result : DeleteMessageResult)
  | reactions (response : ReactionToggleResponse)
  | hits (hits : List SearchHit)
  | unreadOf (summary : UnreadSummary)
  | unreadAll (items : List UnreadSummary)
  | ticket (response : WsTicketResponse)

def reply {α : Type} (wrap : α → Reply) (action : ChatM α) : ChatM Reply := do
  let result ← action
  pure (wrap result)

def actionOf (toLowerCase : String → String) : Operation → ChatM Reply
  | .createChannel userId body => reply .channel (createChannel userId body)
  | .getChannel userId id => reply .channelWith (getChannel userId id)
  | .listChannels userId cursor limit eventId =>
    reply .channels (listChannels userId cursor limit eventId)
  | .updateChannel userId id body => reply .channel (updateChannel userId id body)
  | .deleteChannel userId id => reply (fun _ => .nothing) (deleteChannel userId id)
  | .updateChannelVisibility userId id version visibility =>
    reply .channel (updateChannelVisibility userId id version visibility)
  | .listSections userId => reply .sections (listSections userId)
  | .createSection userId name => reply .oneSection (createSection userId name)
  | .updateSection _ id name position => reply .oneSection (updateSection id name position)
  | .deleteSection _ id => reply (fun _ => .nothing) (deleteSection id)
  | .setChannelSection userId channelId sectionId =>
    reply (fun _ => .nothing) (setChannelSection userId channelId sectionId)
  | .addMember userId id member asAdmin =>
    reply (fun _ => .nothing) (addMember userId id member asAdmin)
  | .removeMember userId id removed =>
    reply (fun _ => .nothing) (removeMember userId id removed)
  | .listMembers userId id => reply .members (listMembers userId id)
  | .postMessage userId body => reply .message (postMessage userId body)
  | .listMessages userId q => reply .messages (listMessages userId q)
  | .editMessage userId id version body =>
    reply .message (editMessage userId id version body)
  | .getDeletionPolicy _ => reply .policy getDeletionPolicy
  | .updateDeletionPolicy userId version policy =>
    reply .policy (updateDeletionPolicy userId version policy)
  | .deleteMessage userId id => reply .deleted (deleteMessage userId id)
  | .toggleReaction userId id emoji => reply .reactions (toggleReaction userId id emoji)
  | .search userId q channelId limit =>
    reply .hits (search toLowerCase userId q channelId limit)
  | .listPins userId id => reply .messageList (listPins userId id)
  | .togglePin userId id messageId => reply .messageList (togglePin userId id messageId)
  | .updateReadState userId id lastReadMessageId =>
    reply .unreadOf (updateReadState userId id lastReadMessageId)
  | .unread userId => reply .unreadAll (unread userId)
  | .issueWsTicket userId id => reply .ticket (issueWsTicket userId id)
  | .postSystemMessage body => reply .message (postSystemMessage body)

/-- The ids in the order in which they are drawn. -/
structure Ids where
  channel : Nat → String
  message : Nat → String
  ofSection : Nat → String
  channel_injective : Function.Injective channel
  message_injective : Function.Injective message
  ofSection_injective : Function.Injective ofSection

/-- The ids in which each is the number of those drawn before it. -/
def countedIds : Ids :=
  ⟨Nat.repr, Nat.repr, Nat.repr, fun _ _ => Nat.repr_injective, fun _ _ => Nat.repr_injective,
    fun _ _ => Nat.repr_injective⟩

structure World where
  store : Store
  drawn : Nat

def chatMachine (ids : Ids) : Machine chatSignature World where
  exec
    | .db statement, world =>
      let (answer, store) := world.store.exec statement
      some (answer.mapError .failed, { world with store })
    | .newChannelId, world =>
      some (.ok (ids.channel world.drawn), { world with drawn := world.drawn + 1 })
    | .newMessageId, world =>
      some (.ok (ids.message world.drawn), { world with drawn := world.drawn + 1 })
    | .newSectionId, world =>
      some (.ok (ids.ofSection world.drawn), { world with drawn := world.drawn + 1 })
    | _, _ => none
  observe _ _ world := world

/-- The operations that may `run`, any number of them at once. -/
def chatSystem (ids : Ids) (toLowerCase : String → String) (run : Operation → Bool) :
    System chatSignature World Operation where
  toMachine := chatMachine ids
  program op := (actionOf toLowerCase op).run >>= fun _ => pure ()
  startable _ op := run op
  environment before after := before = after

/-- Runs in which any of the operations that may `run` start at any time. -/
def chatReferee (ids : Ids) (toLowerCase : String → String) (run : Operation → Bool) :
    Referee (chatSystem ids toLowerCase run) anyCall where
  mayCall _ _ := true
  mayStart _ op := run op
  allowed_of_mayCall _ := trivial
  startable_of_mayStart mayRun := mayRun

def succeeding : (request : Call) → chatSignature.Answer request
  | .db _ => .error (.failed "")
  | .now => .ok "2026-01-02"
  | .newChannelId => .ok ""
  | .newMessageId => .ok ""
  | .newSectionId => .ok ""
  | .holdsModerate _ => .ok false
  | .eventExists _ => .ok true
  | .teamMemberUserIds _ => .ok []
  | .registerLinks _ _ => .ok ()
  | .publish _ => .ok ()
  | .publishToChannel _ _ => .ok ()
  | .evictNonMembers _ _ => .ok ()
  | .audit _ => .ok ()
  | .signWsTicket _ _ => .ok ⟨"", "", ""⟩

def openChannel : ChannelRow where
  id := "general"
  type := .topic
  visibility := .isPublic
  name := "general"
  topic := none
  eventId := none
  dmKey := none
  createdBy := "ada"
  archivedAt := none
  version := 1
  createdAt := "2026-01-01"
  updatedAt := "2026-01-01"

/-- One public channel, in which nothing is posted yet. -/
def quietChat : World where
  store := (Store.empty.insertChannel openChannel).2
  drawn := 0

variable {ids : Ids} {before after : World}

theorem answers_db {statement : Statement} {answer : Except ChatError statement.Result}
    (answers : (chatMachine ids).Answers (.db statement) before answer after) :
    answer = (before.store.exec statement).1.mapError .failed ∧
      after = { before with store := (before.store.exec statement).2 } := by
  obtain ⟨isAnswer, isAfter⟩ := Prod.mk.inj answers
  exact ⟨isAnswer.symm, isAfter.symm⟩

theorem store_of_answers {request : Call} {answer : Except ChatError (Call.Result request)}
    (answers : (chatMachine ids).Answers request before answer after)
    (notDb : ∀ statement, request ≠ .db statement) : after.store = before.store := by
  cases request with
  | db statement => exact absurd rfl (notDb statement)
  | newChannelId | newMessageId | newSectionId =>
    exact (congrArg World.store (Prod.mk.inj answers).2).symm
  | now | holdsModerate userId | eventExists eventId | teamMemberUserIds teamIds
  | registerLinks messageId fileIds | publish event | publishToChannel channelId event
  | evictNonMembers channelId memberIds | audit record | signWsTicket channelId userId =>
    exact congrArg World.store answers

end DubEcosystem.Chat
