import DubEcosystem.ChatFootprint
import DubEcosystem.InterleavingWatched
import DubEcosystem.KeysetPages

/-!
# chat-service: catching up by cursor

A reader polls for the messages after the last one that it has received, and the unread ones
are those after the last one that was marked as read.  Both take the order of the ids for the
order of arrival, while an id is drawn before its message is stored.
-/

namespace DubEcosystem.Chat

open Interleaving PortPrograms KeysetPages
open TaskService (JsonField)
open Relation

def Operation.onCursors : Operation → Bool
  | .postMessage _ _ => true
  | .listMessages _ _ => true
  | .updateReadState _ _ _ => true
  | .unread _ => true
  | _ => false

def Operation.posts : Operation → Bool
  | .postMessage _ _ => true
  | _ => false

variable (channelId : String)

def pollQuery (limit : JsonField ℚ) (last : String) : ListMessagesQuery :=
  ⟨channelId, none, limit, none, some last⟩

/-- A reader that lists what is after the last message that it has received, as often as it
likes and also where a call fails. -/
def catchUp (userId channelId : String) (limit : JsonField ℚ) :
    Nat → String → List Message → ChatM (List Message)
  | 0, _, received => pure received
  | polls + 1, last, received => do
    let outcome ← attempt (listMessages userId (pollQuery channelId limit last))
    match outcome with
    | .error _ => catchUp userId channelId limit polls last received
    | .ok page =>
      catchUp userId channelId limit polls ((page.items.getLast?.map Message.id).getD last)
        (received ++ page.items)

def MessageRow.OnTop (message : MessageRow) : Prop :=
  message.channelId = channelId ∧ message.threadRootId = none

/-- The last page that the reader asks for is empty; by then it has received these. -/
def EndsWith (watched : Watched chatSignature World Operation (Except ChatError (List Message)))
    (received : List Message) : Prop :=
  ∃ q next, watched.own = .call (.db (.selectMessages q)) next ∧
    watched.world.store.selectMessages q = [] ∧ next (.ok []) = .done (.ok received)

/-- What `countUnread` counts. -/
def MessageRow.isUnread (userId : String) (lastRead : Option String)
    (message : MessageRow) : Bool :=
  message.channelId = channelId && message.threadRootId.isNone && message.deletedAt.isNone &&
    message.authorId ≠ some userId && lastRead.all fun lastRead => lastRead < message.id

def Store.lastRead (store : Store) (channelId userId : String) : Option String :=
  (store.readStates.find? (channelId, userId)).bind ReadStateRow.lastReadMessageId

def Call.SparesReadState (key : String × String) : Call → Prop
  | .db (.updateReadState row) => row.key ≠ key
  | .db (.insertReadState row) => row.key ≠ key
  | _ => True

variable (condition : RunCondition chatSignature World Operation)

def sparing (channelId userId : String) : RunCondition chatSignature World Operation where
  mayCall request world others :=
    condition.mayCall request world others ∧ request.SparesReadState (channelId, userId)
  mayStop := condition.mayStop

structure CatchUpComplete (ids : Ids) (toLowerCase : String → String)
    (condition : RunCondition chatSignature World Operation) (world : World) : Prop where
  /-- With every post completed, a reader that is answered an empty page has received what is
  after its start, each message once. -/
  received : ∀ userId channelId limit polls start watched messages,
    (chatSystem ids toLowerCase Operation.onCursors).WatchedUnder condition world
      (.listMessages userId (pollQuery channelId limit start))
      (catchUp userId channelId limit polls start []).run watched →
    (∀ thread ∈ watched.others, thread.1.posts = true → thread.2 = .done ()) →
      EndsWith watched messages →
        (messages.map Message.id).Nodup ∧ ∀ id, id ∈ messages.map Message.id ↔
          ∃ message ∈ watched.world.store.messages,
            message.OnTop channelId ∧ start < message.id ∧ message.id = id
  /-- What others post after a read state was set is unread until it is set again. -/
  counted : ∀ userId channelId lastRead returned summary final,
    (chatSystem ids toLowerCase Operation.onCursors).WatchedUnder condition world
      (.updateReadState userId channelId lastRead)
      (updateReadState userId channelId lastRead).run returned →
    returned.own = .done (.ok summary) →
    ReflTransGen ((chatSystem ids toLowerCase Operation.onCursors).StepUnder
      (sparing condition channelId userId)) ⟨returned.world, returned.others⟩ final →
    ∀ message ∈ final.world.store.messages, message ∉ returned.world.store.messages →
      message.OnTop channelId → message.authorId ≠ some userId →
        message.isUnread channelId userId (final.world.store.lastRead channelId userId) = true

def CatchUpSkipsNothing (ids : Ids) (toLowerCase : String → String) : Prop :=
  ∀ world, CatchUpComplete ids toLowerCase condition world

/-- A message of the main timeline is stored with an id that is greater than those there
already, and than what other users have marked as read. -/
def arrivesInOrder : RunCondition chatSignature World Operation where
  mayCall
    | .db (.insertMessage row), world, _ => row.threadRootId = none →
        (∀ message ∈ world.store.messages, message.OnTop row.channelId → message.id < row.id) ∧
          ∀ state ∈ world.store.readStates, state.channelId = row.channelId →
            row.authorId ≠ some state.userId →
              ∀ lastRead ∈ state.lastReadMessageId, lastRead < row.id
    | _, _, _ => True
  mayStop _ := True

end DubEcosystem.Chat
