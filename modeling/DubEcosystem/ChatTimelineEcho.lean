import DubEcosystem.ChatTimeline
import Mathlib.Data.String.Basic

/-!
# fe6-chat: the answer to an own post and its realtime frame

One post reaches the client twice, as the answer of its request and as a frame of the
channel, in either order.  Every reducer keeps the messages ascending, so that two
timelines are compared by their members.
-/

namespace DubEcosystem.ChatTimeline

open AscendingTables List

variable {Id : Type}

section Claim

variable (Id) in
structure Timeline [LinearOrder Id] extends ChannelViewState Id where
  ascending : Ascending Message.id messages

variable (Id) in
structure OwnPost (currentUserId : String) where
  clientTempId : String
  message : WireMessage Id
  isOwn : message.authorId = some currentUserId

/-- The frame that chat-service sends of a post. -/
def OwnPost.event {currentUserId : String} (post : OwnPost Id currentUserId) :
    MessageCreated Id where
  channelId := post.message.channelId
  messageId := post.message.id
  authorId := currentUserId
  body := post.message.body
  «at» := post.message.createdAt
  threadRootId := post.message.threadRootId

/-- The exported reducers with their arguments. -/
inductive Reducer (Id : Type) where
  | upsertMessage (message : WireMessage Id)
  | mergeMessages (page : List (WireMessage Id))
  | markDeleted (id : Id) («at» : String)
  | removeMessage (id : Id)
  | addPending (pending : PendingMessage Id)
  | ackPending (clientTempId : String) (message : WireMessage Id)
  | failPending (clientTempId : String)
  | discardPending (clientTempId : String)
  | applyRealtimeEvent (event : ChatRealtimeEvent Id) (currentUserId : String)
  | applyReactions (messageId : Id) (reactions : List Reaction)
  | toggleReactionLocal (id : Id) (emoji userId : String)

variable [LinearOrder Id]

def Reducer.run (state : ChannelViewState Id) : Reducer Id → ChannelViewState Id
  | upsertMessage message =>
    { state with messages := ChatTimeline.upsertMessage state.messages message }
  | mergeMessages page =>
    { state with messages := ChatTimeline.mergeMessages state.messages page }
  | markDeleted id «at» =>
    { state with messages := ChatTimeline.markDeleted state.messages id «at» }
  | removeMessage id =>
    { state with messages := ChatTimeline.removeMessage state.messages id }
  | addPending pending => ChatTimeline.addPending state pending
  | ackPending clientTempId message => ChatTimeline.ackPending state clientTempId message
  | failPending clientTempId => ChatTimeline.failPending state clientTempId
  | discardPending clientTempId => ChatTimeline.discardPending state clientTempId
  | applyRealtimeEvent event currentUserId =>
    ChatTimeline.applyRealtimeEvent state event currentUserId
  | applyReactions messageId reactions =>
    { state with messages := ChatTimeline.applyReactions state.messages messageId reactions }
  | toggleReactionLocal id emoji userId =>
    { state with messages := ChatTimeline.toggleReactionLocal state.messages id emoji userId }

variable {currentUserId : String}

def ackThenEcho (state : ChannelViewState Id) (post : OwnPost Id currentUserId) :
    ChannelViewState Id :=
  applyRealtimeEvent (ackPending state post.clientTempId post.message)
    (.messageCreated post.event) currentUserId

def echoThenAck (state : ChannelViewState Id) (post : OwnPost Id currentUserId) :
    ChannelViewState Id :=
  ackPending (applyRealtimeEvent state (.messageCreated post.event) currentUserId)
    post.clientTempId post.message

def otherPending (state : ChannelViewState Id) (post : OwnPost Id currentUserId) :
    List (PendingMessage Id) :=
  state.pending.filter fun p => p.clientTempId ≠ post.clientTempId

/-- Both orders give the same messages and remove the entry of the post alone, a frame of a
message that is loaded leaves it as it is, and every reducer keeps the ids ascending. -/
structure AckAndEchoCommute (timeline : Timeline Id) (post : OwnPost Id currentUserId)
    (event : MessageCreated Id) : Prop where
  sameMessages :
    (ackThenEcho timeline.toChannelViewState post).messages =
      (echoThenAck timeline.toChannelViewState post).messages
  ackThenEchoRemoves :
    (ackThenEcho timeline.toChannelViewState post).pending =
      otherPending timeline.toChannelViewState post
  echoThenAckRemoves :
    (echoThenAck timeline.toChannelViewState post).pending =
      otherPending timeline.toChannelViewState post
  leavesLoaded : ∀ loaded ∈ timeline.messages, loaded.id = event.messageId →
    loaded ∈ (applyRealtimeEvent timeline.toChannelViewState (.messageCreated event)
      currentUserId).messages
  keepsAscending : ∀ reducer : Reducer Id,
    Ascending Message.id (reducer.run timeline.toChannelViewState).messages

/-- The frame of the post says all that its answer says, and no other post that is under way
has its body. -/
def EchoSaysAll (state : ChannelViewState Id) (post : OwnPost Id currentUserId) : Prop :=
  post.message.channelId = state.channelId → match post.message.threadRootId with
    | some threadRootId => threadRootId ≠ post.message.id
    | none =>
      normalizeMessage post.message = post.event.message ∧
        ∀ p ∈ state.pending, p.clientTempId ≠ post.clientTempId → p.state ≠ .failed →
          p.request.body ≠ post.message.body

/-- A loaded message that a frame is about is as the frame says. -/
def LoadedAsSaid (state : ChannelViewState Id) (event : MessageCreated Id) : Prop :=
  event.channelId = state.channelId → ∀ loaded ∈ state.messages, loaded.id = event.messageId →
    match event.threadRootId with
    | some threadRootId => threadRootId ≠ event.messageId
    | none => loaded = event.message

end Claim

section Ascent

variable [LinearOrder Id]

variable {messages : List (Message Id)}

theorem ascending_upsertMessage
    (ascending : Ascending Message.id messages) (message : WireMessage Id) :
    Ascending Message.id (upsertMessage messages message) :=
  ascending.place _

theorem ascending_mergeMessages
    (ascending : Ascending Message.id messages) (page : List (WireMessage Id)) :
    Ascending Message.id (mergeMessages messages page) := by
  induction page generalizing messages with
  | nil => exact ascending
  | cons message page ih => exact ih (ascending_upsertMessage ascending message)

variable {state : ChannelViewState Id}

theorem ascending_applyMessageCreated (ascending : Ascending Message.id state.messages)
    (event : MessageCreated Id) (currentUserId : String) :
    Ascending Message.id (applyMessageCreated state event currentUserId).messages := by
  cases isReply : event.threadRootId with
  | some threadRootId =>
    simp only [applyMessageCreated, isReply]
    exact ascending.change threadRootId fun _ => rfl
  | none =>
    simpa [applyMessageCreated, isReply] using ascending_upsertMessage ascending _

theorem ascending_applyRealtimeEvent (ascending : Ascending Message.id state.messages)
    (event : ChatRealtimeEvent Id) (currentUserId : String) :
    Ascending Message.id (applyRealtimeEvent state event currentUserId).messages := by
  by_cases elsewhere : event.channelId ≠ state.channelId
  · simpa [applyRealtimeEvent, elsewhere] using ascending
  · simp only [applyRealtimeEvent, if_neg elsewhere]
    cases event with
    | messageCreated event => exact ascending_applyMessageCreated ascending event currentUserId
    | messageDeleted _ messageId _ mode =>
      by_cases isHard : mode = some .hard
      · simp only [if_pos isHard]
        exact ascending.drop messageId
      · simp only [if_neg isHard]
        exact ascending.change messageId fun _ => rfl
    | memberAdded | memberRemoved => exact ascending
    | reactionUpdated _ messageId _ => exact ascending.change messageId fun _ => rfl

theorem Reducer.ascending_run (ascending : Ascending Message.id state.messages)
    (reducer : Reducer Id) : Ascending Message.id (reducer.run state).messages := by
  cases reducer with
  | upsertMessage message | ackPending _ message => exact ascending_upsertMessage ascending message
  | mergeMessages page => exact ascending_mergeMessages ascending page
  | markDeleted id | toggleReactionLocal id => exact ascending.change id fun _ => rfl
  | removeMessage id => exact ascending.drop id
  | addPending | failPending | discardPending => exact ascending
  | applyRealtimeEvent event currentUserId =>
    exact ascending_applyRealtimeEvent ascending event currentUserId
  | applyReactions messageId => exact ascending.change messageId fun _ => rfl

end Ascent

section Frames

variable [LinearOrder Id] {currentUserId : String}

variable {state : ChannelViewState Id}

theorem applyRealtimeEvent_elsewhere {event : ChatRealtimeEvent Id}
    (elsewhere : event.channelId ≠ state.channelId) :
    applyRealtimeEvent state event currentUserId = state := by
  simp [applyRealtimeEvent, elsewhere]

variable {event : MessageCreated Id}

theorem applyRealtimeEvent_created (here : event.channelId = state.channelId) :
    applyRealtimeEvent state (.messageCreated event) currentUserId =
      applyMessageCreated state event currentUserId := by
  simp [applyRealtimeEvent, ChatRealtimeEvent.channelId, here]

variable {threadRootId : Id}

theorem messages_applyMessageCreated_reply (isReply : event.threadRootId = some threadRootId) :
    (applyMessageCreated state event currentUserId).messages =
      change Message.id state.messages threadRootId fun root =>
        { root with replyCount := root.replyCount + 1 } := by
  simp [applyMessageCreated, isReply]

theorem messages_applyMessageCreated_post (isPost : event.threadRootId = none) :
    (applyMessageCreated state event currentUserId).messages =
      place Message.id state.messages event.message := by
  simp [applyMessageCreated, isPost, upsertMessage]

theorem notMem_countReply {messages : List (Message Id)}
    (ascending : Ascending Message.id messages) {message : Message Id}
    (loaded : message ∈ messages) :
    message ∉ change Message.id messages message.id fun root =>
      { root with replyCount := root.replyCount + 1 } := by
  rw [change_eq ascending, List.mem_map]
  rintro ⟨old, oldMem, becomes⟩
  have oldId : old.id = message.id := by
    rw [← becomes]
    split <;> rfl
  rw [if_pos oldId, ascending.eq_of_key_eq oldMem loaded oldId] at becomes
  exact absurd (congrArg Message.replyCount becomes) (Nat.succ_ne_self _)

/-- Exactly the loaded messages that are as the frame says stay as they are. -/
theorem leavesLoaded_iff (timeline : Timeline Id) (event : MessageCreated Id) :
    (∀ loaded ∈ timeline.messages, loaded.id = event.messageId →
      loaded ∈ (applyRealtimeEvent timeline.toChannelViewState (.messageCreated event)
        currentUserId).messages) ↔
      LoadedAsSaid timeline.toChannelViewState event := by
  by_cases here : event.channelId = timeline.channelId
  swap
  · rw [applyRealtimeEvent_elsewhere (by simpa [ChatRealtimeEvent.channelId] using here)]
    simp only [LoadedAsSaid, here, false_implies, iff_true]
    exact fun loaded loadedMem _ => loadedMem
  rw [applyRealtimeEvent_created here]
  simp only [LoadedAsSaid, here, true_implies]
  apply forall₃_congr
  intro loaded loadedMem sameId
  cases isReply : event.threadRootId with
  | some threadRootId =>
    rw [messages_applyMessageCreated_reply isReply]
    constructor
    · rintro staysLoaded rfl
      exact notMem_countReply timeline.ascending loadedMem (sameId ▸ staysLoaded)
    · intro notRoot
      rw [change_eq timeline.ascending]
      exact List.mem_map.mpr ⟨loaded, loadedMem, if_neg (by rw [sameId]; exact notRoot.symm)⟩
  | none =>
    rw [messages_applyMessageCreated_post isReply, mem_place timeline.ascending]
    constructor
    · rintro (same | ⟨-, idNe⟩)
      · exact same
      · exact absurd sameId idNe
    · exact .inl

theorem messages_ackPending (state : ChannelViewState Id) (clientTempId : String)
    (message : WireMessage Id) :
    (ackPending state clientTempId message).messages =
      place Message.id state.messages (normalizeMessage message) :=
  rfl

/-- Of a post that is no reply, the later of answer and frame stays. -/
theorem sameMessages_post_iff (timeline : Timeline Id) (post : OwnPost Id currentUserId)
    (here : post.message.channelId = timeline.channelId)
    (isPost : post.message.threadRootId = none) :
    (ackThenEcho timeline.toChannelViewState post).messages =
      (echoThenAck timeline.toChannelViewState post).messages ↔
      normalizeMessage post.message = post.event.message := by
  have ascending := timeline.ascending
  have sameId : (normalizeMessage post.message).id = post.event.message.id := rfl
  rw [ackThenEcho, echoThenAck, applyRealtimeEvent_created here, messages_ackPending,
    applyRealtimeEvent_created here, messages_applyMessageCreated_post isPost,
    messages_applyMessageCreated_post isPost, messages_ackPending,
    place_place ascending sameId, place_place ascending sameId.symm]
  constructor
  · intro same
    have echoMem : post.event.message ∈ place Message.id timeline.messages
        (normalizeMessage post.message) := by
      rw [← same]
      exact (mem_place ascending _ _).mpr (.inl rfl)
    rcases (mem_place ascending _ _).mp echoMem with isAnswer | ⟨-, idNe⟩
    · exact isAnswer.symm
    · exact absurd sameId.symm idNe
  · intro same
    rw [same]

/-- The answer to a reply and the frame that counts it are independent. -/
theorem sameMessages_reply_iff (timeline : Timeline Id) (post : OwnPost Id currentUserId)
    (here : post.message.channelId = timeline.channelId)
    (isReply : post.message.threadRootId = some threadRootId) :
    (ackThenEcho timeline.toChannelViewState post).messages =
      (echoThenAck timeline.toChannelViewState post).messages ↔
      threadRootId ≠ post.message.id := by
  have ascending := timeline.ascending
  rw [ackThenEcho, echoThenAck, applyRealtimeEvent_created here, messages_ackPending,
    applyRealtimeEvent_created here, messages_applyMessageCreated_reply isReply,
    messages_applyMessageCreated_reply isReply, messages_ackPending]
  constructor
  · rintro same rfl
    have placedMem := (mem_place ascending (normalizeMessage post.message) _).mpr (.inl rfl)
    have stays : normalizeMessage post.message ∈
        change Message.id (place Message.id timeline.messages (normalizeMessage post.message))
          post.message.id fun root => { root with replyCount := root.replyCount + 1 } := by
      rw [same]
      have keepsAscending : Ascending Message.id
          (change Message.id timeline.messages post.message.id fun root =>
            { root with replyCount := root.replyCount + 1 }) :=
        ascending.change post.message.id fun _ => rfl
      exact (mem_place keepsAscending _ _).mpr (.inl rfl)
    exact notMem_countReply (ascending.place _) placedMem stays
  · intro notRoot
    exact change_place_of_ne ascending notRoot.symm fun _ => rfl

end Frames

section Entries

variable [LinearOrder Id] {currentUserId : String}

omit [LinearOrder Id] in
theorem echoed_eq_none_iff (pending : List (PendingMessage Id)) (post : OwnPost Id currentUserId) :
    echoed pending post.event currentUserId = none ↔
      ∀ p ∈ pending, p.state ≠ .failed → p.request.body ≠ post.message.body := by
  simp [echoed, OwnPost.event]

variable {state : ChannelViewState Id} {event : MessageCreated Id}

theorem pending_applyMessageCreated_reply {threadRootId : Id}
    (isReply : event.threadRootId = some threadRootId) :
    (applyMessageCreated state event currentUserId).pending = state.pending := by
  simp [applyMessageCreated, isReply]

theorem pending_applyMessageCreated_post (isPost : event.threadRootId = none) :
    (applyMessageCreated state event currentUserId).pending =
      withoutEchoed state.pending event currentUserId := by
  simp [applyMessageCreated, isPost]

/-- An echo after the answer takes an entry away exactly when a post with its body is left. -/
theorem ackThenEcho_removes_iff (state : ChannelViewState Id) (post : OwnPost Id currentUserId)
    (here : post.message.channelId = state.channelId)
    (isPost : post.message.threadRootId = none) :
    (ackThenEcho state post).pending = otherPending state post ↔
      ∀ p ∈ otherPending state post, p.state ≠ .failed → p.request.body ≠ post.message.body := by
  rw [← echoed_eq_none_iff, ackThenEcho, applyRealtimeEvent_created here,
    pending_applyMessageCreated_post isPost]
  change withoutEchoed (otherPending state post) post.event currentUserId =
    otherPending state post ↔ _
  rw [withoutEchoed]
  cases found : echoed (otherPending state post) post.event currentUserId with
  | none => simp
  | some echo =>
    simp only [reduceCtorEq, iff_false]
    intro same
    have echoMem : echo ∈ otherPending state post := by
      simp only [echoed, OwnPost.event, if_true] at found
      exact mem_of_find?_eq_some found
    rw [← same] at echoMem
    simpa using (mem_filter.mp echoMem).2

/-- An echo before the answer takes no other entry away if no other post has its body. -/
theorem echoThenAck_removes (state : ChannelViewState Id) (post : OwnPost Id currentUserId)
    (here : post.message.channelId = state.channelId)
    (isPost : post.message.threadRootId = none)
    (single : ∀ p ∈ otherPending state post, p.state ≠ .failed →
      p.request.body ≠ post.message.body) :
    (echoThenAck state post).pending = otherPending state post := by
  rw [echoThenAck, applyRealtimeEvent_created here]
  change (applyMessageCreated state post.event currentUserId).pending.filter _ = _
  rw [pending_applyMessageCreated_post isPost, withoutEchoed]
  cases found : echoed state.pending post.event currentUserId with
  | none => rfl
  | some echo =>
    simp only [echoed, OwnPost.event, if_true] at found
    have matched : echo.state ≠ .failed ∧ echo.request.body = post.message.body := by
      simpa using find?_some found
    have isPosts : echo.clientTempId = post.clientTempId := by
      by_contra other
      have inOthers : echo ∈ otherPending state post :=
        mem_filter.mpr ⟨mem_of_find?_eq_some found, by simpa using other⟩
      exact single echo inOthers matched.1 matched.2
    simp [isPosts, otherPending]

end Entries

section Orders

variable [LinearOrder Id] {currentUserId : String}

/-- Both orders give one timeline, without the entry of the post alone. -/
def OrdersAgree (state : ChannelViewState Id) (post : OwnPost Id currentUserId) : Prop :=
  (ackThenEcho state post).messages = (echoThenAck state post).messages ∧
    (ackThenEcho state post).pending = otherPending state post ∧
      (echoThenAck state post).pending = otherPending state post

theorem ordersAgree_elsewhere {state : ChannelViewState Id} {post : OwnPost Id currentUserId}
    (elsewhere : post.message.channelId ≠ state.channelId) : OrdersAgree state post := by
  have ignored : ∀ view : ChannelViewState Id, view.channelId = state.channelId →
      applyRealtimeEvent view (.messageCreated post.event) currentUserId = view := by
    intro view sameChannel
    exact applyRealtimeEvent_elsewhere (by rw [sameChannel]; exact elsewhere)
  have ackAlone : ackThenEcho state post = ackPending state post.clientTempId post.message :=
    ignored _ rfl
  have echoFirst : echoThenAck state post = ackPending state post.clientTempId post.message := by
    rw [echoThenAck, ignored state rfl]
  rw [OrdersAgree, ackAlone, echoFirst]
  exact ⟨rfl, rfl, rfl⟩

section

variable (timeline : Timeline Id) (post : OwnPost Id currentUserId)
include timeline post

theorem ordersAgree_reply_iff (here : post.message.channelId = timeline.channelId)
    {threadRootId : Id} (isReply : post.message.threadRootId = some threadRootId) :
    OrdersAgree timeline.toChannelViewState post ↔ threadRootId ≠ post.message.id := by
  rw [OrdersAgree, sameMessages_reply_iff timeline post here isReply, and_iff_left]
  constructor
  · rw [ackThenEcho, applyRealtimeEvent_created here, pending_applyMessageCreated_reply isReply]
    rfl
  · rw [echoThenAck, applyRealtimeEvent_created here]
    change (applyMessageCreated _ post.event currentUserId).pending.filter _ = _
    rw [pending_applyMessageCreated_reply isReply]
    rfl

theorem ordersAgree_post_iff (here : post.message.channelId = timeline.channelId)
    (isPost : post.message.threadRootId = none) :
    OrdersAgree timeline.toChannelViewState post ↔
      normalizeMessage post.message = post.event.message ∧
        ∀ p ∈ timeline.pending, p.clientTempId ≠ post.clientTempId → p.state ≠ .failed →
          p.request.body ≠ post.message.body := by
  have others : (∀ p ∈ otherPending timeline.toChannelViewState post, p.state ≠ .failed →
      p.request.body ≠ post.message.body) ↔
      ∀ p ∈ timeline.pending, p.clientTempId ≠ post.clientTempId → p.state ≠ .failed →
        p.request.body ≠ post.message.body := by
    simp [otherPending]
  rw [OrdersAgree, sameMessages_post_iff timeline post here isPost,
    ackThenEcho_removes_iff _ post here isPost, others]
  apply and_congr_right'
  constructor
  · exact And.left
  · intro single
    exact ⟨single, echoThenAck_removes _ post here isPost (others.mpr single)⟩

theorem ordersAgree_iff : OrdersAgree timeline.toChannelViewState post ↔
      EchoSaysAll timeline.toChannelViewState post := by
  by_cases here : post.message.channelId = timeline.channelId
  · cases isReply : post.message.threadRootId with
    | some threadRootId =>
      simpa [EchoSaysAll, here, isReply] using ordersAgree_reply_iff timeline post here isReply
    | none =>
      simpa [EchoSaysAll, here, isReply] using ordersAgree_post_iff timeline post here isReply
  · simp [EchoSaysAll, here, ordersAgree_elsewhere here]

/-- Answer and frame of an own post commute, and a frame changes no loaded message, exactly
when the frame carries as much as the answer and as what is loaded. -/
theorem ackAndEchoCommute_iff (event : MessageCreated Id) :
    AckAndEchoCommute timeline post event ↔ EchoSaysAll timeline.toChannelViewState post ∧
        LoadedAsSaid timeline.toChannelViewState event := by
  rw [← ordersAgree_iff, ← @leavesLoaded_iff Id _ currentUserId]
  constructor
  · intro commutes
    exact ⟨⟨commutes.sameMessages, commutes.ackThenEchoRemoves, commutes.echoThenAckRemoves⟩,
      commutes.leavesLoaded⟩
  · rintro ⟨⟨sameMessages, ackThenEchoRemoves, echoThenAckRemoves⟩, leavesLoaded⟩
    exact ⟨sameMessages, ackThenEchoRemoves, echoThenAckRemoves, leavesLoaded,
      fun reducer => reducer.ascending_run timeline.ascending⟩

end

end Orders

/-- A view with the entry of one post that is under way. -/
def sendingView : Timeline Nat where
  toChannelViewState :=
    addPending (emptyChannelView "channel")
      { clientTempId := "temp", authorId := "user", state := .sending, createdAt := "now"
        request := ⟨"channel", "report", none, none, "temp"⟩ }
  ascending := .nil

def postWithFile : OwnPost Nat "user" where
  clientTempId := "temp"
  message :=
    { id := 1, channelId := "channel", authorId := some "user", body := "report"
      threadRootId := none, replyCount := none, reactions := some (.record [])
      attachments := none, attachmentFileIds := some ["file"], editedAt := none
      deletedAt := none, version := 1, createdAt := "now" }
  isOwn := rfl

/-- The frame that follows the answer takes the attachment of the post away. -/
theorem not_ackAndEchoCommute :
    ¬ AckAndEchoCommute sendingView postWithFile postWithFile.event := by
  intro commutes
  exact absurd commutes.sameMessages (by decide +kernel)

end DubEcosystem.ChatTimeline
