import DubEcosystem.ChatSystem

/-!
# chat-service: what the helpers of the operations call

Most calls of an operation only read the database, or reach something outside of it.  For
each helper of the operations the calls are named that it may issue besides.
-/

namespace DubEcosystem.Chat

open PortPrograms

def Statement.IsRead : Statement → Prop
  | .selectChannel _ => True
  | .selectChannelByDmKey _ => True
  | .selectChannelsForUser _ => True
  | .selectMember _ _ => True
  | .selectMembers _ => True
  | .selectMemberIds _ => True
  | .selectMemberships _ => True
  | .selectMessage _ => True
  | .selectMessages _ => True
  | .selectReplyCounts _ => True
  | .selectReaction _ _ _ => True
  | .selectReactions _ => True
  | .selectReadState _ _ => True
  | .countUnread _ _ _ => True
  | .selectPinned _ => True
  | .selectPin _ _ => True
  | .selectSearch _ => True
  | .selectSettings _ => True
  | .selectSections => True
  | .selectSection _ => True
  | .selectAssignments _ => True
  | _ => False

/-- A call that changes neither the database nor which ids were drawn. -/
def Call.IsRead : Call → Prop
  | .db statement => statement.IsRead
  | .newChannelId => False
  | .newMessageId => False
  | .newSectionId => False
  | _ => True

/-- A read answers, and leaves the store alone. -/
theorem Store.exec_read {statement : Statement} (isRead : statement.IsRead) (store : Store) :
    (∃ result, (store.exec statement).1 = .ok result) ∧ (store.exec statement).2 = store := by
  cases statement <;> first | exact isRead.elim | exact ⟨⟨_, rfl⟩, rfl⟩

theorem world_of_isRead {ids : Ids} {request : Call} {before after : World}
    {answer : Except ChatError (Call.Result request)} (isRead : request.IsRead)
    (answers : (chatMachine ids).Answers request before answer after) : after = before := by
  cases request with
  | db statement =>
    rw [(answers_db answers).2, (Store.exec_read isRead before.store).2]
  | newChannelId | newMessageId | newSectionId => exact isRead.elim
  | now | holdsModerate userId | eventExists eventId | teamMemberUserIds teamIds
  | registerLinks messageId fileIds | publish event | publishToChannel channelId event
  | evictNonMembers channelId memberIds | audit record | signWsTicket channelId userId =>
    exact answers

/-- Whatever its calls are answered, the action issues only `permitted` ones. -/
abbrev Issues {α : Type} (permitted : Call → Prop) (action : ChatM α) : Prop :=
  Keeps (P := chatPorts) (fun _ _ => True) permitted action

section Helpers

open TaskService (JsonField)

variable {permitted : Call → Prop}

variable {value : JsonField String}

theorem issues_nonEmptyString {field : String} : Issues permitted (nonEmptyString value field) := by
  unfold nonEmptyString
  split
  · split
    · exact Keeps.throw
    · exact Keeps.pure
  · exact Keeps.throw

theorem issues_requireBody : Issues permitted (requireBody value) := by
  apply Keeps.bind issues_nonEmptyString
  intro text
  split
  · exact Keeps.throw
  · exact Keeps.pure

theorem issues_requireLimit {raw : JsonField ℚ} : Issues permitted (requireLimit raw) := by
  unfold requireLimit
  split
  · exact Keeps.pure
  · split
    · exact Keeps.pure
    · exact Keeps.throw
  · exact Keeps.throw

theorem issues_requireCursor {cursor : Option Cursor} :
    Issues permitted (requireCursor cursor) := by
  unfold requireCursor
  split
  · exact Keeps.pure
  · exact Keeps.pure
  · exact Keeps.throw

theorem issues_requireVersion {version : Option Int} :
    Issues permitted (requireVersion version) := by
  unfold requireVersion
  split
  · exact Keeps.pure
  · exact Keeps.throw

variable (reads : ∀ request : Call, request.IsRead → permitted request)
include reads

theorem issues_loadReadable {id userId : String} : Issues permitted (loadReadable id userId) := by
  apply Keeps.port_bind
  · exact reads _ trivial
  rintro (_ | channel) -
  · exact Keeps.throw
  · apply Keeps.port_bind
    · exact reads _ trivial
    intro membership _
    split
    · exact Keeps.throw
    · exact Keeps.pure

variable {userId : String} {channel : ChannelRow}

theorem issues_isChannelAdmin {membership : Option MemberRow} :
    Issues permitted (isChannelAdmin userId channel membership) := by
  have decides : ∀ found : Option MemberRow,
      Issues permitted (if found.any fun member => member.role = .admin then pure true
        else ask (.holdsModerate userId)) := by
    intro found
    split
    · exact Keeps.pure
    · exact Keeps.port (reads _ trivial)
  cases membership with
  | some membership => exact decides (some membership)
  | none => exact Keeps.port_bind (reads _ trivial) fun found _ => decides found

theorem issues_reactionsFor {messageIds : List String} :
    Issues permitted (Repo.reactionsFor messageIds) := by
  unfold Repo.reactionsFor
  split
  · exact Keeps.pure
  · exact Keeps.port (reads _ trivial)

theorem issues_replyCounts {rootIds : List String} :
    Issues permitted (Repo.replyCounts rootIds) := by
  unfold Repo.replyCounts
  split
  · exact Keeps.pure
  · exact Keeps.port (reads _ trivial)

theorem issues_decorate {rows : List MessageRow} {withReplyCounts : Bool} :
    Issues permitted (decorate rows withReplyCounts) := by
  apply Keeps.bind (issues_reactionsFor reads)
  intro reactions
  split
  · exact Keeps.bind (issues_replyCounts reads) fun counts => Keeps.pure
  · exact Keeps.bind Keeps.pure fun counts => Keeps.pure

theorem issues_resolveMentions {text : String} :
    Issues permitted (resolveMentions userId channel text) := by
  unfold resolveMentions
  simp only []
  split
  · exact Keeps.bind Keeps.pure fun _ => Keeps.pure
  · apply Keeps.port_bind
    · exact reads _ trivial
    intro userIds _
    split
    · exact Keeps.port_bind (reads _ trivial) fun _ _ =>
        Keeps.bind Keeps.pure fun _ => Keeps.pure
    · exact Keeps.bind Keeps.pure fun _ => Keeps.pure

theorem issues_dmRecipients : Issues permitted (dmRecipients userId channel) := by
  unfold dmRecipients
  split
  · exact Keeps.port_bind (reads _ trivial) fun _ _ => Keeps.pure
  · exact Keeps.pure

theorem issues_announceMessage {row : MessageRow} :
    Issues permitted (announceMessage userId channel row) := by
  have tells : ∀ mentions recipients, Issues permitted (do
      ask (.publish (.messageCreated channel.id row.id userId mentions recipients))
      ask (.publishToChannel channel.id
        (.messageCreated channel.id row.id userId row.body row.createdAt row.threadRootId))) :=
    fun mentions recipients => Keeps.port_bind (reads _ trivial) fun _ _ =>
      Keeps.port (reads _ trivial)
  have resolves : Issues permitted (do
      let mentions ← resolveMentions userId channel row.body
      let recipients ← dmRecipients userId channel
      ask (.publish (.messageCreated channel.id row.id userId mentions recipients))
      ask (.publishToChannel channel.id
        (.messageCreated channel.id row.id userId row.body row.createdAt row.threadRootId))) :=
    Keeps.bind (issues_resolveMentions reads) fun mentions =>
      Keeps.bind (issues_dmRecipients reads) fun recipients => tells mentions recipients
  unfold announceMessage
  split
  · exact Keeps.port_bind (reads _ trivial) fun _ _ => resolves
  · exact resolves

theorem issues_pinnedList {channelId : String} : Issues permitted (pinnedList channelId) := by
  apply Keeps.port_bind
  · exact reads _ trivial
  intro rows _
  exact Keeps.bind (issues_reactionsFor reads) fun _ => Keeps.pure

theorem issues_resolvePolicy : Issues permitted resolvePolicy :=
  Keeps.port_bind (reads _ trivial) fun _ _ => Keeps.pure

theorem issues_announceMembers {userId channelId now : String} (members : List String) :
    Issues permitted (announceMembers userId channelId now members) := by
  induction members with
  | nil => exact Keeps.pure
  | cons uid rest ih =>
    unfold announceMembers
    split
    · exact ih
    · exact Keeps.port_bind (reads _ trivial) fun _ _ =>
        Keeps.port_bind (reads _ trivial) fun _ _ => ih

theorem issues_requireEvent {type : ChannelType} {eventId : Option String} :
    Issues permitted (requireEvent type eventId) := by
  unfold requireEvent
  split
  · split
    · exact Keeps.throw
    · apply Keeps.port_bind
      · exact reads _ trivial
      intro found _
      split
      · exact Keeps.pure
      · exact Keeps.throw
  · exact Keeps.pure

theorem issues_ensureCanWrite
    (updates : ∀ row : MemberRow, row.channelId = channel.id → permitted (.db (.updateMember row)))
    (inserts : ∀ row : MemberRow, row.channelId = channel.id → permitted (.db (.insertMember row))) :
    Issues permitted (ensureCanWrite channel userId) := by
  apply Keeps.port_bind
  · exact reads _ trivial
  rintro (_ | existing) -
  · simp only []
    split
    · exact Keeps.throw
    · apply Keeps.port_bind
      · exact reads _ trivial
      intro now _
      apply Keeps.bind _ fun _ => Keeps.pure
      apply Keeps.port_bind
      · exact updates _ rfl
      intro updated _
      split
      · exact Keeps.pure
      · exact Keeps.port (inserts _ rfl)
  · exact Keeps.pure

end Helpers

end DubEcosystem.Chat
