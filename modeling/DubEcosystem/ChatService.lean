import DubEcosystem.ChatMentions
import DubEcosystem.ChatRepo
import DubEcosystem.TaskServiceStatements

/-!
# chat-service: the operations

`ChatService` of `service.ts`.
-/

namespace DubEcosystem.Chat

open IdentityRoster (jsLength trim)
open TaskService (JsonField)

variable (value : JsonField String)

def nonEmptyString (field : String) : ChatM String :=
  match value with
  | .value text =>
    if trim text = "" then throw (validationFailed field "required") else pure text
  | _ => throw (validationFailed field "required")

def MAX_SECTION_NAME_LEN : Nat := 40

def MAX_SECTIONS : Nat := 50

def requireSectionName : ChatM String := do
  let text ← nonEmptyString value "name"
  if MAX_SECTION_NAME_LEN < jsLength (trim text) then throw (validationFailed "name" "too_long")
  else pure (trim text)

def requireBody : ChatM String := do
  let text ← nonEmptyString value "body"
  if MAX_BODY_LEN < jsLength text then throw (validationFailed "body" "too_long")
  else pure text

/-- A limit that is no number has no upper bound to break. -/
def requireLimit (raw : JsonField ℚ) : ChatM Int :=
  match raw with
  | .undefined => pure DEFAULT_LIMIT
  | .value limit =>
    if limit.den = 1 ∧ 1 ≤ limit ∧ limit ≤ MAX_LIMIT then pure limit.num
    else throw (validationFailed "limit" (if MAX_LIMIT < limit then "too_large" else "invalid"))
  | _ => throw (validationFailed "limit" "invalid")

def DM_MAX_OTHERS : Nat := 8

def sameSet (first second : List String) : Bool :=
  first.length = second.length ∧ first.all fun item => item ∈ second

/-- A cursor by what `decodeCursor` makes of it; one that is malformed by its start. -/
inductive Cursor where
  | id (id : String)
  | malformed (start : String)

def requireCursor (cursor : Option Cursor) : ChatM (Option String) :=
  match cursor with
  | none => pure none
  | some (.id id) => pure (some id)
  | some (.malformed start) =>
    throw (validationFailed "cursor" "invalid" (some ("unparseable cursor: " ++ start)))

def requireVersion (version : Option Int) : ChatM Int :=
  match version with
  | some version => pure version
  | none => throw (validationFailed "version" "required")

/-- `loadReadable`: a private channel is missing to those outside of it. -/
def loadReadable (id userId : String) : ChatM (ChannelRow × Option MemberRow) := do
  let channel : Option ChannelRow ← query (.selectChannel id)
  match channel with
  | none => throw (notFound "channel" id)
  | some channel => do
    let membership : Option MemberRow ← query (.selectMember id userId)
    if channel.visibility = .isPrivate ∧ membership = none then
      throw (notFound "channel" id)
    else pure (channel, membership)

/-- `ensureCanWrite`: writing to a public channel joins it. -/
def ensureCanWrite (channel : ChannelRow) (userId : String) : ChatM MemberRow := do
  let existing : Option MemberRow ← query (.selectMember channel.id userId)
  match existing with
  | some existing => pure existing
  | none =>
    if channel.visibility ≠ .isPublic then throw (forbidden "not a channel member")
    else do
      let now : String ← ask .now
      let row : MemberRow := ⟨channel.id, userId, .member, now⟩
      Repo.addMember row
      pure row

variable (userId : String)

def isChannelAdmin (channel : ChannelRow) (membership : Option MemberRow) :
    ChatM Bool := do
  let found : Option MemberRow ← match membership with
    | some membership => pure (some membership)
    | none => query (.selectMember channel.id userId)
  if found.any fun member => member.role = .admin then pure true
  else ask (.holdsModerate userId)

def withDmMembers (row : ChannelRow) : ChatM Channel :=
  if row.type ≠ .dm then pure (toChannel row)
  else do
    let members : List MemberRow ← query (.selectMembers row.id)
    pure { toChannel row with memberIds := some (members.map MemberRow.userId) }

/-- `findDm`: the members are compared, since the key is a hash. -/
def findDm (key : String) (participants : List String) : ChatM (Option Channel) := do
  let existing : Option ChannelRow ← query (.selectChannelByDmKey key)
  match existing with
  | none => pure none
  | some existing => do
    let members : List MemberRow ← query (.selectMembers existing.id)
    let current := members.map MemberRow.userId
    if sameSet current participants then
      pure (some { toChannel existing with memberIds := some current })
    else throw (errDmConflict "DM key collision")

structure CreateChannelRequest where
  /-- Nothing when it is none of the types. -/
  type : Option ChannelType
  visibility : Option ChannelVisibility
  name : JsonField String
  topic : Option String
  eventId : Option String
  /-- The texts of the list, when it is one. -/
  memberIds : List String

/-- The others are told of their membership. -/
def announceMembers (userId channelId now : String) : List String → ChatM Unit
  | [] => pure ()
  | uid :: rest => do
    if uid = userId then announceMembers userId channelId now rest
    else do
      ask (.publish (.memberAdded channelId uid))
      ask (.publishToChannel channelId (.memberAdded channelId uid now))
      announceMembers userId channelId now rest

def requireEvent (type : ChannelType) (eventId : Option String) : ChatM (Option String) :=
  if type = .event then
    match eventId.filter fun eventId => eventId ≠ "" with
    | none => throw (validationFailed "eventId" "required")
    | some eventId => do
      let exists' : Bool ← ask (.eventExists eventId)
      if exists' then pure (some eventId) else throw (notFound "event" eventId)
  else pure none

/-- The caller and the others, each once. -/
def initialMembers (body : CreateChannelRequest) : List String :=
  unique (userId :: body.memberIds.filter fun id => id ≠ "")

/-- The direct message that there is already. -/
def findExistingDm (type : ChannelType) (members : List String) : ChatM (Option Channel) :=
  if type = .dm then
    if members.length - 1 < 1 then throw (validationFailed "memberIds" "required")
    else if DM_MAX_OTHERS < members.length - 1 then
      throw (validationFailed "memberIds" "too_many")
    else findDm (dmKey members) members
  else pure none

def memberRows (channelId : String) (type : ChannelType) (now : String)
    (members : List String) : List MemberRow :=
  members.map fun uid =>
    ⟨channelId, uid, if uid = userId ∧ type ≠ .dm then .admin else .member, now⟩

def createChannel (body : CreateChannelRequest) : ChatM Channel := do
  match body.type with
  | none => throw (validationFailed "type" "invalid")
  | some type =>
  match if type = .dm then some .isPrivate else body.visibility with
  | none => throw (validationFailed "visibility" "invalid")
  | some visibility => do
    let name ← if type = .dm then pure "DM" else nonEmptyString body.name "name"
    let eventId ← requireEvent type body.eventId
    let members := initialMembers userId body
    let existing ← findExistingDm type members
    match existing with
    | some existing => pure existing
    | none => do
      let now : String ← ask .now
      let id : String ← ask .newChannelId
      let row : ChannelRow :=
        { id, type, visibility, name, topic := body.topic, eventId
          dmKey := if type = .dm then some (dmKey members) else none
          createdBy := userId, archivedAt := none, version := 1
          createdAt := now, updatedAt := now }
      let created : Bool ←
        query (.insertChannelWithMembers row (memberRows userId id type now members))
      if created then do
        ask (.publish (.channelCreated id name))
        announceMembers userId id now members
        ask (.audit ⟨"chat.channel.created", some userId, "channel", id, .created type visibility⟩)
        pure (if type = .dm then { toChannel row with memberIds := some members }
          else toChannel row)
      else do
        -- the other participant was faster, and has written everything at once
        let winner ← if type = .dm then findDm (dmKey members) members else pure none
        match winner with
        | some winner => pure winner
        | none => throw (errDmConflict "DM create conflict")

structure GetChannelResponse where
  channel : Channel
  membership : Option MemberRow

def getChannel (id : String) : ChatM GetChannelResponse := do
  let (channel, membership) ← loadReadable id userId
  pure ⟨← withDmMembers channel, membership⟩

def listChannels (cursor : Option Cursor) (limit : JsonField ℚ)
    (eventId : Option String) : ChatM (Paginated Channel) := do
  let limit ← requireLimit limit
  let afterId ← requireCursor cursor
  let rows : List ChannelRow ← query (.selectChannelsForUser
    ⟨userId, eventId, false, limit + 1, afterId⟩)
  let page := rows.take limit.toNat
  let dmMembers ←
    Repo.memberIdsFor ((page.filter fun row => row.type = .dm).map ChannelRow.id)
  let items := page.map fun row =>
    if row.type = .dm then
      { toChannel row with memberIds := some (Repo.memberIdsOf dmMembers row.id) }
    else toChannel row
  pure ⟨items, if limit < rows.length then page.getLast?.map ChannelRow.id else none⟩

structure UpdateChannelRequest where
  version : Option Int
  name : JsonField String
  topic : Option (Option String)
  archived : Option Bool

def updateChannel (id : String) (body : UpdateChannelRequest) : ChatM Channel := do
  let version ← requireVersion body.version
  let (channel, membership) ← loadReadable id userId
  let isAdmin ← isChannelAdmin userId channel membership
  if !isAdmin then throw (forbidden "channel admin required")
  else if channel.version ≠ version then throw (errVersionConflict id)
  else do
    let name ← if body.name.isUndefined then pure none
      else do
        let name ← nonEmptyString body.name "name"
        pure (some name)
    let archives := body.archived = some true ∧ channel.archivedAt = none
    let unarchives := body.archived = some false ∧ channel.archivedAt ≠ none
    let archivedAt : Option String ←
      if archives then do
        let now : String ← ask .now
        pure (some now)
      else if unarchives then pure none
      else pure channel.archivedAt
    if name = none ∧ body.topic = none ∧ ¬archives ∧ ¬unarchives then pure (toChannel channel)
    else do
      let now : String ← ask .now
      let next : ChannelRow :=
        { channel with
          name := name.getD channel.name, topic := body.topic.getD channel.topic, archivedAt
          version := channel.version + 1, updatedAt := now }
      let updated : Bool ← query (.updateChannel next version)
      if updated then do
        if archives then
          ask (.audit ⟨"chat.channel.archive", some userId, "channel", id, .none⟩)
        pure (toChannel next)
      else throw (errVersionConflict id)

def deleteChannel (id : String) : ChatM Unit := do
  let (channel, _) ← loadReadable id userId
  if channel.type = .dm then throw (validationFailed "type" "dm_not_deletable")
  else do
    query (.deleteChannel id)
    ask (.audit ⟨"chat.channel.delete", some userId, "channel", id,
      .deleted channel.name channel.type⟩)

def updateChannelVisibility (id : String) (version : Option Int)
    (visibility : Option ChannelVisibility) : ChatM Channel := do
  let version ← requireVersion version
  match visibility with
  | none => throw (validationFailed "visibility" "invalid")
  | some visibility => do
    let (channel, _) ← loadReadable id userId
    if channel.type = .dm then throw (validationFailed "type" "dm_visibility_fixed")
    else if channel.version ≠ version then throw (errVersionConflict id)
    else if channel.visibility = visibility then pure (toChannel channel)
    else do
      let now : String ← ask .now
      let next : ChannelRow :=
        { channel with visibility, version := channel.version + 1, updatedAt := now }
      let updated : Bool ← query (.updateChannel next version)
      if !updated then throw (errVersionConflict id)
      else do
        if next.visibility = .isPrivate then do
          let members : List MemberRow ← query (.selectMembers id)
          ask (.evictNonMembers id (members.map MemberRow.userId))
        ask (.audit ⟨"chat.channel.visibility", some userId, "channel", id,
          .visibility channel.visibility next.visibility⟩)
        pure (toChannel next)

structure ChatSectionList where
  items : List ChatSection
  assignments : List AssignmentRow

def listSections : ChatM ChatSectionList := do
  let rows : List SectionRow ← query .selectSections
  let assignments : List AssignmentRow ← query (.selectAssignments userId)
  pure ⟨rows.map toSection, assignments⟩

def createSection (name : JsonField String) : ChatM ChatSection := do
  let name ← requireSectionName name
  let existing : List SectionRow ← query .selectSections
  if MAX_SECTIONS ≤ existing.length then throw (validationFailed "name" "too_many_sections")
  else do
    let now : String ← ask .now
    let id : String ← ask .newSectionId
    let last := existing.foldl (fun last row => max last row.position) (-1)
    let row : SectionRow := ⟨id, userId, name, last + 1, now, now⟩
    query (.insertSection row)
    pure (toSection row)

def updateSection (id : String) (name : JsonField String) (position : JsonField Int) :
    ChatM ChatSection := do
  let current : Option SectionRow ← query (.selectSection id)
  match current with
  | none => throw (notFound "section" id)
  | some current => do
    let now : String ← ask .now
    let newName ← if name.isUndefined then pure current.name else requireSectionName name
    let newPosition ← match position with
      | .undefined => pure current.position
      | .value position =>
        if position < 0 then throw (validationFailed "position" "invalid") else pure position
      | _ => throw (validationFailed "position" "invalid")
    let next : SectionRow :=
      { current with updatedAt := now, name := newName, position := newPosition }
    query (.updateSection next)
    pure (toSection next)

def deleteSection (id : String) : ChatM Unit := do
  let deleted : Bool ← query (.deleteSection id)
  if deleted then pure () else throw (notFound "section" id)

def setChannelSection (channelId : String) (sectionId : JsonField String) : ChatM Unit := do
  match sectionId with
  | .null => do
    let _ ← loadReadable channelId userId
    query (.deleteAssignment channelId)
  | .value sectionId => do
    let _ ← loadReadable channelId userId
    let found : Option SectionRow ← query (.selectSection sectionId)
    if found = none then throw (notFound "section" sectionId)
    else query (.upsertAssignment ⟨channelId, sectionId⟩)
  | _ => throw (validationFailed "sectionId" "required")

def addMember (id : String) (member : JsonField String) (asAdmin : Bool) : ChatM Unit := do
  let added ← nonEmptyString member "userId"
  let channel : Option ChannelRow ← query (.selectChannel id)
  match channel with
  | none => throw (notFound "channel" id)
  | some channel =>
    if channel.type = .dm then throw (errDmMembersFixed id)
    else do
      let isAdmin ← isChannelAdmin userId channel none
      if !isAdmin then throw (forbidden "channel admin required")
      else if channel.archivedAt ≠ none then throw (errArchived id)
      else do
        let existing : Option MemberRow ← query (.selectMember id added)
        if existing ≠ none then pure ()
        else do
          let now : String ← ask .now
          Repo.addMember ⟨id, added, if asAdmin then .admin else .member, now⟩
          ask (.publish (.memberAdded id added))
          ask (.publishToChannel id (.memberAdded id added now))
          ask (.audit ⟨"chat.member.add", some userId, "channel", id, .member added none⟩)

def removeMember (id removed : String) : ChatM Unit := do
  let channel : Option ChannelRow ← query (.selectChannel id)
  match channel with
  | none => throw (notFound "channel" id)
  | some channel =>
    if channel.type = .dm then throw (errDmMembersFixed id)
    else do
      let isAllowed ← if removed = userId then pure true
        else isChannelAdmin userId channel none
      if !isAllowed then throw (forbidden "channel admin or self required")
      else do
        let deleted : Bool ← query (.deleteMember id removed)
        if !deleted then pure ()
        else do
          let now : String ← ask .now
          ask (.publish (.memberRemoved id removed))
          ask (.publishToChannel id (.memberRemoved id removed now))
          ask (.audit ⟨"chat.member.remove", some userId, "channel", id,
            .member removed (some (removed = userId))⟩)

def listMembers (id : String) : ChatM (List MemberRow) := do
  let _ ← loadReadable id userId
  query (.selectMembers id)

structure PostMessageRequest where
  channelId : String
  body : JsonField String
  threadRootId : Option String
  attachmentFileIds : List String

def checkThreadRoot (channelId : String) (threadRootId : Option String) : ChatM Unit :=
  match threadRootId with
  | none => pure ()
  | some threadRootId => do
    let root : Option MessageRow ← query (.selectMessage threadRootId)
    if root.any fun root => root.channelId = channelId then pure ()
    else throw (validationFailed "threadRootId" "not_in_channel")

def resolveMentions (channel : ChannelRow) (text : String) :
    ChatM (List String) := do
  let teamIds := extractTeamMentions text
  let fromTeams ←
    if teamIds = [] then pure []
    else do
      let userIds : List String ← ask (.teamMemberUserIds teamIds)
      if channel.visibility = .isPrivate ∧ userIds ≠ [] then do
        let members : List MemberRow ← query (.selectMembers channel.id)
        pure (userIds.filter fun uid => uid ∈ members.map MemberRow.userId)
      else pure userIds
  pure (mentionTargets userId text fromTeams)

/-- The other members of a direct message. -/
def dmRecipients (channel : ChannelRow) : ChatM (List String) :=
  if channel.type = .dm then do
    let members : List MemberRow ← query (.selectMembers channel.id)
    pure ((members.map MemberRow.userId).filter fun uid => uid ≠ userId)
  else pure []

/-- What happens after a message is stored. -/
def announceMessage (channel : ChannelRow) (row : MessageRow) :
    ChatM Unit := do
  if row.attachmentFileIds ≠ [] then
    ask (.registerLinks row.id row.attachmentFileIds)
  let mentions ← resolveMentions userId channel row.body
  let recipients ← dmRecipients userId channel
  ask (.publish (.messageCreated channel.id row.id userId mentions recipients))
  ask (.publishToChannel channel.id
    (.messageCreated channel.id row.id userId row.body row.createdAt row.threadRootId))

def postMessage (body : PostMessageRequest) : ChatM Message := do
  let text ← requireBody body.body
  let (channel, _) ← loadReadable body.channelId userId
  let _ ← ensureCanWrite channel userId
  if channel.archivedAt ≠ none then throw (errArchived channel.id)
  else do
    checkThreadRoot channel.id body.threadRootId
    let now : String ← ask .now
    let id : String ← ask .newMessageId
    let row : MessageRow :=
      { id, channelId := channel.id, threadRootId := body.threadRootId
        authorId := some userId, kind := .user, body := text
        attachmentFileIds := body.attachmentFileIds, version := 1, editedAt := none
        deletedAt := none, createdAt := now }
    query (.insertMessage row)
    announceMessage userId channel row
    pure (toMessage row [])

/-- The messages with their reactions, and at top level with their replies counted. -/
def decorate (rows : List MessageRow) (withReplyCounts : Bool) : ChatM (List Message) := do
  let reactions ← Repo.reactionsFor (rows.map MessageRow.id)
  let counts ← if withReplyCounts then Repo.replyCounts (rows.map MessageRow.id) else pure []
  pure (rows.map fun row =>
    toMessage row (Repo.reactionsOf reactions row.id) (Repo.countOf counts row.id))

structure ListMessagesQuery where
  channelId : String
  cursor : Option Cursor
  limit : JsonField ℚ
  threadRootId : Option String
  afterMessageId : Option String

def listMessages (q : ListMessagesQuery) : ChatM (Paginated Message) := do
  if q.cursor ≠ none ∧ q.afterMessageId ≠ none then
    throw (validationFailed "cursor" "exclusive_with_afterMessageId")
  else do
    let (channel, _) ← loadReadable q.channelId userId
    let limit ← requireLimit q.limit
    let threadRootId := q.threadRootId.filter fun id => id ≠ ""
    match q.afterMessageId with
    | some afterMessageId => do
      let rows : List MessageRow ← query (.selectMessages
        ⟨channel.id, threadRootId, some afterMessageId, none, limit⟩)
      let items ← decorate rows q.threadRootId.isNone
      pure ⟨items, none⟩
    | none => do
      let beforeId ← requireCursor q.cursor
      let rows : List MessageRow ← query (.selectMessages
        ⟨channel.id, threadRootId, none, beforeId.filter fun id => id ≠ "", limit + 1⟩)
      let page := rows.take limit.toNat
      let items ← decorate page q.threadRootId.isNone
      pure ⟨items, if limit < rows.length then page.getLast?.map MessageRow.id else none⟩

def editMessage (id : String) (version : Option Int) (body : JsonField String) :
    ChatM Message := do
  let version ← requireVersion version
  let found : Option MessageRow ← query (.selectMessage id)
  match found.filter fun message => message.deletedAt = none with
  | none => throw (notFound "message" id)
  | some message =>
    if message.authorId ≠ some userId then throw (forbidden "only the author can edit")
    else do
      let channel : Option ChannelRow ← query (.selectChannel message.channelId)
      if channel.any fun channel => channel.archivedAt ≠ none then
        throw (errArchived message.channelId)
      else if message.version ≠ version then throw (errVersionConflict id)
      else do
        let text ← requireBody body
        let now : String ← ask .now
        let next : MessageRow :=
          { message with body := text, editedAt := some now, version := message.version + 1 }
        let updated : Bool ← query (.updateMessage next version)
        if !updated then throw (errVersionConflict id)
        else do
          let reactions ← Repo.reactionsFor [id]
          ask (.audit ⟨"chat.message.update", some userId, "message", id, .none⟩)
          pure (toMessage next (Repo.reactionsOf reactions id))

/-- `DUB_DEFAULT_ORG_ID`. -/
def ORG_ID : String := "org_devhub"

def resolvePolicy : ChatM MessageDeletionPolicy := do
  let row : Option SettingsRow ← query (.selectSettings ORG_ID)
  pure ((row.map SettingsRow.policy).getD DEFAULT_MESSAGE_DELETION_POLICY)

structure DeletionPolicyResponse where
  policy : MessageDeletionPolicy
  version : Int

def getDeletionPolicy : ChatM DeletionPolicyResponse := do
  let row : Option SettingsRow ← query (.selectSettings ORG_ID)
  pure ((row.map fun row => ⟨row.policy, row.version⟩).getD ⟨DEFAULT_MESSAGE_DELETION_POLICY, 0⟩)

def requireMode (mode : Option MessageDeletionMode) (field : String) :
    ChatM MessageDeletionMode :=
  match mode with
  | some mode => pure mode
  | none => throw (validationFailed field "invalid")

/-- The policy is an object with two modes, each of which may be none of the modes. -/
def updateDeletionPolicy (version : Option Int)
    (policy : Option (Option MessageDeletionMode × Option MessageDeletionMode)) :
    ChatM DeletionPolicyResponse := do
  let version ← requireVersion version
  match policy with
  | none => throw (validationFailed "policy" "required")
  | some (member, moderator) => do
    let member ← requireMode member "policy.member"
    let moderator ← requireMode moderator "policy.moderator"
    let now : String ← ask .now
    let written ← Repo.setDeletionPolicy ⟨ORG_ID, ⟨member, moderator⟩, version, some userId, now⟩
    match written with
    | none => throw (errVersionConflict "deletion-policy")
    | some written => do
      ask (.audit ⟨"chat.settings.deletion_policy.update", some userId, "org", ORG_ID,
        .policy ⟨member, moderator⟩ written⟩)
      pure ⟨⟨member, moderator⟩, written⟩

structure DeleteMessageResult where
  mode : MessageDeletionMode
  message : Option Message

def eraseMessage (mode : MessageDeletionMode) (message : MessageRow) (now : String) :
    ChatM (Option Message) :=
  match mode with
  | .hard => do
    Repo.hardDeleteMessage message.id
    pure none
  | .tombstone => do
    let next : MessageRow :=
      { message with deletedAt := some now, version := message.version + 1 }
    let updated : Bool ← query (.updateMessage next message.version)
    if updated then pure (some (toMessage next []))
    else throw (errVersionConflict message.id)

def deleteMessage (id : String) : ChatM DeleteMessageResult := do
  let found : Option MessageRow ← query (.selectMessage id)
  match found with
  | none => throw (notFound "message" id)
  | some message => do
    let channel : Option ChannelRow ← query (.selectChannel message.channelId)
    match channel with
    | none => throw (notFound "message" id)
    | some channel => do
      let isModerator ← isChannelAdmin userId channel none
      if message.authorId ≠ some userId ∧ isModerator = false then
        throw (forbidden "author or channel admin required")
      else if message.deletedAt ≠ none then pure ⟨.tombstone, some (toMessage message [])⟩
      else do
        let policy ← resolvePolicy
        let mode := if isModerator then policy.moderator else policy.member
        let now : String ← ask .now
        let outcome ← eraseMessage mode message now
        ask (.publish (.messageDeleted channel.id id))
        ask (.publishToChannel channel.id (.messageDeleted channel.id id now mode))
        ask (.audit ⟨"chat.message.delete", some userId, "message", id,
          .message channel.id (message.authorId = some userId) mode⟩)
        pure ⟨mode, outcome⟩

structure ReactionToggleResponse where
  messageId : String
  reactions : Reactions

def toggleReaction (id : String) (emoji : JsonField String) :
    ChatM ReactionToggleResponse := do
  let emoji ← nonEmptyString emoji "emoji"
  let found : Option MessageRow ← query (.selectMessage id)
  match found.filter fun message => message.deletedAt = none with
  | none => throw (notFound "message" id)
  | some message => do
    let (channel, _) ← loadReadable message.channelId userId
    let _ ← ensureCanWrite channel userId
    let has : Bool ← query (.selectReaction id emoji userId)
    if has then do
      let _ : Bool ← query (.deleteReaction id emoji userId)
      pure ()
    else do
      let now : String ← ask .now
      query (.insertReaction ⟨id, emoji, userId, now⟩)
    let rows ← Repo.reactionsFor [id]
    let reactions := Repo.reactionsOf rows id
    let now : String ← ask .now
    ask (.publishToChannel channel.id
      (.reactionUpdated channel.id id emoji userId (!has) reactions now))
    pure ⟨id, reactions⟩

def search (toLowerCase : String → String) (userId : String) (q : Option String)
    (channelId : Option String) (limit : JsonField ℚ) : ChatM (List SearchHit) := do
  let text := trim (q.getD "")
  if text = "" then pure []
  else do
    let limit ← requireLimit limit
    let rows : List SearchRow ← query (.selectSearch
      ⟨userId, toLowerCase text, channelId, limit⟩)
    let reactions ← Repo.reactionsFor (rows.map fun row => row.message.id)
    pure (rows.map fun row =>
      ⟨toMessage row.message (Repo.reactionsOf reactions row.message.id),
        row.message.channelId, row.channelName, row.channelType⟩)

def pinnedList (channelId : String) : ChatM (List Message) := do
  let rows : List MessageRow ← query (.selectPinned channelId)
  let reactions ← Repo.reactionsFor (rows.map MessageRow.id)
  pure (rows.map fun row => toMessage row (Repo.reactionsOf reactions row.id))

def listPins (id : String) : ChatM (List Message) := do
  let _ ← loadReadable id userId
  pinnedList id

def togglePin (id : String) (messageId : JsonField String) : ChatM (List Message) := do
  let messageId ← nonEmptyString messageId "messageId"
  let (channel, _) ← loadReadable id userId
  let _ ← ensureCanWrite channel userId
  if channel.archivedAt ≠ none then throw (errArchived channel.id)
  else do
    let found : Option MessageRow ← query (.selectMessage messageId)
    if found.any fun message => message.deletedAt = none ∧ message.channelId = channel.id then do
      let pinned : Bool ← query (.selectPin channel.id messageId)
      if pinned then do
        let _ : Bool ← query (.deletePin channel.id messageId)
        pure ()
      else do
        let now : String ← ask .now
        query (.insertPin ⟨channel.id, messageId, userId, now⟩)
      ask (.audit ⟨if pinned then "chat.message.unpin" else "chat.message.pin", some userId,
        "message", messageId, .channel channel.id⟩)
      pinnedList channel.id
    else throw (validationFailed "messageId" "not_in_channel")

def updateReadState (id : String) (lastReadMessageId : JsonField String) :
    ChatM UnreadSummary := do
  let lastReadMessageId ← nonEmptyString lastReadMessageId "lastReadMessageId"
  let _ ← loadReadable id userId
  let now : String ← ask .now
  Repo.setReadState id userId lastReadMessageId now
  let unreadCount : Nat ← query (.countUnread id userId (some lastReadMessageId))
  pure ⟨id, unreadCount, some lastReadMessageId⟩

def unreadOf (userId : String) : List MemberRow → ChatM (List UnreadSummary)
  | [] => pure []
  | membership :: rest => do
    let state : Option ReadStateRow ← query (.selectReadState membership.channelId userId)
    let lastRead := state.bind ReadStateRow.lastReadMessageId
    let unreadCount : Nat ← query (.countUnread membership.channelId userId lastRead)
    let others ← unreadOf userId rest
    pure (⟨membership.channelId, unreadCount, lastRead⟩ :: others)

def unread : ChatM (List UnreadSummary) := do
  let memberships : List MemberRow ← query (.selectMemberships userId)
  unreadOf userId memberships

def issueWsTicket (id : String) : ChatM WsTicketResponse := do
  let _ ← loadReadable id userId
  ask (.signWsTicket id userId)

structure PostSystemMessageRequest where
  channelId : Option String
  targetUserId : Option String
  body : JsonField String

def systemChannel (target : String) : ChatM String := do
  let existing : Option ChannelRow ← query (.selectChannelByDmKey (dmKey [target]))
  let now : String ← ask .now
  match existing with
  | some existing => pure existing.id
  | none => do
    let id : String ← ask .newChannelId
    let row : ChannelRow :=
      { id, type := .dm, visibility := .isPrivate, name := "Direct messages", topic := none
        eventId := none, dmKey := some (dmKey [target]), createdBy := target
        archivedAt := none, version := 1, createdAt := now, updatedAt := now }
    query (.insertChannel row)
    Repo.addMember ⟨id, target, .member, now⟩
    pure id

variable (body : PostSystemMessageRequest)

def systemTarget : ChatM String :=
  match body.channelId.filter (fun id => id ≠ ""), body.targetUserId.filter (fun id => id ≠ "")
  with
  | some channelId, none => do
    let channel : Option ChannelRow ← query (.selectChannel channelId)
    match channel with
    | none => throw (notFound "channel" channelId)
    | some channel =>
      if channel.archivedAt ≠ none then throw (errArchived channel.id) else pure channel.id
  | none, some target => systemChannel target
  | _, _ => throw (validationFailed "channelId|targetUserId" "exactly_one_required")

def postSystemMessage : ChatM Message := do
  let text ← requireBody body.body
  let channelId ← systemTarget body
  let now : String ← ask .now
  let id : String ← ask .newMessageId
  let row : MessageRow :=
    { id, channelId, threadRootId := none, authorId := none, kind := .system, body := text
      attachmentFileIds := [], version := 1, editedAt := none, deletedAt := none
      createdAt := now }
  query (.insertMessage row)
  ask (.audit ⟨"chat.system.post", none, "message", id, .channel channelId⟩)
  pure (toMessage row [])

end DubEcosystem.Chat
