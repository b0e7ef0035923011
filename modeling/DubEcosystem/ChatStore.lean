import Mathlib.Data.List.Infix
import DubEcosystem.ChatTypes
import DubEcosystem.KeyedTable

/-!
# chat-service: the chat tables and the statements on them

The tables of the chat database, with their primary keys, and what each statement of
`d1-repo.ts` does to them.  A statement that breaks a uniqueness or foreign key constraint
changes nothing and throws; a batch is one statement.
-/

namespace DubEcosystem.Chat

def MemberRow.key (row : MemberRow) : String × String := (row.channelId, row.userId)

def ReactionRow.key (row : ReactionRow) : String × String × String :=
  (row.messageId, row.emoji, row.userId)

def ReadStateRow.key (row : ReadStateRow) : String × String := (row.channelId, row.userId)

def PinRow.key (row : PinRow) : String × String := (row.channelId, row.messageId)

@[ext]
structure Store where
  channels : KeyedTable ChannelRow.id
  members : KeyedTable MemberRow.key
  messages : KeyedTable MessageRow.id
  reactions : KeyedTable ReactionRow.key
  readStates : KeyedTable ReadStateRow.key
  pins : KeyedTable PinRow.key
  settings : KeyedTable SettingsRow.orgId
  sections : KeyedTable SectionRow.id
  assignments : KeyedTable AssignmentRow.channelId

def Store.empty : Store :=
  ⟨.empty, .empty, .empty, .empty, .empty, .empty, .empty, .empty, .empty⟩

structure ChannelQuery where
  userId : String
  eventId : Option String
  includeArchived : Bool
  limit : Int
  afterId : Option String

structure MessageQuery where
  channelId : String
  threadRootId : Option String
  afterMessageId : Option String
  beforeId : Option String
  limit : Int

structure SearchQuery where
  userId : String
  text : String
  channelId : Option String
  limit : Int

structure SearchRow where
  message : MessageRow
  channelName : String
  channelType : ChannelType

structure PolicyInput where
  orgId : String
  policy : MessageDeletionPolicy
  expectedVersion : Int
  updatedBy : Option String
  at' : String

/-- The statements and batches of the repository. -/
inductive Statement where
  | insertChannel (row : ChannelRow)
  | insertChannelWithMembers (row : ChannelRow) (members : List MemberRow)
  | selectChannel (id : String)
  | selectChannelByDmKey (dmKey : String)
  | selectChannelsForUser (q : ChannelQuery)
  | updateChannel (next : ChannelRow) (expectedVersion : Int)
  | updateMember (row : MemberRow)
  | insertMember (row : MemberRow)
  | deleteMember (channelId userId : String)
  | selectMember (channelId userId : String)
  | selectMembers (channelId : String)
  | selectMemberIds (channelIds : List String)
  | selectMemberships (userId : String)
  | insertMessage (row : MessageRow)
  | selectMessage (id : String)
  | selectMessages (q : MessageQuery)
  | selectReplyCounts (rootIds : List String)
  | updateMessage (next : MessageRow) (expectedVersion : Int)
  | selectReaction (messageId emoji userId : String)
  | insertReaction (row : ReactionRow)
  | deleteReaction (messageId emoji userId : String)
  | selectReactions (messageIds : List String)
  | updateReadState (row : ReadStateRow)
  | insertReadState (row : ReadStateRow)
  | selectReadState (channelId userId : String)
  | countUnread (channelId userId : String) (lastReadMessageId : Option String)
  | selectPinned (channelId : String)
  | selectPin (channelId messageId : String)
  | insertPin (row : PinRow)
  | deletePin (channelId messageId : String)
  | selectSearch (q : SearchQuery)
  | selectSettings (orgId : String)
  | insertSettings (input : PolicyInput)
  | updateSettings (input : PolicyInput)
  | deleteReactionsOf (messageId : String)
  | deletePinsOf (messageId : String)
  | deleteReplies (messageId : String)
  | deleteMessage (messageId : String)
  | deleteChannel (channelId : String)
  | selectSections
  | selectSection (id : String)
  | insertSection (row : SectionRow)
  | updateSection (row : SectionRow)
  | deleteSection (id : String)
  | selectAssignments (viewerId : String)
  | deleteAssignment (channelId : String)
  | upsertAssignment (row : AssignmentRow)

/-- What a statement returns; of a change, whether any row was changed. -/
abbrev Statement.Result : Statement → Type
  | .insertChannelWithMembers _ _ => Bool
  | .selectChannel _ => Option ChannelRow
  | .selectChannelByDmKey _ => Option ChannelRow
  | .selectChannelsForUser _ => List ChannelRow
  | .updateChannel _ _ => Bool
  | .updateMember _ => Bool
  | .deleteMember _ _ => Bool
  | .selectMember _ _ => Option MemberRow
  | .selectMembers _ => List MemberRow
  | .selectMemberIds _ => List (String × String)
  | .selectMemberships _ => List MemberRow
  | .selectMessage _ => Option MessageRow
  | .selectMessages _ => List MessageRow
  | .selectReplyCounts _ => List (String × Nat)
  | .updateMessage _ _ => Bool
  | .selectReaction _ _ _ => Bool
  | .deleteReaction _ _ _ => Bool
  | .selectReactions _ => List ReactionRow
  | .updateReadState _ => Bool
  | .selectReadState _ _ => Option ReadStateRow
  | .countUnread _ _ _ => Nat
  | .selectPinned _ => List MessageRow
  | .selectPin _ _ => Bool
  | .deletePin _ _ => Bool
  | .selectSearch _ => List SearchRow
  | .selectSettings _ => Option SettingsRow
  | .insertSettings _ => Bool
  | .updateSettings _ => Bool
  | .selectSections => List SectionRow
  | .selectSection _ => Option SectionRow
  | .deleteSection _ => Bool
  | .selectAssignments _ => List AssignmentRow
  | _ => Unit

namespace Store

variable (store : Store)

variable (id : String)

def hasChannel : Bool :=
  store.channels.selects fun row => row.id = id

def hasMessage : Bool :=
  store.messages.selects fun row => row.id = id

def hasSection : Bool :=
  store.sections.selects fun row => row.id = id

variable (channelId : String)

def hasMember (userId : String) : Bool :=
  store.members.selects fun row => row.channelId = channelId ∧ row.userId = userId

variable (row : ChannelRow)

/-- A channel with the `dm_key` of the row. -/
def dmKeyTaken : Bool :=
  row.dmKey.isSome && store.channels.selects fun other => other.dmKey = row.dmKey

variable (selected : MessageRow → Bool)

def refersTo : Bool :=
  store.messages.rows.any fun message => selected message &&
    (store.reactions.selects (fun row => row.messageId = message.id) ||
      store.pins.selects fun row => row.messageId = message.id)

def foreignKey : String := "FOREIGN KEY constraint failed"

def unique' : String := "UNIQUE constraint failed"

def insertChannel : Except String Unit × Store :=
  if store.dmKeyTaken row then (.error unique', store)
  else
    match store.channels.insert? row with
    | none => (.error unique', store)
    | some channels => (.ok (), { store with channels })

def insertMembers (members : List MemberRow) : Store :=
  { store with members := members.foldl KeyedTable.insertOrIgnore store.members }

/-- A taken id or `dm_key` is ignored; the members are inserted when the channel is there. -/
def insertChannelWithMembers (members : List MemberRow) : Except String Bool × Store :=
  let inserted := !store.dmKeyTaken row && !store.hasChannel row.id
  let withChannel :=
    if inserted then { store with channels := store.channels.insertOrIgnore row } else store
  if withChannel.hasChannel row.id then
    if members.all fun member => withChannel.hasChannel member.channelId then
      (.ok inserted, withChannel.insertMembers members)
    else (.error foreignKey, store)
  else (.ok inserted, withChannel)

def updateChannel (next : ChannelRow) (expectedVersion : Int) : Bool × Store :=
  let selected := fun row : ChannelRow => row.id = next.id ∧ row.version = expectedVersion
  (store.channels.selects fun row => selected row,
    { store with
      channels := store.channels.update (fun row => selected row) (fun row =>
          { row with
            name := next.name, topic := next.topic, visibility := next.visibility
            archivedAt := next.archivedAt, version := next.version
            updatedAt := next.updatedAt })
        fun _ => rfl })

def updateMember (row : MemberRow) : Bool × Store :=
  (store.hasMember row.channelId row.userId,
    { store with
      members := store.members.update
        (fun other => other.channelId = row.channelId ∧ other.userId = row.userId)
        (fun other => { other with role := row.role }) fun _ => rfl })

/-- `INSERT OR IGNORE`; a missing channel is not ignored. -/
def insertMember (row : MemberRow) : Except String Unit × Store :=
  if store.hasChannel row.channelId then
    (.ok (), { store with members := store.members.insertOrIgnore row })
  else (.error foreignKey, store)

def deleteMember (userId : String) : Bool × Store :=
  (store.hasMember channelId userId,
    { store with
      members := store.members.deleteWhere fun row =>
        row.channelId = channelId ∧ row.userId = userId })

def insertMessage (row : MessageRow) : Except String Unit × Store :=
  if store.hasChannel row.channelId then
    match store.messages.insert? row with
    | none => (.error unique', store)
    | some messages => (.ok (), { store with messages })
  else (.error foreignKey, store)

def updateMessage (next : MessageRow) (expectedVersion : Int) : Bool × Store :=
  let selected := fun row : MessageRow => row.id = next.id ∧ row.version = expectedVersion
  (store.messages.selects fun row => selected row,
    { store with
      messages := store.messages.update (fun row => selected row) (fun row =>
          { row with
            body := next.body, attachmentFileIds := next.attachmentFileIds
            version := next.version, editedAt := next.editedAt, deletedAt := next.deletedAt })
        fun _ => rfl })

def insertReaction (row : ReactionRow) : Except String Unit × Store :=
  if store.hasMessage row.messageId then
    (.ok (), { store with reactions := store.reactions.insertOrIgnore row })
  else (.error foreignKey, store)

variable (messageId : String)

def deleteReaction (emoji userId : String) : Bool × Store :=
  let selected := fun row : ReactionRow =>
    row.messageId = messageId ∧ row.emoji = emoji ∧ row.userId = userId
  (store.reactions.selects fun row => selected row,
    { store with reactions := store.reactions.deleteWhere fun row => selected row })

def updateReadState (row : ReadStateRow) : Bool × Store :=
  let selected := fun other : ReadStateRow =>
    other.channelId = row.channelId ∧ other.userId = row.userId
  (store.readStates.selects fun other => selected other,
    { store with
      readStates := store.readStates.update (fun other => selected other) (fun other =>
          { other with
            lastReadMessageId := row.lastReadMessageId, updatedAt := row.updatedAt })
        fun _ => rfl })

def insertReadState (row : ReadStateRow) : Except String Unit × Store :=
  if store.hasChannel row.channelId then
    (.ok (), { store with readStates := store.readStates.insertOrIgnore row })
  else (.error foreignKey, store)

def insertPin (row : PinRow) : Except String Unit × Store :=
  if store.hasChannel row.channelId && store.hasMessage row.messageId then
    (.ok (), { store with pins := store.pins.insertOrIgnore row })
  else (.error foreignKey, store)

def deletePin (messageId : String) : Bool × Store :=
  let selected := fun row : PinRow => row.channelId = channelId ∧ row.messageId = messageId
  (store.pins.selects fun row => selected row,
    { store with pins := store.pins.deleteWhere fun row => selected row })

def insertSettings (input : PolicyInput) : Bool × Store :=
  (!store.settings.selects fun row => row.orgId = input.orgId,
    { store with
      settings := store.settings.insertOrIgnore
        ⟨input.orgId, input.policy, 1, input.at', input.updatedBy⟩ })

def updateSettings (input : PolicyInput) : Bool × Store :=
  let selected := fun row : SettingsRow =>
    row.orgId = input.orgId ∧ row.version = input.expectedVersion
  (store.settings.selects fun row => selected row,
    { store with
      settings := store.settings.update (fun row => selected row) (fun row =>
          { row with
            policy := input.policy, version := input.expectedVersion + 1
            updatedAt := input.at', updatedBy := input.updatedBy })
        fun _ => rfl })

def isThreadOf (id : String) : Bool :=
  id = messageId || store.messages.selects fun row =>
    row.id = id ∧ row.threadRootId = some messageId

def deleteReactionsOf : Store :=
  { store with
    reactions := store.reactions.deleteWhere fun row =>
      store.isThreadOf messageId row.messageId }

def deletePinsOf : Store :=
  { store with
    pins := store.pins.deleteWhere fun row => store.isThreadOf messageId row.messageId }

/-- A message that a reaction or a pin refers to cannot be deleted. -/
def deleteMessages : Except String Unit × Store :=
  if store.refersTo selected then (.error foreignKey, store)
  else (.ok (), { store with messages := store.messages.deleteWhere selected })

def isOfChannel (messageId : String) : Bool :=
  store.messages.selects fun row => row.id = messageId ∧ row.channelId = channelId

/-- One batch, the children first. -/
def deleteChannel : Store :=
  { store with
    reactions := store.reactions.deleteWhere fun row =>
      store.isOfChannel channelId row.messageId
    pins := store.pins.deleteWhere fun row =>
      row.channelId = channelId || store.isOfChannel channelId row.messageId
    readStates := store.readStates.deleteWhere fun row => row.channelId = channelId
    assignments := store.assignments.deleteWhere fun row => row.channelId = channelId
    messages := store.messages.deleteWhere fun row => row.channelId = channelId
    members := store.members.deleteWhere fun row => row.channelId = channelId
    channels := store.channels.deleteWhere fun row => row.id = channelId }

def insertSection (row : SectionRow) : Except String Unit × Store :=
  match store.sections.insert? row with
  | none => (.error unique', store)
  | some sections => (.ok (), { store with sections })

def updateSection (row : SectionRow) : Store :=
  { store with
    sections := store.sections.update (fun other => other.id = row.id) (fun other =>
        { other with name := row.name, position := row.position, updatedAt := row.updatedAt })
      fun _ => rfl }

def deleteSection : Bool × Store :=
  (store.hasSection id,
    { store with
      assignments := store.assignments.deleteWhere fun row => row.sectionId = id
      sections := store.sections.deleteWhere fun row => row.id = id })

def deleteAssignment (channelId : String) : Store :=
  { store with
    assignments := store.assignments.deleteWhere fun row => row.channelId = channelId }

/-- `ON CONFLICT DO UPDATE`. -/
def upsertAssignment (row : AssignmentRow) : Except String Unit × Store :=
  if store.hasChannel row.channelId && store.hasSection row.sectionId then
    (.ok (),
      { store with
        assignments :=
          (store.assignments.update (fun other => other.channelId = row.channelId)
            (fun other => { other with sectionId := row.sectionId })
            fun _ => rfl).insertOrIgnore row })
  else (.error foreignKey, store)

/-- `ORDER BY key ASC` over texts. -/
def ascending {Row : Type} (key : Row → String) (rows : List Row) : List Row :=
  rows.insertionSort fun first second => key first ≤ key second

def descending {Row : Type} (key : Row → String) (rows : List Row) : List Row :=
  rows.insertionSort fun first second => key second ≤ key first

/-- `LIMIT`; a negative one is none. -/
def limited {Row : Type} (limit : Int) (rows : List Row) : List Row :=
  if limit < 0 then rows else rows.take limit.toNat

def readable (userId : String) (channel : ChannelRow) : Bool :=
  channel.visibility = .isPublic || store.hasMember channel.id userId

def selectChannelsForUser (q : ChannelQuery) : List ChannelRow :=
  limited q.limit (ascending ChannelRow.id (store.channels.rows.filter fun row =>
    store.readable q.userId row && (q.includeArchived || row.archivedAt.isNone) &&
      ((q.eventId.filter fun eventId => eventId ≠ "").all fun eventId =>
        row.eventId = some eventId) &&
      (q.afterId.filter fun afterId => afterId ≠ "").all fun afterId => afterId < row.id))

def selectMembers : List MemberRow :=
  ascending MemberRow.userId (store.members.rows.filter fun row => row.channelId = channelId)

def selectMemberIds (channelIds : List String) : List (String × String) :=
  (ascending MemberRow.userId (store.members.rows.filter fun row =>
    row.channelId ∈ channelIds)).map MemberRow.key

def selectMemberships (userId : String) : List MemberRow :=
  ascending MemberRow.channelId (store.members.rows.filter fun row => row.userId = userId)

def selectMessages (q : MessageQuery) : List MessageRow :=
  let rows := store.messages.rows.filter fun row =>
    row.channelId = q.channelId ∧ row.threadRootId = q.threadRootId
  match q.afterMessageId with
  | some afterMessageId =>
    limited q.limit (ascending MessageRow.id (rows.filter fun row => afterMessageId < row.id))
  | none =>
    limited q.limit (descending MessageRow.id (rows.filter fun row =>
      q.beforeId.all fun beforeId => row.id < beforeId))

def selectReplyCounts (rootIds : List String) : List (String × Nat) :=
  (Chat.unique rootIds).filterMap fun rootId =>
    let count := store.messages.rows.countP fun row =>
      row.threadRootId = some rootId ∧ row.deletedAt = none
    if count = 0 then none else some (rootId, count)

def selectReactions (messageIds : List String) : List ReactionRow :=
  (store.reactions.rows.filter fun row => row.messageId ∈ messageIds).insertionSort
    fun first second => first.createdAt < second.createdAt ∨
      (first.createdAt = second.createdAt ∧ first.userId ≤ second.userId)

def countUnread (userId : String) (lastReadMessageId : Option String) : Nat :=
  store.messages.rows.countP fun row =>
    row.channelId = channelId && row.threadRootId.isNone && row.deletedAt.isNone &&
      row.authorId ≠ some userId && lastReadMessageId.all fun lastRead => lastRead < row.id

def selectPinned : List MessageRow :=
  descending MessageRow.id (store.messages.rows.filter fun row =>
    row.deletedAt.isNone && store.pins.selects fun pin =>
      pin.channelId = channelId ∧ pin.messageId = row.id)

/-- `lower` of SQLite, which changes ASCII letters only. -/
def lower (text : String) : String :=
  String.ofList (text.toList.map Char.toLower)

def contains (text needle : String) : Bool :=
  needle.toList <:+: text.toList

def selectSearch (q : SearchQuery) : List SearchRow :=
  limited q.limit ((descending MessageRow.id (store.messages.rows.filter fun row =>
    row.deletedAt.isNone && contains (lower row.body) q.text &&
      (q.channelId.filter fun channelId => channelId ≠ "").all fun channelId =>
        row.channelId = channelId)).filterMap fun row =>
    ((store.channels.find? row.channelId).filter fun channel =>
      store.readable q.userId channel).map fun channel =>
        ⟨row, channel.name, channel.type⟩)

def selectSections : List SectionRow :=
  store.sections.rows.insertionSort fun first second => first.position < second.position ∨
    (first.position = second.position ∧ first.id ≤ second.id)

def selectAssignments (viewerId : String) : List AssignmentRow :=
  store.assignments.rows.filter fun row =>
    ((store.channels.find? row.channelId).filter fun channel =>
      store.readable viewerId channel).isSome

/-- What the statement answers, and what it leaves. -/
def exec : (statement : Statement) → Except String statement.Result × Store
  | .insertChannel row => store.insertChannel row
  | .insertChannelWithMembers row members => store.insertChannelWithMembers row members
  | .selectChannel id => (.ok (store.channels.find? id), store)
  | .selectChannelByDmKey dmKey =>
    (.ok (store.channels.rows.find? fun row => row.dmKey = some dmKey), store)
  | .selectChannelsForUser q => (.ok (store.selectChannelsForUser q), store)
  | .updateChannel next expectedVersion =>
    let (changed, after) := store.updateChannel next expectedVersion
    (.ok changed, after)
  | .updateMember row =>
    let (changed, after) := store.updateMember row
    (.ok changed, after)
  | .insertMember row => store.insertMember row
  | .deleteMember channelId userId =>
    let (changed, after) := store.deleteMember channelId userId
    (.ok changed, after)
  | .selectMember channelId userId => (.ok (store.members.find? (channelId, userId)), store)
  | .selectMembers channelId => (.ok (store.selectMembers channelId), store)
  | .selectMemberIds channelIds => (.ok (store.selectMemberIds channelIds), store)
  | .selectMemberships userId => (.ok (store.selectMemberships userId), store)
  | .insertMessage row => store.insertMessage row
  | .selectMessage id => (.ok (store.messages.find? id), store)
  | .selectMessages q => (.ok (store.selectMessages q), store)
  | .selectReplyCounts rootIds => (.ok (store.selectReplyCounts rootIds), store)
  | .updateMessage next expectedVersion =>
    let (changed, after) := store.updateMessage next expectedVersion
    (.ok changed, after)
  | .selectReaction messageId emoji userId =>
    (.ok (store.reactions.find? (messageId, emoji, userId)).isSome, store)
  | .insertReaction row => store.insertReaction row
  | .deleteReaction messageId emoji userId =>
    let (changed, after) := store.deleteReaction messageId emoji userId
    (.ok changed, after)
  | .selectReactions messageIds => (.ok (store.selectReactions messageIds), store)
  | .updateReadState row =>
    let (changed, after) := store.updateReadState row
    (.ok changed, after)
  | .insertReadState row => store.insertReadState row
  | .selectReadState channelId userId =>
    (.ok (store.readStates.find? (channelId, userId)), store)
  | .countUnread channelId userId lastReadMessageId =>
    (.ok (store.countUnread channelId userId lastReadMessageId), store)
  | .selectPinned channelId => (.ok (store.selectPinned channelId), store)
  | .selectPin channelId messageId =>
    (.ok (store.pins.find? (channelId, messageId)).isSome, store)
  | .insertPin row => store.insertPin row
  | .deletePin channelId messageId =>
    let (changed, after) := store.deletePin channelId messageId
    (.ok changed, after)
  | .selectSearch q => (.ok (store.selectSearch q), store)
  | .selectSettings orgId => (.ok (store.settings.find? orgId), store)
  | .insertSettings input =>
    let (changed, after) := store.insertSettings input
    (.ok changed, after)
  | .updateSettings input =>
    let (changed, after) := store.updateSettings input
    (.ok changed, after)
  | .deleteReactionsOf messageId => (.ok (), store.deleteReactionsOf messageId)
  | .deletePinsOf messageId => (.ok (), store.deletePinsOf messageId)
  | .deleteReplies messageId =>
    store.deleteMessages fun row => row.threadRootId = some messageId
  | .deleteMessage messageId => store.deleteMessages fun row => row.id = messageId
  | .deleteChannel channelId => (.ok (), store.deleteChannel channelId)
  | .selectSections => (.ok store.selectSections, store)
  | .selectSection id => (.ok (store.sections.find? id), store)
  | .insertSection row => store.insertSection row
  | .updateSection row => (.ok (), store.updateSection row)
  | .deleteSection id =>
    let (changed, after) := store.deleteSection id
    (.ok changed, after)
  | .selectAssignments viewerId => (.ok (store.selectAssignments viewerId), store)
  | .deleteAssignment channelId => (.ok (), store.deleteAssignment channelId)
  | .upsertAssignment row => store.upsertAssignment row

end Store

end DubEcosystem.Chat
