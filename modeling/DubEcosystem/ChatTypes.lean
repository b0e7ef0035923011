import Mathlib.Data.List.Dedup
import Mathlib.Data.List.Sort
import DubEcosystem.IdentityRosterTypes

/-!
# chat-service: rows, wire shapes and the pure helpers

The rows of the chat tables, what goes over the wire, the errors, and `domain.ts`.
-/

namespace DubEcosystem.Chat

open IdentityRoster (codeUnits jsLength)

inductive ChannelType where
  | event
  | topic
  | dm
  deriving DecidableEq

inductive ChannelVisibility where
  | isPublic
  | isPrivate
  deriving DecidableEq

inductive ChannelRole where
  | admin
  | member
  deriving DecidableEq

inductive MessageKind where
  | user
  | system
  deriving DecidableEq

inductive MessageDeletionMode where
  | hard
  | tombstone
  deriving DecidableEq

structure MessageDeletionPolicy where
  member : MessageDeletionMode
  moderator : MessageDeletionMode

structure ChannelRow where
  id : String
  type : ChannelType
  visibility : ChannelVisibility
  name : String
  topic : Option String
  eventId : Option String
  dmKey : Option String
  createdBy : String
  archivedAt : Option String
  version : Int
  createdAt : String
  updatedAt : String

structure MemberRow where
  channelId : String
  userId : String
  role : ChannelRole
  joinedAt : String

structure MessageRow where
  id : String
  channelId : String
  threadRootId : Option String
  authorId : Option String
  kind : MessageKind
  body : String
  attachmentFileIds : List String
  version : Int
  editedAt : Option String
  deletedAt : Option String
  createdAt : String

structure ReactionRow where
  messageId : String
  emoji : String
  userId : String
  createdAt : String

structure ReadStateRow where
  channelId : String
  userId : String
  lastReadMessageId : Option String
  updatedAt : String

structure PinRow where
  channelId : String
  messageId : String
  pinnedBy : String
  pinnedAt : String

structure SettingsRow where
  orgId : String
  policy : MessageDeletionPolicy
  version : Int
  updatedAt : String
  updatedBy : Option String

structure SectionRow where
  id : String
  createdBy : String
  name : String
  position : Int
  createdAt : String
  updatedAt : String

/-- A row of `chat_shared_channel_sections`. -/
structure AssignmentRow where
  channelId : String
  sectionId : String

structure Channel where
  id : String
  type : ChannelType
  visibility : ChannelVisibility
  name : String
  topic : Option String
  eventId : Option String
  createdBy : String
  archivedAt : Option String
  version : Int
  createdAt : String
  updatedAt : String
  memberIds : Option (List String) := none

/-- `Record<string, UserId[]>`, with the entries in the order of their insertion. -/
abbrev Reactions : Type := List (String × List String)

structure Message where
  id : String
  channelId : String
  threadRootId : Option String
  authorId : Option String
  kind : MessageKind
  body : String
  attachmentFileIds : List String
  reactions : Reactions
  replyCount : Nat
  version : Int
  editedAt : Option String
  deletedAt : Option String
  createdAt : String

structure ChatSection where
  id : String
  name : String
  position : Int
  createdAt : String

/-- A page, with the id that its cursor stands for. -/
structure Paginated (α : Type) where
  items : List α
  nextCursor : Option String

structure SearchHit where
  message : Message
  channelId : String
  channelName : String
  channelType : ChannelType

structure UnreadSummary where
  channelId : String
  unreadCount : Nat
  lastReadMessageId : Option String

structure WsTicketResponse where
  ticket : String
  doUrl : String
  expiresAt : String

structure FieldError where
  field : String
  reason : String
  message : Option String := none
  deriving DecidableEq

structure DubError where
  code : String
  status : Nat
  message : String
  details : List FieldError := []
  deriving DecidableEq

/-- What an operation throws: an error of its own, or one of the database or of another
service. -/
inductive ChatError where
  | dub (error : DubError)
  | failed (message : String)

def notFound (resource id : String) : ChatError :=
  .dub { code := "NOT_FOUND", status := 404, message := resource ++ " not found: " ++ id }

def validationFailed (field reason : String) (message : Option String := none) : ChatError :=
  .dub
    { code := "VALIDATION_FAILED", status := 400, message := "Validation failed"
      details := [⟨field, reason, message⟩] }

def forbidden (message : String) : ChatError :=
  .dub { code := "FORBIDDEN", status := 403, message := message }

variable (id : String)

def errArchived : ChatError :=
  .dub { code := "CHAT_CHANNEL_ARCHIVED", status := 409, message := "Channel is archived: " ++ id }

def errVersionConflict : ChatError :=
  .dub { code := "CHAT_VERSION_CONFLICT", status := 409, message := "Version conflict for " ++ id }

def errDmMembersFixed : ChatError :=
  .dub
    { code := "CHAT_DM_MEMBERS_FIXED", status := 409
      message := "DM members cannot be changed: " ++ id }

def errDmConflict (message : String) : ChatError :=
  .dub { code := "CHAT_DM_CONFLICT", status := 409, message := message }

def DEFAULT_LIMIT : Int := 50

def MAX_LIMIT : Int := 200

def MAX_BODY_LEN : Nat := 16000

def DELETED_BODY : String := "[deleted]"

def DEFAULT_MESSAGE_DELETION_POLICY : MessageDeletionPolicy := ⟨.hard, .hard⟩

/-- `[...new Set(items)]`. -/
def unique (items : List String) : List String :=
  items.reverse.dedup.reverse

def toChannel (row : ChannelRow) : Channel where
  id := row.id
  type := row.type
  visibility := row.visibility
  name := row.name
  topic := row.topic
  eventId := row.eventId
  createdBy := row.createdBy
  archivedAt := row.archivedAt
  version := row.version
  createdAt := row.createdAt
  updatedAt := row.updatedAt

def toMessage (row : MessageRow) (reactions : Reactions) (replyCount : Nat := 0) : Message where
  id := row.id
  channelId := row.channelId
  threadRootId := row.threadRootId
  authorId := row.authorId
  kind := row.kind
  body := if row.deletedAt.isSome then DELETED_BODY else row.body
  attachmentFileIds := if row.deletedAt.isSome then [] else row.attachmentFileIds
  reactions := reactions
  replyCount := replyCount
  version := row.version
  editedAt := row.editedAt
  deletedAt := row.deletedAt
  createdAt := row.createdAt

def toSection (row : SectionRow) : ChatSection :=
  ⟨row.id, row.name, row.position, row.createdAt⟩

/-- FNV-1a over code units, in 32 bits. -/
def fnv1a (units : List Nat) : UInt32 :=
  units.foldl (fun h unit => (h ^^^ unit.toUInt32) * 0x01000193) 0x811c9dc5

def hexDigits (value : Nat) : String :=
  let digits := Nat.toDigits 16 value
  String.ofList (List.replicate (8 - digits.length) '0' ++ digits)

/-- `.sort()`. -/
def sortIds (ids : List String) : List String :=
  ids.insertionSort fun first second => codeUnits first ≤ codeUnits second

/-- `[...new Set(userIds)].sort().join("\u0000")`. -/
def canonical (userIds : List String) : String :=
  String.intercalate (String.singleton (Char.ofNat 0)) (sortIds (unique userIds))

def dmKey (userIds : List String) : String :=
  "dm_" ++ hexDigits (fnv1a (codeUnits (canonical userIds))).toNat ++ "_" ++
    toString (jsLength (canonical userIds))

theorem mem_unique {items : List String} {item : String} : item ∈ unique items ↔ item ∈ items := by
  rw [unique, List.mem_reverse, List.mem_dedup, List.mem_reverse]

theorem unique_nodup (items : List String) : (unique items).Nodup :=
  List.nodup_reverse.mpr (List.nodup_dedup items.reverse)

example : dmKey ["u_b", "u_a", "u_b"] = dmKey ["u_a", "u_b"] := by
  decide +kernel

end DubEcosystem.Chat
