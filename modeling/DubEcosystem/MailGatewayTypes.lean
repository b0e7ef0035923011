import Mathlib.Algebra.Group.Nat.Defs
import Mathlib.Data.List.Basic

/-!
# mail-gateway: requests and their fingerprint

The request of a send, the archive copy that every send carries, and the hash by which
the send log tells a repeated request from another one under the same key.
-/

namespace DubEcosystem.MailGateway

def isSpace (c : Char) : Bool :=
  c.isWhitespace || c.toNat = 11 || c.toNat = 12

variable (text : String)

/-- `String.prototype.trim`. -/
def trim : List Char :=
  ((text.toList.dropWhile isSpace).reverse.dropWhile isSpace).reverse

/-- The code units that `charCodeAt` reads. -/
def codeUnits (c : Char) : List Nat :=
  if c.toNat < 0x10000 then [c.toNat]
  else [0xD800 + (c.toNat - 0x10000) / 0x400, 0xDC00 + (c.toNat - 0x10000) % 0x400]

def hexDigit (digit : Nat) : Char :=
  if digit < 10 then Char.ofNat (48 + digit) else Char.ofNat (87 + digit)

def quote : Char := Char.ofNat 34

def backslash : Char := Char.ofNat 92

/-- One character inside a JSON string. -/
def jsonChar (c : Char) : List Char :=
  match c.toNat with
  | 34 => [backslash, quote]
  | 92 => [backslash, backslash]
  | 8 => [backslash, 'b']
  | 9 => [backslash, 't']
  | 10 => [backslash, 'n']
  | 12 => [backslash, 'f']
  | 13 => [backslash, 'r']
  | code =>
    if code < 32 then [backslash, 'u', '0', '0', hexDigit (code / 16), hexDigit (code % 16)]
    else [c]

def jsonString : List Char :=
  quote :: (text.toList.flatMap jsonChar ++ [quote])

def jsonArray (items : List (List Char)) : List Char :=
  '[' :: ((items.intersperse [',']).flatten ++ [']'])

def jsonObject (fields : List (String × Option (List Char))) : List Char :=
  let written := fields.filterMap fun field =>
    field.2.map fun value => jsonString field.1 ++ ':' :: value
  Char.ofNat 123 :: ((written.intersperse [',']).flatten ++ [Char.ofNat 125])

def jsonNull : List Char := "null".toList

structure MailAddress where
  email : String
  name : Option String := none
  deriving DecidableEq

structure MailLoopHeaders where
  mailLoop : Option String := none
  autoSubmitted : Option String := none
  deriving DecidableEq

structure MailAttachmentInput where
  filename : String
  contentType : String
  contentBase64 : String
  deriving DecidableEq

structure SendMailRequest where
  toAddresses : List MailAddress
  cc : Option (List MailAddress) := none
  bcc : Option (List MailAddress) := none
  subject : String
  textBody : String
  htmlBody : Option String := none
  inReplyTo : Option String := none
  loopHeaders : Option MailLoopHeaders := none
  attachments : Option (List MailAttachmentInput) := none
  deriving DecidableEq

def addressesJson (addresses : List MailAddress) : List Char :=
  jsonArray (addresses.map fun address =>
    jsonObject [("email", some (jsonString address.email)), ("name", address.name.map jsonString)])

variable (req : SendMailRequest)

/-- The canonical text that is hashed.  `bcc` is there only when it has recipients. -/
def canonical : List Char :=
  jsonObject [("to", some (addressesJson req.toAddresses)),
      ("cc", some (addressesJson (req.cc.getD []))),
      ("bcc", (req.bcc.filter fun bcc => bcc ≠ []).map addressesJson),
      ("subject", some (jsonString req.subject)),
      ("textBody", some (jsonString req.textBody)),
      ("htmlBody", some ((req.htmlBody.map jsonString).getD jsonNull)),
      ("inReplyTo", some ((req.inReplyTo.map jsonString).getD jsonNull)),
      ("loopHeaders", some ((req.loopHeaders.map fun headers =>
        jsonObject [("x-dub-mail-loop", headers.mailLoop.map jsonString),
          ("auto-submitted", headers.autoSubmitted.map jsonString)]).getD jsonNull)),
      ("attachments", some (jsonArray ((req.attachments.getD []).map fun a =>
        jsonString (a.filename ++ ":" ++ a.contentType ++ ":" ++
          toString (a.contentBase64.toList.flatMap codeUnits).length))))]

/-- FNV-1a over the code units, in 32 bits. -/
def fnv1a (units : List Nat) : Nat :=
  units.foldl (fun h unit => Nat.xor h unit * 0x01000193 % 2 ^ 32) 0x811c9dc5

def hashRequest : String :=
  let h := fnv1a ((canonical req).flatMap codeUnits)
  String.ofList ((List.range 8).reverse.map fun place => hexDigit (h / 16 ^ place % 16))

/-- `trim().toLowerCase()`. -/
def folded : List Char :=
  (trim text).map Char.toLower

def withArchiveCc (archiveCc : Option String) : SendMailRequest :=
  match archiveCc with
  | none => req
  | some archive =>
    let addr := trim archive
    if addr = [] then req
    else if (req.toAddresses ++ req.cc.getD [] ++ req.bcc.getD []).any fun a =>
        folded a.email = addr.map Char.toLower then req
    else { req with cc := some (req.cc.getD [] ++ [{ email := String.ofList addr }]) }

/-- The visible Cc and the archive copy, which goes to the envelope. -/
def splitArchive (rawReq req : SendMailRequest) : List MailAddress × List MailAddress :=
  let rawCc := rawReq.cc.getD []
  let cc := req.cc.getD []
  if cc.length = rawCc.length then (cc, []) else (rawCc, cc.drop rawCc.length)

theorem splitArchive_cc (rawReq : SendMailRequest) (archiveCc : Option String) :
    (splitArchive rawReq (withArchiveCc rawReq archiveCc)).1 = rawReq.cc.getD [] := by
  unfold splitArchive withArchiveCc
  cases archiveCc with
  | none => simp
  | some archive =>
    simp only []
    split
    · simp
    split
    · simp
    · simp

/-- What `assembleMime` is given. -/
structure MimeInput where
  fromAddress : String
  toAddresses : List MailAddress
  cc : List MailAddress
  subject : String
  textBody : String
  htmlBody : Option String
  messageId : String
  inReplyTo : Option String
  references : List String
  loopHeaders : Option MailLoopHeaders
  attachments : List MailAttachmentInput

/-- A message as the provider is handed it; absent lists are empty ones. -/
structure OutboundMail where
  fromAddress : String
  toAddresses : List MailAddress
  cc : List MailAddress
  bcc : List MailAddress
  subject : String
  textBody : String
  htmlBody : Option String
  messageId : String
  inReplyTo : Option String
  references : List String
  mime : String
  attachments : List MailAttachmentInput

def domainOf (fromAddress : String) : String :=
  match (fromAddress.toList.splitOn '@')[1]? with
  | some domain => String.ofList domain
  | none => "developershub.jp"

def rfcMessageId (logId fromAddress : String) : String :=
  logId ++ "@" ++ domainOf fromAddress

inductive SendStatus where
  | pending
  | sent
  | failed
  deriving DecidableEq

/-- A row of `mail_send_log`; the JSON columns hold the lists that they stand for. -/
structure SendLogRow where
  id : String
  idempotencyKey : String
  reqHash : String
  requester : String
  toAddresses : List MailAddress
  subject : String
  threadId : Option String
  provider : Option String
  providerMessageId : Option String
  status : SendStatus
  errorCode : Option String
  createdAt : Int
  updatedAt : Int
  textBody : String
  htmlBody : Option String
  cc : List MailAddress
  fromAddress : String
  ownerUserId : Option String
  bcc : Option (List MailAddress)

inductive ScheduledSendStatus where
  | scheduled
  | sent
  | canceled
  | failed
  deriving DecidableEq

/-- A row of `mail_scheduled`; instants are in milliseconds. -/
structure ScheduledRow where
  id : String
  ownerUserId : Option String
  toAddresses : List MailAddress
  cc : Option (List MailAddress)
  bcc : Option (List MailAddress)
  subject : String
  textBody : String
  htmlBody : Option String
  inReplyTo : Option String
  fromAddress : Option String
  scheduledAt : Int
  status : ScheduledSendStatus
  sentMessageId : Option String
  errorCode : Option String
  attempts : Nat
  updatedAt : Int
  deriving DecidableEq

def SCHEDULED_DRAIN_BATCH : Nat := 25

def SCHEDULED_MAX_ATTEMPTS : Nat := 6

def toSendRequest (row : ScheduledRow) (attachments : List MailAttachmentInput) :
    SendMailRequest where
  toAddresses := row.toAddresses
  subject := row.subject
  textBody := row.textBody
  cc := row.cc.filter fun cc => cc ≠ []
  bcc := row.bcc.filter fun bcc => bcc ≠ []
  attachments := if attachments = [] then none else some attachments
  htmlBody := row.htmlBody.filter fun html => html ≠ ""
  inReplyTo := row.inReplyTo.filter fun parent => parent ≠ ""

/-- The idempotency key of the row's send. -/
def schedKey (id : String) : String := "sched:" ++ id

theorem schedKey_inj {first second : String} (same : schedKey first = schedKey second) :
    first = second := by
  unfold schedKey at same
  exact (String.append_right_inj _).mp same

/-- Whose rows a caller may change: their own, or any. -/
inductive MailScope where
  | user (userId : String)
  | readAll

def MailScope.covers : MailScope → ScheduledRow → Bool
  | .user userId, row => row.ownerUserId = some userId
  | .readAll, _ => true

/-- The columns that an edit sets. -/
structure SchedulePatch where
  toAddresses : Option (List MailAddress) := none
  cc : Option (Option (List MailAddress)) := none
  subject : Option String := none
  textBody : Option String := none
  htmlBody : Option (Option String) := none
  scheduledAt : Option Int := none

def SchedulePatch.apply (patch : SchedulePatch) (row : ScheduledRow) : ScheduledRow :=
  { row with
    toAddresses := patch.toAddresses.getD row.toAddresses
    cc := patch.cc.getD row.cc
    subject := patch.subject.getD row.subject
    textBody := patch.textBody.getD row.textBody
    htmlBody := patch.htmlBody.getD row.htmlBody
    scheduledAt := patch.scheduledAt.getD row.scheduledAt }

end DubEcosystem.MailGateway
