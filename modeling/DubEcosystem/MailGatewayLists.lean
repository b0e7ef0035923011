import Mathlib.Data.List.DropRight
import Mathlib.Data.String.Basic
import DubEcosystem.CursorPages
import DubEcosystem.KeysetPages
import DubEcosystem.MailGatewayTypes

/-!
# mail-gateway: the lists of mails

The scheduled, the sent and the received mails are listed page by page.  A cursor holds the
identifier of a page's last row, whatever the order of the list.
-/

namespace DubEcosystem.MailGateway

open CursorPages KeysetPages List

/-- The base64 functions of the platform; `btoa` throws on a character beyond Latin-1. -/
structure Base64 where
  btoa : String → Option (List Char)
  atob : List Char → Option String

variable (codec : Base64)

/-- What `btoa` gives is in the base64 alphabet, and `atob` reads it back without its padding. -/
def Base64.Carries (text : String) : Prop :=
  ∀ coded, codec.btoa text = some coded →
    (∀ c ∈ coded, c ≠ '-' ∧ c ≠ '_') ∧ codec.atob (coded.rdropWhile fun c => c = '=') = some text

inductive CursorError where
  | invalidCharacter
  | invalidCursor
  deriving DecidableEq

def urlSafe (c : Char) : Char :=
  if c = '+' then '-' else if c = '/' then '_' else c

def urlRestored (c : Char) : Char :=
  if c = '-' then '+' else if c = '_' then '/' else c

def encodeCursor (id : String) : Except CursorError (List Char) :=
  match codec.btoa id with
  | some coded => .ok ((coded.map urlSafe).rdropWhile fun c => c = '=')
  | none => .error .invalidCharacter

def decodeCursor (cursor : List Char) : Except CursorError String :=
  match codec.atob (cursor.map urlRestored) with
  | some id => .ok id
  | none => .error .invalidCursor

theorem urlSafe_eq_padding (c : Char) : urlSafe c = '=' ↔ c = '=' := by
  unfold urlSafe
  split_ifs with plus slash
  · simp [plus]
  · simp [slash]
  · rfl

theorem urlRestored_urlSafe {c : Char} (standard : c ≠ '-' ∧ c ≠ '_') :
    urlRestored (urlSafe c) = c := by
  unfold urlSafe
  split_ifs with plus slash
  · simp [urlRestored, plus]
  · simp [urlRestored, slash]
  · simp [urlRestored, standard]

theorem rdropWhile_urlSafe (coded : List Char) : (coded.map urlSafe).rdropWhile (fun c => c = '=') =
      (coded.rdropWhile fun c => c = '=').map urlSafe := by
  have samePadding : ((fun c : Char => decide (c = '=')) ∘ urlSafe) = fun c => decide (c = '=') := by
    funext c
    simp only [Function.comp, urlSafe_eq_padding]
  rw [List.rdropWhile, List.rdropWhile, ← map_reverse, dropWhile_map, samePadding,
    map_reverse]

theorem decodeCursor_encodeCursor {codec : Base64} {id : String} {cursor : List Char}
    (carries : codec.Carries id) (encoded : encodeCursor codec id = .ok cursor) :
    decodeCursor codec cursor = .ok id := by
  unfold encodeCursor at encoded
  cases isCoded : codec.btoa id with
  | none => simp [isCoded] at encoded
  | some coded =>
    obtain ⟨standard, readBack⟩ := carries coded isCoded
    simp only [isCoded, Except.ok.injEq] at encoded
    have restored : cursor.map urlRestored = coded.rdropWhile fun c => c = '=' := by
      rw [← encoded, rdropWhile_urlSafe, List.map_map]
      apply (map_congr_left _).trans (map_id _)
      intro c member
      exact urlRestored_urlSafe (standard c ((List.rdropWhile_prefix _ _).subset member))
    rw [decodeCursor, restored, readBack]

section Queries

/-- A row of `mail_inbound`, with the columns that its list reads. -/
structure InboundRow where
  id : String
  threadId : String
  fromAddress : Option MailAddress
  toAddresses : List MailAddress
  cc : List MailAddress
  subject : String
  snippet : String
  bodyText : Option String
  ownerUserId : Option String

structure InboundDeliveryRow where
  inboundId : String
  ownerUserId : Option String

/-- The tables of the lists; `id` is the primary key of each, and `snippets` the column that
`SendLogRow` lacks. -/
structure MailTables where
  scheduled : List ScheduledRow
  sendLog : List SendLogRow
  snippets : String → Option String
  inbound : List InboundRow
  deliveries : List InboundDeliveryRow
  scheduledIds : (scheduled.map ScheduledRow.id).Nodup
  sendLogIds : (sendLog.map SendLogRow.id).Nodup
  inboundIds : (inbound.map InboundRow.id).Nodup

inductive InboundScope where
  | mail (scope : MailScope)
  | users (userIds : List String)

def inboundOwnerClause (deliveries : List InboundDeliveryRow) (row : InboundRow) :
    InboundScope → Bool
  | .mail (.user userId) => row.ownerUserId = some userId ||
      deliveries.any fun delivery => delivery.inboundId = row.id && delivery.ownerUserId = some userId
  | .mail .readAll => true
  | .users userIds => row.ownerUserId.any userIds.contains || deliveries.any fun delivery =>
        delivery.inboundId = row.id && delivery.ownerUserId.any userIds.contains

def escapeLike (text : String) : List Char :=
  text.toList.flatMap fun c => if c = '\\' ∨ c = '%' ∨ c = '_' then ['\\', c] else [c]

/-- `like` is SQLite's `LIKE ? ESCAPE`. -/
def searchClause (like : List Char → String → Bool) (q : String) (text : List String)
    (lists : List MailAddress) : Bool :=
  let pat := '%' :: escapeLike q ++ ['%']
  text.any (like pat) ||
    lists.any fun address => like pat (address.name.getD "") || like pat address.email

structure SentQuery where
  ownerUserId : MailScope
  q : Option String

structure InboundQuery where
  ownerUserId : InboundScope
  threadId : Option String
  q : Option String

variable (like : List Char → String → Bool)

def scheduledWhere (ownerUserId : MailScope) (row : ScheduledRow) : Bool :=
  row.status = .scheduled && ownerUserId.covers row

def sentWhere (snippets : String → Option String) (query : SentQuery) (row : SendLogRow) : Bool :=
  row.status = .sent && (match query.ownerUserId with
      | .user userId => row.ownerUserId = some userId
      | .readAll => true) &&
    query.q.all fun q => searchClause like q
      [row.subject, (snippets row.id).getD "", row.textBody] (row.toAddresses ++ row.cc)

def inboundWhere (deliveries : List InboundDeliveryRow) (query : InboundQuery)
    (row : InboundRow) : Bool :=
  inboundOwnerClause deliveries row query.ownerUserId &&
    query.threadId.all (fun threadId => row.threadId = threadId) &&
    query.q.all fun q => searchClause like q [row.subject, row.snippet, row.bodyText.getD "",
        (row.fromAddress.bind MailAddress.name).getD "", (row.fromAddress.map (·.email)).getD ""]
      (row.toAddresses ++ row.cc)

/-- `ORDER BY scheduled_at ASC, id ASC`. -/
def soonestFirst (first second : ScheduledRow) : Prop :=
  first.scheduledAt < second.scheduledAt ∨
    first.scheduledAt = second.scheduledAt ∧ first.id ≤ second.id

/-- `ORDER BY created_at DESC, id DESC`. -/
def newestFirst (first second : SendLogRow) : Prop :=
  second.createdAt < first.createdAt ∨ first.createdAt = second.createdAt ∧ second.id ≤ first.id

instance : DecidableRel soonestFirst := fun _ _ => inferInstanceAs (Decidable (_ ∨ _))

instance : DecidableRel newestFirst := fun _ _ => inferInstanceAs (Decidable (_ ∨ _))

end Queries

section Lists

variable {Row : Type} (codec : Base64) (like : List Char → String → Bool)

def listed (order : Row → Row → Prop) [DecidableRel order] (isIn : Row → Bool)
    (rows : List Row) : List Row :=
  (rows.insertionSort order).filter isIn

/-- The cursor is one more condition of the `WHERE`; `LIMIT` asks for one row more. -/
def listPage (ident : Row → String) (order : Row → Row → Prop) [DecidableRel order]
    (beyond : String → String → Prop) [DecidableRel beyond] (isIn : Row → Bool)
    (rows : List Row) (limit : Nat) (cursor : Option (List Char)) :
    Except CursorError (Page Row (List Char)) := do
  let after ← readCursor (decodeCursor codec) cursor
  let isWanted (row : Row) : Bool := isIn row && after.all fun last => beyond last (ident row)
  pageOf (encodeCursor codec) ident ((listed order isWanted rows).take (limit + 1)) limit

variable (tables : MailTables)

def listScheduled (ownerUserId : MailScope) :
    Nat → Option (List Char) → Except CursorError (Page ScheduledRow (List Char)) :=
  listPage codec ScheduledRow.id soonestFirst (fun last id => last < id)
    (scheduledWhere ownerUserId) tables.scheduled

def listSent (query : SentQuery) :
    Nat → Option (List Char) → Except CursorError (Page SendLogRow (List Char)) :=
  listPage codec SendLogRow.id newestFirst (fun last id => id < last)
    (sentWhere like tables.snippets query) tables.sendLog

def listInbound (query : InboundQuery) :
    Nat → Option (List Char) → Except CursorError (Page InboundRow (List Char)) :=
  listPage codec InboundRow.id (fun first second => second.id ≤ first.id)
    (fun last id => id < last) (inboundWhere like tables.deliveries query) tables.inbound

variable {codec}

/-- Every list, followed from its first page, comes to an end and yields the matching rows in
its order. -/
def PageWithoutLoss (codec : Base64) (like : List Char → String → Bool) (tables : MailTables)
    (scheduledOwner : MailScope) (sent : SentQuery) (inbound : InboundQuery) (limit : Nat) :
    Prop :=
  Follows (listScheduled codec tables scheduledOwner limit) none
      (listed soonestFirst (scheduledWhere scheduledOwner) tables.scheduled) ∧
    Follows (listSent codec like tables sent limit) none
      (listed newestFirst (sentWhere like tables.snippets sent) tables.sendLog) ∧
    Follows (listInbound codec like tables inbound limit) none
      (listed (fun first second => second.id ≤ first.id)
        (inboundWhere like tables.deliveries inbound) tables.inbound)

theorem follows_listPage_iff {ident : Row → String} {order : Row → Row → Prop}
    [DecidableRel order] {beyond : String → String → Prop} [DecidableRel beyond]
    {isIn : Row → Bool} {rows : List Row} {limit : Nat} (carries : ∀ id, codec.Carries id)
    (irrefl : ∀ id, ¬beyond id id)
    (trans : ∀ first second third, beyond first second → beyond second third → beyond first third)
    (positive : 0 < limit) (distinct : (rows.map ident).Nodup) :
    Follows (listPage codec ident order beyond isIn rows limit) none (listed order isIn rows) ↔
      EndsDivide (encodeCursor codec) ident beyond limit (listed order isIn rows) := by
  have isListing : listPage codec ident order beyond isIn rows limit =
      listFrom (encodeCursor codec) (decodeCursor codec) ident beyond (listed order isIn rows)
        limit := by
    funext cursor
    simp only [listPage, listFrom, remaining, listed, filter_filter, Bool.and_comm]
  have nodup : (listed order isIn rows).Nodup :=
    ((perm_insertionSort order rows).nodup_iff.mpr distinct.of_map).filter isIn
  rw [isListing]
  exact follows_iff irrefl trans
    (fun row _ _ named => decodeCursor_encodeCursor (carries (ident row)) named) positive nodup

theorem divides_inbound {isIn : InboundRow → Bool} {rows before after : List InboundRow}
    {last : InboundRow} (distinct : (rows.map InboundRow.id).Nodup)
    (isSplit : listed (fun first second => second.id ≤ first.id) isIn rows =
      before ++ last :: after) :
    Divides InboundRow.id (fun last id => id < last) before last after := by
  have inOrder : InOrder (OrderDual.toDual ∘ InboundRow.id) (before ++ last :: after) := by
    rw [← isSplit]
    exact (inOrder_insertionSort rows (by
      rw [← List.map_map]
      exact distinct.map OrderDual.toDual.injective)).filter isIn
  have split := pairwise_append.mp inOrder
  constructor
  · intro row member isBeyond
    exact lt_asymm isBeyond (split.2.2 row member last (.head _))
  · exact fun row member => (pairwise_cons.mp split.2.1).1 row member

variable {like}

/-- The lists page without loss just when at every page end the identifier of the last row
divides the rows as the order of the list does; that of received mails always does. -/
theorem pageWithoutLoss_iff {tables : MailTables} {scheduledOwner : MailScope}
    {sent : SentQuery} {inbound : InboundQuery} {limit : Nat}
    (carries : ∀ id, codec.Carries id) (positive : 0 < limit) :
    PageWithoutLoss codec like tables scheduledOwner sent inbound limit ↔
      EndsDivide (encodeCursor codec) ScheduledRow.id (fun last id => last < id) limit
          (listed soonestFirst (scheduledWhere scheduledOwner) tables.scheduled) ∧
        EndsDivide (encodeCursor codec) SendLogRow.id (fun last id => id < last) limit
          (listed newestFirst (sentWhere like tables.snippets sent) tables.sendLog) ∧
        ∀ before last after, PageEnd limit (listed (fun first second => second.id ≤ first.id)
              (inboundWhere like tables.deliveries inbound) tables.inbound) before last after →
          Named (encodeCursor codec) InboundRow.id last := by
  apply and_congr
  · exact follows_listPage_iff carries (fun _ => lt_irrefl _) (fun _ _ _ => lt_trans) positive
      tables.scheduledIds
  apply and_congr
  · exact follows_listPage_iff carries (fun _ => lt_irrefl _)
      (fun _ _ _ first second => second.trans first) positive tables.sendLogIds
  · have follows_iff : Follows (listInbound codec like tables inbound limit) none _ ↔ _ :=
      follows_listPage_iff carries (fun _ => lt_irrefl _)
        (fun _ _ _ first second => second.trans first) positive tables.inboundIds
    rw [follows_iff]
    constructor
    · exact fun divide before last after isEnd => (divide before last after isEnd).1
    · exact fun named before last after isEnd => ⟨named before last after isEnd,
        divides_inbound tables.inboundIds isEnd.rows_eq⟩

/-- Two identifiers as `btoa` and `atob` carry them. -/
def twoLetters : Base64 where
  btoa text := if text = "a" then some "YQ==".toList
    else if text = "b" then some "Yg==".toList else none
  atob coded := if coded = "YQ".toList then some "a"
    else if coded = "Yg".toList then some "b" else none

theorem twoLetters_carries (id : String) : twoLetters.Carries id := by
  intro coded isCoded
  simp only [twoLetters] at isCoded
  split_ifs at isCoded with isA isB <;> cases isCoded
  · rw [isA]
    exact ⟨by simp, rfl⟩
  · rw [isB]
    exact ⟨by simp, rfl⟩

def overtakingMail (id : String) (scheduledAt : Int) : ScheduledRow where
  id := id
  ownerUserId := some "user"
  toAddresses := [⟨"to@example.com", none⟩]
  cc := none
  bcc := none
  subject := "subject"
  textBody := "body"
  htmlBody := none
  inReplyTo := none
  fromAddress := none
  scheduledAt := scheduledAt
  status := .scheduled
  sentMessageId := none
  errorCode := none
  attempts := 0
  updatedAt := 0

/-- The second mail that a user scheduled is due before the first. -/
def overtakingMails : MailTables where
  scheduled := [overtakingMail "a" 2, overtakingMail "b" 1]
  sendLog := []
  snippets _ := none
  inbound := []
  deliveries := []
  scheduledIds := by decide
  sendLogIds := nodup_nil
  inboundIds := nodup_nil

theorem pageWithoutLoss_onePage : PageWithoutLoss twoLetters (fun _ _ => false) overtakingMails
    (.user "user") ⟨.readAll, none⟩ ⟨.mail .readAll, none, none⟩ 2 :=
  (pageWithoutLoss_iff twoLetters_carries (by decide)).mpr
    ⟨endsDivide_of_le (by decide), endsDivide_of_le (by decide),
      fun _ _ _ isEnd => absurd isEnd.rows_eq (by simp [overtakingMails, listed])⟩

/-- With one mail a page, the mail that is due later is on no page. -/
theorem not_pageWithoutLoss : ¬PageWithoutLoss twoLetters (fun _ _ => false) overtakingMails
    (.user "user") ⟨.readAll, none⟩ ⟨.mail .readAll, none, none⟩ 1 := by
  rintro ⟨follows, -⟩
  have divide := (follows_listPage_iff twoLetters_carries (fun _ => lt_irrefl _)
    (fun _ _ _ => lt_trans) (by decide) overtakingMails.scheduledIds).mp follows
  have atFirst := divide [] (overtakingMail "b" 1) [overtakingMail "a" 2]
    ⟨by decide, cons_ne_nil _ _, by decide⟩
  exact absurd (atFirst.2.2 _ (mem_singleton.mpr rfl)) (by decide)

end Lists

end DubEcosystem.MailGateway
