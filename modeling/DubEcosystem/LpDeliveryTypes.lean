import Mathlib.Data.Rat.Floor
import DubEcosystem.KeyedTable
import DubEcosystem.LpTicketsTypes

/-!
# LP tickets: the outbox of ticket mails

The rows of `lp_ticket_outbox` with the statements that the drain issues, and what Resend's
answers mean.  Times are in milliseconds.
-/

namespace DubEcosystem.LpDelivery

open List
open LpTickets (OutboxKind OutboxStatus OutboxRow TicketOrderRow TicketRow)

def OUTBOX_MAX_ATTEMPTS : Nat := 10

def OUTBOX_BACKOFF_BASE_MS : Int := 60 * 1000

def OUTBOX_BACKOFF_CAP_MS : Int := 60 * 60 * 1000

def OUTBOX_TRANSIENT_RETRY_MS : Int := 5 * 60 * 1000

def OUTBOX_RATE_LIMIT_RETRY_MS : Int := 60 * 1000

def OUTBOX_HOLD_MS : Int := 60 * 60 * 1000

def OUTBOX_LEASE_MS : Int := 2 * 60 * 1000

def MAIL_MIN_INTERVAL_MS : Int := 550

def MAIL_TIMEOUT_MS : Int := 10000

def DRAIN_BUDGET_MS : Int := 25 * 1000

def DRAIN_BATCH_MAX : Nat := 30

def JST_OFFSET_MS : Int := 9 * 60 * 60 * 1000

def DAY_MS : Int := 24 * 60 * 60 * 1000

/-- The day in Japan that an instant falls in. -/
def jstDay (time : Int) : Int := (time + JST_OFFSET_MS) / DAY_MS

def dayStart (day : Int) : Int := day * DAY_MS - JST_OFFSET_MS

/-- What a deployment fixes of the delivery. -/
structure Deps where
  /-- `RESEND_API_KEY` is set. -/
  hasMailer : Bool
  hasTokenSecret : Bool
  ticketOpsEmail : Option String
  ticketMailFrom : String
  ticketMailDailyCap : Option ℚ

def deliverableKinds (deps : Deps) : List OutboxKind :=
  if deps.hasMailer then
    (if deps.hasTokenSecret then [.buyerConfirmation] else []) ++
      if deps.ticketOpsEmail.isSome then [.opsCopy] else []
  else []

structure MailOrder extends TicketOrderRow where
  buyerEmail : String

structure RenderedMail where
  subject : String
  text : String
  html : Option String

structure OutboundMail extends RenderedMail where
  sender : String
  recipient : String

inductive MailFailure where
  | rateLimited
  | transient
  | rejected
  deriving DecidableEq

inductive MailResult where
  | accepted (id : String)
  | refused (failure : MailFailure) (error : String) (retryAfterSec : Option ℚ)

/-- The parts of Resend's response that are read. -/
structure Response where
  status : Nat
  retryAfter : Option ℚ
  name : Option String
  id : Option String

def failureOf (status : Nat) : MailFailure :=
  if status = 429 then .rateLimited
  else if 500 ≤ status ∨ status = 401 ∨ status = 403 then .transient
  else .rejected

def isErrorChar (c : Char) : Bool :=
  ('a' ≤ c ∧ c ≤ 'z') ∨ c.isDigit ∨ c = '_'

def errorName (res : Response) : String :=
  (res.name.filter fun name =>
    1 ≤ name.length ∧ name.length ≤ 40 ∧ name.toList.all isErrorChar).getD "unknown"

/-- What `createResendMailer` makes of a response, or of a request that failed. -/
def mailResult : Except String Response → MailResult
  | .error name =>
    .refused .transient (if name = "TimeoutError" then "timeout" else "network_error") none
  | .ok res =>
    if res.status < 200 ∨ 300 ≤ res.status then
      .refused (failureOf res.status) ("resend_" ++ toString res.status ++ "_" ++ errorName res)
        (if failureOf res.status = .rateLimited then res.retryAfter.filter fun sec => 0 < sec
          else none)
    else
      match res.id.filter fun id => id ≠ "" with
      | some id => .accepted id
      | none => .refused .transient "resend_no_id" none

/-- Why a row is updated, which is not written. -/
inductive Outcome where
  | sent
  | rejected
  | renderFailed
  | orderMissing
  | noValidTickets
  | orderRefunded
  | orderOnHold
  /-- Resend takes no mail at the moment. -/
  | notTaken
  /-- The batch was stopped before the row's turn. -/
  | unsent
  deriving DecidableEq

/-- The outcomes that count as an attempt. -/
def Outcome.counts : Outcome → Bool
  | .rejected => true
  | .renderFailed => true
  | .orderMissing => true
  | .noValidTickets => true
  | _ => false

structure OutboxUpdate where
  id : String
  status : OutboxStatus
  attempts : Nat
  nextAttemptAt : Int
  lastError : Option String
  sentAt : Option Int
  outcome : Outcome

/-- What the statement for an update sets. -/
def OutboxUpdate.overwrite (update : OutboxUpdate) (row : OutboxRow) : OutboxRow :=
  { row with
    status := update.status, attempts := update.attempts
    nextAttemptAt := update.nextAttemptAt, lastError := update.lastError
    sentAt := update.sentAt }

structure OutboxClaim where
  now : Int
  leaseUntil : Int
  kinds : List OutboxKind
  limit : ℚ
  orderId : Option String

structure Claimed where
  lease : Nat
  rows : List OutboxRow

structure Claim where
  lease : Nat
  rowId : String
  leaseUntil : Int
  deriving DecidableEq

structure World where
  clock : Int
  outbox : KeyedTable OutboxRow.id
  nextLease : Nat
  /-- The claims so far, the latest first. -/
  claims : List Claim
  /-- The leases whose updates were applied, with the rows that were updated. -/
  returned : List (Nat × String)
  /-- What the updates so far were applied for. -/
  outcomes : List (String × Outcome)

namespace World

variable (world : World)

def countOutboxSentSince (since : Int) : Nat :=
  (world.outbox.rows.filter fun row =>
    row.status = .sent ∧ row.sentAt.any fun sentAt => since ≤ sentAt).length

/-- The `WHERE` clause of a claim. -/
def isDue (claim : OutboxClaim) (row : OutboxRow) : Bool :=
  row.status = .pending ∧ row.nextAttemptAt ≤ claim.now ∧ row.kind ∈ claim.kinds ∧
    claim.orderId.all fun orderId => row.orderId = orderId

/-- `ORDER BY kind, next_attempt_at, id`. -/
def dueOrder (first second : OutboxRow) : Prop :=
  first.kind.text < second.kind.text ∨ first.kind.text = second.kind.text ∧
    (first.nextAttemptAt < second.nextAttemptAt ∨
      first.nextAttemptAt = second.nextAttemptAt ∧ first.id ≤ second.id)

instance : DecidableRel dueOrder :=
  fun _ _ => inferInstanceAs (Decidable (_ ∨ _ ∧ _))

def selected (claim : OutboxClaim) (limit : Int) : List OutboxRow :=
  let due := (world.outbox.rows.filter (isDue claim)).insertionSort dueOrder
  if limit < 0 then due else due.take limit.toNat

/-- The lease lasts until then, and with it the time for which the row is not due. -/
def leaseRow (leaseUntil : Int) (row : OutboxRow) : OutboxRow :=
  { row with nextAttemptAt := leaseUntil }

def leaseRows (claim : OutboxClaim) (limit : Int) : World :=
  let ids := (world.selected claim limit).map OutboxRow.id
  { world with
    nextLease := world.nextLease + 1
    claims := ids.map (fun id => ⟨world.nextLease, id, claim.leaseUntil⟩) ++ world.claims
    outbox := world.outbox.update (fun row => row.id ∈ ids) (leaseRow claim.leaseUntil)
      fun _ => rfl }

/-- The claim takes the first due rows and moves their due time to the end of the lease.  A
limit that is no integer is refused. -/
def claimOutbox (claim : OutboxClaim) : Except String Claimed × World :=
  if claim.limit.isInt then
    (.ok
      { lease := world.nextLease
        rows := ((world.selected claim claim.limit.num).map
          (leaseRow claim.leaseUntil)).insertionSort dueOrder },
      world.leaseRows claim claim.limit.num)
  else (.error "datatype mismatch", world)

/-- `UPDATE lp_ticket_outbox SET ... WHERE id = ?`. -/
def applyUpdate (table : KeyedTable OutboxRow.id) (update : OutboxUpdate) :
    KeyedTable OutboxRow.id :=
  table.update (fun row => row.id = update.id) update.overwrite fun _ => rfl

def applyOutboxUpdates (lease : Nat) (updates : List OutboxUpdate) : World :=
  { world with
    outbox := updates.foldl applyUpdate world.outbox
    returned := updates.map (fun update => (lease, update.id)) ++ world.returned
    outcomes := updates.map (fun update => (update.id, update.outcome)) ++ world.outcomes }

def issueMail (id orderId : String) (kind : OutboxKind) : World :=
  { world with
    outbox := world.outbox.insertOrIgnore
      { id, orderId, kind, status := .pending, attempts := 0, nextAttemptAt := world.clock
        lastError := none, sentAt := none, createdAt := world.clock } }

end World

variable {world : World} {claim : OutboxClaim} {row : OutboxRow}

variable {limit : Int}

theorem mem_selected (isSelected : row ∈ world.selected claim limit) :
    row ∈ world.outbox ∧ World.isDue claim row = true := by
  have isDue : row ∈ (world.outbox.rows.filter (World.isDue claim)).insertionSort
      World.dueOrder := by
    simp only [World.selected] at isSelected
    split at isSelected
    · exact isSelected
    · exact mem_of_mem_take isSelected
  exact mem_filter.mp ((perm_insertionSort _ _).mem_iff.mp isDue)

theorem nodup_selected (world : World) (claim : OutboxClaim) (limit : Int) :
    ((world.selected claim limit).map OutboxRow.id).Nodup := by
  have sorted : (((world.outbox.rows.filter (World.isDue claim)).insertionSort
      World.dueOrder).map OutboxRow.id).Nodup := by
    rw [((perm_insertionSort _ _).map OutboxRow.id).nodup_iff]
    exact world.outbox.keysNodup.sublist (filter_sublist.map OutboxRow.id)
  simp only [World.selected]
  split
  · exact sorted
  · exact sorted.sublist ((take_sublist _ _).map OutboxRow.id)

theorem ids_claimed {rows : List OutboxRow} (isRows : rows.Perm
    ((world.selected claim limit).map (World.leaseRow claim.leaseUntil))) :
    (rows.map OutboxRow.id).Perm ((world.selected claim limit).map OutboxRow.id) := by
  have idsPerm := isRows.map OutboxRow.id
  rw [List.map_map] at idsPerm
  exact idsPerm

theorem length_selected_le (world : World) (claim : OutboxClaim)
    (isNonneg : 0 ≤ limit) : ((world.selected claim limit).length : Int) ≤ limit := by
  simp only [World.selected, Int.not_lt.mpr isNonneg, if_false]
  have taken := length_take_le limit.toNat
    ((world.outbox.rows.filter (World.isDue claim)).insertionSort World.dueOrder)
  omega

theorem mem_leaseRows : row ∈ (world.leaseRows claim limit).outbox ↔
      ∃ old ∈ world.outbox, (if old.id ∈ (world.selected claim limit).map OutboxRow.id
          then World.leaseRow claim.leaseUntil old else old) = row := by
  have keepsId : ∀ row, (World.leaseRow claim.leaseUntil row).id = row.id := fun _ => rfl
  have updated := @KeyedTable.mem_update _ _ OutboxRow.id world.outbox
    (fun row => row.id ∈ (world.selected claim limit).map OutboxRow.id)
    (World.leaseRow claim.leaseUntil) keepsId row
  simp only [decide_eq_true_eq] at updated
  exact updated

variable {table : KeyedTable OutboxRow.id}

theorem mem_applyUpdate {update : OutboxUpdate} :
    row ∈ World.applyUpdate table update ↔ (row ∈ table ∧ row.id ≠ update.id) ∨
        ∃ old ∈ table, old.id = update.id ∧ update.overwrite old = row := by
  have keepsId : ∀ row, (update.overwrite row).id = row.id := fun _ => rfl
  have updated := @KeyedTable.mem_update _ _ OutboxRow.id table
    (fun row => row.id = update.id) update.overwrite keepsId row
  constructor
  · intro member
    obtain ⟨old, oldMem, rfl⟩ := updated.mp member
    by_cases isUpdated : old.id = update.id
    · simp only [isUpdated, decide_true, if_true]
      exact .inr ⟨old, oldMem, isUpdated, rfl⟩
    · simp only [isUpdated, decide_false]
      exact .inl ⟨oldMem, isUpdated⟩
  · rintro (⟨member, isOther⟩ | ⟨old, oldMem, isUpdated, rfl⟩)
    · exact updated.mpr ⟨row, member, by simp [isOther]⟩
    · exact updated.mpr ⟨old, oldMem, by simp [isUpdated]⟩

theorem claimOutbox_ok {claimed : Claimed} {moved : World}
    (isClaim : world.claimOutbox claim = (.ok claimed, moved)) :
    claim.limit.isInt = true ∧ moved = world.leaseRows claim claim.limit.num ∧
      claimed.lease = world.nextLease ∧ claimed.rows.Perm
        ((world.selected claim claim.limit.num).map (World.leaseRow claim.leaseUntil)) := by
  unfold World.claimOutbox at isClaim
  split at isClaim
  · rename_i isInt
    obtain ⟨isClaimed, rfl⟩ := Prod.mk.inj isClaim
    cases isClaimed
    exact ⟨isInt, rfl, rfl, perm_insertionSort _ _⟩
  · cases isClaim

theorem claimOutbox_error {thrown : String} {moved : World}
    (isRefused : world.claimOutbox claim = (.error thrown, moved)) : moved = world := by
  unfold World.claimOutbox at isRefused
  split at isRefused
  · cases isRefused
  · exact (Prod.mk.inj isRefused).2.symm

theorem mem_applyUpdates {updates : List OutboxUpdate}
    (nodup : (updates.map OutboxUpdate.id).Nodup) :
    row ∈ updates.foldl World.applyUpdate table ↔
      (row ∈ table ∧ row.id ∉ updates.map OutboxUpdate.id) ∨
        ∃ update ∈ updates, ∃ old ∈ table, old.id = update.id ∧ update.overwrite old = row := by
  induction updates generalizing table with
  | nil => simp
  | cons first updates ih =>
    obtain ⟨isFirst, rest⟩ := nodup_cons.mp nodup
    rw [foldl_cons, ih rest]
    constructor
    · rintro (⟨member, isOther⟩ | ⟨update, updateMem, old, oldMem, isOld, rfl⟩)
      · rcases mem_applyUpdate.mp member with ⟨inTable, notFirst⟩ | ⟨old, oldMem, isOld, rfl⟩
        · exact .inl ⟨inTable, by simp [notFirst, isOther]⟩
        · exact .inr ⟨first, .head _, old, oldMem, isOld, rfl⟩
      · have notFirst : update.id ≠ first.id := by
          intro same
          exact isFirst (same ▸ mem_map_of_mem updateMem)
        rcases mem_applyUpdate.mp oldMem with ⟨inTable, -⟩ | ⟨older, olderMem, isOlder, rfl⟩
        · exact .inr ⟨update, .tail _ updateMem, old, inTable, isOld, rfl⟩
        · exact absurd (isOld.symm.trans isOlder) notFirst
    · rintro (⟨member, isOther⟩ | ⟨update, updateMem, old, oldMem, isOld, rfl⟩)
      · rw [map_cons, mem_cons, not_or] at isOther
        exact .inl ⟨mem_applyUpdate.mpr (.inl ⟨member, isOther.1⟩), isOther.2⟩
      · rcases mem_cons.mp updateMem with rfl | inRest
        · left
          constructor
          · exact mem_applyUpdate.mpr (.inr ⟨old, oldMem, isOld, rfl⟩)
          · exact isOld ▸ isFirst
        · right
          have notFirst : update.id ≠ first.id := by
            intro same
            exact isFirst (same ▸ mem_map_of_mem inRest)
          refine ⟨update, inRest, old, ?_, isOld, rfl⟩
          exact mem_applyUpdate.mpr (.inl ⟨oldMem, isOld ▸ notFirst⟩)

end DubEcosystem.LpDelivery
