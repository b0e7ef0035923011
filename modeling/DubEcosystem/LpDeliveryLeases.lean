import DubEcosystem.LpDeliveryProtocol

/-!
# LP tickets: leases on the rows of the outbox

The due time of a pending row is also the end of the lease that a drain has on it.  A lease
that is not over is the latest one of its row, and the row is as its drain was given it.
-/

namespace DubEcosystem.LpDelivery

open Interleaving List Option
open LpTickets (OutboxRow)

namespace World

variable (world : World)

def latest (rowId : String) : Option Claim :=
  world.claims.find? fun claim => claim.rowId = rowId

def Unreturned (claim : Claim) : Prop :=
  claim ∈ world.claims ∧ (claim.lease, claim.rowId) ∉ world.returned

def Live (claim : Claim) : Prop :=
  world.Unreturned claim ∧ world.clock < claim.leaseUntil

/-- How many of the outcomes that were applied to a row count as an attempt. -/
def countedOutcomes (rowId : String) : Nat :=
  world.outcomes.countP fun entry => entry.1 = rowId ∧ entry.2.counts

structure Ordered : Prop where
  claimNumbers : ∀ claim ∈ world.claims, claim.lease < world.nextLease
  returnedNumbers : ∀ entry ∈ world.returned, entry.1 < world.nextLease
  claimRows : ∀ claim ∈ world.claims, ∃ row ∈ world.outbox, row.id = claim.rowId
  outcomeRows : ∀ entry ∈ world.outcomes, ∃ row ∈ world.outbox, row.id = entry.1
  leased : ∀ row ∈ world.outbox, ∀ claim, world.latest row.id = some claim →
    (claim.lease, row.id) ∉ world.returned →
      row.status = .pending ∧ row.nextAttemptAt = claim.leaseUntil
  live : ∀ claim, world.Live claim → world.latest claim.rowId = some claim
  attempts : ∀ row ∈ world.outbox, row.attempts = world.countedOutcomes row.id

end World

variable {world : World}

theorem mem_of_latest {rowId : String} {claim : Claim}
    (isLatest : world.latest rowId = some claim) :
    claim ∈ world.claims ∧ claim.rowId = rowId := by
  unfold World.latest at isLatest
  exact ⟨mem_of_find?_eq_some isLatest, by simpa using find?_some isLatest⟩

theorem World.Ordered.eq_of_live (ordered : world.Ordered) {first second : Claim}
    (firstLive : world.Live first) (secondLive : world.Live second)
    (sameRow : first.rowId = second.rowId) : first = second := by
  have firstLatest := ordered.live first firstLive
  rw [sameRow, ordered.live second secondLive] at firstLatest
  exact (some.inj firstLatest).symm

variable {row : OutboxRow}

theorem World.Ordered.row_of_live (ordered : world.Ordered) {claim : Claim}
    (isLive : world.Live claim) (member : row ∈ world.outbox) (isRow : row.id = claim.rowId) :
    row.status = .pending ∧ row.nextAttemptAt = claim.leaseUntil := by
  have isLatest := ordered.live claim isLive
  rw [← isRow] at isLatest
  exact ordered.leased row member claim isLatest (isRow ▸ isLive.1.2)

theorem World.Ordered.advance (ordered : world.Ordered) (time : Int) :
    World.Ordered { world with clock := max world.clock time } where
  claimNumbers := ordered.claimNumbers
  returnedNumbers := ordered.returnedNumbers
  claimRows := ordered.claimRows
  outcomeRows := ordered.outcomeRows
  leased := ordered.leased
  live claim isLive := ordered.live claim ⟨isLive.1, lt_of_le_of_lt (le_max_left _ _) isLive.2⟩
  attempts := ordered.attempts

theorem mem_issueMail {id orderId : String} {kind : LpTickets.OutboxKind}
    (member : row ∈ (world.issueMail id orderId kind).outbox) :
    row ∈ world.outbox ∨ (row.status = .pending ∧ row.attempts = 0 ∧ row.sentAt = none ∧
      ∀ present ∈ world.outbox, present.id ≠ row.id) := by
  rcases KeyedTable.mem_insertOrIgnore.mp member with old | ⟨rfl, isNew⟩
  · exact .inl old
  · exact .inr ⟨rfl, rfl, rfl, isNew⟩

theorem World.Ordered.issueMail (ordered : world.Ordered) (id orderId : String)
    (kind : LpTickets.OutboxKind) : (world.issueMail id orderId kind).Ordered := by
  have kept : ∀ row ∈ world.outbox, row ∈ (world.issueMail id orderId kind).outbox :=
    fun row member => KeyedTable.mem_insertOrIgnore.mpr (.inl member)
  constructor
  · exact ordered.claimNumbers
  · exact ordered.returnedNumbers
  · intro claim isClaim
    obtain ⟨row, member, isRow⟩ := ordered.claimRows claim isClaim
    exact ⟨row, kept row member, isRow⟩
  · intro entry isEntry
    obtain ⟨row, member, isRow⟩ := ordered.outcomeRows entry isEntry
    exact ⟨row, kept row member, isRow⟩
  · intro row member claim isLatest
    rcases mem_issueMail member with old | ⟨-, -, -, isNew⟩
    · exact ordered.leased row old claim isLatest
    · have isLatest : world.latest row.id = some claim := isLatest
      obtain ⟨isClaim, isRow⟩ := mem_of_latest isLatest
      obtain ⟨present, presentMem, isPresent⟩ := ordered.claimRows claim isClaim
      exact absurd (isPresent.trans isRow) (isNew present presentMem)
  · exact ordered.live
  · intro row member
    rcases mem_issueMail member with old | ⟨-, noAttempts, -, isNew⟩
    · exact ordered.attempts row old
    · rw [noAttempts]
      symm
      apply countP_eq_zero.mpr
      intro entry isEntry
      obtain ⟨present, presentMem, isPresent⟩ := ordered.outcomeRows entry isEntry
      have isOther : entry.1 ≠ row.id := isPresent ▸ isNew present presentMem
      simp [isOther]

variable {claim : OutboxClaim} {limit : Int}

theorem leased_row (member : row ∈ (world.leaseRows claim limit).outbox) :
    ∃ old ∈ world.outbox, old.id = row.id ∧ old.attempts = row.attempts := by
  obtain ⟨old, oldMem, rfl⟩ := mem_leaseRows.mp member
  refine ⟨old, oldMem, ?_⟩
  split
  · exact ⟨rfl, rfl⟩
  · exact ⟨rfl, rfl⟩

theorem exists_leased {old : OutboxRow} (member : old ∈ world.outbox) :
    ∃ row ∈ (world.leaseRows claim limit).outbox,
      row.id = old.id ∧ row.attempts = old.attempts := by
  refine ⟨_, mem_leaseRows.mpr ⟨old, member, rfl⟩, ?_⟩
  split
  · exact ⟨rfl, rfl⟩
  · exact ⟨rfl, rfl⟩

theorem mem_claims_leaseRows {made : Claim} : made ∈ (world.leaseRows claim limit).claims ↔
      (made.rowId ∈ (world.selected claim limit).map OutboxRow.id ∧
        made = ⟨world.nextLease, made.rowId, claim.leaseUntil⟩) ∨ made ∈ world.claims := by
  simp only [World.leaseRows, mem_append, List.mem_map (f := fun id =>
    (⟨world.nextLease, id, claim.leaseUntil⟩ : Claim))]
  apply or_congr_left
  constructor
  · rintro ⟨id, isId, rfl⟩
    exact ⟨isId, rfl⟩
  · rintro ⟨isId, isMade⟩
    exact ⟨made.rowId, isId, isMade.symm⟩

theorem find?_leases (ids : List String) (rowId : String) (lease : Nat) (leaseUntil : Int)
    (claims : List Claim) :
    (ids.map (fun id => (⟨lease, id, leaseUntil⟩ : Claim)) ++ claims).find?
        (fun claim => claim.rowId = rowId) =
      if rowId ∈ ids then some ⟨lease, rowId, leaseUntil⟩
      else claims.find? fun claim => claim.rowId = rowId := by
  induction ids with
  | nil => simp
  | cons id ids ih =>
    by_cases isRow : id = rowId
    · simp [isRow]
    · simp [isRow, Ne.symm isRow, ih]

theorem latest_leaseRows (rowId : String) : (world.leaseRows claim limit).latest rowId =
      if rowId ∈ (world.selected claim limit).map OutboxRow.id
        then some ⟨world.nextLease, rowId, claim.leaseUntil⟩ else world.latest rowId :=
  find?_leases _ rowId _ _ _

/-- Rows that are claimed by the time of the clock are leased to nobody else. -/
theorem World.Ordered.lease (ordered : world.Ordered) (isNow : claim.now = world.clock) :
    (world.leaseRows claim limit).Ordered := by
  constructor
  · intro made isMade
    rcases mem_claims_leaseRows.mp isMade with ⟨-, isNew⟩ | isOld
    · rw [isNew]
      exact Nat.lt_succ_self _
    · exact Nat.lt_succ_of_lt (ordered.claimNumbers made isOld)
  · exact fun entry isEntry => Nat.lt_succ_of_lt (ordered.returnedNumbers entry isEntry)
  · intro made isMade
    rcases mem_claims_leaseRows.mp isMade with ⟨isSelected, -⟩ | isOld
    · obtain ⟨row, rowSelected, isRow⟩ := List.mem_map.mp isSelected
      obtain ⟨later, laterMem, sameId, -⟩ := exists_leased (mem_selected rowSelected).1
      exact ⟨later, laterMem, sameId.trans isRow⟩
    · obtain ⟨row, member, isRow⟩ := ordered.claimRows made isOld
      obtain ⟨later, laterMem, sameId, -⟩ := exists_leased member
      exact ⟨later, laterMem, sameId.trans isRow⟩
  · intro entry isEntry
    obtain ⟨row, member, isRow⟩ := ordered.outcomeRows entry isEntry
    obtain ⟨later, laterMem, sameId, -⟩ := exists_leased member
    exact ⟨later, laterMem, sameId.trans isRow⟩
  · intro row member made isLatest unreturned
    obtain ⟨old, oldMem, rfl⟩ := mem_leaseRows.mp member
    rw [latest_leaseRows] at isLatest
    by_cases isSelected : old.id ∈ (world.selected claim limit).map OutboxRow.id
    · simp only [isSelected, if_true] at isLatest ⊢
      rw [World.leaseRow, if_pos isSelected] at isLatest
      cases isLatest
      obtain ⟨selected, selectedMem, isRow⟩ := List.mem_map.mp isSelected
      obtain ⟨inTable, isDue⟩ := mem_selected selectedMem
      obtain rfl := KeyedTable.eq_of_key_eq inTable oldMem isRow
      have isPending := (of_decide_eq_true isDue).1
      exact ⟨isPending, rfl⟩
    · simp only [isSelected, if_false] at isLatest unreturned ⊢
      exact ordered.leased old oldMem made isLatest unreturned
  · intro made isLive
    rw [latest_leaseRows]
    rcases mem_claims_leaseRows.mp isLive.1.1 with ⟨isSelected, isNew⟩ | isOld
    · rw [if_pos isSelected]
      exact congrArg some isNew.symm
    · have wasLive : world.Live made := ⟨⟨isOld, isLive.1.2⟩, isLive.2⟩
      by_cases isSelected : made.rowId ∈ (world.selected claim limit).map OutboxRow.id
      · obtain ⟨row, rowSelected, isRow⟩ := List.mem_map.mp isSelected
        obtain ⟨inTable, isDue⟩ := mem_selected rowSelected
        have leasedUntil := (ordered.row_of_live wasLive inTable isRow).2
        have wasDue : row.nextAttemptAt ≤ claim.now := (of_decide_eq_true isDue).2.1
        have notOver := wasLive.2
        omega
      · rw [if_neg isSelected]
        exact ordered.live made wasLive
  · intro row member
    obtain ⟨old, oldMem, sameId, sameAttempts⟩ := leased_row member
    rw [← sameAttempts, ordered.attempts old oldMem, sameId]
    rfl

variable {lease : Nat} {updates : List OutboxUpdate}

/-- Updates that a drain may apply: it has an unfinished lease on each row, and counts from
the attempts that the row has. -/
structure World.Grants (world : World) (lease : Nat) (updates : List OutboxUpdate) : Prop where
  number : lease < world.nextLease
  nodup : (updates.map OutboxUpdate.id).Nodup
  live : ∀ update ∈ updates, ∃ leaseUntil, world.Live ⟨lease, update.id, leaseUntil⟩
  attempts : ∀ update ∈ updates, ∀ row ∈ world.outbox, row.id = update.id →
    update.attempts = row.attempts + update.outcome.counts.toNat

theorem exists_applied {table : KeyedTable OutboxRow.id} {old : OutboxRow}
    (nodup : (updates.map OutboxUpdate.id).Nodup) (member : old ∈ table) :
    ∃ row ∈ updates.foldl World.applyUpdate table, row.id = old.id := by
  by_cases isUpdated : old.id ∈ updates.map OutboxUpdate.id
  · obtain ⟨update, updateMem, isId⟩ := List.mem_map.mp isUpdated
    exact ⟨update.overwrite old,
      (mem_applyUpdates nodup).mpr (.inr ⟨update, updateMem, old, member, isId.symm, rfl⟩), rfl⟩
  · exact ⟨old, (mem_applyUpdates nodup).mpr (.inl ⟨member, isUpdated⟩), rfl⟩

theorem mem_returned {entry : Nat × String} :
    entry ∈ (world.applyOutboxUpdates lease updates).returned ↔
      (entry.1 = lease ∧ entry.2 ∈ updates.map OutboxUpdate.id) ∨ entry ∈ world.returned := by
  simp only [World.applyOutboxUpdates, mem_append]
  apply or_congr_left
  constructor
  · intro member
    obtain ⟨update, updateMem, rfl⟩ := List.mem_map.mp member
    exact ⟨rfl, mem_map_of_mem updateMem⟩
  · rintro ⟨isLease, isUpdated⟩
    obtain ⟨update, updateMem, isId⟩ := List.mem_map.mp isUpdated
    exact List.mem_map.mpr ⟨update, updateMem, Prod.ext isLease.symm isId⟩

theorem live_of_live_applied {claim : Claim}
    (isLive : (world.applyOutboxUpdates lease updates).Live claim) : world.Live claim :=
  ⟨⟨isLive.1.1, fun returned => isLive.1.2 (mem_returned.mpr (.inr returned))⟩, isLive.2⟩

/-- Of updates of different rows, those of one row count at most once. -/
theorem countP_outcomes (nodup : (updates.map OutboxUpdate.id).Nodup) {update : OutboxUpdate}
    (member : update ∈ updates) :
    (updates.map fun update => (update.id, update.outcome)).countP
        (fun entry => entry.1 = update.id ∧ entry.2.counts) = update.outcome.counts.toNat := by
  induction updates with
  | nil => exact absurd member not_mem_nil
  | cons first updates ih =>
    obtain ⟨isFirst, rest⟩ := nodup_cons.mp nodup
    rw [map_cons, countP_cons]
    rcases mem_cons.mp member with rfl | member
    · have noOther : (updates.map fun update => (update.id, update.outcome)).countP
          (fun entry => entry.1 = update.id ∧ entry.2.counts) = 0 := by
        apply countP_eq_zero.mpr
        intro entry isEntry
        obtain ⟨other, otherMem, rfl⟩ := List.mem_map.mp isEntry
        have isOther : other.id ≠ update.id :=
          fun same => isFirst (same ▸ mem_map_of_mem otherMem)
        simp [isOther]
      rw [noOther]
      cases update.outcome.counts <;> simp
    · have isOther : first.id ≠ update.id :=
        fun same => isFirst (same ▸ mem_map_of_mem member)
      rw [ih rest member]
      simp [isOther]

theorem countedOutcomes_applied (rowId : String) :
    (world.applyOutboxUpdates lease updates).countedOutcomes rowId =
      (updates.map fun update => (update.id, update.outcome)).countP
        (fun entry => entry.1 = rowId ∧ entry.2.counts) + world.countedOutcomes rowId :=
  countP_append

theorem World.Ordered.applyOutboxUpdates (ordered : world.Ordered)
    (grants : world.Grants lease updates) :
    (world.applyOutboxUpdates lease updates).Ordered := by
  have kept : ∀ old ∈ world.outbox,
      ∃ row ∈ (world.applyOutboxUpdates lease updates).outbox, row.id = old.id :=
    fun old member => exists_applied grants.nodup member
  constructor
  · exact ordered.claimNumbers
  · intro entry isEntry
    rcases mem_returned.mp isEntry with ⟨isLease, -⟩ | isOld
    · exact isLease ▸ grants.number
    · exact ordered.returnedNumbers entry isOld
  · intro claim isClaim
    obtain ⟨old, oldMem, isOld⟩ := ordered.claimRows claim isClaim
    obtain ⟨row, member, isRow⟩ := kept old oldMem
    exact ⟨row, member, isRow.trans isOld⟩
  · intro entry isEntry
    rcases mem_append.mp isEntry with isNew | isOld
    · obtain ⟨update, updateMem, rfl⟩ := List.mem_map.mp isNew
      obtain ⟨leaseUntil, isLive⟩ := grants.live update updateMem
      obtain ⟨old, oldMem, isOld⟩ := ordered.claimRows _ isLive.1.1
      obtain ⟨row, member, isRow⟩ := kept old oldMem
      exact ⟨row, member, isRow.trans isOld⟩
    · obtain ⟨old, oldMem, isOld⟩ := ordered.outcomeRows entry isOld
      obtain ⟨row, member, isRow⟩ := kept old oldMem
      exact ⟨row, member, isRow.trans isOld⟩
  · intro row member claim isLatest unreturned
    have wasLatest : world.latest row.id = some claim := isLatest
    rcases (mem_applyUpdates grants.nodup).mp member with
      ⟨inTable, -⟩ | ⟨update, updateMem, old, oldMem, isOld, rfl⟩
    · apply ordered.leased row inTable claim wasLatest
      exact fun returned => unreturned (mem_returned.mpr (.inr returned))
    · obtain ⟨leaseUntil, isLive⟩ := grants.live update updateMem
      have isRow : (update.overwrite old).id = update.id := isOld
      rw [isRow, ordered.live _ isLive] at wasLatest
      cases wasLatest
      apply absurd _ unreturned
      apply mem_returned.mpr
      rw [isRow]
      exact .inl ⟨rfl, mem_map_of_mem updateMem⟩
  · exact fun claim isLive => ordered.live claim (live_of_live_applied isLive)
  · intro row member
    rw [countedOutcomes_applied]
    rcases (mem_applyUpdates grants.nodup).mp member with
      ⟨inTable, notUpdated⟩ | ⟨update, updateMem, old, oldMem, isOld, rfl⟩
    · rw [ordered.attempts row inTable]
      apply Nat.right_eq_add.mpr
      apply countP_eq_zero.mpr
      intro entry isEntry
      obtain ⟨update, updateMem, rfl⟩ := List.mem_map.mp isEntry
      have isOther : update.id ≠ row.id :=
        fun same => notUpdated (same ▸ mem_map_of_mem updateMem)
      simp [isOther]
    · have isRow : (update.overwrite old).id = update.id := isOld
      have isCounted : (update.overwrite old).attempts = update.attempts := rfl
      rw [isRow, isCounted, countP_outcomes grants.nodup updateMem,
        grants.attempts update updateMem old oldMem isOld, ordered.attempts old oldMem, isOld]
      exact Nat.add_comm _ _

end DubEcosystem.LpDelivery
