import DubEcosystem.DriveShareKept

/-!
# drive-share-service: what a step keeps

Each call of an operation, one lemma a kind of call: what it relies on it leaves for the next call
to rely on, and every share that the service made goes on being recorded.
-/

namespace DubEcosystem.DriveShare

open Interleaving PortPrograms KeyedTable List Option

variable {addresses : Addresses} {deps : RoleGrantsDeps addresses} {scene : Scene addresses}
  {later : Ledger}

/-- The ledger has changed, and the call stands at the stage. -/
abbrev Scene.KeptAt (deps : RoleGrantsDeps addresses) (scene : Scene addresses) (later : Ledger)
    (stage : Stage) : Prop :=
  Scene.Kept deps { scene with ledger := later } ∧
    Scene.standsAt { scene with ledger := later } deps stage

variable {grant : GrantRow}

theorem Scene.knows.withLedger (isKnown : scene.knows grant)
    (sameGrants : later.grants = scene.ledger.grants) :
    Scene.knows { scene with ledger := later } grant := by
  unfold Scene.knows
  simp only [sameGrants]
  exact isKnown

theorem Scene.knows_of_mem (member : grant ∈ scene.ledger.grants) :
    scene.knows grant :=
  ⟨grant, member, rfl, rfl, rfl, rfl⟩

def Ledger.hasGrant (ledger : Ledger) (row : GrantMemberRow) (fileId : String) : Prop :=
  ∃ grant ∈ ledger.grants, grant.id = row.grantId ∧ grant.fileId = fileId

/-- Whose the shares are depends on the files of the grants alone. -/
theorem Scene.Kept.grants (kept : scene.Kept deps)
    (sameMembers : later.members = scene.ledger.members)
    (sameFiles : ∀ row ∈ scene.ledger.members, ∀ fileId,
      later.hasGrant row fileId ↔ scene.ledger.hasGrant row fileId)
    (org : ∀ grant ∈ later.grants, grant.orgId = deps.orgId)
    (unique : ∀ first ∈ later.grants, ∀ second ∈ later.grants, first.fileId = second.fileId →
      first.roleId = second.roleId → first = second) :
    Scene.Kept deps { scene with ledger := later } where
  own := by
    intro share member byService
    obtain ⟨row, rowMem, createdByUs, isId, isEmail, hasGrant⟩ := kept.own share member byService
    exact ⟨row, sameMembers ▸ rowMem, createdByUs, isId, isEmail,
      (sameFiles row rowMem share.fileId).mpr hasGrant⟩
  hand := by
    rintro share member byHand row rowMem ⟨createdByUs, isId, isEmail, hasGrant⟩
    rw [sameMembers] at rowMem
    exact kept.hand share member byHand row rowMem ⟨createdByUs, isId, isEmail,
      (sameFiles row rowMem share.fileId).mp hasGrant⟩
  ids := by
    intro row member
    rw [sameMembers] at member
    exact kept.ids row member
  named := kept.named
  refs := by
    intro row member
    rw [sameMembers] at member
    obtain ⟨old, oldMem, isId⟩ := kept.refs row member
    obtain ⟨grant, grantMem, sameId, -⟩ :=
      (sameFiles row member old.fileId).mpr ⟨old, oldMem, isId, rfl⟩
    exact ⟨grant, grantMem, sameId⟩
  org := org
  unique := unique

theorem updates_keeps {id : String} {driveRole : AssignableDriveRole} {updatedAt : String}
    (kept : scene.Kept deps)
    (updated : scene.ledger.exec (.updateGrant id driveRole updatedAt) = (.ok (), later)) :
    Scene.Kept deps { scene with ledger := later } ∧
      ∀ grant, scene.knows grant → Scene.knows { scene with ledger := later } grant := by
  have isIn : ∀ grant, grant ∈ later.grants ↔ ∃ old ∈ scene.ledger.grants,
      (if old.id = id then { old with driveRole, updatedAt } else old) = grant := by
    intro grant
    cases updated
    simp [mem_update]
  have sameMembers : later.members = scene.ledger.members := by
    cases updated
    rfl
  have fromOld : ∀ grant ∈ later.grants, ∃ old ∈ scene.ledger.grants,
      grant.id = old.id ∧ grant.orgId = old.orgId ∧ grant.fileId = old.fileId ∧
        grant.roleId = old.roleId := by
    intro grant member
    obtain ⟨old, oldMem, rfl⟩ := (isIn grant).mp member
    refine ⟨old, oldMem, ?_⟩
    split <;> exact ⟨rfl, rfl, rfl, rfl⟩
  have toNew : ∀ old ∈ scene.ledger.grants, ∃ grant ∈ later.grants,
      grant.id = old.id ∧ grant.orgId = old.orgId ∧ grant.fileId = old.fileId ∧
        grant.roleId = old.roleId := by
    intro old oldMem
    refine ⟨_, (isIn _).mpr ⟨old, oldMem, rfl⟩, ?_⟩
    split <;> exact ⟨rfl, rfl, rfl, rfl⟩
  refine ⟨kept.grants sameMembers ?_ ?_ ?_, ?_⟩
  · intro row _ fileId
    constructor
    · rintro ⟨grant, member, isId, onFile⟩
      obtain ⟨old, oldMem, sameId, -, sameFile, -⟩ := fromOld grant member
      exact ⟨old, oldMem, sameId.symm.trans isId, sameFile.symm.trans onFile⟩
    · rintro ⟨old, oldMem, isId, onFile⟩
      obtain ⟨grant, member, sameId, -, sameFile, -⟩ := toNew old oldMem
      exact ⟨grant, member, sameId.trans isId, sameFile.trans onFile⟩
  · intro grant member
    obtain ⟨old, oldMem, -, sameOrg, -⟩ := fromOld grant member
    exact sameOrg.trans (kept.org old oldMem)
  · intro first firstMem second secondMem sameFile sameRole
    obtain ⟨firstOld, firstOldMem, firstId, -, firstFile, firstRole⟩ := fromOld first firstMem
    obtain ⟨secondOld, secondOldMem, secondId, -, secondFile, secondRole⟩ :=
      fromOld second secondMem
    have same : firstOld = secondOld := by
      apply kept.unique firstOld firstOldMem secondOld secondOldMem
      · rw [← firstFile, ← secondFile, sameFile]
      · rw [← firstRole, ← secondRole, sameRole]
    apply eq_of_key_eq firstMem secondMem
    rw [firstId, secondId, same]
  · rintro grant ⟨stored, storedMem, isId, isOrg, onFile, isRole⟩
    obtain ⟨new, newMem, sameId, sameOrg, sameFile, sameRole⟩ := toNew stored storedMem
    exact ⟨new, newMem, sameId.trans isId, sameOrg.trans isOrg, sameFile.trans onFile,
      sameRole.trans isRole⟩

theorem inserts_keeps {row : GrantRow} (kept : scene.Kept deps) (isOrg : row.orgId = deps.orgId)
    (inserted : scene.ledger.insertGrant row = (.ok (), later)) :
    Scene.Kept deps { scene with ledger := later } ∧ ∀ grant, grant = row ∨ scene.knows grant →
        Scene.knows { scene with ledger := later } grant := by
  obtain ⟨sameMembers, areOthers, isIn⟩ := insertGrant_ok inserted
  have notFor : ∀ old ∈ scene.ledger.grants, old.fileId = row.fileId → old.roleId ≠ row.roleId := by
    intro old oldMem sameFile sameRole
    have isFor := (areOthers old oldMem).2
    rw [Ledger.isFor, decide_eq_false_iff_not] at isFor
    exact isFor ⟨(kept.org old oldMem).trans isOrg.symm, sameFile, sameRole⟩
  refine ⟨kept.grants sameMembers ?_ ?_ ?_, ?_⟩
  · intro member memberMem fileId
    constructor
    · rintro ⟨grant, grantMem, isId, onFile⟩
      rcases (isIn grant).mp grantMem with old | rfl
      · exact ⟨grant, old, isId, onFile⟩
      · obtain ⟨old, oldMem, oldId⟩ := kept.refs member memberMem
        exact absurd (oldId.trans isId.symm) (areOthers old oldMem).1
    · rintro ⟨grant, grantMem, same⟩
      exact ⟨grant, (isIn grant).mpr (.inl grantMem), same⟩
  · intro grant member
    rcases (isIn grant).mp member with old | rfl
    · exact kept.org grant old
    · exact isOrg
  · intro first firstMem second secondMem sameFile sameRole
    rcases (isIn first).mp firstMem with firstOld | rfl
    · rcases (isIn second).mp secondMem with secondOld | rfl
      · exact kept.unique first firstOld second secondOld sameFile sameRole
      · exact absurd sameRole (notFor first firstOld sameFile)
    · rcases (isIn second).mp secondMem with secondOld | rfl
      · exact absurd sameRole.symm (notFor second secondOld sameFile.symm)
      · rfl
  · rintro grant (rfl | ⟨stored, storedMem, same⟩)
    · exact ⟨grant, (isIn grant).mpr (.inr rfl), rfl, rfl, rfl, rfl⟩
    · exact ⟨stored, (isIn stored).mpr (.inl storedMem), same⟩

theorem revokes_keeps (kept : scene.Kept deps) (stands : scene.standsAt deps (.dropped grant))
    (deleted : scene.ledger.exec (.deleteGrant grant.id) = (.ok (), later)) :
    Scene.KeptAt deps scene later (.absent grant.fileId grant.roleId) := by
  obtain ⟨isKnown, noRows⟩ := stands
  have change : later.members = scene.ledger.members ∧ ∀ other, other ∈ later.grants ↔
      other ∈ scene.ledger.grants ∧ other.id ≠ grant.id := by
    simp only [Ledger.exec] at deleted
    split at deleted
    · cases deleted
    · cases deleted
      refine ⟨rfl, fun other => ?_⟩
      rw [mem_deleteWhere, decide_eq_false_iff_not]
  obtain ⟨sameMembers, isIn⟩ := change
  refine ⟨kept.grants sameMembers ?_ ?_ ?_, ?_⟩
  · intro row member fileId
    constructor
    · rintro ⟨other, otherMem, same⟩
      exact ⟨other, ((isIn other).mp otherMem).1, same⟩
    · rintro ⟨other, otherMem, isId, onFile⟩
      refine ⟨other, (isIn other).mpr ⟨otherMem, fun same => ?_⟩, isId, onFile⟩
      exact noRows row member (isId.symm.trans same)
  · exact fun other member => kept.org other ((isIn other).mp member).1
  · exact fun first firstMem second secondMem =>
      kept.unique first ((isIn first).mp firstMem).1 second ((isIn second).mp secondMem).1
  · intro other member
    obtain ⟨otherMem, notId⟩ := (isIn other).mp member
    rw [Ledger.isFor, decide_eq_false_iff_not]
    rintro ⟨-, sameFile, sameRole⟩
    obtain ⟨stored, storedMem, isId, -, onFile, isRole⟩ := isKnown
    have same := kept.unique other otherMem stored storedMem (sameFile.trans onFile.symm)
      (sameRole.trans isRole.symm)
    exact notId (same ▸ isId)

variable {listing : Listing} {email id : String} {row : GrantMemberRow}

theorem mem_deleteMember {grantId : String}
    (deleted : scene.ledger.exec (.deleteMember grantId email) = (.ok (), later)) :
    later.grants = scene.ledger.grants ∧ ∀ other, other ∈ later.members ↔
      other ∈ scene.ledger.members ∧ other.key ≠ (grantId, email) := by
  cases deleted
  refine ⟨rfl, fun other => ?_⟩
  rw [mem_deleteWhere, decide_eq_false_iff_not]

/-- The rows under another key than the one that was written. -/
theorem mem_members_of_ne {key : String × String}
    (upserted : scene.ledger.upsertMember row = (.ok (), later)) (isKey : row.key = key)
    (other : GrantMemberRow) (notKey : other.key ≠ key) :
    other ∈ later.members ↔ other ∈ scene.ledger.members := by
  rw [(mem_upsertMember upserted).2.2 other, isKey, and_iff_left notKey]
  exact or_iff_right fun same => notKey (same ▸ isKey)

section

variable (kept : scene.Kept deps)
include kept

/-- The row of an address whose shares are owned by others may go. -/
theorem deleteMember_keeps (isKnown : scene.knows grant)
    (elsewhere : ∀ share ∈ scene.drive.shares, share.byService = true →
      share.fileId = grant.fileId → addressOf addresses share = email →
        scene.ownedElsewhere grant.id share)
    (deleted : scene.ledger.exec (.deleteMember grant.id email) = (.ok (), later)) :
    Scene.Kept deps { scene with ledger := later } := by
  obtain ⟨sameGrants, isIn⟩ := mem_deleteMember deleted
  apply kept.members sameGrants
  · intro share member byService
    obtain ⟨owner, ownerMem, owns⟩ := kept.own share member byService
    by_cases isKey : owner.key = (grant.id, email)
    · have ofGrant : owner.grantId = grant.id := congrArg Prod.fst isKey
      have isEmail : owner.email = email := congrArg Prod.snd isKey
      obtain ⟨other, otherMem, notGrant, otherOwns⟩ := elsewhere share member byService
        (owns.file isKnown ofGrant) (owns.2.2.1.symm.trans isEmail)
      refine ⟨other, (isIn other).mpr ⟨otherMem, fun sameKey => ?_⟩, otherOwns⟩
      exact notGrant (congrArg Prod.fst sameKey)
    · exact ⟨owner, (isIn owner).mpr ⟨ownerMem, isKey⟩, owns⟩
  · exact fun other member => .inl ((isIn other).mp member).1

/-- The row of an address that is not dealt with yet goes, and its shares are owned by others. -/
theorem forgets_keeps (lists : scene.Lists listing) (isNew : email ∉ listing.handled)
    (elsewhere : ∀ share ∈ scene.drive.shares, share.byService = true →
      share.fileId = listing.round.grant.fileId → addressOf addresses share = email →
        scene.ownedElsewhere listing.round.grant.id share)
    (deleted : scene.ledger.exec (.deleteMember listing.round.grant.id email) = (.ok (), later)) :
    Scene.KeptAt deps scene later (.sharing (listing.remove email)) := by
  obtain ⟨sameGrants, isIn⟩ := mem_deleteMember deleted
  refine ⟨deleteMember_keeps kept lists.isKnown elsewhere deleted, ?_⟩
  apply Scene.Lists.remove
  · apply lists.handle sameGrants isNew
    intro other notKey
    rw [isIn other]
    exact and_iff_left notKey
  · exact fun other member => ((isIn other).mp member).2

/-- An address is noted where neither the service nor a person has shared the file with it. -/
theorem notes_keeps (lists : scene.Lists listing) (isNew : email ∉ listing.handled)
    (notLive : listing.round.live email = none) (isNormal : addresses.normalize email = email)
    (isFree : scene.free listing.round.grant.id email)
    (upserted : scene.ledger.upsertMember (listing.note email) = (.ok (), later)) :
    Scene.KeptAt deps scene later (.noting listing email) := by
  obtain ⟨sameGrants, hasGrant, isIn⟩ := mem_upsertMember upserted
  have nothing : ∀ share ∈ scene.drive.shares, share.byService = true →
      share.fileId = listing.round.grant.fileId → addressOf addresses share ≠ email := by
    rintro share member byService onFile rfl
    obtain ⟨live, isLive, -⟩ := lists.shares share member byService onFile isNew
    simp [notLive] at isLive
  refine ⟨?_, ?_, (isIn _).mpr (.inl rfl), isNormal, nothing⟩
  · apply kept.members sameGrants
    · intro share member byService
      obtain ⟨owner, ownerMem, owns⟩ := kept.own share member byService
      refine ⟨owner, (isIn owner).mpr (.inr ⟨ownerMem, fun isKey => ?_⟩), owns⟩
      have ofGrant : owner.grantId = listing.round.grant.id := congrArg Prod.fst isKey
      have isEmail : owner.email = email := congrArg Prod.snd isKey
      exact nothing share member byService (owns.file lists.isKnown ofGrant)
        (owns.2.2.1.symm.trans isEmail)
    · intro other member
      rcases (isIn other).mp member with rfl | ⟨old, -⟩
      · refine .inr ⟨hasGrant, fun share shareMem byHand owns => ?_, fun _ _ isNone => by cases isNone⟩
        obtain ⟨stored, storedMem, isId, -, onFile, -⟩ := lists.isKnown
        have isFile : share.fileId = stored.fileId :=
          (owns.file lists.isKnown rfl).trans onFile.symm
        have byService := isFree stored storedMem isId share shareMem isFile owns.2.2.1.symm
        simp [byService] at byHand
      · exact .inl old
  · exact lists.handle sameGrants isNew (mem_members_of_ne upserted rfl)

theorem settles_keeps (stands : scene.standsAt deps (.created listing email id))
    (upserted : scene.ledger.upsertMember ⟨listing.round.grant.id, email, some id, true⟩ =
      (.ok (), later)) :
    Scene.KeptAt deps scene later (.sharing (listing.handle email)) := by
  obtain ⟨lists, isNoted, notEmpty, isGrantee, only⟩ := stands
  generalize isRow : (⟨listing.round.grant.id, email, some id, true⟩ : GrantMemberRow) = row
    at upserted
  have sameKey : row.key = (listing.note email).key := isRow ▸ rfl
  obtain ⟨sameGrants, hasGrant, isIn⟩ := mem_upsertMember upserted
  constructor
  · apply kept.members sameGrants
    · intro share member byService
      obtain ⟨owner, ownerMem, owns⟩ := kept.own share member byService
      by_cases isKey : owner.key = row.key
      · subst isRow
        have ofGrant : owner.grantId = listing.round.grant.id := congrArg Prod.fst isKey
        have isEmail : owner.email = email := congrArg Prod.snd isKey
        have isAddress : addressOf addresses share = email := owns.2.2.1.symm.trans isEmail
        have sameId := only share member byService (owns.file lists.isKnown ofGrant) isAddress
        refine ⟨_, (isIn _).mpr (.inl rfl), rfl, .inl (congrArg some sameId.symm),
          isAddress.symm, ?_⟩
        rw [← ofGrant]
        exact owns.2.2.2
      · exact ⟨owner, (isIn owner).mpr (.inr ⟨ownerMem, isKey⟩), owns⟩
    · intro other member
      rcases (isIn other).mp member with rfl | ⟨old, -⟩
      · subst isRow
        refine .inr ⟨hasGrant, fun share shareMem byHand owns => ?_, fun _ other isOther => ?_⟩
        · apply kept.hand share shareMem byHand _ isNoted
          exact Scene.owns_note lists.isKnown (owns.file lists.isKnown rfl) owns.2.2.1.symm
        · cases isOther
          exact ⟨notEmpty, isGrantee⟩
      · exact .inl old
  · exact lists.rewrite sameGrants (.head _) isNoted rfl (mem_members_of_ne upserted sameKey)

theorem drops_keeps (stands : scene.standsAt deps (.noting listing email))
    (deleted : scene.ledger.exec (.deleteMember listing.round.grant.id email) = (.ok (), later)) :
    Scene.KeptAt deps scene later (.sharing (listing.handle email)) := by
  obtain ⟨lists, isNoted, -, nothing⟩ := stands
  obtain ⟨sameGrants, isIn⟩ := mem_deleteMember deleted
  constructor
  · apply deleteMember_keeps kept lists.isKnown _ deleted
    exact fun share member byService onFile isAddress =>
      absurd isAddress (nothing share member byService onFile)
  · apply lists.rewrite sameGrants (.head _) isNoted rfl
    intro other notKey
    rw [isIn other]
    exact and_iff_left notKey

section

variable (lists : scene.Lists listing) (isNew : email ∉ listing.handled)
include lists isNew

omit kept in
/-- The row that a listing has of an address is the one that is stored. -/
theorem Scene.Lists.previous_of_mem (member : row ∈ scene.ledger.members)
    (isKey : row.key = (listing.round.grant.id, email)) :
    listing.round.previous email = some row := by
  have ofGrant : row.grantId = listing.round.grant.id := congrArg Prod.fst isKey
  have isEmail : row.email = email := congrArg Prod.snd isKey
  subst isEmail
  have isRow : row ∈ listing.round.prev := (lists.rows row ofGrant isNew).mp member
  cases found : listing.round.previous row.email with
  | none =>
    have notIt := List.find?_eq_none.mp found row isRow
    simp at notIt
  | some other =>
    have otherMem : other ∈ listing.round.prev := mem_of_find?_eq_some found
    have sameEmail : other.email = row.email := by simpa using find?_some found
    rw [lists.eq_of_email member ofGrant otherMem sameEmail.symm (sameEmail ▸ isNew)]

omit kept in
theorem Scene.Lists.mem_of_previous (previous : listing.round.previous email = some row) :
    row ∈ scene.ledger.members ∧ row ∈ listing.round.prev ∧ row.email = email := by
  have isRow : row ∈ listing.round.prev := mem_of_find?_eq_some previous
  have isEmail : row.email = email := by simpa using find?_some previous
  exact ⟨(lists.rows row (lists.ofGrant row isRow) (isEmail ▸ isNew)).mpr isRow, isRow, isEmail⟩

omit kept in
theorem Scene.Lists.isOurs_iff {live : SharePermission} {share : Share}
    (onFile : share.fileId = listing.round.grant.fileId)
    (isAddress : addressOf addresses share = email) (isId : share.id = live.id) :
    listing.round.isOurs email live = true ↔
      ∃ row ∈ scene.ledger.members, row.grantId = listing.round.grant.id ∧ scene.owns row share := by
  obtain ⟨stored, storedMem, storedId, -, storedFile, -⟩ := lists.isKnown
  rw [Round.isOurs, Option.any_eq_true]
  constructor
  · rintro ⟨row, previous, isIt⟩
    obtain ⟨member, isRow, isEmail⟩ := lists.mem_of_previous isNew previous
    obtain ⟨createdByUs, isRecorded⟩ := of_decide_eq_true isIt
    have ofGrant := lists.ofGrant row isRow
    exact ⟨row, member, ofGrant, createdByUs, isId ▸ isRecorded, isEmail.trans isAddress.symm,
      stored, storedMem, storedId.trans ofGrant.symm, storedFile.trans onFile.symm⟩
  · rintro ⟨row, member, ofGrant, createdByUs, isRecorded, isEmail, -⟩
    have isKey : row.key = (listing.round.grant.id, email) :=
      Prod.ext ofGrant (isEmail.trans isAddress)
    exact ⟨row, lists.previous_of_mem isNew member isKey,
      decide_eq_true ⟨createdByUs, isId ▸ isRecorded⟩⟩

end

theorem records_keeps {live : SharePermission} (lists : scene.Lists listing)
    (isNew : email ∉ listing.handled) (isLive : listing.round.live email = some live)
    (upserted : scene.ledger.upsertMember ⟨listing.round.grant.id, email, some live.id,
      listing.round.isOurs email live⟩ = (.ok (), later)) :
    Scene.KeptAt deps scene later (.sharing (listing.handle email)) := by
  generalize isRow : (⟨listing.round.grant.id, email, some live.id,
    listing.round.isOurs email live⟩ : GrantMemberRow) = row at upserted
  have isKey : row.key = (listing.round.grant.id, email) := isRow ▸ rfl
  obtain ⟨sameGrants, hasGrant, isIn⟩ := mem_upsertMember upserted
  constructor
  · apply kept.members sameGrants
    · intro share member byService
      obtain ⟨owner, ownerMem, owns⟩ := kept.own share member byService
      by_cases sameKey : owner.key = row.key
      · have ofGrant : owner.grantId = listing.round.grant.id :=
          congrArg Prod.fst (sameKey.trans isKey)
        have isEmail : owner.email = email := congrArg Prod.snd (sameKey.trans isKey)
        have onFile := owns.file lists.isKnown ofGrant
        have isAddress : addressOf addresses share = email := owns.2.2.1.symm.trans isEmail
        obtain ⟨other, isOther, sameId⟩ :=
          lists.shares share member byService onFile (isAddress ▸ isNew)
        obtain rfl : live = other := by
          rw [isAddress, isLive] at isOther
          exact some.inj isOther
        have isOurs := (lists.isOurs_iff isNew onFile isAddress sameId.symm).mpr
          ⟨owner, ownerMem, ofGrant, owns⟩
        refine ⟨row, (isIn row).mpr (.inl rfl), ?_⟩
        subst isRow
        refine ⟨isOurs, .inl (congrArg some sameId), isAddress.symm, ?_⟩
        rw [← ofGrant]
        exact owns.2.2.2
      · exact ⟨owner, (isIn owner).mpr (.inr ⟨ownerMem, sameKey⟩), owns⟩
    · intro other member
      rcases (isIn other).mp member with rfl | ⟨old, -⟩
      · subst isRow
        refine .inr ⟨hasGrant, fun share shareMem byHand owns => ?_, fun _ id isId => ?_⟩
        · have onFile := owns.file lists.isKnown rfl
          obtain ⟨isOurs, isRecorded, isEmail, -⟩ := owns
          have isId : share.id = live.id := by
            rcases isRecorded with isRecorded | isNone
            · exact (some.inj isRecorded).symm
            · cases isNone
          obtain ⟨owner, ownerMem, -, ownerOwns⟩ :=
            (lists.isOurs_iff isNew onFile isEmail.symm isId).mp isOurs
          exact kept.hand share shareMem byHand owner ownerMem ownerOwns
        · cases isId
          exact lists.live email live isLive
      · exact .inl old
  · exact lists.handle sameGrants isNew (mem_members_of_ne upserted isKey)

/-- All the rows of a grant go, once what they own was passed on or is owned by others. -/
theorem dropsAll_keeps {prev : List GrantMemberRow} {passed : List String}
    (reads : scene.Reads grant prev passed)
    (allPassed : ∀ row ∈ prev, row.createdByUs = true → ∀ given, row.permissionId = some given →
      given ≠ "" → given ∈ passed) (isLearned : scene.learned grant.id)
    (deleted : scene.ledger.exec (.deleteMembers grant.id) = (.ok (), later)) :
    Scene.KeptAt deps scene later (.dropped grant) := by
  have change : later.grants = scene.ledger.grants ∧ ∀ row, row ∈ later.members ↔
      row ∈ scene.ledger.members ∧ row.grantId ≠ grant.id := by
    cases deleted
    refine ⟨rfl, fun row => ?_⟩
    rw [mem_deleteWhere, decide_eq_false_iff_not]
  obtain ⟨sameGrants, isIn⟩ := change
  refine ⟨?_, reads.isKnown.withLedger sameGrants, fun row member => ((isIn row).mp member).2⟩
  apply kept.members sameGrants
  · intro share member byService
    obtain ⟨owner, ownerMem, owns⟩ := kept.own share member byService
    by_cases ofGrant : owner.grantId = grant.id
    · have elsewhere : scene.ownedElsewhere grant.id share := by
        have onFile := owns.file reads.isKnown ofGrant
        cases isRecorded : owner.permissionId with
        | none => exact isLearned owner ownerMem ofGrant isRecorded share member byService owns
        | some id =>
          have sameId : id = share.id := by
            rcases owns.2.1 with isSome | isNone
            · exact some.inj (isRecorded.symm.trans isSome)
            · simp [isRecorded] at isNone
          have notEmpty := (kept.ids owner ownerMem owns.1 id isRecorded).1
          have isRow := (reads.rows owner ofGrant).mp ownerMem
          exact reads.passed id (allPassed owner isRow owns.1 id isRecorded notEmpty) share member
            byService onFile sameId.symm
      obtain ⟨other, otherMem, notGrant, otherOwns⟩ := elsewhere
      exact ⟨other, (isIn other).mpr ⟨otherMem, notGrant⟩, otherOwns⟩
    · exact ⟨owner, (isIn owner).mpr ⟨ownerMem, ofGrant⟩, owns⟩
  · exact fun row member => .inl ((isIn row).mp member).1

end

variable {drive : Drive addresses} {given : String}

section

variable (kept : scene.Kept deps)
include kept

/-- A permission is made where nobody with the address has a share, and is owned by what was
noted. -/
theorem creates_keeps {role : ShareRole} {share : Share}
    (stands : scene.standsAt deps (.noting listing email))
    (created : scene.drive.create listing.round.grant.fileId role email id = some (share, drive)) :
    Scene.Kept deps { scene with drive } ∧
      Scene.standsAt { scene with drive } deps (.created listing email share.id) ∧
        ∀ old ∈ scene.drive.shares, old ∈ drive.shares := by
  obtain ⟨lists, isNoted, isNormal, nothing⟩ := stands
  have nobody : scene.drive.shareOf listing.round.grant.fileId email = none := by
    cases found : scene.drive.shareOf listing.round.grant.fileId email with
    | none => rfl
    | some present =>
      obtain ⟨member, onFile, isAddress⟩ := Drive.shareOf_eq_some.mp found
      rw [isNormal] at isAddress
      cases made : present.byService with
      | true => exact absurd isAddress (nothing present member made onFile)
      | false =>
        exact absurd (Scene.owns_note lists.isKnown onFile isAddress)
          (kept.hand present member made _ isNoted)
  obtain ⟨notEmpty, rfl, added⟩ := Drive.create_eq_some created nobody
  obtain ⟨hasId, isGrantee, sameGrantee, isIn⟩ := Drive.add_eq_some added
  have isAddress : addressOf addresses ⟨listing.round.grant.fileId, id, email, role, true⟩ = email :=
    isNormal
  refine ⟨?_, ⟨?_, isNoted, hasId, ?_, ?_⟩, fun old member => (isIn old).mpr (.inl member)⟩
  · apply kept.add added
    · exact fun _ => ⟨notEmpty, _, isNoted, Scene.owns_note lists.isKnown rfl isAddress⟩
    · exact fun byHand => by cases byHand
  · refine ⟨lists.isKnown, lists.ofGrant, lists.rows, ?_, ?_, lists.removed⟩
    · intro other member byService onFile notHandled
      rcases (isIn other).mp member with old | rfl
      · exact lists.shares other old byService onFile notHandled
      · rw [isAddress] at notHandled
        exact absurd (.head _) notHandled
    · intro other live isLive
      rw [sameGrantee]
      exact lists.live other live isLive
  · exact (congrFun sameGrantee id).trans (isGrantee.trans isAddress)
  · intro other member byService onFile otherAddress
    rcases (isIn other).mp member with old | rfl
    · exact absurd otherAddress (nothing other old byService onFile)
    · rfl

theorem Scene.Lists.not_byHand (lists : scene.Lists listing) (isRow : row ∈ listing.round.prev)
    (isNew : row.email ∉ listing.handled) (isOurs : listing.round.ours row = some given) :
    ∀ share ∈ scene.drive.shares, share.fileId = listing.round.grant.fileId → share.id = given →
      share.byService = true := by
  rintro share member onFile rfl
  have isAddress : addressOf addresses share = row.email :=
    (scene.drive.identified share member).2.symm.trans (lists.grantee_given kept isRow isNew isOurs).2
  obtain ⟨stored, storedMem, storedId, -, storedFile, -⟩ := lists.isKnown
  have ofGrant := lists.ofGrant row isRow
  by_contra notService
  apply kept.hand share member (by simpa using notService) row ((lists.rows row ofGrant isNew).mpr isRow)
  unfold Round.ours at isOurs
  split at isOurs
  · rename_i createdByUs
    obtain ⟨id, isId, notEmpty⟩ := bind_eq_some_iff.mp isOurs
    obtain ⟨-, rfl⟩ := nonEmpty_eq_some.mp notEmpty
    refine ⟨createdByUs, ?_, isAddress.symm, stored, storedMem, storedId.trans ofGrant.symm,
      storedFile.trans onFile.symm⟩
    cases recorded : row.permissionId with
    | none => exact .inr rfl
    | some recordedId =>
      rw [recorded, Option.some_or] at isId
      exact .inl isId
  · cases isOurs

theorem Scene.Lists.corrects (lists : scene.Lists listing) (isNew : email ∉ listing.handled)
    {live : SharePermission} (isLive : listing.round.live email = some live)
    (isOurs : listing.round.isOurs email live = true) :
    ∀ share ∈ scene.drive.shares, share.fileId = listing.round.grant.fileId → share.id = live.id →
      share.byService = true := by
  intro share member onFile isId
  have isAddress : addressOf addresses share = email := by
    rw [← (lists.live email live isLive).2, ← isId]
    exact (scene.drive.identified share member).2.symm
  obtain ⟨owner, ownerMem, -, owns⟩ := (lists.isOurs_iff isNew onFile isAddress isId).mp isOurs
  by_contra notService
  exact kept.hand share member (by simpa using notService) owner ownerMem owns

/-- Where another grant holds an address its shares are owned by others, and else what is about to
be deleted is not needed. -/
theorem asks_stands (lists : scene.Lists listing) (isNew : row.email ∉ listing.handled)
    (isRow : row ∈ listing.round.prev) (isOurs : listing.round.ours row = some given)
    (handsOver : scene.handsOver listing.round.grant.fileId listing.round.grant.id given false) :
    scene.standsAt deps (if scene.ledger.emailHeldByOtherGrant deps.orgId
      listing.round.grant.fileId listing.round.grant.id row.email then .cleared listing row
      else .deleting listing row given) := by
  have split := fun share (member : share ∈ scene.drive.shares) byService onFile isGiven =>
    handsOver.split kept (lists.grantee_given kept isRow isNew isOurs).2 member byService onFile isGiven
  by_cases isHeld : scene.ledger.emailHeldByOtherGrant deps.orgId listing.round.grant.fileId
      listing.round.grant.id row.email = true
  · simp only [isHeld, if_true] at split ⊢
    refine ⟨lists, isNew, fun share member byService onFile isAddress => ?_⟩
    rcases lists.elsewhere_or kept isRow isNew member byService onFile isAddress with
      elsewhere | isIt
    · exact elsewhere
    · exact split share member byService onFile (some.inj (isIt.symm.trans isOurs))
  · simp only [isHeld] at split ⊢
    exact ⟨lists, isNew, isRow, isOurs, split⟩

/-- The permission is gone, and whatever share the address still has is owned by others. -/
theorem deletes_stands (stands : scene.standsAt deps (.deleting listing row given)) :
    Scene.standsAt { scene with drive := scene.drive.remove listing.round.grant.fileId given } deps
      (.cleared listing row) := by
  obtain ⟨lists, isNew, isRow, isOurs, -⟩ := stands
  refine ⟨lists.fewer (Drive.fewer_remove _ _), isNew,
    fun share member byService onFile isAddress => ?_⟩
  obtain ⟨old, notIt⟩ := Drive.mem_remove.mp member
  rcases lists.elsewhere_or kept isRow isNew old byService onFile isAddress with elsewhere | isIt
  · exact elsewhere
  · exact absurd ⟨onFile, some.inj (isIt.symm.trans isOurs)⟩ notIt

variable {passed : List String}

theorem asksRevoking_stands {prev : List GrantMemberRow}
    (reads : scene.Reads grant prev passed) (isRow : row ∈ prev) (isOurs : row.createdByUs = true)
    (isGiven : row.permissionId = some given)
    (handsOver : scene.handsOver grant.fileId grant.id given true) :
    scene.standsAt deps (if scene.ledger.emailHeldByOtherGrant deps.orgId grant.fileId grant.id
      row.email then .read grant prev (given :: passed)
      else .giving grant prev passed row given) := by
  have member := (reads.rows row (reads.ofGrant row isRow)).mpr isRow
  have split := fun share (member' : share ∈ scene.drive.shares) byService onFile isIt =>
    handsOver.split kept (kept.ids row member isOurs given isGiven).2 member' byService onFile isIt
  by_cases isHeld : scene.ledger.emailHeldByOtherGrant deps.orgId grant.fileId grant.id row.email =
      true
  · simp only [isHeld, if_true] at split ⊢
    refine ⟨reads.isKnown, reads.ofGrant, reads.rows, fun id isPassed share shareMem byService onFile
      isId => ?_⟩
    rcases mem_cons.mp isPassed with rfl | isPassed
    · exact split share shareMem byService onFile isId
    · exact reads.passed id isPassed share shareMem byService onFile isId
  · simp only [isHeld] at split ⊢
    exact ⟨reads, isRow, isOurs, isGiven, split⟩

section

variable {prev : List GrantMemberRow}
  (stands : scene.standsAt deps (.giving grant prev passed row given))
include stands

omit kept in
theorem gives_stands :
    Scene.standsAt { scene with drive := scene.drive.remove grant.fileId given } deps
      (.read grant prev (given :: passed)) := by
  obtain ⟨reads, -⟩ := stands
  have fewer := @Scene.Reads.fewer _ _ _ _ _ scene.roles _ _ _ reads (Drive.fewer_remove grant.fileId given)
  refine ⟨reads.isKnown, reads.ofGrant, reads.rows, fun id isPassed share member byService onFile
    isId => ?_⟩
  rcases mem_cons.mp isPassed with rfl | isPassed
  · exact absurd ⟨onFile, isId⟩ (Drive.mem_remove.mp member).2
  · exact fewer.passed id isPassed share member byService onFile isId

theorem giving_not_byHand :
    ∀ share ∈ scene.drive.shares, share.fileId = grant.fileId → share.id = given →
      share.byService = true := by
  rintro share member onFile rfl
  obtain ⟨reads, isRow, isOurs, isGiven, -⟩ := stands
  have ofGrant := reads.ofGrant row isRow
  have rowMem := (reads.rows row ofGrant).mpr isRow
  obtain ⟨stored, storedMem, storedId, -, storedFile, -⟩ := reads.isKnown
  have isAddress : addressOf addresses share = row.email :=
    (scene.drive.identified share member).2.symm.trans (kept.ids row rowMem isOurs _ isGiven).2
  by_contra notService
  exact kept.hand share member (by simpa using notService) row rowMem ⟨isOurs, .inl isGiven,
    isAddress.symm, stored, storedMem, storedId.trans ofGrant.symm, storedFile.trans onFile.symm⟩

end

theorem lists_stands {round : Round} (reads : scene.Reads round.grant round.prev passed)
    (isLive : round.live =
      indexUserPermsByEmail addresses (scene.drive.permissions round.grant.fileId)) :
    scene.standsAt deps (.sharing ⟨round, [], []⟩) where
  isKnown := reads.isKnown
  ofGrant := reads.ofGrant
  rows row ofGrant _ := reads.rows row ofGrant
  shares := by
    intro share member byService onFile _
    simp only [isLive]
    rw [← onFile]
    exact exists_indexUserPermsByEmail member (kept.named share member byService)
  live := by
    intro email live found
    simp only [isLive] at found
    obtain ⟨share, member, -, rfl, isAddress⟩ := indexUserPermsByEmail_eq_some found
    obtain ⟨hasId, isGrantee⟩ := scene.drive.identified share member
    exact ⟨hasId, isGrantee.trans isAddress⟩
  removed email isRemoved := absurd isRemoved not_mem_nil

end

end DubEcosystem.DriveShare
