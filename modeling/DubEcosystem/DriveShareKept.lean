import DubEcosystem.DriveShareProtocol
import DubEcosystem.InterleavingBystanders

/-!
# drive-share-service: whose permission it is

In every reachable state each share that the service made is recorded by a grant as its own, and
none that was made by hand is.  A call that is cut off, and calls in any order, keep this as long as
what the service made and what was made by hand are kept apart.
-/

namespace DubEcosystem.DriveShare

open Interleaving PortPrograms List KeyedTable Option

variable {addresses : Addresses} {deps : RoleGrantsDeps addresses}

def Share.Like (share old : Share) : Prop :=
  ∃ role, share = { old with role }

/-- The ids stand for the same addresses, and the service has made nothing more. -/
structure Drive.Fewer (after before : Drive addresses) : Prop where
  grantee : after.grantee = before.grantee
  shares : ∀ share ∈ after.shares, share.byService = true → ∃ old ∈ before.shares, share.Like old

variable {drive after : Drive addresses}

variable {share : Share}

variable {role : ShareRole}

theorem Drive.mem_change {selected : Share → Bool} : share ∈ (drive.change selected role).shares ↔
      ∃ old ∈ drive.shares, (if selected old then { old with role } else old) = share := by
  simp only [Drive.change, mem_update]

variable {fileId : String}

variable {id : String}

theorem Drive.mem_remove : share ∈ (drive.remove fileId id).shares ↔
      share ∈ drive.shares ∧ ¬(share.fileId = fileId ∧ share.id = id) := by
  rw [Drive.remove, mem_deleteWhere, decide_eq_false_iff_not]

theorem Drive.fewer_refl : drive.Fewer drive :=
  ⟨rfl, fun share member _ => ⟨share, member, share.role, rfl⟩⟩

theorem Drive.fewer_remove (fileId id : String) : (drive.remove fileId id).Fewer drive :=
  ⟨rfl, fun share member _ =>
    ⟨share, (Drive.mem_remove.mp member).1, share.role, rfl⟩⟩

theorem Drive.fewer_change (selected : Share → Bool) (role : ShareRole) :
    (drive.change selected role).Fewer drive := by
  refine ⟨rfl, fun share member _ => ?_⟩
  obtain ⟨old, oldMem, rfl⟩ := Drive.mem_change.mp member
  refine ⟨old, oldMem, ?_⟩
  split
  · exact ⟨role, rfl⟩
  · exact ⟨old.role, rfl⟩

theorem Drive.add_eq_some (added : drive.add share = some after) :
    share.id ≠ "" ∧ drive.grantee share.id = addressOf addresses share ∧
      after.grantee = drive.grantee ∧
        ∀ other, other ∈ after.shares ↔ other ∈ drive.shares ∨ other = share := by
  unfold Drive.add at added
  split at added
  · cases added
  · rename_i shares inserted
    split at added
    · rename_i isGrantee
      cases added
      exact ⟨isGrantee.1, isGrantee.2, rfl, fun other => mem_insert? inserted⟩
    · cases added

variable {email : String}

theorem Drive.shareOf_eq_some : drive.shareOf fileId email = some share ↔
      share ∈ drive.shares ∧ share.fileId = fileId ∧
        addressOf addresses share = addresses.normalize email := by
  rw [Drive.shareOf, find?_eq_some]
  exact and_congr_right fun _ => Prod.mk_inj

theorem Drive.share_unique {first second : Share} (firstMem : first ∈ drive.shares)
    (secondMem : second ∈ drive.shares) (sameFile : first.fileId = second.fileId)
    (sameAddress : addressOf addresses first = addressOf addresses second) : first = second :=
  eq_of_key_eq firstMem secondMem (Prod.ext sameFile sameAddress)

/-- Where nobody with the address has a share yet, a new one is made. -/
theorem Drive.create_eq_some {email id : String}
    (created : drive.create fileId role email id = some (share, after))
    (nobody : drive.shareOf fileId email = none) :
    email ≠ "" ∧ share = ⟨fileId, id, email, role, true⟩ ∧ drive.add share = some after := by
  unfold Drive.create at created
  split at created
  · cases created
  · rename_i notEmpty
    rw [nobody] at created
    obtain ⟨added, isAdded, isPair⟩ := map_eq_some_iff.mp created
    cases isPair
    exact ⟨notEmpty, rfl, isAdded⟩

theorem indexUserPermsByEmail_eq_some {permission : SharePermission} :
    indexUserPermsByEmail addresses (drive.permissions fileId) email = some permission →
      ∃ share ∈ drive.shares, share.fileId = fileId ∧ share.permission = permission ∧
        addressOf addresses share = email := by
  intro found
  have member := mem_of_find?_eq_some found
  have selected := find?_some found
  simp only [decide_eq_true_eq, Option.any_eq_true] at selected
  obtain ⟨isUser, address, isAddress, -, isEmail⟩ := selected
  rw [mem_reverse, Drive.permissions, mem_append] at member
  rcases member with isShare | isOther
  · obtain ⟨share, shareMem, rfl⟩ := List.mem_map.mp isShare
    obtain ⟨isIn, onFile⟩ := mem_filter.mp shareMem
    cases isAddress
    exact ⟨share, isIn, by simpa using onFile, rfl, isEmail⟩
  · obtain ⟨-, notUser⟩ := mem_filter.mp isOther
    simp [isUser] at notUser

theorem exists_indexUserPermsByEmail (member : share ∈ drive.shares)
    (notEmpty : share.emailAddress ≠ "") :
    ∃ permission, indexUserPermsByEmail addresses (drive.permissions share.fileId)
      (addressOf addresses share) = some permission ∧ permission.id = share.id := by
  cases found : indexUserPermsByEmail addresses (drive.permissions share.fileId)
      (addressOf addresses share) with
  | some permission =>
    obtain ⟨other, otherMem, onFile, rfl, sameAddress⟩ := indexUserPermsByEmail_eq_some found
    obtain rfl := Drive.share_unique otherMem member onFile sameAddress
    exact ⟨_, rfl, rfl⟩
  | none =>
    have isListed : share.permission ∈ (drive.permissions share.fileId).reverse := by
      rw [mem_reverse, Drive.permissions]
      apply mem_append_left
      exact mem_map_of_mem (mem_filter.mpr ⟨member, by simp⟩)
    have notSelected := List.find?_eq_none.mp found _ isListed
    simp [Share.permission, notEmpty, addressOf] at notSelected

variable {ledger : Ledger}

variable {row : GrantMemberRow} {after : Ledger}

theorem mem_upsertMember (upserted : ledger.upsertMember row = (.ok (), after)) :
    after.grants = ledger.grants ∧ (∃ grant ∈ ledger.grants, grant.id = row.grantId) ∧
      ∀ other, other ∈ after.members ↔
        other = row ∨ (other ∈ ledger.members ∧ other.key ≠ row.key) := by
  unfold Ledger.upsertMember at upserted
  split at upserted
  · rename_i hasGrant
    cases upserted
    refine ⟨rfl, by simpa using hasGrant, fun other => ?_⟩
    simp only [mem_insertOrIgnore, mem_deleteWhere, decide_eq_false_iff_not]
    constructor
    · rintro (⟨member, notKey⟩ | ⟨rfl, -⟩)
      · exact .inr ⟨member, notKey⟩
      · exact .inl rfl
    · rintro (rfl | ⟨member, notKey⟩)
      · exact .inr ⟨rfl, fun present isPresent => isPresent.2⟩
      · exact .inl ⟨member, notKey⟩
  · cases upserted

/-- A row that cannot go in changes nothing, and has no grant. -/
theorem upsertMember_error {thrown : Thrown}
    (upserted : ledger.upsertMember row = (.error thrown, after)) :
    after = ledger ∧ ∀ grant ∈ ledger.grants, grant.id ≠ row.grantId := by
  unfold Ledger.upsertMember at upserted
  split at upserted
  · cases upserted
  · rename_i noGrant
    cases upserted
    exact ⟨rfl, by simpa using noGrant⟩

theorem insertGrant_ok {row : GrantRow} (inserted : ledger.insertGrant row = (.ok (), after)) :
    after.members = ledger.members ∧ (∀ grant ∈ ledger.grants, grant.id ≠ row.id ∧
        Ledger.isFor row.orgId row.fileId row.roleId grant = false) ∧
        ∀ grant, grant ∈ after.grants ↔ grant ∈ ledger.grants ∨ grant = row := by
  unfold Ledger.insertGrant at inserted
  split at inserted
  · cases inserted
  · rename_i noneFor
    split at inserted
    · cases inserted
    · rename_i grants isInserted
      cases inserted
      refine ⟨rfl, fun grant member => ⟨(insert?_eq_some isInserted).2 grant member, ?_⟩,
        fun grant => mem_insert? isInserted⟩
      rw [selects_eq_true, not_exists] at noneFor
      simpa using fun isFor => noneFor grant ⟨member, isFor⟩

theorem insertGrant_error {row : GrantRow} {thrown : Thrown}
    (inserted : ledger.insertGrant row = (.error thrown, after)) : after = ledger := by
  unfold Ledger.insertGrant at inserted
  split at inserted
  · exact (Prod.mk.inj inserted).2.symm
  · split at inserted
    · exact (Prod.mk.inj inserted).2.symm
    · cases inserted

variable {grantId : String}

theorem mem_membersOf :
    row ∈ ledger.membersOf grantId ↔ row ∈ ledger.members ∧ row.grantId = grantId := by
  rw [Ledger.membersOf, (perm_insertionSort _ _).mem_iff, mem_filter]
  exact and_congr_right fun _ => decide_eq_true_iff

theorem nodup_membersOf (grantId : String) :
    ((ledger.membersOf grantId).map GrantMemberRow.email).Nodup := by
  have perm := (perm_insertionSort (fun first second : GrantMemberRow => first.email ≤ second.email)
    (ledger.members.rows.filter fun row => row.grantId = grantId)).map GrantMemberRow.email
  rw [Ledger.membersOf, perm.nodup_iff]
  apply List.Nodup.map_on
  · intro first firstMem second secondMem same
    obtain ⟨isFirst, firstGrant⟩ := mem_filter.mp firstMem
    obtain ⟨isSecond, secondGrant⟩ := mem_filter.mp secondMem
    apply eq_of_key_eq isFirst isSecond
    exact Prod.ext ((of_decide_eq_true firstGrant).trans (of_decide_eq_true secondGrant).symm) same
  · exact (List.Nodup.of_map _ ledger.members.keysNodup).filter _

section Facts

/-- Every share that the service made is recorded as its own by a grant, and no other share is. -/
structure Scene.Kept (deps : RoleGrantsDeps addresses) (scene : Scene addresses) : Prop where
  own : ∀ share ∈ scene.drive.shares, share.byService = true →
    ∃ row ∈ scene.ledger.members, scene.owns row share
  hand : ∀ share ∈ scene.drive.shares, share.byService = false →
    ∀ row ∈ scene.ledger.members, ¬scene.owns row share
  ids : ∀ row ∈ scene.ledger.members, row.createdByUs = true → ∀ id, row.permissionId = some id →
    id ≠ "" ∧ scene.drive.grantee id = row.email
  named : ∀ share ∈ scene.drive.shares, share.byService = true → share.emailAddress ≠ ""
  refs : ∀ row ∈ scene.ledger.members, ∃ grant ∈ scene.ledger.grants, grant.id = row.grantId
  org : ∀ grant ∈ scene.ledger.grants, grant.orgId = deps.orgId
  unique : ∀ first ∈ scene.ledger.grants, ∀ second ∈ scene.ledger.grants,
    first.fileId = second.fileId → first.roleId = second.roleId → first = second

variable (scene : Scene addresses)

def Scene.knows (grant : GrantRow) : Prop :=
  ∃ stored ∈ scene.ledger.grants, stored.id = grant.id ∧ stored.orgId = grant.orgId ∧
    stored.fileId = grant.fileId ∧ stored.roleId = grant.roleId

/-- The rows of the grant are as they were read, and what was given up is owned by others. -/
structure Scene.Reads (grant : GrantRow) (prev : List GrantMemberRow) (passed : List String) :
    Prop where
  isKnown : scene.knows grant
  ofGrant : ∀ row ∈ prev, row.grantId = grant.id
  rows : ∀ row, row.grantId = grant.id → (row ∈ scene.ledger.members ↔ row ∈ prev)
  passed : ∀ id ∈ passed, ∀ share ∈ scene.drive.shares, share.byService = true →
    share.fileId = grant.fileId → share.id = id → scene.ownedElsewhere grant.id share

/-- For the addresses that are not dealt with yet, the rows are as they were read, and what the
service has made is listed. -/
structure Scene.Lists (listing : Listing) : Prop where
  isKnown : scene.knows listing.round.grant
  ofGrant : ∀ row ∈ listing.round.prev, row.grantId = listing.round.grant.id
  rows : ∀ row, row.grantId = listing.round.grant.id → row.email ∉ listing.handled →
    (row ∈ scene.ledger.members ↔ row ∈ listing.round.prev)
  shares : ∀ share ∈ scene.drive.shares, share.byService = true →
    share.fileId = listing.round.grant.fileId → addressOf addresses share ∉ listing.handled →
      ∃ live, listing.round.live (addressOf addresses share) = some live ∧ live.id = share.id
  live : ∀ email live, listing.round.live email = some live →
    live.id ≠ "" ∧ scene.drive.grantee live.id = email
  removed : ∀ email ∈ listing.removed, email ∈ listing.handled ∧
    ∀ row ∈ scene.ledger.members, row.key ≠ (listing.round.grant.id, email)

/-- The row that goes in before the permission is made. -/
def Listing.note (listing : Listing) (email : String) : GrantMemberRow :=
  ⟨listing.round.grant.id, email, none, true⟩

/-- What is about to be deleted is not needed. -/
def Scene.unneeded (fileId given grantId : String) (revokes : Bool) : Prop :=
  ∀ share ∈ scene.drive.shares, share.byService = true → share.fileId = fileId →
    share.id = given → ¬scene.needs fileId grantId revokes (addressOf addresses share)

/-- What a call that stands there relies on. -/
def Scene.standsAt (deps : RoleGrantsDeps addresses) : Stage → Prop
  | .free | .outsider => True
  | .absent fileId roleId => ∀ grant ∈ scene.ledger.grants,
      Ledger.isFor deps.orgId fileId roleId grant = false
  | .read grant prev passed => scene.Reads grant prev passed
  | .giving grant prev passed row given => scene.Reads grant prev passed ∧ row ∈ prev ∧
      row.createdByUs = true ∧ row.permissionId = some given ∧
        scene.unneeded grant.fileId given grant.id true
  | .dropped grant => scene.knows grant ∧ ∀ row ∈ scene.ledger.members, row.grantId ≠ grant.id
  | .sharing listing => scene.Lists listing
  | .noting listing email => scene.Lists (listing.handle email) ∧
      listing.note email ∈ scene.ledger.members ∧ addresses.normalize email = email ∧
        ∀ share ∈ scene.drive.shares, share.byService = true →
          share.fileId = listing.round.grant.fileId → addressOf addresses share ≠ email
  | .created listing email id => scene.Lists (listing.handle email) ∧
      listing.note email ∈ scene.ledger.members ∧ id ≠ "" ∧ scene.drive.grantee id = email ∧
        ∀ share ∈ scene.drive.shares, share.byService = true →
          share.fileId = listing.round.grant.fileId → addressOf addresses share = email →
            share.id = id
  | .deleting listing row given => scene.Lists listing ∧ row.email ∉ listing.handled ∧
      row ∈ listing.round.prev ∧ listing.round.ours row = some given ∧
        scene.unneeded listing.round.grant.fileId given listing.round.grant.id false
  | .cleared listing row => scene.Lists listing ∧ row.email ∉ listing.handled ∧
      ∀ share ∈ scene.drive.shares, share.byService = true →
        share.fileId = listing.round.grant.fileId → addressOf addresses share = row.email →
          scene.ownedElsewhere listing.round.grant.id share
  | .never => False

def Scene.holds (deps : RoleGrantsDeps addresses) (phase : Phase) : Prop :=
  (∀ grant ∈ phase.known, scene.knows grant) ∧ scene.standsAt deps phase.stage

/-- It is about to delete a permission. -/
def Stage.waits : Stage → Bool
  | .giving _ _ _ _ _ | .deleting _ _ _ => true
  | _ => false

end Facts

variable {before after : Drive addresses} {roles later : Roles}

theorem Scene.Lists.fewer {listing : Listing}
    (lists : (Scene.mk ledger before roles).Lists listing) (fewer : after.Fewer before) :
    (Scene.mk ledger after later).Lists listing where
  isKnown := lists.isKnown
  ofGrant := lists.ofGrant
  rows := lists.rows
  shares := by
    intro share member byService onFile isNew
    obtain ⟨old, oldMem, role, rfl⟩ := fewer.shares share member byService
    exact lists.shares old oldMem byService onFile isNew
  live := by
    intro email live isLive
    rw [fewer.grantee]
    exact lists.live email live isLive
  removed := lists.removed

theorem Scene.Reads.fewer {grant : GrantRow} {prev : List GrantMemberRow} {passed : List String}
    (reads : (Scene.mk ledger before roles).Reads grant prev passed) (fewer : after.Fewer before) :
    (Scene.mk ledger after later).Reads grant prev passed where
  isKnown := reads.isKnown
  ofGrant := reads.ofGrant
  rows := reads.rows
  passed := by
    intro id member share shareMem byService onFile isId
    obtain ⟨old, oldMem, role, rfl⟩ := fewer.shares share shareMem byService
    exact reads.passed id member old oldMem byService onFile isId

variable {revokes : Bool}

theorem Scene.unneeded_fewer {given : String}
    (unneeded : (Scene.mk ledger before roles).unneeded fileId given grantId revokes)
    (fewer : after.Fewer before) :
    (Scene.mk ledger after roles).unneeded fileId given grantId revokes := by
  intro share member byService onFile isGiven
  obtain ⟨old, oldMem, role, rfl⟩ := fewer.shares share member byService
  exact unneeded old oldMem byService onFile isGiven

/-- What a call relies on outlasts whatever is done on Drive by hand, and a change of the roles
unless it is about to delete a permission. -/
theorem Scene.standsAt_fewer {stage : Stage}
    (stands : (Scene.mk ledger before roles).standsAt deps stage) (fewer : after.Fewer before)
    (sameRoles : stage.waits = true → later = roles) :
    (Scene.mk ledger after later).standsAt deps stage := by
  cases stage with
  | free | outsider => trivial
  | absent fileId roleId | dropped grant | never => exact stands
  | read grant prev passed => exact Scene.Reads.fewer stands fewer
  | giving grant prev passed row given =>
    obtain ⟨reads, isRow, isOurs, isGiven, unneeded⟩ := stands
    obtain rfl := sameRoles rfl
    exact ⟨reads.fewer fewer, isRow, isOurs, isGiven, unneeded_fewer unneeded fewer⟩
  | sharing listing => exact Scene.Lists.fewer stands fewer
  | noting listing email =>
    obtain ⟨lists, isNoted, isNormal, nothing⟩ := stands
    refine ⟨lists.fewer fewer, isNoted, isNormal, fun share member byService onFile => ?_⟩
    obtain ⟨old, oldMem, role, rfl⟩ := fewer.shares share member byService
    exact nothing old oldMem byService onFile
  | created listing email id =>
    obtain ⟨lists, isNoted, notEmpty, isGrantee, only⟩ := stands
    refine ⟨lists.fewer fewer, isNoted, notEmpty, ?_, fun share member byService onFile => ?_⟩
    · exact (congrFun fewer.grantee id).trans isGrantee
    · obtain ⟨old, oldMem, role, rfl⟩ := fewer.shares share member byService
      exact only old oldMem byService onFile
  | deleting listing row given =>
    obtain ⟨lists, isNew, isRow, isOurs, unneeded⟩ := stands
    obtain rfl := sameRoles rfl
    exact ⟨lists.fewer fewer, isNew, isRow, isOurs, unneeded_fewer unneeded fewer⟩
  | cleared listing row =>
    obtain ⟨lists, isNew, elsewhere⟩ := stands
    refine ⟨lists.fewer fewer, isNew, fun share member byService onFile isAddress => ?_⟩
    obtain ⟨old, oldMem, role, rfl⟩ := fewer.shares share member byService
    exact elsewhere old oldMem byService onFile isAddress

variable {world moved : World addresses}

theorem answers_db {statement : Statement} {answer : Except Thrown statement.Result}
    (answers : (shareMachine addresses).Answers (.db statement) world answer moved) :
    world.ledger.exec statement = (answer, moved.ledger) ∧
      moved.toScene = ⟨moved.ledger, world.drive, world.roles⟩ := by
  cases answers
  exact ⟨rfl, rfl⟩

theorem toScene_of_quiet {request : Call} {answer : Except Thrown (Call.Result request)}
    (isQuiet : request.IsQuiet)
    (answers : (shareMachine addresses).Answers request world answer moved) :
    moved.toScene = world.toScene := by
  cases request with
  | db statement =>
    obtain ⟨executed, isScene⟩ := answers_db answers
    have same : moved.ledger = world.ledger := by
      cases statement <;> first | exact (congrArg Prod.snd executed).symm | cases isQuiet
    rw [isScene, same]
  | listPermissions fileId | activeUsers | googleEmails userIds =>
    simp only [Machine.Answers, shareMachine] at answers
    cases isFate : world.fates 0 <;> rw [isFate] at answers <;>
      exact (congrArg (fun outcome => outcome.2.toScene) answers).symm
  | roleName roleId | now | newId | clock | kick => exact congrArg World.toScene answers
  | createPermission fileId role email | updatePermission fileId id role
  | deletePermission fileId id grantId revokes | byHand change =>
    cases isQuiet

variable {answer : Except Thrown Unit}

theorem request_eq (requested : world.request drive = (answer, moved)) :
    moved.toScene = { world.toScene with drive } ∨
      (moved.toScene = world.toScene ∧ ∃ thrown, answer = .error thrown) := by
  unfold World.request at requested
  cases isFate : world.fates 0 with
  | carriedOut id invited | unanswered id error =>
    rw [isFate] at requested
    exact .inl (congrArg (fun outcome => outcome.2.toScene) requested).symm
  | refused error =>
    rw [isFate] at requested
    cases requested
    exact .inr ⟨rfl, error, rfl⟩

theorem answers_delete
    (answers : (shareMachine addresses).Answers (.deletePermission fileId id grantId revokes) world
      answer moved) : moved.toScene = { world.toScene with drive := world.drive.remove fileId id } ∨
      (moved.toScene = world.toScene ∧ ∃ thrown, answer = .error thrown) :=
  request_eq answers

theorem answers_update
    (answers : (shareMachine addresses).Answers (.updatePermission fileId id role) world answer
      moved) :
    moved.toScene = { world.toScene with
      drive := world.drive.change (fun share => share.fileId = fileId ∧ share.id = id) role } ∨
      moved.toScene = world.toScene := by
  change world.updatePermission fileId id role = (answer, moved) at answers
  unfold World.updatePermission at answers
  simp only [] at answers
  split at answers
  · exact (request_eq answers).imp_right And.left
  · exact .inr (congrArg (fun outcome => outcome.2.toScene) answers).symm

/-- Where nobody with the address has a share yet, a permission is made and its answer arrives, or
nothing is done. -/
theorem answers_create
    {answer : Except Thrown SharePermission} (isAnswered : world.answered fileId role email)
    (answers : (shareMachine addresses).Answers (.createPermission fileId role email) world answer
      moved) :
    (∃ share drive permission, answer = .ok permission ∧ permission.id = share.id ∧
      (∃ id, world.drive.create fileId role email id = some (share, drive)) ∧
        moved.toScene = { world.toScene with drive }) ∨
      ((∃ thrown, answer = .error thrown) ∧ moved.toScene = world.toScene) := by
  change world.createPermission fileId role email = (answer, moved) at answers
  unfold World.createPermission at answers
  cases isFate : world.fates 0 with
  | refused error =>
    rw [isFate] at answers
    cases answers
    exact .inr ⟨⟨error, rfl⟩, rfl⟩
  | carriedOut id invited =>
    rw [isFate] at answers
    simp only [] at answers
    split at answers
    · cases answers
      exact .inr ⟨⟨_, rfl⟩, rfl⟩
    · rename_i share drive created
      cases answers
      exact .inl ⟨share, drive, _, rfl, rfl, ⟨id, created⟩, rfl⟩
  | unanswered id error =>
    rw [isFate] at answers
    simp only [isAnswered id error isFate] at answers
    cases answers
    exact .inr ⟨⟨error, rfl⟩, rfl⟩

variable {scene : Scene addresses} {listing : Listing} {grant : GrantRow} {given : String}

theorem Scene.knows.same {stored : GrantRow} (isKnown : scene.knows grant)
    (member : stored ∈ scene.ledger.grants) (sameId : stored.id = grant.id) :
    stored.orgId = grant.orgId ∧ stored.fileId = grant.fileId ∧ stored.roleId = grant.roleId := by
  obtain ⟨other, otherMem, isId, same⟩ := isKnown
  rw [eq_of_key_eq member otherMem (sameId.trans isId.symm)]
  exact same

theorem Scene.owns.file (owns : scene.owns row share) (isKnown : scene.knows grant)
    (ofGrant : row.grantId = grant.id) : share.fileId = grant.fileId := by
  obtain ⟨-, -, -, stored, storedMem, isId, onFile⟩ := owns
  rw [← onFile]
  exact (isKnown.same storedMem (isId.trans ofGrant)).2.1

theorem Scene.owns_note (isKnown : scene.knows listing.round.grant)
    (onFile : share.fileId = listing.round.grant.fileId)
    (isAddress : addressOf addresses share = email) :
    scene.owns (listing.note email) share := by
  obtain ⟨stored, storedMem, isId, -, isFile, -⟩ := isKnown
  exact ⟨rfl, .inr rfl, isAddress.symm, stored, storedMem, isId, isFile.trans onFile.symm⟩

/-- The row of an address that is not dealt with is the one that was read. -/
theorem Scene.Lists.eq_of_email (lists : scene.Lists listing) {other : GrantMemberRow}
    (member : row ∈ scene.ledger.members) (ofGrant : row.grantId = listing.round.grant.id)
    (otherMem : other ∈ listing.round.prev) (sameEmail : row.email = other.email)
    (isNew : other.email ∉ listing.handled) : row = other := by
  have otherGrant := lists.ofGrant other otherMem
  apply eq_of_key_eq member ((lists.rows other otherGrant isNew).mpr otherMem)
  exact Prod.ext (ofGrant.trans otherGrant.symm) sameEmail

/-- The permission that a row says its grant made stands for its address. -/
theorem Scene.Lists.grantee_given (lists : scene.Lists listing) (kept : scene.Kept deps)
    (isRow : row ∈ listing.round.prev) (isNew : row.email ∉ listing.handled)
    (isOurs : listing.round.ours row = some given) :
    given ≠ "" ∧ scene.drive.grantee given = row.email := by
  have member := (lists.rows row (lists.ofGrant row isRow) isNew).mpr isRow
  unfold Round.ours at isOurs
  split at isOurs
  · rename_i createdByUs
    obtain ⟨id, isId, notEmpty⟩ := bind_eq_some_iff.mp isOurs
    obtain ⟨-, rfl⟩ := nonEmpty_eq_some.mp notEmpty
    cases recorded : row.permissionId with
    | some recordedId =>
      rw [recorded, Option.some_or, Option.some.injEq] at isId
      subst isId
      exact kept.ids row member createdByUs recordedId recorded
    | none =>
      rw [recorded, Option.none_or] at isId
      obtain ⟨live, isLive, rfl⟩ := map_eq_some_iff.mp isId
      exact lists.live row.email live isLive
  · cases isOurs

theorem Scene.Lists.elsewhere_or (lists : scene.Lists listing) (kept : scene.Kept deps)
    (isRow : row ∈ listing.round.prev) (isNew : row.email ∉ listing.handled)
    (member : share ∈ scene.drive.shares) (byService : share.byService = true)
    (onFile : share.fileId = listing.round.grant.fileId)
    (isAddress : addressOf addresses share = row.email) :
    scene.ownedElsewhere listing.round.grant.id share ∨ listing.round.ours row = some share.id := by
  obtain ⟨owner, ownerMem, owns⟩ := kept.own share member byService
  by_cases ofGrant : owner.grantId = listing.round.grant.id
  · right
    have isOwner : owner = row := lists.eq_of_email ownerMem ofGrant isRow
      (owns.2.2.1.trans isAddress) isNew
    subst isOwner
    obtain ⟨createdByUs, isId, -⟩ := owns
    have isGiven : (owner.permissionId.or ((listing.round.live owner.email).map
        SharePermission.id)) = some share.id ∧ share.id ≠ "" := by
      rcases isId with isId | isId
      · rw [isId, Option.some_or]
        exact ⟨rfl, (kept.ids owner ownerMem createdByUs share.id isId).1⟩
      · obtain ⟨live, isLive, sameId⟩ :=
          lists.shares share member byService onFile (isAddress ▸ isNew)
        rw [isAddress] at isLive
        rw [isId, isLive, Option.none_or, map_some, sameId]
        exact ⟨rfl, sameId ▸ (lists.live owner.email live isLive).1⟩
    rw [Round.ours, if_pos createdByUs, isGiven.1, bind_some, nonEmpty, if_neg isGiven.2]
  · exact .inl ⟨owner, ownerMem, ofGrant, owns⟩

/-- Another grant that has made the permission of an address needs it. -/
theorem Scene.needs_of_held
    (isHeld : scene.ledger.emailHeldByOtherGrant deps.orgId fileId grantId email = true) :
    scene.needs fileId grantId revokes email := by
  obtain ⟨row, rowMem, isRow⟩ := selects_eq_true.mp isHeld
  obtain ⟨isEmail, -, hasGrant⟩ := of_decide_eq_true isRow
  obtain ⟨grant, grantMem, isGrant⟩ := selects_eq_true.mp hasGrant
  obtain ⟨isId, -, onFile, isOther⟩ := of_decide_eq_true isGrant
  refine ⟨grant, grantMem, onFile, ?_⟩
  rw [if_neg isOther]
  exact .inl ⟨row, rowMem, Prod.ext isId.symm isEmail⟩

theorem Scene.held_of_ownedElsewhere (kept : scene.Kept deps)
    (elsewhere : scene.ownedElsewhere grantId share) :
    scene.ledger.emailHeldByOtherGrant deps.orgId share.fileId grantId
      (addressOf addresses share) = true := by
  obtain ⟨row, rowMem, isOther, createdByUs, -, isEmail, grant, grantMem, isId, onFile⟩ := elsewhere
  apply selects_eq_true.mpr
  refine ⟨row, rowMem, decide_eq_true ⟨isEmail, createdByUs, ?_⟩⟩
  apply selects_eq_true.mpr
  exact ⟨grant, grantMem, decide_eq_true
    ⟨isId, kept.org grant grantMem, onFile, fun same => isOther (isId.symm.trans same)⟩⟩

theorem Scene.handsOver.split (kept : scene.Kept deps)
    (handsOver : scene.handsOver fileId grantId given revokes)
    (isGrantee : scene.drive.grantee given = email) (member : share ∈ scene.drive.shares)
    (byService : share.byService = true) (onFile : share.fileId = fileId)
    (isGiven : share.id = given) :
    if scene.ledger.emailHeldByOtherGrant deps.orgId fileId grantId email = true then
      scene.ownedElsewhere grantId share
    else ¬scene.needs fileId grantId revokes (addressOf addresses share) := by
  have isAddress : addressOf addresses share = email := by
    rw [← isGrantee, ← isGiven]
    exact (scene.drive.identified share member).2.symm
  subst onFile isAddress
  split
  · rename_i isHeld
    apply (handsOver share member byService rfl isGiven).resolve_right
    exact fun notNeeded => notNeeded (needs_of_held isHeld)
  · rename_i notHeld
    apply (handsOver share member byService rfl isGiven).resolve_left
    exact fun elsewhere => notHeld (held_of_ownedElsewhere kept elsewhere)

variable {later : Ledger} {others : Roles}

section

variable (kept : (Scene.mk ledger before roles).Kept deps)
include kept

/-- What is done to shares that are there keeps whose they are. -/
theorem Scene.Kept.ofLike (grantee : after.grantee = before.grantee)
    (like : ∀ share ∈ after.shares, ∃ old ∈ before.shares, share.Like old) :
    (Scene.mk ledger after others).Kept deps where
  own := by
    intro share member byService
    obtain ⟨old, oldMem, role, rfl⟩ := like share member
    exact kept.own old oldMem byService
  hand := by
    intro share member byHand
    obtain ⟨old, oldMem, role, rfl⟩ := like share member
    exact kept.hand old oldMem byHand
  ids := by
    intro row member createdByUs id isId
    rw [show (Scene.mk ledger after others).drive.grantee = before.grantee from grantee]
    exact kept.ids row member createdByUs id isId
  named := by
    intro share member byService
    obtain ⟨old, oldMem, role, rfl⟩ := like share member
    exact kept.named old oldMem byService
  refs := kept.refs
  org := kept.org
  unique := kept.unique

theorem Scene.Kept.remove (fileId id : String) :
    (Scene.mk ledger (before.remove fileId id) roles).Kept deps :=
  kept.ofLike rfl fun share member => ⟨share, (Drive.mem_remove.mp member).1, share.role, rfl⟩

theorem Scene.Kept.change (selected : Share → Bool) (role : ShareRole) :
    (Scene.mk ledger (before.change selected role) roles).Kept deps := by
  have sameGrantee : (before.change selected role).grantee = before.grantee := rfl
  apply kept.ofLike sameGrantee
  intro share member
  obtain ⟨old, oldMem, rfl⟩ := Drive.mem_change.mp member
  refine ⟨old, oldMem, ?_⟩
  split
  · exact ⟨role, rfl⟩
  · exact ⟨old.role, rfl⟩

/-- One more share keeps whose the shares are, where it is owned just if the service made it. -/
theorem Scene.Kept.add (added : before.add share = some after)
    (own : share.byService = true → share.emailAddress ≠ "" ∧
      ∃ row ∈ ledger.members, (Scene.mk ledger before roles).owns row share)
    (hand : share.byService = false → ∀ row ∈ ledger.members,
      ¬(Scene.mk ledger before roles).owns row share) :
    (Scene.mk ledger after roles).Kept deps := by
  obtain ⟨-, -, sameGrantee, isIn⟩ := Drive.add_eq_some added
  constructor
  · intro other member byService
    rcases (isIn other).mp member with old | rfl
    · exact kept.own other old byService
    · exact (own byService).2
  · intro other member byHand
    rcases (isIn other).mp member with old | rfl
    · exact kept.hand other old byHand
    · exact hand byHand
  · intro row member createdByUs id isId
    rw [show (Scene.mk ledger after roles).drive.grantee = before.grantee from sameGrantee]
    exact kept.ids row member createdByUs id isId
  · intro other member byService
    rcases (isIn other).mp member with old | rfl
    · exact kept.named other old byService
    · exact (own byService).1
  · exact kept.refs
  · exact kept.org
  · exact kept.unique

/-- Rows may go whose shares are owned by others, and a row may come that owns just what the
service made. -/
theorem Scene.Kept.members (sameGrants : later.grants = ledger.grants)
    (own : ∀ share ∈ before.shares, share.byService = true →
      ∃ row ∈ later.members, (Scene.mk ledger before roles).owns row share)
    (rows : ∀ row ∈ later.members, row ∈ ledger.members ∨
      ((∃ grant ∈ ledger.grants, grant.id = row.grantId) ∧
        (∀ share ∈ before.shares, share.byService = false →
          ¬(Scene.mk ledger before roles).owns row share) ∧
        (row.createdByUs = true → ∀ id, row.permissionId = some id →
          id ≠ "" ∧ before.grantee id = row.email))) : (Scene.mk later before roles).Kept deps := by
  have sameOwns : ∀ row share, (Scene.mk later before roles).owns row share ↔
      (Scene.mk ledger before roles).owns row share := by
    intro row share
    simp only [Scene.owns, sameGrants]
  constructor
  · intro share member byService
    obtain ⟨row, rowMem, owns⟩ := own share member byService
    exact ⟨row, rowMem, (sameOwns row share).mpr owns⟩
  · intro share member byHand row rowMem owns
    rcases rows row rowMem with old | ⟨-, isNew, -⟩
    · exact kept.hand share member byHand row old ((sameOwns row share).mp owns)
    · exact isNew share member byHand ((sameOwns row share).mp owns)
  · intro row member createdByUs id isId
    rcases rows row member with old | ⟨-, -, isNew⟩
    · exact kept.ids row old createdByUs id isId
    · exact isNew createdByUs id isId
  · exact kept.named
  · intro row member
    rw [show (Scene.mk later before roles).ledger.grants = ledger.grants from sameGrants]
    rcases rows row member with old | ⟨hasGrant, -⟩
    · exact kept.refs row old
    · exact hasGrant
  · rw [show (Scene.mk later before roles).ledger.grants = ledger.grants from sameGrants]
    exact kept.org
  · rw [show (Scene.mk later before roles).ledger.grants = ledger.grants from sameGrants]
    exact kept.unique

end

variable {email : String}

/-- One address is dealt with, and nothing else has changed. -/
theorem Scene.Lists.handle (lists : (Scene.mk ledger before roles).Lists listing)
    (sameGrants : later.grants = ledger.grants) (isNew : email ∉ listing.handled)
    (sameRows : ∀ row, row.key ≠ (listing.round.grant.id, email) →
      (row ∈ later.members ↔ row ∈ ledger.members)) :
    (Scene.mk later before roles).Lists (listing.handle email) where
  isKnown := by
    unfold Scene.knows
    rw [show (Scene.mk later before roles).ledger.grants = ledger.grants from sameGrants]
    exact lists.isKnown
  ofGrant := lists.ofGrant
  rows := by
    intro row ofGrant notHandled
    obtain ⟨notEmail, notHandled⟩ := not_or.mp (mem_cons.not.mp notHandled)
    rw [sameRows row fun isKey => notEmail (congrArg Prod.snd isKey)]
    exact lists.rows row ofGrant notHandled
  shares := by
    intro share member byService onFile notHandled
    exact lists.shares share member byService onFile fun isHandled =>
      notHandled (mem_cons_of_mem email isHandled)
  live := lists.live
  removed := by
    intro other isRemoved
    obtain ⟨isHandled, noRow⟩ := lists.removed other isRemoved
    refine ⟨mem_cons_of_mem email isHandled, fun row member isKey => ?_⟩
    have notEmail : other ≠ email := fun same => isNew (same ▸ isHandled)
    refine noRow row ((sameRows row fun isOther => notEmail ?_).mp member) isKey
    exact congrArg Prod.snd (isKey.symm.trans isOther)

/-- The row of an address that was dealt with is written again. -/
theorem Scene.Lists.rewrite {noted : GrantMemberRow}
    (lists : (Scene.mk ledger before roles).Lists listing)
    (sameGrants : later.grants = ledger.grants) (isHandled : email ∈ listing.handled)
    (isNoted : noted ∈ ledger.members) (isKey : noted.key = (listing.round.grant.id, email))
    (sameRows : ∀ row, row.key ≠ (listing.round.grant.id, email) →
      (row ∈ later.members ↔ row ∈ ledger.members)) :
    (Scene.mk later before roles).Lists listing where
  isKnown := by
    unfold Scene.knows
    rw [show (Scene.mk later before roles).ledger.grants = ledger.grants from sameGrants]
    exact lists.isKnown
  ofGrant := lists.ofGrant
  rows := by
    intro row ofGrant notHandled
    have notKey : row.key ≠ (listing.round.grant.id, email) := by
      intro isKey
      have isEmail : row.email = email := congrArg Prod.snd isKey
      exact notHandled (isEmail ▸ isHandled)
    exact (sameRows row notKey).trans (lists.rows row ofGrant notHandled)
  shares := lists.shares
  live := lists.live
  removed := by
    intro other isRemoved
    obtain ⟨otherHandled, noRow⟩ := lists.removed other isRemoved
    refine ⟨otherHandled, fun row member isOther => ?_⟩
    have notEmail : other ≠ email := fun same => noRow noted isNoted (same ▸ isKey)
    refine noRow row ((sameRows row fun isEmail => notEmail ?_).mp member) isOther
    exact congrArg Prod.snd (isOther.symm.trans isEmail)

theorem Scene.Lists.remove (lists : (Scene.mk ledger before roles).Lists (listing.handle email))
    (noRow : ∀ row ∈ ledger.members, row.key ≠ (listing.round.grant.id, email)) :
    (Scene.mk ledger before roles).Lists (listing.remove email) :=
  { lists with
    removed := by
      intro other isRemoved
      rcases mem_cons.mp isRemoved with rfl | isRemoved
      · exact ⟨.head _, noRow⟩
      · exact lists.removed other isRemoved }

end DubEcosystem.DriveShare
