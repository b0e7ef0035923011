import DubEcosystem.DriveShareTypes
import DubEcosystem.PortPrograms

/-!
# drive-share-service: the ports

What the service asks of its ledger, of Drive and of the roles, and what is done by hand beside
it.
-/

namespace DubEcosystem.DriveShare

open Interleaving PortPrograms

/-- `emailHeldByOtherGrant` is told besides which permission is given up, and whether the grant is
revoked. -/
inductive Statement where
  | selectGrant (orgId fileId roleId : String)
  | selectGrants (orgId : String)
  | updateGrant (id : String) (driveRole : AssignableDriveRole) (updatedAt : String)
  | insertGrant (row : GrantRow)
  | deleteMembers (grantId : String)
  | deleteGrant (id : String)
  | selectMembers (grantId : String)
  | upsertMember (row : GrantMemberRow)
  | deleteMember (grantId email : String)
  | emailHeldByOtherGrant (orgId fileId excludeGrantId email given : String) (revokes : Bool)

abbrev Statement.Result : Statement → Type
  | .selectGrant _ _ _ => Option GrantRow
  | .selectGrants _ => List GrantRow
  | .selectMembers _ => List GrantMemberRow
  | .emailHeldByOtherGrant _ _ _ _ _ _ => Bool
  | _ => Unit

namespace Ledger

variable (ledger : Ledger)

def foreignKey : Thrown := .outside "FOREIGN KEY constraint failed"

def uniqueKey : Thrown := .outside "UNIQUE constraint failed"

def isFor (orgId fileId roleId : String) (grant : GrantRow) : Bool :=
  grant.orgId = orgId ∧ grant.fileId = fileId ∧ grant.roleId = roleId

def insertGrant (row : GrantRow) : Except Thrown Unit × Ledger :=
  if ledger.grants.selects (isFor row.orgId row.fileId row.roleId) then (.error uniqueKey, ledger)
  else
    match ledger.grants.insert? row with
    | none => (.error uniqueKey, ledger)
    | some grants => (.ok (), { ledger with grants })

/-- `ORDER BY email ASC`. -/
def membersOf (grantId : String) : List GrantMemberRow :=
  (ledger.members.rows.filter fun row => row.grantId = grantId).insertionSort
    fun first second : GrantMemberRow => first.email ≤ second.email

/-- `INSERT OR REPLACE`; a row refers to its grant. -/
def upsertMember (row : GrantMemberRow) : Except Thrown Unit × Ledger :=
  if ledger.grants.selects fun grant => grant.id = row.grantId then
    (.ok (),
      { ledger with
        members := (ledger.members.deleteWhere fun other => other.key = row.key).insertOrIgnore row })
  else (.error foreignKey, ledger)

/-- The grants on the file, but for one, that have made the permission of the address. -/
def emailHeldByOtherGrant (orgId fileId excludeGrantId email : String) : Bool :=
  ledger.members.selects fun row =>
    row.email = email ∧ row.createdByUs ∧ ledger.grants.selects fun grant =>
      grant.id = row.grantId ∧ grant.orgId = orgId ∧ grant.fileId = fileId ∧
        grant.id ≠ excludeGrantId

def exec : (statement : Statement) → Except Thrown statement.Result × Ledger
  | .selectGrant orgId fileId roleId =>
    (.ok (ledger.grants.rows.find? (isFor orgId fileId roleId)), ledger)
  | .selectGrants orgId =>
    (.ok ((ledger.grants.rows.filter fun grant => grant.orgId = orgId).insertionSort
      fun first second : GrantRow => first.grantedAt < second.grantedAt ∨
        (first.grantedAt = second.grantedAt ∧ first.id ≤ second.id)), ledger)
  | .updateGrant id driveRole updatedAt =>
    (.ok (),
      { ledger with
        grants := ledger.grants.update (fun grant => grant.id = id)
          (fun grant => { grant with driveRole, updatedAt }) fun _ => rfl })
  | .insertGrant row => ledger.insertGrant row
  | .deleteMembers grantId =>
    (.ok (), { ledger with members := ledger.members.deleteWhere fun row => row.grantId = grantId })
  | .deleteGrant id =>
    if ledger.members.selects fun row => row.grantId = id then (.error foreignKey, ledger)
    else (.ok (), { ledger with grants := ledger.grants.deleteWhere fun grant => grant.id = id })
  | .selectMembers grantId => (.ok (ledger.membersOf grantId), ledger)
  | .upsertMember row => ledger.upsertMember row
  | .deleteMember grantId email =>
    (.ok (),
      { ledger with
        members := ledger.members.deleteWhere fun row => row.key = (grantId, email) })
  | .emailHeldByOtherGrant orgId fileId excludeGrantId email _ _ =>
    (.ok (ledger.emailHeldByOtherGrant orgId fileId excludeGrantId email), ledger)

end Ledger

/-- What is done on Drive by hand, and what becomes of the roles. -/
inductive Change where
  | share (fileId id emailAddress : String) (role : ShareRole)
  | changeRole (fileId id : String) (role : ShareRole)
  | unshare (fileId id : String)
  | roles (roles : Roles)

/-- `deletePermission` is told besides which grant gives the permission up, and whether that grant
is revoked. -/
inductive Call where
  | db (statement : Statement)
  | listPermissions (fileId : String)
  | createPermission (fileId : String) (role : ShareRole) (emailAddress : String)
  | updatePermission (fileId permissionId : String) (role : ShareRole)
  | deletePermission (fileId permissionId grantId : String) (revokes : Bool)
  | activeUsers
  | googleEmails (userIds : List String)
  | roleName (roleId : String)
  | now
  | newId
  | clock
  | kick
  | byHand (change : Change)

abbrev Call.Result : Call → Type
  | .db statement => statement.Result
  | .listPermissions _ => List SharePermission
  | .createPermission _ _ _ => SharePermission
  | .activeUsers => List ActiveUser
  | .googleEmails _ => String → Option String
  | .roleName _ => Option String
  | .now | .newId => String
  | .clock => Int
  | _ => Unit

abbrev sharePorts : Ports where
  Call := Call
  Result := Call.Result

abbrev shareSignature : Signature := sharePorts.signature Thrown

abbrev ShareM (α : Type) := Action sharePorts Thrown α

abbrev ask (request : Call) : ShareM (Call.Result request) :=
  port (P := sharePorts) request

abbrev query (statement : Statement) : ShareM statement.Result :=
  ask (.db statement)

structure Scene (addresses : Addresses) where
  ledger : Ledger
  drive : Drive addresses
  roles : Roles

/-- The scene, and what is to become of the next requests to Drive and to the services that know
the roles. -/
structure World (addresses : Addresses) extends Scene addresses where
  fates : Nat → Fate

variable {addresses : Addresses}

namespace World

variable (world : World addresses)

/-- One more request has met its fate. -/
def spent : World addresses :=
  { world with fates := fun n => world.fates (n + 1) }

def withDrive (drive : Drive addresses) : World addresses :=
  { world with drive }

def refusal : Thrown :=
  .dub ⟨"FORBIDDEN", "この操作を行う権限がありません（このファイルのオーナーではありません）。", []⟩

def createPermission (fileId : String) (role : ShareRole) (email : String) :
    Except Thrown SharePermission × World addresses :=
  match world.fates 0 with
  | .refused error => (.error error, world.spent)
  | .carriedOut id invited =>
    match world.drive.create fileId role email id with
    | none => (.error refusal, world.spent)
    | some (share, drive) =>
      (.ok { share.permission with invited }, world.spent.withDrive drive)
  | .unanswered id error =>
    match world.drive.create fileId role email id with
    | none => (.error error, world.spent)
    | some (_, drive) => (.error error, world.spent.withDrive drive)

/-- A request that is refused changes nothing, and one whose answer is lost is carried out. -/
def request (drive : Drive addresses) : Except Thrown Unit × World addresses :=
  match world.fates 0 with
  | .refused error => (.error error, world.spent)
  | .carriedOut _ _ => (.ok (), world.spent.withDrive drive)
  | .unanswered _ error => (.error error, world.spent.withDrive drive)

def updatePermission (fileId id : String) (role : ShareRole) :
    Except Thrown Unit × World addresses :=
  let isIt : Share → Bool := fun share => share.fileId = fileId ∧ share.id = id
  if world.drive.shares.selects isIt then world.request (world.drive.change isIt role)
  else (.error (notFound "drivePermission" id), world.spent)

/-- A permission that is not there is as good as deleted. -/
def deletePermission (fileId id : String) : Except Thrown Unit × World addresses :=
  world.request (world.drive.remove fileId id)

def byHand : Change → World addresses
  | .share fileId id emailAddress role =>
    match world.drive.add ⟨fileId, id, emailAddress, role, false⟩ with
    | none => world
    | some drive => world.withDrive drive
  | .changeRole fileId id role =>
    world.withDrive (world.drive.change (fun share => share.fileId = fileId ∧ share.id = id) role)
  | .unshare fileId id => world.withDrive (world.drive.remove fileId id)
  | .roles roles => { world with roles }

end World

/-- What a call does; the clock, the ids, the names of roles and the kick answer as they like. -/
def shareMachine (addresses : Addresses) : Machine shareSignature (World addresses) where
  exec
    | .db statement, world =>
      let (answer, ledger) := world.ledger.exec statement
      some (answer, { world with ledger })
    | .listPermissions fileId, world =>
      match world.fates 0 with
      | .carriedOut _ _ => some (.ok (world.drive.permissions fileId), world.spent)
      | .unanswered _ error | .refused error => some (.error error, world.spent)
    | .createPermission fileId role email, world =>
      some (world.createPermission fileId role email)
    | .updatePermission fileId id role, world => some (world.updatePermission fileId id role)
    | .deletePermission fileId id _ _, world => some (world.deletePermission fileId id)
    | .activeUsers, world =>
      match world.fates 0 with
      | .carriedOut _ _ => some (.ok world.roles.users, world.spent)
      | .unanswered _ error | .refused error => some (.error error, world.spent)
    | .googleEmails _, world =>
      match world.fates 0 with
      | .carriedOut _ _ =>
        some (.ok fun id => gmailOf addresses (world.roles.gmails id), world.spent)
      | .unanswered _ _ | .refused _ => some (.ok fun _ => none, world.spent)
    | .byHand change, world => some (.ok (), world.byHand change)
    | _, _ => none
  observe _ _ world := world

end DubEcosystem.DriveShare
