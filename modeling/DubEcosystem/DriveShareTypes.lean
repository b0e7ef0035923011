import Mathlib.Data.List.Sort
import DubEcosystem.IdentityRosterTypes
import DubEcosystem.KeyedTable

/-!
# drive-share-service: Drive, the ledger and the roles

What Google Drive holds of the permissions on files, what the service records of them, and who is
in which role.
-/

namespace DubEcosystem.DriveShare

open IdentityRoster (codeUnits)

structure FieldError where
  field : String
  reason : String

structure DubError where
  code : String
  message : String
  details : List FieldError

/-- An error of the service or of Drive, or what the database throws. -/
inductive Thrown where
  | dub (error : DubError)
  | outside (message : String)

def validationFailed (details : List FieldError) (message : String) : Thrown :=
  .dub ⟨"VALIDATION_FAILED", message, details⟩

def notFound (resource id : String) : Thrown :=
  .dub ⟨"NOT_FOUND", resource ++ " not found: " ++ id, []⟩

inductive ShareRole where
  | reader
  | commenter
  | writer
  | owner
  deriving DecidableEq

inductive AssignableDriveRole where
  | reader
  | commenter
  | writer
  deriving DecidableEq

def AssignableDriveRole.share : AssignableDriveRole → ShareRole
  | .reader => .reader
  | .commenter => .commenter
  | .writer => .writer

inductive GranteeType where
  | user
  | group
  | domain
  | anyone
  deriving DecidableEq

/-- `invited` is set on a permission that was just created by an invitation. -/
structure SharePermission where
  id : String
  type : GranteeType
  role : ShareRole
  emailAddress : Option String
  invited : Bool

/-- `.trim().toLowerCase()`. -/
structure Addresses where
  normalize : String → String
  normalize_normalize : ∀ text, normalize (normalize text) = normalize text

/-- A file that is shared with a user.  Drive does not tell who shared it. -/
structure Share where
  fileId : String
  id : String
  emailAddress : String
  role : ShareRole
  byService : Bool

def Share.key (addresses : Addresses) (share : Share) : String × String :=
  (share.fileId, addresses.normalize share.emailAddress)

theorem Share.key_withRole (addresses : Addresses) (share : Share) (role : ShareRole) :
    Share.key addresses { share with role } = share.key addresses :=
  rfl

def Share.permission (share : Share) : SharePermission :=
  ⟨share.id, .user, share.role, some share.emailAddress, false⟩

/-- What becomes of a request: it is carried out, and a new permission has this id; it is carried
out and its answer is lost; or it is refused. -/
inductive Fate where
  | carriedOut (id : String) (invited : Bool)
  | unanswered (id : String) (error : Thrown)
  | refused (error : Thrown)

/-- The id of a permission on a file stands for an address, and there is no other permission of a
user on that file with that address. -/
structure Drive (addresses : Addresses) where
  shares : KeyedTable (Share.key addresses)
  /-- The permissions of groups, of domains and of everyone. -/
  others : String → List SharePermission
  grantee : String → String
  identified : ∀ share ∈ shares,
    share.id ≠ "" ∧ grantee share.id = addresses.normalize share.emailAddress

variable {addresses : Addresses}

namespace Drive

variable (drive : Drive addresses)

def permissions (fileId : String) : List SharePermission :=
  ((drive.shares.rows.filter fun share => share.fileId = fileId).map Share.permission) ++
    (drive.others fileId).filter fun permission => permission.type ≠ .user

/-- A change of roles and makers alone. -/
def change (selected : Share → Bool) (role : ShareRole) : Drive addresses where
  shares := drive.shares.update selected (fun share => { share with role }) fun share =>
    share.key_withRole addresses role
  others := drive.others
  grantee := drive.grantee
  identified := by
    intro share member
    obtain ⟨old, oldMem, rfl⟩ := KeyedTable.mem_update.mp member
    split <;> exact drive.identified old oldMem

def remove (fileId id : String) : Drive addresses where
  shares := drive.shares.deleteWhere fun share => share.fileId = fileId ∧ share.id = id
  others := drive.others
  grantee := drive.grantee
  identified := fun share member =>
    drive.identified share (KeyedTable.mem_deleteWhere.mp member).1

def shareOf (fileId email : String) : Option Share :=
  drive.shares.find? (fileId, addresses.normalize email)

def add (share : Share) : Option (Drive addresses) :=
  match inserted : drive.shares.insert? share with
  | none => none
  | some shares =>
    if isGrantee : share.id ≠ "" ∧
        drive.grantee share.id = addresses.normalize share.emailAddress then
      some
        { shares
          others := drive.others
          grantee := drive.grantee
          identified := by
            intro other member
            rcases (KeyedTable.mem_insert? inserted).mp member with old | rfl
            · exact drive.identified other old
            · exact isGrantee }
    else none

def conflict : Thrown :=
  .dub ⟨"CONFLICT", "この宛先には既に権限が付与されています", []⟩

/-- A user who has a share already is given the role; an address that is empty is refused. -/
def create (fileId : String) (role : ShareRole) (email id : String) :
    Option (Share × Drive addresses) :=
  if email = "" then none
  else
    match drive.shareOf fileId email with
    | some share =>
      some ({ share with role },
        drive.change (fun other => other.key addresses = share.key addresses) role)
    | none =>
      let share : Share := ⟨fileId, id, email, role, true⟩
      (drive.add share).map fun after => (share, after)

end Drive

structure GrantRow where
  id : String
  orgId : String
  fileId : String
  roleId : String
  driveRole : AssignableDriveRole
  grantedBy : String
  grantedAt : String
  updatedAt : String

/-- `createdByUs`: the service made the permission, and may delete it. -/
structure GrantMemberRow where
  grantId : String
  email : String
  permissionId : Option String
  createdByUs : Bool

def GrantMemberRow.key (row : GrantMemberRow) : String × String :=
  (row.grantId, row.email)

structure Ledger where
  grants : KeyedTable GrantRow.id
  members : KeyedTable GrantMemberRow.key

section Roles

structure ActiveUser where
  id : String
  email : String
  roleIds : List String

/-- The address a user is shared at: the Gmail of the member list, or else that of the account. -/
structure Target where
  email : String
  hasGoogle : Bool
  roleIds : List String

/-- The active users, and the Gmail that the member list has for each. -/
structure Roles where
  users : List ActiveUser
  gmails : String → Option String

variable (addresses : Addresses)

/-- `typeof gmail === "string" && gmail.includes("@") ? gmail.trim().toLowerCase() : null`. -/
def gmailOf (gmail : Option String) : Option String :=
  (gmail.filter fun text => '@' ∈ text.toList).map addresses.normalize

def targetOf (gmail : Option String) (user : ActiveUser) : Target :=
  ⟨addresses.normalize (gmail.getD user.email), gmail.isSome, user.roleIds⟩

def firstOfEach : List Target → List Target
  | [] => []
  | target :: rest => target :: (firstOfEach rest).filter fun other => other.email ≠ target.email

def shareTargets (targets : List Target) (roleId : String) : List Target :=
  firstOfEach (targets.filter fun target => roleId ∈ target.roleIds)

/-- Everyone, as they are now. -/
def Roles.targets (roles : Roles) : List Target :=
  roles.users.map fun user => targetOf addresses (gmailOf addresses (roles.gmails user.id)) user

/-- `.sort()`. -/
def sortEmails (emails : List String) : List String :=
  emails.insertionSort fun first second => codeUnits first ≤ codeUnits second

end Roles

end DubEcosystem.DriveShare
