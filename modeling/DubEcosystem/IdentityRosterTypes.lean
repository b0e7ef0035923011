import Mathlib.Data.String.Basic

/-!
# identity-roster: rows, requests and permission keys

The records of `repo/types.ts` and `dto.ts`, the permission catalog with the
normalisation of a role's keys, and the checks on texts and request bodies that
`service.ts` makes before it asks the store.
-/

namespace DubEcosystem.IdentityRoster

open List

abbrev PermissionKey := String

inductive UserStatus where
  | active
  | invited
  | disabled
  | rejected
  deriving DecidableEq

inductive UserSource where
  | manual
  | emailRouting
  deriving DecidableEq

inductive RoleAssignmentSource where
  | manual
  | autoMemberSync
  deriving DecidableEq

def AUTO_SOURCE : RoleAssignmentSource := .autoMemberSync

def ADMIN : PermissionKey := "identity:admin"

def MANAGED_ROLE_ID_PREFIX : String := "role_auto_"

def MAX_MANAGED_ROLES : Nat := 200

def MAX_LIMIT : Nat := 200

structure OrgRow where
  id : String
  name : String
  createdAt : String

structure UserRow where
  id : String
  orgId : String
  email : String
  displayName : String
  furigana : Option String
  githubLogin : Option String
  avatarUrl : Option String
  status : UserStatus
  source : UserSource
  createdAt : String
  updatedAt : String

structure RoleRow where
  id : String
  orgId : String
  name : String
  isSystem : Bool
  permissions : List PermissionKey
  createdAt : String
  updatedAt : String

/-- Without a resource the grant is org-wide; without a source it is manual. -/
structure AssignmentRow where
  id : String
  userId : String
  roleId : String
  orgId : String
  resourceType : Option String
  resourceId : Option String
  grantedBy : String
  grantedAt : String
  source : Option RoleAssignmentSource := none

variable (a : AssignmentRow)

/-- `a.source ?? "manual"`. -/
def AssignmentRow.sourceOf : RoleAssignmentSource :=
  a.source.getD .manual

def AssignmentRow.isAuto : Bool :=
  a.sourceOf = AUTO_SOURCE

def AssignmentRow.isOrgWide : Bool :=
  a.resourceType = none ∧ a.resourceId = none

@[simp]
theorem AssignmentRow.isOrgWide_eq_true {a : AssignmentRow} :
    a.isOrgWide = true ↔ a.resourceType = none ∧ a.resourceId = none := by
  simp [isOrgWide]

/-- The columns that `updateUser` sets; a column left out stays as it is. -/
structure UserPatch where
  displayName : Option String := none
  furigana : Option (Option String) := none
  githubLogin : Option (Option String) := none
  status : Option UserStatus := none
  source : Option UserSource := none
  avatarUrl : Option (Option String) := none

variable (row : UserRow)

def UserRow.patched (patch : UserPatch) (updatedAt : String) :
    UserRow :=
  { row with
    displayName := patch.displayName.getD row.displayName
    furigana := patch.furigana.getD row.furigana
    githubLogin := patch.githubLogin.getD row.githubLogin
    status := patch.status.getD row.status
    source := patch.source.getD row.source
    avatarUrl := patch.avatarUrl.getD row.avatarUrl
    updatedAt := updatedAt }

@[simp]
theorem UserRow.patched_id (patch : UserPatch) (updatedAt : String) :
    (row.patched patch updatedAt).id = row.id :=
  rfl

@[simp]
theorem UserRow.patched_status (patch : UserPatch) (updatedAt : String) :
    (row.patched patch updatedAt).status = patch.status.getD row.status :=
  rfl

/-- The columns that `updateRolePermissions` sets. -/
def RoleRow.patched (row : RoleRow) (name : Option String)
    (permissions : Option (List PermissionKey)) (updatedAt : String) : RoleRow :=
  { row with
    name := name.getD row.name
    permissions := permissions.getD row.permissions
    updatedAt := updatedAt }

@[simp]
theorem RoleRow.patched_id (row : RoleRow) (name : Option String)
    (permissions : Option (List PermissionKey)) (updatedAt : String) :
    (row.patched name permissions updatedAt).id = row.id :=
  rfl

structure FieldError where
  field : String
  reason : String
  message : Option String := none

inductive ErrorDetails where
  | none
  | fields (details : List FieldError)
  | code (code : String)
  | resource (resource id : String)

structure DubError where
  code : String
  message : String
  details : ErrorDetails

/-- What an operation may throw: an error of its own, a constraint of the
database, a `TypeError`, or whatever a collaborator throws. -/
inductive Thrown where
  | dub (error : DubError)
  | constraint
  | typeError
  | outside (message : String)

def validationFailed (details : List FieldError) : Thrown :=
  .dub { code := "VALIDATION_FAILED", message := "Validation failed"
         details := .fields details }

def notFound (resource id : String) : Thrown :=
  .dub { code := "NOT_FOUND", message := resource ++ " not found: " ++ id
         details := .resource resource id }

def conflict (message : String) (details : ErrorDetails) : Thrown :=
  .dub { code := "CONFLICT", message, details }

variable (text : String)

def codeUnits : List Nat :=
  text.toList.flatMap fun c =>
    if c.toNat < 0x10000 then [c.toNat]
    else [0xd800 + (c.toNat - 0x10000) / 0x400, 0xdc00 + (c.toNat - 0x10000) % 0x400]

/-- `.length`. -/
def jsLength : Nat :=
  (codeUnits text).length

/-- `.sort()`. -/
def sortTexts (texts : List String) : List String :=
  texts.mergeSort fun first second => decide (codeUnits first ≤ codeUnits second)

/-- `\s`. -/
def isSpace (c : Char) : Bool :=
  c.toNat ∈ [9, 10, 11, 12, 13, 32, 0xa0, 0x1680, 0x2028, 0x2029, 0x202f, 0x205f,
    0x3000, 0xfeff] ∨ (0x2000 ≤ c.toNat ∧ c.toNat ≤ 0x200a)

def trim : String :=
  String.ofList ((text.toList.dropWhile isSpace).reverse.dropWhile isSpace).reverse

/-- `.split("@")[0]`. -/
def beforeAt (email : String) : String :=
  String.ofList (email.toList.takeWhile fun c => c ≠ '@')

/-- `/^[^@\s]+@[^@\s]+\.[^@\s]+$/`. -/
def isEmail : Bool :=
  let name := text.toList.takeWhile fun c => c ≠ '@'
  let domain := (text.toList.dropWhile fun c => c ≠ '@').drop 1
  name ≠ [] ∧ (name ++ domain).all (fun c => !isSpace c) ∧ '@' ∉ domain ∧
    '.' ∈ (domain.drop 1).dropLast

/-- `/^[a-z][a-z0-9._-]{0,63}$/`. -/
def isTrigger : Bool :=
  match text.toList with
  | [] => false
  | first :: rest =>
    'a' ≤ first ∧ first ≤ 'z' ∧ rest.length ≤ 63 ∧
      rest.all fun c => ('a' ≤ c && c ≤ 'z') || ('0' ≤ c && c ≤ '9') ||
        c = '.' || c = '_' || c = '-'

def isManagedRoleId (id : String) : Bool :=
  MANAGED_ROLE_ID_PREFIX.toList.isPrefixOf id.toList

/-- A text that JavaScript takes for true. -/
def truthy (text : Option String) : Option String :=
  text.filter fun value => value ≠ ""

def PERMISSION_CATALOG : List PermissionKey :=
  ["identity:read", "identity:admin", "event:read", "event:write", "event:admin",
    "task:read", "task:write", "task:delete", "file:read", "file:write", "file:admin",
    "notif:send", "notif:admin", "notif:inbox:self", "notif:prefs:self",
    "notif:broadcast_publish", "notif:receive_admin", "notif:receive_all", "mail:send",
    "mail:read", "mail:read_all", "mail:read_role_shared", "mail:admin", "chat:create",
    "chat:moderate", "chat:delete_channel", "chat:slack_import", "chat:emoji_import",
    "chat:manage_sections", "chat:change_visibility", "usage:view", "infra:read",
    "infra:deploy", "infra:dns", "infra:admin", "audit:read", "github:read",
    "github:write", "github:sync", "github:admin", "drive:read", "drive:write",
    "drive:settings_view", "drive:settings_edit", "calendar:schedule_edit",
    "calendar:meetings_view", "calendar:meetings_edit", "webhook:read",
    "app:events:view", "app:events:edit", "app:tasks:view", "app:tasks:edit",
    "app:gantt:view", "app:gantt:edit", "app:calendar:view", "app:calendar:edit",
    "app:notifications:view", "app:notifications:edit", "app:chat:view",
    "app:chat:edit", "app:mail:view", "app:mail:edit", "app:usage:view",
    "app:usage:edit", "app:members:view", "app:members:edit", "app:participation:view",
    "app:participation:edit", "app:driveshare:view", "app:driveshare:edit",
    "app:admin:view", "app:admin:edit", "lp:publish", "app:lp:view", "app:lp:edit",
    "app:commander:view", "app:commander:edit", "hr:read", "hr:write", "hr:admin",
    "app:hr:view", "app:hr:edit", "sponsor:read", "sponsor:write", "sponsor:admin",
    "app:sponsor:view", "app:sponsor:edit", "members:roster_view",
    "members:roster_edit", "members:mail_view", "members:mail_edit", "goals:read",
    "app:goals:view", "app:goals:edit", "identity:impersonate"]

def isPermissionKey (key : String) : Bool :=
  key ∈ PERMISSION_CATALOG

structure Implied where
  edit : PermissionKey
  view : PermissionKey

/-- The `access` pair of each app of the manifest, in its order. -/
def APP_MANIFEST : List Implied :=
  [⟨"app:events:edit", "app:events:view"⟩, ⟨"app:tasks:edit", "app:tasks:view"⟩,
    ⟨"app:gantt:edit", "app:gantt:view"⟩, ⟨"app:calendar:edit", "app:calendar:view"⟩,
    ⟨"app:notifications:edit", "app:notifications:view"⟩,
    ⟨"app:chat:edit", "app:chat:view"⟩, ⟨"app:mail:edit", "app:mail:view"⟩,
    ⟨"app:usage:edit", "app:usage:view"⟩, ⟨"app:members:edit", "app:members:view"⟩,
    ⟨"app:participation:edit", "app:participation:view"⟩,
    ⟨"app:driveshare:edit", "app:driveshare:view"⟩, ⟨"app:lp:edit", "app:lp:view"⟩,
    ⟨"app:admin:edit", "app:admin:view"⟩,
    ⟨"app:commander:edit", "app:commander:view"⟩, ⟨"app:hr:edit", "app:hr:view"⟩,
    ⟨"app:sponsor:edit", "app:sponsor:view"⟩, ⟨"app:goals:edit", "app:goals:view"⟩]

def IMPLIED_DETAIL_KEYS : List Implied :=
  [⟨"drive:settings_edit", "drive:settings_view"⟩,
    ⟨"calendar:meetings_edit", "calendar:meetings_view"⟩,
    ⟨"members:mail_edit", "members:mail_view"⟩,
    ⟨"members:mail_edit", "members:roster_edit"⟩,
    ⟨"members:mail_view", "members:roster_view"⟩,
    ⟨"members:roster_edit", "members:roster_view"⟩]

/-- `if (set.has(edit)) set.add(view)`. -/
def addImplied (keys : List PermissionKey) (pair : Implied) : List PermissionKey :=
  if pair.edit ∈ keys ∧ pair.view ∉ keys then keys ++ [pair.view] else keys

def normalizeAppAccessKeys (granted : List PermissionKey) : List PermissionKey :=
  sortTexts ((APP_MANIFEST ++ IMPLIED_DETAIL_KEYS).foldl addImplied granted.eraseDups)

/-- The one normalisation of a role's keys before they are written. -/
def normalizePerms (keys : List PermissionKey) : List PermissionKey :=
  normalizeAppAccessKeys keys.eraseDups

variable {keys : List PermissionKey} {key : PermissionKey}

variable {pairs : List Implied}

theorem foldl_addImplied_subset (member : key ∈ keys) : key ∈ pairs.foldl addImplied keys := by
  induction pairs generalizing keys with
  | nil => exact member
  | cons pair pairs ih =>
    rw [foldl_cons]
    apply ih
    unfold addImplied
    split
    · exact mem_append_left [pair.view] member
    · exact member

theorem mem_foldl_addImplied (member : key ∈ pairs.foldl addImplied keys) :
    key ∈ keys ∨ ∃ pair ∈ pairs, pair.view = key := by
  induction pairs generalizing keys with
  | nil => exact Or.inl member
  | cons pair pairs ih =>
    rw [foldl_cons] at member
    rcases ih member with added | ⟨other, otherMem, implied⟩
    · unfold addImplied at added
      split at added
      · rcases mem_append.mp added with old | new
        · exact Or.inl old
        · rw [mem_singleton] at new
          exact Or.inr ⟨pair, .head _, new.symm⟩
      · exact Or.inl added
    · exact Or.inr ⟨other, mem_cons_of_mem pair otherMem, implied⟩

theorem mem_normalizePerms_of_mem (member : key ∈ keys) : key ∈ normalizePerms keys := by
  have distinct : key ∈ keys.eraseDups.eraseDups := by
    simpa [mem_eraseDups] using member
  have implied :
      key ∈ (APP_MANIFEST ++ IMPLIED_DETAIL_KEYS).foldl addImplied keys.eraseDups.eraseDups :=
    foldl_addImplied_subset distinct
  simpa [normalizePerms, normalizeAppAccessKeys, sortTexts] using implied

theorem isPermissionKey_of_mem_normalizePerms (inCatalog : ∀ key ∈ keys, isPermissionKey key = true)
    (member : key ∈ normalizePerms keys) : isPermissionKey key = true := by
  have implied : key ∈ (APP_MANIFEST ++ IMPLIED_DETAIL_KEYS).foldl addImplied
      keys.eraseDups.eraseDups := by
    simpa [normalizePerms, normalizeAppAccessKeys, sortTexts] using member
  rcases mem_foldl_addImplied implied with old | ⟨pair, pairMem, rfl⟩
  · exact inCatalog key (by simpa [mem_eraseDups] using old)
  · have viewsInCatalog : ∀ pair ∈ APP_MANIFEST ++ IMPLIED_DETAIL_KEYS,
        isPermissionKey pair.view = true := by decide
    exact viewsInCatalog pair pairMem

end DubEcosystem.IdentityRoster
