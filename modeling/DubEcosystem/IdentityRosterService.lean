import DubEcosystem.IdentityRosterRepo
import DubEcosystem.SequentialPrograms

/-!
# identity-roster: the service

The operations of `IdentityService` in `service.ts` that write, as programs over
the calls of its dependencies.
-/

namespace DubEcosystem.IdentityRoster

open PortPrograms
open SequentialPrograms (Service)

/-- A value of a body that is not typed: a string, or anything else with the text
that `String(value)` gives for it. -/
inductive Untyped where
  | string (value : String)
  | other (shown : String)

def Untyped.string? : Untyped → Option String
  | .string value => some value
  | .other _ => none

def Untyped.shown : Untyped → String
  | .string value => value
  | .other shown => shown

structure InviteUserRequest where
  email : String
  displayName : Option String
  furigana : Option String
  roleIds : Option (List String)

structure ProvisionUserRequest where
  email : String
  displayName : String
  githubLogin : Option String

structure ActivateInvitedUserRequest where
  trigger : Option String
  dryRun : Bool

structure UpdateUserRequest where
  displayName : Option String
  furigana : Option (Option String)
  githubLogin : Option (Option String)
  status : Option UserStatus

structure UpdateOwnProfileRequest where
  displayName : Option Untyped
  avatarUrl : Option (Option Untyped)

structure EmailRoutingAddressInput where
  address : Option String
  enabled : Option Bool

/-- `addresses` if it is an array. -/
structure SyncEmailRoutingRequest where
  addresses : Option (List EmailRoutingAddressInput)

structure RoutingAddress where
  email : String
  enabled : Bool

structure CreateRoleRequest where
  name : String
  permissions : Option (List Untyped)
  mailVisibleRoleIds : Option (Option (List Untyped))

structure UpdateRoleRequest where
  name : Option String
  permissions : Option (Option (List Untyped))
  mailVisibleRoleIds : Option (Option (List Untyped))

structure AssignRoleRequest where
  roleId : String
  resourceType : Option String
  resourceId : Option String

/-- `id` and `name` if they are strings. -/
structure RawManagedRole where
  id : Option String
  name : Option String

structure ManagedRoleSpec where
  id : String
  name : String

/-- `roles` if it is an array. -/
structure PutManagedRolesRequest where
  roles : Option (List RawManagedRole)
  dryRun : Bool

structure IdentityUserView where
  id : String
  orgId : String
  displayName : String
  furigana : Option String
  email : String
  githubLogin : Option String
  avatarUrl : Option String
  status : UserStatus
  source : UserSource
  roleIds : List String
  createdAt : String
  updatedAt : String

inductive ProvisionStatus where
  | existing
  | provisioned
  | rejected
  deriving DecidableEq

structure ProvisionUserResponse where
  status : ProvisionStatus
  user : Option IdentityUserView

structure ActivateInvitedUserResponse where
  dryRun : Bool
  activated : Bool
  previousStatus : UserStatus
  status : UserStatus

inductive OffboardStep where
  | revokeSessions
  | revokeRoles
  | disableAccount
  deriving DecidableEq

structure OffboardStepResult where
  step : OffboardStep
  skipped : Bool
  detail : Option String

structure OffboardUserResult where
  user : IdentityUserView
  revokedAssignments : Nat
  alreadyDisabled : Bool
  steps : List OffboardStepResult

structure SyncEmailRoutingResult where
  added : Nat
  updated : Nat
  deactivated : Nat
  total : Nat

structure RoleView where
  id : String
  orgId : String
  name : String
  permissions : List PermissionKey
  isSystem : Bool
  mailVisibleRoleIds : List String

structure RoleAssignmentView where
  id : String
  userId : String
  roleId : String
  roleName : String
  resourceType : Option String
  resourceId : Option String
  grantedBy : String
  grantedAt : String
  source : RoleAssignmentSource

structure EnsuredRoles where
  created : List String
  renamed : List String

structure PutManagedRoleCatalogResponse where
  dryRun : Bool
  created : List String
  renamed : List String
  deleted : List String
  kept : List String

structure PutUserManagedRolesResponse where
  dryRun : Bool
  added : List String
  removed : List String
  manual : List String

def statusText : UserStatus → String
  | .active => "active"
  | .invited => "invited"
  | .disabled => "disabled"
  | .rejected => "rejected"

def orgWideRoleIds (assignments : List AssignmentRow) : List String :=
  ((assignments.filter AssignmentRow.isOrgWide).map AssignmentRow.roleId).eraseDups

def toIdentityUser (u : UserRow) (assignments : List AssignmentRow) : IdentityUserView where
  id := u.id
  orgId := u.orgId
  displayName := u.displayName
  furigana := u.furigana
  email := u.email
  githubLogin := u.githubLogin
  avatarUrl := u.avatarUrl
  status := u.status
  source := u.source
  roleIds := orgWideRoleIds assignments
  createdAt := u.createdAt
  updatedAt := u.updatedAt

def toRole (r : RoleRow) (mailVisibleRoleIds : List String) : RoleView where
  id := r.id
  orgId := r.orgId
  name := r.name
  permissions := r.permissions
  isSystem := r.isSystem
  mailVisibleRoleIds := mailVisibleRoleIds

def toAssignmentView (a : AssignmentRow) (roleName : String) : RoleAssignmentView where
  id := a.id
  userId := a.userId
  roleId := a.roleId
  roleName := roleName
  resourceType := a.resourceType
  resourceId := a.resourceId
  grantedBy := a.grantedBy
  grantedAt := a.grantedAt
  source := a.sourceOf

variable (toLowerCase : String → String)

def requireEmail (email : String) :
    Except Thrown String :=
  let v := trim email
  if v = "" ∨ ¬isEmail v then
    .error (validationFailed [{ field := "email", reason := "invalid" }])
  else .ok (toLowerCase v)

def requireNonEmpty (v field : String) : Except Thrown String :=
  let s := trim v
  if s = "" then .error (validationFailed [{ field, reason := "required" }]) else .ok s

/-- The complaint about one element of a permission list. -/
def badPermissionKey (key : Untyped) (i : Nat) : Option FieldError :=
  if key.string?.any isPermissionKey then none
  else some
    { field := "permissions[" ++ toString i ++ "]", reason := "not_in_catalog"
      message := some key.shown }

def assertPermissionKeys (keys : Option (List Untyped)) : Except Thrown (List PermissionKey) :=
  match keys with
  | none =>
    .error (validationFailed [{ field := "permissions", reason := "invalid" }])
  | some keys =>
    let bad := keys.zipIdx.filterMap fun (key, i) => badPermissionKey key i
    if bad ≠ [] then
      .error (.dub
        { code := "VALIDATION_FAILED", message := "unknown permission key(s)"
          details := .fields bad })
    else .ok (keys.filterMap Untyped.string?)

def assertOptionalKeys (keys : Option (Option (List Untyped))) :
    Except Thrown (Option (List PermissionKey)) :=
  match keys with
  | none => .ok none
  | some keys => (assertPermissionKeys keys).map some

def addAddress (out : List RoutingAddress)
    (a : EmailRoutingAddressInput) : Except Thrown (List RoutingAddress) :=
  match requireEmail toLowerCase (a.address.getD "") with
  | .error thrown => .error thrown
  | .ok email =>
    if email ∈ out.map RoutingAddress.email then .ok out
    else .ok (out ++ [{ email, enabled := a.enabled ≠ some false }])

def normalizeRoutingAddresses
    (req : SyncEmailRoutingRequest) : Except Thrown (List RoutingAddress) :=
  match req.addresses with
  | none => .error (validationFailed [{ field := "addresses", reason := "required" }])
  | some addresses => addresses.foldlM (addAddress toLowerCase) []

variable (specs : List ManagedRoleSpec)

/-- `byId.set(id, spec)`. -/
def setSpec (spec : ManagedRoleSpec) :
    List ManagedRoleSpec :=
  if spec.id ∈ specs.map ManagedRoleSpec.id then
    specs.map fun other => if other.id = spec.id then spec else other
  else specs ++ [spec]

def addManagedRole (r : RawManagedRole) : Except Thrown (List ManagedRoleSpec) :=
  let id := r.id.getD ""
  let name := (r.name.map trim).getD ""
  if ¬isManagedRoleId id ∨ 200 < jsLength id ∨ name = "" ∨ 200 < jsLength name then
    .error (validationFailed [{ field := "roles", reason := "invalid", message := some id }])
  else .ok (setSpec specs { id, name })

def parseManagedRoles (raw : Option (List RawManagedRole)) : Except Thrown (List ManagedRoleSpec) :=
  match raw with
  | none => .error (validationFailed [{ field := "roles", reason := "invalid" }])
  | some roles =>
    if MAX_MANAGED_ROLES < roles.length then
      .error (validationFailed [{ field := "roles", reason := "invalid" }])
    else roles.foldlM addManagedRole []

def throwIf (condition : Prop) [Decidable condition] (thrown : Thrown) : Roster Unit :=
  if condition then throw thrown else pure ()

def runIf (condition : Prop) [Decidable condition] (action : Roster Unit) :
    Roster Unit :=
  if condition then action else pure ()

def forEach {α : Type} (items : List α) (step : α → Roster Unit) : Roster Unit :=
  items.foldlM (fun _ item => step item) ()

def checked {α : Type} (outcome : Except Thrown α) : Roster α :=
  match outcome with
  | .error thrown => throw thrown
  | .ok value => pure value

variable (userId : String)

def userOf (orgId : String) : Roster UserRow := do
  match ← ask (.getUser userId) with
  | none => throw (notFound "user" userId)
  | some user =>
    if user.orgId = orgId then pure user else throw (notFound "user" userId)

def roleOf (roleId orgId : String) : Roster RoleRow := do
  match ← ask (.getRole roleId) with
  | none => throw (notFound "role" roleId)
  | some role =>
    if role.orgId = orgId then pure role else throw (notFound "role" roleId)

/-- `(await getUser(userId))!`. -/
def rereadUser : Roster UserRow := do
  match ← ask (.getUser userId) with
  | none => throw .typeError
  | some user => pure user

def viewUser (user : UserRow) (orgId : String) : Roster IdentityUserView := do
  let assignments : List AssignmentRow ← ask (.listAssignmentsByUser user.id orgId)
  pure (toIdentityUser user assignments)

variable (action : String)

def record (result : AuditResult) (ctx : RequestCtx) (orgId : String)
    (resourceType resourceId : Option String) (details : List (String × Detail)) :
    Roster AuditRecordInput := do
  let occurredAt : String ← ask .now
  pure
    { action, actorId := ctx.actorId, orgId, result, resourceType, resourceId, details
      requestId := ctx.requestId, occurredAt }

def publishSuccess (ctx : RequestCtx) (orgId resourceType : String)
    (resourceId : String) (details : List (String × Detail)) : Roster Unit := do
  let input : AuditRecordInput ←
    record action .success ctx orgId (some resourceType) (some resourceId) details
  ask (.publish input)

def logSuccess (ctx : RequestCtx) (orgId resourceType : String)
    (resourceId : String) (details : List (String × Detail)) : Roster Unit := do
  let input : AuditRecordInput ←
    record action .success ctx orgId (some resourceType) (some resourceId) details
  ask (.logSync input)

section Users

variable (toLowerCase : String → String)

variable (orgId : String)

def requireRole (roleId : String) : Roster Unit := do
  let role : Option RoleRow ← ask (.getRole roleId)
  throwIf (role.all fun role => role.orgId ≠ orgId) (validationFailed
      [{ field := "roleIds", reason := "unknown_role", message := some roleId }])

def inviteAssignment (user : UserRow) (ctx : RequestCtx) (now roleId : String) :
    Roster Unit := do
  let id : String ← ask (.newId "ra")
  ask (.createAssignment
    { id, userId := user.id, roleId, orgId := user.orgId, resourceType := none
      resourceId := none, grantedBy := ctx.actorId.getD user.id, grantedAt := now })

def invite (req : InviteUserRequest) (ctx : RequestCtx) :
    Roster IdentityUserView := do
  let email : String ← checked (requireEmail toLowerCase req.email)
  let org : Option OrgRow ← ask (.getOrg orgId)
  throwIf (org = none) (notFound "org" orgId)
  let existing : Option UserRow ← ask (.getUserByEmail orgId email)
  throwIf existing.isSome (conflict ("email already on roster: " ++ email) (.code "EMAIL_EXISTS"))
  let roleIds := req.roleIds.getD []
  forEach roleIds (requireRole orgId)
  let now : String ← ask .now
  let id : String ← ask (.newId "user")
  let user : UserRow :=
    { id, orgId, email, displayName := req.displayName.getD (beforeAt email)
      furigana := truthy (req.furigana.map trim), githubLogin := none
      avatarUrl := none, status := .invited, source := .manual, createdAt := now
      updatedAt := now }
  ask (.createUser user)
  forEach roleIds (inviteAssignment user ctx now)
  publishSuccess "identity.user.invited" ctx orgId "user" user.id [("email", .text email)]
  viewUser user orgId

/-- `provision` for an email on the roster. -/
def provisionExisting (email : String) (req : ProvisionUserRequest)
    (ctx : RequestCtx) (existing : UserRow) : Roster ProvisionUserResponse :=
  match existing.status with
  | .active => do
    let user : IdentityUserView ← viewUser existing orgId
    pure { status := .existing, user := some user }
  | .invited => do
    let now : String ← ask .now
    logSuccess "identity.user.provisioned" ctx orgId "user" existing.id [("email", .text email)]
    ask (.updateUser existing.id
      { status := some .active
        displayName := some ((truthy (some req.displayName)).getD existing.displayName)
        githubLogin := (truthy req.githubLogin).map some } now)
    let updated : UserRow ← rereadUser existing.id
    let user : IdentityUserView ← viewUser updated orgId
    pure { status := .provisioned, user := some user }
  | status =>
    throw (conflict ("user is " ++ statusText status ++ "; cannot provision")
      (.code "USER_NOT_INVITED"))

def provision (req : ProvisionUserRequest) (ctx : RequestCtx) :
    Roster ProvisionUserResponse := do
  let email : String ← checked (requireEmail toLowerCase req.email)
  match ← ask (.getUserByEmail orgId email) with
  | none => do
    let input : AuditRecordInput ←
      record "identity.user.provisioned" .denied ctx orgId (some "user") none
        [("email", .text email), ("reason", .text "not_invited")]
    ask (.publish input)
    pure { status := .rejected, user := none }
  | some existing => provisionExisting orgId email req ctx existing

variable (userId : String)

def activateInvited (orgId : String) (req : ActivateInvitedUserRequest)
    (ctx : RequestCtx) : Roster ActivateInvitedUserResponse := do
  let trigger := (req.trigger.map trim).getD ""
  throwIf (¬isTrigger trigger) (validationFailed [{ field := "trigger", reason := "invalid" }])
  let user : UserRow ← userOf userId orgId
  if user.status ≠ .invited then
    pure
      { dryRun := req.dryRun, activated := false, previousStatus := user.status
        status := user.status }
  else if req.dryRun then
    pure
      { dryRun := true, activated := true, previousStatus := .invited
        status := .invited }
  else do
    logSuccess "identity.user.provisioned" ctx orgId "user" userId
      [("via", .text "member-roster"), ("trigger", .text trigger)]
    let now : String ← ask .now
    let activated : Bool ← ask (.activateIfInvited userId now)
    let updated : UserRow ← rereadUser userId
    pure
      { dryRun := false, activated, previousStatus := .invited
        status := updated.status }

/-- Whether the user is the one holder that the lockout guards protect. -/
def isLastAdmin (admins : List String) (userId : String) : Bool :=
  admins.length = 1 ∧ admins.head? = some userId

/-- What `updateUser` does first when it takes an active account out of use. -/
def suspend (orgId : String) (ctx : RequestCtx) : Roster Unit := do
  let admins : List String ← ask (.usersWithOrgWidePermission orgId ADMIN)
  throwIf (isLastAdmin admins userId)
    (conflict "cannot disable the last identity:admin holder" (.code "LAST_ADMIN"))
  ask (.revokeUser userId ctx)

def updateUserPatch (req : UpdateUserRequest) : UserPatch where
  displayName := req.displayName
  furigana := req.furigana.map fun furigana => truthy (furigana.map trim)
  githubLogin := req.githubLogin
  status := req.status

/-- `Object.keys(patch)`. -/
def UserPatch.keys (patch : UserPatch) : List String :=
  (if patch.displayName.isSome then ["displayName"] else []) ++
    (if patch.furigana.isSome then ["furigana"] else []) ++
    (if patch.githubLogin.isSome then ["githubLogin"] else []) ++
    (if patch.status.isSome then ["status"] else []) ++
    (if patch.avatarUrl.isSome then ["avatarUrl"] else [])

def updateUser (orgId : String) (req : UpdateUserRequest) (ctx : RequestCtx) :
    Roster IdentityUserView := do
  let user : UserRow ← userOf userId orgId
  runIf (req.status.any (fun status => status ≠ .active) ∧ user.status = .active)
    (suspend userId orgId ctx)
  let patch := updateUserPatch req
  let now : String ← ask .now
  ask (.updateUser userId patch now)
  publishSuccess "identity.user.updated" ctx orgId "user" userId [("fields", .texts patch.keys)]
  let updated : UserRow ← rereadUser userId
  viewUser updated orgId

def MAX_DISPLAY_NAME_LEN : Nat := 80

def MAX_AVATAR_URL_LEN : Nat := 700000

def profileDisplayName (displayName : Option Untyped) : Except Thrown (Option String) :=
  match displayName with
  | none => .ok none
  | some (.other _) =>
    .error (validationFailed [{ field := "displayName", reason := "invalid" }])
  | some (.string value) =>
    if trim value = "" then
      .error (validationFailed [{ field := "displayName", reason := "required" }])
    else if MAX_DISPLAY_NAME_LEN < jsLength (trim value) then
      .error (validationFailed [{ field := "displayName", reason := "too_long" }])
    else .ok (some (trim value))

def profileAvatarUrl (avatarUrl : Option (Option Untyped)) :
    Except Thrown (Option (Option String)) :=
  match avatarUrl with
  | none => .ok none
  | some none => .ok (some none)
  | some (some (.other _)) =>
    .error (validationFailed [{ field := "avatarUrl", reason := "invalid" }])
  | some (some (.string value)) =>
    if MAX_AVATAR_URL_LEN < jsLength value then
      .error (validationFailed [{ field := "avatarUrl", reason := "too_long" }])
    else .ok (some (some value))

def updateOwnProfile (orgId : String) (req : UpdateOwnProfileRequest)
    (ctx : RequestCtx) : Roster IdentityUserView := do
  let _user : UserRow ← userOf userId orgId
  let displayName : Option String ← checked (profileDisplayName req.displayName)
  let avatarUrl : Option (Option String) ← checked (profileAvatarUrl req.avatarUrl)
  let patch : UserPatch := { displayName, avatarUrl }
  runIf (patch.keys ≠ []) (do
    let now : String ← ask .now
    ask (.updateUser userId patch now)
    publishSuccess "identity.user.profile_updated" ctx orgId "user" userId
      [("fields", .texts patch.keys)])
  let updated : UserRow ← rereadUser userId
  viewUser updated orgId

def offboardSteps (user : UserRow) (assignments : List AssignmentRow) :
    List OffboardStepResult :=
  let alreadyDisabled : Bool := user.status ≠ .active
  [if alreadyDisabled then
      { step := .revokeSessions, skipped := true, detail := some "account not active" }
    else { step := .revokeSessions, skipped := false, detail := none },
    { step := .revokeRoles, skipped := assignments.length = 0
      detail := some (toString assignments.length) },
    if alreadyDisabled then
      { step := .disableAccount, skipped := true
        detail := some (statusText user.status) }
    else { step := .disableAccount, skipped := false, detail := none }]

def disableAccount : Roster Unit := do
  let now : String ← ask .now
  ask (.updateUser userId { status := some .disabled } now)

def offboardUser (orgId : String) (ctx : RequestCtx) :
    Roster OffboardUserResult := do
  let user : UserRow ← userOf userId orgId
  let admins : List String ← ask (.usersWithOrgWidePermission orgId ADMIN)
  throwIf (isLastAdmin admins userId)
    (conflict "cannot offboard the last identity:admin holder" (.code "LAST_ADMIN"))
  let alreadyDisabled : Bool := user.status ≠ .active
  runIf (¬alreadyDisabled) (ask (.revokeUser userId ctx))
  let assignments : List AssignmentRow ← ask (.listAssignmentsByUser userId orgId)
  forEach assignments fun a => ask (.deleteAssignment a.id)
  runIf (¬alreadyDisabled) (disableAccount userId)
  publishSuccess "identity.user.offboarded" ctx orgId "user" userId
    [("revokedAssignments", .count assignments.length), ("alreadyDisabled", .flag alreadyDisabled)]
  let updated : UserRow ← rereadUser userId
  let view : IdentityUserView ← viewUser updated orgId
  pure
    { user := view, revokedAssignments := assignments.length, alreadyDisabled
      steps := offboardSteps user assignments }

end Users

section EmailRouting

variable (toLowerCase : String → String)

def routedUser (orgId id now : String) (address : RoutingAddress) : UserRow where
  id := id
  orgId := orgId
  email := address.email
  displayName := beforeAt address.email
  furigana := none
  githubLogin := none
  avatarUrl := none
  status := if address.enabled then .active else .disabled
  source := .emailRouting
  createdAt := now
  updatedAt := now

variable (address : RoutingAddress)

/-- An address is back whose row the sync takes for one it disabled itself. -/
def reactivates (existing : UserRow) : Bool :=
  address.enabled ∧ existing.status = .disabled ∧ existing.source = .emailRouting

def routedPatch (existing : UserRow) : UserPatch where
  source := some .emailRouting
  status := if reactivates address existing then some .active else none

def syncAddress (orgId now : String) (counts : Nat × Nat) (address : RoutingAddress) :
    Roster (Nat × Nat) := do
  match ← ask (.getUserByEmail orgId address.email) with
  | none => do
    let id : String ← ask (.newId "user")
    ask (.createUser (routedUser orgId id now address))
    pure (counts.1 + 1, counts.2)
  | some existing => do
    ask (.updateUser existing.id (routedPatch address existing) now)
    pure (counts.1, counts.2 + 1)

def isStaleRow (seen admins : List String) (u : UserRow) : Bool :=
  toLowerCase u.email ∉ seen ∧ u.status ≠ .disabled ∧ u.id ∉ admins

def deactivateRow (seen admins : List String) (now : String) (deactivated : Nat)
    (u : UserRow) : Roster Nat :=
  if isStaleRow toLowerCase seen admins u then do
    ask (.updateUser u.id { status := some .disabled } now)
    pure (deactivated + 1)
  else pure deactivated

def syncEmailRouting (orgId : String) (req : SyncEmailRoutingRequest)
    (ctx : RequestCtx) : Roster SyncEmailRoutingResult := do
  let org : Option OrgRow ← ask (.getOrg orgId)
  throwIf (org = none) (notFound "org" orgId)
  let normalized : List RoutingAddress ←
    checked (normalizeRoutingAddresses toLowerCase req)
  let seen := normalized.map RoutingAddress.email
  let now : String ← ask .now
  let counts : Nat × Nat ← normalized.foldlM (syncAddress orgId now) (0, 0)
  let admins : List String ← ask (.usersWithOrgWidePermission orgId ADMIN)
  let owned : List UserRow ← ask (.listUsersBySource orgId .emailRouting)
  let deactivated : Nat ← owned.foldlM (deactivateRow toLowerCase seen admins now) 0
  let result : SyncEmailRoutingResult :=
    { added := counts.1, updated := counts.2, deactivated, total := normalized.length }
  publishSuccess "identity.roster.synced" ctx orgId "org" orgId
    [("added", .count result.added), ("updated", .count result.updated),
      ("deactivated", .count result.deactivated), ("total", .count result.total)]
  pure result

end EmailRouting

variable (orgId : String)

def checkMailTarget (roleId id : String) : Roster Unit := do
  throwIf (id = roleId) (validationFailed
      [{ field := "mailVisibleRoleIds", reason := "self", message := some id }])
  let target : Option RoleRow ← ask (.getRole id)
  throwIf (target.all fun target => target.orgId ≠ orgId) (validationFailed
      [{ field := "mailVisibleRoleIds", reason := "unknown_role", message := some id }])

/-- Distinct roles of the organisation, never the role itself. -/
def normalizeMailVisibleRoleIds (roleId : String) (ids : Option (List Untyped)) :
    Roster (List String) :=
  match ids.bind fun ids => ids.mapM Untyped.string? with
  | none =>
    throw (validationFailed [{ field := "mailVisibleRoleIds", reason := "invalid" }])
  | some ids => do
    let unique := sortTexts ids.eraseDups
    forEach unique (checkMailTarget orgId roleId)
    pure unique

def optionalMailTargets (roleId : String) (ids : Option (Option (List Untyped))) :
    Roster (Option (List String)) :=
  match ids with
  | none => pure none
  | some ids => do
    let unique : List String ← normalizeMailVisibleRoleIds orgId roleId ids
    pure (some unique)

def mailVisibleRoleIdsOf (r : RoleRow) : Roster (List String) := do
  let pairs : List (String × String) ← ask (.mailVisibilityByOrg r.orgId)
  pure ((pairs.filter fun pair => pair.1 = r.id).map Prod.snd)

def roleNameExists (name : String) : Thrown :=
  conflict ("role name exists: " ++ name) (.code "ROLE_NAME_EXISTS")

def createRole (req : CreateRoleRequest) (ctx : RequestCtx) :
    Roster RoleView := do
  let name : String ← checked (requireNonEmpty req.name "name")
  let permissions : List PermissionKey ← checked (assertPermissionKeys req.permissions)
  let org : Option OrgRow ← ask (.getOrg orgId)
  throwIf (org = none) (notFound "org" orgId)
  let clash : Option RoleRow ← ask (.getRoleByName orgId name)
  throwIf clash.isSome (roleNameExists name)
  let now : String ← ask .now
  let id : String ← ask (.newId "role")
  let role : RoleRow :=
    { id, orgId, name, isSystem := false, permissions := normalizePerms permissions
      createdAt := now, updatedAt := now }
  let targets : Option (List String) ←
    optionalMailTargets orgId role.id req.mailVisibleRoleIds
  let mailVisible := targets.getD []
  ask (.createRole role mailVisible)
  publishSuccess "identity.role.created" ctx orgId "role" role.id
    [("name", .text name), ("mailVisibleRoleIds", .texts mailVisible)]
  pure (toRole role mailVisible)

/-- The self-lockout guard of `updateRole`. -/
def stripsBuiltInAdmin (role : RoleRow) (permissions : Option (List PermissionKey)) :
    Bool :=
  permissions.any fun keys => role.isSystem ∧ role.name = "admin" ∧ ADMIN ∉ keys

def checkRoleName (role : RoleRow) (name : Option String) :
    Roster Unit :=
  match name with
  | none => pure ()
  | some name =>
    if name = role.name then pure ()
    else do
      let clash : Option RoleRow ← ask (.getRoleByName orgId name)
      throwIf clash.isSome (roleNameExists name)

def updateRole (roleId orgId : String) (req : UpdateRoleRequest) (ctx : RequestCtx) :
    Roster RoleView := do
  let role : RoleRow ← roleOf roleId orgId
  let permissions : Option (List PermissionKey) ←
    checked (assertOptionalKeys req.permissions)
  throwIf (stripsBuiltInAdmin role permissions)
    (conflict "cannot remove identity:admin from the admin role" (.code "LAST_ADMIN"))
  checkRoleName orgId role req.name
  let mailVisible : Option (List String) ←
    optionalMailTargets orgId roleId req.mailVisibleRoleIds
  let now : String ← ask .now
  ask (.updateRolePermissions roleId req.name (permissions.map normalizePerms) now mailVisible)
  publishSuccess "identity.role.updated" ctx orgId "role" roleId
    (("permissionChange", .flag permissions.isSome) ::
      (mailVisible.map fun ids => ("mailVisibleRoleIds", Detail.texts ids)).toList)
  match ← ask (.getRole roleId) with
  | none => throw .typeError
  | some updated => do
    let visible : List String ← mailVisibleRoleIdsOf updated
    pure (toRole updated visible)

def isOrgWideAdminGrant (role : Option RoleRow) (a : AssignmentRow) : Bool :=
  a.isOrgWide ∧ role.any fun role => ADMIN ∈ role.permissions

/-- One step of the count of `countOrgWideAdminGrants`. -/
def countGrant (n : Nat) (a : AssignmentRow) : Roster Nat :=
  if a.isOrgWide then do
    let role : Option RoleRow ← ask (.getRole a.roleId)
    pure (if isOrgWideAdminGrant role a then n + 1 else n)
  else pure n

def countOrgWideAdminGrants (orgId : String) : Roster Nat := do
  let assignments : List AssignmentRow ← ask (.listAssignmentsByUser userId orgId)
  assignments.foldlM countGrant 0

/-- `holders.has(userId) ? 1 : 0`. -/
def ownGrants (holders : List String) (userId : String) : Nat :=
  if userId ∈ holders then 1 else 0

/-- Whether one of the admins holds a grant besides those in `holders`. -/
def anyAdminSurvives (orgId : String) (holders : List String) : List String → Roster Bool
  | [] => pure false
  | userId :: rest => do
    let grants : Nat ← countOrgWideAdminGrants userId orgId
    if ownGrants holders userId < grants then pure true
    else anyAdminSurvives orgId holders rest

def adminSurvivesRoleDelete (roleId orgId : String) : Roster Bool := do
  let assignments : List AssignmentRow ← ask (.listAssignmentsByRole roleId)
  let holders := (assignments.filter AssignmentRow.isOrgWide).map AssignmentRow.userId
  let admins : List String ← ask (.usersWithOrgWidePermission orgId ADMIN)
  anyAdminSurvives orgId holders admins

/-- What `deleteRole` asks before it deletes a role with the admin key. -/
def guardRoleDelete (roleId orgId : String) : Roster Unit := do
  let survives : Bool ← adminSurvivesRoleDelete roleId orgId
  throwIf (¬survives) (conflict "このロールを削除すると管理者が 0 人になるため削除できません" (.code "LAST_ADMIN"))

def deleteRole (roleId orgId : String) (ctx : RequestCtx) : Roster Unit := do
  let role : RoleRow ← roleOf roleId orgId
  throwIf role.isSystem (conflict "system roles are not deletable" (.code "SYSTEM_ROLE"))
  runIf (ADMIN ∈ role.permissions) (guardRoleDelete roleId orgId)
  ask (.deleteRole roleId)
  publishSuccess "identity.role.deleted" ctx orgId "role" roleId []

def resourceDetails (req : AssignRoleRequest) : List (String × Detail) :=
  [("roleId", .text req.roleId), ("resourceType", (req.resourceType.map Detail.text).getD .null),
    ("resourceId", (req.resourceId.map Detail.text).getD .null)]

/-- An admin grants a role that the sync already gave. -/
def pinAssignment (orgId : String) (req : AssignRoleRequest) (ctx : RequestCtx)
    (role : RoleRow) (existing : AssignmentRow) : Roster RoleAssignmentView := do
  logSuccess "identity.role.assigned" ctx orgId "user" userId
    (resourceDetails req ++ [("pinned", .flag true)])
  ask (.setAssignmentSource existing.id .manual)
  pure (toAssignmentView { existing with source := some .manual } role.name)

def grantRole (orgId : String) (req : AssignRoleRequest) (ctx : RequestCtx)
    (role : RoleRow) : Roster RoleAssignmentView := do
  let now : String ← ask .now
  let id : String ← ask (.newId "ra")
  let assignment : AssignmentRow :=
    { id, userId, roleId := req.roleId, orgId, resourceType := req.resourceType
      resourceId := req.resourceId, grantedBy := ctx.actorId.getD userId
      grantedAt := now }
  logSuccess "identity.role.assigned" ctx orgId "user" userId (resourceDetails req)
  ask (.createAssignment assignment)
  pure (toAssignmentView assignment role.name)

def assignRole (orgId : String) (req : AssignRoleRequest) (ctx : RequestCtx) :
    Roster RoleAssignmentView := do
  let _user : UserRow ← userOf userId orgId
  let role : RoleRow ← roleOf req.roleId orgId
  throwIf (req.resourceType.isNone ≠ req.resourceId.isNone) (validationFailed
      [{ field := "resourceId", reason := "scope_incomplete"
         message := some "resourceType and resourceId must be set together" }])
  match ← ask (.findAssignment userId req.roleId orgId req.resourceType
      req.resourceId) with
  | none => grantRole userId orgId req ctx role
  | some existing =>
    if existing.isAuto then pinAssignment userId orgId req ctx role existing
    else throw (conflict "assignment already exists" (.code "ASSIGNMENT_EXISTS"))

def assignmentOf (assignmentId orgId : String) : Roster AssignmentRow := do
  match ← ask (.getAssignment assignmentId) with
  | none => throw (notFound "assignment" assignmentId)
  | some a =>
    if a.userId = userId ∧ a.orgId = orgId then pure a
    else throw (notFound "assignment" assignmentId)

def guardRevoke (orgId : String) : Roster Unit := do
  let admins : List String ← ask (.usersWithOrgWidePermission orgId ADMIN)
  let grants : Nat ← countOrgWideAdminGrants userId orgId
  throwIf (isLastAdmin admins userId ∧ grants = 1)
    (conflict "cannot revoke the last identity:admin grant in the org" (.code "LAST_ADMIN"))

def revokeRole (assignmentId orgId : String) (ctx : RequestCtx) :
    Roster Unit := do
  let assignment : AssignmentRow ← assignmentOf userId assignmentId orgId
  let role : Option RoleRow ← ask (.getRole assignment.roleId)
  runIf (isOrgWideAdminGrant role assignment) (guardRevoke userId orgId)
  logSuccess "identity.role.revoked" ctx orgId "user" userId
    [("assignmentId", .text assignmentId), ("roleId", .text assignment.roleId)]
  ask (.deleteAssignment assignmentId)

def autoName (spec : ManagedRoleSpec) : String :=
  spec.name ++ "（自動）"

def managedRoleName (spec : ManagedRoleSpec) : Roster String := do
  let clash : Option RoleRow ← ask (.getRoleByName orgId spec.name)
  pure (if clash.all fun clash => clash.id = spec.id then spec.name else autoName spec)

def createManagedRole (name : String) (ctx : RequestCtx)
    (spec : ManagedRoleSpec) : Roster Unit := do
  let now : String ← ask .now
  ask (.createRole
    { id := spec.id, orgId, name, isSystem := false, permissions := []
      createdAt := now, updatedAt := now } [])
  publishSuccess "identity.role.created" ctx orgId "role" spec.id
    [("name", .text name), ("managed", .flag true)]

def renameManagedRole (name : String) (ctx : RequestCtx)
    (spec : ManagedRoleSpec) : Roster Unit := do
  let now : String ← ask .now
  ask (.updateRolePermissions spec.id (some name) none now none)
  publishSuccess "identity.role.updated" ctx orgId "role" spec.id
    [("name", .text name), ("managed", .flag true)]

def ensureManagedRole (dryRun : Bool) (ctx : RequestCtx)
    (done : EnsuredRoles) (spec : ManagedRoleSpec) : Roster EnsuredRoles := do
  let cur : Option RoleRow ← ask (.getRole spec.id)
  throwIf (cur.any fun cur => cur.orgId ≠ orgId)
    (conflict ("role " ++ spec.id ++ " belongs to another org") .none)
  let name : String ← managedRoleName orgId spec
  match cur with
  | none => do
    runIf (¬dryRun) (createManagedRole orgId name ctx spec)
    pure { done with created := done.created ++ [spec.id] }
  | some cur =>
    if cur.name ≠ name ∧ cur.name ≠ autoName spec then do
      runIf (¬dryRun) (renameManagedRole orgId name ctx spec)
      pure { done with renamed := done.renamed ++ [spec.id] }
    else pure done

def ensureManagedRoles (specs : List ManagedRoleSpec) (dryRun : Bool)
    (ctx : RequestCtx) : Roster EnsuredRoles :=
  specs.foldlM (ensureManagedRole orgId dryRun ctx) { created := [], renamed := [] }

def isUnlisted (wanted : List String) (roleId : String) : Bool :=
  isManagedRoleId roleId ∧ roleId ∉ wanted

def isRemovable (role : RoleRow) (assignments : List AssignmentRow) : Bool :=
  assignments.length = (assignments.filter AssignmentRow.isAuto).length ∧ role.permissions = []

def deleteManagedRole (ctx : RequestCtx) (role : RoleRow) :
    Roster Unit := do
  ask (.deleteRole role.id)
  publishSuccess "identity.role.deleted" ctx orgId "role" role.id [("managed", .flag true)]

/-- An unlisted role loses its automatic assignments, and goes if nothing else
depends on it. -/
def dropManagedRole (ctx : RequestCtx) (role : RoleRow)
    (assignments : List AssignmentRow) : Roster Unit := do
  forEach (assignments.filter AssignmentRow.isAuto) fun a => ask (.deleteAssignment a.id)
  runIf (isRemovable role assignments) (deleteManagedRole orgId ctx role)

structure PrunedRoles where
  deleted : List String
  kept : List String

def pruneManagedRole (wanted : List String) (dryRun : Bool)
    (ctx : RequestCtx) (done : PrunedRoles) (role : RoleRow) : Roster PrunedRoles :=
  if isUnlisted wanted role.id then do
    let assignments : List AssignmentRow ← ask (.listAssignmentsByRole role.id)
    runIf (¬dryRun) (dropManagedRole orgId ctx role assignments)
    pure (if isRemovable role assignments
      then { done with deleted := done.deleted ++ [role.id] }
      else { done with kept := done.kept ++ [role.id] })
  else pure done

def syncManagedRoleCatalog (req : PutManagedRolesRequest)
    (ctx : RequestCtx) : Roster PutManagedRoleCatalogResponse := do
  let specs : List ManagedRoleSpec ← checked (parseManagedRoles req.roles)
  let ensured : EnsuredRoles ← ensureManagedRoles orgId specs req.dryRun ctx
  let wanted := specs.map ManagedRoleSpec.id
  let roles : List RoleRow ← ask (.allRoles orgId)
  let pruned : PrunedRoles ←
    roles.foldlM (pruneManagedRole orgId wanted req.dryRun ctx) { deleted := [], kept := [] }
  pure
    { dryRun := req.dryRun, created := ensured.created, renamed := ensured.renamed
      deleted := pruned.deleted, kept := pruned.kept }

def actorOf (ctx : RequestCtx) (userId : String) : Roster String :=
  match truthy ctx.actorId with
  | none => pure userId
  | some actorId => do
    let actor : Option UserRow ← ask (.getUser actorId)
    pure (if actor.isSome then actorId else userId)

def addAutoAssignment (orgId actor roleId : String) : Roster Unit := do
  let id : String ← ask (.newId "ra")
  let now : String ← ask .now
  ask (.createAssignment
    { id, userId, roleId, orgId, resourceType := none, resourceId := none
      grantedBy := actor, grantedAt := now, source := some AUTO_SOURCE })

/-- An automatic org-wide assignment that is no longer wanted. -/
def isStaleAssignment (wanted : List String) (a : AssignmentRow) : Bool :=
  a.isAuto ∧ a.roleId ∉ wanted

variable (orgWide : List AssignmentRow)

def isMissing (roleId : String) : Bool :=
  orgWide.all fun a => a.roleId ≠ roleId

def isManual (roleId : String) : Bool :=
  (orgWide.find? fun a => a.roleId = roleId).any fun a => !a.isAuto

def applyUserManagedRoles (orgId : String) (ctx : RequestCtx)
    (added : List String) (stale : List AssignmentRow) : Roster Unit := do
  let actor : String ← actorOf ctx userId
  forEach added (addAutoAssignment userId orgId actor)
  forEach stale fun a => ask (.deleteAssignment a.id)
  publishSuccess "identity.role.managed_synced" ctx orgId "user" userId
    [("added", .texts added), ("removed", .texts (stale.map AssignmentRow.roleId))]

def syncUserManagedRoles (orgId : String) (req : PutManagedRolesRequest)
    (ctx : RequestCtx) : Roster PutUserManagedRolesResponse := do
  let _user : UserRow ← userOf userId orgId
  let specs : List ManagedRoleSpec ← checked (parseManagedRoles req.roles)
  let _ensured : EnsuredRoles ← ensureManagedRoles orgId specs req.dryRun ctx
  let assignments : List AssignmentRow ← ask (.listAssignmentsByUser userId orgId)
  let orgWide := assignments.filter AssignmentRow.isOrgWide
  let wanted := specs.map ManagedRoleSpec.id
  let added := wanted.filter (isMissing orgWide)
  let stale := orgWide.filter (isStaleAssignment wanted)
  runIf (¬req.dryRun ∧ ¬(added = [] ∧ stale = []))
    (applyUserManagedRoles userId orgId ctx added stale)
  pure
    { dryRun := req.dryRun, added, removed := stale.map AssignmentRow.roleId
      manual := wanted.filter (isManual orgWide) }

/-- The operations of the service that write. -/
inductive Op where
  | invite (orgId : String) (req : InviteUserRequest) (ctx : RequestCtx)
  | provision (orgId : String) (req : ProvisionUserRequest) (ctx : RequestCtx)
  | activateInvited (userId orgId : String) (req : ActivateInvitedUserRequest) (ctx : RequestCtx)
  | updateUser (userId orgId : String) (req : UpdateUserRequest) (ctx : RequestCtx)
  | updateOwnProfile (userId orgId : String) (req : UpdateOwnProfileRequest) (ctx : RequestCtx)
  | offboardUser (userId orgId : String) (ctx : RequestCtx)
  | syncEmailRouting (orgId : String) (req : SyncEmailRoutingRequest) (ctx : RequestCtx)
  | createRole (orgId : String) (req : CreateRoleRequest) (ctx : RequestCtx)
  | updateRole (roleId orgId : String) (req : UpdateRoleRequest) (ctx : RequestCtx)
  | deleteRole (roleId orgId : String) (ctx : RequestCtx)
  | assignRole (userId orgId : String) (req : AssignRoleRequest) (ctx : RequestCtx)
  | revokeRole (userId assignmentId orgId : String) (ctx : RequestCtx)
  | syncManagedRoleCatalog (orgId : String) (req : PutManagedRolesRequest) (ctx : RequestCtx)
  | syncUserManagedRoles (userId orgId : String) (req : PutManagedRolesRequest) (ctx : RequestCtx)

/-- Run for its effects. -/
def discard {α : Type} (action : Roster α) : Roster Unit := do
  let _value ← action
  pure ()

def Op.program : Op → Roster Unit
  | .invite orgId req ctx => discard (IdentityRoster.invite toLowerCase orgId req ctx)
  | .provision orgId req ctx =>
    discard (IdentityRoster.provision toLowerCase orgId req ctx)
  | .activateInvited userId orgId req ctx =>
    discard (IdentityRoster.activateInvited userId orgId req ctx)
  | .updateUser userId orgId req ctx =>
    discard (IdentityRoster.updateUser userId orgId req ctx)
  | .updateOwnProfile userId orgId req ctx =>
    discard (IdentityRoster.updateOwnProfile userId orgId req ctx)
  | .offboardUser userId orgId ctx =>
    discard (IdentityRoster.offboardUser userId orgId ctx)
  | .syncEmailRouting orgId req ctx =>
    discard (IdentityRoster.syncEmailRouting toLowerCase orgId req ctx)
  | .createRole orgId req ctx => discard (IdentityRoster.createRole orgId req ctx)
  | .updateRole roleId orgId req ctx =>
    discard (IdentityRoster.updateRole roleId orgId req ctx)
  | .deleteRole roleId orgId ctx => IdentityRoster.deleteRole roleId orgId ctx
  | .assignRole userId orgId req ctx =>
    discard (IdentityRoster.assignRole userId orgId req ctx)
  | .revokeRole userId assignmentId orgId ctx =>
    IdentityRoster.revokeRole userId assignmentId orgId ctx
  | .syncManagedRoleCatalog orgId req ctx =>
    discard (IdentityRoster.syncManagedRoleCatalog orgId req ctx)
  | .syncUserManagedRoles userId orgId req ctx =>
    discard (IdentityRoster.syncUserManagedRoles userId orgId req ctx)

def identityService : Service rosterPorts Thrown Store Op where
  machine := rosterMachine
  program := Op.program toLowerCase

end DubEcosystem.IdentityRoster
