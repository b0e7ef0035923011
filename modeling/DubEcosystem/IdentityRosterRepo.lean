import DubEcosystem.IdentityRosterTypes
import DubEcosystem.KeyedTable
import DubEcosystem.PortPrograms

/-!
# identity-roster: the store

The `identity_*` tables, the statements of `repo/d1-repo.ts` over them, and the
calls that an operation of the service makes.  A write that would break a
constraint of the schema throws and changes nothing.
-/

namespace DubEcosystem.IdentityRoster

open Interleaving PortPrograms

/-- Its primary key is the whole row: the role and a role whose mail it sees. -/
abbrev MailVisibilityTable := KeyedTable fun pair : String × String => pair

structure Store where
  orgs : KeyedTable OrgRow.id
  users : KeyedTable UserRow.id
  roles : KeyedTable RoleRow.id
  assignments : KeyedTable AssignmentRow.id
  mailVisibility : MailVisibilityTable

/-- The columns of `uq_identity_role_assignments_scope`. -/
def AssignmentRow.scope (a : AssignmentRow) : String × String × String × String × String :=
  (a.userId, a.roleId, a.orgId, a.resourceType.getD "", a.resourceId.getD "")

namespace Store

def getUserByEmail (store : Store) (orgId email : String) : Option UserRow :=
  store.users.rows.find? fun row =>
    row.orgId = orgId ∧ row.email.toLower = email.toLower

def listUsersBySource (store : Store) (orgId : String) (source : UserSource) :
    List UserRow :=
  (store.users.rows.filter fun row => row.orgId = orgId ∧ row.source = source).mergeSort
    fun first second => decide (first.id ≤ second.id)

def getRoleByName (store : Store) (orgId name : String) : Option RoleRow :=
  store.roles.rows.find? fun row => row.orgId = orgId ∧ row.name = name

/-- A page of the roles of an organisation, and the cursor of the next one. -/
def listRoles (store : Store) (orgId : String) (limit : Nat) (cursor : String) :
    List RoleRow × Option String :=
  let items := ((store.roles.rows.filter fun row =>
    row.orgId = orgId ∧ cursor < row.id).mergeSort fun first second =>
      decide (first.id ≤ second.id)).take limit
  (items, if items.length = limit then items.getLast?.map RoleRow.id else none)

/-- `pages` pages of roles, from `cursor` on. -/
def rolePages (store : Store) (orgId : String) : Nat → String → List RoleRow
  | 0, _ => []
  | pages + 1, cursor =>
    let page := store.listRoles orgId MAX_LIMIT cursor
    match page.2 with
    | none => page.1
    | some next => page.1 ++ store.rolePages orgId pages next

/-- The pages of `allRoles`; no operation runs between two of them, and each but
the last moves past a role. -/
def allRoles (store : Store) (orgId : String) : List RoleRow :=
  store.rolePages orgId (store.roles.rows.length + 1) ""

def listAssignmentsByUser (store : Store) (userId orgId : String) :
    List AssignmentRow :=
  store.assignments.rows.filter fun a => a.userId = userId ∧ a.orgId = orgId

def findAssignment (store : Store) (userId roleId orgId : String)
    (resourceType resourceId : Option String) : Option AssignmentRow :=
  store.assignments.rows.find? fun a =>
    a.scope = (userId, roleId, orgId, resourceType.getD "", resourceId.getD "")

def listAssignmentsByRole (store : Store) (roleId : String) : List AssignmentRow :=
  store.assignments.rows.filter fun a => a.roleId = roleId

/-- The role of the assignment carries the key: the join with
`identity_role_permissions`. -/
def carries (store : Store) (a : AssignmentRow) (permission : PermissionKey) : Bool :=
  (store.roles.find? a.roleId).any fun role => permission ∈ role.permissions

def isActive (store : Store) (userId : String) : Bool :=
  (store.users.find? userId).any fun user => user.status = .active

def usersWithOrgWidePermission (store : Store) (orgId : String)
    (permission : PermissionKey) : List String :=
  ((store.assignments.rows.filter fun a =>
    a.orgId = orgId && a.isOrgWide && store.carries a permission &&
      store.isActive a.userId).map AssignmentRow.userId).eraseDups

def mailVisibilityByOrg (store : Store) (orgId : String) : List (String × String) :=
  (store.mailVisibility.rows.filter fun pair =>
    (store.roles.find? pair.1).any fun role => role.orgId = orgId).mergeSort
      fun first second => decide (first.1 < second.1 ∨ (first.1 = second.1 ∧ first.2 ≤ second.2))

/-- No other user has the login; `github_login` is unique. -/
def githubLoginFree (store : Store) (id : String) (login : Option String) : Bool :=
  login = none ∨ store.users.rows.all fun row => row.id = id ∨ row.githubLogin ≠ login

def createUser (store : Store) (row : UserRow) : Option Store :=
  if (store.orgs.find? row.orgId).isSome ∧
      (store.users.rows.all fun other =>
        ¬(other.orgId = row.orgId ∧ other.email = row.email)) ∧
      store.githubLoginFree row.id row.githubLogin then
    (store.users.insert? row).map fun users => { store with users }
  else none

def updateUser (store : Store) (userId : String) (patch : UserPatch)
    (updatedAt : String) : Option Store :=
  if (store.users.find? userId).isSome ∧
      ¬store.githubLoginFree userId (patch.githubLogin.getD none) then none
  else some
    { store with
      users := store.users.update (fun row => row.id = userId)
        (fun row => row.patched patch updatedAt) fun row =>
          row.patched_id patch updatedAt }

def isInvited (store : Store) (userId : String) : Bool :=
  (store.users.find? userId).any fun row => row.status = .invited

def activateIfInvited (store : Store) (userId updatedAt : String) : Store :=
  { store with
    users := store.users.update (fun row => row.id = userId ∧ row.status = .invited)
      (fun row => row.patched { status := some .active } updatedAt) fun row =>
        row.patched_id { status := some .active } updatedAt }

/-- The rows of `identity_role_mail_visibility` that a batch may insert. -/
def mailTargetsValid (store : Store) (roleId : String) (targets : List String) :
    Bool :=
  targets.Nodup ∧ roleId ∉ targets ∧ targets.all fun target => (store.roles.find? target).isSome

def insertMailTargets (store : Store) (roleId : String) (targets : List String) :
    Store :=
  { store with
    mailVisibility := targets.foldl
      (fun table target => table.insertOrIgnore (roleId, target)) store.mailVisibility }

def createRole (store : Store) (row : RoleRow) (mailVisibleRoleIds : List String) :
    Option Store :=
  if (store.orgs.find? row.orgId).isSome ∧
      (store.getRoleByName row.orgId row.name).isNone ∧ row.permissions.Nodup ∧
      store.mailTargetsValid row.id mailVisibleRoleIds then
    (store.roles.insert? row).map fun roles =>
      { store with roles }.insertMailTargets row.id mailVisibleRoleIds
  else none

/-- What the batch of `updateRolePermissions` may not break: the unique name, the
primary keys and the references of the two child tables. -/
def roleUpdateValid (store : Store) (roleId : String) (name : Option String)
    (permissions : Option (List PermissionKey))
    (mailVisibleRoleIds : Option (List String)) : Bool :=
  match store.roles.find? roleId with
  | none => permissions.getD [] = [] ∧ mailVisibleRoleIds.getD [] = []
  | some row =>
    (permissions.getD []).Nodup ∧ store.mailTargetsValid roleId (mailVisibleRoleIds.getD []) ∧
      store.roles.rows.all fun other =>
        ¬(other.id ≠ roleId ∧ other.orgId = row.orgId ∧ name = some other.name)

def updateRolePermissions (store : Store) (roleId : String) (name : Option String)
    (permissions : Option (List PermissionKey)) (updatedAt : String)
    (mailVisibleRoleIds : Option (List String)) : Option Store :=
  if store.roleUpdateValid roleId name permissions mailVisibleRoleIds then
    let updated :=
      { store with
        roles := store.roles.update (fun row => row.id = roleId)
          (fun row => row.patched name permissions updatedAt) fun row =>
            row.patched_id name permissions updatedAt }
    some (match mailVisibleRoleIds with
      | none => updated
      | some targets =>
        { updated with
          mailVisibility := store.mailVisibility.deleteWhere fun pair =>
            pair.1 = roleId }.insertMailTargets roleId targets)
  else none

def deleteRole (store : Store) (roleId : String) : Store where
  orgs := store.orgs
  users := store.users
  roles := store.roles.deleteWhere fun row => row.id = roleId
  assignments := store.assignments.deleteWhere fun a => a.roleId = roleId
  mailVisibility := store.mailVisibility.deleteWhere fun pair =>
    pair.1 = roleId ∨ pair.2 = roleId

def createAssignment (store : Store) (row : AssignmentRow) : Option Store :=
  if (store.users.find? row.userId).isSome ∧ (store.roles.find? row.roleId).isSome ∧
      (store.orgs.find? row.orgId).isSome ∧ (store.users.find? row.grantedBy).isSome ∧
      store.assignments.rows.all fun other => other.scope ≠ row.scope then
    (store.assignments.insert? { row with source := some row.sourceOf }).map
      fun assignments => { store with assignments }
  else none

def deleteAssignment (store : Store) (assignmentId : String) : Store :=
  { store with
    assignments := store.assignments.deleteWhere fun a => a.id = assignmentId }

def setAssignmentSource (store : Store) (assignmentId : String)
    (source : RoleAssignmentSource) : Store :=
  { store with
    assignments := store.assignments.update (fun a => a.id = assignmentId)
      (fun a => { a with source := some source }) fun _ => rfl }

end Store

inductive Detail where
  | null
  | text (value : String)
  | flag (value : Bool)
  | count (value : Nat)
  | texts (values : List String)

structure RequestCtx where
  requestId : String
  actorId : Option String

inductive AuditResult where
  | success
  | failure
  | denied
  deriving DecidableEq

structure AuditRecordInput where
  action : String
  actorId : Option String
  orgId : String
  result : AuditResult
  resourceType : Option String
  resourceId : Option String
  details : List (String × Detail)
  requestId : String
  occurredAt : String

/-- The calls of the service on its dependencies. -/
inductive Call where
  | now
  | newId (kind : String)
  | logSync (record : AuditRecordInput)
  | publish (record : AuditRecordInput)
  | revokeUser (userId : String) (ctx : RequestCtx)
  | getOrg (orgId : String)
  | getUser (userId : String)
  | getUserByEmail (orgId email : String)
  | listUsersBySource (orgId : String) (source : UserSource)
  | getRole (roleId : String)
  | getRoleByName (orgId name : String)
  | allRoles (orgId : String)
  | listAssignmentsByUser (userId orgId : String)
  | findAssignment (userId roleId orgId : String) (resourceType resourceId : Option String)
  | getAssignment (assignmentId : String)
  | listAssignmentsByRole (roleId : String)
  | usersWithOrgWidePermission (orgId : String) (permission : PermissionKey)
  | mailVisibilityByOrg (orgId : String)
  | createUser (row : UserRow)
  | updateUser (userId : String) (patch : UserPatch) (updatedAt : String)
  | activateIfInvited (userId updatedAt : String)
  | createRole (row : RoleRow) (mailVisibleRoleIds : List String)
  | updateRolePermissions (roleId : String) (name : Option String)
      (permissions : Option (List PermissionKey)) (updatedAt : String)
      (mailVisibleRoleIds : Option (List String))
  | deleteRole (roleId : String)
  | createAssignment (row : AssignmentRow)
  | deleteAssignment (assignmentId : String)
  | setAssignmentSource (assignmentId : String) (source : RoleAssignmentSource)

abbrev Result : Call → Type
  | .now => String
  | .newId _ => String
  | .logSync _ => Unit
  | .publish _ => Unit
  | .revokeUser _ _ => Unit
  | .getOrg _ => Option OrgRow
  | .getUser _ => Option UserRow
  | .getUserByEmail _ _ => Option UserRow
  | .listUsersBySource _ _ => List UserRow
  | .getRole _ => Option RoleRow
  | .getRoleByName _ _ => Option RoleRow
  | .allRoles _ => List RoleRow
  | .listAssignmentsByUser _ _ => List AssignmentRow
  | .findAssignment _ _ _ _ _ => Option AssignmentRow
  | .getAssignment _ => Option AssignmentRow
  | .listAssignmentsByRole _ => List AssignmentRow
  | .usersWithOrgWidePermission _ _ => List String
  | .mailVisibilityByOrg _ => List (String × String)
  | .createUser _ => Unit
  | .updateUser _ _ _ => Unit
  | .activateIfInvited _ _ => Bool
  | .createRole _ _ => Unit
  | .updateRolePermissions _ _ _ _ _ => Unit
  | .deleteRole _ => Unit
  | .createAssignment _ => Unit
  | .deleteAssignment _ => Unit
  | .setAssignmentSource _ _ => Unit

abbrev rosterPorts : Ports where
  Call := Call
  Result := Result

def Store.commit (store : Store) : Option Store → Except Thrown Unit × Store
  | some written => (.ok (), written)
  | none => (.error .constraint, store)

/-- What a call does to the store; the clock, the ids and the collaborators are
answered from outside. -/
def Store.exec : (call : Call) → Store → Option (Except Thrown (Result call) × Store)
  | .now, _ => none
  | .newId _, _ => none
  | .logSync _, _ => none
  | .publish _, _ => none
  | .revokeUser _ _, _ => none
  | .getOrg orgId, store => some (.ok (store.orgs.find? orgId), store)
  | .getUser userId, store => some (.ok (store.users.find? userId), store)
  | .getUserByEmail orgId email, store =>
    some (.ok (store.getUserByEmail orgId email), store)
  | .listUsersBySource orgId source, store =>
    some (.ok (store.listUsersBySource orgId source), store)
  | .getRole roleId, store => some (.ok (store.roles.find? roleId), store)
  | .getRoleByName orgId name, store => some (.ok (store.getRoleByName orgId name), store)
  | .allRoles orgId, store => some (.ok (store.allRoles orgId), store)
  | .listAssignmentsByUser userId orgId, store =>
    some (.ok (store.listAssignmentsByUser userId orgId), store)
  | .findAssignment userId roleId orgId resourceType resourceId, store =>
    some (.ok (store.findAssignment userId roleId orgId resourceType resourceId), store)
  | .getAssignment assignmentId, store =>
    some (.ok (store.assignments.find? assignmentId), store)
  | .listAssignmentsByRole roleId, store =>
    some (.ok (store.listAssignmentsByRole roleId), store)
  | .usersWithOrgWidePermission orgId permission, store =>
    some (.ok (store.usersWithOrgWidePermission orgId permission), store)
  | .mailVisibilityByOrg orgId, store =>
    some (.ok (store.mailVisibilityByOrg orgId), store)
  | .createUser row, store => some (store.commit (store.createUser row))
  | .updateUser userId patch updatedAt, store =>
    some (store.commit (store.updateUser userId patch updatedAt))
  | .activateIfInvited userId updatedAt, store =>
    some (.ok (store.isInvited userId), store.activateIfInvited userId updatedAt)
  | .createRole row mailVisibleRoleIds, store =>
    some (store.commit (store.createRole row mailVisibleRoleIds))
  | .updateRolePermissions roleId name permissions updatedAt mailVisibleRoleIds, store =>
    some (store.commit
      (store.updateRolePermissions roleId name permissions updatedAt mailVisibleRoleIds))
  | .deleteRole roleId, store => some (.ok (), store.deleteRole roleId)
  | .createAssignment row, store =>
    some (store.commit (store.createAssignment row))
  | .deleteAssignment assignmentId, store =>
    some (.ok (), store.deleteAssignment assignmentId)
  | .setAssignmentSource assignmentId source, store =>
    some (.ok (), store.setAssignmentSource assignmentId source)

def rosterMachine : Machine (rosterPorts.signature Thrown) Store where
  exec := Store.exec
  observe _ _ store := store

/-- A clock, fresh ids, and collaborators that accept everything. -/
def quietOutside : (request : Call) → Except Thrown (Result request)
  | .now => .ok "t1"
  | .newId kind => .ok kind
  | .logSync _ => .ok ()
  | .publish _ => .ok ()
  | .revokeUser _ _ => .ok ()
  | _ => .error .constraint

abbrev Roster (α : Type) := Action rosterPorts Thrown α

abbrev ask (request : Call) : Roster (Result request) :=
  port (P := rosterPorts) request

end DubEcosystem.IdentityRoster
