import DubEcosystem.DriveShareStore

/-!
# drive-share-service: sharing a file with a role

`createRoleGrantsService`: a grant is applied, applied again, revoked, and followed by the sync.
-/

namespace DubEcosystem.DriveShare

open IdentityRoster (codeUnits trim)
open PortPrograms

structure RoleGrantsDeps (addresses : Addresses) where
  orgId : String
  kicks : Bool

variable {addresses : Addresses} (deps : RoleGrantsDeps addresses)

def NON_GOOGLE_USER_JA : String :=
  "Google アカウントの無いアドレスとは共有できません（Drive が招待を許可していません）。" ++ "Gmail など Google アカウントのアドレスで共有してください。"

def NO_GMAIL_REASON : String :=
  "Google アカウントの無いアドレスのため共有できません。" ++ "名簿にこのメンバーの Gmail を登録すると、そのアドレスで共有されます。"

def WRITE_BUDGET_MS : Int :=
  8000

def MAX_WRITES_PER_CALL : Int :=
  25

/-- Sorts after every address: only those who have left remain. -/
def DEPARTED_PHASE_CURSOR : String :=
  "~"

def indexUserPermsByEmail (addresses : Addresses) (permissions : List SharePermission)
    (email : String) : Option SharePermission :=
  permissions.reverse.find? fun permission =>
    permission.type = .user ∧ permission.emailAddress.any fun address =>
      address ≠ "" ∧ addresses.normalize address = email

/-- Everyone is read once in a call. -/
def loadTargets (addresses : Addresses) (cached : Option (List Target)) : ShareM (List Target) :=
  match cached with
  | some targets => pure targets
  | none => do
    let users : List ActiveUser ← ask .activeUsers
    let google : String → Option String ← ask (.googleEmails (users.map ActiveUser.id))
    pure (users.map fun user => targetOf addresses (google user.id) user)

def assertRoleId (roleId : String) : ShareM Unit :=
  if trim roleId = "" then
    throw (validationFailed [⟨"roleId", "required"⟩] "ロールIDは必須です")
  else pure ()

def assertAssignable (driveRole : String) : ShareM AssignableDriveRole :=
  match driveRole with
  | "reader" => pure .reader
  | "commenter" => pure .commenter
  | "writer" => pure .writer
  | _ => throw (validationFailed [⟨"driveRole", "not_assignable"⟩] "指定できないロールです")

structure SkippedMember where
  email : String
  reason : String

structure ReconcileOptions where
  removeDeparted : Bool
  onlyGoogle : Bool
  cursor : Option String
  budgetMs : Int
  maxWrites : Int

/-- What a reconciliation works with once it has read the ledger, the roles and Drive. -/
structure Round where
  grant : GrantRow
  driveRole : AssignableDriveRole
  options : ReconcileOptions
  startedAt : Int
  prev : List GrantMemberRow
  live : String → Option SharePermission
  noGmail : List String

structure Progress where
  writes : Int
  created : Nat
  skipped : List SkippedMember
  invited : List String
  lastDone : Option String

/-- What was done about one address. -/
structure Handled where
  writes : Int
  created : Nat
  invited : Bool
  refusal : Option Thrown

variable (round : Round)

def Round.previous (email : String) : Option GrantMemberRow :=
  round.prev.find? fun row => row.email = email

def Round.budgetSpent (writes : Int) : ShareM Bool :=
  if round.options.maxWrites ≤ writes then pure true
  else do
    let now : Int ← ask .clock
    pure (decide (round.options.budgetMs ≤ now - round.startedAt))

def reasonFor (noGmail : List String) (email : String) : Thrown → String
  | .dub error =>
    if email ∈ noGmail ∧ error.message = NON_GOOGLE_USER_JA then NO_GMAIL_REASON
    else error.message
  | .outside _ => "共有できませんでした。"

def record (row : GrantMemberRow) : ShareM Unit :=
  if (round.previous row.email).any fun was =>
      was.permissionId = row.permissionId ∧ was.createdByUs = row.createdByUs then
    pure ()
  else query (.upsertMember row)

def recordLive (row : GrantMemberRow) (writes : Int) : ShareM Handled := do
  let recorded ← attempt (record round row)
  match recorded with
  | .error thrown => pure ⟨writes, 0, false, some thrown⟩
  | .ok _ => pure ⟨writes, 0, false, none⟩

def dropOurs (email : String) (invited : Bool) (thrown : Thrown) :
    ShareM Handled := do
  let dropped ← attempt (query (.deleteMember round.grant.id email))
  match dropped with
  | .error other => pure ⟨1, 0, invited, some other⟩
  | .ok _ => pure ⟨1, 0, invited, some thrown⟩

/-- The row goes in before the call to Drive. -/
def createOurs (email : String) : ShareM Handled := do
  let noted ← attempt (query (.upsertMember ⟨round.grant.id, email, none, true⟩))
  match noted with
  | .error thrown => pure ⟨0, 0, false, some thrown⟩
  | .ok _ => do
    let made ← attempt
      (ask (.createPermission round.grant.fileId round.driveRole.share email))
    match made with
    | .error thrown => dropOurs round email false thrown
    | .ok permission => do
      let recorded ← attempt
        (query (.upsertMember ⟨round.grant.id, email, some permission.id, true⟩))
      match recorded with
      | .error thrown => dropOurs round email permission.invited thrown
      | .ok _ => pure ⟨1, 1, permission.invited, none⟩

def keepOurs (email : String) (live : SharePermission) : ShareM Handled :=
  if live.role = round.driveRole.share then
    recordLive round ⟨round.grant.id, email, some live.id, true⟩ 0
  else do
    let corrected ← attempt
      (ask (.updatePermission round.grant.fileId live.id round.driveRole.share))
    match corrected with
    | .error thrown => pure ⟨1, 0, false, some thrown⟩
    | .ok _ => recordLive round ⟨round.grant.id, email, some live.id, true⟩ 1

def shareMember (email : String) : ShareM Handled :=
  match round.live email with
  | none => createOurs round email
  | some live =>
    if (round.previous email).any fun previous => previous.createdByUs ∧
        (previous.permissionId = some live.id ∨ previous.permissionId = none) then
      keepOurs round email live
    else recordLive round ⟨round.grant.id, email, some live.id, false⟩ 0

def Progress.after (progress : Progress) (round : Round) (email : String) (handled : Handled) :
    Progress where
  writes := progress.writes + handled.writes
  created := progress.created + handled.created
  skipped := progress.skipped ++ handled.refusal.toList.map fun thrown =>
    ⟨email, reasonFor round.noGmail email thrown⟩
  invited := progress.invited ++ if handled.invited then [email] else []
  lastDone := progress.lastDone

/-- The addresses in order; the cursor is where the next call goes on. -/
def shareAll (round : Round) : Progress → List String → ShareM (Progress × Option String)
  | progress, [] => pure (progress, none)
  | progress, email :: rest =>
    if round.options.cursor.any fun cursor => codeUnits email ≤ codeUnits cursor then
      shareAll round progress rest
    else do
      let spent ← round.budgetSpent progress.writes
      if spent then pure (progress, some (progress.lastDone.getD ""))
      else do
        let handled ← shareMember round email
        shareAll round { progress.after round email handled with lastDone := some email } rest

def nonEmpty (text : String) : Option String :=
  if text = "" then none else some text

def Round.ours (row : GrantMemberRow) : Option String :=
  if row.createdByUs then
    (row.permissionId.or ((round.live row.email).map SharePermission.id)).bind nonEmpty
  else none

def forget (email : String) (writes : Int) : ShareM Handled := do
  let dropped ← attempt (query (.deleteMember round.grant.id email))
  match dropped with
  | .error thrown => pure ⟨writes, 0, false, some thrown⟩
  | .ok _ => pure ⟨writes, 0, false, none⟩

def removeMember (row : GrantMemberRow) : ShareM Handled :=
  match round.ours row with
  | none => forget round row.email 0
  | some permissionId => do
    let held ← attempt (query (.emailHeldByOtherGrant deps.orgId round.grant.fileId
      round.grant.id row.email permissionId false))
    match held with
    | .error thrown => pure ⟨0, 0, false, some thrown⟩
    | .ok true => forget round row.email 0
    | .ok false => do
      let deleted ← attempt
        (ask (.deletePermission round.grant.fileId permissionId round.grant.id false))
      match deleted with
      | .error thrown => pure ⟨1, 0, false, some thrown⟩
      | .ok _ => forget round row.email 1

/-- Those who have left. -/
def removeAll (round : Round) (emails : List String) :
    Progress → List GrantMemberRow → ShareM (Progress × Option String)
  | progress, [] => pure (progress, none)
  | progress, row :: rest =>
    if row.email ∈ emails then removeAll round emails progress rest
    else do
      let spent ← round.budgetSpent progress.writes
      if spent then pure (progress, some DEPARTED_PHASE_CURSOR)
      else do
        let handled ← removeMember deps round row
        removeAll round emails (progress.after round row.email handled) rest

/-- `targets` and `emails` are what the reconciliation has read of the roles. -/
structure Reconciled where
  progress : Progress
  nextCursor : Option String
  remaining : Nat
  targets : List Target
  emails : List String

def reconcile (grant : GrantRow) (driveRole : AssignableDriveRole) (options : ReconcileOptions)
    (cached : Option (List Target)) : ShareM Reconciled := do
  let startedAt : Int ← ask .clock
  let prev : List GrantMemberRow ← query (.selectMembers grant.id)
  let all ← loadTargets addresses cached
  let targets := (shareTargets all grant.roleId).filter fun target =>
    !options.onlyGoogle || target.hasGoogle
  let emails := sortEmails (targets.map Target.email)
  let permissions : List SharePermission ← ask (.listPermissions grant.fileId)
  let round : Round :=
    { grant, driveRole, options, startedAt, prev
      live := indexUserPermsByEmail addresses permissions
      noGmail := (targets.filter fun target => !target.hasGoogle).map Target.email }
  let (shared, sharedCursor) ← shareAll round ⟨0, 0, [], [], options.cursor⟩ emails
  let (progress, nextCursor) ←
    if sharedCursor = none ∧ options.removeDeparted then removeAll deps round emails shared prev
    else pure (shared, sharedCursor)
  let remaining := match nextCursor with
    | none => 0
    | some cursor => (emails.filter fun email => codeUnits cursor < codeUnits email).length
  pure ⟨progress, nextCursor, remaining, all, emails⟩

structure RoleFileGrant where
  id : String
  fileId : String
  roleId : String
  roleName : String
  driveRole : AssignableDriveRole
  memberCount : Nat
  appliedCount : Nat
  grantedBy : String
  grantedAt : String
  skipped : List SkippedMember
  invited : List String
  nextCursor : Option String
  remaining : Nat

def toRoleFileGrant (grant : GrantRow) (done : Reconciled) : ShareM RoleFileGrant := do
  let members : List GrantMemberRow ← query (.selectMembers grant.id)
  let roleName : Option String ← ask (.roleName grant.roleId)
  pure
    { id := grant.id, fileId := grant.fileId, roleId := grant.roleId
      roleName := roleName.getD grant.roleId, driveRole := grant.driveRole
      memberCount := (shareTargets done.targets grant.roleId).length
      appliedCount := members.length, grantedBy := grant.grantedBy, grantedAt := grant.grantedAt
      skipped := done.progress.skipped, invited := done.progress.invited
      nextCursor := done.nextCursor, remaining := done.remaining }

def upsertGrant (row : GrantRow) : ShareM GrantRow := do
  let existing : Option GrantRow ← query (.selectGrant row.orgId row.fileId row.roleId)
  match existing with
  | some existing => do
    query (.updateGrant existing.id row.driveRole row.updatedAt)
    pure { existing with driveRole := row.driveRole, updatedAt := row.updatedAt }
  | none => do
    query (.insertGrant row)
    pure row

def kickSync : ShareM Unit := do
  let _ ← if deps.kicks then attempt (ask .kick) else pure (.ok ())
  pure ()

def idOf (existing : Option GrantRow) : ShareM String :=
  match existing with
  | some existing => pure existing.id
  | none => ask .newId

def apply (fileId actingUserId roleId driveRole : String) : ShareM RoleFileGrant := do
  assertRoleId roleId
  let driveRole ← assertAssignable driveRole
  let existing : Option GrantRow ← query (.selectGrant deps.orgId fileId roleId)
  let ts : String ← ask .now
  let id ← idOf existing
  let grant ← upsertGrant
    { id, orgId := deps.orgId, fileId, roleId, driveRole
      grantedBy := (existing.map GrantRow.grantedBy).getD actingUserId
      grantedAt := (existing.map GrantRow.grantedAt).getD ts, updatedAt := ts }
  let done ← reconcile deps grant driveRole
    ⟨false, false, none, WRITE_BUDGET_MS, MAX_WRITES_PER_CALL⟩ none
  kickSync deps
  toRoleFileGrant grant done

/-- The permissions that a grant has made are deleted, unless another grant holds them. -/
def giveUpAll (grant : GrantRow) : List GrantMemberRow → ShareM Unit
  | [] => pure ()
  | row :: rest =>
    match row.permissionId.bind nonEmpty with
    | none => giveUpAll grant rest
    | some permissionId =>
      if row.createdByUs then do
        let held : Bool ← query (.emailHeldByOtherGrant deps.orgId grant.fileId grant.id
          row.email permissionId true)
        if held then giveUpAll grant rest
        else do
          ask (.deletePermission grant.fileId permissionId grant.id true)
          giveUpAll grant rest
      else giveUpAll grant rest

def revoke (fileId roleId : String) : ShareM Unit := do
  assertRoleId roleId
  let found : Option GrantRow ← query (.selectGrant deps.orgId fileId roleId)
  match found with
  | none => pure ()
  | some grant => do
    let members : List GrantMemberRow ← query (.selectMembers grant.id)
    giveUpAll deps grant members
    query (.deleteMembers grant.id)
    query (.deleteGrant grant.id)

/-- What is returned, and the addresses of the role as they were read. -/
def reapplied (fileId roleId : String) (cursor : Option String) :
    ShareM (RoleFileGrant × List String) := do
  assertRoleId roleId
  let found : Option GrantRow ← query (.selectGrant deps.orgId fileId roleId)
  match found with
  | none => throw (notFound "driveRoleGrant" (fileId ++ ":" ++ roleId))
  | some grant => do
    let ts : String ← ask .now
    let updated ← upsertGrant { grant with updatedAt := ts }
    let done ← reconcile deps updated updated.driveRole
      ⟨true, false, cursor, WRITE_BUDGET_MS, MAX_WRITES_PER_CALL⟩ none
    let returned ← toRoleFileGrant updated done
    pure (returned, done.emails)

def reapply (fileId roleId : String) (cursor : Option String) : ShareM RoleFileGrant := do
  let (returned, _) ← reapplied deps fileId roleId cursor
  pure returned

structure RoleSyncResume where
  grantId : String
  cursor : String

structure RoleSyncResult where
  grants : Nat
  touched : Nat
  shared : Nat
  skipped : Nat
  resume : Option RoleSyncResume

def fromResume (resume : Option RoleSyncResume) (grants : List GrantRow) : List GrantRow :=
  match resume with
  | none => grants
  | some resume =>
    if grants.any fun grant => grant.id = resume.grantId then
      grants.dropWhile fun grant => grant.id ≠ resume.grantId
    else grants

/-- `cursor` is where the first of the grants goes on. -/
def syncAll (startedAt budgetMs : Int) : RoleSyncResult → Int → Option (List Target) →
    Option String → List GrantRow → ShareM RoleSyncResult
  | result, _, _, _, [] => pure result
  | result, writesLeft, cached, cursor, grant :: rest => do
    let now : Int ← ask .clock
    let msLeft := budgetMs - (now - startedAt)
    if writesLeft ≤ 0 ∨ msLeft ≤ 0 then
      pure { result with resume := some ⟨grant.id, cursor.getD ""⟩ }
    else do
      let members : List GrantMemberRow ← query (.selectMembers grant.id)
      let recorded := (members.filter fun row => row.permissionId.isSome).map
        GrantMemberRow.email
      let all ← loadTargets addresses cached
      let wanted := (shareTargets all grant.roleId).filter Target.hasGoogle
      if wanted.all fun target => target.email ∈ recorded then
        syncAll startedAt budgetMs result writesLeft (some all) none rest
      else do
        let done ← reconcile deps grant grant.driveRole
          ⟨false, true, cursor.bind nonEmpty, msLeft, writesLeft⟩ (some all)
        let result : RoleSyncResult :=
          { result with
            touched := result.touched + 1
            shared := result.shared + done.progress.created
            skipped := result.skipped + done.progress.skipped.length }
        match done.nextCursor with
        | some cursor => pure { result with resume := some ⟨grant.id, cursor⟩ }
        | none =>
          syncAll startedAt budgetMs result (writesLeft - done.progress.writes) (some all) none rest

def syncMembers (budgetMs maxWrites : Int) (resume : Option RoleSyncResume) :
    ShareM RoleSyncResult := do
  let startedAt : Int ← ask .clock
  let grants : List GrantRow ← query (.selectGrants deps.orgId)
  let cursor := (resume.filter fun resume =>
    grants.any fun grant => grant.id = resume.grantId).map RoleSyncResume.cursor
  syncAll deps startedAt budgetMs ⟨grants.length, 0, 0, 0, none⟩ maxWrites none cursor
    (fromResume resume grants)

end DubEcosystem.DriveShare
