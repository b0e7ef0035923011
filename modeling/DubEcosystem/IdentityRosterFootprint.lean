import DubEcosystem.IdentityRosterMoves

/-!
# identity-roster: the writes of each operation

Most calls of an operation only read, or reach a collaborator.  `Op.Writes` says
which other calls an operation may issue, whatever its calls are answered, and
`op_footprint` shows it for all operations.
-/

namespace DubEcosystem.IdentityRoster

open PortPrograms List

/-- A call that leaves the store alone. -/
def Call.IsQuiet : Call → Prop
  | .createUser _ => False
  | .updateUser _ _ _ => False
  | .activateIfInvited _ _ => False
  | .createRole _ _ => False
  | .updateRolePermissions _ _ _ _ _ => False
  | .deleteRole _ => False
  | .createAssignment _ => False
  | .deleteAssignment _ => False
  | .setAssignmentSource _ _ => False
  | _ => True

theorem eq_of_isQuiet {call : Call} {before after : Store}
    {answer : Except Thrown (Result call)} (quiet : call.IsQuiet)
    (answers : rosterMachine.Answers call before answer after) : after = before := by
  cases move_of_answers answers with
  | still => rfl
  | _ => exact quiet.elim

/-- Whatever its calls are answered, the action issues only `permitted` ones. -/
abbrev Issues {α : Type} (permitted : Call → Prop) (action : Roster α) : Prop :=
  Keeps (P := rosterPorts) (fun _ _ => True) permitted action

section Helpers

variable {α : Type} {permitted : Call → Prop}

theorem issues_throwIf {condition : Prop} [Decidable condition] {thrown : Thrown} :
    Issues permitted (throwIf condition thrown) := by
  unfold throwIf
  split
  · exact Keeps.throw
  · exact Keeps.pure

theorem issues_runIf {condition : Prop} [Decidable condition] {action : Roster Unit}
    (issues : condition → Issues permitted action) :
    Issues permitted (runIf condition action) := by
  unfold runIf
  split
  · rename_i holds
    exact issues holds
  · exact Keeps.pure

theorem issues_forEach {items : List α} {step : α → Roster Unit}
    (each : ∀ item ∈ items, Issues permitted (step item)) :
    Issues permitted (forEach items step) :=
  Keeps.foldlM fun _ item member => each item member

variable {outcome : Except Thrown α}

theorem issues_checked : Issues permitted (checked outcome) := by
  cases outcome with
  | error thrown => exact Keeps.throw
  | ok value => exact Keeps.pure

theorem issues_checked_bind {β : Type} {continuation : α → Roster β}
    (rest : ∀ value, outcome = .ok value → Issues permitted (continuation value)) :
    Issues permitted (checked outcome >>= continuation) := by
  cases outcome with
  | error thrown => exact Keeps.throw
  | ok value => exact rest value rfl

/-- Quiet calls are permitted. -/
class AllowsQuiet (permitted : Call → Prop) : Prop where
  allows : ∀ call : Call, call.IsQuiet → permitted call

instance : AllowsQuiet Call.IsQuiet :=
  ⟨fun _ quiet => quiet⟩

variable [AllowsQuiet permitted]

theorem issues_ask {request : Call} (quiet : request.IsQuiet) :
    Issues permitted (port (P := rosterPorts) request) :=
  Keeps.port (AllowsQuiet.allows _ quiet)

theorem issues_ask_bind {request : Call} {continuation : Result request → Roster α}
    (quiet : request.IsQuiet) (rest : ∀ result, Issues permitted (continuation result)) :
    Issues permitted (port (P := rosterPorts) request >>= continuation) :=
  Keeps.bind (issues_ask quiet) rest

variable {userId orgId : String}

theorem issues_userOf : Issues permitted (userOf userId orgId) := by
  refine issues_ask_bind trivial ?_
  rintro (_ | user)
  · exact Keeps.throw
  · simp only []
    split
    · exact Keeps.pure
    · exact Keeps.throw

variable {roleId : String}

theorem issues_roleOf : Issues permitted (roleOf roleId orgId) := by
  refine issues_ask_bind trivial ?_
  rintro (_ | role)
  · exact Keeps.throw
  · simp only []
    split
    · exact Keeps.pure
    · exact Keeps.throw

theorem issues_rereadUser : Issues permitted (rereadUser userId) := by
  refine issues_ask_bind trivial ?_
  rintro (_ | user)
  · exact Keeps.throw
  · exact Keeps.pure

variable {orgId : String}

theorem issues_viewUser {user : UserRow} : Issues permitted (viewUser user orgId) :=
  issues_ask_bind trivial fun _ => Keeps.pure

theorem issues_rereadAndView :
    Issues permitted (rereadUser userId >>= fun updated => viewUser updated orgId) :=
  Keeps.bind issues_rereadUser fun _ => issues_viewUser

variable {ctx : RequestCtx} {details : List (String × Detail)}

variable {action : String}

theorem issues_record {result : AuditResult} {resourceType resourceId : Option String} :
    Issues permitted (record action result ctx orgId resourceType resourceId details) :=
  issues_ask_bind trivial fun _ => Keeps.pure

theorem issues_publishSuccess {resourceType resourceId : String} :
    Issues permitted (publishSuccess action ctx orgId resourceType resourceId details) :=
  Keeps.bind issues_record fun _ => issues_ask trivial

theorem issues_logSuccess {resourceType resourceId : String} :
    Issues permitted (logSuccess action ctx orgId resourceType resourceId details) :=
  Keeps.bind issues_record fun _ => issues_ask trivial

theorem issues_requireRole : Issues permitted (requireRole orgId roleId) :=
  issues_ask_bind trivial fun _ => issues_throwIf

theorem issues_suspend : Issues permitted (suspend userId orgId ctx) := by
  refine issues_ask_bind trivial fun admins => ?_
  exact Keeps.bind issues_throwIf fun _ => issues_ask trivial

theorem issues_optionalMailTargets {ids : Option (Option (List Untyped))} :
    Issues permitted (optionalMailTargets orgId roleId ids) := by
  have checkTarget : ∀ id, Issues permitted (checkMailTarget orgId roleId id) := by
    intro id
    refine Keeps.bind issues_throwIf fun _ => ?_
    exact issues_ask_bind trivial fun _ => issues_throwIf
  cases ids with
  | none => exact Keeps.pure
  | some ids =>
    refine Keeps.bind ?_ fun _ => Keeps.pure
    unfold normalizeMailVisibleRoleIds
    split
    · exact Keeps.throw
    · refine Keeps.bind (issues_forEach fun id _ => checkTarget id) fun _ => ?_
      exact Keeps.pure

theorem issues_checkRoleName {role : RoleRow} {name : Option String} :
    Issues permitted (checkRoleName orgId role name) := by
  cases name with
  | none => exact Keeps.pure
  | some name =>
    unfold checkRoleName
    simp only []
    split
    · exact Keeps.pure
    · exact issues_ask_bind trivial fun _ => issues_throwIf

theorem issues_countOrgWideAdminGrants :
    Issues permitted (countOrgWideAdminGrants userId orgId) := by
  refine issues_ask_bind trivial fun assignments => ?_
  refine Keeps.foldlM fun n a _ => ?_
  unfold countGrant
  split
  · exact issues_ask_bind trivial fun _ => Keeps.pure
  · exact Keeps.pure

theorem issues_anyAdminSurvives {holders admins : List String} :
    Issues permitted (anyAdminSurvives orgId holders admins) := by
  induction admins with
  | nil => exact Keeps.pure
  | cons userId rest ih =>
    refine Keeps.bind issues_countOrgWideAdminGrants fun grants => ?_
    simp only []
    split
    · exact Keeps.pure
    · exact ih

theorem issues_guardRoleDelete : Issues permitted (guardRoleDelete roleId orgId) := by
  refine Keeps.bind ?_ fun _ => issues_throwIf
  refine issues_ask_bind trivial fun _ => ?_
  exact issues_ask_bind trivial fun _ => issues_anyAdminSurvives

theorem issues_assignmentOf {assignmentId : String} :
    Issues permitted (assignmentOf userId assignmentId orgId) := by
  refine issues_ask_bind trivial ?_
  rintro (_ | a)
  · exact Keeps.throw
  · simp only []
    split
    · exact Keeps.pure
    · exact Keeps.throw

theorem issues_guardRevoke : Issues permitted (guardRevoke userId orgId) := by
  refine issues_ask_bind trivial fun _ => ?_
  exact Keeps.bind issues_countOrgWideAdminGrants fun _ => issues_throwIf

theorem issues_managedRoleName {spec : ManagedRoleSpec} :
    Issues permitted (managedRoleName orgId spec) :=
  issues_ask_bind trivial fun _ => Keeps.pure

theorem issues_actorOf : Issues permitted (actorOf ctx userId) := by
  unfold actorOf
  split
  · exact Keeps.pure
  · exact issues_ask_bind trivial fun _ => Keeps.pure

end Helpers

section Operations

/-- The writes an operation may issue; quiet calls are always possible. -/
def Op.Writes : Op → Call → Prop
  | .invite orgId _ _, call =>
    match call with
    | .createUser row =>
      row.orgId = orgId ∧ row.status = .invited ∧ row.source = .manual
    | .createAssignment _ => True
    | _ => False
  | .provision _ _ _, call =>
    match call with
    | .updateUser _ patch _ => patch.status = some .active ∧ patch.source = none
    | _ => False
  | .activateInvited userId _ _ _, call =>
    match call with
    | .activateIfInvited id _ => id = userId
    | _ => False
  | .updateUser userId _ req _, call =>
    match call with
    | .updateUser id patch _ => id = userId ∧ patch = updateUserPatch req
    | _ => False
  | .updateOwnProfile userId _ _ _, call =>
    match call with
    | .updateUser id patch _ =>
      id = userId ∧ patch.status = none ∧ patch.source = none
    | _ => False
  | .offboardUser userId _ _, call =>
    match call with
    | .updateUser id patch _ => id = userId ∧ patch = { status := some .disabled }
    | .deleteAssignment _ => True
    | _ => False
  | .syncEmailRouting orgId _ _, call =>
    match call with
    | .createUser row => row.orgId = orgId ∧ row.source = .emailRouting
    | .updateUser _ _ _ => True
    | _ => False
  | .createRole _ _ _, call =>
    match call with
    | .createRole row _ => ∀ key ∈ row.permissions, isPermissionKey key = true
    | _ => False
  | .updateRole roleId _ req _, call =>
    match call with
    | .updateRolePermissions id _ permissions _ _ =>
      id = roleId ∧ ∃ keys, assertOptionalKeys req.permissions = .ok keys ∧
        permissions = keys.map normalizePerms
    | _ => False
  | .deleteRole roleId _ _, call =>
    match call with
    | .deleteRole id => id = roleId
    | _ => False
  | .assignRole userId orgId _ _, call =>
    match call with
    | .createAssignment row => row.userId = userId ∧ row.orgId = orgId
    | .setAssignmentSource _ source => source = .manual
    | _ => False
  | .revokeRole _ assignmentId _ _, call =>
    match call with
    | .deleteAssignment id => id = assignmentId
    | _ => False
  | .syncManagedRoleCatalog _ _ _, call =>
    match call with
    | .createRole row _ => row.permissions = []
    | .updateRolePermissions _ _ permissions _ _ => permissions = none
    | .deleteAssignment _ => True
    | .deleteRole _ => True
    | _ => False
  | .syncUserManagedRoles userId orgId _ _, call =>
    match call with
    | .createRole row _ => row.permissions = []
    | .updateRolePermissions _ _ permissions _ _ => permissions = none
    | .createAssignment row => row.userId = userId ∧ row.orgId = orgId
    | .deleteAssignment _ => True
    | _ => False

def Op.MayIssue (op : Op) (call : Call) : Prop :=
  call.IsQuiet ∨ op.Writes call

instance (op : Op) : AllowsQuiet op.MayIssue :=
  ⟨fun _ quiet => .inl quiet⟩

variable {permitted : Call → Prop}

theorem issues_discard {α : Type} {action : Roster α}
    (issues : Issues permitted action) : Issues permitted (discard action) :=
  Keeps.bind issues fun _ => Keeps.pure

variable (toLowerCase : String → String)

variable (orgId : String)

theorem invite_footprint (req : InviteUserRequest) (ctx : RequestCtx) :
    Issues (Op.invite orgId req ctx).MayIssue (invite toLowerCase orgId req ctx) := by
  refine Keeps.bind issues_checked fun email => ?_
  refine issues_ask_bind trivial fun org => ?_
  refine Keeps.bind issues_throwIf fun _ => ?_
  refine issues_ask_bind trivial fun existing => ?_
  refine Keeps.bind issues_throwIf fun _ => ?_
  refine Keeps.bind (issues_forEach fun _ _ => issues_requireRole) fun _ => ?_
  refine issues_ask_bind trivial fun now => ?_
  refine issues_ask_bind trivial fun id => ?_
  refine Keeps.port_bind (Or.inr ⟨rfl, rfl, rfl⟩) fun _ _ => ?_
  refine Keeps.bind (issues_forEach fun roleId _ => ?_) fun _ => ?_
  · exact issues_ask_bind trivial fun _ => Keeps.port (Or.inr trivial)
  · exact Keeps.bind issues_publishSuccess fun _ => issues_viewUser

theorem provision_footprint (req : ProvisionUserRequest) (ctx : RequestCtx) :
    Issues (Op.provision orgId req ctx).MayIssue (provision toLowerCase orgId req ctx) := by
  refine Keeps.bind issues_checked fun email => ?_
  refine issues_ask_bind trivial ?_
  rintro (_ | existing)
  · refine Keeps.bind issues_record fun _ => ?_
    exact issues_ask_bind trivial fun _ => Keeps.pure
  · simp only [provisionExisting]
    split
    · exact Keeps.bind issues_viewUser fun _ => Keeps.pure
    · refine issues_ask_bind trivial fun now => ?_
      refine Keeps.bind issues_logSuccess fun _ => ?_
      refine Keeps.port_bind (Or.inr ⟨rfl, rfl⟩) fun _ _ => ?_
      refine Keeps.bind issues_rereadUser fun _ => ?_
      exact Keeps.bind issues_viewUser fun _ => Keeps.pure
    · exact Keeps.throw

variable (userId orgId : String)

theorem activateInvited_footprint (req : ActivateInvitedUserRequest) (ctx : RequestCtx) :
    Issues (Op.activateInvited userId orgId req ctx).MayIssue
      (activateInvited userId orgId req ctx) := by
  refine Keeps.bind issues_throwIf fun _ => ?_
  refine Keeps.bind issues_userOf fun user => ?_
  simp only []
  split
  · exact Keeps.pure
  · split
    · exact Keeps.pure
    · refine Keeps.bind issues_logSuccess fun _ => ?_
      refine issues_ask_bind trivial fun now => ?_
      refine Keeps.port_bind (Or.inr rfl) fun activated _ => ?_
      exact Keeps.bind issues_rereadUser fun _ => Keeps.pure

theorem updateUser_footprint (req : UpdateUserRequest) (ctx : RequestCtx) :
    Issues (Op.updateUser userId orgId req ctx).MayIssue (updateUser userId orgId req ctx) := by
  refine Keeps.bind issues_userOf fun user => ?_
  refine Keeps.bind (issues_runIf fun _ => issues_suspend) fun _ => ?_
  refine issues_ask_bind trivial fun now => ?_
  refine Keeps.port_bind (Or.inr ⟨rfl, rfl⟩) fun _ _ => ?_
  exact Keeps.bind issues_publishSuccess fun _ => issues_rereadAndView

theorem updateOwnProfile_footprint (req : UpdateOwnProfileRequest) (ctx : RequestCtx) :
    Issues (Op.updateOwnProfile userId orgId req ctx).MayIssue
      (updateOwnProfile userId orgId req ctx) := by
  refine Keeps.bind issues_userOf fun _ => ?_
  refine Keeps.bind issues_checked fun displayName => ?_
  refine Keeps.bind issues_checked fun avatarUrl => ?_
  refine Keeps.bind (issues_runIf fun _ => ?_) fun _ => issues_rereadAndView
  refine issues_ask_bind trivial fun now => ?_
  exact Keeps.port_bind (Or.inr ⟨rfl, rfl, rfl⟩) fun _ _ => issues_publishSuccess

theorem offboardUser_footprint (ctx : RequestCtx) :
    Issues (Op.offboardUser userId orgId ctx).MayIssue (offboardUser userId orgId ctx) := by
  refine Keeps.bind issues_userOf fun user => ?_
  refine issues_ask_bind trivial fun admins => ?_
  refine Keeps.bind issues_throwIf fun _ => ?_
  refine Keeps.bind (issues_runIf fun _ => issues_ask trivial) fun _ => ?_
  refine issues_ask_bind trivial fun assignments => ?_
  refine Keeps.bind (issues_forEach fun _ _ => Keeps.port (Or.inr trivial)) fun _ => ?_
  refine Keeps.bind (issues_runIf fun _ => ?_) fun _ => ?_
  · exact issues_ask_bind trivial fun _ => Keeps.port (Or.inr ⟨rfl, rfl⟩)
  · refine Keeps.bind issues_publishSuccess fun _ => ?_
    refine Keeps.bind issues_rereadUser fun _ => ?_
    exact Keeps.bind issues_viewUser fun _ => Keeps.pure

theorem syncEmailRouting_footprint (req : SyncEmailRoutingRequest) (ctx : RequestCtx) :
    Issues (Op.syncEmailRouting orgId req ctx).MayIssue
      (syncEmailRouting toLowerCase orgId req ctx) := by
  refine issues_ask_bind trivial fun org => ?_
  refine Keeps.bind issues_throwIf fun _ => ?_
  refine Keeps.bind issues_checked fun normalized => ?_
  refine issues_ask_bind trivial fun now => ?_
  refine Keeps.bind (Keeps.foldlM fun counts address _ => ?_) fun counts => ?_
  · refine issues_ask_bind trivial ?_
    rintro (_ | existing)
    · refine issues_ask_bind trivial fun id => ?_
      exact Keeps.port_bind (Or.inr ⟨rfl, rfl⟩) fun _ _ => Keeps.pure
    · exact Keeps.port_bind (Or.inr trivial) fun _ _ => Keeps.pure
  · refine issues_ask_bind trivial fun admins => ?_
    refine issues_ask_bind trivial fun owned => ?_
    refine Keeps.bind (Keeps.foldlM fun count u _ => ?_) fun deactivated => ?_
    · unfold deactivateRow
      split
      · exact Keeps.port_bind (Or.inr trivial) fun _ _ => Keeps.pure
      · exact Keeps.pure
    · exact Keeps.bind issues_publishSuccess fun _ => Keeps.pure

variable {keys : List PermissionKey} {key : PermissionKey}

theorem isPermissionKey_of_assertPermissionKeys {raw : Option (List Untyped)}
    (accepted : assertPermissionKeys raw = .ok keys)
    (member : key ∈ keys) : isPermissionKey key = true := by
  cases raw with
  | none => cases accepted
  | some raw =>
    unfold assertPermissionKeys at accepted
    simp only [] at accepted
    split at accepted
    · cases accepted
    · rename_i noneBad
      cases accepted
      obtain ⟨untyped, untypedMem, isKey⟩ := mem_filterMap.mp member
      obtain ⟨i, indexed⟩ := mem_iff_getElem?.mp untypedMem
      have noComplaint : badPermissionKey untyped i = none :=
        filterMap_eq_nil_iff.mp (not_not.mp noneBad) (untyped, i)
          (mk_mem_zipIdx_iff_getElem?.mpr indexed)
      unfold badPermissionKey at noComplaint
      split at noComplaint
      · rename_i inCatalog
        simpa [isKey] using inCatalog
      · cases noComplaint

theorem isPermissionKey_of_assertOptionalKeys {raw : Option (Option (List Untyped))}
    (accepted : assertOptionalKeys raw = .ok (some keys))
    (member : key ∈ keys) : isPermissionKey key = true := by
  cases raw with
  | none => cases accepted
  | some raw =>
    cases asserted : assertPermissionKeys raw with
    | error thrown => simp [assertOptionalKeys, asserted, Except.map] at accepted
    | ok found =>
      have same : found = keys := by
        simpa [assertOptionalKeys, asserted, Except.map] using accepted
      exact isPermissionKey_of_assertPermissionKeys asserted (same ▸ member)

theorem createRole_footprint (req : CreateRoleRequest) (ctx : RequestCtx) :
    Issues (Op.createRole orgId req ctx).MayIssue (createRole orgId req ctx) := by
  refine Keeps.bind issues_checked fun name => ?_
  refine issues_checked_bind fun permissions accepted => ?_
  refine issues_ask_bind trivial fun org => ?_
  refine Keeps.bind issues_throwIf fun _ => ?_
  refine issues_ask_bind trivial fun clash => ?_
  refine Keeps.bind issues_throwIf fun _ => ?_
  refine issues_ask_bind trivial fun now => ?_
  refine issues_ask_bind trivial fun id => ?_
  refine Keeps.bind issues_optionalMailTargets fun targets => ?_
  have inCatalog : ∀ key ∈ normalizePerms permissions, isPermissionKey key = true :=
    fun _ => isPermissionKey_of_mem_normalizePerms fun _ =>
      isPermissionKey_of_assertPermissionKeys accepted
  refine Keeps.port_bind (Or.inr inCatalog) fun _ _ => ?_
  exact Keeps.bind issues_publishSuccess fun _ => Keeps.pure

theorem updateRole_footprint (roleId orgId : String) (req : UpdateRoleRequest) (ctx : RequestCtx) :
    Issues (Op.updateRole roleId orgId req ctx).MayIssue (updateRole roleId orgId req ctx) := by
  refine Keeps.bind issues_roleOf fun role => ?_
  refine issues_checked_bind fun permissions accepted => ?_
  refine Keeps.bind issues_throwIf fun _ => ?_
  refine Keeps.bind issues_checkRoleName fun _ => ?_
  refine Keeps.bind issues_optionalMailTargets fun targets => ?_
  refine issues_ask_bind trivial fun now => ?_
  refine Keeps.port_bind (Or.inr ⟨rfl, permissions, accepted, rfl⟩) fun _ _ => ?_
  refine Keeps.bind issues_publishSuccess fun _ => ?_
  refine issues_ask_bind trivial ?_
  rintro (_ | updated)
  · exact Keeps.throw
  · refine Keeps.bind ?_ fun _ => Keeps.pure
    exact issues_ask_bind trivial fun _ => Keeps.pure

theorem deleteRole_footprint (roleId orgId : String) (ctx : RequestCtx) :
    Issues (Op.deleteRole roleId orgId ctx).MayIssue (deleteRole roleId orgId ctx) := by
  refine Keeps.bind issues_roleOf fun role => ?_
  refine Keeps.bind issues_throwIf fun _ => ?_
  refine Keeps.bind (issues_runIf fun _ => issues_guardRoleDelete) fun _ => ?_
  exact Keeps.port_bind (Or.inr rfl) fun _ _ => issues_publishSuccess

theorem assignRole_footprint (req : AssignRoleRequest) (ctx : RequestCtx) :
    Issues (Op.assignRole userId orgId req ctx).MayIssue (assignRole userId orgId req ctx) := by
  refine Keeps.bind issues_userOf fun _ => ?_
  refine Keeps.bind issues_roleOf fun role => ?_
  refine Keeps.bind issues_throwIf fun _ => ?_
  refine issues_ask_bind trivial ?_
  rintro (_ | existing)
  · refine issues_ask_bind trivial fun now => ?_
    refine issues_ask_bind trivial fun id => ?_
    refine Keeps.bind issues_logSuccess fun _ => ?_
    exact Keeps.port_bind (Or.inr ⟨rfl, rfl⟩) fun _ _ => Keeps.pure
  · simp only []
    split
    · refine Keeps.bind issues_logSuccess fun _ => ?_
      exact Keeps.port_bind (Or.inr rfl) fun _ _ => Keeps.pure
    · exact Keeps.throw

theorem revokeRole_footprint (assignmentId orgId : String) (ctx : RequestCtx) :
    Issues (Op.revokeRole userId assignmentId orgId ctx).MayIssue
      (revokeRole userId assignmentId orgId ctx) := by
  refine Keeps.bind issues_assignmentOf fun assignment => ?_
  refine issues_ask_bind trivial fun role => ?_
  refine Keeps.bind (issues_runIf fun _ => issues_guardRevoke) fun _ => ?_
  exact Keeps.bind issues_logSuccess fun _ => Keeps.port (Or.inr rfl)

/-- What `ensureManagedRoles` writes: roles without permissions, and names. -/
theorem issues_ensureManagedRoles [AllowsQuiet permitted]
    (creates : ∀ row targets, row.permissions = [] → permitted (.createRole row targets))
    (renames : ∀ roleId name updatedAt targets,
      permitted (.updateRolePermissions roleId name none updatedAt targets))
    (orgId : String) (specs : List ManagedRoleSpec) (dryRun : Bool) (ctx : RequestCtx) :
    Issues permitted (ensureManagedRoles orgId specs dryRun ctx) := by
  refine Keeps.foldlM fun done spec _ => ?_
  refine issues_ask_bind trivial fun cur => ?_
  refine Keeps.bind issues_throwIf fun _ => ?_
  refine Keeps.bind issues_managedRoleName fun name => ?_
  cases cur with
  | none =>
    refine Keeps.bind (issues_runIf fun _ => ?_) fun _ => Keeps.pure
    refine issues_ask_bind trivial fun now => ?_
    exact Keeps.port_bind (creates _ _ rfl) fun _ _ => issues_publishSuccess
  | some cur =>
    simp only []
    split
    · refine Keeps.bind (issues_runIf fun _ => ?_) fun _ => Keeps.pure
      refine issues_ask_bind trivial fun now => ?_
      exact Keeps.port_bind (renames _ _ _ _) fun _ _ => issues_publishSuccess
    · exact Keeps.pure

variable (req : PutManagedRolesRequest)

theorem syncManagedRoleCatalog_footprint (ctx : RequestCtx) :
    Issues (Op.syncManagedRoleCatalog orgId req ctx).MayIssue
      (syncManagedRoleCatalog orgId req ctx) := by
  refine Keeps.bind issues_checked fun specs => ?_
  refine Keeps.bind (issues_ensureManagedRoles (fun _ _ empty => Or.inr empty)
    (fun _ _ _ _ => Or.inr rfl) orgId specs req.dryRun ctx) fun ensured => ?_
  refine issues_ask_bind trivial fun roles => ?_
  refine Keeps.bind (Keeps.foldlM fun done role _ => ?_) fun pruned => Keeps.pure
  unfold pruneManagedRole
  split
  · refine issues_ask_bind trivial fun assignments => ?_
    refine Keeps.bind (issues_runIf fun _ => ?_) fun _ => Keeps.pure
    refine Keeps.bind (issues_forEach fun _ _ => Keeps.port (Or.inr trivial)) fun _ => ?_
    refine issues_runIf fun _ => ?_
    exact Keeps.port_bind (Or.inr trivial) fun _ _ => issues_publishSuccess
  · exact Keeps.pure

theorem syncUserManagedRoles_footprint (ctx : RequestCtx) :
    Issues (Op.syncUserManagedRoles userId orgId req ctx).MayIssue
      (syncUserManagedRoles userId orgId req ctx) := by
  refine Keeps.bind issues_userOf fun _ => ?_
  refine Keeps.bind issues_checked fun specs => ?_
  refine Keeps.bind (issues_ensureManagedRoles (fun _ _ empty => Or.inr empty)
    (fun _ _ _ _ => Or.inr rfl) orgId specs req.dryRun ctx) fun ensured => ?_
  refine issues_ask_bind trivial fun assignments => ?_
  refine Keeps.bind (issues_runIf fun _ => ?_) fun _ => Keeps.pure
  refine Keeps.bind issues_actorOf fun actor => ?_
  refine Keeps.bind (issues_forEach fun roleId _ => ?_) fun _ => ?_
  · refine issues_ask_bind trivial fun id => ?_
    refine issues_ask_bind trivial fun now => ?_
    exact Keeps.port (Or.inr ⟨rfl, rfl⟩)
  · refine Keeps.bind (issues_forEach fun _ _ => Keeps.port (Or.inr trivial)) fun _ => ?_
    exact issues_publishSuccess

/-- An operation issues quiet calls and its own writes only. -/
theorem op_footprint (op : Op) : Issues op.MayIssue (op.program toLowerCase) := by
  cases op with
  | invite orgId req ctx =>
    apply issues_discard
    exact invite_footprint toLowerCase orgId req ctx
  | provision orgId req ctx =>
    apply issues_discard
    exact provision_footprint toLowerCase orgId req ctx
  | activateInvited userId orgId req ctx =>
    apply issues_discard
    exact activateInvited_footprint userId orgId req ctx
  | updateUser userId orgId req ctx =>
    apply issues_discard
    exact updateUser_footprint userId orgId req ctx
  | updateOwnProfile userId orgId req ctx =>
    apply issues_discard
    exact updateOwnProfile_footprint userId orgId req ctx
  | offboardUser userId orgId ctx =>
    apply issues_discard
    exact offboardUser_footprint userId orgId ctx
  | syncEmailRouting orgId req ctx =>
    apply issues_discard
    exact syncEmailRouting_footprint toLowerCase orgId req ctx
  | createRole orgId req ctx =>
    apply issues_discard
    exact createRole_footprint orgId req ctx
  | updateRole roleId orgId req ctx =>
    apply issues_discard
    exact updateRole_footprint roleId orgId req ctx
  | deleteRole roleId orgId ctx => exact deleteRole_footprint roleId orgId ctx
  | assignRole userId orgId req ctx =>
    apply issues_discard
    exact assignRole_footprint userId orgId req ctx
  | revokeRole userId assignmentId orgId ctx =>
    exact revokeRole_footprint userId assignmentId orgId ctx
  | syncManagedRoleCatalog orgId req ctx =>
    apply issues_discard
    exact syncManagedRoleCatalog_footprint orgId req ctx
  | syncUserManagedRoles userId orgId req ctx =>
    apply issues_discard
    exact syncUserManagedRoles_footprint userId orgId req ctx

end Operations

end DubEcosystem.IdentityRoster
