import DubEcosystem.IdentityRosterConsistency

/-!
# identity-roster: org-wide grants

An assignment grants a permission org-wide to an active user.  A call that spares
a grant leaves it in place, and the guards of the service read off the grants who
holds a permission.
-/

namespace DubEcosystem.IdentityRoster

open PortPrograms SequentialPrograms KeyedTable List

/-- The assignment gives an active user of the organisation the permission
org-wide. -/
structure Store.Grants (store : Store) (orgId : String) (permission : PermissionKey)
    (a : AssignmentRow) : Prop where
  assigned : a ∈ store.assignments
  inOrg : a.orgId = orgId
  orgWide : a.isOrgWide = true
  carried : ∃ role ∈ store.roles, role.id = a.roleId ∧ role.orgId = orgId ∧
    permission ∈ role.permissions
  active : ∃ user ∈ store.users, user.id = a.userId ∧ user.orgId = orgId ∧
    user.status = .active

theorem nodup_eraseDups (texts : List String) : texts.eraseDups.Nodup := by
  induction bound : texts.length using Nat.strong_induction_on generalizing texts with
  | _ length ih =>
    cases texts with
    | nil => simp
    | cons text rest =>
      rw [eraseDups_cons, nodup_cons]
      constructor
      · simp [mem_eraseDups]
      · have shorter := length_filter_le (fun other => !other == text) rest
        rw [length_cons] at bound
        exact ih _ (by omega) _ rfl

variable {store : Store} {orgId : String} {permission : PermissionKey}

theorem any_find?_eq_true {α : Type} {key : α → String} {table : KeyedTable key} {id : String}
    {holds : α → Bool} : (table.find? id).any holds = true ↔
      ∃ row ∈ table, key row = id ∧ holds row = true := by
  simp [Option.any_eq_true, find?_eq_some, and_assoc]

variable {a : AssignmentRow}

theorem carries_eq_true : store.carries a permission = true ↔
      ∃ role ∈ store.roles, role.id = a.roleId ∧ permission ∈ role.permissions := by
  simp [Store.carries, any_find?_eq_true]

theorem isActive_eq_true {userId : String} : store.isActive userId = true ↔
      ∃ user ∈ store.users, user.id = userId ∧ user.status = .active := by
  simp [Store.isActive, any_find?_eq_true]

/-- In a consistent store the join of `usersWithOrgWidePermission` finds grants. -/
theorem Store.Consistent.grants_iff (consistent : store.Consistent) :
    store.Grants orgId permission a ↔ a ∈ store.assignments ∧ a.orgId = orgId ∧ a.isOrgWide = true ∧
        store.carries a permission = true ∧ store.isActive a.userId = true := by
  rw [carries_eq_true, isActive_eq_true]
  constructor
  · rintro ⟨assigned, inOrg, orgWide, ⟨role, roleMem, sameRole, -, carried⟩,
      user, userMem, sameUser, -, isActive⟩
    exact ⟨assigned, inOrg, orgWide, ⟨role, roleMem, sameRole, carried⟩,
      user, userMem, sameUser, isActive⟩
  · rintro ⟨assigned, rfl, orgWide, ⟨role, roleMem, sameRole, carried⟩,
      user, userMem, sameUser, isActive⟩
    obtain ⟨owner, ownerMem, sameOwner, ownerOrg⟩ := consistent.users a assigned
    obtain ⟨given, givenMem, sameGiven, givenOrg⟩ := consistent.roles a assigned
    have userEq : owner = user :=
      eq_of_key_eq ownerMem userMem (sameOwner.trans sameUser.symm)
    have roleEq : given = role :=
      eq_of_key_eq givenMem roleMem (sameGiven.trans sameRole.symm)
    subst userEq roleEq
    exact ⟨assigned, rfl, orgWide, ⟨given, givenMem, sameGiven, givenOrg, carried⟩,
      owner, ownerMem, sameOwner, ownerOrg, isActive⟩

theorem Store.Grants.mem_usersWithOrgWidePermission (grants : store.Grants orgId permission a) :
    a.userId ∈ store.usersWithOrgWidePermission orgId permission := by
  obtain ⟨role, roleMem, sameRole, -, carried⟩ := grants.carried
  obtain ⟨user, userMem, sameUser, -, isActive⟩ := grants.active
  have carries := carries_eq_true.mpr ⟨role, roleMem, sameRole, carried⟩
  have active := isActive_eq_true.mpr ⟨user, userMem, sameUser, isActive⟩
  rw [Store.usersWithOrgWidePermission, mem_eraseDups]
  refine List.mem_map.mpr ⟨a, mem_filter.mpr ⟨grants.assigned, ?_⟩, rfl⟩
  rw [grants.inOrg, grants.orgWide, carries, active]
  simp

theorem mem_usersWithOrgWidePermission (consistent : store.Consistent) {userId : String} :
    userId ∈ store.usersWithOrgWidePermission orgId permission ↔
      ∃ a, store.Grants orgId permission a ∧ a.userId = userId := by
  constructor
  · intro listed
    rw [Store.usersWithOrgWidePermission, mem_eraseDups] at listed
    obtain ⟨a, selected, sameUser⟩ := List.mem_map.mp listed
    obtain ⟨assigned, holds⟩ := mem_filter.mp selected
    simp only [Bool.and_eq_true, decide_eq_true_eq] at holds
    obtain ⟨⟨⟨inOrg, orgWide⟩, carries⟩, isActive⟩ := holds
    exact ⟨a, consistent.grants_iff.mpr ⟨assigned, inOrg, orgWide, carries, isActive⟩, sameUser⟩
  · rintro ⟨a, grants, rfl⟩
    exact grants.mem_usersWithOrgWidePermission

theorem nodup_usersWithOrgWidePermission :
    (store.usersWithOrgWidePermission orgId permission).Nodup :=
  nodup_eraseDups _

/-- The call cannot take the grant away, nor change its row. -/
def Call.Spares (permission : PermissionKey) (a : AssignmentRow) : Call → Prop
  | .updateUser userId patch _ =>
    userId = a.userId → patch.status = none ∨ patch.status = some .active
  | .updateRolePermissions roleId _ permissions _ _ =>
    roleId = a.roleId → ∀ keys, permissions = some keys → permission ∈ keys
  | .deleteRole roleId => roleId ≠ a.roleId
  | .deleteAssignment assignmentId => assignmentId ≠ a.id
  | .setAssignmentSource assignmentId _ => assignmentId ≠ a.id
  | _ => True

variable {call : Call} {before after : Store}

theorem Call.spares_of_isQuiet (quiet : call.IsQuiet) : call.Spares permission a := by
  cases call with
  | updateUser userId patch updatedAt
  | updateRolePermissions roleId name permissions updatedAt targets | deleteRole roleId
  | deleteAssignment assignmentId | setAssignmentSource assignmentId source =>
    exact quiet.elim
  | _ => trivial

theorem Call.Spares.userAfter_status {user : UserRow} (spares : call.Spares permission a)
    (sameId : user.id = a.userId) (isActive : user.status = .active) :
    (call.userAfter user).status = .active := by
  cases call with
  | updateUser userId patch updatedAt =>
    by_cases same : user.id = userId
    · rcases spares (same.symm.trans sameId) with unset | active
      · simp [Call.userAfter, same, unset, isActive]
      · simp [Call.userAfter, same, active]
    · simpa [Call.userAfter, same] using isActive
  | activateIfInvited userId updatedAt => simp [Call.userAfter, isActive]
  | _ => exact isActive

theorem Call.Spares.mem_roleAfter {role : RoleRow} (spares : call.Spares permission a)
    (sameId : role.id = a.roleId) (carried : permission ∈ role.permissions) :
    permission ∈ (call.roleAfter role).permissions := by
  cases call with
  | updateRolePermissions roleId name permissions updatedAt targets =>
    by_cases same : role.id = roleId
    · cases permissions with
      | none => simpa [Call.roleAfter, same, RoleRow.patched] using carried
      | some keys =>
        have kept := spares (same.symm.trans sameId) keys rfl
        simpa [Call.roleAfter, same, RoleRow.patched] using kept
    · simpa [Call.roleAfter, same] using carried
  | _ => exact carried

theorem Call.Spares.assignmentAfter_eq (spares : call.Spares permission a) :
    call.assignmentAfter a = a := by
  cases call with
  | setAssignmentSource assignmentId source =>
    have apart : a.id ≠ assignmentId := Ne.symm spares
    simp [Call.assignmentAfter, apart]
  | _ => rfl

theorem Call.Spares.not_unassigns (spares : call.Spares permission a) : ¬call.Unassigns a := by
  rintro (rfl | rfl)
  · exact spares rfl
  · exact spares rfl

theorem Move.grants (move : Move call before after) (spares : call.Spares permission a)
    (grants : before.Grants orgId permission a) : after.Grants orgId permission a := by
  by_cases moved : after = before
  · exact moved ▸ grants
  obtain ⟨role, roleMem, sameRole, roleOrg, carried⟩ := grants.carried
  obtain ⟨user, userMem, sameUser, userOrg, isActive⟩ := grants.active
  have roleStays : call.roleAfter role ∈ after.roles := by
    rcases move.role_mem roleMem with unmoved | deleted | stays
    · exact (moved unmoved).elim
    · exact (spares.not_unassigns (Or.inr (sameRole ▸ deleted))).elim
    · exact stays
  have userStays : call.userAfter user ∈ after.users :=
    (move.user_mem userMem).resolve_left moved
  have assigned : a ∈ after.assignments := by
    rcases move.assignment_mem grants.assigned with unmoved | unassigned | stays
    · exact (moved unmoved).elim
    · exact (spares.not_unassigns unassigned).elim
    · rwa [spares.assignmentAfter_eq] at stays
  constructor
  · exact assigned
  · exact grants.inOrg
  · exact grants.orgWide
  · exact ⟨call.roleAfter role, roleStays, by simpa using sameRole,
      by simpa using roleOrg, spares.mem_roleAfter sameRole carried⟩
  · exact ⟨call.userAfter user, userStays, by simpa using sameUser,
      by simpa using userOrg, spares.userAfter_status sameUser isActive⟩

theorem Move.grants_of_setAssignmentSource {assignmentId : String} {source : RoleAssignmentSource}
    (move : Move (.setAssignmentSource assignmentId source) before after)
    (grants : before.Grants orgId permission a) :
    ∃ b, after.Grants orgId permission b := by
  by_cases same : assignmentId = a.id
  · cases move with
    | still => exact ⟨a, grants⟩
    | setAssignmentSource =>
      refine ⟨{ a with source := some source }, ?_, grants.inOrg, grants.orgWide,
        grants.carried, grants.active⟩
      simp only [Store.setAssignmentSource, mem_update]
      exact ⟨a, grants.assigned, by simp [same]⟩
  · exact ⟨a, move.grants same grants⟩

/-- One admin, whose only key is that of a role made by hand. -/
def soleAdminStore : Store where
  orgs := ⟨[{ id := "org", name := "org", createdAt := "t0" }], by simp⟩
  users := ⟨[{
    id := "u1", orgId := "org", email := "admin@example.com", displayName := "admin"
    furigana := none, githubLogin := none, avatarUrl := none, status := .active
    source := .manual, createdAt := "t0", updatedAt := "t0" }], by simp⟩
  roles := ⟨[{
    id := "r1", orgId := "org", name := "owners", isSystem := false
    permissions := [ADMIN], createdAt := "t0", updatedAt := "t0" }], by simp⟩
  assignments := ⟨[{
    id := "a1", userId := "u1", roleId := "r1", orgId := "org", resourceType := none
    resourceId := none, grantedBy := "u1", grantedAt := "t0" }], by simp⟩
  mailVisibility := ⟨[], by simp⟩

theorem soleAdminStore_consistent : soleAdminStore.Consistent := by
  constructor
  · simp [soleAdminStore, mem_def]
  · simp [soleAdminStore, Store.HasUser, mem_def]
  · simp [soleAdminStore, Store.HasRole, mem_def]

end DubEcosystem.IdentityRoster
