import DubEcosystem.IdentityRosterService

/-!
# identity-roster: what a call can do to the store

`Move` lists the ways a call moves the store, and every fact about the store that
operations keep is a case analysis of it: the organisations of users and roles,
the consistency of the assignments, and the permissions that an assignment grants.
-/

namespace DubEcosystem.IdentityRoster

open PortPrograms KeyedTable Option

inductive Move : Call → Store → Store → Prop
  | still {call store} : Move call store store
  | createUser {row store users} (inserted : store.users.insert? row = some users) :
      Move (.createUser row) store { store with users }
  | updateUser {userId patch updatedAt} {store : Store} :
      Move (.updateUser userId patch updatedAt) store
        { store with
          users := store.users.update (fun row => row.id = userId)
            (fun row => row.patched patch updatedAt) fun row =>
          row.patched_id patch updatedAt }
  | activateIfInvited {userId updatedAt store} :
      Move (.activateIfInvited userId updatedAt) store (store.activateIfInvited userId updatedAt)
  | createRole {row targets} {store : Store} {roles mailVisibility}
      (inserted : store.roles.insert? row = some roles) :
      Move (.createRole row targets) store { store with roles, mailVisibility }
  | updateRole {roleId name permissions updatedAt targets} {store : Store} {mailVisibility} :
      Move (.updateRolePermissions roleId name permissions updatedAt targets) store
        { store with
          roles := store.roles.update (fun row => row.id = roleId)
            (fun row => row.patched name permissions updatedAt) fun row =>
            row.patched_id name permissions updatedAt
          mailVisibility }
  | deleteRole {roleId store} : Move (.deleteRole roleId) store (store.deleteRole roleId)
  | createAssignment {row} {store : Store} {assignments}
      (fresh : ∀ other ∈ store.assignments, other.scope ≠ row.scope)
      (inserted : store.assignments.insert? { row with source := some row.sourceOf } =
        some assignments) :
      Move (.createAssignment row) store { store with assignments }
  | deleteAssignment {assignmentId store} :
      Move (.deleteAssignment assignmentId) store (store.deleteAssignment assignmentId)
  | setAssignmentSource {assignmentId source store} :
      Move (.setAssignmentSource assignmentId source) store
        (store.setAssignmentSource assignmentId source)

variable {store : Store}

theorem move_of_commit {call : Call} {after : Store} {written : Option Store}
    {answer : Except Thrown Unit}
    (commits : store.commit written = (answer, after))
    (moves : ∀ final, written = some final → Move call store final) :
    Move call store after := by
  cases written with
  | none =>
    have unmoved : store = after := congrArg Prod.snd commits
    subst unmoved
    exact .still
  | some final =>
    have moved : final = after := congrArg Prod.snd commits
    subst moved
    exact moves final rfl

variable {final : Store}

theorem move_createUser {row : UserRow} (created : store.createUser row = some final) :
    Move (.createUser row) store final := by
  unfold Store.createUser at created
  split at created
  · obtain ⟨users, inserted, rfl⟩ := map_eq_some_iff.mp created
    exact .createUser inserted
  · cases created

variable {updatedAt : String}

theorem move_updateUser {userId : String} {patch : UserPatch}
    (updated : store.updateUser userId patch updatedAt = some final) :
    Move (.updateUser userId patch updatedAt) store final := by
  unfold Store.updateUser at updated
  split at updated
  · cases updated
  · cases updated
    exact .updateUser

theorem move_createRole {row : RoleRow} {targets : List String}
    (created : store.createRole row targets = some final) :
    Move (.createRole row targets) store final := by
  unfold Store.createRole at created
  split at created
  · obtain ⟨roles, inserted, rfl⟩ := map_eq_some_iff.mp created
    exact .createRole inserted
  · cases created

theorem move_updateRole {roleId : String} {name : Option String}
    {permissions : Option (List PermissionKey)}
    {targets : Option (List String)}
    (updated : store.updateRolePermissions roleId name permissions updatedAt targets = some final) :
    Move (.updateRolePermissions roleId name permissions updatedAt targets) store
      final := by
  unfold Store.updateRolePermissions at updated
  split at updated
  · cases targets with
    | none | some targets =>
      cases updated
      exact .updateRole
  · cases updated

theorem move_createAssignment {row : AssignmentRow}
    (created : store.createAssignment row = some final) :
    Move (.createAssignment row) store final := by
  unfold Store.createAssignment at created
  split at created
  · rename_i valid
    obtain ⟨assignments, inserted, rfl⟩ := map_eq_some_iff.mp created
    refine .createAssignment ?_ inserted
    intro other member
    have apart := List.all_eq_true.mp valid.2.2.2.2 other member
    simpa using apart
  · cases created

theorem move_of_answers {call : Call} {before after : Store} {answer : Except Thrown (Result call)}
    (answers : rosterMachine.Answers call before answer after) :
    Move call before after := by
  cases call with
  | createUser row => exact move_of_commit answers fun final => move_createUser
  | updateUser userId patch updatedAt =>
    exact move_of_commit answers fun final => move_updateUser
  | createRole row targets => exact move_of_commit answers fun final => move_createRole
  | updateRolePermissions roleId name permissions updatedAt targets =>
    exact move_of_commit answers fun final => move_updateRole
  | createAssignment row =>
    exact move_of_commit answers fun final => move_createAssignment
  | activateIfInvited userId updatedAt =>
    have moved : before.activateIfInvited userId updatedAt = after :=
      congrArg Prod.snd answers
    exact moved ▸ .activateIfInvited
  | deleteRole roleId =>
    have moved : before.deleteRole roleId = after := congrArg Prod.snd answers
    exact moved ▸ .deleteRole
  | deleteAssignment assignmentId =>
    have moved : before.deleteAssignment assignmentId = after :=
      congrArg Prod.snd answers
    exact moved ▸ .deleteAssignment
  | setAssignmentSource assignmentId source =>
    have moved : before.setAssignmentSource assignmentId source = after :=
      congrArg Prod.snd answers
    exact moved ▸ .setAssignmentSource
  | now | newId kind | logSync record | publish record | revokeUser userId ctx =>
    have unmoved : after = before := answers
    exact unmoved ▸ .still
  | _ =>
    have unmoved : before = after := congrArg Prod.snd answers
    exact unmoved ▸ .still

def Call.userAfter (call : Call) (user : UserRow) : UserRow :=
  match call with
  | .updateUser userId patch updatedAt =>
    if user.id = userId then user.patched patch updatedAt else user
  | .activateIfInvited userId updatedAt =>
    if user.id = userId ∧ user.status = .invited then
      user.patched { status := some .active } updatedAt
    else user
  | _ => user

@[simp]
theorem Call.userAfter_id (call : Call) (user : UserRow) : (call.userAfter user).id = user.id := by
  unfold Call.userAfter
  split
  · split <;> rfl
  · split <;> rfl
  · rfl

@[simp]
theorem Call.userAfter_orgId (call : Call) (user : UserRow) :
    (call.userAfter user).orgId = user.orgId := by
  unfold Call.userAfter
  split
  · split <;> rfl
  · split <;> rfl
  · rfl

/-- The row of a role after the call, if the call succeeds and does not delete it. -/
def Call.roleAfter (call : Call) (role : RoleRow) : RoleRow :=
  match call with
  | .updateRolePermissions roleId name permissions updatedAt _ =>
    if role.id = roleId then role.patched name permissions updatedAt else role
  | _ => role

@[simp]
theorem Call.roleAfter_id (call : Call) (role : RoleRow) : (call.roleAfter role).id = role.id := by
  unfold Call.roleAfter
  split
  · split <;> rfl
  · rfl

@[simp]
theorem Call.roleAfter_orgId (call : Call) (role : RoleRow) :
    (call.roleAfter role).orgId = role.orgId := by
  unfold Call.roleAfter
  split
  · split <;> rfl
  · rfl

/-- The row of an assignment after the call, if the call succeeds and does not
delete it. -/
def Call.assignmentAfter (call : Call) (a : AssignmentRow) : AssignmentRow :=
  match call with
  | .setAssignmentSource assignmentId source =>
    if a.id = assignmentId then { a with source := some source } else a
  | _ => a

def Call.Unassigns (call : Call) (a : AssignmentRow) : Prop :=
  call = .deleteAssignment a.id ∨ call = .deleteRole a.roleId

variable {call : Call} {before after : Store}

section

variable (move : Move call before after)
include move

theorem Move.user_mem {user : UserRow} (member : user ∈ before.users) :
    after = before ∨ call.userAfter user ∈ after.users := by
  cases move with
  | still => exact Or.inl rfl
  | createUser inserted =>
    exact Or.inr ((mem_insert? inserted).mpr (Or.inl member))
  | updateUser =>
    right
    simp only [mem_update]
    exact ⟨user, member, by simp [Call.userAfter]⟩
  | activateIfInvited =>
    right
    simp only [Store.activateIfInvited, mem_update]
    exact ⟨user, member, by simp [Call.userAfter]⟩
  | _ => exact Or.inr member

/-- A user is there from before or comes in through `createUser`. -/
theorem Move.mem_user {user : UserRow} (member : user ∈ after.users) :
    user ∈ before.users ∨ (∃ old ∈ before.users, call.userAfter old = user) ∨
      call = .createUser user := by
  cases move with
  | createUser inserted =>
    rcases (mem_insert? inserted).mp member with old | rfl
    · exact Or.inl old
    · exact Or.inr (Or.inr rfl)
  | updateUser =>
    simp only [mem_update] at member
    obtain ⟨old, oldMem, rfl⟩ := member
    exact Or.inr (Or.inl ⟨old, oldMem, by simp [Call.userAfter]⟩)
  | activateIfInvited =>
    simp only [Store.activateIfInvited, mem_update] at member
    obtain ⟨old, oldMem, rfl⟩ := member
    exact Or.inr (Or.inl ⟨old, oldMem, by simp [Call.userAfter]⟩)
  | _ => exact Or.inl member

theorem Move.role_mem {role : RoleRow} (member : role ∈ before.roles) :
    after = before ∨ call = .deleteRole role.id ∨ call.roleAfter role ∈ after.roles := by
  cases move with
  | still => exact Or.inl rfl
  | createRole inserted =>
    exact Or.inr (Or.inr ((mem_insert? inserted).mpr (Or.inl member)))
  | updateRole =>
    right; right
    simp only [mem_update]
    exact ⟨role, member, by simp [Call.roleAfter]⟩
  | @deleteRole roleId =>
    by_cases same : role.id = roleId
    · exact Or.inr (Or.inl (by rw [same]))
    · have kept : decide (role.id = roleId) = false := by simpa using same
      exact Or.inr (Or.inr (mem_deleteWhere.mpr ⟨member, kept⟩))
  | _ => exact Or.inr (Or.inr member)

theorem Move.mem_role {role : RoleRow} (member : role ∈ after.roles) :
    role ∈ before.roles ∨ (∃ old ∈ before.roles, call.roleAfter old = role) ∨
      ∃ targets, call = .createRole role targets := by
  cases move with
  | createRole inserted =>
    rcases (mem_insert? inserted).mp member with old | rfl
    · exact Or.inl old
    · exact Or.inr (Or.inr ⟨_, rfl⟩)
  | updateRole =>
    simp only [mem_update] at member
    obtain ⟨old, oldMem, rfl⟩ := member
    exact Or.inr (Or.inl ⟨old, oldMem, by simp [Call.roleAfter]⟩)
  | deleteRole => exact Or.inl (mem_deleteWhere.mp member).1
  | _ => exact Or.inl member

variable {a : AssignmentRow}

theorem Move.assignment_mem (member : a ∈ before.assignments) :
    after = before ∨ call.Unassigns a ∨ call.assignmentAfter a ∈ after.assignments := by
  cases move with
  | still => exact Or.inl rfl
  | createAssignment fresh inserted =>
    exact Or.inr (Or.inr ((mem_insert? inserted).mpr (Or.inl member)))
  | setAssignmentSource =>
    right; right
    simp only [Store.setAssignmentSource, mem_update]
    exact ⟨a, member, by simp [Call.assignmentAfter]⟩
  | @deleteRole roleId =>
    by_cases same : a.roleId = roleId
    · exact Or.inr (Or.inl (Or.inr (by rw [same])))
    · have kept : decide (a.roleId = roleId) = false := by simpa using same
      exact Or.inr (Or.inr (mem_deleteWhere.mpr ⟨member, kept⟩))
  | @deleteAssignment assignmentId =>
    by_cases same : a.id = assignmentId
    · exact Or.inr (Or.inl (Or.inl (by rw [same])))
    · have kept : decide (a.id = assignmentId) = false := by simpa using same
      exact Or.inr (Or.inr (mem_deleteWhere.mpr ⟨member, kept⟩))
  | _ => exact Or.inr (Or.inr member)

/-- An assignment is there from before or is the created one, of a new scope. -/
theorem Move.mem_assignment (member : a ∈ after.assignments) :
    a ∈ before.assignments ∨ (∃ old ∈ before.assignments, call.assignmentAfter old = a) ∨
      ∃ row, call = .createAssignment row ∧ a = { row with source := some row.sourceOf } ∧
        ∀ other ∈ before.assignments, other.scope ≠ row.scope := by
  cases move with
  | createAssignment fresh inserted =>
    rcases (mem_insert? inserted).mp member with old | rfl
    · exact Or.inl old
    · exact Or.inr (Or.inr ⟨_, rfl, rfl, fresh⟩)
  | setAssignmentSource =>
    simp only [Store.setAssignmentSource, mem_update] at member
    obtain ⟨old, oldMem, rfl⟩ := member
    exact Or.inr (Or.inl ⟨old, oldMem, by simp [Call.assignmentAfter]⟩)
  | deleteRole | deleteAssignment => exact Or.inl (mem_deleteWhere.mp member).1
  | _ => exact Or.inl member

end

end DubEcosystem.IdentityRoster
