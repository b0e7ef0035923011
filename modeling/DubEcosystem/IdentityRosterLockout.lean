import DubEcosystem.IdentityRosterGrants

/-!
# identity-roster: lockout freedom

Once an organisation has an active user with `identity:admin` org-wide, it should
never lose the last one.  The guards of `updateUser`, `offboardUser`, `deleteRole`,
`revokeRole` and `syncEmailRouting` see to it.  The guard of `updateRole` looks at
the built-in admin role only, and the managed-role syncs have none.
-/

namespace DubEcosystem.IdentityRoster

open PortPrograms SequentialPrograms List

/-- An active user holds `identity:admin` through an org-wide assignment. -/
def HasAdmin (org : String) (store : Store) : Prop :=
  ∃ a, store.Grants org ADMIN a

/-- The first phase of a managed-role sync can end, and the second one drops. -/
def Store.DropsManagedRoles (store : Store) (orgId : String)
    (req : PutManagedRolesRequest) (ctx : RequestCtx) (specs : List ManagedRoleSpec) :
    Prop :=
  parseManagedRoles req.roles = .ok specs ∧ req.dryRun = false ∧
    CanReturn rosterMachine (ensureManagedRoles orgId specs false ctx) store

/-- The request passes every check of `updateRole` and leaves the role without the
admin key. -/
def Store.StripsAdmin (store : Store) (roleId orgId : String) (req : UpdateRoleRequest) :
    Prop :=
  ∃ role ∈ store.roles, ∃ keys, role.id = roleId ∧ role.orgId = orgId ∧
    assertOptionalKeys req.permissions = .ok (some keys) ∧ ADMIN ∉ keys ∧
    stripsBuiltInAdmin role (some keys) = false ∧
    CanReturn rosterMachine (checkRoleName orgId role req.name) store ∧
    CanReturn rosterMachine (optionalMailTargets orgId roleId req.mailVisibleRoleIds) store

/-- Where the service has no guard, another grant stays. -/
def Op.LeavesAnAdmin (org : String) : Op → Store → Prop
  | .updateRole roleId orgId req _, store =>
    store.StripsAdmin roleId orgId req → ∃ a, store.Grants org ADMIN a ∧ a.roleId ≠ roleId
  | .syncManagedRoleCatalog orgId req ctx, store =>
    ∀ specs, store.DropsManagedRoles orgId req ctx specs → ∃ a, store.Grants org ADMIN a ∧
        ¬(a.orgId = orgId ∧ a.isAuto = true ∧
          isUnlisted (specs.map ManagedRoleSpec.id) a.roleId = true)
  | .syncUserManagedRoles userId orgId req ctx, store =>
    ∀ specs, store.HasUser userId orgId → store.DropsManagedRoles orgId req ctx specs →
      ∃ a, store.Grants org ADMIN a ∧ ¬(a.userId = userId ∧ a.orgId = orgId ∧
          isStaleAssignment (specs.map ManagedRoleSpec.id) a = true)
  | _, _ => True

/-- No session of allowed operations, from a consistent store in which the
organisation has an admin, reaches a state in which it has none. -/
def LockoutFree (toLowerCase : String → String) (allowed : String → Op → Store → Prop) : Prop :=
  ∀ org start final, start.Consistent → HasAdmin org start →
    (identityService toLowerCase).Session (allowed org) start final → HasAdmin org final

abbrev KeepsAdmin (org : String) : Call → Store → Prop :=
  Preserves rosterMachine (HasAdmin org)

variable {org : String} {store : Store} {α : Type} {action : Roster α}

theorem keepsAdmin_of_isQuiet (call : Call) (store : Store) (quiet : call.IsQuiet) :
    KeepsAdmin org call store := by
  intro holds answer after answers
  rwa [eq_of_isQuiet quiet answers]

instance : AllowsQuietAt (KeepsAdmin org) :=
  ⟨keepsAdmin_of_isQuiet⟩

theorem safe_of_spares {a : AssignmentRow} (issues : Issues (Call.Spares ADMIN a) action)
    (grants : store.Grants org ADMIN a) :
    Safe rosterMachine (KeepsAdmin org) action (fun _ after => after.Grants org ADMIN a) store := by
  have kept : ∀ request before answer after, Call.Spares ADMIN a request →
      before.Grants org ADMIN a → rosterMachine.Answers request before answer after →
        after.Grants org ADMIN a :=
    fun request before answer after spares holds answers =>
      (move_of_answers answers).grants spares holds
  refine safe_of_keeps issues ?_ ?_ grants
  · intro request before spares holds _ answer after answers
    exact ⟨a, kept request before answer after spares holds answers⟩
  · intro request before answer after holds spares answers
    exact kept request before answer after spares holds answers

theorem safe_of_sparesAll (issues : Issues (fun call => ∀ a, call.Spares ADMIN a) action) :
    Safe rosterMachine (KeepsAdmin org) action
      (fun _ after => ∀ a, store.Grants org ADMIN a → after.Grants org ADMIN a) store := by
  refine safe_of_keeps issues ?_ ?_ fun a grants => grants
  · rintro request before spares - ⟨a, grants⟩ answer after answers
    exact ⟨a, (move_of_answers answers).grants (spares a) grants⟩
  · intro request before answer after kept spares answers a grants
    exact (move_of_answers answers).grants (spares a) (kept a grants)

/-- The calls of an operation without any guard. -/
def Call.Harmless (call : Call) : Prop :=
  (∀ a, call.Spares ADMIN a) ∨
    ∃ assignmentId source, call = .setAssignmentSource assignmentId source

theorem safe_of_harmless (issues : Issues Call.Harmless action) :
    Safe rosterMachine (KeepsAdmin org) action (fun _ _ => True) store := by
  refine safe_of_keeps issues ?_ (fun _ _ _ _ _ _ _ => trivial) trivial
  rintro request before harmless - ⟨a, grants⟩ answer after answers
  have move := move_of_answers answers
  rcases harmless with spares | ⟨assignmentId, source, rfl⟩
  · exact ⟨a, move.grants (spares a) grants⟩
  · exact move.grants_of_setAssignmentSource grants

variable {orgId userId : String} {pre : Call → Store → Prop}

/-- The guards let a user go only if somebody else is an admin. -/
theorem exists_other_admin (consistent : store.Consistent) (hasAdmin : HasAdmin org store)
    {user : UserRow} (userMem : user ∈ store.users) (sameUser : user.id = userId)
    (userOrg : user.orgId = orgId)
    (notLast : ¬isLastAdmin (store.usersWithOrgWidePermission orgId ADMIN) userId) :
    ∃ a, store.Grants org ADMIN a ∧ a.userId ≠ userId := by
  by_contra noOther
  push Not at noOther
  obtain ⟨a, grants⟩ := hasAdmin
  have sameHolder : a.userId = userId := noOther a grants
  obtain ⟨holder, holderMem, holderId, holderOrg, -⟩ := grants.active
  have same : holder = user := KeyedTable.eq_of_key_eq holderMem userMem
    (holderId.trans (sameHolder.trans sameUser.symm))
  subst same
  have sameOrg : org = orgId := holderOrg.symm.trans userOrg
  subst sameOrg
  -- every listed admin is the user, so the duplicate-free list is `[userId]`
  have listed := grants.mem_usersWithOrgWidePermission
  have onlyUser : ∀ other ∈ store.usersWithOrgWidePermission org ADMIN, other = userId := by
    intro other otherMem
    obtain ⟨b, otherGrants, rfl⟩ :=
      (mem_usersWithOrgWidePermission consistent).mp otherMem
    exact noOther b otherGrants
  have nodup : (store.usersWithOrgWidePermission org ADMIN).Nodup :=
    nodup_usersWithOrgWidePermission
  apply notLast
  match admins : store.usersWithOrgWidePermission org ADMIN with
  | [] => simp [admins] at listed
  | [only] =>
    rw [admins] at onlyUser
    simp [isLastAdmin, onlyUser only (by simp)]
  | first :: second :: rest =>
    rw [admins] at onlyUser nodup
    have firstEq := onlyUser first (by simp)
    have secondEq := onlyUser second (by simp)
    simp [firstEq, secondEq] at nodup

/-- The assignments that `countOrgWideAdminGrants` counts. -/
def Store.adminGrants (store : Store) (userId orgId : String) : List AssignmentRow :=
  (store.listAssignmentsByUser userId orgId).filter fun a =>
    a.isOrgWide && store.carries a ADMIN

variable {a : AssignmentRow}

theorem mem_adminGrants : a ∈ store.adminGrants userId orgId ↔
      a ∈ store.assignments ∧ a.userId = userId ∧ a.orgId = orgId ∧
        a.isOrgWide = true ∧ store.carries a ADMIN = true := by
  simp only [Store.adminGrants, Store.listAssignmentsByUser, mem_filter,
    Bool.and_eq_true, decide_eq_true_eq, KeyedTable.mem_def]
  tauto

theorem grants_of_mem_adminGrants (consistent : store.Consistent)
    (listed : userId ∈ store.usersWithOrgWidePermission orgId ADMIN)
    (counted : a ∈ store.adminGrants userId orgId) : store.Grants orgId ADMIN a := by
  obtain ⟨assigned, sameUser, inOrg, orgWide, carries⟩ := mem_adminGrants.mp counted
  obtain ⟨b, grants, sameHolder⟩ := (mem_usersWithOrgWidePermission consistent).mp listed
  have isActive : store.isActive b.userId = true :=
    (consistent.grants_iff.mp grants).2.2.2.2
  rw [sameHolder, ← sameUser] at isActive
  exact consistent.grants_iff.mpr ⟨assigned, inOrg, orgWide, carries, isActive⟩

theorem nodup_adminGrants : (store.adminGrants userId orgId).Nodup := by
  have rows : store.assignments.rows.Nodup := .of_map _ store.assignments.keysNodup
  exact (rows.filter _).filter _

theorem safe_countOrgWideAdminGrants [AllowsQuietAt pre] :
    Safe rosterMachine pre (countOrgWideAdminGrants userId orgId)
      (fun n after => after = store ∧ n = (store.adminGrants userId orgId).length)
      store := by
  refine safe_ask_bind rfl trivial ?_
  suffices loop : ∀ (assignments : List AssignmentRow) (n : Nat),
      Safe rosterMachine pre (assignments.foldlM countGrant n)
        (fun total after => after = store ∧ total = n + (assignments.filter fun a =>
          a.isOrgWide && store.carries a ADMIN).length) store by
    refine (loop _ 0).mono ?_
    rintro total after ⟨rfl, rfl⟩
    exact ⟨rfl, by rw [Nat.zero_add]; rfl⟩
  intro assignments
  induction assignments with
  | nil =>
    intro n
    exact safe_pure ⟨rfl, by simp⟩
  | cons a rest ih =>
    intro n
    rw [foldlM_cons]
    apply safe_bind
    unfold countGrant
    by_cases orgWide : a.isOrgWide = true
    · rw [if_pos orgWide]
      refine safe_ask_bind rfl trivial (safe_pure ?_)
      have counts : isOrgWideAdminGrant (store.roles.find? a.roleId) a =
          store.carries a ADMIN := by
        simp [isOrgWideAdminGrant, orgWide, Store.carries]
      rw [counts]
      refine (ih _).mono ?_
      rintro total after ⟨rfl, rfl⟩
      refine ⟨rfl, ?_⟩
      by_cases carries : after.carries a ADMIN = true
      · simp [orgWide, carries]
        omega
      · simp [orgWide, carries]
    · rw [if_neg orgWide]
      apply safe_pure
      refine (ih n).mono ?_
      rintro total after ⟨rfl, rfl⟩
      exact ⟨rfl, by simp [orgWide]⟩

theorem exists_ne_of_one_lt_length {items : List α} (nodup : items.Nodup)
    (many : 1 < items.length) (item : α) : ∃ other ∈ items, other ≠ item := by
  match items with
  | [] => simp at many
  | [_] => simp at many
  | first :: second :: rest =>
    by_cases same : first = item
    · refine ⟨second, by simp, ?_⟩
      rintro rfl
      simp [same] at nodup
    · exact ⟨first, by simp, same⟩

/-- A deletable role is not the last one that makes an admin. -/
theorem exists_grant_of_ownGrants_lt (consistent : store.Consistent) {roleId : String}
    (listed : userId ∈ store.usersWithOrgWidePermission orgId ADMIN)
    (survives : ownGrants (((store.listAssignmentsByRole roleId).filter AssignmentRow.isOrgWide).map
        AssignmentRow.userId) userId < (store.adminGrants userId orgId).length) :
    ∃ a, store.Grants orgId ADMIN a ∧ a.roleId ≠ roleId := by
  have asGrant : ∀ {b}, b ∈ store.adminGrants userId orgId → store.Grants orgId ADMIN b :=
    fun counted => grants_of_mem_adminGrants consistent listed counted
  obtain ⟨b, counted⟩ : ∃ b, b ∈ store.adminGrants userId orgId :=
    exists_mem_of_length_pos (by omega)
  by_cases sameRole : b.roleId = roleId
  · obtain ⟨assigned, sameUser, -, orgWide, -⟩ := mem_adminGrants.mp counted
    have isHolder : userId ∈ ((store.listAssignmentsByRole roleId).filter
        AssignmentRow.isOrgWide).map AssignmentRow.userId := by
      refine List.mem_map.mpr ⟨b, mem_filter.mpr ⟨?_, orgWide⟩, sameUser⟩
      exact mem_filter.mpr ⟨assigned, by simpa using sameRole⟩
    rw [ownGrants, if_pos isHolder] at survives
    obtain ⟨c, otherCounted, apart⟩ :=
      exists_ne_of_one_lt_length nodup_adminGrants survives b
    refine ⟨c, asGrant otherCounted, fun otherRole => apart ?_⟩
    -- one user holds one role org-wide once
    have bGrant := asGrant counted
    have cGrant := asGrant otherCounted
    obtain ⟨cAssigned, cUser, cOrg, -, -⟩ := mem_adminGrants.mp otherCounted
    have bScope := AssignmentRow.isOrgWide_eq_true.mp bGrant.orgWide
    have cScope := AssignmentRow.isOrgWide_eq_true.mp cGrant.orgWide
    refine consistent.scopes c cAssigned b assigned ?_
    simp [AssignmentRow.scope, sameUser, cUser, otherRole, sameRole, bGrant.inOrg, cOrg,
      bScope, cScope]
  · exact ⟨b, asGrant counted, sameRole⟩

theorem safe_adminSurvivesRoleDelete {roleId : String} [AllowsQuietAt pre]
    (consistent : store.Consistent) :
    Safe rosterMachine pre (adminSurvivesRoleDelete roleId orgId)
      (fun survives after => after = store ∧ (survives = true →
        ∃ a, store.Grants orgId ADMIN a ∧ a.roleId ≠ roleId)) store := by
  refine safe_ask_bind rfl trivial ?_
  refine safe_ask_bind rfl trivial ?_
  suffices search : ∀ admins : List String,
      (∀ userId ∈ admins, userId ∈ store.usersWithOrgWidePermission orgId ADMIN) →
      Safe rosterMachine pre (anyAdminSurvives orgId
        (((store.listAssignmentsByRole roleId).filter AssignmentRow.isOrgWide).map
          AssignmentRow.userId) admins)
        (fun survives after => after = store ∧ (survives = true →
          ∃ a, store.Grants orgId ADMIN a ∧ a.roleId ≠ roleId)) store from
    search _ fun _ listed => listed
  intro admins
  induction admins with
  | nil =>
    intro _
    exact safe_pure ⟨rfl, nofun⟩
  | cons userId rest ih =>
    intro listed
    refine safe_bind (safe_countOrgWideAdminGrants.mono ?_)
    rintro grants after ⟨rfl, rfl⟩
    split
    · rename_i survives
      exact safe_pure ⟨rfl, fun _ => exists_grant_of_ownGrants_lt consistent
        (listed userId (.head _)) survives⟩
    · exact ih fun other member => listed other (mem_cons_of_mem userId member)

end DubEcosystem.IdentityRoster
