import DubEcosystem.IdentityRosterLockout

/-!
# identity-roster: every operation leaves an admin

One lemma for each operation: started in a consistent store in which the
organisation has an admin, none of its calls takes the last grant away.  Most of
the time a grant that the operation never touches is at hand, and otherwise the
guard throws first.
-/

namespace DubEcosystem.IdentityRoster

open PortPrograms SequentialPrograms List KeyedTable

variable {org orgId userId roleId assignmentId : String} {store : Store} {ctx : RequestCtx}

variable {α : Type} {action : Roster α} {op : Op} {a : AssignmentRow}

/-- An operation none of whose writes touches one of the grants. -/
theorem safe_of_writes (issues : Issues op.MayIssue action) (grants : store.Grants org ADMIN a)
    (spares : ∀ call, op.Writes call → call.Spares ADMIN a) :
    Safe rosterMachine (KeepsAdmin org) action (fun _ _ => True) store := by
  have sparing : Issues (Call.Spares ADMIN a) action := by
    apply issues.weaken
    rintro call (quiet | writes)
    · exact Call.spares_of_isQuiet quiet
    · exact spares call writes
  exact (safe_of_spares sparing grants).mono fun _ _ _ => trivial

theorem safe_rest_of_spares (issues : Issues (Call.Spares ADMIN a) action)
    (grants : store.Grants org ADMIN a) :
    Safe rosterMachine (KeepsAdmin org) action (fun _ _ => True) store :=
  (safe_of_spares issues grants).mono fun _ _ _ => trivial

instance (a : AssignmentRow) : AllowsQuiet (Call.Spares ADMIN a) :=
  ⟨fun _ => Call.spares_of_isQuiet⟩

instance : AllowsQuiet fun call => ∀ a, Call.Spares ADMIN a call :=
  ⟨fun _ quiet _ => Call.spares_of_isQuiet quiet⟩

theorem spares_deleteAssignment {b : AssignmentRow} (assigned : a ∈ store.assignments)
    (otherAssigned : b ∈ store.assignments) (apart : b ≠ a) :
    (Call.deleteAssignment b.id).Spares ADMIN a := by
  intro sameId
  exact apart (eq_of_key_eq otherAssigned assigned sameId)

variable {post : α → Store → Prop}

theorem safe_discard {pre : Call → Store → Prop} (safe : Safe rosterMachine pre action post store) :
    Safe rosterMachine pre (discard action) (fun _ _ => True) store := by
  apply safe_bind
  apply safe.mono
  intro value after _
  exact safe_pure trivial

/-- The operations that add and relabel, but take nothing away. -/
def Op.IsHarmless : Op → Prop
  | .invite _ _ _ => True
  | .provision _ _ _ => True
  | .activateInvited _ _ _ _ => True
  | .updateOwnProfile _ _ _ _ => True
  | .createRole _ _ _ => True
  | .assignRole _ _ _ _ => True
  | _ => False

theorem Op.harmless_of_mayIssue (harmless : op.IsHarmless) {call : Call}
    (issued : op.MayIssue call) : call.Harmless := by
  rcases issued with quiet | writes
  · exact Or.inl fun a => Call.spares_of_isQuiet quiet
  cases op with
  | invite orgId req ctx =>
    cases call with
    | createUser row | createAssignment row => exact Or.inl fun _ => trivial
    | _ => exact writes.elim
  | provision orgId req ctx =>
    cases call with
    | updateUser id patch updatedAt => exact Or.inl fun _ _ => Or.inr writes.1
    | _ => exact writes.elim
  | activateInvited id orgId req ctx =>
    cases call with
    | activateIfInvited other updatedAt => exact Or.inl fun _ => trivial
    | _ => exact writes.elim
  | updateOwnProfile id orgId req ctx =>
    cases call with
    | updateUser other patch updatedAt => exact Or.inl fun _ _ => Or.inl writes.2.1
    | _ => exact writes.elim
  | createRole orgId req ctx =>
    cases call with
    | createRole row targets => exact Or.inl fun _ => trivial
    | _ => exact writes.elim
  | assignRole id orgId req ctx =>
    cases call with
    | createAssignment row => exact Or.inl fun _ => trivial
    | setAssignmentSource other source => exact Or.inr ⟨other, source, rfl⟩
    | _ => exact writes.elim
  | _ => exact harmless.elim

theorem isLastAdmin_of_onlyHolder (consistent : store.Consistent)
    (grants : store.Grants org ADMIN a) {user : UserRow}
    (userMem : user ∈ store.users) (sameUser : user.id = userId)
    (userOrg : user.orgId = orgId)
    (onlyHolder : ∀ b, store.Grants org ADMIN b → b.userId = userId) :
    isLastAdmin (store.usersWithOrgWidePermission orgId ADMIN) userId = true := by
  by_contra notLast
  obtain ⟨b, otherGrants, apart⟩ :=
    exists_other_admin consistent ⟨a, grants⟩ userMem sameUser userOrg notLast
  exact apart (onlyHolder b otherGrants)

theorem updateUser_keepsAdmin {req : UpdateUserRequest} (consistent : store.Consistent)
    (hasAdmin : HasAdmin org store) :
    Safe rosterMachine (KeepsAdmin org) (updateUser userId orgId req ctx)
      (fun _ _ => True) store := by
  by_cases untouched : ∃ a, store.Grants org ADMIN a ∧
      (userId = a.userId → req.status = none ∨ req.status = some .active)
  · obtain ⟨a, grants, leaves⟩ := untouched
    apply safe_of_writes (updateUser_footprint userId orgId req ctx) grants
    intro call writes
    cases call with
    | updateUser id patch updatedAt =>
      obtain ⟨rfl, rfl⟩ := writes
      exact leaves
    | _ => exact writes.elim
  -- all grants are the user's, who is to be taken out of use: the guard throws
  push Not at untouched
  obtain ⟨a, grants⟩ := hasAdmin
  obtain ⟨sameHolder, isSet, notActive⟩ := untouched a grants
  apply safe_userOf_bind
  intro user userMem sameUser userOrg
  obtain ⟨holder, holderMem, holderId, -, isActive⟩ := grants.active
  have same : holder = user := eq_of_key_eq holderMem userMem
    (holderId.trans (sameHolder.symm.trans sameUser.symm))
  subst same
  have disables : req.status.any (fun status => status ≠ .active) ∧ holder.status = .active := by
    refine ⟨?_, isActive⟩
    cases status : req.status with
    | none => exact (isSet status).elim
    | some status' => simpa [status] using notActive
  have isLast := isLastAdmin_of_onlyHolder consistent grants userMem sameUser userOrg
    fun b otherGrants => (untouched b otherGrants).1.symm
  apply safe_bind
  apply safe_runIf
  · intro _
    refine safe_ask_bind rfl trivial ?_
    apply safe_throwIf_bind
    intro notLast
    exact (notLast isLast).elim
  · intro idle
    exact (idle disables).elim

theorem offboardUser_keepsAdmin (consistent : store.Consistent) (hasAdmin : HasAdmin org store) :
    Safe rosterMachine (KeepsAdmin org) (offboardUser userId orgId ctx)
      (fun _ _ => True) store := by
  apply safe_userOf_bind
  intro user userMem sameUser userOrg
  refine safe_ask_bind rfl trivial ?_
  apply safe_throwIf_bind
  intro notLast
  obtain ⟨a, grants, apart⟩ :=
    exists_other_admin consistent hasAdmin userMem sameUser userOrg notLast
  refine safe_issues_bind (issues_runIf fun _ => Keeps.port trivial) fun _ => ?_
  refine safe_ask_bind rfl trivial ?_
  apply safe_rest_of_spares (a := a) ?_ grants
  apply Keeps.bind
  · apply issues_forEach
    intro b member
    apply Keeps.port
    obtain ⟨assigned, owner⟩ := mem_filter.mp member
    have sameOwner : b.userId = userId := by
      simp only [decide_eq_true_eq] at owner
      exact owner.1
    apply spares_deleteAssignment grants.assigned assigned
    rintro rfl
    exact apart sameOwner
  intro _
  apply Keeps.bind
  · apply issues_runIf
    intro _
    refine issues_ask_bind trivial fun now => ?_
    exact Keeps.port fun sameId => (apart sameId.symm).elim
  intro _
  apply Keeps.bind issues_publishSuccess
  intro _
  apply Keeps.bind issues_rereadUser
  intro updated
  exact Keeps.bind issues_viewUser fun _ => Keeps.pure

/-- The first loop of the sync adds users, and reactivates some. -/
theorem issues_syncAddress {now : String} {counts : Nat × Nat} {address : RoutingAddress} :
    Issues (fun call => ∀ a, call.Spares ADMIN a) (syncAddress orgId now counts address) := by
  refine issues_ask_bind trivial ?_
  rintro (_ | existing)
  · refine issues_ask_bind trivial fun id => ?_
    exact Keeps.port_bind (fun _ => trivial) fun _ _ => Keeps.pure
  · refine Keeps.port_bind (fun a _ => ?_) fun _ _ => Keeps.pure
    unfold routedPatch
    cases reactivates address existing with
    | true => exact Or.inr rfl
    | false => exact Or.inl rfl

theorem syncEmailRouting_keepsAdmin {toLowerCase : String → String}
    {req : SyncEmailRoutingRequest} (hasAdmin : HasAdmin org store) :
    Safe rosterMachine (KeepsAdmin org) (syncEmailRouting toLowerCase orgId req ctx)
      (fun _ _ => True) store := by
  refine safe_ask_bind rfl trivial ?_
  apply safe_throwIf_bind
  intro _
  apply safe_checked_bind
  intro normalized _
  refine safe_issues_bind (Keeps.port trivial) fun now => ?_
  have adds : Issues (fun call => ∀ a, call.Spares ADMIN a)
      (normalized.foldlM (syncAddress orgId now) (0, 0)) :=
    Keeps.foldlM fun _ _ _ => issues_syncAddress
  apply safe_bind
  apply (safe_of_sparesAll adds).mono
  intro counts between kept
  obtain ⟨a, before⟩ := hasAdmin
  have grants : between.Grants org ADMIN a := kept a before
  refine safe_ask_bind rfl trivial ?_
  refine safe_ask_bind rfl trivial ?_
  apply safe_rest_of_spares (a := a) ?_ grants
  apply Keeps.bind
  · apply Keeps.foldlM
    intro deactivated user listed
    unfold deactivateRow
    split
    · rename_i stale
      -- a stale row of the organisation is none of its admins
      have apart : user.id ≠ a.userId := by
        intro sameId
        have owned := mem_mergeSort.mp listed
        obtain ⟨userMem, selected⟩ := mem_filter.mp owned
        simp only [decide_eq_true_eq] at selected
        obtain ⟨holder, holderMem, holderId, holderOrg, -⟩ := grants.active
        have same : holder = user :=
          eq_of_key_eq holderMem userMem (holderId.trans sameId.symm)
        subst same
        have sameOrg : org = orgId := holderOrg.symm.trans selected.1
        subst sameOrg
        have isAdmin := grants.mem_usersWithOrgWidePermission
        rw [← sameId] at isAdmin
        simp [isStaleRow, isAdmin] at stale
      exact Keeps.port_bind (fun sameId => (apart sameId).elim) fun _ _ => Keeps.pure
    · exact Keeps.pure
  intro deactivated
  exact Keeps.bind issues_publishSuccess fun _ => Keeps.pure

/-- Nothing but a list that loses the admin key takes it from the role. -/
theorem updateRole_keepsAdmin {req : UpdateRoleRequest} (hasAdmin : HasAdmin org store)
    (leaves : (Op.updateRole roleId orgId req ctx).LeavesAnAdmin org store) :
    Safe rosterMachine (KeepsAdmin org) (updateRole roleId orgId req ctx)
      (fun _ _ => True) store := by
  by_cases other : ∃ a, store.Grants org ADMIN a ∧ a.roleId ≠ roleId
  · obtain ⟨a, grants, apart⟩ := other
    apply safe_of_writes (updateRole_footprint roleId orgId req ctx) grants
    intro call writes
    cases call with
    | updateRolePermissions id name permissions updatedAt targets =>
      intro sameId
      exact (apart (sameId.symm.trans writes.1)).elim
    | _ => exact writes.elim
  have strips : ¬store.StripsAdmin roleId orgId req := fun strips => other (leaves strips)
  obtain ⟨a, grants⟩ := hasAdmin
  apply safe_roleOf_bind
  intro role roleMem sameRole roleOrg
  apply safe_checked_bind
  intro permissions accepted
  apply safe_throwIf_bind
  intro notBuiltIn
  have nameQuiet : Issues Call.IsQuiet (checkRoleName orgId role req.name) :=
    issues_checkRoleName
  have nameSafe : Safe rosterMachine (KeepsAdmin org) (checkRoleName orgId role req.name)
      (fun _ after => after = store) store := safe_of_quiet nameQuiet
  have nameChecked := nameSafe.canReturn
  apply safe_bind
  apply nameChecked.mono
  rintro - store ⟨rfl, nameReturns⟩
  have targetsQuiet :
      Issues Call.IsQuiet (optionalMailTargets orgId roleId req.mailVisibleRoleIds) :=
    issues_optionalMailTargets
  have targetsSafe : Safe rosterMachine (KeepsAdmin org)
      (optionalMailTargets orgId roleId req.mailVisibleRoleIds)
      (fun _ after => after = store) store := safe_of_quiet targetsQuiet
  have targetsChecked := targetsSafe.canReturn
  apply safe_bind
  apply targetsChecked.mono
  rintro targets store ⟨rfl, targetsReturn⟩
  have keeps : ∀ keys, permissions = some keys → ADMIN ∈ keys := by
    rintro keys rfl
    by_contra lost
    have notStripped : stripsBuiltInAdmin role (some keys) = false := by
      simpa using notBuiltIn
    exact strips ⟨role, roleMem, keys, sameRole, roleOrg, accepted, lost, notStripped,
      nameReturns, targetsReturn⟩
  apply safe_rest_of_spares (a := a) ?_ grants
  refine issues_ask_bind trivial fun now => ?_
  refine Keeps.port_bind ?_ fun _ _ => ?_
  · rintro - written writtenEq
    obtain ⟨keys, isSet, rfl⟩ := Option.map_eq_some_iff.mp writtenEq
    exact mem_normalizePerms_of_mem (keeps keys isSet)
  apply Keeps.bind issues_publishSuccess
  intro _
  refine issues_ask_bind trivial ?_
  rintro (_ | updated)
  · exact Keeps.throw
  · refine Keeps.bind ?_ fun _ => Keeps.pure
    exact issues_ask_bind trivial fun _ => Keeps.pure

theorem deleteRole_keepsAdmin (consistent : store.Consistent) (hasAdmin : HasAdmin org store) :
    Safe rosterMachine (KeepsAdmin org) (deleteRole roleId orgId ctx) (fun _ _ => True) store := by
  by_cases other : ∃ a, store.Grants org ADMIN a ∧ a.roleId ≠ roleId
  · obtain ⟨a, grants, apart⟩ := other
    apply safe_of_writes (deleteRole_footprint roleId orgId ctx) grants
    intro call writes
    cases call with
    | deleteRole id =>
      rintro rfl
      exact apart writes
    | _ => exact writes.elim
  -- the role makes all admins: the guard throws
  obtain ⟨a, grants⟩ := hasAdmin
  apply safe_roleOf_bind
  intro role roleMem sameRole roleOrg
  have sameGiven : a.roleId = roleId := by
    by_contra apart
    exact other ⟨a, grants, apart⟩
  obtain ⟨given, givenMem, givenId, givenOrg, carried⟩ := grants.carried
  have same : given = role := eq_of_key_eq givenMem roleMem
    (givenId.trans (sameGiven.trans sameRole.symm))
  subst same
  have sameOrg : org = orgId := givenOrg.symm.trans roleOrg
  subst sameOrg
  apply safe_throwIf_bind
  intro _
  apply safe_bind
  apply safe_runIf
  · intro _
    apply safe_bind
    apply (safe_adminSurvivesRoleDelete consistent).mono
    rintro survives _ ⟨rfl, found⟩
    unfold throwIf
    split
    · exact safe_throw
    · rename_i survived
      exact (other (found (not_not.mp survived))).elim
  · intro notAdminRole
    exact (notAdminRole carried).elim

theorem length_adminGrants_of_onlyGrant (consistent : store.Consistent)
    (grants : store.Grants org ADMIN a)
    (only : ∀ b, store.Grants org ADMIN b → b = a) :
    (store.adminGrants a.userId org).length = 1 := by
  have listed := grants.mem_usersWithOrgWidePermission
  have counted : a ∈ store.adminGrants a.userId org := by
    obtain ⟨assigned, inOrg, orgWide, carries, -⟩ := consistent.grants_iff.mp grants
    exact mem_adminGrants.mpr ⟨assigned, rfl, inOrg, orgWide, carries⟩
  have nonempty := length_pos_of_mem counted
  have atMostOne : ¬1 < (store.adminGrants a.userId org).length := by
    intro many
    obtain ⟨b, otherCounted, apart⟩ := exists_ne_of_one_lt_length nodup_adminGrants many a
    exact apart (only b (grants_of_mem_adminGrants consistent listed otherCounted))
  omega

theorem revokeRole_keepsAdmin (consistent : store.Consistent) (hasAdmin : HasAdmin org store) :
    Safe rosterMachine (KeepsAdmin org) (revokeRole userId assignmentId orgId ctx)
      (fun _ _ => True) store := by
  by_cases other : ∃ a, store.Grants org ADMIN a ∧ a.id ≠ assignmentId
  · obtain ⟨a, grants, apart⟩ := other
    apply safe_of_writes (revokeRole_footprint userId assignmentId orgId ctx) grants
    intro call writes
    cases call with
    | deleteAssignment id =>
      rintro rfl
      exact apart writes
    | _ => exact writes.elim
  -- the assignment is the only grant: the guard throws
  push Not at other
  obtain ⟨a, grants⟩ := hasAdmin
  have sameId : a.id = assignmentId := other a grants
  have only : ∀ b, store.Grants org ADMIN b → b = a := by
    intro b otherGrants
    exact eq_of_key_eq otherGrants.assigned grants.assigned
      ((other b otherGrants).trans sameId.symm)
  apply safe_bind
  refine safe_ask_bind rfl trivial ?_
  have found : store.assignments.find? assignmentId = some a :=
    find?_eq_some.mpr ⟨grants.assigned, sameId⟩
  rw [found]
  simp only []
  split
  · rename_i held
    obtain ⟨rfl, rfl⟩ := held
    apply safe_pure
    refine safe_ask_bind rfl trivial ?_
    have sameOrg : org = a.orgId := grants.inOrg.symm
    subst sameOrg
    obtain ⟨-, -, orgWide, carries, -⟩ := consistent.grants_iff.mp grants
    obtain ⟨user, userMem, sameUser, userOrg, -⟩ := grants.active
    have isLast := isLastAdmin_of_onlyHolder consistent grants userMem sameUser userOrg
      fun b otherGrants => by rw [only b otherGrants]
    have one := length_adminGrants_of_onlyGrant consistent grants only
    apply safe_bind
    apply safe_runIf
    · intro _
      refine safe_ask_bind rfl trivial ?_
      apply safe_bind
      apply safe_countOrgWideAdminGrants.mono
      rintro count _ ⟨rfl, rfl⟩
      unfold throwIf
      rw [if_pos ⟨isLast, one⟩]
      exact safe_throw
    · intro unguarded
      have guarded : isOrgWideAdminGrant (store.roles.find? a.roleId) a = true := by
        simpa [isOrgWideAdminGrant, orgWide, Store.carries] using carries
      exact (unguarded guarded).elim
  · exact safe_throw

theorem mem_of_mem_rolePages {role : RoleRow} {pages : Nat} {cursor : String}
    (listed : role ∈ store.rolePages orgId pages cursor) :
    role ∈ store.roles ∧ role.orgId = orgId := by
  have ofPage : ∀ cursor, role ∈ (store.listRoles orgId MAX_LIMIT cursor).1 →
      role ∈ store.roles ∧ role.orgId = orgId := by
    intro cursor onPage
    have sorted := mem_of_mem_take onPage
    obtain ⟨member, selected⟩ := mem_filter.mp (mem_mergeSort.mp sorted)
    simp only [decide_eq_true_eq] at selected
    exact ⟨member, selected.1⟩
  induction pages generalizing cursor with
  | zero => simp [Store.rolePages] at listed
  | succ pages ih =>
    rw [Store.rolePages] at listed
    split at listed
    · exact ofPage cursor listed
    · rcases mem_append.mp listed with onPage | later
      · exact ofPage cursor onPage
      · exact ih later

variable {specs : List ManagedRoleSpec}

theorem issues_ensureManagedRoles_spares {dryRun : Bool} :
    Issues (fun call => ∀ a, call.Spares ADMIN a) (ensureManagedRoles orgId specs dryRun ctx) := by
  apply issues_ensureManagedRoles
  · intro row targets empty a
    trivial
  · intro id name updatedAt targets a sameId keys isSet
    cases isSet

/-- The first phase, with the fact that it can return. -/
theorem safe_ensureManagedRoles_bind {dryRun : Bool} {continuation : EnsuredRoles → Roster α}
    (rest : ∀ ensured after, (∀ a, store.Grants org ADMIN a → after.Grants org ADMIN a) →
      CanReturn rosterMachine (ensureManagedRoles orgId specs dryRun ctx) store →
        Safe rosterMachine (KeepsAdmin org) (continuation ensured) post after) :
    Safe rosterMachine (KeepsAdmin org)
      (ensureManagedRoles orgId specs dryRun ctx >>= continuation) post store := by
  have spares : Issues (fun call => ∀ a, call.Spares ADMIN a)
      (ensureManagedRoles orgId specs dryRun ctx) := issues_ensureManagedRoles_spares
  have safe : Safe rosterMachine (KeepsAdmin org) (ensureManagedRoles orgId specs dryRun ctx)
      (fun _ after => ∀ a, store.Grants org ADMIN a → after.Grants org ADMIN a) store :=
    safe_of_sparesAll spares
  have ensures := safe.canReturn
  apply safe_bind
  apply ensures.mono
  rintro ensured after ⟨kept, returns⟩
  exact rest ensured after kept returns

/-- One role of the second phase spares a grant that it may not drop. -/
theorem safe_pruneManagedRole {wanted : List String} {done : PrunedRoles}
    {role : RoleRow} (grants : store.Grants org ADMIN a)
    (spared : isUnlisted wanted role.id = true → role.id = a.roleId →
      a.isAuto = false ∧ role.permissions ≠ []) :
    Safe rosterMachine (KeepsAdmin org) (pruneManagedRole orgId wanted false ctx done role)
      (fun _ after => after.Grants org ADMIN a) store := by
  unfold pruneManagedRole
  split
  · rename_i unlisted
    refine safe_ask_bind rfl trivial ?_
    apply safe_of_spares ?_ grants
    refine Keeps.bind ?_ fun _ => Keeps.pure
    apply issues_runIf
    intro _
    apply Keeps.bind
    · apply issues_forEach
      intro b member
      apply Keeps.port
      obtain ⟨onRole, isAuto⟩ := mem_filter.mp member
      obtain ⟨assigned, sameRole⟩ := mem_filter.mp onRole
      apply spares_deleteAssignment grants.assigned assigned
      rintro rfl
      have sameId : role.id = b.roleId := (of_decide_eq_true sameRole).symm
      have notAuto := (spared unlisted sameId).1
      rw [notAuto] at isAuto
      cases isAuto
    intro _
    apply issues_runIf
    intro removable
    refine Keeps.port_bind ?_ fun _ _ => issues_publishSuccess
    intro sameId
    have carries := (spared unlisted sameId).2
    simp [isRemovable, carries] at removable
  · exact safe_pure grants

variable {req : PutManagedRolesRequest}

theorem syncManagedRoleCatalog_keepsAdmin (hasAdmin : HasAdmin org store)
    (leaves : (Op.syncManagedRoleCatalog orgId req ctx).LeavesAnAdmin org store) :
    Safe rosterMachine (KeepsAdmin org) (syncManagedRoleCatalog orgId req ctx)
      (fun _ _ => True) store := by
  apply safe_checked_bind
  intro specs accepted
  apply safe_ensureManagedRoles_bind
  intro ensured after kept returns
  refine safe_ask_bind rfl trivial ?_
  cases dryRun : req.dryRun with
  | true =>
    obtain ⟨a, before⟩ := hasAdmin
    apply safe_rest_of_spares (a := a) ?_ (kept a before)
    refine Keeps.bind (Keeps.foldlM fun done role _ => ?_) fun _ => Keeps.pure
    unfold pruneManagedRole
    split
    · refine issues_ask_bind trivial fun assignments => ?_
      refine Keeps.bind (issues_runIf fun wet => ?_) fun _ => Keeps.pure
      exact (wet rfl).elim
    · exact Keeps.pure
  | false =>
    rw [dryRun] at returns
    obtain ⟨a, before, notDropped⟩ := leaves specs ⟨accepted, dryRun, returns⟩
    have grants : after.Grants org ADMIN a := kept a before
    have prunes : Safe rosterMachine (KeepsAdmin org) ((after.allRoles orgId).foldlM
          (pruneManagedRole orgId (specs.map ManagedRoleSpec.id) false ctx)
          { deleted := [], kept := [] })
        (fun _ final => final.Grants org ADMIN a) after := by
      refine safe_foldlM ?_ grants
      intro role listed done between grantsBetween
      apply safe_pruneManagedRole grantsBetween
      intro unlisted sameId
      -- the role that was read is the one that carries the key
      obtain ⟨roleMem, roleOrg⟩ := mem_of_mem_rolePages listed
      obtain ⟨given, givenMem, givenId, givenOrg, carried⟩ := grants.carried
      have same : given = role :=
        eq_of_key_eq givenMem roleMem (givenId.trans sameId.symm)
      subst same
      have inOrg : a.orgId = orgId := grants.inOrg.trans (givenOrg.symm.trans roleOrg)
      constructor
      · by_contra isAuto
        rw [sameId] at unlisted
        exact notDropped ⟨inOrg, by simpa using isAuto, unlisted⟩
      · exact ne_nil_of_mem carried
    apply safe_bind
    apply prunes.mono
    intro pruned final _
    exact safe_pure trivial

theorem syncUserManagedRoles_keepsAdmin
    (leaves : (Op.syncUserManagedRoles userId orgId req ctx).LeavesAnAdmin org store) :
    Safe rosterMachine (KeepsAdmin org) (syncUserManagedRoles userId orgId req ctx)
      (fun _ _ => True) store := by
  apply safe_userOf_bind
  intro user userMem sameUser userOrg
  apply safe_checked_bind
  intro specs accepted
  apply safe_ensureManagedRoles_bind
  intro ensured after kept returns
  refine safe_ask_bind rfl trivial ?_
  cases dryRun : req.dryRun with
  | true =>
    apply safe_bind
    apply safe_runIf
    · intro wet
      simp at wet
    · intro _
      exact safe_pure trivial
  | false =>
    rw [dryRun] at returns
    obtain ⟨a, before, notDropped⟩ :=
      leaves specs ⟨user, userMem, sameUser, userOrg⟩ ⟨accepted, dryRun, returns⟩
    have grants : after.Grants org ADMIN a := kept a before
    apply safe_rest_of_spares (a := a) ?_ grants
    refine Keeps.bind (issues_runIf fun _ => ?_) fun _ => Keeps.pure
    apply Keeps.bind issues_actorOf
    intro actor
    apply Keeps.bind
    · apply issues_forEach
      intro roleId _
      refine issues_ask_bind trivial fun id => ?_
      refine issues_ask_bind trivial fun now => ?_
      exact Keeps.port trivial
    intro _
    apply Keeps.bind
    · apply issues_forEach
      intro b member
      apply Keeps.port
      obtain ⟨orgWide, isStale⟩ := mem_filter.mp member
      obtain ⟨listed, -⟩ := mem_filter.mp orgWide
      obtain ⟨assigned, owner⟩ := mem_filter.mp listed
      simp only [decide_eq_true_eq] at owner
      apply spares_deleteAssignment grants.assigned assigned
      rintro rfl
      exact notDropped ⟨owner.1, owner.2, isStale⟩
    intro _
    exact issues_publishSuccess

variable {toLowerCase : String → String}

theorem op_keepsAdmin (consistent : store.Consistent)
    (hasAdmin : HasAdmin org store) (leaves : op.LeavesAnAdmin org store) :
    Safe rosterMachine (KeepsAdmin org) (op.program toLowerCase) (fun _ _ => True)
      store := by
  by_cases harmless : op.IsHarmless
  · apply safe_of_harmless
    apply (op_footprint toLowerCase op).weaken
    intro call issued
    exact Op.harmless_of_mayIssue harmless issued
  cases op with
  | updateUser userId orgId req ctx =>
    exact safe_discard (updateUser_keepsAdmin consistent hasAdmin)
  | offboardUser userId orgId ctx =>
    exact safe_discard (offboardUser_keepsAdmin consistent hasAdmin)
  | syncEmailRouting orgId req ctx =>
    exact safe_discard (syncEmailRouting_keepsAdmin hasAdmin)
  | updateRole roleId orgId req ctx =>
    exact safe_discard (updateRole_keepsAdmin hasAdmin leaves)
  | deleteRole roleId orgId ctx => exact deleteRole_keepsAdmin consistent hasAdmin
  | revokeRole userId assignmentId orgId ctx =>
    exact revokeRole_keepsAdmin consistent hasAdmin
  | syncManagedRoleCatalog orgId req ctx =>
    exact safe_discard (syncManagedRoleCatalog_keepsAdmin hasAdmin leaves)
  | syncUserManagedRoles userId orgId req ctx =>
    exact safe_discard (syncUserManagedRoles_keepsAdmin leaves)
  | _ => exact (harmless trivial).elim

/-- No session of operations that leave an admin where no guard does locks an
organisation out. -/
theorem lockoutFree_of_leavesAnAdmin (toLowerCase : String → String) :
    LockoutFree toLowerCase fun org op store => op.LeavesAnAdmin org store := by
  intro org start final consistent hasAdmin session
  have kept : final.Consistent ∧ HasAdmin org final := by
    apply session.keeps ⟨consistent, hasAdmin⟩
    rintro op before after ⟨consistentBefore, hasAdminBefore⟩ leaves step
    have wellFormed := op_wellFormed toLowerCase op before
    have keepsAdmin : Safe rosterMachine (KeepsAdmin org) (op.program toLowerCase)
        (fun _ _ => True) before := op_keepsAdmin consistentBefore hasAdminBefore leaves
    exact ⟨Safe.leads wellFormed sound_consistent consistentBefore step,
      Safe.leads keepsAdmin sound_preserves hasAdminBefore step⟩
  exact kept.2

/-- `PATCH /roles/r1` with an empty permission list. -/
def emptyRole : Op :=
  .updateRole "r1" "org" { name := none, permissions := some (some []), mailVisibleRoleIds := none }
    { requestId := "request", actorId := some "u1" }

/-- Emptying a role that is not the built-in one locks its only holder out. -/
theorem not_lockoutFree : ¬LockoutFree String.toLower fun _ => anyOperation := by
  intro lockoutFree
  let final := (run rosterMachine quietOutside (emptyRole.program String.toLower).run
    soleAdminStore).2
  have leads : (identityService String.toLower).Leads emptyRole soleAdminStore final :=
    ⟨_, reaches_run rosterMachine quietOutside (emptyRole.program String.toLower).run
      soleAdminStore⟩
  have session : (identityService String.toLower).Session anyOperation soleAdminStore
      final :=
    .single ⟨emptyRole, trivial, leads⟩
  have hasAdmin : HasAdmin "org" soleAdminStore := by
    have listed : "u1" ∈ soleAdminStore.usersWithOrgWidePermission "org" ADMIN := by
      decide
    obtain ⟨a, grants, -⟩ :=
      (mem_usersWithOrgWidePermission soleAdminStore_consistent).mp listed
    exact ⟨a, grants⟩
  obtain ⟨a, grants⟩ :=
    lockoutFree "org" soleAdminStore final soleAdminStore_consistent hasAdmin session
  have nobody : final.usersWithOrgWidePermission "org" ADMIN = [] := by decide +kernel
  have listed := grants.mem_usersWithOrgWidePermission
  rw [nobody] at listed
  cases listed

end DubEcosystem.IdentityRoster
