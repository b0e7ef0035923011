import DubEcosystem.IdentityRosterGrants

/-!
# identity-roster: authorization

The rule "who holds which permission" is written four times: `evaluate` and
`effectiveOrgWidePermissions` of `authz.ts`, the granter of `in-process-granter.ts`,
and the join of `usersWithOrgWidePermission` in each of the two repositories.  They
agree in every state that the service can reach.
-/

namespace DubEcosystem.IdentityRoster

open PortPrograms SequentialPrograms List KeyedTable Function Option

/-- `roleById` is a map from role ids. -/
structure EvalContext where
  user : Option UserRow
  orgId : String
  roleById : String → Option RoleRow
  assignments : List AssignmentRow

structure AuthzQuery where
  permission : PermissionKey
  resourceType : Option String := none
  resourceId : Option String := none

/-- The precondition of both evaluations. -/
def EvalContext.isMember (ctx : EvalContext) : Bool :=
  ctx.user.any fun user => user.status = .active ∧ user.orgId = ctx.orgId

def EvalContext.allows (ctx : EvalContext) (q : AuthzQuery) (a : AssignmentRow) : Bool :=
  a.orgId = ctx.orgId ∧ (ctx.roleById a.roleId).any (fun role => q.permission ∈ role.permissions) ∧
      (a.isOrgWide ∨ (a.resourceType = q.resourceType ∧ a.resourceId = q.resourceId))

def evaluate (ctx : EvalContext) (q : AuthzQuery) : Bool :=
  if ¬ctx.isMember then false
  else if ¬isPermissionKey q.permission then false
  else ctx.assignments.any (ctx.allows q)

def EvalContext.orgWideKeys (ctx : EvalContext) (a : AssignmentRow) :
    List PermissionKey :=
  if a.orgId ≠ ctx.orgId then []
  else if ¬a.isOrgWide then []
  else
    match ctx.roleById a.roleId with
    | none => []
    | some role => role.permissions

def effectiveOrgWidePermissions (ctx : EvalContext) : List PermissionKey :=
  if ¬ctx.isMember then [] else (ctx.assignments.flatMap ctx.orgWideKeys).eraseDups

def loadRole (roleById : String → Option RoleRow) (a : AssignmentRow) :
    Roster (String → Option RoleRow) :=
  if (roleById a.roleId).isSome then pure roleById
  else do
    match ← ask (.getRole a.roleId) with
    | none => pure roleById
    | some role => pure (update roleById role.id (some role))

def loadAssignments (user : Option UserRow) (userId orgId : String) : Roster (List AssignmentRow) :=
  match user with
  | none => pure []
  | some _ => ask (.listAssignmentsByUser userId orgId)

def loadEvalContext (userId orgId : String) : Roster EvalContext := do
  let user : Option UserRow ← ask (.getUser userId)
  let assignments : List AssignmentRow ← loadAssignments user userId orgId
  let roleById : String → Option RoleRow ← assignments.foldlM loadRole fun _ => none
  pure { user, orgId, roleById, assignments }

/-- `can`, and each decision of `authzCheck`. -/
def can (userId orgId : String) (q : AuthzQuery) : Roster Bool := do
  let ctx : EvalContext ← loadEvalContext userId orgId
  pure (evaluate ctx q)

def effectivePermissions (userId orgId : String) : Roster (List PermissionKey) := do
  let ctx : EvalContext ← loadEvalContext userId orgId
  pure (effectiveOrgWidePermissions ctx)

/-- `createInProcessGranter(svc)`, applied. -/
def inProcessGranter (userId orgId : String) (keys : List PermissionKey) :
    Roster (List PermissionKey) :=
  if keys.length = 0 then pure []
  else do
    let permissions : List PermissionKey ← effectivePermissions userId orgId
    pure (keys.filter fun k => k ∈ permissions)

/-- `usersWithOrgWidePermission` of `repo/mem-repo.ts`: the roles of the organisation
first, then one pass over the assignments. -/
def Store.memUsersWithOrgWidePermission (store : Store) (orgId : String)
    (permission : PermissionKey) : List String :=
  let roleIds := (store.roles.rows.filter fun r =>
    r.orgId = orgId ∧ permission ∈ r.permissions).map RoleRow.id
  (store.assignments.rows.filterMap fun a =>
    if a.orgId ≠ orgId then none
    else if ¬a.isOrgWide then none
    else if a.roleId ∉ roleIds then none
    else ((store.users.find? a.userId).filter fun u => u.status = .active).map UserRow.id).eraseDups

variable {store : Store} {userId orgId : String} {permission : PermissionKey}

def ReadsRoles (store : Store) (roleById : String → Option RoleRow) : Prop :=
  ∀ id role, roleById id = some role → store.roles.find? id = some role

variable {roleById : String → Option RoleRow}

theorem exists_reads_loadRole (a : AssignmentRow) (sound : ReadsRoles store roleById) :
    ∃ loaded, Reads rosterMachine (loadRole roleById a) store loaded ∧
      ReadsRoles store loaded ∧ loaded a.roleId = store.roles.find? a.roleId ∧
        ∀ id role, roleById id = some role → loaded id = some role := by
  have reads : rosterMachine.exec (.getRole a.roleId) store =
      some (.ok (store.roles.find? a.roleId), store) := rfl
  unfold loadRole
  cases known : roleById a.roleId with
  | some role =>
    refine ⟨roleById, reads_pure, sound, ?_, fun id role isLoaded => isLoaded⟩
    rw [known, sound a.roleId role known]
  | none =>
    cases found : store.roles.find? a.roleId with
    | none =>
      rw [found] at reads
      exact ⟨roleById, reads_port_bind reads reads_pure, sound, known,
        fun id role isLoaded => isLoaded⟩
    | some role =>
      rw [found] at reads
      have sameId : role.id = a.roleId := (find?_eq_some.mp found).2
      refine ⟨update roleById role.id (some role), reads_port_bind reads reads_pure, ?_, ?_, ?_⟩
      · intro id other isLoaded
        by_cases same : id = role.id
        · subst same
          rw [update_self] at isLoaded
          rw [sameId, found, isLoaded]
        · rw [update_of_ne same] at isLoaded
          exact sound id other isLoaded
      · rw [sameId, update_self]
      · intro id other wasLoaded
        have apart : id ≠ role.id := by
          rintro rfl
          rw [sameId, known] at wasLoaded
          cases wasLoaded
        rw [update_of_ne apart, wasLoaded]

theorem exists_reads_loadRoles (assignments : List AssignmentRow)
    (sound : ReadsRoles store roleById) :
    ∃ loaded, Reads rosterMachine (assignments.foldlM loadRole roleById) store loaded ∧
      ReadsRoles store loaded ∧ (∀ a ∈ assignments, loaded a.roleId = store.roles.find? a.roleId) ∧
          ∀ id role, roleById id = some role → loaded id = some role := by
  induction assignments generalizing roleById with
  | nil => exact ⟨roleById, reads_pure, sound, by simp, fun id role isLoaded => isLoaded⟩
  | cons a rest ih =>
    obtain ⟨first, readsFirst, soundFirst, atFirst, keptFirst⟩ :=
      exists_reads_loadRole a sound
    obtain ⟨loaded, readsRest, soundRest, atRest, keptRest⟩ := ih soundFirst
    refine ⟨loaded, ?_, soundRest, ?_, ?_⟩
    · rw [foldlM_cons]
      exact reads_bind readsFirst readsRest
    · intro b member
      rcases mem_cons.mp member with rfl | later
      · cases found : store.roles.find? b.roleId with
        | some role =>
          rw [found] at atFirst
          exact keptRest b.roleId role atFirst
        | none =>
          cases isLoaded : loaded b.roleId with
          | none => rfl
          | some role =>
            have inStore := soundRest b.roleId role isLoaded
            rw [found] at inStore
            cases inStore
      · exact atRest b later
    · intro id role wasLoaded
      exact keptRest id role (keptFirst id role wasLoaded)

/-- What `loadEvalContext` gathers. -/
structure EvalContext.Describes (ctx : EvalContext) (store : Store)
    (userId orgId : String) : Prop where
  user : ctx.user = store.users.find? userId
  org : ctx.orgId = orgId
  assignments : ctx.user.isSome = true →
    ctx.assignments = store.listAssignmentsByUser userId orgId
  roles : ∀ a ∈ ctx.assignments, ctx.roleById a.roleId = store.roles.find? a.roleId

theorem exists_reads_loadEvalContext (store : Store) (userId orgId : String) :
    ∃ ctx, Reads rosterMachine (loadEvalContext userId orgId) store ctx ∧
      ctx.Describes store userId orgId := by
  have readsUser : rosterMachine.exec (.getUser userId) store =
      some (.ok (store.users.find? userId), store) := rfl
  have nothing : ReadsRoles store fun _ => none := nofun
  cases found : store.users.find? userId with
  | none =>
    rw [found] at readsUser
    refine ⟨{ user := none, orgId, roleById := fun _ => none, assignments := [] },
      ?_, found.symm, rfl, nofun, nofun⟩
    exact reads_port_bind readsUser (reads_bind reads_pure (reads_bind reads_pure reads_pure))
  | some user =>
    rw [found] at readsUser
    obtain ⟨roleById, readsRoles, -, atRoles, -⟩ :=
      exists_reads_loadRoles (store.listAssignmentsByUser userId orgId) nothing
    refine ⟨{ user := some user, orgId, roleById
              assignments := store.listAssignmentsByUser userId orgId },
      ?_, found.symm, rfl, fun _ => rfl, atRoles⟩
    exact reads_port_bind readsUser (reads_port_bind rfl (reads_bind readsRoles reads_pure))

variable {ctx : EvalContext}

section

variable (describes : ctx.Describes store userId orgId)
include describes

theorem isMember_eq_true : ctx.isMember = true ↔ ∃ user ∈ store.users, user.id = userId ∧
      user.orgId = orgId ∧ user.status = .active := by
  rw [EvalContext.isMember, describes.user, describes.org, Option.any_eq_true]
  constructor
  · rintro ⟨user, found, holds⟩
    obtain ⟨member, sameId⟩ := find?_eq_some.mp found
    simp only [decide_eq_true_eq] at holds
    exact ⟨user, member, sameId, holds.2, holds.1⟩
  · rintro ⟨user, member, sameId, sameOrg, isActive⟩
    exact ⟨user, find?_eq_some.mpr ⟨member, sameId⟩, by simp [isActive, sameOrg]⟩

section

variable (consistent : store.Consistent)
include consistent

theorem grants_iff_of_describes {a : AssignmentRow} :
    store.Grants orgId permission a ∧ a.userId = userId ↔
      ctx.isMember = true ∧ a ∈ ctx.assignments ∧ a.orgId = ctx.orgId ∧ a.isOrgWide = true ∧
          ∃ role, ctx.roleById a.roleId = some role ∧ permission ∈ role.permissions := by
  constructor
  · rintro ⟨grants, rfl⟩
    obtain ⟨user, userMem, sameUser, userOrg, isActive⟩ := grants.active
    obtain ⟨role, roleMem, sameRole, -, carried⟩ := grants.carried
    have isMember : ctx.isMember = true :=
      (isMember_eq_true describes).mpr ⟨user, userMem, sameUser, userOrg, isActive⟩
    have known : ctx.user.isSome = true := by
      rw [describes.user, find?_eq_some.mpr ⟨userMem, sameUser⟩]
      rfl
    have listed : a ∈ ctx.assignments := by
      rw [describes.assignments known]
      exact mem_filter.mpr ⟨grants.assigned, by simp [grants.inOrg]⟩
    refine ⟨isMember, listed, ?_, grants.orgWide, role, ?_, carried⟩
    · rw [grants.inOrg, describes.org]
    · rw [describes.roles a listed]
      exact find?_eq_some.mpr ⟨roleMem, sameRole⟩
  · rintro ⟨isMember, listed, inOrg, orgWide, role, found, carried⟩
    obtain ⟨user, userMem, sameUser, userOrg, isActive⟩ :=
      (isMember_eq_true describes).mp isMember
    have known : ctx.user.isSome = true := by
      rw [describes.user, find?_eq_some.mpr ⟨userMem, sameUser⟩]
      rfl
    rw [describes.roles a listed] at found
    rw [describes.assignments known] at listed
    obtain ⟨assigned, owner⟩ := mem_filter.mp listed
    simp only [decide_eq_true_eq] at owner
    obtain ⟨roleMem, sameRole⟩ := find?_eq_some.mp found
    refine ⟨consistent.grants_iff.mpr ⟨assigned, owner.2, orgWide, ?_, ?_⟩, owner.1⟩
    · exact carries_eq_true.mpr ⟨role, roleMem, sameRole, carried⟩
    · rw [owner.1]
      exact isActive_eq_true.mpr ⟨user, userMem, sameUser, isActive⟩

theorem evaluate_eq_true : evaluate ctx { permission } = true ↔ isPermissionKey permission = true ∧
      ∃ a, store.Grants orgId permission a ∧ a.userId = userId := by
  simp only [grants_iff_of_describes describes consistent]
  unfold evaluate
  cases ctx.isMember with
  | false => simp
  | true =>
    cases isPermissionKey permission with
    | false => simp
    | true =>
      simp only [not_true_eq_false, if_false, List.any_eq_true, true_and]
      apply exists_congr
      intro a
      simp only [EvalContext.allows, decide_eq_true_eq, Option.any_eq_true,
        AssignmentRow.isOrgWide_eq_true]
      tauto

theorem mem_effectiveOrgWidePermissions : permission ∈ effectiveOrgWidePermissions ctx ↔
      ∃ a, store.Grants orgId permission a ∧ a.userId = userId := by
  simp only [grants_iff_of_describes describes consistent]
  unfold effectiveOrgWidePermissions
  cases ctx.isMember with
  | false => simp
  | true =>
    simp only [not_true_eq_false, if_false, mem_eraseDups, mem_flatMap, true_and]
    apply exists_congr
    intro a
    apply and_congr_right
    intro _
    unfold EvalContext.orgWideKeys
    by_cases inOrg : a.orgId = ctx.orgId
    · by_cases orgWide : a.isOrgWide = true
      · cases found : ctx.roleById a.roleId with
        | none | some role => simp [inOrg, orgWide]
      · simp [inOrg, orgWide]
    · simp [inOrg]

omit describes in
theorem mem_memUsersWithOrgWidePermission :
    userId ∈ store.memUsersWithOrgWidePermission orgId permission ↔
      ∃ a, store.Grants orgId permission a ∧ a.userId = userId := by
  unfold Store.memUsersWithOrgWidePermission
  rw [mem_eraseDups, mem_filterMap]
  apply exists_congr
  intro a
  constructor
  · rintro ⟨assigned, listed⟩
    by_cases inOrg : a.orgId = orgId
    · by_cases orgWide : a.isOrgWide = true
      · by_cases ofRole : a.roleId ∈ (store.roles.rows.filter fun r =>
            r.orgId = orgId ∧ permission ∈ r.permissions).map RoleRow.id
        · simp only [inOrg, orgWide, ofRole, ne_eq, not_true_eq_false, if_false,
            map_eq_some_iff, filter_eq_some_iff] at listed
          obtain ⟨user, ⟨found, isActive⟩, rfl⟩ := listed
          obtain ⟨role, selected, sameRole⟩ := List.mem_map.mp ofRole
          obtain ⟨roleMem, carries⟩ := mem_filter.mp selected
          obtain ⟨userMem, sameUser⟩ := find?_eq_some.mp found
          simp only [decide_eq_true_eq] at carries isActive
          refine ⟨consistent.grants_iff.mpr ⟨assigned, inOrg, orgWide, ?_, ?_⟩, sameUser.symm⟩
          · exact carries_eq_true.mpr ⟨role, roleMem, sameRole, carries.2⟩
          · exact isActive_eq_true.mpr ⟨user, userMem, sameUser, isActive⟩
        · simp only [inOrg, orgWide, ofRole, ne_eq, not_true_eq_false, if_false,
            not_false_eq_true, if_true, reduceCtorEq] at listed
      · simp [inOrg, orgWide] at listed
    · simp [inOrg] at listed
  · rintro ⟨grants, rfl⟩
    obtain ⟨user, userMem, sameUser, -, isActive⟩ := grants.active
    obtain ⟨role, roleMem, sameRole, roleOrg, carried⟩ := grants.carried
    have ofRole : a.roleId ∈ (store.roles.rows.filter fun r =>
        r.orgId = orgId ∧ permission ∈ r.permissions).map RoleRow.id := by
      refine List.mem_map.mpr ⟨role, mem_filter.mpr ⟨roleMem, ?_⟩, sameRole⟩
      simp [roleOrg, carried]
    have found := find?_eq_some.mpr ⟨userMem, sameUser⟩
    refine ⟨grants.assigned, ?_⟩
    simp only [grants.inOrg, grants.orgWide, ofRole, found, ne_eq, not_true_eq_false,
      if_false, Option.filter, isActive, decide_true, if_true, map_some, sameUser]

/-- All implementations agree on the user of the context, its organisation and the
key. -/
structure EvalContext.Agrees (ctx : EvalContext) (store : Store) (userId orgId : String)
    (permission : PermissionKey) : Prop where
  aggregation : evaluate ctx { permission } = true ↔
    permission ∈ effectiveOrgWidePermissions ctx
  granter : ∀ keys, permission ∈ keys → ∃ held,
    Reads rosterMachine (inProcessGranter userId orgId keys) store held ∧
      (evaluate ctx { permission } = true ↔ permission ∈ held)
  join : evaluate ctx { permission } = true ↔
    userId ∈ store.usersWithOrgWidePermission orgId permission
  memJoin : evaluate ctx { permission } = true ↔
    userId ∈ store.memUsersWithOrgWidePermission orgId permission
  withResource : ∀ resourceType resourceId, evaluate ctx { permission } = true →
    evaluate ctx { permission, resourceType, resourceId } = true

omit describes consistent in
theorem evaluate_of_orgWide {resourceType resourceId : Option String}
    (allowed : evaluate ctx { permission } = true) :
    evaluate ctx { permission, resourceType, resourceId } = true := by
  unfold evaluate at allowed ⊢
  split at allowed
  · cases allowed
  · split at allowed
    · cases allowed
    · rename_i isMember isKey
      rw [if_neg isMember, if_neg isKey]
      obtain ⟨a, listed, allows⟩ := any_eq_true.mp allowed
      apply any_eq_true.mpr
      refine ⟨a, listed, ?_⟩
      simp only [EvalContext.allows, decide_eq_true_eq, AssignmentRow.isOrgWide_eq_true] at allows ⊢
      tauto

theorem agrees_of_describes (reads : Reads rosterMachine (loadEvalContext userId orgId) store ctx)
    (inCatalog : isPermissionKey permission = true) : ctx.Agrees store userId orgId permission := by
  have evaluates : evaluate ctx { permission } = true ↔ isPermissionKey permission = true ∧
      ∃ a, store.Grants orgId permission a ∧ a.userId = userId :=
    evaluate_eq_true describes consistent
  have aggregates : permission ∈ effectiveOrgWidePermissions ctx ↔
      ∃ a, store.Grants orgId permission a ∧ a.userId = userId :=
    mem_effectiveOrgWidePermissions describes consistent
  rw [inCatalog] at evaluates
  simp only [true_and] at evaluates
  constructor
  · rw [evaluates, aggregates]
  · intro keys listed
    refine ⟨keys.filter fun k => k ∈ effectiveOrgWidePermissions ctx, ?_, ?_⟩
    · unfold inProcessGranter
      rw [if_neg (by simpa using ne_nil_of_mem listed)]
      exact reads_bind (reads_bind reads reads_pure) reads_pure
    · rw [mem_filter, decide_eq_true_eq, evaluates, aggregates]
      simp [listed]
  · rw [evaluates, mem_usersWithOrgWidePermission consistent]
  · rw [evaluates, mem_memUsersWithOrgWidePermission consistent]
  · intro resourceType resourceId allowed
    exact evaluate_of_orgWide allowed

end

end

variable {toLowerCase : String → String}

theorem consistent_of_session {start final : Store} (consistent : start.Consistent)
    (session : (identityService toLowerCase).Session anyOperation start final) :
    final.Consistent := by
  apply session.keeps consistent
  intro op before after holds _ leads
  exact Safe.leads (op_wellFormed toLowerCase op before) sound_consistent holds leads

theorem inCatalog_of_session {start final : Store} (inCatalog : start.InCatalog)
    (session : (identityService toLowerCase).Session anyOperation start final) :
    final.InCatalog := by
  apply session.keeps inCatalog
  intro op before after holds _ leads
  exact Safe.leads (op_wellFormed toLowerCase op before) sound_inCatalog holds leads

/-- In every state of every session all implementations of the rule agree. -/
theorem exists_agreeing_context (toLowerCase : String → String) {start final : Store}
    (consistent : start.Consistent)
    (session : (identityService toLowerCase).Session anyOperation start final)
    (userId orgId : String) {permission : PermissionKey}
    (inCatalog : isPermissionKey permission = true) :
    ∃ ctx, Reads rosterMachine (loadEvalContext userId orgId) final ctx ∧
      ctx.Agrees final userId orgId permission := by
  obtain ⟨ctx, reads, describes⟩ := exists_reads_loadEvalContext final userId orgId
  have consistentFinal := consistent_of_session consistent session
  exact ⟨ctx, reads, agrees_of_describes describes consistentFinal reads inCatalog⟩

theorem exists_agreeing_context_of_soleAdmin :
    ∃ ctx, Reads rosterMachine (loadEvalContext "u1" "org") soleAdminStore ctx ∧
      ctx.Agrees soleAdminStore "u1" "org" ADMIN :=
  exists_agreeing_context String.toLower soleAdminStore_consistent .refl "u1" "org" (by decide)

end DubEcosystem.IdentityRoster
