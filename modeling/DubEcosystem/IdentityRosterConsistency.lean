import DubEcosystem.IdentityRosterFootprint

/-!
# identity-roster: consistency of the store

Every assignment belongs to the organisation of its user and of its role, no two
assignments have one scope, and the roles carry keys of the catalog only.  The
schema does not enforce the first and the last: they hold because every operation
checks before it writes, and so they hold in every state of a session.
-/

namespace DubEcosystem.IdentityRoster

open PortPrograms SequentialPrograms KeyedTable List

variable (store : Store)

def Store.HasUser (userId orgId : String) : Prop :=
  ∃ user ∈ store.users, user.id = userId ∧ user.orgId = orgId

def Store.HasRole (roleId orgId : String) : Prop :=
  ∃ role ∈ store.roles, role.id = roleId ∧ role.orgId = orgId

structure Store.Consistent (store : Store) : Prop where
  scopes : ∀ a ∈ store.assignments, ∀ b ∈ store.assignments, a.scope = b.scope → a = b
  users : ∀ a ∈ store.assignments, store.HasUser a.userId a.orgId
  roles : ∀ a ∈ store.assignments, store.HasRole a.roleId a.orgId

def Store.InCatalog : Prop :=
  ∀ role ∈ store.roles, ∀ key ∈ role.permissions, isPermissionKey key = true

/-- What an operation has checked when it issues the call. -/
def Call.WellFormed (call : Call) (store : Store) : Prop :=
  match call with
  | .createAssignment row =>
    store.HasUser row.userId row.orgId ∧ store.HasRole row.roleId row.orgId
  | .createRole row _ => ∀ key ∈ row.permissions, isPermissionKey key = true
  | .updateRolePermissions _ _ permissions _ _ =>
    ∀ keys, permissions = some keys → ∀ key ∈ keys, isPermissionKey key = true
  | _ => True

variable {call : Call} {before after : Store}

section

variable (move : Move call before after)
include move

theorem Move.hasUser {userId orgId : String} (has : before.HasUser userId orgId) :
    after.HasUser userId orgId := by
  obtain ⟨user, member, sameId, sameOrg⟩ := has
  rcases move.user_mem member with rfl | stays
  · exact ⟨user, member, sameId, sameOrg⟩
  · exact ⟨call.userAfter user, stays, by simpa using sameId, by simpa using sameOrg⟩

theorem Move.hasRole {roleId orgId : String} (kept : call ≠ .deleteRole roleId)
    (has : before.HasRole roleId orgId) : after.HasRole roleId orgId := by
  obtain ⟨role, member, rfl, sameOrg⟩ := has
  rcases move.role_mem member with rfl | deleted | stays
  · exact ⟨role, member, rfl, sameOrg⟩
  · exact (kept deleted).elim
  · exact ⟨call.roleAfter role, stays, by simp, by simpa using sameOrg⟩

variable {a : AssignmentRow}

/-- A role that is deleted takes its assignments along. -/
theorem Move.roleId_ne (moved : after ≠ before)
    (member : a ∈ after.assignments) : call ≠ .deleteRole a.roleId := by
  rintro rfl
  cases move with
  | still => exact moved rfl
  | deleteRole =>
    have apart := (mem_deleteWhere.mp member).2
    simp at apart

omit move in
theorem Call.assignmentAfter_scope (a : AssignmentRow) : (call.assignmentAfter a).scope = a.scope ∧
      (call.assignmentAfter a).userId = a.userId ∧ (call.assignmentAfter a).roleId = a.roleId ∧
          (call.assignmentAfter a).orgId = a.orgId := by
  unfold Call.assignmentAfter
  split
  · split <;> exact ⟨rfl, rfl, rfl, rfl⟩
  · exact ⟨rfl, rfl, rfl, rfl⟩

theorem Move.assignment_ends (wellFormed : call.WellFormed before)
    (consistent : before.Consistent) (member : a ∈ after.assignments) :
    before.HasUser a.userId a.orgId ∧ before.HasRole a.roleId a.orgId := by
  rcases move.mem_assignment member with old | ⟨old, oldMem, rfl⟩ | ⟨row, rfl, rfl, -⟩
  · exact ⟨consistent.users a old, consistent.roles a old⟩
  · obtain ⟨-, sameUser, sameRole, sameOrg⟩ := call.assignmentAfter_scope old
    rw [sameUser, sameRole, sameOrg]
    exact ⟨consistent.users old oldMem, consistent.roles old oldMem⟩
  · exact wellFormed

theorem Move.scopes
    (scopes : ∀ a ∈ before.assignments, ∀ b ∈ before.assignments, a.scope = b.scope → a = b) :
    ∀ a ∈ after.assignments, ∀ b ∈ after.assignments, a.scope = b.scope → a = b := by
  cases move with
  | createAssignment fresh inserted =>
    intro a aMem b bMem same
    rcases (mem_insert? inserted).mp aMem with aOld | rfl
    · rcases (mem_insert? inserted).mp bMem with bOld | rfl
      · exact scopes a aOld b bOld same
      · exact (fresh a aOld same).elim
    · rcases (mem_insert? inserted).mp bMem with bOld | rfl
      · exact (fresh b bOld same.symm).elim
      · rfl
  | setAssignmentSource =>
    intro a aMem b bMem same
    simp only [Store.setAssignmentSource, mem_update] at aMem bMem
    obtain ⟨oldA, oldAMem, rfl⟩ := aMem
    obtain ⟨oldB, oldBMem, rfl⟩ := bMem
    have sameScope : oldA.scope = oldB.scope := by
      split at same <;> split at same <;> exact same
    rw [scopes oldA oldAMem oldB oldBMem sameScope]
  | deleteRole | deleteAssignment =>
    intro a aMem b bMem same
    exact scopes a (mem_deleteWhere.mp aMem).1 b (mem_deleteWhere.mp bMem).1 same
  | _ => exact scopes

theorem Move.consistent (wellFormed : call.WellFormed before) (consistent : before.Consistent) :
    after.Consistent := by
  by_cases moved : after = before
  · exact moved ▸ consistent
  constructor
  · exact move.scopes consistent.scopes
  · intro a member
    exact move.hasUser (move.assignment_ends wellFormed consistent member).1
  · intro a member
    exact move.hasRole (move.roleId_ne moved member)
      (move.assignment_ends wellFormed consistent member).2

theorem Move.inCatalog (wellFormed : call.WellFormed before) (inCatalog : before.InCatalog) :
    after.InCatalog := by
  intro role member key keyMem
  rcases move.mem_role member with old | ⟨old, oldMem, rfl⟩ | ⟨targets, rfl⟩
  · exact inCatalog role old key keyMem
  · cases call with
    | updateRolePermissions roleId name permissions updatedAt targets =>
      simp only [Call.roleAfter] at keyMem
      split at keyMem
      · cases permissions with
        | none => exact inCatalog old oldMem key keyMem
        | some keys => exact wellFormed keys rfl key keyMem
      · exact inCatalog old oldMem key keyMem
    | _ => exact inCatalog old oldMem key keyMem
  · exact wellFormed key keyMem

end

theorem sound_consistent : Sound rosterMachine Call.WellFormed Store.Consistent := by
  intro request before answer after consistent wellFormed answers
  exact (move_of_answers answers).consistent wellFormed consistent

theorem sound_inCatalog : Sound rosterMachine Call.WellFormed Store.InCatalog := by
  intro request before answer after inCatalog wellFormed answers
  exact (move_of_answers answers).inCatalog wellFormed inCatalog

section Checks

variable {World α β : Type} {machine : Interleaving.Machine (rosterPorts.signature Thrown) World}
  {pre : Call → World → Prop} {world : World}

variable {post : β → World → Prop}

theorem safe_throwIf_bind {condition : Prop} [Decidable condition] {thrown : Thrown}
    {continuation : Unit → Roster β}
    (rest : ¬condition → Safe machine pre (continuation ()) post world) :
    Safe machine pre (throwIf condition thrown >>= continuation) post world := by
  apply safe_bind
  unfold throwIf
  split
  · exact safe_throw
  · rename_i holds
    exact safe_pure (rest holds)

theorem safe_runIf {condition : Prop} [Decidable condition] {action : Roster Unit}
    {post : Unit → World → Prop}
    (runs : condition → Safe machine pre action post world)
    (skips : ¬condition → post () world) :
    Safe machine pre (runIf condition action) post world := by
  unfold runIf
  split
  · rename_i holds
    exact runs holds
  · rename_i fails
    exact safe_pure (skips fails)

theorem safe_checked_bind {outcome : Except Thrown α} {continuation : α → Roster β}
    (rest : ∀ value, outcome = .ok value → Safe machine pre (continuation value) post world) :
    Safe machine pre (checked outcome >>= continuation) post world := by
  apply safe_bind
  cases outcome with
  | error thrown => exact safe_throw
  | ok value => exact safe_pure (rest value rfl)

end Checks

section Rules

variable {α β : Type} {pre : Call → Store → Prop} {store : Store}

/-- Quiet calls are permitted, whatever the store. -/
class AllowsQuietAt (pre : Call → Store → Prop) : Prop where
  allows : ∀ call store, Call.IsQuiet call → pre call store

variable [AllowsQuietAt pre]

variable {action : Roster α}

theorem safe_of_quiet (issues : Issues Call.IsQuiet action) :
    Safe rosterMachine pre action (fun _ after => after = store) store := by
  refine safe_of_keeps issues ?_ ?_ rfl
  · intro request before isQuiet _
    exact AllowsQuietAt.allows request before isQuiet
  · intro request before answer after unmoved isQuiet answers
    rw [eq_of_isQuiet isQuiet answers, unmoved]

variable {post : β → Store → Prop}

theorem safe_ask_bind {request : Call} {result : Result request}
    {continuation : Result request → Roster β}
    (reads : rosterMachine.exec request store = some (.ok result, store)) (quiet : request.IsQuiet)
    (rest : Safe rosterMachine pre (continuation result) post store) :
    Safe rosterMachine pre (port request >>= continuation) post store :=
  safe_read_bind reads (AllowsQuietAt.allows _ _ quiet) rest

theorem safe_issues_bind {continuation : α → Roster β} (issues : Issues Call.IsQuiet action)
    (rest : ∀ value, Safe rosterMachine pre (continuation value) post store) :
    Safe rosterMachine pre (action >>= continuation) post store := by
  apply safe_bind
  refine (safe_of_quiet issues).mono ?_
  rintro value after rfl
  exact rest value

theorem safe_userOf_bind {userId orgId : String} {continuation : UserRow → Roster β}
    (rest : ∀ user ∈ store.users, user.id = userId → user.orgId = orgId →
      Safe rosterMachine pre (continuation user) post store) :
    Safe rosterMachine pre (userOf userId orgId >>= continuation) post store := by
  apply safe_bind
  unfold userOf
  refine safe_ask_bind rfl trivial ?_
  cases found : store.users.find? userId with
  | none => exact safe_throw
  | some user =>
    obtain ⟨member, sameId⟩ := find?_eq_some.mp found
    simp only []
    split
    · rename_i sameOrg
      exact safe_pure (rest user member sameId sameOrg)
    · exact safe_throw

theorem safe_roleOf_bind {roleId orgId : String} {continuation : RoleRow → Roster β}
    (rest : ∀ role ∈ store.roles, role.id = roleId → role.orgId = orgId →
      Safe rosterMachine pre (continuation role) post store) :
    Safe rosterMachine pre (roleOf roleId orgId >>= continuation) post store := by
  apply safe_bind
  unfold roleOf
  refine safe_ask_bind rfl trivial ?_
  cases found : store.roles.find? roleId with
  | none => exact safe_throw
  | some role =>
    obtain ⟨member, sameId⟩ := find?_eq_some.mp found
    simp only []
    split
    · rename_i sameOrg
      exact safe_pure (rest role member sameId sameOrg)
    · exact safe_throw

omit [AllowsQuietAt pre] in
/-- A loop of checks, each of which establishes a fact. -/
theorem safe_forEach {items : List α} {step : α → Roster Unit} {inv : Store → Prop}
    {fact : α → Prop}
    (each : ∀ item ∈ items, ∀ before, inv before →
      Safe rosterMachine pre (step item) (fun _ after => inv after ∧ fact item) before)
    (holds : inv store) :
    Safe rosterMachine pre (forEach items step)
      (fun _ after => inv after ∧ ∀ item ∈ items, fact item) store := by
  unfold forEach
  induction items generalizing store with
  | nil => exact safe_pure ⟨holds, by simp⟩
  | cons item items ih =>
    rw [foldlM_cons]
    apply safe_bind
    refine (each item (.head _) store holds).mono ?_
    rintro - between ⟨kept, fact⟩
    refine (ih (fun other member => each other (mem_cons_of_mem item member)) kept).mono ?_
    rintro - after ⟨keptAfter, facts⟩
    exact ⟨keptAfter, forall_mem_cons.mpr ⟨fact, facts⟩⟩

end Rules

section Operations

theorem wellFormed_of_isQuiet (call : Call) (store : Store) (quiet : call.IsQuiet) :
    call.WellFormed store := by
  cases call with
  | createAssignment row | createRole row targets
  | updateRolePermissions roleId name permissions updatedAt targets =>
    exact quiet.elim
  | _ => trivial

instance : AllowsQuietAt Call.WellFormed :=
  ⟨wellFormed_of_isQuiet⟩

instance : AllowsQuiet fun call => ∀ store, call.WellFormed store :=
  ⟨fun call quiet store => wellFormed_of_isQuiet call store quiet⟩

variable {store : Store}

/-- Calls that meet no condition of `WellFormed` can be issued anywhere. -/
theorem safe_of_always {α : Type} {action : Roster α}
    (issues : Issues (fun call => ∀ store, call.WellFormed store) action) :
    Safe rosterMachine Call.WellFormed action (fun _ _ => True) store :=
  safe_of_keeps issues (fun _ before always _ => always before)
    (fun _ _ _ _ _ _ _ => trivial) trivial

theorem safe_of_quietCalls {α : Type} {action : Roster α} (issues : Issues Call.IsQuiet action) :
    Safe rosterMachine Call.WellFormed action (fun _ _ => True) store :=
  safe_of_always (issues.weaken fun call quiet store =>
    wellFormed_of_isQuiet call store quiet)

theorem mem_users_of_createUser {row : UserRow}
    (answers : rosterMachine.Answers (.createUser row) before (.ok ()) after) :
    row ∈ after.users := by
  have commits : before.commit (before.createUser row) = (.ok (), after) := answers
  unfold Store.createUser at commits
  split at commits
  · cases inserted : before.users.insert? row with
    | none => simp [inserted, Store.commit] at commits
    | some users =>
      simp only [inserted, Option.map_some, Store.commit, Prod.mk.injEq, true_and] at commits
      subst commits
      exact (mem_insert? inserted).mpr (Or.inr rfl)
  · simp [Store.commit] at commits

theorem mem_roles_of_createRole {row : RoleRow} {targets : List String}
    (answers : rosterMachine.Answers (.createRole row targets) before (.ok ()) after) :
    row ∈ after.roles := by
  have commits : before.commit (before.createRole row targets) = (.ok (), after) := answers
  unfold Store.createRole at commits
  split at commits
  · cases inserted : before.roles.insert? row with
    | none => simp [inserted, Store.commit] at commits
    | some roles =>
      simp only [inserted, Option.map_some, Store.commit, Prod.mk.injEq, true_and] at commits
      subst commits
      exact (mem_insert? inserted).mpr (Or.inr rfl)
  · simp [Store.commit] at commits

theorem safe_requireRole {orgId roleId : String} :
    Safe rosterMachine Call.WellFormed (requireRole orgId roleId)
      (fun _ after => after = store ∧ store.HasRole roleId orgId) store := by
  refine safe_read_bind rfl trivial ?_
  unfold throwIf
  split
  · exact safe_throw
  · rename_i accepted
    apply safe_pure
    cases found : store.roles.find? roleId with
    | none => simp [found] at accepted
    | some role =>
      obtain ⟨member, sameId⟩ := find?_eq_some.mp found
      have sameOrg : role.orgId = orgId := by simpa [found] using accepted
      exact ⟨rfl, role, member, sameId, sameOrg⟩

structure Store.Ends (store : Store) (userId orgId : String) (roleIds : List String) : Prop where
  user : store.HasUser userId orgId
  roles : ∀ roleId ∈ roleIds, store.HasRole roleId orgId

variable {userId orgId : String}

variable {roleIds : List String}

theorem Move.ends (move : Move call before after)
    (kept : ∀ roleId ∈ roleIds, call ≠ .deleteRole roleId)
    (ends : before.Ends userId orgId roleIds) : after.Ends userId orgId roleIds where
  user := move.hasUser ends.user
  roles roleId member := move.hasRole (kept roleId member) (ends.roles roleId member)

theorem safe_createAssignment {row : AssignmentRow}
    (listed : row.roleId ∈ roleIds) (ends : store.Ends row.userId row.orgId roleIds) :
    Safe rosterMachine Call.WellFormed (ask (.createAssignment row))
      (fun _ after => after.Ends row.userId row.orgId roleIds) store := by
  refine safe_port ⟨ends.user, ends.roles row.roleId listed⟩ ?_
  intro result after answers
  exact (move_of_answers answers).ends (fun _ _ => nofun) ends

variable {ctx : RequestCtx}

theorem safe_inviteAssignments {user : UserRow} {now : String}
    (ends : store.Ends user.id user.orgId roleIds) :
    Safe rosterMachine Call.WellFormed (forEach roleIds (inviteAssignment user ctx now))
      (fun _ after => after.Ends user.id user.orgId roleIds) store := by
  refine safe_foldlM ?_ ends
  intro roleId member _ before ends
  refine safe_issues_bind (Keeps.port trivial) fun _ => ?_
  exact safe_createAssignment member ends

variable (toLowerCase : String → String)

theorem invite_wellFormed (orgId : String) (req : InviteUserRequest) (ctx : RequestCtx)
    (store : Store) :
    Safe rosterMachine Call.WellFormed (invite toLowerCase orgId req ctx)
      (fun _ _ => True) store := by
  refine safe_issues_bind issues_checked fun email => ?_
  refine safe_issues_bind (Keeps.port trivial) fun org => ?_
  refine safe_issues_bind issues_throwIf fun _ => ?_
  refine safe_issues_bind (Keeps.port trivial) fun existing => ?_
  refine safe_issues_bind issues_throwIf fun _ => ?_
  have requires : Safe rosterMachine Call.WellFormed
      (forEach (req.roleIds.getD []) (requireRole orgId))
      (fun _ after => after = store ∧
        ∀ roleId ∈ req.roleIds.getD [], store.HasRole roleId orgId) store := by
    refine safe_forEach ?_ rfl
    rintro roleId - before rfl
    exact safe_requireRole
  refine safe_bind (requires.mono ?_)
  rintro - after ⟨rfl, hasRoles⟩
  refine safe_issues_bind (Keeps.port trivial) fun now => ?_
  refine safe_issues_bind (Keeps.port trivial) fun userId => ?_
  refine safe_port_bind trivial fun _ created answers => ?_
  have ends : created.Ends userId orgId (req.roleIds.getD []) := by
    constructor
    · exact ⟨_, mem_users_of_createUser answers, rfl, rfl⟩
    · intro roleId member
      exact (move_of_answers answers).hasRole nofun (hasRoles roleId member)
  refine safe_bind ((safe_inviteAssignments ?_).mono fun _ _ _ => ?_)
  · exact ends
  · exact safe_of_quietCalls (Keeps.bind issues_publishSuccess fun _ => issues_viewUser)

theorem assignRole_wellFormed (userId orgId : String) (req : AssignRoleRequest)
    (ctx : RequestCtx) (store : Store) :
    Safe rosterMachine Call.WellFormed (assignRole userId orgId req ctx)
      (fun _ _ => True) store := by
  refine safe_userOf_bind fun user userMem sameUser userOrg => ?_
  refine safe_roleOf_bind fun role roleMem sameRole roleOrg => ?_
  refine safe_throwIf_bind fun _ => ?_
  refine safe_read_bind rfl trivial ?_
  split
  · refine safe_issues_bind (Keeps.port trivial) fun now => ?_
    refine safe_issues_bind (Keeps.port trivial) fun assignmentId => ?_
    refine safe_issues_bind issues_logSuccess fun _ => ?_
    refine safe_port_bind ?_ fun _ _ _ => safe_pure trivial
    exact ⟨⟨user, userMem, sameUser, userOrg⟩, ⟨role, roleMem, sameRole, roleOrg⟩⟩
  · split
    · refine safe_issues_bind issues_logSuccess fun _ => ?_
      exact safe_port_bind trivial fun _ _ _ => safe_pure trivial
    · exact safe_throw

theorem safe_ensureManagedRole {dryRun : Bool} {done : EnsuredRoles} {spec : ManagedRoleSpec}
    {known : List String} (ends : store.Ends userId orgId known) :
    Safe rosterMachine Call.WellFormed (ensureManagedRole orgId dryRun ctx done spec)
      (fun _ after => after.Ends userId orgId known ∧
        (dryRun = false → after.HasRole spec.id orgId)) store := by
  refine safe_read_bind rfl trivial ?_
  refine safe_throwIf_bind fun sameOrg => ?_
  refine safe_issues_bind issues_managedRoleName fun name => ?_
  cases found : store.roles.find? spec.id with
  | none =>
    cases dryRun with
    | true => exact safe_bind (safe_pure (safe_pure ⟨ends, by simp⟩))
    | false =>
      apply safe_bind
      refine safe_issues_bind (Keeps.port trivial) fun now => ?_
      refine safe_port_bind (forall_mem_nil _) fun _ created answers => ?_
      have endsAfter := (move_of_answers answers).ends (by simp) ends
      have hasRole : created.HasRole spec.id orgId :=
        ⟨_, mem_roles_of_createRole answers, rfl, rfl⟩
      refine (safe_of_quiet issues_publishSuccess).mono ?_
      rintro - after rfl
      exact safe_pure ⟨endsAfter, fun _ => hasRole⟩
  | some cur =>
    obtain ⟨member, sameId⟩ := find?_eq_some.mp found
    have hasRole : store.HasRole spec.id orgId :=
      ⟨cur, member, sameId, by simpa [found] using sameOrg⟩
    simp only []
    split
    · cases dryRun with
      | true => exact safe_bind (safe_pure (safe_pure ⟨ends, by simp⟩))
      | false =>
        apply safe_bind
        refine safe_issues_bind (Keeps.port trivial) fun now => ?_
        refine safe_port_bind (fun _ isSome => by cases isSome) fun _ renamed answers => ?_
        have endsAfter := (move_of_answers answers).ends (by simp) ends
        have hasRoleAfter := (move_of_answers answers).hasRole (by simp) hasRole
        refine (safe_of_quiet issues_publishSuccess).mono ?_
        rintro - after rfl
        exact safe_pure ⟨endsAfter, fun _ => hasRoleAfter⟩
    · exact safe_pure ⟨ends, fun _ => hasRole⟩

theorem safe_ensureManagedRoles {specs : List ManagedRoleSpec} (has : store.HasUser userId orgId) :
    Safe rosterMachine Call.WellFormed (ensureManagedRoles orgId specs false ctx)
      (fun _ after => after.Ends userId orgId (specs.map ManagedRoleSpec.id)) store := by
  -- the induction is on the specs, with the roles known so far
  suffices loop : ∀ (specs : List ManagedRoleSpec) (known : List String)
      (done : EnsuredRoles) (before : Store), before.Ends userId orgId known →
      Safe rosterMachine Call.WellFormed (specs.foldlM (ensureManagedRole orgId false ctx) done)
        (fun _ after => after.Ends userId orgId (known ++ specs.map ManagedRoleSpec.id))
        before from
    loop specs [] _ store ⟨has, by simp⟩
  intro specs
  induction specs with
  | nil =>
    intro known done before ends
    exact safe_pure (by simpa using ends)
  | cons spec specs ih =>
    intro known done before ends
    rw [foldlM_cons]
    apply safe_bind
    refine (safe_ensureManagedRole ends).mono ?_
    rintro value between ⟨endsBetween, ensured⟩
    have grown : between.Ends userId orgId (known ++ [spec.id]) := by
      constructor
      · exact endsBetween.user
      · intro roleId member
        rcases mem_append.mp member with old | new
        · exact endsBetween.roles roleId old
        · rw [mem_singleton.mp new]
          exact ensured rfl
    simpa using ih (known ++ [spec.id]) value between grown

theorem applyUserManagedRoles_wellFormed {added wanted : List String} {stale : List AssignmentRow}
    (listed : ∀ roleId ∈ added, roleId ∈ wanted) (ends : store.Ends userId orgId wanted) :
    Safe rosterMachine Call.WellFormed
      (applyUserManagedRoles userId orgId ctx added stale) (fun _ _ => True) store := by
  refine safe_issues_bind issues_actorOf fun actor => ?_
  have adds : Safe rosterMachine Call.WellFormed
      (forEach added (addAutoAssignment userId orgId actor))
      (fun _ after => after.Ends userId orgId wanted) store := by
    refine safe_foldlM ?_ ends
    intro roleId member _ before endsBefore
    refine safe_issues_bind (Keeps.port trivial) fun assignmentId => ?_
    refine safe_issues_bind (Keeps.port trivial) fun now => ?_
    exact safe_createAssignment (listed roleId member) endsBefore
  refine safe_bind (adds.mono fun _ _ _ => ?_)
  refine safe_of_always (Keeps.bind (issues_forEach fun _ _ => ?_) fun _ => ?_)
  · exact Keeps.port fun _ => trivial
  · exact issues_publishSuccess

theorem syncUserManagedRoles_wellFormed (userId orgId : String)
    (req : PutManagedRolesRequest) (ctx : RequestCtx) (store : Store) :
    Safe rosterMachine Call.WellFormed (syncUserManagedRoles userId orgId req ctx)
      (fun _ _ => True) store := by
  refine safe_userOf_bind fun user userMem sameUser userOrg => ?_
  refine safe_checked_bind fun specs _ => ?_
  cases dryRun : req.dryRun with
  | true =>
    have ensures : Issues (fun call => ∀ store, call.WellFormed store)
        (ensureManagedRoles orgId specs true ctx) :=
      issues_ensureManagedRoles (fun row _ empty _ => by simp [Call.WellFormed, empty])
        (fun _ _ _ _ _ => nofun) orgId specs true ctx
    refine safe_bind ((safe_of_always ensures).mono fun _ after _ => ?_)
    refine safe_read_bind rfl trivial ?_
    refine safe_bind (safe_runIf (fun applies => ?_) fun _ => safe_pure trivial)
    simp at applies
  | false =>
    have has : store.HasUser userId orgId := ⟨user, userMem, sameUser, userOrg⟩
    refine safe_bind ((safe_ensureManagedRoles has).mono fun _ ensured ends => ?_)
    refine safe_read_bind rfl trivial ?_
    refine safe_bind (safe_runIf (fun _ => ?_) fun _ => safe_pure trivial)
    refine (applyUserManagedRoles_wellFormed (fun roleId member => ?_) ends).mono
      fun _ _ _ => safe_pure trivial
    exact (mem_filter.mp member).1

/-- The operations that create assignments; the others issue calls that are well
formed in every store. -/
def Op.Assigns : Op → Prop
  | .invite _ _ _ => True
  | .assignRole _ _ _ _ => True
  | .syncUserManagedRoles _ _ _ _ => True
  | _ => False

theorem Op.wellFormed_of_mayIssue {op : Op} (assignsNone : ¬op.Assigns)
    (issued : op.MayIssue call) (store : Store) : call.WellFormed store := by
  rcases issued with quiet | writes
  · exact wellFormed_of_isQuiet call store quiet
  cases call with
  | createAssignment row =>
    cases op with
    | invite orgId req ctx | assignRole userId orgId req ctx
    | syncUserManagedRoles userId orgId req ctx =>
      exact (assignsNone trivial).elim
    | _ => exact writes.elim
  | createRole row targets =>
    cases op with
    | createRole orgId req ctx => exact writes
    | syncManagedRoleCatalog orgId req ctx =>
      have empty : row.permissions = [] := writes
      simp [Call.WellFormed, empty]
    | syncUserManagedRoles userId orgId req ctx => exact (assignsNone trivial).elim
    | _ => exact writes.elim
  | updateRolePermissions roleId name permissions updatedAt targets =>
    cases op with
    | updateRole roleId orgId req ctx =>
      obtain ⟨-, keys, accepted, rfl⟩ := writes
      cases keys with
      | none => exact nofun
      | some keys =>
        rintro - ⟨⟩ key member
        exact isPermissionKey_of_mem_normalizePerms
          (fun _ => isPermissionKey_of_assertOptionalKeys accepted) member
    | syncManagedRoleCatalog orgId req ctx =>
      have unchanged : permissions = none := writes
      subst unchanged
      exact nofun
    | syncUserManagedRoles userId orgId req ctx => exact (assignsNone trivial).elim
    | _ => exact writes.elim
  | _ => trivial

theorem op_wellFormed (op : Op) (store : Store) :
    Safe rosterMachine Call.WellFormed (op.program toLowerCase) (fun _ _ => True)
      store := by
  by_cases assigns : op.Assigns
  · cases op with
    | invite orgId req ctx =>
      exact safe_bind ((invite_wellFormed toLowerCase orgId req ctx store).mono
        fun _ _ _ => safe_pure trivial)
    | assignRole userId orgId req ctx =>
      exact safe_bind ((assignRole_wellFormed userId orgId req ctx store).mono
        fun _ _ _ => safe_pure trivial)
    | syncUserManagedRoles userId orgId req ctx =>
      exact safe_bind ((syncUserManagedRoles_wellFormed userId orgId req ctx store).mono
        fun _ _ _ => safe_pure trivial)
    | _ => exact assigns.elim
  · exact safe_of_always ((op_footprint toLowerCase op).weaken fun call issued before =>
      Op.wellFormed_of_mayIssue assigns issued before)

end Operations

end DubEcosystem.IdentityRoster
