import DubEcosystem.DriveShareSteps

/-!
# drive-share-service: the service leaves alone what it did not make

Every step of a call keeps whose the shares are, whatever is done by hand beside it, and so in every
run the service changes and deletes only what it made, and leaves nothing of it behind.
-/

namespace DubEcosystem.DriveShare

open Interleaving PortPrograms List Except

variable {addresses : Addresses} {deps : RoleGrantsDeps addresses} {world moved : World addresses}

section Statements

variable {later : Ledger} {known : List GrantRow} {stage : Stage}
  {others : List (Operation × Prog shareSignature Unit)}

theorem knows_withLedger {scene : Scene addresses} (knows : ∀ grant ∈ known, scene.knows grant)
    (sameGrants : later.grants = scene.ledger.grants) :
    ∀ grant ∈ known, Scene.knows { scene with ledger := later } grant :=
  fun grant member => (knows grant member).withLedger sameGrants

theorem leads_db {statement : Statement} {answer : Except Thrown statement.Result} {after : Phase}
    (permitted : keepingApart.mayCall (.db statement) world others)
    (executed : world.ledger.exec statement = (answer, later))
    (leads : Phase.Leads deps ⟨known, stage⟩ (.db statement) answer after)
    (kept : world.toScene.Kept deps) (knows : ∀ grant ∈ known, world.toScene.knows grant)
    (stands : world.toScene.standsAt deps stage) :
    Scene.Kept deps { world.toScene with ledger := later } ∧
      Scene.holds { world.toScene with ledger := later } deps after := by
  cases leads with
  | never => exact stands.elim
  | quiet isQuiet idle =>
    have same : later = world.ledger := by
      cases statement <;> first | exact (congrArg Prod.snd executed).symm | cases isQuiet
    subst same
    exact ⟨kept, knows, stands⟩
  | @finds _ _ fileId roleId row idle =>
    obtain ⟨found, rfl⟩ := Prod.mk.inj executed
    have member : row ∈ world.ledger.grants := mem_of_find?_eq_some (ok.inj found)
    refine ⟨kept, fun grant grantMem => ?_, stands⟩
    rcases mem_cons.mp grantMem with rfl | grantMem
    · exact Scene.knows_of_mem member
    · exact knows grant grantMem
  | misses idle =>
    obtain ⟨found, rfl⟩ := Prod.mk.inj executed
    refine ⟨kept, knows, fun grant member => ?_⟩
    simpa using List.find?_eq_none.mp (ok.inj found) grant member
  | @findsAll _ _ rows idle =>
    obtain ⟨found, rfl⟩ := Prod.mk.inj executed
    refine ⟨kept, fun grant member => ?_, stands⟩
    cases found
    exact Scene.knows_of_mem (mem_filter.mp ((perm_insertionSort _ _).mem_iff.mp member)).1
  | @updates _ _ driveRole updatedAt _ row idle isKnown =>
    obtain ⟨rfl, -⟩ := Prod.mk.inj executed
    obtain ⟨isKept, stillKnows⟩ := updates_keeps kept executed
    refine ⟨isKept, fun grant member => ?_, trivial⟩
    rcases mem_cons.mp member with rfl | member
    · exact stillKnows row (knows row isKnown)
    · exact stillKnows grant (knows grant member)
  | inserts idle isOrg =>
    obtain ⟨isKept, nowKnows⟩ := inserts_keeps kept isOrg executed
    refine ⟨isKept, fun grant member => ?_, trivial⟩
    exact nowKnows grant ((mem_cons.mp member).imp_right (knows grant))
  | insertFails idle =>
    obtain rfl := insertGrant_error executed
    exact ⟨kept, knows, stands⟩
  | @reads _ _ grant prev idle isKnown =>
    obtain ⟨found, rfl⟩ := Prod.mk.inj executed
    obtain rfl : world.ledger.membersOf grant.id = prev := ok.inj found
    refine ⟨kept, knows, knows grant isKnown, ?_, ?_, ?_⟩
    · exact fun row member => (mem_membersOf.mp member).2
    · exact fun row ofGrant => (mem_membersOf.trans (and_iff_left ofGrant)).symm
    · exact forall_mem_nil _
  | notes isNew notLive isNormal =>
    obtain ⟨isKept, isNoted⟩ :=
      notes_keeps kept stands isNew notLive isNormal (permitted rfl rfl) executed
    exact ⟨isKept, knows_withLedger knows (mem_upsertMember executed).1, isNoted⟩
  | settles =>
    obtain ⟨isKept, isSettled⟩ := settles_keeps kept stands executed
    exact ⟨isKept, knows_withLedger knows (mem_upsertMember executed).1, isSettled⟩
  | settleFails =>
    obtain ⟨⟨stored, member, isId, -⟩, -⟩ := stands.1
    exact absurd isId ((upsertMember_error executed).2 stored member)
  | drops =>
    obtain ⟨isKept, isDropped⟩ := drops_keeps kept stands executed
    exact ⟨isKept, knows_withLedger knows (mem_deleteMember executed).1, isDropped⟩
  | dropFails | asksFail | forgetFails | letFails | asksRevokingFail | dropsAllFail =>
    cases executed
  | records isNew isLive =>
    obtain ⟨isKept, isRecorded⟩ := records_keeps kept stands isNew isLive executed
    exact ⟨isKept, knows_withLedger knows (mem_upsertMember executed).1, isRecorded⟩
  | recordFails =>
    obtain ⟨rfl, -⟩ := upsertMember_error executed
    exact ⟨kept, knows, stands⟩
  | asks isNew isRow isOurs =>
    obtain ⟨isHeld, rfl⟩ := Prod.mk.inj executed
    cases isHeld
    exact ⟨kept, knows, asks_stands kept stands isNew isRow isOurs permitted⟩
  | forgets =>
    obtain ⟨lists, isNew, elsewhere⟩ := stands
    obtain ⟨isKept, isForgotten⟩ := forgets_keeps kept lists isNew elsewhere executed
    exact ⟨isKept, knows_withLedger knows (mem_deleteMember executed).1, isForgotten⟩
  | lets isNew isRow notOurs =>
    have lists : world.toScene.Lists _ := stands
    have elsewhere := fun share (member : share ∈ world.toScene.drive.shares) byService onFile
        isAddress =>
      (lists.elsewhere_or kept isRow isNew member byService onFile isAddress).resolve_right fun isOurs => by simp [notOurs] at isOurs
    obtain ⟨isKept, isForgotten⟩ := forgets_keeps kept lists isNew elsewhere executed
    exact ⟨isKept, knows_withLedger knows (mem_deleteMember executed).1, isForgotten⟩
  | asksRevoking isRow isOurs isGiven =>
    obtain ⟨isHeld, rfl⟩ := Prod.mk.inj executed
    cases isHeld
    exact ⟨kept, knows, asksRevoking_stands kept stands isRow isOurs isGiven permitted⟩
  | dropsAll allPassed =>
    obtain ⟨isKept, isDropped⟩ := dropsAll_keeps kept stands allPassed permitted executed
    refine ⟨isKept, knows_withLedger knows ?_, isDropped⟩
    cases executed
    rfl
  | revokes =>
    obtain ⟨isKept, isAbsent⟩ := revokes_keeps kept stands executed
    exact ⟨isKept, forall_mem_nil _, isAbsent⟩
  | revokeFails =>
    have same : later = world.ledger := by
      simp only [Ledger.exec] at executed
      split at executed
      · exact (Prod.mk.inj executed).2.symm
      · cases executed
    subst same
    exact ⟨kept, knows, stands⟩

end Statements

section Drive

variable {known : List GrantRow} {stage : Stage} {request : Call}
  {answer : Except Thrown (Call.Result request)}
  {others : List (Operation × Prog shareSignature Unit)}

/-- Nothing that was made by hand is touched, and nothing that is needed is gone. -/
def Scene.sparing (request : Call) (before after : Scene addresses) : Prop :=
  keepsHandMade before after ∧ deletesUnneeded request before after

theorem sparing_of_keeps {before after : Scene addresses}
    (keeps : ∀ share ∈ before.drive.shares, ∃ other ∈ after.drive.shares,
      other.key addresses = share.key addresses ∧ (share.byService = false → other = share)) :
    Scene.sparing request before after := by
  constructor
  · intro share member byHand
    obtain ⟨other, otherMem, -, same⟩ := keeps share member
    exact same byHand ▸ otherMem
  · intro share member _ isGone
    obtain ⟨other, otherMem, sameKey, -⟩ := keeps share member
    exact absurd sameKey (isGone other otherMem)

theorem sparing_of_same {before after : Scene addresses} (same : after.drive = before.drive) :
    Scene.sparing request before after :=
  sparing_of_keeps fun share member => ⟨share, same ▸ member, rfl, fun _ => rfl⟩

variable {scene : Scene addresses} {fileId given : String}

/-- A deletion of what is the service's own and is not needed. -/
theorem sparing_remove {grantId : String} {revokes : Bool}
    (notByHand : ∀ share ∈ scene.drive.shares, share.fileId = fileId → share.id = given →
      share.byService = true)
    (unneeded : scene.unneeded fileId given grantId revokes) :
    Scene.sparing (.deletePermission fileId given grantId revokes) scene
      { scene with drive := scene.drive.remove fileId given } := by
  constructor
  · intro share member byHand
    refine Drive.mem_remove.mpr ⟨member, fun isIt => ?_⟩
    have byService := notByHand share member isIt.1 isIt.2
    simp [byHand] at byService
  · intro share member byService isGone
    by_cases isIt : share.fileId = fileId ∧ share.id = given
    · obtain ⟨rfl, rfl⟩ := isIt
      exact ⟨grantId, revokes, rfl, unneeded share member byService rfl rfl⟩
    · exact absurd rfl (isGone share (Drive.mem_remove.mpr ⟨member, isIt⟩))

theorem sparing_change {id : String} {role : ShareRole}
    (notByHand : ∀ share ∈ scene.drive.shares, share.fileId = fileId → share.id = id →
      share.byService = true) :
    Scene.sparing request scene { scene with
      drive := scene.drive.change (fun share => share.fileId = fileId ∧ share.id = id) role } := by
  apply sparing_of_keeps
  intro share member
  refine ⟨_, Drive.mem_change.mpr ⟨share, member, rfl⟩, ?_, fun byHand => ?_⟩
  · split <;> rfl
  · split
    · rename_i isIt
      have isIt := of_decide_eq_true isIt
      have byService := notByHand share member isIt.1 isIt.2
      simp [byHand] at byService
    · rfl

/-- What a step of a call leaves. -/
structure Moves (deps : RoleGrantsDeps addresses) (request : Call) (before moved : Scene addresses)
    (after : Phase) : Prop where
  kept : moved.Kept deps
  holds : moved.holds deps after
  sparing : Scene.sparing request before moved

theorem Moves.stays {before moved : Scene addresses} {after : Phase} (kept : before.Kept deps)
    (knows : ∀ grant ∈ after.known, before.knows grant) (stands : before.standsAt deps after.stage)
    (same : moved = before) : Moves deps request before moved after := by
  subst same
  exact ⟨kept, ⟨knows, stands⟩, sparing_of_same rfl⟩

variable {after : Stage}

/-- A deletion is carried out, and perhaps its answer is lost, or nothing is done. -/
theorem moves_delete {grantId : String} {revokes : Bool}
    {answer : Except Thrown Unit} {refused carried : Stage}
    (answers : (shareMachine addresses).Answers (.deletePermission fileId given grantId revokes)
      world answer moved)
    (kept : world.toScene.Kept deps) (knows : ∀ grant ∈ known, world.toScene.knows grant)
    (sparing : Scene.sparing (.deletePermission fileId given grantId revokes) world.toScene
      { world.toScene with drive := world.drive.remove fileId given })
    (isRefused : world.toScene.standsAt deps refused)
    (isCarried : Scene.standsAt { world.toScene with drive := world.drive.remove fileId given } deps
      carried)
    (isLost : Scene.standsAt { world.toScene with drive := world.drive.remove fileId given } deps
      refused)
    (isAfter : (answer = .ok () ∧ after = carried) ∨ ((∃ thrown, answer = .error thrown) ∧
      after = refused)) :
    Moves deps (.deletePermission fileId given grantId revokes) world.toScene moved.toScene
      ⟨known, after⟩ := by
  rcases answers_delete answers with isMoved | ⟨isMoved, thrown, isError⟩
  · rw [isMoved]
    refine ⟨kept.remove fileId given, ⟨knows, ?_⟩, sparing⟩
    rcases isAfter with ⟨-, rfl⟩ | ⟨-, rfl⟩
    · exact isCarried
    · exact isLost
  · rcases isAfter with ⟨isOk, -⟩ | ⟨-, rfl⟩
    · rw [isError] at isOk
      cases isOk
    · exact .stays kept knows isRefused isMoved

variable {row : GrantMemberRow}

theorem moves_deleting {listing : Listing} {answer : Except Thrown Unit}
    (answers : (shareMachine addresses).Answers
      (.deletePermission listing.round.grant.fileId given listing.round.grant.id false) world answer
      moved)
    (kept : world.toScene.Kept deps) (knows : ∀ grant ∈ known, world.toScene.knows grant)
    (stands : world.toScene.standsAt deps (.deleting listing row given))
    (isAfter : (answer = .ok () ∧ after = .cleared listing row) ∨
      ((∃ thrown, answer = .error thrown) ∧ after = .sharing listing)) :
    Moves deps (.deletePermission listing.round.grant.fileId given listing.round.grant.id false)
      world.toScene moved.toScene ⟨known, after⟩ := by
  have isCarried := deletes_stands kept stands
  have isRefused : world.toScene.standsAt deps (.sharing listing) := stands.1
  obtain ⟨lists, isNew, isRow, isOurs, unneeded⟩ := stands
  apply moves_delete answers kept knows _ isRefused isCarried _ isAfter
  · exact sparing_remove (lists.not_byHand kept isRow isNew isOurs) unneeded
  · exact Scene.Lists.fewer lists (Drive.fewer_remove _ _)

theorem moves_giving {grant : GrantRow} {prev : List GrantMemberRow} {passed : List String}
    {answer : Except Thrown Unit}
    (answers : (shareMachine addresses).Answers
      (.deletePermission grant.fileId given grant.id true) world answer moved)
    (kept : world.toScene.Kept deps) (knows : ∀ grant ∈ known, world.toScene.knows grant)
    (stands : world.toScene.standsAt deps (.giving grant prev passed row given))
    (isAfter : (answer = .ok () ∧ after = .read grant prev (given :: passed)) ∨
      ((∃ thrown, answer = .error thrown) ∧ after = .read grant prev passed)) :
    Moves deps (.deletePermission grant.fileId given grant.id true) world.toScene moved.toScene
      ⟨known, after⟩ := by
  have notByHand := giving_not_byHand kept stands
  have isCarried := gives_stands stands
  have isRefused : world.toScene.standsAt deps (.read grant prev passed) := stands.1
  obtain ⟨reads, -, -, -, unneeded⟩ := stands
  apply moves_delete answers kept knows _ isRefused isCarried _ isAfter
  · exact sparing_remove notByHand unneeded
  · exact Scene.Reads.fewer reads (Drive.fewer_remove _ _)

theorem answers_list {permissions : List SharePermission}
    (answers : (shareMachine addresses).Answers (.listPermissions fileId) world (.ok permissions)
      moved) : permissions = world.drive.permissions fileId := by
  simp only [Machine.Answers, shareMachine] at answers
  cases isFate : world.fates 0 with
  | carriedOut id invited =>
    rw [isFate] at answers
    exact (ok.inj (congrArg Prod.fst answers)).symm
  | unanswered id error | refused error =>
    rw [isFate] at answers
    cases (Prod.mk.inj answers).1

/-- Each call of an operation of the service spares what it must, and leaves what is relied on. -/
theorem leads_moves {after : Phase} (permitted : keepingApart.mayCall request world others)
    (answers : (shareMachine addresses).Answers request world answer moved)
    (leads : Phase.Leads deps ⟨known, stage⟩ request answer after) (notOutside : stage ≠ .outsider)
    (kept : world.toScene.Kept deps) (knows : ∀ grant ∈ known, world.toScene.knows grant)
    (stands : world.toScene.standsAt deps stage) :
    Moves deps request world.toScene moved.toScene after := by
  cases request with
  | db statement =>
    obtain ⟨executed, isMoved⟩ := answers_db answers
    obtain ⟨isKept, holds⟩ := leads_db permitted executed leads kept knows stands
    rw [isMoved]
    exact ⟨isKept, holds, sparing_of_same rfl⟩
  | listPermissions fileId =>
    have same := @toScene_of_quiet _ _ _ (.listPermissions fileId) _ trivial answers
    cases leads with
    | never => exact stands.elim
    | quiet isQuiet idle => exact .stays kept knows stands same
    | lists isLive =>
      rw [answers_list answers] at isLive
      exact .stays kept knows (lists_stands kept stands isLive) same
  | createPermission fileId role email =>
    cases leads with
    | never => exact stands.elim
    | quiet isQuiet idle => cases isQuiet
    | creates =>
      rcases answers_create permitted answers with
        ⟨share, drive, permission, isOk, sameId, ⟨id, created⟩, isMoved⟩ | ⟨⟨thrown, isError⟩, -⟩
      · cases isOk
        obtain ⟨isKept, isCreated, keeps⟩ := creates_keeps kept stands created
        rw [isMoved, sameId]
        refine ⟨isKept, ⟨knows, isCreated⟩, sparing_of_keeps fun old member => ?_⟩
        exact ⟨old, keeps old member, rfl, fun _ => rfl⟩
      · cases isError
    | refuses =>
      rcases answers_create permitted answers with ⟨_, _, _, isOk, -⟩ | ⟨-, isMoved⟩
      · cases isOk
      · exact .stays kept knows stands isMoved
  | updatePermission fileId id role =>
    cases leads with
    | never => exact stands.elim
    | quiet isQuiet idle => cases isQuiet
    | corrects isNew isLive isOurs =>
      have notByHand := Scene.Lists.corrects kept stands isNew isLive isOurs
      rcases answers_update answers with isMoved | isMoved
      · rw [isMoved]
        refine ⟨kept.change _ role, ⟨knows, ?_⟩, sparing_change notByHand⟩
        exact Scene.Lists.fewer stands (Drive.fewer_change _ role)
      · exact .stays kept knows stands isMoved
  | deletePermission fileId id grantId revokes =>
    cases leads with
    | never => exact stands.elim
    | quiet isQuiet idle => cases isQuiet
    | deletes => exact moves_deleting answers kept knows stands (.inl ⟨rfl, rfl⟩)
    | deleteFails => exact moves_deleting answers kept knows stands (.inr ⟨⟨_, rfl⟩, rfl⟩)
    | gives => exact moves_giving answers kept knows stands (.inl ⟨rfl, rfl⟩)
    | giveFails => exact moves_giving answers kept knows stands (.inr ⟨⟨_, rfl⟩, rfl⟩)
  | byHand change =>
    cases leads with
    | byHand => exact absurd rfl notOutside
    | never => exact stands.elim
    | quiet isQuiet idle => cases isQuiet
  | activeUsers | googleEmails userIds | roleName roleId | now | newId | clock | kick =>
    cases leads with
    | never => exact stands.elim
    | quiet isQuiet idle => exact .stays kept knows stands (toScene_of_quiet isQuiet answers)

end Drive

section Hands

variable {change : Change} {others : List (Operation × Prog shareSignature Unit)}

theorem answers_byHand {answer : Except Thrown Unit}
    (answers : (shareMachine addresses).Answers (.byHand change) world answer moved) :
    moved = world.byHand change :=
  (Prod.mk.inj answers).2.symm

/-- What is done by hand leaves the ledger as it is, and makes nothing in the name of the
service. -/
theorem byHand_fewer : (world.byHand change).ledger = world.ledger ∧
    (world.byHand change).drive.Fewer world.drive := by
  cases change with
  | share fileId id emailAddress role =>
    simp only [World.byHand]
    cases added : world.drive.add ⟨fileId, id, emailAddress, role, false⟩ with
    | none => exact ⟨rfl, Drive.fewer_refl⟩
    | some drive =>
      obtain ⟨-, -, sameGrantee, isIn⟩ := Drive.add_eq_some added
      refine ⟨rfl, sameGrantee, fun share member byService => ?_⟩
      rcases (isIn share).mp member with old | rfl
      · exact ⟨share, old, share.role, rfl⟩
      · cases byService
  | changeRole fileId id role => exact ⟨rfl, Drive.fewer_change _ role⟩
  | unshare fileId id => exact ⟨rfl, Drive.fewer_remove fileId id⟩
  | roles roles => exact ⟨rfl, Drive.fewer_refl⟩

/-- What is done by hand keeps whose the shares are, where a new share is owned by no grant. -/
theorem byHand_keeps (permitted : keepingApart.mayCall (.byHand change) world others)
    (kept : world.toScene.Kept deps) : (world.byHand change).toScene.Kept deps := by
  cases change with
  | share fileId id emailAddress role =>
    simp only [World.byHand]
    cases added : world.drive.add ⟨fileId, id, emailAddress, role, false⟩ with
    | none => exact kept
    | some drive =>
      apply kept.add added
      · exact fun byService => by cases byService
      · exact fun _ => permitted (by rw [added]; rfl)
  | changeRole fileId id role => exact kept.change _ role
  | unshare fileId id => exact kept.remove fileId id
  | roles roles =>
    exact kept.ofLike rfl fun share member => ⟨share, member, share.role, rfl⟩

theorem Stage.idle_of_waits {stage : Stage} (waits : stage.waits = true) : stage.idle = false := by
  cases stage <;> first | rfl | cases waits

section

variable {known : List GrantRow} {program : Prog shareSignature Unit} {stage : Stage}
  (follows : (shareProtocol deps).Follows ⟨known, stage⟩ program)
include follows

/-- A call that is about to delete a permission has nothing to ask before. -/
theorem mayReach_of_waits (waits : stage.waits = true) :
    program.MayReach Call.asksHeld Call.deletes := by
  cases program with
  | done value =>
    rcases follows with idle | isOutsider | isNever
    · simp [Stage.idle_of_waits waits] at idle
    · cases isOutsider
      cases waits
    · cases isNever
      cases waits
  | call request next =>
    left
    have possible : isPossible request (.error (.outside "")) := by
      cases request with
      | db statement => cases statement <;> trivial
      | _ => trivial
    obtain ⟨after, leads, -⟩ := follows (.error (.outside "")) possible
    cases leads with
    | deleteFails | giveFails => trivial
    | quiet isQuiet idle | insertFails idle | updates idle isKnown =>
      simp [Stage.idle_of_waits waits] at idle
    | _ => cases waits

/-- What the bystanders of what is done by hand rely on goes on to hold. -/
theorem byHand_stands {op : Operation}
    (permitted : keepingApart.mayCall (.byHand change) world others)
    (member : (op, program) ∈ others) (holds : world.toScene.holds deps ⟨known, stage⟩) :
    (world.byHand change).toScene.holds deps ⟨known, stage⟩ := by
  obtain ⟨knows, stands⟩ := holds
  obtain ⟨sameLedger, fewer⟩ := @byHand_fewer _ world change
  have isScene : (world.byHand change).toScene =
      ⟨world.ledger, (world.byHand change).drive, (world.byHand change).roles⟩ := by
    rw [← sameLedger]
  rw [isScene]
  refine ⟨knows, Scene.standsAt_fewer stands fewer fun waits => ?_⟩
  cases change with
  | share fileId id emailAddress role =>
    simp only [World.byHand]
    split <;> rfl
  | changeRole fileId id role | unshare fileId id => rfl
  | roles roles => exact absurd (mayReach_of_waits follows waits) (permitted _ member)

end

end Hands

section Runs

def Operation.owns (op : Operation) (phase : Phase) : Prop :=
  if op.isCall then phase.stage ≠ .outsider else phase = ⟨[], .outsider⟩

/-- The step is not done by hand. -/
def Call.isOwn (request : Call) : Prop :=
  ∀ change, request ≠ .byHand change

theorem runsAlone : (shareSystem deps).RunsAlone Operation.isCall Call.isOwn where
  startable startable isCall := startable isCall
  issues := by
    intro op notCall
    cases op with
    | byHand change => exact ⟨fun isOwn => isOwn change rfl, fun answer => by cases answer <;> trivial⟩
    | apply | revoke | reapply | syncMembers => cases notCall

variable {request : Call} {answer : Except Thrown (Call.Result request)}

theorem possible_of_answers
    (answers : (shareMachine addresses).Answers request world answer moved) :
    isPossible request answer := by
  cases request with
  | db statement =>
    obtain ⟨executed, -⟩ := answers_db answers
    cases statement with
    | selectMembers grantId =>
      obtain ⟨rfl, -⟩ := Prod.mk.inj executed
      exact ⟨nodup_membersOf grantId, fun row member => (mem_membersOf.mp member).2⟩
    | selectGrant orgId fileId roleId =>
      obtain ⟨found, -⟩ := Prod.mk.inj executed
      rw [← found]
      cases isFound : world.ledger.grants.rows.find? (Ledger.isFor orgId fileId roleId) with
      | none => trivial
      | some row =>
        have isFor := find?_some isFound
        have isItsGrant : row.orgId = orgId ∧ row.fileId = fileId ∧ row.roleId = roleId := by
          simpa [Ledger.isFor] using isFor
        exact isItsGrant
    | _ => cases answer <;> trivial
  | _ => cases answer <;> trivial

theorem Phase.Leads.owns {op : Operation} {phase after : Phase}
    (leads : Phase.Leads deps phase request answer after) (owned : op.owns phase) :
    op.owns after := by
  unfold Operation.owns at owned ⊢
  split at owned
  · rename_i isCall
    rw [if_pos isCall]
    cases leads with
    | asks | asksRevoking => simp only []; split <;> exact fun isOutsider => by cases isOutsider
    | _ => first | exact owned | exact fun isOutsider => by cases isOutsider
  · rename_i notCall
    rw [if_neg notCall]
    subst owned
    cases leads with
    | byHand => rfl
    | quiet isQuiet idle => cases idle
    | _ => rename_i idle; cases idle

/-- Calls of the service act alone, and what is done by hand beside one leaves it standing. -/
theorem guards : (shareProtocol deps).Guards (shareSystem deps)
    (keepingApart.alone Operation.isCall Call.isOwn) Operation.first Operation.owns
    (fun world => world.toScene.Kept deps) fun world phase => world.toScene.holds deps phase where
  program op _ _ := program_follows op
  possible answers := possible_of_answers answers
  ownsFirst op := by
    unfold Operation.owns Operation.first
    split
    · exact fun isOutsider => by cases isOutsider
    · rfl
  ownsLed leads owned := leads.owns owned
  starts op world _ := by
    refine ⟨forall_mem_nil _, ?_⟩
    unfold Operation.first
    simp only []
    split <;> trivial
  own := by
    intro others op request answer world moved phase after acts kept
    obtain ⟨⟨permitted, -⟩, answers, leads, owned, ⟨knows, stands⟩, -⟩ := acts
    by_cases isCall : op.isCall = true
    · rw [Operation.owns, if_pos isCall] at owned
      have moves := leads_moves permitted answers leads owned kept knows stands
      exact ⟨moves.kept, moves.holds⟩
    · rw [Operation.owns, if_neg isCall] at owned
      subst owned
      cases leads with
      | byHand =>
        obtain rfl := answers_byHand answers
        exact ⟨byHand_keeps permitted kept, forall_mem_nil _, trivial⟩
      | quiet isQuiet idle => cases idle
      | _ => rename_i idle; cases idle
  other := by
    intro others op request answer world moved phase after thread bystander acts kept member owned
      follows holds
    obtain ⟨⟨permitted, alone⟩, answers, -⟩ := acts
    by_cases isOwn : Call.isOwn request
    · have notCall := alone isOwn thread member
      rw [Operation.owns, notCall, if_neg Bool.false_ne_true] at owned
      subst owned
      exact ⟨forall_mem_nil _, trivial⟩
    · obtain ⟨change, isHand⟩ := not_forall.mp isOwn
      obtain rfl := not_not.mp isHand
      obtain rfl := answers_byHand answers
      exact byHand_stands follows permitted member holds
  environment same kept := by
    subst same
    exact ⟨kept, fun _ holds => holds⟩

variable {scene : Scene addresses}

/-- A scene where nothing is granted and nothing was made is kept. -/
theorem Scene.IsFresh.kept (fresh : scene.IsFresh) : scene.Kept deps where
  own share member byService := by simp [fresh.shares share member] at byService
  hand share _ _ row member := by simp [fresh.members] at member
  ids row member := by simp [fresh.members] at member
  named share member byService := by simp [fresh.shares share member] at byService
  refs row member := by simp [fresh.members] at member
  org grant member := by simp [fresh.grants] at member
  unique first firstMem := by simp [fresh.grants] at firstMem

/-- The owner of a share has its address as a member. -/
theorem Scene.Kept.covered (kept : scene.Kept deps) : scene.covered := by
  intro share member byService
  obtain ⟨row, rowMem, -, -, isEmail, grant, grantMem, isId, onFile⟩ :=
    kept.own share member byService
  exact ⟨grant, grantMem, onFile, .inl ⟨row, rowMem, Prod.ext isId.symm isEmail⟩⟩

theorem Scene.Kept.revoked {fileId roleId : String} (kept : scene.Kept deps)
    (isAbsent : scene.standsAt deps (.absent fileId roleId)) : scene.revoked deps fileId roleId := by
  refine ⟨isAbsent, fun share member byService isFile => ?_⟩
  obtain ⟨grant, grantMem, onFile, hasMember⟩ := kept.covered share member byService
  refine ⟨grant, grantMem, onFile.trans isFile, fun isRole => ?_, hasMember⟩
  have notFor := isAbsent grant grantMem
  rw [Ledger.isFor, decide_eq_false_iff_not] at notFor
  exact notFor ⟨kept.org grant grantMem, onFile.trans isFile, isRole⟩

theorem Scene.Kept.cleared {fileId roleId : String} {returned : RoleFileGrant}
    {emails : List String} {phase : Phase} (kept : scene.Kept deps) (holds : scene.holds deps phase)
    (reapplies : Reapplies deps fileId roleId (returned, emails) phase) :
    scene.cleared fileId roleId returned emails := by
  obtain ⟨known, stage⟩ := phase
  obtain ⟨done, listing, isSharing, -, isFile, isRole, swept, isCursor, isSkipped, rfl⟩ := reapplies
  obtain rfl : stage = .sharing listing := isSharing
  have lists : scene.Lists listing := holds.2
  intro isNone share member byService onFile
  rw [show returned.skipped = _ from isSkipped]
  have rows := swept.rows (isCursor.symm.trans isNone)
  obtain ⟨row, rowMem, -, -, isEmail, grant, grantMem, isId, sameFile⟩ :=
    kept.own share member byService
  by_cases otherRole : grant.roleId = roleId
  · obtain ⟨stored, storedMem, storedId, -, storedFile, storedRole⟩ := lists.isKnown
    have same : grant = stored := kept.unique grant grantMem stored storedMem
      (sameFile.trans (onFile.trans (isFile.symm.trans storedFile.symm)))
      (otherRole.trans (isRole.symm.trans storedRole.symm))
    have ofGrant : row.grantId = listing.round.grant.id :=
      isId.symm.trans ((congrArg GrantRow.id same).trans storedId)
    have notRemoved : row.email ∉ listing.removed := fun isRemoved =>
      (lists.removed row.email isRemoved).2 row rowMem (Prod.ext ofGrant rfl)
    rw [← isEmail]
    by_cases isHandled : row.email ∈ listing.handled
    · exact .inl ((swept.handled row.email isHandled).resolve_right notRemoved)
    · rcases rows row ((lists.rows row ofGrant isHandled).mp rowMem) with isIn | isRemoved | skipped
      · exact .inl isIn
      · exact absurd isRemoved notRemoved
      · exact .inr (.inl skipped)
  · exact .inr (.inr ⟨grant, grantMem, sameFile.trans onFile, otherRole,
      .inl ⟨row, rowMem, Prod.ext isId.symm isEmail⟩⟩)

/-- What a call that is waited for has come to, when it returns. -/
theorem ended_stands {α : Type} {op : Operation} {action : ShareM α} {good : α → Phase → Prop}
    {start : World addresses} {watched : Watched shareSignature (World addresses) Operation
      (Except Thrown α)} {value : α} (isCall : op.isCall = true)
    (leaves : Leaves deps op.first action good)
    (isIdle : ∀ value after, good value after → after.stage.idle = true)
    (kept : start.toScene.Kept deps)
    (reached : (shareSystem deps).WatchedUnder keepingApart start op action.run watched)
    (isDone : watched.own = .done (.ok value)) :
    watched.world.toScene.Kept deps ∧
      ∃ phase, good value phase ∧ watched.world.toScene.holds deps phase := by
  have isFinal : ∀ outcome after, Ends good outcome after → (shareProtocol deps).final after := by
    rintro (thrown | value) after ends
    · exact ends
    · rcases ends with isGood | isNever
      · exact .inl (isIdle value after isGood)
      · exact isFinal_of_never isNever
  unfold Leaves Follows at leaves
  obtain ⟨isKept, -, phase, -, ends, holds⟩ :=
    guards.watched isFinal kept leaves (runsAlone.watched isCall reached)
  rw [isDone] at ends
  refine ⟨isKept, phase, ?_, holds⟩
  rcases ends with isGood | isNever
  · exact isGood
  · obtain ⟨known, stage⟩ := phase
    subst isNever
    exact holds.2.elim

/-- In every configuration that is reached, each call of the service spares what it must. -/
theorem reached_sparing {config after : Config shareSignature (World addresses) Operation}
    (stand : (shareProtocol deps).AllStand Operation.owns (fun world => world.toScene.Kept deps)
      (fun world phase => world.toScene.holds deps phase) config)
    (isOwn : request.isOwn)
    (call : (shareSystem deps).CallUnder keepingApart request answer config after) :
    Scene.sparing request config.world.toScene after.world.toScene := by
  cases call with
  | call op next moved permitted answers =>
    obtain ⟨isKept, stands⟩ := stand
    obtain ⟨⟨known, stage⟩, -, follows, knows, holds⟩ :=
      stands (op, .call request next) (mem_append_right _ (.head _))
    obtain ⟨phase, leads, -⟩ := follows answer (possible_of_answers answers)
    have notOutside : stage ≠ .outsider := by
      rintro rfl
      cases leads with
      | byHand => exact isOwn _ rfl
      | quiet isQuiet idle => cases idle
      | _ => rename_i idle; cases idle
    exact (leads_moves permitted answers leads notOutside isKept knows holds).sparing

end Runs

/-- One user with both roles. -/
def sharedWorld : World ⟨id, fun _ => rfl⟩ where
  ledger := ⟨.empty, .empty⟩
  drive :=
    { shares := .empty, others := fun _ => [], grantee := fun _ => "a"
      identified := fun share member => by simp at member }
  roles := ⟨[⟨"u", "a", ["A", "B"]⟩], fun _ => none⟩
  fates _ := .carriedOut "p" false

def soleDeps : RoleGrantsDeps ⟨id, fun _ => rfl⟩ :=
  ⟨"o", false⟩

/-- The clock stands still, and the new grant is called `g`. -/
def standing : (request : Call) → Except Thrown (Call.Result request)
  | .now => .ok ""
  | .newId => .ok "g"
  | .clock => .ok (0 : Int)
  | .roleName _ => .ok none
  | _ => .error (.outside "")

/-- A grant is applied up to the answer that its permission was made, and is cut off; then it is
revoked. -/
def cutOff : List (Move shareSignature (World ⟨id, fun _ => rfl⟩) Operation) :=
  .start (.apply "f" "x" "A" "reader") :: List.replicate 13 (.call 0 standing)

def revokedAfter : List (Move shareSignature (World ⟨id, fun _ => rfl⟩) Operation) :=
  .start (.revoke "f" "A") :: List.replicate 4 (.call 0 standing)

end DubEcosystem.DriveShare
