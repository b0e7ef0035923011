import DubEcosystem.DriveShareGrants
import DubEcosystem.InterleavingSolo

/-!
# drive-share-service: its calls, one after another

The calls of the service run one at a time, and any of them may be cut off.  Beside them people
share files by hand, and the administrators change the roles.
-/

namespace DubEcosystem.DriveShare

open Interleaving PortPrograms

variable {addresses : Addresses}

inductive Operation where
  | apply (fileId actingUserId roleId driveRole : String)
  | revoke (fileId roleId : String)
  | reapply (fileId roleId : String) (cursor : Option String)
  | syncMembers (budgetMs maxWrites : Int) (resume : Option RoleSyncResume)
  | byHand (change : Change)

def Operation.isCall : Operation → Bool
  | .byHand _ => false
  | _ => true

/-- What is done, without what is returned. -/
def silently {α : Type} (action : ShareM α) : ShareM Unit := do
  let _ ← action
  pure ()

variable (deps : RoleGrantsDeps addresses)

def actionOf : Operation → ShareM Unit
  | .apply fileId actingUserId roleId driveRole =>
    silently (apply deps fileId actingUserId roleId driveRole)
  | .revoke fileId roleId => silently (revoke deps fileId roleId)
  | .reapply fileId roleId cursor => silently (reapply deps fileId roleId cursor)
  | .syncMembers budgetMs maxWrites resume => silently (syncMembers deps budgetMs maxWrites resume)
  | .byHand change => silently (ask (.byHand change))

/-- A call of the service starts while no other one is in progress. -/
def shareSystem : System shareSignature (World addresses) Operation where
  toMachine := shareMachine addresses
  program op := (actionOf deps op).run >>= fun _ => pure ()
  startable running op := op.isCall = true → ∀ other ∈ running, other.isCall = false
  environment before after := before = after

def shareReferee : Referee (shareSystem deps) anyCall where
  mayCall _ _ := true
  mayStart running op := !op.isCall || running.all fun other => !other.isCall
  allowed_of_mayCall _ := trivial
  startable_of_mayStart := by
    intro running op mayStart isCall other member
    rw [isCall, Bool.not_true, Bool.false_or, List.all_eq_true] at mayStart
    simpa using mayStart other member

section Statement

variable (scene : Scene addresses)

def addressOf (addresses : Addresses) (share : Share) : String :=
  addresses.normalize share.emailAddress

def Scene.inRole (roleId address : String) : Prop :=
  ∃ target ∈ scene.roles.targets addresses, roleId ∈ target.roleIds ∧ target.email = address

def Scene.records (grant : GrantRow) (address : String) : Prop :=
  ∃ row ∈ scene.ledger.members, row.key = (grant.id, address)

/-- The address is a member of the grant: recorded as one, or one of its role. -/
def Scene.hasMember (grant : GrantRow) (address : String) : Prop :=
  scene.records grant address ∨ scene.inRole grant.roleId address

/-- While a grant gives up an address, another grant on the file has it as a member, or the grant
stays and the address is one of its role again. -/
def Scene.needs (fileId grantId : String) (revokes : Bool) (address : String) : Prop :=
  ∃ grant ∈ scene.ledger.grants, grant.fileId = fileId ∧
    if grant.id = grantId then revokes = false ∧ scene.inRole grant.roleId address
    else scene.hasMember grant address

def Scene.owns (row : GrantMemberRow) (share : Share) : Prop :=
  row.createdByUs = true ∧ (row.permissionId = some share.id ∨ row.permissionId = none) ∧
    row.email = addressOf addresses share ∧
      ∃ grant ∈ scene.ledger.grants, grant.id = row.grantId ∧ grant.fileId = share.fileId

/-- A share that the service made is with a member of a grant on the file. -/
def Scene.covered : Prop :=
  ∀ share ∈ scene.drive.shares, share.byService = true →
    ∃ grant ∈ scene.ledger.grants, grant.fileId = share.fileId ∧
      scene.hasMember grant (addressOf addresses share)

def keepsHandMade (before after : Scene addresses) : Prop :=
  ∀ share ∈ before.drive.shares, share.byService = false → share ∈ after.drive.shares

/-- A share that the service made is gone only through a deletion, of a permission that no remaining
grant needs. -/
def deletesUnneeded (request : Call) (before after : Scene addresses) : Prop :=
  ∀ share ∈ before.drive.shares, share.byService = true →
    (∀ other ∈ after.drive.shares, other.key addresses ≠ share.key addresses) →
      ∃ grantId revokes, request = .deletePermission share.fileId share.id grantId revokes ∧
        ¬before.needs share.fileId grantId revokes (addressOf addresses share)

def Scene.othersCover (fileId roleId : String) (share : Share) : Prop :=
  ∃ grant ∈ scene.ledger.grants, grant.fileId = fileId ∧ grant.roleId ≠ roleId ∧
    scene.hasMember grant (addressOf addresses share)

variable (deps : RoleGrantsDeps addresses)

def Scene.revoked (fileId roleId : String) : Prop :=
  (∀ grant ∈ scene.ledger.grants, Ledger.isFor deps.orgId fileId roleId grant = false) ∧
    ∀ share ∈ scene.drive.shares, share.byService = true → share.fileId = fileId →
      scene.othersCover fileId roleId share

/-- A grant that was applied again to the end leaves nothing with those who had left the role, but
for those whose deletion was refused. -/
def Scene.cleared (fileId roleId : String) (returned : RoleFileGrant) (emails : List String) :
    Prop :=
  returned.nextCursor = none → ∀ share ∈ scene.drive.shares, share.byService = true →
    share.fileId = fileId → addressOf addresses share ∈ emails ∨
      addressOf addresses share ∈ returned.skipped.map SkippedMember.email ∨
        scene.othersCover fileId roleId share

/-- Nothing is granted yet, and nothing was made by the service. -/
structure Scene.IsFresh : Prop where
  grants : scene.ledger.grants = .empty
  members : scene.ledger.members = .empty
  shares : ∀ share ∈ scene.drive.shares, share.byService = false

/-- In every run whose steps meet the condition the service leaves alone what was made by hand,
deletes what it made only when no remaining grant needs it, and leaves nothing behind. -/
def ownSharesAlone (condition : RunCondition shareSignature (World addresses) Operation) : Prop :=
  ∀ start : World addresses, start.toScene.IsFresh →
    (∀ config, (shareSystem deps).ReachableUnder condition start config →
      config.world.toScene.covered ∧ ∀ (request : Call) answer after,
        (∀ change, request ≠ .byHand change) →
          (shareSystem deps).CallUnder condition request answer config after →
            keepsHandMade config.world.toScene after.world.toScene ∧
              deletesUnneeded request config.world.toScene after.world.toScene) ∧
    (∀ fileId roleId watched,
      (shareSystem deps).WatchedUnder condition start (.revoke fileId roleId)
        (revoke deps fileId roleId).run watched →
          watched.own = .done (.ok ()) → watched.world.toScene.revoked deps fileId roleId) ∧
    ∀ fileId roleId cursor watched returned emails,
      (shareSystem deps).WatchedUnder condition start (.reapply fileId roleId cursor)
        (reapplied deps fileId roleId cursor).run watched →
          watched.own = .done (.ok (returned, emails)) →
            watched.world.toScene.cleared fileId roleId returned emails

end Statement

section Condition

variable (scene : Scene addresses)

/-- A share is made by hand under an id, at an address, that no grant on the file has recorded as
its own. -/
def Scene.apart (share : Share) : Prop :=
  (scene.drive.add share).isSome → ∀ row ∈ scene.ledger.members, ¬scene.owns row share

variable (grantId : String)

/-- Where a grant is about to make a permission, none was made by hand. -/
def Scene.free (email : String) : Prop :=
  ∀ grant ∈ scene.ledger.grants, grant.id = grantId → ∀ share ∈ scene.drive.shares,
    share.fileId = grant.fileId → addressOf addresses share = email → share.byService = true

def World.answered (world : World addresses) (fileId : String) (role : ShareRole) (email : String) :
    Prop :=
  ∀ id error, world.fates 0 = .unanswered id error → world.drive.create fileId role email id = none

def Scene.ownedElsewhere (share : Share) : Prop :=
  ∃ row ∈ scene.ledger.members, row.grantId ≠ grantId ∧ scene.owns row share

/-- The permission that a grant gives up is one that another grant has recorded as its own, or one
that no remaining grant needs. -/
def Scene.handsOver (fileId grantId given : String) (revokes : Bool) : Prop :=
  ∀ share ∈ scene.drive.shares, share.byService = true → share.fileId = fileId →
    share.id = given → scene.ownedElsewhere grantId share ∨
      ¬scene.needs fileId grantId revokes (addressOf addresses share)

def Scene.learned : Prop :=
  ∀ row ∈ scene.ledger.members, row.grantId = grantId → row.permissionId = none →
    ∀ share ∈ scene.drive.shares, share.byService = true → scene.owns row share →
      scene.ownedElsewhere grantId share

def Call.asksHeld : Call → Prop
  | .db (.emailHeldByOtherGrant _ _ _ _ _ _) => True
  | _ => False

def Call.deletes : Call → Prop
  | .deletePermission _ _ _ _ => True
  | _ => False

/-- The steps that keep what the service made and what was made by hand apart. -/
def keepingApart : RunCondition shareSignature (World addresses) Operation where
  mayCall request world others :=
    match request with
    | .byHand (.share fileId id emailAddress role) =>
      world.toScene.apart ⟨fileId, id, emailAddress, role, false⟩
    | .byHand (.roles _) => ∀ thread ∈ others, ¬thread.2.MayReach Call.asksHeld Call.deletes
    | .db (.upsertMember row) =>
      row.createdByUs = true → row.permissionId = none → world.toScene.free row.grantId row.email
    | .createPermission fileId role email => world.answered fileId role email
    | .db (.emailHeldByOtherGrant _ fileId grantId _ given revokes) =>
      world.toScene.handsOver fileId grantId given revokes
    | .db (.deleteMembers grantId) => world.toScene.learned grantId
    | _ => True
  mayStop _ := True

end Condition

end DubEcosystem.DriveShare
