import DubEcosystem.DriveShareSystem

/-!
# drive-share-service: how far a call has come

Which grants a call knows, what it has read of the ledger and of Drive, and where it stands with
the address at hand.  Every call of the service follows this protocol.
-/

namespace DubEcosystem.DriveShare

open List Option
open IdentityRoster (codeUnits)
open Interleaving PortPrograms

/-- A reconciliation, with the addresses it has dealt with and those it has removed. -/
structure Listing where
  round : Round
  handled : List String
  removed : List String

def Listing.handle (listing : Listing) (email : String) : Listing :=
  { listing with handled := email :: listing.handled }

def Listing.remove (listing : Listing) (email : String) : Listing :=
  { listing with handled := email :: listing.handled, removed := email :: listing.removed }

inductive Stage where
  | free
  /-- What is done by hand. -/
  | outsider
  /-- There is no grant for the role. -/
  | absent (fileId roleId : String)
  /-- The rows of a grant were read; these permissions are given up, or others hold them. -/
  | read (grant : GrantRow) (prev : List GrantMemberRow) (passed : List String)
  /-- The grant is revoked, and is about to delete a permission. -/
  | giving (grant : GrantRow) (prev : List GrantMemberRow) (passed : List String)
    (row : GrantMemberRow) (given : String)
  /-- The rows of the grant are gone. -/
  | dropped (grant : GrantRow)
  | sharing (listing : Listing)
  /-- The row went in, and the permission is about to be made. -/
  | noting (listing : Listing) (email : String)
  /-- The permission was made, and its id is about to be recorded. -/
  | created (listing : Listing) (email id : String)
  /-- No other grant holds the address, and its permission is about to be deleted. -/
  | deleting (listing : Listing) (row : GrantMemberRow) (given : String)
  /-- The permission is given up, and the row is about to go. -/
  | cleared (listing : Listing) (row : GrantMemberRow)
  /-- What cannot happen has happened. -/
  | never

/-- Between two things that it does. -/
def Stage.idle : Stage → Bool
  | .free | .absent _ _ | .read _ _ _ | .dropped _ | .sharing _ => true
  | _ => false

/-- The grants that a call knows of, and where it stands. -/
structure Phase where
  known : List GrantRow
  stage : Stage

/-- Calls that leave the ledger and Drive as they are. -/
def Call.IsQuiet : Call → Prop
  | .db (.selectGrant _ _ _) | .db (.selectGrants _) | .db (.selectMembers _) => True
  | .listPermissions _ | .activeUsers | .googleEmails _ | .roleName _ => True
  | .now | .newId | .clock | .kick => True
  | _ => False

/-- The row of a listing says that its grant made the permission that is live. -/
def Round.isOurs (round : Round) (email : String) (live : SharePermission) : Bool :=
  (round.previous email).any fun previous => previous.createdByUs ∧
    (previous.permissionId = some live.id ∨ previous.permissionId = none)

inductive Phase.Leads (deps : RoleGrantsDeps addresses) :
    Phase → (request : Call) → Except Thrown (Call.Result request) → Phase → Prop
  | byHand {known change answer} :
      Leads deps ⟨known, .outsider⟩ (.byHand change) answer ⟨known, .outsider⟩
  | never {known request answer} : Leads deps ⟨known, .never⟩ request answer ⟨known, .never⟩
  | quiet {known stage request answer} (isQuiet : request.IsQuiet) (idle : stage.idle = true) :
      Leads deps ⟨known, stage⟩ request answer ⟨known, stage⟩
  | finds {known stage fileId roleId} {row : GrantRow} (idle : stage.idle = true) :
      Leads deps ⟨known, stage⟩ (.db (.selectGrant deps.orgId fileId roleId)) (.ok (some row))
        ⟨row :: known, stage⟩
  | misses {known stage fileId roleId} (idle : stage.idle = true) :
      Leads deps ⟨known, stage⟩ (.db (.selectGrant deps.orgId fileId roleId)) (.ok none)
        ⟨known, .absent fileId roleId⟩
  | findsAll {known stage} {rows : List GrantRow} (idle : stage.idle = true) :
      Leads deps ⟨known, stage⟩ (.db (.selectGrants deps.orgId)) (.ok rows) ⟨rows, stage⟩
  | updates {known stage driveRole updatedAt} {answer : Except Thrown Unit} {row : GrantRow}
      (idle : stage.idle = true) (isKnown : row ∈ known) :
      Leads deps ⟨known, stage⟩ (.db (.updateGrant row.id driveRole updatedAt)) answer
        ⟨{ row with driveRole, updatedAt } :: known, .free⟩
  | inserts {known stage} {row : GrantRow} (idle : stage.idle = true)
      (isOrg : row.orgId = deps.orgId) :
      Leads deps ⟨known, stage⟩ (.db (.insertGrant row)) (.ok ()) ⟨row :: known, .free⟩
  | insertFails {known stage row thrown} (idle : stage.idle = true) :
      Leads deps ⟨known, stage⟩ (.db (.insertGrant row)) (.error thrown) ⟨known, stage⟩
  | reads {known stage} {grant : GrantRow} {prev : List GrantMemberRow} (idle : stage.idle = true)
      (isKnown : grant ∈ known) :
      Leads deps ⟨known, stage⟩ (.db (.selectMembers grant.id)) (.ok prev)
        ⟨known, .read grant prev []⟩
  | lists {known passed} {round : Round} {permissions : List SharePermission}
      (isLive : round.live = indexUserPermsByEmail addresses permissions) :
      Leads deps ⟨known, .read round.grant round.prev passed⟩
        (.listPermissions round.grant.fileId) (.ok permissions) ⟨known, .sharing ⟨round, [], []⟩⟩
  | notes {known listing email} (isNew : email ∉ listing.handled)
      (notLive : listing.round.live email = none) (isNormal : addresses.normalize email = email) :
      Leads deps ⟨known, .sharing listing⟩
        (.db (.upsertMember ⟨listing.round.grant.id, email, none, true⟩)) (.ok ())
        ⟨known, .noting listing email⟩
  | creates {known listing email role} {permission : SharePermission} :
      Leads deps ⟨known, .noting listing email⟩
        (.createPermission listing.round.grant.fileId role email) (.ok permission)
        ⟨known, .created listing email permission.id⟩
  | refuses {known listing email role thrown} : Leads deps ⟨known, .noting listing email⟩
        (.createPermission listing.round.grant.fileId role email) (.error thrown)
        ⟨known, .noting listing email⟩
  | settles {known listing email id} : Leads deps ⟨known, .created listing email id⟩
        (.db (.upsertMember ⟨listing.round.grant.id, email, some id, true⟩)) (.ok ())
        ⟨known, .sharing (listing.handle email)⟩
  | settleFails {known listing email id thrown} : Leads deps ⟨known, .created listing email id⟩
        (.db (.upsertMember ⟨listing.round.grant.id, email, some id, true⟩)) (.error thrown)
        ⟨known, .never⟩
  | drops {known listing email} : Leads deps ⟨known, .noting listing email⟩
        (.db (.deleteMember listing.round.grant.id email)) (.ok ())
        ⟨known, .sharing (listing.handle email)⟩
  | dropFails {known listing email thrown} : Leads deps ⟨known, .noting listing email⟩
        (.db (.deleteMember listing.round.grant.id email)) (.error thrown) ⟨known, .never⟩
  | corrects {known listing email live role answer} (isNew : email ∉ listing.handled)
      (isLive : listing.round.live email = some live)
      (isOurs : listing.round.isOurs email live = true) :
      Leads deps ⟨known, .sharing listing⟩
        (.updatePermission listing.round.grant.fileId live.id role) answer
        ⟨known, .sharing listing⟩
  | records {known listing email live} (isNew : email ∉ listing.handled)
      (isLive : listing.round.live email = some live) :
      Leads deps ⟨known, .sharing listing⟩
        (.db (.upsertMember ⟨listing.round.grant.id, email, some live.id,
          listing.round.isOurs email live⟩)) (.ok ())
        ⟨known, .sharing (listing.handle email)⟩
  | recordFails {known listing row thrown} :
      Leads deps ⟨known, .sharing listing⟩ (.db (.upsertMember row)) (.error thrown)
        ⟨known, .sharing listing⟩
  | asks {known listing given} {row : GrantMemberRow} {isHeld : Bool}
      (isNew : row.email ∉ listing.handled) (isRow : row ∈ listing.round.prev)
      (isOurs : listing.round.ours row = some given) :
      Leads deps ⟨known, .sharing listing⟩
        (.db (.emailHeldByOtherGrant deps.orgId listing.round.grant.fileId listing.round.grant.id
          row.email given false)) (.ok isHeld)
        ⟨known, if isHeld then .cleared listing row else .deleting listing row given⟩
  | asksFail {known listing row given thrown} : Leads deps ⟨known, .sharing listing⟩
        (.db (.emailHeldByOtherGrant deps.orgId listing.round.grant.fileId listing.round.grant.id
          row given false)) (.error thrown) ⟨known, .sharing listing⟩
  | deletes {known listing given} {row : GrantMemberRow} :
      Leads deps ⟨known, .deleting listing row given⟩
        (.deletePermission listing.round.grant.fileId given listing.round.grant.id false) (.ok ())
        ⟨known, .cleared listing row⟩
  | deleteFails {known listing given row thrown} : Leads deps ⟨known, .deleting listing row given⟩
        (.deletePermission listing.round.grant.fileId given listing.round.grant.id false)
        (.error thrown) ⟨known, .sharing listing⟩
  | forgets {known listing} {row : GrantMemberRow} : Leads deps ⟨known, .cleared listing row⟩
        (.db (.deleteMember listing.round.grant.id row.email)) (.ok ())
        ⟨known, .sharing (listing.remove row.email)⟩
  | forgetFails {known listing thrown} {row : GrantMemberRow} :
      Leads deps ⟨known, .cleared listing row⟩
        (.db (.deleteMember listing.round.grant.id row.email)) (.error thrown) ⟨known, .never⟩
  | lets {known listing} {row : GrantMemberRow} (isNew : row.email ∉ listing.handled)
      (isRow : row ∈ listing.round.prev) (notOurs : listing.round.ours row = none) :
      Leads deps ⟨known, .sharing listing⟩
        (.db (.deleteMember listing.round.grant.id row.email)) (.ok ())
        ⟨known, .sharing (listing.remove row.email)⟩
  | letFails {known listing email thrown} : Leads deps ⟨known, .sharing listing⟩
        (.db (.deleteMember listing.round.grant.id email)) (.error thrown) ⟨known, .never⟩
  | asksRevoking {known grant prev passed given} {row : GrantMemberRow} {isHeld : Bool}
      (isRow : row ∈ prev) (isOurs : row.createdByUs = true)
      (isGiven : row.permissionId = some given) :
      Leads deps ⟨known, .read grant prev passed⟩
        (.db (.emailHeldByOtherGrant deps.orgId grant.fileId grant.id row.email given true))
        (.ok isHeld)
        ⟨known, if isHeld then .read grant prev (given :: passed)
          else .giving grant prev passed row given⟩
  | asksRevokingFail {known grant prev passed email given thrown} :
      Leads deps ⟨known, .read grant prev passed⟩
        (.db (.emailHeldByOtherGrant deps.orgId grant.fileId grant.id email given true))
        (.error thrown) ⟨known, .read grant prev passed⟩
  | gives {known grant prev passed row given} :
      Leads deps ⟨known, .giving grant prev passed row given⟩
        (.deletePermission grant.fileId given grant.id true) (.ok ())
        ⟨known, .read grant prev (given :: passed)⟩
  | giveFails {known grant prev passed row given thrown} :
      Leads deps ⟨known, .giving grant prev passed row given⟩
        (.deletePermission grant.fileId given grant.id true) (.error thrown)
        ⟨known, .read grant prev passed⟩
  | dropsAll {known grant prev passed}
      (allPassed : ∀ row ∈ prev, row.createdByUs = true → ∀ given, row.permissionId = some given →
        given ≠ "" → given ∈ passed) :
      Leads deps ⟨known, .read grant prev passed⟩ (.db (.deleteMembers grant.id)) (.ok ())
        ⟨known, .dropped grant⟩
  | dropsAllFail {known grant prev passed thrown} :
      Leads deps ⟨known, .read grant prev passed⟩ (.db (.deleteMembers grant.id)) (.error thrown)
        ⟨known, .never⟩
  | revokes {known grant} :
      Leads deps ⟨known, .dropped grant⟩ (.db (.deleteGrant grant.id)) (.ok ())
        ⟨[], .absent grant.fileId grant.roleId⟩
  | revokeFails {known grant thrown} :
      Leads deps ⟨known, .dropped grant⟩ (.db (.deleteGrant grant.id)) (.error thrown)
        ⟨known, .dropped grant⟩

def isPossible : (request : Call) → Except Thrown (Call.Result request) → Prop
  | .db (.selectMembers grantId), .ok (rows : List GrantMemberRow) =>
    (rows.map GrantMemberRow.email).Nodup ∧ ∀ row ∈ rows, row.grantId = grantId
  | .db (.selectGrant orgId fileId roleId), .ok (some (row : GrantRow)) =>
    row.orgId = orgId ∧ row.fileId = fileId ∧ row.roleId = roleId
  | _, _ => True

def Phase.isFinal (phase : Phase) : Prop :=
  phase.stage.idle = true ∨ phase.stage = .outsider ∨ phase.stage = .never

def shareProtocol (deps : RoleGrantsDeps addresses) : Protocol shareSignature Phase where
  possible := isPossible
  leads := Phase.Leads deps
  final := Phase.isFinal

variable {deps : RoleGrantsDeps addresses} {α β : Type} {known : List GrantRow} {stage : Stage}
  {phase : Phase}

/-- The action returns in a phase that goes with what it returns, or throws between two things. -/
def Ends (good : α → Phase → Prop) : Except Thrown α → Phase → Prop
  | .ok value, after => good value after ∨ after.stage = .never
  | .error _, after => after.isFinal

abbrev Leaves (deps : RoleGrantsDeps addresses) (phase : Phase) (action : ShareM α)
    (good : α → Phase → Prop) : Prop :=
  Follows (shareProtocol deps) phase action (Ends good)

theorem isFinal_of_never (isNever : phase.stage = .never) : phase.isFinal :=
  .inr (.inr isNever)

theorem leaves_never (action : ShareM α) (isNever : phase.stage = .never)
    (good : α → Phase → Prop) : Leaves deps phase action good := by
  obtain ⟨known, stage⟩ := phase
  subst isNever
  suffices program : ∀ program : Prog shareSignature (Except Thrown α),
      (shareProtocol deps).FollowsTo ⟨known, .never⟩ program (Ends good) by
    unfold Leaves Follows
    exact program action.run
  intro program
  induction program with
  | done outcome =>
    cases outcome with
    | ok value => exact .inr rfl
    | error thrown => exact isFinal_of_never rfl
  | call request next ih => exact fun answer _ => ⟨_, .never, ih answer⟩

variable {good : α → Phase → Prop}

theorem leaves_pure {value : α} (holds : good value phase) : Leaves deps phase (pure value) good :=
  follows_pure (.inl holds)

theorem leaves_throw {thrown : Thrown} (isFinal : phase.isFinal) :
    Leaves deps phase (throw thrown) good :=
  follows_throw isFinal

variable {action : ShareM α} {post : β → Phase → Prop}

theorem leaves_bind {continuation : α → ShareM β} (first : Leaves deps phase action good)
    (second : ∀ value after, good value after → Leaves deps after (continuation value) post) :
    Leaves deps phase (action >>= continuation) post := by
  apply follows_bind
  apply Follows.mono first
  rintro (thrown | value) after ends
  · exact ends
  · rcases ends with isGood | isNever
    · exact second value after isGood
    · exact leaves_never _ isNever _

theorem Leaves.mono {strong weak : α → Phase → Prop} (leaves : Leaves deps phase action strong)
    (weaken : ∀ value after, strong value after → weak value after) :
    Leaves deps phase action weak := by
  apply Follows.mono leaves
  rintro (thrown | value) after ends
  · exact ends
  · exact ends.imp (weaken value after) id

variable {request : Call}

/-- A call that is tried: what it returns and what it throws are told apart. -/
theorem leaves_attempt_ask {continuation : Except Thrown (Call.Result request) →
    ShareM β}
    (leads : ∀ answer, isPossible request answer → ∃ after,
      Phase.Leads deps phase request answer after ∧ Leaves deps after (continuation answer) post) :
    Leaves deps phase (attempt (ask request) >>= continuation) post := by
  apply follows_attempt_bind
  apply follows_port
  exact leads

theorem leaves_ask {good : Call.Result request → Phase → Prop}
    (leads : ∀ answer, isPossible request answer → ∃ after,
      Phase.Leads deps phase request answer after ∧ Ends good answer after) :
    Leaves deps phase (ask request) good :=
  follows_port leads

/-- A call that leaves everything as it is leads nowhere. -/
theorem leaves_quiet (isQuiet : request.IsQuiet) (idle : phase.stage.idle = true) :
    Leaves deps phase (ask request) fun _ after => after = phase := by
  apply leaves_ask
  rintro (thrown | result) _
  · exact ⟨phase, .quiet isQuiet idle, .inl idle⟩
  · exact ⟨phase, .quiet isQuiet idle, .inl rfl⟩

theorem leaves_quiet_bind {continuation : Call.Result request → ShareM β}
    (isQuiet : request.IsQuiet) (idle : phase.stage.idle = true)
    (rest : ∀ result, Leaves deps phase (continuation result) post) :
    Leaves deps phase (ask request >>= continuation) post := by
  apply leaves_bind (leaves_quiet isQuiet idle)
  rintro result after rfl
  exact rest result

def areNormal (addresses : Addresses) (targets : List Target) : Prop :=
  ∀ target ∈ targets, addresses.normalize target.email = target.email

variable {cached : Option (List Target)}

theorem loadTargets_leaves (idle : phase.stage.idle = true)
    (normal : ∀ targets, cached = some targets → areNormal addresses targets) :
    Leaves deps phase (loadTargets addresses cached) fun targets after =>
      after = phase ∧ areNormal addresses targets := by
  cases cached with
  | some targets => exact leaves_pure ⟨rfl, normal targets rfl⟩
  | none =>
    apply leaves_quiet_bind (by trivial) idle
    intro users
    apply leaves_quiet_bind (by trivial) idle
    intro google
    apply leaves_pure
    refine ⟨rfl, fun target member => ?_⟩
    obtain ⟨user, -, rfl⟩ := List.mem_map.mp member
    exact addresses.normalize_normalize _

variable {targets : List Target}

theorem mem_firstOfEach {target : Target}
    (member : target ∈ firstOfEach targets) : target ∈ targets := by
  induction targets with
  | nil => exact member
  | cons head tail ih =>
    rcases mem_cons.mp member with rfl | member
    · exact .head _
    · exact mem_cons_of_mem head (ih (mem_of_mem_filter member))

theorem nodup_firstOfEach (targets : List Target) :
    ((firstOfEach targets).map Target.email).Nodup := by
  induction targets with
  | nil => exact .nil
  | cons head tail ih =>
    rw [firstOfEach, map_cons, nodup_cons]
    constructor
    · intro member
      obtain ⟨other, otherMem, same⟩ := List.mem_map.mp member
      simpa [same] using (mem_filter.mp otherMem).2
    · exact ih.sublist (filter_sublist.map _)

variable {listing : Listing} {email : String}

/-- The address at hand was dealt with, or left as it was. -/
def Deals (known : List GrantRow) (listing : Listing) (email : String) (after : Phase) : Prop :=
  after = ⟨known, .sharing listing⟩ ∨ after = ⟨known, .sharing (listing.handle email)⟩

variable {live : SharePermission}

theorem recordLive_leaves (writes : Int)
    (isNew : email ∉ listing.handled) (isLive : listing.round.live email = some live) :
    Leaves deps ⟨known, .sharing listing⟩
      (recordLive listing.round ⟨listing.round.grant.id, email, some live.id,
        listing.round.isOurs email live⟩ writes)
      fun _ after => Deals known listing email after := by
  unfold recordLive record
  split
  · apply follows_attempt_bind
    exact follows_pure (leaves_pure (.inl rfl))
  · apply leaves_attempt_ask
    rintro (thrown | ⟨⟩) _
    · exact ⟨_, .recordFails, leaves_pure (.inl rfl)⟩
    · exact ⟨_, .records isNew isLive, leaves_pure (.inr rfl)⟩

theorem dropOurs_leaves (invited : Bool) (thrown : Thrown) :
    Leaves deps ⟨known, .noting listing email⟩ (dropOurs listing.round email invited thrown)
      fun _ after => Deals known listing email after := by
  unfold dropOurs
  apply leaves_attempt_ask
  rintro (other | ⟨⟩) _
  · exact ⟨_, .dropFails, leaves_never _ rfl _⟩
  · exact ⟨_, .drops, leaves_pure (.inr rfl)⟩

theorem createOurs_leaves (isNew : email ∉ listing.handled)
    (notLive : listing.round.live email = none) (isNormal : addresses.normalize email = email) :
    Leaves deps ⟨known, .sharing listing⟩ (createOurs listing.round email)
      fun _ after => Deals known listing email after := by
  unfold createOurs
  apply leaves_attempt_ask
  rintro (thrown | ⟨⟩) _
  · exact ⟨_, .recordFails, leaves_pure (.inl rfl)⟩
  refine ⟨_, .notes isNew notLive isNormal, ?_⟩
  apply leaves_attempt_ask
  rintro (thrown | permission) _
  · exact ⟨_, .refuses, dropOurs_leaves false thrown⟩
  refine ⟨_, .creates, ?_⟩
  apply leaves_attempt_ask
  rintro (thrown | ⟨⟩) _
  · exact ⟨_, .settleFails, leaves_never _ rfl _⟩
  · exact ⟨_, .settles, leaves_pure (.inr rfl)⟩

theorem keepOurs_leaves (isNew : email ∉ listing.handled)
    (isLive : listing.round.live email = some live)
    (isOurs : listing.round.isOurs email live = true) :
    Leaves deps ⟨known, .sharing listing⟩ (keepOurs listing.round email live)
      fun _ after => Deals known listing email after := by
  have recorded : ∀ writes, Leaves deps ⟨known, .sharing listing⟩
      (recordLive listing.round ⟨listing.round.grant.id, email, some live.id, true⟩ writes)
      fun _ after => Deals known listing email after :=
    fun writes => isOurs ▸ recordLive_leaves writes isNew isLive
  unfold keepOurs
  split
  · exact recorded 0
  · apply leaves_attempt_ask
    rintro (thrown | ⟨⟩) _
    · exact ⟨_, .corrects isNew isLive isOurs, leaves_pure (.inl rfl)⟩
    · exact ⟨_, .corrects isNew isLive isOurs, recorded 1⟩

theorem shareMember_leaves (isNew : email ∉ listing.handled)
    (isNormal : addresses.normalize email = email) :
    Leaves deps ⟨known, .sharing listing⟩ (shareMember listing.round email)
      fun _ after => Deals known listing email after := by
  unfold shareMember
  cases isLive : listing.round.live email with
  | none => exact createOurs_leaves isNew isLive isNormal
  | some live =>
    by_cases isOurs : listing.round.isOurs email live = true
    · rw [Round.isOurs] at isOurs
      simp only [isOurs, if_true]
      exact keepOurs_leaves isNew isLive isOurs
    · have notOurs : listing.round.isOurs email live = false := by simpa using isOurs
      have recorded : Leaves deps ⟨known, .sharing listing⟩
          (recordLive listing.round ⟨listing.round.grant.id, email, some live.id, false⟩ 0)
          fun _ after => Deals known listing email after :=
        notOurs ▸ recordLive_leaves 0 isNew isLive
      rw [Round.isOurs] at isOurs
      simp only [isOurs]
      exact recorded

theorem budgetSpent_leaves (round : Round) (writes : Int) (idle : phase.stage.idle = true) :
    Leaves deps phase (round.budgetSpent writes) fun _ after => after = phase := by
  unfold Round.budgetSpent
  split
  · exact leaves_pure rfl
  · apply leaves_quiet_bind (by trivial) idle
    exact fun now => leaves_pure rfl

theorem shareAll_leaves {emails : List String} (progress : Progress) (nodup : emails.Nodup)
    (areNew : ∀ email ∈ emails, email ∉ listing.handled)
    (normal : ∀ email ∈ emails, addresses.normalize email = email) :
    Leaves deps ⟨known, .sharing listing⟩ (shareAll listing.round progress emails)
      fun _ after => ∃ handled, after = ⟨known, .sharing { listing with handled }⟩ ∧
        ∀ email ∈ handled, email ∈ listing.handled ∨ email ∈ emails := by
  induction emails generalizing progress listing with
  | nil => exact leaves_pure ⟨listing.handled, rfl, fun _ member => .inl member⟩
  | cons email rest ih =>
    obtain ⟨notRest, restNodup⟩ := nodup_cons.mp nodup
    have isNew := areNew email (.head _)
    have restNew : ∀ other ∈ rest, other ∉ listing.handled :=
      fun other member => areNew other (mem_cons_of_mem email member)
    have restNormal : ∀ other ∈ rest, addresses.normalize other = other :=
      fun other member => normal other (mem_cons_of_mem email member)
    unfold shareAll
    split
    · apply (ih progress restNodup restNew restNormal).mono
      rintro _ _ ⟨handled, rfl, within⟩
      exact ⟨handled, rfl, fun other member =>
        (within other member).imp_right (mem_cons_of_mem email)⟩
    · apply leaves_bind (budgetSpent_leaves listing.round progress.writes rfl)
      rintro spent _ rfl
      cases spent with
      | true => exact leaves_pure ⟨listing.handled, rfl, fun _ member => .inl member⟩
      | false =>
        apply leaves_bind (shareMember_leaves isNew (normal email (.head _)))
        rintro done _ (rfl | rfl)
        · apply (ih _ restNodup restNew restNormal).mono
          rintro _ _ ⟨handled, rfl, within⟩
          exact ⟨handled, rfl, fun other member =>
            (within other member).imp_right (mem_cons_of_mem email)⟩
        · have stillNew : ∀ other ∈ rest, other ∉ (listing.handle email).handled := by
            intro other member isHandled
            rcases mem_cons.mp isHandled with rfl | isHandled
            · exact notRest member
            · exact restNew other member isHandled
          apply (ih _ restNodup stillNew restNormal).mono
          rintro _ _ ⟨handled, rfl, within⟩
          refine ⟨handled, rfl, fun other member => ?_⟩
          rcases within other member with isHandled | isRest
          · rcases mem_cons.mp isHandled with rfl | isHandled
            · exact .inr (.head _)
            · exact .inl isHandled
          · exact .inr (mem_cons_of_mem email isRest)

/-- The row at hand went, or something was thrown. -/
def Goes (known : List GrantRow) (listing : Listing) (email : String) (done : Handled)
    (after : Phase) : Prop :=
  (after = ⟨known, .sharing (listing.remove email)⟩ ∧ done.refusal = none) ∨
    (after = ⟨known, .sharing listing⟩ ∧ done.refusal.isSome = true)

variable {row : GrantMemberRow}

theorem forget_leaves (writes : Int) :
    Leaves deps ⟨known, .cleared listing row⟩ (forget listing.round row.email writes)
      fun done after => Goes known listing row.email done after := by
  unfold forget
  apply leaves_attempt_ask
  rintro (thrown | ⟨⟩) _
  · exact ⟨_, .forgetFails, leaves_never _ rfl _⟩
  · exact ⟨_, .forgets, leaves_pure (.inl ⟨rfl, rfl⟩)⟩

theorem removeMember_leaves (isNew : row.email ∉ listing.handled)
    (isRow : row ∈ listing.round.prev) :
    Leaves deps ⟨known, .sharing listing⟩ (removeMember deps listing.round row)
      fun done after => Goes known listing row.email done after := by
  unfold removeMember
  cases isOurs : listing.round.ours row with
  | none =>
    simp only [forget]
    apply leaves_attempt_ask
    rintro (thrown | ⟨⟩) _
    · exact ⟨_, .letFails, leaves_never _ rfl _⟩
    · exact ⟨_, .lets isNew isRow isOurs, leaves_pure (.inl ⟨rfl, rfl⟩)⟩
  | some given =>
    apply leaves_attempt_ask
    rintro (thrown | isHeld) _
    · exact ⟨_, .asksFail, leaves_pure (.inr ⟨rfl, rfl⟩)⟩
    refine ⟨⟨known, if isHeld then .cleared listing row else .deleting listing row given⟩,
      .asks isNew isRow isOurs, ?_⟩
    cases isHeld with
    | true => exact forget_leaves 0
    | false =>
      apply leaves_attempt_ask
      rintro (thrown | ⟨⟩) _
      · exact ⟨_, .deleteFails, leaves_pure (.inr ⟨rfl, rfl⟩)⟩
      · exact ⟨_, .deletes, forget_leaves 1⟩

/-- The addresses that were passed over. -/
def Progress.skippedEmails (progress : Progress) : List String :=
  progress.skipped.map SkippedMember.email

variable {progress : Progress}

theorem skippedEmails_after {round : Round} {done : Handled} :
    (progress.after round email done).skippedEmails =
      progress.skippedEmails ++ if done.refusal.isSome then [email] else [] := by
  cases isRefused : done.refusal <;> simp [Progress.skippedEmails, Progress.after, isRefused]

/-- What has become of those who left, once a cursor is returned or none. -/
structure Sweeps (emails : List String) (rows : List GrantMemberRow) (listing after : Listing)
    (before progress : Progress) (cursor : Option String) : Prop where
  isRound : after.round = listing.round
  within : ∀ email ∈ after.handled, email ∈ listing.handled ∨ email ∈ after.removed
  keeps : ∀ email ∈ listing.removed, email ∈ after.removed
  skips : ∀ email ∈ before.skippedEmails, email ∈ progress.skippedEmails
  sweeps : cursor = none → ∀ row ∈ rows, row.email ∈ emails ∨ row.email ∈ after.removed ∨
    row.email ∈ progress.skippedEmails

variable {emails : List String} {rows : List GrantMemberRow}

variable {cursor : Option String}

theorem sweeps_nothing (isOver : cursor = none → rows = []) :
    Sweeps emails rows listing listing progress progress cursor where
  isRound := rfl
  within _ member := .inl member
  keeps _ member := member
  skips _ member := member
  sweeps isNone row member := by
    rw [isOver isNone] at member
    exact absurd member not_mem_nil

theorem removeAll_leaves (progress : Progress)
    (nodup : (rows.map GrantMemberRow.email).Nodup) (areRows : ∀ row ∈ rows, row ∈ listing.round.prev)
    (areNew : ∀ row ∈ rows, row.email ∉ emails → row.email ∉ listing.handled) :
    Leaves deps ⟨known, .sharing listing⟩ (removeAll deps listing.round emails progress rows)
      fun done after => ∃ final, after = ⟨known, .sharing final⟩ ∧
        Sweeps emails rows listing final progress done.1 done.2 := by
  induction rows generalizing progress listing with
  | nil => exact leaves_pure ⟨listing, rfl, sweeps_nothing fun _ => rfl⟩
  | cons row rest ih =>
    rw [map_cons, nodup_cons] at nodup
    obtain ⟨notRest, restNodup⟩ := nodup
    have restRows : ∀ other ∈ rest, other ∈ listing.round.prev :=
      fun other member => areRows other (mem_cons_of_mem row member)
    have restNew : ∀ other ∈ rest, other.email ∉ emails → other.email ∉ listing.handled :=
      fun other member => areNew other (mem_cons_of_mem row member)
    unfold removeAll
    split
    · rename_i isMember
      apply (ih progress restNodup restRows restNew).mono
      rintro done _ ⟨final, rfl, sweep⟩
      refine ⟨final, rfl, { sweep with sweeps := ?_ }⟩
      intro isNone other member
      rcases mem_cons.mp member with rfl | member
      · exact .inl isMember
      · exact sweep.sweeps isNone other member
    · rename_i hasLeft
      apply leaves_bind (budgetSpent_leaves listing.round progress.writes rfl)
      rintro spent _ rfl
      cases spent with
      | true => exact leaves_pure ⟨listing, rfl, sweeps_nothing fun isNone => by cases isNone⟩
      | false =>
        apply leaves_bind (removeMember_leaves (areNew row (.head _) hasLeft)
          (areRows row (.head _)))
        rintro done _ (⟨rfl, isDone⟩ | ⟨rfl, isRefused⟩)
        · have stillRows : ∀ other ∈ rest, other ∈ (listing.remove row.email).round.prev :=
            restRows
          have stillNew : ∀ other ∈ rest, other.email ∉ emails →
              other.email ∉ (listing.remove row.email).handled := by
            intro other member otherLeft isHandled
            rcases mem_cons.mp isHandled with same | isHandled
            · exact notRest (same ▸ mem_map_of_mem member)
            · exact restNew other member otherLeft isHandled
          apply (ih _ restNodup stillRows stillNew).mono
          rintro result _ ⟨final, rfl, sweep⟩
          have isRemoved : row.email ∈ final.removed :=
            sweep.keeps row.email (.head _)
          refine ⟨final, rfl, sweep.isRound, ?_, ?_, ?_, ?_⟩
          · intro email member
            rcases sweep.within email member with isHandled | isRemoved'
            · rcases mem_cons.mp isHandled with rfl | isHandled
              · exact .inr isRemoved
              · exact .inl isHandled
            · exact .inr isRemoved'
          · exact fun email member => sweep.keeps email (.tail _ member)
          · intro email member
            apply sweep.skips
            rw [skippedEmails_after]
            exact mem_append_left _ member
          · intro isNone other member
            rcases mem_cons.mp member with rfl | member
            · exact .inr (.inl isRemoved)
            · exact sweep.sweeps isNone other member
        · apply (ih _ restNodup restRows restNew).mono
          rintro result _ ⟨final, rfl, sweep⟩
          have isSkipped : row.email ∈ result.1.skippedEmails := by
            apply sweep.skips
            rw [skippedEmails_after, if_pos isRefused]
            exact mem_append_right _ (.head _)
          refine ⟨final, rfl, { sweep with skips := ?_, sweeps := ?_ }⟩
          · intro email member
            apply sweep.skips
            rw [skippedEmails_after]
            exact mem_append_left _ member
          · intro isNone other member
            rcases mem_cons.mp member with rfl | member
            · exact .inr (.inr isSkipped)
            · exact sweep.sweeps isNone other member

/-- What a reconciliation that removes those who have left has come to. -/
structure Swept (done : Reconciled) (listing : Listing) : Prop where
  handled : ∀ email ∈ listing.handled, email ∈ done.emails ∨ email ∈ listing.removed
  rows : done.nextCursor = none → ∀ row ∈ listing.round.prev, row.email ∈ done.emails ∨
    row.email ∈ listing.removed ∨ row.email ∈ done.progress.skippedEmails

theorem mem_sortEmails : email ∈ sortEmails emails ↔ email ∈ emails :=
  (perm_insertionSort _ emails).mem_iff

theorem nodup_sortEmails (nodup : emails.Nodup) : (sortEmails emails).Nodup :=
  (perm_insertionSort _ emails).nodup_iff.mpr nodup

/-- The addresses of a role differ, and are as they are compared. -/
theorem emails_of_shareTargets (normal : areNormal addresses targets)
    (roleId : String) (selected : Target → Bool) :
    (sortEmails (((shareTargets targets roleId).filter selected).map Target.email)).Nodup ∧
      ∀ email ∈ sortEmails (((shareTargets targets roleId).filter selected).map Target.email),
        addresses.normalize email = email := by
  constructor
  · apply nodup_sortEmails
    exact (nodup_firstOfEach _).sublist (filter_sublist.map _)
  · intro email member
    obtain ⟨target, targetMem, rfl⟩ := List.mem_map.mp (mem_sortEmails.mp member)
    have isTarget := mem_firstOfEach (mem_filter.mp targetMem).1
    exact normal target (mem_filter.mp isTarget).1

theorem reconcile_leaves {grant : GrantRow} {driveRole : AssignableDriveRole}
    {options : ReconcileOptions} (idle : phase.stage.idle = true)
    (isKnown : grant ∈ phase.known)
    (normal : ∀ targets, cached = some targets → areNormal addresses targets) :
    Leaves deps phase (reconcile deps grant driveRole options cached) fun done after =>
      ∃ listing, after = ⟨phase.known, .sharing listing⟩ ∧ listing.round.grant = grant ∧
        areNormal addresses done.targets ∧
          (options.removeDeparted = true → Swept done listing) := by
  obtain ⟨known, stage⟩ := phase
  unfold reconcile
  apply leaves_quiet_bind (by trivial) idle
  intro startedAt
  apply follows_port_bind
  case throws => exact fun thrown _ => ⟨_, .quiet trivial idle, .inl idle⟩
  rintro prev ⟨prevNodup, -⟩
  refine ⟨⟨known, .read grant prev []⟩, .reads idle isKnown, ?_⟩
  apply leaves_bind (loadTargets_leaves rfl normal)
  rintro targets _ ⟨rfl, areTargets⟩
  simp only []
  obtain ⟨emailsNodup, emailsNormal⟩ := emails_of_shareTargets areTargets grant.roleId
    fun target => !options.onlyGoogle || target.hasGoogle
  generalize emailsEq : sortEmails _ = emails at emailsNodup emailsNormal ⊢
  apply follows_port_bind
  case throws => exact fun thrown _ => ⟨_, .quiet trivial rfl, .inl rfl⟩
  intro permissions _
  generalize roundEq : Round.mk grant driveRole options startedAt prev
    (indexUserPermsByEmail addresses permissions) _ = round
  have isGrant : round.grant = grant := roundEq ▸ rfl
  have isPrev : round.prev = prev := roundEq ▸ rfl
  have isLive : round.live = indexUserPermsByEmail addresses permissions := roundEq ▸ rfl
  subst isGrant isPrev
  refine ⟨_, .lists isLive, ?_⟩
  have noneHandled : ∀ email ∈ emails, email ∉ (Listing.mk round [] []).handled :=
    fun _ _ => not_mem_nil
  apply leaves_bind (shareAll_leaves _ emailsNodup noneHandled emailsNormal)
  rintro ⟨shared, sharedCursor⟩ _ ⟨handled, rfl, within⟩
  have areHandled : ∀ email ∈ handled, email ∈ emails :=
    fun email member => (within email member).resolve_left not_mem_nil
  simp only []
  split
  · have areNew : ∀ row ∈ round.prev, row.email ∉ emails →
        row.email ∉ (Listing.mk round handled []).handled :=
      fun row _ hasLeft isHandled => hasLeft (areHandled row.email isHandled)
    apply leaves_bind (removeAll_leaves shared prevNodup (fun _ member => member) areNew)
    rintro ⟨progress, nextCursor⟩ _ ⟨final, rfl, sweep⟩
    apply leaves_pure
    refine ⟨final, rfl, congrArg Round.grant sweep.isRound, areTargets, fun _ => ⟨?_, ?_⟩⟩
    · exact fun email member => (sweep.within email member).imp_left (areHandled email)
    · intro isNone row member
      rw [sweep.isRound] at member
      exact sweep.sweeps isNone row member
  · rename_i goesNoFurther
    have stays : Leaves deps ⟨known, .sharing ⟨round, handled, []⟩⟩ (pure (shared, sharedCursor))
        fun result after => result = (shared, sharedCursor) ∧
          after = ⟨known, .sharing ⟨round, handled, []⟩⟩ := leaves_pure ⟨rfl, rfl⟩
    apply leaves_bind stays
    rintro ⟨progress, nextCursor⟩ _ ⟨isResult, rfl⟩
    cases isResult
    apply leaves_pure
    refine ⟨⟨round, handled, []⟩, rfl, rfl, areTargets, fun removes => ⟨?_, ?_⟩⟩
    · exact fun email member => .inl (areHandled email member)
    · exact fun isNone => absurd ⟨isNone, removes⟩ goesNoFurther

theorem upsertGrant_leaves {row : GrantRow} (idle : phase.stage.idle = true)
    (isOrg : row.orgId = deps.orgId) :
    Leaves deps phase (upsertGrant row) fun grant after =>
      grant ∈ after.known ∧ after.stage.idle = true ∧
        grant.orgId = deps.orgId ∧ grant.fileId = row.fileId ∧ grant.roleId = row.roleId := by
  unfold upsertGrant
  rw [isOrg]
  apply follows_port_bind
  case throws => exact fun thrown _ => ⟨_, .quiet trivial idle, .inl idle⟩
  rintro (- | existing) isPossible
  · refine ⟨_, .misses idle, ?_⟩
    apply follows_port_bind
    case throws => exact fun thrown _ => ⟨_, .insertFails rfl, .inl rfl⟩
    rintro ⟨⟩ _
    exact ⟨_, .inserts rfl isOrg, leaves_pure ⟨.head _, rfl, isOrg, rfl, rfl⟩⟩
  · obtain ⟨isOrg', isFile, isRole⟩ := isPossible
    refine ⟨_, .finds idle, ?_⟩
    apply follows_port_bind
    case throws => exact fun thrown _ => ⟨_, .updates idle (.head _), .inl rfl⟩
    rintro ⟨⟩ _
    exact ⟨_, .updates idle (.head _), leaves_pure ⟨.head _, rfl, isOrg', isFile, isRole⟩⟩

theorem kickSync_leaves (idle : phase.stage.idle = true) :
    Leaves deps phase (kickSync deps) fun _ after => after = phase := by
  unfold kickSync
  split
  · apply leaves_attempt_ask
    exact fun answer _ => ⟨_, .quiet trivial idle, leaves_pure rfl⟩
  · have stays : Leaves deps phase (pure (.ok ()) : ShareM (Except Thrown Unit))
        fun _ after => after = phase := leaves_pure rfl
    exact leaves_bind stays fun _ _ isSame => leaves_pure isSame

variable {grant : GrantRow}

theorem toRoleFileGrant_leaves {done : Reconciled} (idle : phase.stage.idle = true) :
    Leaves deps phase (toRoleFileGrant grant done) fun returned after =>
      after = phase ∧ returned.nextCursor = done.nextCursor ∧
        returned.skipped = done.progress.skipped := by
  unfold toRoleFileGrant
  apply leaves_quiet_bind (by trivial) idle
  intro members
  apply leaves_quiet_bind (by trivial) idle
  exact fun roleName => leaves_pure ⟨rfl, rfl, rfl⟩

theorem assertRoleId_leaves (roleId : String) (isFinal : phase.isFinal) :
    Leaves deps phase (assertRoleId roleId) fun _ after => after = phase := by
  unfold assertRoleId
  split
  · exact leaves_throw isFinal
  · exact leaves_pure rfl

theorem assertAssignable_leaves (driveRole : String) (isFinal : phase.isFinal) :
    Leaves deps phase (assertAssignable driveRole) fun _ after => after = phase := by
  unfold assertAssignable
  split
  · exact leaves_pure rfl
  · exact leaves_pure rfl
  · exact leaves_pure rfl
  · exact leaves_throw isFinal

theorem idOf_leaves {existing : Option GrantRow} (idle : phase.stage.idle = true) :
    Leaves deps phase (idOf existing) fun _ after => after = phase := by
  cases existing with
  | some existing => exact leaves_pure rfl
  | none => exact leaves_quiet (by trivial) idle

theorem apply_leaves (fileId actingUserId roleId driveRole : String)
    (idle : phase.stage.idle = true) :
    Leaves deps phase (apply deps fileId actingUserId roleId driveRole)
      fun _ after => after.stage.idle = true := by
  unfold apply
  apply leaves_bind (assertRoleId_leaves roleId (.inl idle))
  rintro _ _ rfl
  apply leaves_bind (assertAssignable_leaves driveRole (.inl idle))
  rintro assigned _ rfl
  apply leaves_quiet_bind (by trivial) idle
  intro existing
  apply leaves_quiet_bind (by trivial) idle
  intro ts
  apply leaves_bind (idOf_leaves idle)
  rintro id _ rfl
  apply leaves_bind (upsertGrant_leaves idle rfl)
  rintro grant after ⟨isKnown, isIdle, -⟩
  apply leaves_bind (reconcile_leaves isIdle isKnown fun _ isNone => by cases isNone)
  rintro done _ ⟨listing, rfl, -⟩
  apply leaves_bind (kickSync_leaves rfl)
  rintro _ _ rfl
  apply (toRoleFileGrant_leaves rfl).mono
  rintro _ _ ⟨rfl, -⟩
  rfl

/-- The last return of a grant that is applied again, with what it has read and swept. -/
def Reapplies (deps : RoleGrantsDeps addresses) (fileId roleId : String)
    (result : RoleFileGrant × List String) (after : Phase) : Prop :=
  ∃ done listing, after.stage = .sharing listing ∧ listing.round.grant.orgId = deps.orgId ∧
    listing.round.grant.fileId = fileId ∧ listing.round.grant.roleId = roleId ∧
      Swept done listing ∧ result.1.nextCursor = done.nextCursor ∧
        result.1.skipped = done.progress.skipped ∧ result.2 = done.emails

theorem reapplied_leaves (fileId roleId : String) (cursor : Option String)
    (idle : phase.stage.idle = true) :
    Leaves deps phase (reapplied deps fileId roleId cursor) (Reapplies deps fileId roleId) := by
  unfold reapplied
  apply leaves_bind (assertRoleId_leaves roleId (.inl idle))
  rintro _ _ rfl
  apply follows_port_bind
  case throws => exact fun thrown _ => ⟨_, .quiet trivial idle, .inl idle⟩
  rintro (- | grant) isPossible
  · exact ⟨_, .misses idle, leaves_throw (.inl rfl)⟩
  obtain ⟨isOrg, isFile, isRole⟩ := isPossible
  refine ⟨_, .finds idle, ?_⟩
  simp only []
  apply leaves_quiet_bind (by trivial)
  · exact idle
  intro ts
  refine leaves_bind (upsertGrant_leaves ?_ ?_) ?_
  · exact idle
  · exact isOrg
  rintro updated after ⟨isKnown, isIdle, updatedOrg, updatedFile, updatedRole⟩
  apply leaves_bind (reconcile_leaves isIdle isKnown fun _ isNone => by cases isNone)
  rintro done _ ⟨listing, rfl, rfl, -, sweeps⟩
  apply leaves_bind (toRoleFileGrant_leaves rfl)
  rintro returned _ ⟨rfl, isCursor, isSkipped⟩
  apply leaves_pure
  exact ⟨done, listing, rfl, updatedOrg, updatedFile.trans isFile, updatedRole.trans isRole,
    sweeps rfl, isCursor, isSkipped, rfl⟩

theorem reapply_leaves (fileId roleId : String) (cursor : Option String)
    (idle : phase.stage.idle = true) :
    Leaves deps phase (reapply deps fileId roleId cursor) fun _ after => after.stage.idle = true := by
  unfold reapply
  apply leaves_bind (reapplied_leaves fileId roleId cursor idle)
  rintro ⟨returned, emails⟩ ⟨known, stage⟩ ⟨_, _, rfl, _⟩
  exact leaves_pure rfl

theorem nonEmpty_eq_some {text other : String} : nonEmpty text = some other ↔
    text ≠ "" ∧ text = other := by
  unfold nonEmpty
  split <;> simp_all

theorem giveUpAll_leaves {prev : List GrantMemberRow}
    {passed : List String} (areRows : ∀ row ∈ rows, row ∈ prev) :
    Leaves deps ⟨known, .read grant prev passed⟩ (giveUpAll deps grant rows) fun _ after =>
      ∃ further, after = ⟨known, .read grant prev further⟩ ∧ (∀ id ∈ passed, id ∈ further) ∧
        ∀ row ∈ rows, row.createdByUs = true → ∀ given, row.permissionId = some given →
          given ≠ "" → given ∈ further := by
  induction rows generalizing passed with
  | nil => exact leaves_pure ⟨passed, rfl, fun _ member => member, by simp⟩
  | cons row rest ih =>
    have restRows : ∀ other ∈ rest, other ∈ prev :=
      fun other member => areRows other (mem_cons_of_mem row member)
    unfold giveUpAll
    split
    · rename_i notGiven
      apply (ih restRows).mono
      rintro _ _ ⟨further, rfl, keeps, passes⟩
      refine ⟨further, rfl, keeps, fun other member isOurs given isGiven notEmpty => ?_⟩
      rcases mem_cons.mp member with rfl | member
      · rw [isGiven, bind_some, nonEmpty, if_neg notEmpty] at notGiven
        cases notGiven
      · exact passes other member isOurs given isGiven notEmpty
    · rename_i given isSome
      obtain ⟨text, isText, nonEmptyText⟩ := bind_eq_some_iff.mp isSome
      obtain ⟨-, rfl⟩ := nonEmpty_eq_some.mp nonEmptyText
      split
      · rename_i isOurs
        have goesOn : Leaves deps ⟨known, .read grant prev (text :: passed)⟩
            (giveUpAll deps grant rest) fun _ after =>
              ∃ further, after = ⟨known, .read grant prev further⟩ ∧ (∀ id ∈ passed, id ∈ further) ∧
                  ∀ other ∈ row :: rest, other.createdByUs = true → ∀ given,
                    other.permissionId = some given → given ≠ "" → given ∈ further := by
          apply (ih restRows).mono
          rintro _ _ ⟨further, rfl, keeps, passes⟩
          refine ⟨further, rfl, fun id member => keeps id (.tail _ member), ?_⟩
          intro other member isOurs' given isGiven notEmpty
          rcases mem_cons.mp member with rfl | member
          · obtain rfl : text = given := some.inj (isText.symm.trans isGiven)
            exact keeps text (.head _)
          · exact passes other member isOurs' given isGiven notEmpty
        apply follows_port_bind
        case throws => exact fun thrown _ => ⟨_, .asksRevokingFail, .inl rfl⟩
        intro isHeld _
        refine ⟨⟨known, if isHeld then .read grant prev (text :: passed)
          else .giving grant prev passed row text⟩,
          .asksRevoking (areRows row (.head _)) isOurs isText, ?_⟩
        cases isHeld with
        | true => exact goesOn
        | false =>
          apply follows_port_bind
          case throws => exact fun thrown _ => ⟨_, .giveFails, .inl rfl⟩
          exact fun _ _ => ⟨_, .gives, goesOn⟩
      · rename_i notOurs
        apply (ih restRows).mono
        rintro _ _ ⟨further, rfl, keeps, passes⟩
        refine ⟨further, rfl, keeps, fun other member isOurs given isGiven notEmpty => ?_⟩
        rcases mem_cons.mp member with rfl | member
        · exact absurd isOurs notOurs
        · exact passes other member isOurs given isGiven notEmpty

theorem revoke_leaves (fileId roleId : String) (idle : phase.stage.idle = true) :
    Leaves deps phase (revoke deps fileId roleId)
      fun _ after => after.stage = .absent fileId roleId := by
  unfold revoke
  apply leaves_bind (assertRoleId_leaves roleId (.inl idle))
  rintro _ _ rfl
  apply follows_port_bind
  case throws => exact fun thrown _ => ⟨_, .quiet trivial idle, .inl idle⟩
  rintro (- | grant) isPossible
  · exact ⟨_, .misses idle, leaves_pure rfl⟩
  obtain ⟨-, rfl, rfl⟩ := isPossible
  refine ⟨_, .finds idle, ?_⟩
  apply follows_port_bind
  case throws => exact fun thrown _ => ⟨_, .quiet trivial idle, .inl idle⟩
  intro members _
  refine ⟨⟨_, .read grant members []⟩, .reads idle (.head _), ?_⟩
  apply leaves_bind (giveUpAll_leaves fun _ member => member)
  rintro _ _ ⟨passed, rfl, -, passes⟩
  apply follows_port_bind
  case throws => exact fun thrown _ => ⟨_, .dropsAllFail, isFinal_of_never rfl⟩
  rintro ⟨⟩ _
  refine ⟨_, .dropsAll passes, ?_⟩
  apply leaves_ask
  rintro (thrown | ⟨⟩) _
  · exact ⟨_, .revokeFails, .inl rfl⟩
  · exact ⟨_, .revokes, .inl rfl⟩

variable {grants : List GrantRow}

theorem syncAll_leaves {startedAt budgetMs : Int} {result : RoleSyncResult} {writesLeft : Int}
    (idle : phase.stage.idle = true) (areKnown : ∀ grant ∈ grants, grant ∈ phase.known)
    (normal : ∀ targets, cached = some targets → areNormal addresses targets) :
    Leaves deps phase (syncAll deps startedAt budgetMs result writesLeft cached cursor grants)
      fun _ after => after.stage.idle = true := by
  induction grants generalizing phase result writesLeft cached cursor with
  | nil => exact leaves_pure idle
  | cons grant rest ih =>
    obtain ⟨known, stage⟩ := phase
    have isKnown : grant ∈ known := areKnown grant (.head _)
    have restKnown : ∀ other ∈ rest, other ∈ known :=
      fun other member => areKnown other (mem_cons_of_mem grant member)
    unfold syncAll
    apply leaves_quiet_bind (by trivial) idle
    intro now
    simp only []
    split
    · exact leaves_pure idle
    apply leaves_quiet_bind (by trivial) idle
    intro members
    apply leaves_bind (loadTargets_leaves idle normal)
    rintro targets _ ⟨rfl, areTargets⟩
    have stillNormal : ∀ others, some targets = some others → areNormal addresses others :=
      fun others same => some.inj same ▸ areTargets
    split
    · exact ih idle restKnown stillNormal
    · apply leaves_bind (reconcile_leaves idle isKnown stillNormal)
      rintro done _ ⟨listing, rfl, -⟩
      split
      · exact leaves_pure rfl
      · exact ih rfl restKnown stillNormal

theorem mem_of_mem_fromResume {resume : Option RoleSyncResume}
    (member : grant ∈ fromResume resume grants) : grant ∈ grants := by
  unfold fromResume at member
  split at member
  · exact member
  · split at member
    · exact (dropWhile_sublist _).subset member
    · exact member

theorem syncMembers_leaves (budgetMs maxWrites : Int) (resume : Option RoleSyncResume)
    (idle : phase.stage.idle = true) :
    Leaves deps phase (syncMembers deps budgetMs maxWrites resume)
      fun _ after => after.stage.idle = true := by
  unfold syncMembers
  apply leaves_quiet_bind (by trivial) idle
  intro startedAt
  apply follows_port_bind
  case throws => exact fun thrown _ => ⟨_, .quiet trivial idle, .inl idle⟩
  intro grants _
  refine ⟨⟨grants, phase.stage⟩, .findsAll idle, ?_⟩
  exact syncAll_leaves idle (fun _ member => mem_of_mem_fromResume member)
    fun _ isNone => by cases isNone

variable (op : Operation)

def Operation.first : Phase :=
  ⟨[], if op.isCall then .free else .outsider⟩

theorem leaves_silently (leaves : Leaves deps phase action fun _ after => after.stage.idle = true) :
    Leaves deps phase (silently action) fun _ after => after.isFinal := by
  unfold silently
  apply leaves_bind leaves
  exact fun _ _ idle => leaves_pure (.inl idle)

theorem actionOf_leaves : Leaves deps op.first (actionOf deps op) fun _ after => after.isFinal := by
  cases op with
  | apply fileId actingUserId roleId driveRole =>
    exact leaves_silently (apply_leaves fileId actingUserId roleId driveRole rfl)
  | revoke fileId roleId =>
    apply leaves_silently
    apply (revoke_leaves fileId roleId rfl).mono
    intro _ after isAbsent
    rw [isAbsent]
    rfl
  | reapply fileId roleId cursor => exact leaves_silently (reapply_leaves fileId roleId cursor rfl)
  | syncMembers budgetMs maxWrites resume =>
    exact leaves_silently (syncMembers_leaves budgetMs maxWrites resume rfl)
  | byHand change =>
    have leaves : Leaves deps ⟨[], .outsider⟩ (ask (.byHand change))
        fun _ after => after.isFinal := by
      apply leaves_ask
      rintro (thrown | result) _
      · exact ⟨_, .byHand, .inr (.inl rfl)⟩
      · exact ⟨_, .byHand, .inl (.inr (.inl rfl))⟩
    exact leaves_bind leaves fun _ _ isFinal => leaves_pure isFinal

theorem program_follows :
    (shareProtocol deps).Follows op.first ((shareSystem deps).program op) := by
  have leaves : Leaves deps op.first (actionOf deps op) fun _ after => after.isFinal :=
    actionOf_leaves op
  unfold Leaves Follows at leaves
  apply Protocol.followsTo_bind
  apply leaves.mono
  rintro (thrown | value) after ends
  · exact ends
  · exact ends.elim id isFinal_of_never

end DubEcosystem.DriveShare
