import DubEcosystem.InterleavingProtocols
import DubEcosystem.UserForwardService

/-!
# mail-gateway: what an operation on forward targets knows

A registration knows the destination it has created, a check the destination that it has
seen verified, and an incoming message the row that it was decided to be forwarded by.
-/

namespace DubEcosystem.UserForward

open Interleaving PortPrograms

inductive Phase where
  | idle
  | created (owner target : String) (id : Nat)
  | seen (id : Nat) (email : String)
  /-- The account of this address is to be looked up. -/
  | asked (email : String)
  | known (email userId : String)
  | ready (email userId : String) (row : ForwardRow)

/-- The calls that need nothing to be known. -/
def Free : Call → Prop
  | .saveRegistration registration => registration.cfAddressId = none
  | .stampVerified _ _ _ => False
  | .forward _ => False
  | _ => True

inductive Phase.Leads : Phase → (request : Call) → Except Thrown (Result request) → Phase → Prop
  | free {phase request answer} (isFree : Free request) : Leads phase request answer phase
  | creates {phase owner target} (address : CfDestinationAddress) :
      Leads phase (.createAddress target owner) (.ok (some address))
        (.created owner target address.id)
  | saves {owner target id} (registration : Registration) {answer : Except Thrown Unit}
      (isOwner : registration.ownerUserId = owner) (isTarget : registration.target = target)
      (isId : registration.cfAddressId = some id) :
      Leads (.created owner target id) (.saveRegistration registration) answer .idle
  | sees {phase id} (address : CfDestinationAddress) (isVerified : address.verified.isSome) :
      Leads phase (.getAddress id) (.ok address) (.seen id address.email)
  | stamps {id email now owner} {answer : Except Thrown Unit} :
      Leads (.seen id email) (.stampVerified now owner id) answer (.seen id email)
  | finds {email userId} :
      Leads (.asked email) (.lookupUser email) (.ok (some userId)) (.known email userId)
  | reads {email userId} (row : ForwardRow) (isEnabled : row.enabled = true)
      (isVerified : row.verifiedAt.isSome) :
      Leads (.known email userId) (.liveRow userId) (.ok (some row)) (.ready email userId row)
  | forwards {email userId row target} {answer : Except Thrown Unit}
      (isTarget : row.target = target) :
      Leads (.ready email userId row) (.forward target) answer (.ready email userId row)

def forwardProtocol : Protocol forwardSignature Phase where
  possible _ _ := True
  leads := Phase.Leads
  final _ := True

def Operation.first : Operation → Phase
  | .inbound _ raw => .asked (recipientOf raw)
  | _ => .idle

section Programs

variable {α β : Type} {phase : Phase}

abbrev ForwardFollows (phase : Phase) (action : Forwarding α)
    (post : Except Thrown α → Phase → Prop) : Prop :=
  Follows forwardProtocol phase action post

/-- The action keeps to the protocol whatever is known. -/
abbrev Anywhere (action : Forwarding α) : Prop :=
  ∀ phase, ForwardFollows phase action fun _ _ => True

theorem anywhere_pure {value : α} : Anywhere (pure value) :=
  fun _ => follows_pure trivial

theorem anywhere_throw {thrown : Thrown} : Anywhere (throw thrown : Forwarding α) :=
  fun _ => follows_throw trivial

variable {action : Forwarding α}

theorem anywhere_bind {continuation : α → Forwarding β}
    (first : Anywhere action) (rest : ∀ value, Anywhere (continuation value)) :
    Anywhere (action >>= continuation) := by
  intro phase
  apply follows_bind
  apply (first phase).mono
  rintro (thrown | value) after -
  · trivial
  · exact rest value after

theorem anywhere_attempt_bind
    {continuation : Except Thrown α → Forwarding β} (first : Anywhere action)
    (rest : ∀ outcome, Anywhere (continuation outcome)) :
    Anywhere (attempt action >>= continuation) := by
  intro phase
  apply follows_attempt_bind
  apply (first phase).mono
  exact fun outcome after _ => rest outcome after

variable {request : Call}

theorem free_follows (isFree : Free request) :
    ForwardFollows phase (ask request) fun _ after => after = phase :=
  follows_port fun _ _ => ⟨phase, .free isFree, rfl⟩

theorem fallible_follows {post : Except Thrown (Result request) → Phase → Prop}
    (fails : ∀ thrown, post (.error thrown) phase)
    (answers : ∀ answer, ∃ after, Phase.Leads phase request answer after ∧
      post answer after ∧ ∀ thrown, post (.error thrown) after) :
    ForwardFollows phase (fallible request) post := by
  have isFree : Free .fault := trivial
  apply follows_port_bind
  · intro _ _
    refine ⟨phase, .free isFree, ?_⟩
    apply follows_port_bind
    · intro result _
      obtain ⟨after, leads, holds, failsAfter⟩ := answers (.ok result)
      refine ⟨after, leads, ?_⟩
      apply follows_port_bind
      · exact fun _ _ => ⟨after, .free isFree, follows_pure holds⟩
      · exact fun thrown _ => ⟨after, .free isFree, failsAfter thrown⟩
    · intro thrown _
      obtain ⟨after, leads, holds, -⟩ := answers (.error thrown)
      exact ⟨after, leads, holds⟩
  · exact fun thrown _ => ⟨phase, .free isFree, fails thrown⟩

theorem fallible_free_follows (isFree : Free request) :
    ForwardFollows phase (fallible request) fun _ after => after = phase := by
  apply fallible_follows
  · exact fun _ => rfl
  · exact fun _ => ⟨phase, .free isFree, rfl, fun _ => rfl⟩

theorem anywhere_ask (isFree : Free request) : Anywhere (ask request) :=
  fun _ => (free_follows isFree).mono fun _ _ _ => trivial

theorem anywhere_fallible (isFree : Free request) : Anywhere (fallible request) :=
  fun _ => (fallible_free_follows isFree).mono fun _ _ _ => trivial

theorem anywhere_dubError {code message : String} :
    Anywhere (dubError code message : Forwarding α) :=
  anywhere_throw

theorem anywhere_ite {condition : Prop} [Decidable condition] {first second : Forwarding α}
    (isTrue : Anywhere first) (isFalse : Anywhere second) :
    Anywhere (if condition then first else second) := by
  split
  · exact isTrue
  · exact isFalse

theorem anywhere_unconfigured : Anywhere (unconfigured : Forwarding α) :=
  anywhere_dubError

theorem listAllAddresses_anywhere (left page : Nat) (out : List CfDestinationAddress) :
    Anywhere (listAllAddresses page left out) := by
  induction left generalizing page out with
  | zero => exact anywhere_pure
  | succ left ih =>
    apply anywhere_bind
    · exact anywhere_fallible trivial
    · exact fun answer => anywhere_ite anywhere_pure (ih _ _)

/-- A check that has seen a verified destination may stamp its row. -/
theorem checkAddress_anywhere (cfg : EmailRoutingConfig) (row : ForwardRow)
    (cfAddressId : Nat) : Anywhere (checkAddress cfg row cfAddressId) := by
  intro phase
  unfold checkAddress cfEmailRoutingClient
  simp only []
  apply follows_bind
  split
  · apply fallible_follows
    · exact fun _ => trivial
    · rintro (thrown | address)
      · exact ⟨phase, .free trivial, trivial, fun _ => trivial⟩
      · by_cases isVerified : address.verified.isSome
        · refine ⟨_, .sees address isVerified, ?_, fun _ => trivial⟩
          simp only []
          split
          · exact follows_pure trivial
          · apply follows_bind
            have isFree : Free .nowIso := trivial
            apply (free_follows isFree).mono
            rintro (thrown | now) after rfl
            · trivial
            · apply follows_bind
              apply fallible_follows
              · exact fun _ => trivial
              · rintro (thrown | ⟨⟩)
                · exact ⟨_, .stamps, trivial, fun _ => trivial⟩
                · exact ⟨_, .stamps, follows_pure trivial, fun _ => trivial⟩
        · refine ⟨phase, .free trivial, ?_, fun _ => trivial⟩
          have isPending : address.verified = none := by simpa using isVerified
          simp only [isPending, true_or, if_true]
          exact follows_pure trivial
  · exact follows_throw trivial

variable (env : Env)

theorem refreshVerification_anywhere (row : ForwardRow) :
    Anywhere (refreshVerification env row) := by
  unfold refreshVerification
  split
  · apply anywhere_ite
    · apply anywhere_attempt_bind (checkAddress_anywhere _ _ _)
      intro outcome
      cases outcome with
      | ok checked | error => exact anywhere_pure
    · exact anywhere_pure
  · exact anywhere_pure

theorem getForwardSetting_anywhere (owner : String) : Anywhere (getForwardSetting env owner) := by
  apply anywhere_bind
  · exact anywhere_fallible trivial
  · intro row
    cases row with
    | none => exact anywhere_pure
    | some row =>
      exact anywhere_bind (refreshVerification_anywhere env row) fun _ => anywhere_pure

theorem sweepRows_anywhere (rows : List ForwardRow) (verified : Nat) :
    Anywhere (sweepRows env rows verified) := by
  induction rows generalizing verified with
  | nil => exact anywhere_pure
  | cons row rest ih =>
    exact anywhere_bind (refreshVerification_anywhere env row) fun _ => ih _

theorem sweepPendingForwards_anywhere (now : Int) : Anywhere (sweepPendingForwards env now) := by
  apply anywhere_ite anywhere_pure
  apply anywhere_attempt_bind
  · apply anywhere_bind
    · exact anywhere_fallible trivial
    · exact fun rows => sweepRows_anywhere env rows 0
  · intro swept
    cases swept with
    | ok | error => exact anywhere_pure

theorem replaceExisting_anywhere (cfg : EmailRoutingConfig) (target : String) :
    Anywhere (replaceExisting (cfEmailRoutingClient cfg) target) := by
  have removes : ∀ id, Anywhere ((cfEmailRoutingClient cfg).deleteAddress id) := fun id =>
    anywhere_ite (anywhere_fallible trivial) anywhere_unconfigured
  have lists : Anywhere (cfEmailRoutingClient cfg).listAllAddresses :=
    anywhere_ite (listAllAddresses_anywhere _ _ _) anywhere_unconfigured
  have listsRules : Anywhere (cfEmailRoutingClient cfg).listRules :=
    anywhere_ite (anywhere_fallible trivial) anywhere_unconfigured
  apply anywhere_bind lists
  intro addresses
  split
  · exact anywhere_pure
  · apply anywhere_ite
    · apply anywhere_bind listsRules
      exact fun rules => anywhere_ite anywhere_dubError (removes _)
    · exact removes _

theorem anywhere_guard {condition : Prop} [Decidable condition] {code message : String}
    {rest : PUnit → Forwarding α} (goesOn : Anywhere (rest ())) :
    Anywhere (if condition then dubError code message >>= rest else rest ()) := by
  split
  · exact anywhere_bind anywhere_dubError fun _ => goesOn
  · exact goesOn

theorem requireEmailRoutingConfig_anywhere : Anywhere (requireEmailRoutingConfig env) := by
  unfold requireEmailRoutingConfig
  split
  · exact anywhere_pure
  · exact anywhere_unconfigured

variable {owner target : String} {requestedAt registerDay : Int} {registerCount : Nat}

theorem save_follows {id : Nat} : ForwardFollows (.created owner target id)
      (fallible (.saveRegistration
        ⟨owner, target, some id, requestedAt, registerDay, registerCount⟩))
      fun _ _ => True := by
  apply fallible_follows
  · exact fun _ => trivial
  · exact fun _ => ⟨_, .saves _ rfl rfl rfl, trivial, fun _ => trivial⟩

theorem save_anywhere : Anywhere (fallible (.saveRegistration
      ⟨owner, target, none, requestedAt, registerDay, registerCount⟩)) := by
  have isFree : Free (.saveRegistration
      ⟨owner, target, none, requestedAt, registerDay, registerCount⟩) := rfl
  exact anywhere_fallible isFree

theorem registerForwardTarget_anywhere (owner target : String) (now : Int) :
    Anywhere (registerForwardTarget env owner target now) := by
  unfold registerForwardTarget
  simp only []
  apply anywhere_guard
  apply anywhere_bind (requireEmailRoutingConfig_anywhere env)
  intro cfg
  apply anywhere_bind
  · exact anywhere_fallible trivial
  intro prev
  apply anywhere_guard
  apply anywhere_guard
  apply anywhere_bind
  · exact anywhere_fallible trivial
  intro taken
  apply anywhere_guard
  apply anywhere_bind (replaceExisting_anywhere cfg target)
  intro _ phase
  have fails : ∀ err : Thrown, Anywhere (if mentionsUnique err.message then
      dubError "MAIL_FORWARD_TARGET_IN_USE" "this address is already registered by another account"
    else throw err : Forwarding MailForwardSetting) :=
    fun err => anywhere_ite anywhere_dubError anywhere_throw
  have succeeds : Anywhere (fallible (.liveRow owner) >>= fun row : Option ForwardRow =>
      pure (toSetting row (userForwardAvailable env))) := by
    apply anywhere_bind
    · exact anywhere_fallible trivial
    · exact fun _ => anywhere_pure
  unfold cfEmailRoutingClient
  simp only []
  apply follows_bind
  split
  · apply fallible_follows
    · exact fun _ => trivial
    · rintro (thrown | - | address)
      · exact ⟨phase, .free trivial, trivial, fun _ => trivial⟩
      · refine ⟨phase, .free trivial, ?_, fun _ => trivial⟩
        apply follows_attempt_bind
        apply (save_anywhere phase).mono
        rintro (err | ⟨⟩) after -
        · exact fails err after
        · exact succeeds after
      · refine ⟨_, .creates address, ?_, fun _ => trivial⟩
        apply follows_attempt_bind
        apply save_follows.mono
        rintro (err | ⟨⟩) after -
        · exact fails err after
        · exact succeeds after
  · exact follows_throw trivial

theorem setForwardEnabled_anywhere (owner : String) (enabled : Bool) :
    Anywhere (setForwardEnabled env owner enabled) := by
  apply anywhere_bind
  · exact anywhere_ask trivial
  intro now
  apply anywhere_bind
  · exact anywhere_fallible trivial
  exact fun changes => anywhere_ite anywhere_dubError (getForwardSetting_anywhere env owner)

theorem removeForwardSetting_anywhere (owner : String) :
    Anywhere (removeForwardSetting env owner) := by
  apply anywhere_bind
  · exact anywhere_ask trivial
  intro now
  apply anywhere_bind
  · exact anywhere_fallible trivial
  exact fun changes => anywhere_ite anywhere_dubError anywhere_pure

variable {email : String}

theorem lookupRosterUserId_follows (hasIdentity : Bool) :
    ForwardFollows (.asked email) (lookupRosterUserId hasIdentity email) fun
      | .ok (some userId), after => after = .known email userId
      | _, _ => True := by
  unfold lookupRosterUserId
  split
  · exact follows_pure trivial
  · apply follows_attempt_bind
    apply follows_port
    rintro (thrown | - | userId) -
    · exact ⟨_, .free trivial, follows_pure trivial⟩
    · exact ⟨_, .free trivial, follows_pure trivial⟩
    · exact ⟨_, .finds, follows_pure rfl⟩

/-- The row that is decided on was read live, enabled and verified. -/
theorem decide_follows (deps : UserForwardDeps) (raw : RawInbound) :
    ForwardFollows (.asked (recipientOf raw)) (decide deps raw) fun
      | .ok (.ok row), after => ∃ userId, after = .ready (recipientOf raw) userId row
      | _, _ => True := by
  unfold decide
  split
  · exact follows_pure trivial
  split
  · exact follows_pure trivial
  split
  · exact follows_pure trivial
  split
  · exact follows_pure trivial
  apply follows_bind
  apply (lookupRosterUserId_follows deps.hasIdentity).mono
  rintro (thrown | - | userId) after known
  · trivial
  · exact follows_pure trivial
  · obtain rfl : after = .known (recipientOf raw) userId := known
    apply follows_bind
    apply fallible_follows
    · exact fun _ => trivial
    · rintro (thrown | - | row)
      · exact ⟨_, .free trivial, trivial, fun _ => trivial⟩
      · exact ⟨_, .free trivial, follows_pure trivial, fun _ => trivial⟩
      · by_cases isOn : row.enabled = true ∧ row.verifiedAt.isSome
        · refine ⟨_, .reads row isOn.1 isOn.2, ?_, fun _ => trivial⟩
          simp only []
          split
          · exact follows_pure trivial
          split
          · exact follows_pure trivial
          split
          · exact follows_pure trivial
          split
          · exact follows_pure trivial
          · exact follows_pure ⟨userId, rfl⟩
        · refine ⟨_, .free trivial, ?_, fun _ => trivial⟩
          simp only []
          split
          · exact follows_pure trivial
          split
          · exact follows_pure trivial
          · rename_i isEnabled isVerified
            exact absurd ⟨by simpa using isEnabled, Option.isSome_iff_ne_none.mpr isVerified⟩ isOn

theorem doForward_follows {userId : String} {row : ForwardRow} :
    ForwardFollows (.ready email userId row) (doForward row) fun _ _ => True := by
  apply follows_attempt_bind
  apply follows_port
  rintro (thrown | ⟨⟩) -
  · exact ⟨_, .forwards rfl, follows_pure trivial⟩
  · exact ⟨_, .forwards rfl, follows_pure trivial⟩

theorem recordOutcome_anywhere (row : ForwardRow) (result : ForwardResult)
    (error : Option String) : Anywhere (recordOutcome row result error) := by
  apply anywhere_bind
  · exact anywhere_ask trivial
  intro now
  apply anywhere_attempt_bind
  · exact anywhere_fallible trivial
  intro _
  apply anywhere_attempt_bind
  · exact anywhere_ask trivial
  · exact fun _ => anywhere_pure

theorem forwardToUserTarget_follows (deps : UserForwardDeps) (raw : RawInbound) :
    ForwardFollows (.asked (recipientOf raw)) (forwardToUserTarget deps raw) fun _ _ => True := by
  apply follows_attempt_bind
  apply (decide_follows deps raw).mono
  rintro (thrown | reason | row) after decided
  · exact follows_pure trivial
  · exact follows_pure trivial
  · obtain ⟨userId, rfl⟩ := decided
    apply follows_bind
    apply doForward_follows.mono
    rintro (thrown | outcome) after -
    · trivial
    · cases outcome with
      | forwarded | failed =>
        exact anywhere_bind (recordOutcome_anywhere _ _ _) (fun _ => anywhere_pure) after
      | skipped => exact anywhere_bind anywhere_pure (fun _ => anywhere_pure) after

theorem action_follows (op : Operation) : ForwardFollows op.first op.action fun _ _ => True := by
  cases op with
  | register env owner target now =>
    exact anywhere_bind (registerForwardTarget_anywhere env owner target now)
      (fun _ => anywhere_pure) _
  | get env owner =>
    exact anywhere_bind (getForwardSetting_anywhere env owner) (fun _ => anywhere_pure) _
  | sweep env now =>
    exact anywhere_bind (sweepPendingForwards_anywhere env now) (fun _ => anywhere_pure) _
  | setEnabled env owner enabled =>
    exact anywhere_bind (setForwardEnabled_anywhere env owner enabled) (fun _ => anywhere_pure) _
  | remove env owner =>
    exact anywhere_bind (removeForwardSetting_anywhere env owner) (fun _ => anywhere_pure) _
  | inbound deps raw =>
    apply follows_bind
    apply (forwardToUserTarget_follows deps raw).mono
    rintro (thrown | outcome) after -
    · trivial
    · exact follows_pure trivial

theorem program_follows (op : Operation) :
    forwardProtocol.Follows op.first (userForwards.program op) := by
  have follows := action_follows op
  unfold ForwardFollows Follows at follows
  apply Protocol.followsTo_bind
  exact follows

theorem forwards_governed : forwardProtocol.Governs userForwards Operation.first where
  program op _ _ := program_follows op
  possible _ := trivial

end Programs

end DubEcosystem.UserForward
