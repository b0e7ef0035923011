import DubEcosystem.UserForwardProtocol

/-!
# mail-gateway: a verified target was confirmed for its account

A stamp names the destination that was seen verified, and a row names the destination that
its own registration created, so no stamp meets a row it was not meant for.
-/

namespace DubEcosystem.UserForward

open Relation Interleaving PortPrograms List KeyedTable Option Except

variable {world moved : World} {phase after : Phase} {phases : List Phase} {row : ForwardRow}

namespace World

variable (world : World)

def latestAddress (owner target : String) : Option (Option Nat) :=
  (world.registrations.find? fun registration =>
    registration.ownerUserId = owner ∧ registration.target = target).map Registration.cfAddressId

/-- The owner of the target confirmed the destination that was created for the latest
registration of the target by this account. -/
def Proven (row : ForwardRow) : Prop :=
  ∃ id, world.latestAddress row.ownerUserId row.target = some (some id) ∧
    ⟨id, row.target, some row.ownerUserId⟩ ∈ world.created ∧ (id, row.target) ∈ world.confirmed

end World

/-- Nobody has registered yet; there may be destinations that administrators keep. -/
structure Unregistered (start : World) : Prop where
  noRows : start.forwards.rows = []
  ids : ∀ address ∈ start.created, address.id < start.nextId
  idsNodup : (start.created.map CreatedAddress.id).Nodup
  destinations : ∀ address ∈ start.destinations, ∃ made ∈ start.created,
    made.id = address.id ∧ made.email = address.email
  verified : ∀ address ∈ start.destinations, address.verified.isSome →
    (address.id, address.email) ∈ start.confirmed
  confirmed : ∀ link ∈ start.confirmed, ∃ made ∈ start.created,
    made.id = link.1 ∧ made.email = link.2

variable (past : List (Event forwardSignature World))

/-- The roster named this account for the address. -/
def LookedUp (email userId : String) : Prop :=
  ∃ before after, ⟨.lookupUser email, .ok (some userId), before, after⟩ ∈ past

def Read (userId : String) (row : ForwardRow) :
    Prop :=
  ∃ before after, ⟨.liveRow userId, .ok (some row), before, after⟩ ∈ past ∧ row ∈ before.forwards

example : Unregistered
    { clock := 0, forwards := .empty, destinations := [⟨0, "archive@example.com", none, 0⟩]
      rules := [], nextId := 1, created := [⟨0, "archive@example.com", none⟩], confirmed := []
      registrations := [] } :=
  ⟨rfl, by simp, by simp, by simp, by simp, by simp⟩

/-- Before it forwards a message, the operation has looked up the account of its envelope
recipient, and has read the row of that account, which was live, on and verified and named
the target. -/
def ForwardsToOwn (op : Operation) (past : List (Event forwardSignature World)) : Prop :=
  ∀ later earlier target answer before after,
    past = later ++ ⟨.forward target, answer, before, after⟩ :: earlier →
      ∃ deps raw row, op = .inbound deps raw ∧ LookedUp earlier (recipientOf raw) row.ownerUserId ∧
          Read earlier row.ownerUserId row ∧ row.deletedAt = none ∧ row.enabled = true ∧
            row.verifiedAt.isSome ∧ row.target = target

/-- Whatever runs beside each other: live verified rows are proven, live targets are unique,
and messages are only forwarded to their recipient's own target. -/
def ForwardsProven : Prop :=
  ∀ start history, Unregistered start → userForwards.ReachableHistory anyCall start history →
      (∀ row ∈ history.world.forwards, row.deletedAt = none → row.verifiedAt.isSome →
        history.world.Proven row) ∧
      (∀ first ∈ history.world.forwards, ∀ second ∈ history.world.forwards,
        first.deletedAt = none → second.deletedAt = none → first.target = second.target →
          first = second) ∧
      ∀ thread ∈ history.threads, ForwardsToOwn thread.op thread.past

structure Trusted (world : World) : Prop where
  ids : ∀ address ∈ world.created, address.id < world.nextId
  idsNodup : (world.created.map CreatedAddress.id).Nodup
  destinations : ∀ address ∈ world.destinations, ∃ made ∈ world.created,
    made.id = address.id ∧ made.email = address.email
  verified : ∀ address ∈ world.destinations, address.verified.isSome →
    (address.id, address.email) ∈ world.confirmed
  confirmed : ∀ link ∈ world.confirmed, ∃ made ∈ world.created,
    made.id = link.1 ∧ made.email = link.2
  latest : ∀ row ∈ world.forwards,
    world.latestAddress row.ownerUserId row.target = some row.cfAddressId
  made : ∀ row ∈ world.forwards, ∀ id, row.cfAddressId = some id →
    ⟨id, row.target, some row.ownerUserId⟩ ∈ world.created
  stamped : ∀ row ∈ world.forwards, row.verifiedAt.isSome →
    ∃ id, row.cfAddressId = some id ∧ (id, row.target) ∈ world.confirmed
  targets : ∀ first ∈ world.forwards, ∀ second ∈ world.forwards, first.deletedAt = none →
    second.deletedAt = none → first.target = second.target → first = second

/-- What an operation knows is so. -/
def PhaseKept (world : World) : Phase → Prop
  | .created owner target id => ⟨id, target, some owner⟩ ∈ world.created
  | .seen id email => (id, email) ∈ world.confirmed
  | _ => True

structure Kept (world : World) (phases : List Phase) : Prop where
  trusted : Trusted world
  inHand : ∀ phase ∈ phases, PhaseKept world phase

structure Grows (world moved : World) : Prop where
  created : ∀ address ∈ world.created, address ∈ moved.created
  confirmed : ∀ link ∈ world.confirmed, link ∈ moved.confirmed

theorem Grows.refl (world : World) : Grows world world :=
  ⟨fun _ member => member, fun _ member => member⟩

theorem PhaseKept.grows (grows : Grows world moved) (kept : PhaseKept world phase) :
    PhaseKept moved phase := by
  cases phase with
  | created => exact grows.created _ kept
  | seen => exact grows.confirmed _ kept
  | _ => trivial

theorem Trusted.email_of_confirmed (trusted : Trusted world) {id : Nat} {email target : String}
    {registrant : Option String} (isConfirmed : (id, email) ∈ world.confirmed)
    (isMade : ⟨id, target, registrant⟩ ∈ world.created) : email = target := by
  obtain ⟨made, member, isId, rfl⟩ := trusted.confirmed _ isConfirmed
  exact congrArg CreatedAddress.email (inj_on_of_nodup_map trusted.idsNodup member isMade isId)

theorem Trusted.changeLive {owner : String} {asked : ForwardRow → Bool}
    {change : ForwardRow → ForwardRow}
    {keepsOwner : ∀ row, (change row).ownerUserId = row.ownerUserId} (trusted : Trusted world)
    (sameTarget : ∀ row, (change row).target = row.target)
    (sameAddress : ∀ row, (change row).cfAddressId = row.cfAddressId)
    (stays : ∀ row, (change row).deletedAt = none → row.deletedAt = none)
    (stamps : ∀ row ∈ world.forwards, row.ownerUserId = owner → asked row = true →
      (change row).verifiedAt.isSome → row.verifiedAt.isSome ∨
        ∃ id, row.cfAddressId = some id ∧ (id, row.target) ∈ world.confirmed) :
    Trusted (world.changeLive owner asked change keepsOwner).2 := by
  have old : ∀ row ∈ (world.changeLive owner asked change keepsOwner).2.forwards,
      ∃ before ∈ world.forwards, row = before ∨ (row = change before ∧
        before.ownerUserId = owner ∧ asked before = true) := by
    intro row member
    have updated : row ∈ world.forwards.update (fun row =>
        Decidable.decide (row.ownerUserId = owner ∧ row.deletedAt = none) && asked row) change
          keepsOwner := member
    obtain ⟨before, beforeMem, isRow⟩ := mem_update.mp updated
    refine ⟨before, beforeMem, ?_⟩
    split at isRow
    · rename_i selected
      simp only [Bool.and_eq_true, decide_eq_true_eq] at selected
      exact .inr ⟨isRow.symm, selected.1.1, selected.2⟩
    · exact .inl isRow.symm
  have fields : ∀ row ∈ (world.changeLive owner asked change keepsOwner).2.forwards,
      ∃ before ∈ world.forwards, row.ownerUserId = before.ownerUserId ∧
        row.target = before.target ∧ row.cfAddressId = before.cfAddressId ∧
          (row.deletedAt = none → before.deletedAt = none) := by
    intro row member
    obtain ⟨before, beforeMem, rfl | ⟨rfl, -, -⟩⟩ := old row member
    · exact ⟨row, beforeMem, rfl, rfl, rfl, fun isLive => isLive⟩
    · exact ⟨before, beforeMem, keepsOwner before, sameTarget before, sameAddress before,
        stays before⟩
  constructor
  · exact trusted.ids
  · exact trusted.idsNodup
  · exact trusted.destinations
  · exact trusted.verified
  · exact trusted.confirmed
  · intro row member
    obtain ⟨before, beforeMem, isOwner, isTarget, isAddress, -⟩ := fields row member
    rw [isOwner, isTarget, isAddress]
    exact trusted.latest before beforeMem
  · intro row member id isId
    obtain ⟨before, beforeMem, isOwner, isTarget, isAddress, -⟩ := fields row member
    rw [isOwner, isTarget]
    exact trusted.made before beforeMem id (isAddress ▸ isId)
  · intro row member isVerified
    obtain ⟨before, beforeMem, rfl | ⟨rfl, isOwner, isAsked⟩⟩ := old row member
    · exact trusted.stamped row beforeMem isVerified
    · rw [sameAddress, sameTarget]
      rcases stamps before beforeMem isOwner isAsked isVerified with wasVerified | confirmed
      · exact trusted.stamped before beforeMem wasVerified
      · exact confirmed
  · intro first firstMem second secondMem firstLive secondLive sameTargets
    obtain ⟨firstOld, firstOldMem, firstOwner, firstTarget, -, firstWas⟩ :=
      fields first firstMem
    obtain ⟨secondOld, secondOldMem, secondOwner, secondTarget, -, secondWas⟩ :=
      fields second secondMem
    have same : firstOld = secondOld := by
      apply trusted.targets firstOld firstOldMem secondOld secondOldMem (firstWas firstLive)
        (secondWas secondLive)
      rw [← firstTarget, ← secondTarget, sameTargets]
    apply eq_of_key_eq firstMem secondMem
    rw [firstOwner, secondOwner, same]

theorem mem_saved {registration : Registration} {saved : KeyedTable ForwardRow.ownerUserId}
    (isSaved : saved = match world.forwards.insert?
        (World.registeredRow registration registration.requestedAt) with
      | some forwards => forwards
      | none =>
        world.forwards.update (fun row => row.ownerUserId = registration.ownerUserId)
          (fun row => { World.registeredRow registration row.createdAt with
            ownerUserId := row.ownerUserId })
          fun _ => rfl)
    (member : row ∈ saved) :
    (row ∈ world.forwards ∧ row.ownerUserId ≠ registration.ownerUserId) ∨
      ∃ createdAt, row = World.registeredRow registration createdAt := by
  subst isSaved
  split at member
  · rename_i forwards inserted
    rcases (mem_insert? inserted).mp member with old | rfl
    · exact .inl ⟨old, (insert?_eq_some inserted).2 row old⟩
    · exact .inr ⟨_, rfl⟩
  · obtain ⟨before, beforeMem, isRow⟩ := mem_update.mp member
    split at isRow
    · rename_i selected
      have isOwner : before.ownerUserId = registration.ownerUserId := by simpa using selected
      refine .inr ⟨before.createdAt, ?_⟩
      rw [← isRow, isOwner]
      rfl
    · rename_i notSelected
      obtain rfl := isRow
      exact .inl ⟨beforeMem, by simpa using notSelected⟩

/-- A registration is pending, for the destination that it has created. -/
theorem Trusted.saveRegistration {registration : Registration} {answer : Except Thrown Unit}
    (trusted : Trusted world)
    (made : ∀ id, registration.cfAddressId = some id →
      ⟨id, registration.target, some registration.ownerUserId⟩ ∈ world.created)
    (saved : world.saveRegistration registration = (answer, moved)) :
    Trusted moved ∧ Grows world moved := by
  unfold World.saveRegistration at saved
  split at saved
  · cases saved
    exact ⟨trusted, .refl world⟩
  · rename_i notTaken
    cases saved
    refine ⟨?_, fun _ member => member, fun _ member => member⟩
    have rowOf := fun row (member : row ∈ _) => @mem_saved world row registration _ rfl member
    have noOther : ∀ row ∈ world.forwards, row.ownerUserId ≠ registration.ownerUserId →
        row.deletedAt = none → row.target ≠ registration.target := by
      intro row member isOther isLive sameTarget
      apply notTaken
      simp only [List.any_eq_true, decide_eq_true_eq]
      exact ⟨row, member, isOther, sameTarget, isLive⟩
    constructor
    · exact trusted.ids
    · exact trusted.idsNodup
    · exact trusted.destinations
    · exact trusted.verified
    · exact trusted.confirmed
    · intro row member
      rcases rowOf row member with ⟨old, isOther⟩ | ⟨createdAt, rfl⟩
      · have before := trusted.latest row old
        unfold World.latestAddress at before ⊢
        rw [find?_cons_of_neg]
        · exact before
        · simp [isOther.symm]
      · unfold World.latestAddress
        rw [find?_cons_of_pos]
        · rfl
        · simp [World.registeredRow]
    · intro row member id isId
      rcases rowOf row member with ⟨old, -⟩ | ⟨createdAt, rfl⟩
      · exact trusted.made row old id isId
      · exact made id isId
    · intro row member isVerified
      rcases rowOf row member with ⟨old, -⟩ | ⟨createdAt, rfl⟩
      · exact trusted.stamped row old isVerified
      · cases isVerified
    · intro first firstMem second secondMem firstLive secondLive sameTarget
      apply eq_of_key_eq firstMem secondMem
      rcases rowOf first firstMem with ⟨firstOld, firstOther⟩ | ⟨firstAt, rfl⟩
      · rcases rowOf second secondMem with ⟨secondOld, secondOther⟩ | ⟨secondAt, rfl⟩
        · rw [trusted.targets first firstOld second secondOld firstLive secondLive sameTarget]
        · exact absurd sameTarget (noOther first firstOld firstOther firstLive)
      · rcases rowOf second secondMem with ⟨secondOld, secondOther⟩ | ⟨secondAt, rfl⟩
        · exact absurd sameTarget.symm (noOther second secondOld secondOther secondLive)
        · rfl

theorem Trusted.createAddress (trusted : Trusted world) (email : String)
    (registrant : Option String) :
    Trusted (world.createAddress email registrant).2 ∧
      Grows world (world.createAddress email registrant).2 := by
  refine ⟨?_, fun _ member => mem_cons_of_mem _ member, fun _ member => member⟩
  constructor
  · intro address member
    rcases mem_cons.mp member with rfl | member
    · exact Nat.lt_succ_self _
    · exact Nat.lt_succ_of_lt (trusted.ids address member)
  · apply nodup_cons.mpr
    refine ⟨?_, trusted.idsNodup⟩
    intro taken
    obtain ⟨address, member, isId⟩ := List.mem_map.mp taken
    have := trusted.ids address member
    have isNext : address.id = world.nextId := isId
    omega
  · intro address member
    rcases mem_append.mp member with old | new
    · obtain ⟨made, madeMem, same⟩ := trusted.destinations address old
      exact ⟨made, .tail _ madeMem, same⟩
    · obtain rfl := mem_singleton.mp new
      exact ⟨_, .head _, rfl, rfl⟩
  · intro address member isVerified
    rcases mem_append.mp member with old | new
    · exact trusted.verified address old isVerified
    · obtain rfl := mem_singleton.mp new
      cases isVerified
  · intro link member
    obtain ⟨made, madeMem, same⟩ := trusted.confirmed link member
    exact ⟨made, .tail _ madeMem, same⟩
  · exact trusted.latest
  · exact fun row member id isId => mem_cons_of_mem _ (trusted.made row member id isId)
  · exact trusted.stamped
  · exact trusted.targets

theorem Trusted.removeAddress (trusted : Trusted world) (id : Nat) :
    Trusted (world.removeAddress id) ∧ Grows world (world.removeAddress id) := by
  refine ⟨?_, fun _ member => member, fun _ member => member⟩
  constructor
  · exact trusted.ids
  · exact trusted.idsNodup
  · exact fun address member => trusted.destinations address (mem_of_mem_filter member)
  · exact fun address member => trusted.verified address (mem_of_mem_filter member)
  · exact trusted.confirmed
  · exact trusted.latest
  · exact trusted.made
  · exact trusted.stamped
  · exact trusted.targets

theorem Trusted.confirm (trusted : Trusted world) {address : CfDestinationAddress}
    (isThere : address ∈ world.destinations) :
    Trusted (world.confirm address) ∧ Grows world (world.confirm address) := by
  refine ⟨?_, fun _ member => member, fun _ member => mem_cons_of_mem _ member⟩
  obtain ⟨made, madeMem, madeId, madeEmail⟩ := trusted.destinations address isThere
  have old : ∀ other ∈ (world.confirm address).destinations, ∃ before ∈ world.destinations,
      other.id = before.id ∧ other.email = before.email ∧
        (other = before ∨ before.id = address.id) := by
    intro other member
    obtain ⟨before, beforeMem, rfl⟩ := List.mem_map.mp member
    refine ⟨before, beforeMem, ?_⟩
    split
    · rename_i isSame
      exact ⟨rfl, rfl, .inr isSame⟩
    · exact ⟨rfl, rfl, .inl rfl⟩
  constructor
  · exact trusted.ids
  · exact trusted.idsNodup
  · intro other member
    obtain ⟨before, beforeMem, isId, isEmail, -⟩ := old other member
    rw [isId, isEmail]
    exact trusted.destinations before beforeMem
  · intro other member isVerified
    obtain ⟨before, beforeMem, isId, isEmail, rfl | isSame⟩ := old other member
    · exact .tail _ (trusted.verified other beforeMem isVerified)
    · obtain ⟨otherMade, otherMem, otherId, otherEmail⟩ :=
        trusted.destinations before beforeMem
      have sameMade : otherMade = made := inj_on_of_nodup_map trusted.idsNodup otherMem
        madeMem (by rw [otherId, isSame, madeId])
      have sameEmail : before.email = address.email := by
        rw [← otherEmail, sameMade, madeEmail]
      rw [isId, isEmail, isSame, sameEmail]
      exact .head _
  · exact forall_mem_cons.mpr ⟨⟨made, madeMem, madeId, madeEmail⟩, trusted.confirmed⟩
  · exact trusted.latest
  · exact trusted.made
  · intro row member isVerified
    obtain ⟨id, isId, isConfirmed⟩ := trusted.stamped row member isVerified
    exact ⟨id, isId, .tail _ isConfirmed⟩
  · exact trusted.targets

section Steps

variable {request : Call} {answer : Except Thrown (Result request)}

theorem getAddress_ok {id : Nat} {address : CfDestinationAddress}
    (found : world.getAddress id = .ok address) :
    address ∈ world.destinations ∧ address.id = id := by
  unfold World.getAddress at found
  split at found
  · rename_i isFound
    cases found
    exact ⟨mem_of_find?_eq_some isFound, by simpa using find?_some isFound⟩
  · cases found

/-- A stamp meets only rows of the destination that was seen verified. -/
theorem Trusted.stampVerified (trusted : Trusted world) {id : Nat} {email owner : String}
    {now : Int} (isConfirmed : (id, email) ∈ world.confirmed) :
    Trusted (world.stampVerified now owner id) := by
  apply trusted.changeLive
  · exact fun _ => rfl
  · exact fun _ => rfl
  · exact fun _ isLive => isLive
  · intro row member _ isAsked _
    have isId : row.cfAddressId = some id := of_decide_eq_true isAsked
    have isMade := trusted.made row member id isId
    exact .inr ⟨id, isId, trusted.email_of_confirmed isConfirmed isMade ▸ isConfirmed⟩

theorem Trusted.call (trusted : Trusted world)
    (answers : forwardMachine.Answers request world answer moved)
    (leads : Phase.Leads phase request answer after) (inHand : PhaseKept world phase) :
    Trusted moved ∧ Grows world moved := by
  cases request with
  | saveRegistration registration =>
    have saved : world.saveRegistration registration = (answer, moved) := answers
    apply trusted.saveRegistration _ saved
    intro id isId
    cases leads with
    | free isFree =>
      have isNone : registration.cfAddressId = none := isFree
      rw [isNone] at isId
      cases isId
    | saves _ isOwner isTarget isMade =>
      rw [isMade] at isId
      cases isId
      rw [isOwner, isTarget]
      exact inHand
  | stampVerified now owner id =>
    cases answers
    refine ⟨?_, fun _ member => member, fun _ member => member⟩
    cases leads with
    | free isFree => exact isFree.elim
    | stamps => exact trusted.stampVerified inHand
  | switchForward | recordResult =>
    cases answers
    refine ⟨?_, fun _ member => member, fun _ member => member⟩
    apply trusted.changeLive
    · exact fun _ => rfl
    · exact fun _ => rfl
    · exact fun _ isLive => isLive
    · exact fun _ _ _ _ isVerified => .inl isVerified
  | softDelete =>
    cases answers
    refine ⟨?_, fun _ member => member, fun _ member => member⟩
    apply trusted.changeLive
    · exact fun _ => rfl
    · exact fun _ => rfl
    · exact fun _ isLive => by cases isLive
    · exact fun _ _ _ _ isVerified => .inl isVerified
  | createAddress email registrant =>
    cases answers
    exact trusted.createAddress email (some registrant)
  | deleteAddress id =>
    have deleted : world.deleteAddress id = (answer, moved) := answers
    unfold World.deleteAddress at deleted
    split at deleted
    · cases deleted
      exact trusted.removeAddress id
    · cases deleted
      exact ⟨trusted, .refl world⟩
  | fault | lookupUser | forward | publishAudit =>
    obtain rfl : moved = world := answers
    exact ⟨trusted, .refl moved⟩
  | _ =>
    cases answers
    exact ⟨trusted, .refl world⟩

theorem PhaseKept.call (trusted : Trusted world)
    (answers : forwardMachine.Answers request world answer moved)
    (leads : Phase.Leads phase request answer after) (inHand : PhaseKept world phase) :
    PhaseKept moved after := by
  obtain ⟨-, grows⟩ := trusted.call answers leads inHand
  cases leads with
  | free | stamps => exact inHand.grows grows
  | @creates _ owner target address =>
    obtain ⟨isAnswer, rfl⟩ := Prod.mk.inj answers
    obtain rfl := some.inj (ok.inj isAnswer)
    exact .head _
  | @sees _ id address isVerified =>
    obtain ⟨isAnswer, rfl⟩ := Prod.mk.inj answers
    obtain ⟨member, rfl⟩ := getAddress_ok isAnswer
    exact trusted.verified address member isVerified
  | _ => trivial

theorem kept_preserved : forwardProtocol.Preserves userForwards anyStep Operation.first Kept where
  perm phasesPerm kept :=
    ⟨kept.trusted, fun phase member => kept.inHand phase (phasesPerm.mem_iff.mpr member)⟩
  start op _ _ kept := by
    refine ⟨kept.trusted, forall_mem_cons.mpr ⟨?_, kept.inHand⟩⟩
    cases op <;> trivial
  call _ _ answers leads kept := by
    have inHand := kept.inHand _ (.head _)
    obtain ⟨trusted, grows⟩ := kept.trusted.call answers leads inHand
    refine ⟨trusted, forall_mem_cons.mpr ⟨?_, ?_⟩⟩
    · exact inHand.call kept.trusted answers leads
    · exact fun phase member => (kept.inHand phase (.tail _ member)).grows grows
  environment moves kept := by
    have moved : ∀ {later}, Trusted later ∧ Grows _ later → Kept later _ := fun later =>
      ⟨later.1, fun phase member => (kept.inHand phase member).grows later.2⟩
    cases moves with
    | clock time | rules rules => exact ⟨{ kept.trusted with }, kept.inHand⟩
    | creates email => exact moved (kept.trusted.createAddress email none)
    | removes id => exact moved (kept.trusted.removeAddress id)
    | confirms address isThere => exact moved (kept.trusted.confirm isThere)
  stop _ _ kept :=
    ⟨kept.trusted, fun phase member => kept.inHand phase (.tail _ member)⟩

end Steps

section Walks

variable {op : Operation} {past : List (Event forwardSignature World)}

theorem liveRow_eq_some {owner : String} (found : world.liveRow owner = some row) :
    row ∈ world.forwards ∧ row.ownerUserId = owner ∧ row.deletedAt = none := by
  obtain ⟨isFound, isLive⟩ := filter_eq_some_iff.mp found
  obtain ⟨member, isOwner⟩ := find?_eq_some.mp isFound
  exact ⟨member, isOwner, by simpa using isLive⟩

/-- What the calls of an operation were answered is what it goes by. -/
def Backed (op : Operation) (past : List (Event forwardSignature World)) : Phase → Prop
  | .asked email => ∃ deps raw, op = .inbound deps raw ∧ email = recipientOf raw
  | .known email userId =>
    (∃ deps raw, op = .inbound deps raw ∧ email = recipientOf raw) ∧ LookedUp past email userId
  | .ready email userId row =>
    (∃ deps raw, op = .inbound deps raw ∧ email = recipientOf raw) ∧
      LookedUp past email userId ∧ Read past userId row ∧ row.ownerUserId = userId ∧
        row.deletedAt = none ∧ row.enabled = true ∧ row.verifiedAt.isSome
  | _ => True

theorem Backed.cons (backed : Backed op past phase) (event : Event forwardSignature World) :
    Backed op (event :: past) phase := by
  have lookedUp : ∀ {email userId}, LookedUp past email userId →
      LookedUp (event :: past) email userId := fun ⟨before, after, member⟩ =>
    ⟨before, after, .tail _ member⟩
  cases phase with
  | asked => exact backed
  | known => exact ⟨backed.1, lookedUp backed.2⟩
  | ready =>
    obtain ⟨isInbound, isLookedUp, ⟨before, after, member, isRow⟩, isOn⟩ := backed
    exact ⟨isInbound, lookedUp isLookedUp, ⟨before, after, .tail _ member, isRow⟩, isOn⟩
  | _ => trivial

theorem backed_of_walks (walks : forwardProtocol.Walks forwardMachine op.first past phase) :
    Backed op past phase := by
  induction walks with
  | refl =>
    cases op with
    | inbound deps raw => exact ⟨deps, raw, rfl, rfl⟩
    | _ => trivial
  | step event walks leads answers ih =>
    obtain ⟨request, answer, before, after⟩ := event
    cases leads with
    | free | forwards => exact ih.cons _
    | finds => exact ⟨ih, before, after, .head _⟩
    | @reads email userId row isEnabled isVerified =>
      obtain ⟨isAnswer, -⟩ := Prod.mk.inj answers
      obtain ⟨member, isOwner, isLive⟩ := liveRow_eq_some (ok.inj isAnswer)
      have known := ih.cons ⟨.liveRow userId, .ok (some row), before, after⟩
      exact ⟨known.1, known.2, ⟨before, after, .head _, member⟩, isOwner, isLive,
        isEnabled, isVerified⟩
    | _ => trivial

/-- Every message that was forwarded went by what had been read. -/
theorem forwardsToOwn_of_walks (walks : forwardProtocol.Walks forwardMachine op.first past phase) :
    ForwardsToOwn op past := by
  induction walks with
  | refl =>
    intro later earlier target answer before after isPast
    cases later with
    | nil | cons => cases isPast
  | step event walks leads answers ih =>
    intro later earlier target answer before after isPast
    cases later with
    | cons first later =>
      exact ih later earlier target answer before after (List.cons.inj isPast).2
    | nil =>
      cases isPast
      have backed := backed_of_walks walks
      cases leads with
      | free isFree => exact isFree.elim
      | forwards isTarget =>
        obtain ⟨⟨deps, raw, isInbound, rfl⟩, lookedUp, read, rfl, isLive, isEnabled,
          isVerified⟩ := backed
        exact ⟨deps, raw, _, isInbound, lookedUp, read, isLive, isEnabled, isVerified, isTarget⟩

end Walks

end DubEcosystem.UserForward
