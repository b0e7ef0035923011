import DubEcosystem.NotificationOnce

/-!
# notification: deliveries keep what they have filled

Each call of a delivery preserves the invariant, so at the end every inbox that a
notification is for has it, and has it once.
-/

namespace DubEcosystem.Notification

open Relation Interleaving PortPrograms List Except

variable {directory : Directory} {subject : Request} {since : Nat}
  {start world moved : World} {phase after : Phase} {phases later : List Phase}
  {input : IngestInput} {rest : List IngestInput} {id : Nat} {userId : String}
  {left : List String}

structure World.SameStore (world moved : World) : Prop where
  nextId : moved.nextId = world.nextId
  notifications : moved.notifications = world.notifications
  inbox : moved.inbox = world.inbox

theorem World.SameStore.refl (world : World) : world.SameStore world :=
  ⟨rfl, rfl, rfl⟩

def StoreCall : Call → Prop
  | .insertNotification _ => True
  | .insertInbox _ => True
  | _ => False

theorem sameStore_of_answers {request : Call} {answer : Except String (Result request)}
    (answers : (notificationMachine directory).Answers request world answer moved)
    (noStore : ¬StoreCall request) : world.SameStore moved := by
  cases request with
  | insertNotification | insertInbox => exact absurd trivial noStore
  | markProcessed eventId =>
    cases answers
    unfold World.markProcessed
    split
    · exact ⟨rfl, rfl, rfl⟩
    · exact ⟨rfl, rfl, rfl⟩
  | expand | deliver | publishAudit =>
    obtain rfl : moved = world := answers
    exact .refl moved
  | _ =>
    cases answers
    exact ⟨rfl, rfl, rfl⟩

theorem World.SameStore.grows (same : world.SameStore moved)
    (fills : ∀ id, (∃ phase ∈ phases, phase.Fills id) → ∃ phase ∈ later, phase.Fills id) :
    Grows directory subject since world moved phases later where
  stored stored := ⟨stored.1, same.notifications ▸ stored.2⟩
  rows _ member := same.inbox ▸ member
  fills _ _ _ id _ isFilled := .inr (fills id isFilled)

theorem Kept.sameStore (kept : Kept directory subject start world phases)
    (same : world.SameStore moved)
    (grows : Grows directory subject start.nextId world moved phases later)
    (fills : ∀ id, (∃ phase ∈ later, phase.Fills id) → ∃ phase ∈ phases, phase.Fills id)
    (inHand : ∀ phase ∈ later, phase ∈ phases ∨
      PhaseKept directory subject start.nextId moved later phase)
    (processed : ∀ eventId, subject.eventId = some eventId → eventId ∈ moved.processed →
      eventId ∈ world.processed ∨
        ∀ input ∈ subject.inputs, Covered directory start.nextId moved later input)
    (acknowledged : start.acknowledged < moved.acknowledged →
      start.acknowledged < world.acknowledged ∨
        ∀ input ∈ subject.inputs, Covered directory start.nextId moved later input) :
    Kept directory subject start moved later := by
  have stored : ∀ {input id}, moved.StoredFor start.nextId input id →
      world.StoredFor start.nextId input id := fun isStored =>
    ⟨isStored.1, same.notifications ▸ isStored.2⟩
  have live : ∀ {id}, Live moved later id → Live world phases id := by
    rintro id (inInbox | isFilled)
    · exact .inl (same.inbox ▸ inInbox)
    · exact .inr (fills id isFilled)
  constructor
  · exact same.nextId ▸ kept.since
  · rw [same.notifications, same.nextId]
    exact kept.ids
  · rw [same.notifications]
    exact kept.idsNodup
  · rw [same.notifications]
    exact kept.origin
  · rw [same.notifications]
    exact kept.foreign
  · rw [same.notifications]
    exact kept.keyed
  · rw [same.inbox]
    exact kept.rowsNodup
  · rw [same.inbox, same.nextId]
    exact kept.rows
  · rw [same.inbox]
    exact fun row member input isInput isStored =>
      kept.reach row member input isInput (stored isStored)
  · exact fun input isInput first second firstStored secondStored firstLive secondLive =>
      kept.single input isInput first second (stored firstStored) (stored secondStored)
        (live firstLive) (live secondLive)
  · intro input isInput isKeyed id isStored
    rcases kept.filled input isInput isKeyed id (stored isStored) with complete | isFilled
    · exact .inl fun userId isRecipient => grows.rows _ (complete userId isRecipient)
    · exact grows.fills input isInput isKeyed id (stored isStored) isFilled
  · intro phase member
    rcases inHand phase member with before | holds
    · exact (kept.inHand phase before).grows grows
    · exact holds
  · intro eventId isEvent isProcessed input isInput
    rcases processed eventId isEvent isProcessed with before | covered
    · exact (kept.processed eventId isEvent before input isInput).grows grows isInput
    · exact covered input isInput
  · intro isAcknowledged input isInput
    rcases acknowledged isAcknowledged with before | covered
    · exact (kept.acknowledged before input isInput).grows grows isInput
    · exact covered input isInput

theorem not_fills_handling (input : IngestInput) (rest : List IngestInput) (id : Nat) :
    ¬(Phase.handling input rest).Fills id :=
  fun fills => fills

theorem not_fills_turnTo (inputs : List IngestInput) : ¬(Phase.turnTo inputs).Fills id := by
  cases inputs with
  | nil | cons input rest => exact fun fills => fills

theorem exists_fills_cons (notFills : ∀ id, ¬phase.Fills id) :
    (∃ other ∈ phase :: phases, other.Fills id) ↔ ∃ other ∈ phases, other.Fills id := by
  constructor
  · rintro ⟨other, member, fills⟩
    rcases mem_cons.mp member with rfl | member
    · exact absurd fills (notFills id)
    · exact ⟨other, member, fills⟩
  · rintro ⟨other, member, fills⟩
    exact ⟨other, .tail _ member, fills⟩

theorem phaseKept_turnTo {inputs : List IngestInput}
    (isInput : ∀ other ∈ inputs, other ∈ subject.inputs)
    (covered : ∀ other ∈ subject.inputs, other ∈ inputs ∨
      Covered directory since world phases other) :
    PhaseKept directory subject since world phases (.turnTo inputs) := by
  cases inputs with
  | nil => exact fun other member => (covered other member).resolve_left not_mem_nil
  | cons input rest => exact ⟨isInput, covered⟩

/-- When the last inbox is filled, the next notification is turned to. -/
theorem phaseKept_advance (isInput : ∀ other ∈ input :: rest, other ∈ subject.inputs)
    (covered : ∀ other ∈ subject.inputs, other ∈ input :: rest ∨
      Covered directory since world phases other)
    (stored : world.StoredFor since input id)
    (recipients : ∀ user ∈ left, user ∈ directory.inAppRecipients input)
    (served : ∀ user ∈ directory.inAppRecipients input, user ∈ left ∨ ⟨id, user⟩ ∈ world.inbox) :
    PhaseKept directory subject since world phases (.advance input rest id left) := by
  cases left with
  | nil =>
    apply phaseKept_turnTo
    · exact fun other member => isInput other (.tail _ member)
    · intro other member
      rcases covered other member with isLeft | isCovered
      · rcases mem_cons.mp isLeft with rfl | isLeft
        · exact .inr ⟨id, stored, .inl fun user isRecipient =>
            (served user isRecipient).resolve_left not_mem_nil⟩
        · exact .inl isLeft
      · exact .inr isCovered
  | cons userId left => exact ⟨isInput, covered, stored, recipients, served⟩

theorem fills_advance {other : Nat} (fills : (Phase.advance input rest id left).Fills other) :
    id = other := by
  cases left with
  | nil => exact absurd fills (not_fills_turnTo rest)
  | cons userId left => exact fills

theorem Kept.turn (kept : Kept directory subject start world (phase :: phases))
    (same : world.SameStore moved) (notFills : ∀ id, ¬phase.Fills id)
    (afterFills : ∀ id, ¬after.Fills id)
    (holds : Grows directory subject start.nextId world moved (phase :: phases) (after :: phases) →
        PhaseKept directory subject start.nextId moved (after :: phases) after)
    (processed : ∀ eventId, subject.eventId = some eventId → eventId ∈ moved.processed →
      eventId ∈ world.processed ∨
        ∀ input ∈ subject.inputs, Covered directory start.nextId world (phase :: phases) input)
    (acknowledged : start.acknowledged < moved.acknowledged →
      start.acknowledged < world.acknowledged ∨ ∀ input ∈ subject.inputs,
          Covered directory start.nextId world (phase :: phases) input) :
    Kept directory subject start moved (after :: phases) := by
  have grows : Grows directory subject start.nextId world moved (phase :: phases)
      (after :: phases) := by
    apply same.grows
    intro id fills
    exact (exists_fills_cons afterFills).mpr ((exists_fills_cons notFills).mp fills)
  apply kept.sameStore same grows
  · intro id fills
    exact (exists_fills_cons notFills).mpr ((exists_fills_cons afterFills).mp fills)
  · intro other member
    rcases mem_cons.mp member with rfl | member
    · exact .inr (holds grows)
    · exact .inl (.tail _ member)
  · intro eventId isEvent isProcessed
    rcases processed eventId isEvent isProcessed with before | covered
    · exact .inl before
    · exact .inr fun input isInput => (covered input isInput).grows grows isInput
  · intro isAcknowledged
    rcases acknowledged isAcknowledged with before | covered
    · exact .inl before
    · exact .inr fun input isInput => (covered input isInput).grows grows isInput

section

variable (kept : Kept directory subject start world phases)
include kept

theorem Kept.storedFor_of_dedupKey (isInput : input ∈ subject.inputs)
    (isKeyed : input.dedupKey.isSome) {row : NotificationRow} (member : row ∈ world.notifications)
    (sameKey : row.dedupKey = input.dedupKey) : world.StoredFor start.nextId input row.id := by
  have rowKeyed : row.dedupKey.isSome := sameKey ▸ isKeyed
  by_cases isNew : start.nextId ≤ row.id
  · obtain ⟨origin, isOrigin, isType, isKey⟩ := kept.origin row member isNew
    have isSame : input = origin :=
      eq_of_dedupKey isInput isOrigin isKeyed (sameKey.symm.trans isKey)
    exact ⟨isNew, row, member, rfl, isSame ▸ isType⟩
  · exact absurd sameKey (kept.foreign row member (Nat.lt_of_not_le isNew) rowKeyed input isInput)

theorem Kept.dedupKey_of_storedFor (isInput : input ∈ subject.inputs)
    (stored : world.StoredFor start.nextId input id) :
    ∃ row ∈ world.notifications, row.id = id ∧ row.dedupKey = input.dedupKey := by
  obtain ⟨isNew, row, member, rfl, isType⟩ := stored
  obtain ⟨origin, isOrigin, sameType, isKey⟩ := kept.origin row member isNew
  have isSame : input = origin := eq_of_type isInput isOrigin (isType.symm.trans sameType)
  exact ⟨row, member, rfl, isSame ▸ isKey⟩

theorem Kept.eq_of_storedFor {first second : IngestInput} (isFirst : first ∈ subject.inputs)
    (isSecond : second ∈ subject.inputs) (firstStored : world.StoredFor since first id)
    (secondStored : world.StoredFor since second id) : first = second := by
  obtain ⟨-, firstRow, firstMem, firstId, firstType⟩ := firstStored
  obtain ⟨-, secondRow, secondMem, secondId, secondType⟩ := secondStored
  have sameRow : firstRow = secondRow :=
    inj_on_of_nodup_map kept.idsNodup firstMem secondMem (firstId.trans secondId.symm)
  apply eq_of_type isFirst isSecond
  rw [← firstType, ← secondType, sameRow]

theorem Kept.covered_of_found {dedupKey : String} (isInput : input ∈ subject.inputs)
    (isKey : input.dedupKey = some dedupKey) (found : world.findByDedupKey dedupKey = some id) :
    Covered directory start.nextId world phases input := by
  have isKeyed : input.dedupKey.isSome := isKey ▸ rfl
  unfold World.findByDedupKey at found
  obtain ⟨row, rowFound, rfl⟩ := Option.map_eq_some_iff.mp found
  have rowKey : row.dedupKey = some dedupKey := by simpa using find?_some rowFound
  have stored := kept.storedFor_of_dedupKey isInput isKeyed (mem_of_find?_eq_some rowFound)
    (rowKey.trans isKey.symm)
  rcases kept.filled input isInput isKeyed row.id stored with complete | isFilled
  · exact ⟨row.id, stored, .inl complete⟩
  · exact ⟨row.id, stored, .inr ⟨isKeyed, isFilled⟩⟩

end

/-- What an insertion leaves behind that was not refused. -/
theorem insertNotification_ok (inserted : world.insertNotification input = (.ok id, moved)) :
    (input.dedupKey.isSome → ∀ row ∈ world.notifications, row.dedupKey ≠ input.dedupKey) ∧
      id = world.nextId ∧ moved = { world with
        nextId := world.nextId + 1
        notifications := world.notifications ++ [world.notificationRow input] } := by
  unfold World.insertNotification at inserted
  split at inserted
  · cases inserted
  · split at inserted
    · cases inserted
    · rename_i notTaken
      obtain ⟨isId, rfl⟩ := Prod.mk.inj inserted
      refine ⟨?_, (ok.inj isId).symm, rfl⟩
      intro isKeyed row member sameKey
      exact notTaken ⟨isKeyed, any_eq_true.mpr ⟨row, member, by simpa using sameKey⟩⟩

theorem insertNotification_error {thrown : String}
    (refused : world.insertNotification input = (.error thrown, moved)) : world = moved := by
  unfold World.insertNotification at refused
  split at refused
  · exact (Prod.mk.inj refused).2
  · split at refused
    · exact (Prod.mk.inj refused).2
    · cases refused

def World.stores (world : World) (input : IngestInput) : World :=
  { world with
    nextId := world.nextId + 1
    notifications := world.notifications ++ [world.notificationRow input] }

theorem mem_stores {row : NotificationRow} : row ∈ (world.stores input).notifications ↔
      row ∈ world.notifications ∨ row = world.notificationRow input := by
  simp [World.stores]

theorem storedFor_stores {other : IngestInput} :
    (world.stores input).StoredFor since other id ↔ world.StoredFor since other id ∨
      (since ≤ id ∧ id = world.nextId ∧ input.type = other.type) := by
  constructor
  · rintro ⟨isSince, row, member, rfl, isType⟩
    rcases mem_stores.mp member with before | rfl
    · exact .inl ⟨isSince, row, before, rfl, isType⟩
    · exact .inr ⟨isSince, rfl, isType⟩
  · rintro (⟨isSince, row, member, isRow, isType⟩ | ⟨isSince, rfl, isType⟩)
    · exact ⟨isSince, row, mem_stores.mpr (.inl member), isRow, isType⟩
    · exact ⟨isSince, _, mem_stores.mpr (.inr rfl), rfl, isType⟩

theorem Kept.storedFor_lt (kept : Kept directory subject start world phases)
    (stored : world.StoredFor since input id) : id < world.nextId := by
  obtain ⟨-, row, member, rfl, -⟩ := stored
  exact kept.ids row member

theorem grows_stores :
    Grows directory subject since world (world.stores input) (.handling input rest :: phases)
      (after :: phases) where
  stored stored := storedFor_stores.mpr (.inl stored)
  rows _ member := member
  fills _ _ _ id _ isFilled := by
    obtain ⟨phase, member, fills⟩ := (exists_fills_cons (not_fills_handling input rest)).mp isFilled
    exact .inr ⟨phase, .tail _ member, fills⟩

theorem Kept.inserts (kept : Kept directory subject start world (.handling input rest :: phases))
    (notTaken : input.dedupKey.isSome → ∀ row ∈ world.notifications, row.dedupKey ≠ input.dedupKey)
    (apart : ∀ id, world.StoredFor start.nextId input id → ¬Live world phases id) :
    Kept directory subject start (world.stores input) (.advance input rest world.nextId
        (pending directory input (directory.resolve input.recipients)) :: phases) := by
  obtain ⟨isInput, covered⟩ := kept.inHand _ (.head _)
  have inputMem : input ∈ subject.inputs := isInput input (.head _)
  have stored : (world.stores input).StoredFor start.nextId input world.nextId :=
    storedFor_stores.mpr (.inr ⟨kept.since, rfl, rfl⟩)
  have isRecipient : ∀ user, user ∈ pending directory input
      (directory.resolve input.recipients) ↔ user ∈ directory.inAppRecipients input :=
    fun user => mem_pending_iff_inAppRecipients
  have grows := @grows_stores directory subject start.nextId world (.advance input rest world.nextId
      (pending directory input (directory.resolve input.recipients))) phases input rest
  -- Whatever is alive was alive before, or is the new notification.
  have live : ∀ {other id}, (world.stores input).StoredFor start.nextId other id →
      Live (world.stores input) (.advance input rest world.nextId
        (pending directory input (directory.resolve input.recipients)) :: phases) id →
          world.StoredFor start.nextId other id ∧ Live world phases id ∨
            id = world.nextId ∧ input.type = other.type := by
    intro other id isStored isLive
    rcases storedFor_stores.mp isStored with before | ⟨-, isNew, sameType⟩
    · have isOld := kept.storedFor_lt before
      rcases isLive with inInbox | ⟨phase, member, fills⟩
      · exact .inl ⟨before, .inl inInbox⟩
      · rcases mem_cons.mp member with rfl | member
        · have := fills_advance fills
          omega
        · exact .inl ⟨before, .inr ⟨phase, member, fills⟩⟩
    · exact .inr ⟨isNew, sameType⟩
  have liveBefore : ∀ {id}, Live world phases id →
      Live world (.handling input rest :: phases) id := by
    rintro id (inInbox | isFilled)
    · exact .inl inInbox
    · exact .inr ((exists_fills_cons (not_fills_handling input rest)).mpr isFilled)
  have notLive : ∀ {other id}, other ∈ subject.inputs → input.type = other.type →
      world.StoredFor start.nextId other id → ¬Live world phases id := by
    intro other id isOther sameType isStored
    obtain rfl := eq_of_type inputMem isOther sameType
    exact apart id isStored
  constructor
  · exact Nat.le_succ_of_le kept.since
  · intro row member
    rcases mem_stores.mp member with before | rfl
    · exact Nat.lt_succ_of_lt (kept.ids row before)
    · exact Nat.lt_succ_self _
  · have isMap : (world.stores input).notifications.map NotificationRow.id =
        world.notifications.map NotificationRow.id ++ [world.nextId] := by
      simp [World.stores, World.notificationRow]
    rw [isMap]
    apply kept.idsNodup.append (nodup_singleton _)
    intro id before isNew
    obtain rfl := mem_singleton.mp isNew
    obtain ⟨row, member, isId⟩ := List.mem_map.mp before
    have := kept.ids row member
    omega
  · intro row member isNew
    rcases mem_stores.mp member with before | rfl
    · exact kept.origin row before isNew
    · exact ⟨input, inputMem, rfl, rfl⟩
  · intro row member isOld
    rcases mem_stores.mp member with before | rfl
    · exact kept.foreign row before isOld
    · exact absurd isOld (Nat.not_lt_of_le kept.since)
  · intro first firstMem second secondMem firstNew secondNew isKeyed sameKey
    rcases mem_stores.mp firstMem with firstBefore | rfl
    · rcases mem_stores.mp secondMem with secondBefore | rfl
      · exact kept.keyed first firstBefore second secondBefore firstNew secondNew isKeyed sameKey
      · have isKey : first.dedupKey = input.dedupKey := sameKey
        have inputKeyed : input.dedupKey.isSome := isKey ▸ isKeyed
        exact absurd sameKey (notTaken inputKeyed first firstBefore)
    · rcases mem_stores.mp secondMem with secondBefore | rfl
      · exact absurd sameKey.symm (notTaken isKeyed second secondBefore)
      · rfl
  · exact kept.rowsNodup
  · exact fun row member => Nat.lt_succ_of_lt (kept.rows row member)
  · intro row member other isOther isStored
    rcases storedFor_stores.mp isStored with before | ⟨-, isNew, -⟩
    · exact kept.reach row member other isOther before
    · have := kept.rows row member
      omega
  · intro other isOther first second firstStored secondStored firstLive secondLive
    rcases live firstStored firstLive with ⟨firstBefore, firstAlive⟩ | ⟨rfl, sameType⟩
    · rcases live secondStored secondLive with ⟨secondBefore, secondAlive⟩ | ⟨-, sameType⟩
      · exact kept.single other isOther first second firstBefore secondBefore
          (liveBefore firstAlive) (liveBefore secondAlive)
      · exact absurd firstAlive (notLive isOther sameType firstBefore)
    · rcases live secondStored secondLive with ⟨secondBefore, secondAlive⟩ | ⟨isNew, -⟩
      · exact absurd secondAlive (notLive isOther sameType secondBefore)
      · exact isNew.symm
  · intro other isOther isKeyed id isStored
    rcases storedFor_stores.mp isStored with before | ⟨-, rfl, sameType⟩
    · rcases kept.filled other isOther isKeyed id before with complete | isFilled
      · exact .inl complete
      · exact grows.fills other isOther isKeyed id before isFilled
    · obtain rfl := eq_of_type inputMem isOther sameType
      cases isPending : pending directory input (directory.resolve input.recipients) with
      | nil =>
        have nobody : ∀ user, user ∉ directory.inAppRecipients input := by
          intro user isUser
          have isLeft := (isRecipient user).mpr isUser
          rw [isPending] at isLeft
          exact absurd isLeft not_mem_nil
        exact .inl fun user isUser => absurd isUser (nobody user)
      | cons user users => exact .inr ⟨_, .head _, rfl⟩
  · intro phase member
    rcases mem_cons.mp member with rfl | member
    · apply phaseKept_advance isInput
      · intro other isOther
        rcases covered other isOther with isLeft | isCovered
        · exact .inl isLeft
        · exact .inr (isCovered.grows grows isOther)
      · exact stored
      · exact fun user => (isRecipient user).mp
      · exact fun user isUser => .inl ((isRecipient user).mpr isUser)
    · exact (kept.inHand phase (.tail _ member)).grows grows
  · exact fun eventId isEvent isProcessed other isOther =>
      (kept.processed eventId isEvent isProcessed other isOther).grows grows isOther
  · exact fun isAcknowledged other isOther =>
      (kept.acknowledged isAcknowledged other isOther).grows grows isOther

theorem mem_insertInbox {row : InboxRow} :
    row ∈ (world.insertInbox id userId).inbox ↔ row ∈ world.inbox ∨ row = ⟨id, userId⟩ := by
  unfold World.insertInbox
  split
  · rename_i isPresent
    constructor
    · exact .inl
    · rintro (before | rfl)
      · exact before
      · exact isPresent
  · exact mem_append.trans (or_congr_right mem_singleton)

theorem insertInbox_nodup (nodup : world.inbox.Nodup) :
    (world.insertInbox id userId).inbox.Nodup := by
  unfold World.insertInbox
  split
  · exact nodup
  · rename_i notPresent
    apply nodup.append (nodup_singleton _)
    intro row before isNew
    obtain rfl := mem_singleton.mp isNew
    exact notPresent before

theorem Kept.fills
    (kept : Kept directory subject start world (.filling input rest id userId left :: phases)) :
    Kept directory subject start (world.insertInbox id userId)
      (.advance input rest id left :: phases) := by
  obtain ⟨isInput, covered, stored, recipients, served⟩ := kept.inHand _ (.head _)
  have inputMem : input ∈ subject.inputs := isInput input (.head _)
  have fields : (world.insertInbox id userId).nextId = world.nextId ∧
      (world.insertInbox id userId).notifications = world.notifications := by
    unfold World.insertInbox
    split
    · exact ⟨rfl, rfl⟩
    · exact ⟨rfl, rfl⟩
  have sameStored : ∀ {other since id'}, (world.insertInbox id userId).StoredFor since other id'
      ↔ world.StoredFor since other id' := by
    intro other since id'
    unfold World.StoredFor
    rw [fields.2]
  have servedAfter : ∀ user ∈ directory.inAppRecipients input,
      user ∈ left ∨ ⟨id, user⟩ ∈ (world.insertInbox id userId).inbox := by
    intro user isRecipient
    rcases served user isRecipient with isLeft | arrived
    · rcases mem_cons.mp isLeft with rfl | isLeft
      · exact .inr (mem_insertInbox.mpr (.inr rfl))
      · exact .inl isLeft
    · exact .inr (mem_insertInbox.mpr (.inl arrived))
  have grows : Grows directory subject start.nextId world (world.insertInbox id userId)
      (.filling input rest id userId left :: phases) (.advance input rest id left :: phases) := by
    constructor
    · exact sameStored.mpr
    · exact fun row member => mem_insertInbox.mpr (.inl member)
    · rintro other isOther - id' otherStored ⟨phase, member, fills⟩
      rcases mem_cons.mp member with rfl | member
      · obtain rfl : id = id' := fills
        obtain rfl := kept.eq_of_storedFor inputMem isOther stored otherStored
        cases left with
        | nil => exact .inl fun user isRecipient =>
          (servedAfter user isRecipient).resolve_left not_mem_nil
        | cons next left => exact .inr ⟨_, .head _, rfl⟩
      · exact .inr ⟨phase, .tail _ member, fills⟩
  have live : ∀ {id'}, Live (world.insertInbox id userId)
      (.advance input rest id left :: phases) id' →
        Live world (.filling input rest id userId left :: phases) id' := by
    rintro id' (⟨row, member, rfl⟩ | ⟨phase, member, fills⟩)
    · rcases mem_insertInbox.mp member with before | rfl
      · exact .inl ⟨row, before, rfl⟩
      · exact .inr ⟨_, .head _, rfl⟩
    · rcases mem_cons.mp member with rfl | member
      · exact .inr ⟨_, .head _, fills_advance fills⟩
      · exact .inr ⟨phase, .tail _ member, fills⟩
  constructor
  · exact fields.1 ▸ kept.since
  · rw [fields.1, fields.2]
    exact kept.ids
  · rw [fields.2]
    exact kept.idsNodup
  · rw [fields.2]
    exact kept.origin
  · rw [fields.2]
    exact kept.foreign
  · rw [fields.2]
    exact kept.keyed
  · exact insertInbox_nodup kept.rowsNodup
  · rw [fields.1]
    intro row member
    rcases mem_insertInbox.mp member with before | rfl
    · exact kept.rows row before
    · exact kept.storedFor_lt stored
  · intro row member other isOther otherStored
    rcases mem_insertInbox.mp member with before | rfl
    · exact kept.reach row before other isOther (sameStored.mp otherStored)
    · obtain rfl := kept.eq_of_storedFor inputMem isOther stored (sameStored.mp otherStored)
      exact recipients userId (.head _)
  · exact fun other isOther first second firstStored secondStored firstLive secondLive =>
      kept.single other isOther first second (sameStored.mp firstStored)
        (sameStored.mp secondStored) (live firstLive) (live secondLive)
  · intro other isOther isKeyed id' otherStored
    have before := sameStored.mp otherStored
    rcases kept.filled other isOther isKeyed id' before with complete | isFilled
    · exact .inl fun user isRecipient => grows.rows _ (complete user isRecipient)
    · exact grows.fills other isOther isKeyed id' before isFilled
  · intro phase member
    rcases mem_cons.mp member with rfl | member
    · apply phaseKept_advance isInput
      · intro other isOther
        rcases covered other isOther with isLeft | isCovered
        · exact .inl isLeft
        · exact .inr (isCovered.grows grows isOther)
      · exact sameStored.mpr stored
      · exact fun user isLeft => recipients user (.tail _ isLeft)
      · exact servedAfter
    · exact (kept.inHand phase (.tail _ member)).grows grows
  · intro eventId isEvent isProcessed other isOther
    have sameProcessed : (world.insertInbox id userId).processed = world.processed := by
      unfold World.insertInbox
      split
      · rfl
      · rfl
    exact (kept.processed eventId isEvent (sameProcessed ▸ isProcessed) other isOther).grows
      grows isOther
  · intro isAcknowledged other isOther
    have sameCount : (world.insertInbox id userId).acknowledged = world.acknowledged := by
      unfold World.insertInbox
      split
      · rfl
      · rfl
    exact (kept.acknowledged (sameCount ▸ isAcknowledged) other isOther).grows grows isOther

section Steps

variable {request : Call} {answer : Except String (Result request)}
  {others : List (Operation × Prog notificationSignature Unit)}

theorem Kept.quiet (kept : Kept directory subject start world phases) (isQuiet : Quiet request)
    (answers : (notificationMachine directory).Answers request world answer moved) :
    Kept directory subject start moved phases := by
  have noStore : ¬StoreCall request := by
    cases request <;> first | exact fun store => store | exact isQuiet.elim
  have same := sameStore_of_answers answers noStore
  have marks : moved.processed = world.processed ∧ moved.acknowledged = world.acknowledged := by
    cases request with
    | listPreferenceOverrides | recordDelivery | pushInboxChanged | retry =>
      cases answers
      exact ⟨rfl, rfl⟩
    | deliver | publishAudit =>
      obtain rfl : moved = world := answers
      exact ⟨rfl, rfl⟩
    | _ => exact isQuiet.elim
  apply kept.sameStore same (same.grows fun _ isFilled => isFilled) fun _ isFilled => isFilled
  · exact fun phase member => .inl member
  · exact fun eventId _ isProcessed => .inl (marks.1 ▸ isProcessed)
  · exact fun isAcknowledged => .inl (marks.2 ▸ isAcknowledged)

theorem Kept.reads (kept : Kept directory subject start world (phase :: phases))
    (notFills : ∀ id, ¬phase.Fills id) (afterFills : ∀ id, ¬after.Fills id)
    (holds : Grows directory subject start.nextId world world (phase :: phases) (after :: phases) →
        PhaseKept directory subject start.nextId world (after :: phases) after) :
    Kept directory subject start world (after :: phases) := by
  apply kept.turn (.refl world) notFills afterFills holds
  · exact fun eventId _ isProcessed => .inl isProcessed
  · exact .inl

theorem not_fills_idle (id : Nat) : ¬Phase.idle.Fills id :=
  fun fills => fills

theorem not_fills_done (id : Nat) : ¬Phase.done.Fills id :=
  fun fills => fills

theorem Kept.turnTo {inputs : List IngestInput}
    (kept : Kept directory subject start world (phase :: phases))
    (notFills : ∀ id, ¬phase.Fills id)
    (isInput : ∀ other ∈ inputs, other ∈ subject.inputs)
    (covered : ∀ other ∈ subject.inputs, other ∈ inputs ∨
      Covered directory start.nextId world (phase :: phases) other) :
    Kept directory subject start world (.turnTo inputs :: phases) := by
  apply kept.reads notFills fun id => not_fills_turnTo inputs
  intro grows
  apply phaseKept_turnTo isInput
  intro other isOther
  rcases covered other isOther with isLeft | isCovered
  · exact .inl isLeft
  · exact .inr (isCovered.grows grows isOther)

/-- An insertion that the condition permits finds no earlier notification alive. -/
theorem Kept.apart (kept : Kept directory subject start world (.handling input rest :: phases))
    (tracks : (deliveryProtocol directory subject).Tracks others phases)
    (permitted : (fansOutOnce subject start.nextId).mayCall (.insertNotification input) world
      others)
    (notTaken : input.dedupKey.isSome → ∀ row ∈ world.notifications, row.dedupKey ≠ input.dedupKey)
    (id : Nat) (stored : world.StoredFor start.nextId input id) : ¬Live world phases id := by
  have inputMem : input ∈ subject.inputs :=
    (kept.inHand _ (.head _)).1 input (.head _)
  cases isKey : input.dedupKey with
  | some dedupKey =>
    obtain ⟨row, member, -, rowKey⟩ := kept.dedupKey_of_storedFor inputMem stored
    exact absurd rowKey (notTaken (isKey ▸ rfl) row member)
  | none =>
    obtain ⟨isNew, row, member, rfl, isType⟩ := stored
    obtain ⟨noRow, noThread⟩ := permitted isKey row member isNew isType
    rintro (⟨inboxRow, inInbox, isId⟩ | ⟨phase, phaseMem, fills⟩)
    · exact noRow inboxRow inInbox isId
    · obtain ⟨thread, threadMem, follows⟩ := tracks.exists_of_mem phaseMem
      exact noThread thread threadMem (mayReach_of_fills follows fills)

theorem Kept.call (tracks : (deliveryProtocol directory subject).Tracks others phases)
    (permitted : (fansOutOnce subject start.nextId).mayCall request world others)
    (answers : (notificationMachine directory).Answers request world answer moved)
    (leads : Phase.Leads directory subject phase request answer after)
    (kept : Kept directory subject start world (phase :: phases)) :
    Kept directory subject start moved (after :: phases) := by
  cases leads with
  | quiet isQuiet => exact kept.quiet isQuiet answers
  | unprocessed =>
    obtain ⟨-, rfl⟩ := Prod.mk.inj answers
    apply kept.turnTo not_fills_idle
    · exact fun other isOther => isOther
    · exact fun other isOther => .inl isOther
  | @processed eventId isEvent =>
    obtain ⟨isAnswer, rfl⟩ := Prod.mk.inj answers
    have isProcessed : eventId ∈ world.processed :=
      of_decide_eq_true (ok.inj isAnswer)
    have covered := kept.processed eventId isEvent isProcessed
    exact kept.reads not_fills_idle not_fills_done fun grows other isOther =>
      (covered other isOther).grows grows isOther
  | @found input rest dedupKey id isKey =>
    obtain ⟨isAnswer, rfl⟩ := Prod.mk.inj answers
    have found : world.findByDedupKey dedupKey = some id := ok.inj isAnswer
    obtain ⟨isInput, covered⟩ := kept.inHand _ (.head _)
    apply kept.turnTo (not_fills_handling _ _)
    · exact fun other isOther => isInput other (.tail _ isOther)
    · intro other isOther
      rcases covered other isOther with isLeft | isCovered
      · rcases mem_cons.mp isLeft with rfl | isLeft
        · exact .inr (kept.covered_of_found isOther isKey found)
        · exact .inl isLeft
      · exact .inr isCovered
  | absent | resolves =>
    obtain ⟨-, rfl⟩ := Prod.mk.inj answers
    exact kept
  | expands =>
    obtain rfl : moved = world := answers
    exact kept
  | expandFails =>
    obtain rfl : moved = world := answers
    exact kept.reads (not_fills_handling _ _) not_fills_idle fun _ => trivial
  | @inserts input rest id =>
    have inserted : world.insertNotification input = (.ok id, moved) := answers
    obtain ⟨notTaken, rfl, rfl⟩ := insertNotification_ok inserted
    exact kept.inserts notTaken (kept.apart tracks permitted notTaken)
  | @refused input rest thrown =>
    have refused : world.insertNotification input = (.error thrown, moved) := answers
    obtain rfl := insertNotification_error refused
    exact kept.reads (not_fills_handling _ _) not_fills_idle fun _ => trivial
  | fills isId isUser isType =>
    cases answers
    rw [isId, isUser]
    exact kept.fills
  | marks =>
    have same := sameStore_of_answers answers fun store => store
    have covered := kept.inHand _ (.head _)
    have sameCount : moved.acknowledged = world.acknowledged := by
      cases answers
      unfold World.markProcessed
      split
      · rfl
      · rfl
    apply kept.turn same not_fills_done not_fills_done
    · exact fun grows other isOther => (covered other isOther).grows grows isOther
    · exact fun _ _ _ => .inr covered
    · exact fun isAcknowledged => .inl (sameCount ▸ isAcknowledged)
  | acks =>
    have same := sameStore_of_answers answers fun store => store
    have covered := kept.inHand _ (.head _)
    have sameMarks : moved.processed = world.processed := by
      cases answers
      rfl
    apply kept.turn same not_fills_done not_fills_idle fun _ => trivial
    · exact fun eventId _ isProcessed => .inl (sameMarks ▸ isProcessed)
    · exact fun _ => .inr covered

theorem Kept.perm {reordered : List Phase} (phasesPerm : phases.Perm reordered)
    (kept : Kept directory subject start world phases) :
    Kept directory subject start world reordered := by
  have same : world.SameStore world := .refl world
  have grows : Grows directory subject start.nextId world world phases reordered :=
    same.grows fun _ ⟨phase, member, fills⟩ => ⟨phase, phasesPerm.mem_iff.mp member, fills⟩
  apply kept.sameStore same grows
  · exact fun _ ⟨phase, member, fills⟩ => ⟨phase, phasesPerm.mem_iff.mpr member, fills⟩
  · exact fun phase member => .inl (phasesPerm.mem_iff.mpr member)
  · exact fun eventId _ isProcessed => .inl isProcessed
  · exact .inl

theorem Kept.starts {op : Operation} (delivers : subject.delivers op)
    (kept : Kept directory subject start world phases) :
    Kept directory subject start world (op.first :: phases) := by
  have notFills : ∀ id, ¬op.first.Fills id := by
    intro id
    cases op with
    | notify input => exact not_fills_turnTo [input]
    | _ => exact not_fills_idle id
  have same : world.SameStore world := .refl world
  have grows : Grows directory subject start.nextId world world phases (op.first :: phases) :=
    same.grows fun _ => (exists_fills_cons notFills).mpr
  apply kept.sameStore same grows
  · exact fun _ => (exists_fills_cons notFills).mp
  · intro phase member
    rcases mem_cons.mp member with rfl | member
    · right
      cases subject with
      | event env =>
        cases op with
        | notify => exact delivers.elim
        | _ => trivial
      | notify input =>
        cases op with
        | notify delivered =>
          obtain rfl : delivered = input := delivers
          have isFirst : (Operation.notify delivered).first = .turnTo [delivered] := rfl
          rw [isFirst]
          apply phaseKept_turnTo
          · exact fun other isOther => isOther
          · exact fun other isOther => .inl isOther
        | _ => exact delivers.elim
    · exact .inl member
  · exact fun eventId _ isProcessed => .inl isProcessed
  · exact .inl

/-- A delivery that the condition lets stop leaves no inbox unfilled that no other would
fill. -/
theorem Kept.stops {thread : Operation × Prog notificationSignature Unit}
    (follows : (deliveryProtocol directory subject).Follows phase thread.2)
    (permitted : (fansOutOnce subject start.nextId).mayStop thread)
    (kept : Kept directory subject start world (phase :: phases)) :
    Kept directory subject start world phases := by
  have same : world.SameStore world := .refl world
  have grows : Grows directory subject start.nextId world world (phase :: phases) phases := by
    constructor
    · exact fun stored => stored
    · exact fun row member => member
    · rintro other isOther isKeyed id stored ⟨filling, member, fills⟩
      rcases mem_cons.mp member with rfl | member
      · cases filling with
        | filling input rest filled userId left =>
          obtain rfl : filled = id := fills
          obtain ⟨isInput, -, inputStored, -⟩ := kept.inHand _ (.head _)
          obtain rfl := kept.eq_of_storedFor (isInput input (.head _)) isOther inputStored stored
          exact absurd (mayReach_of_fillsType follows rfl) (permitted input isOther isKeyed)
        | _ => exact fills.elim
      · exact .inr ⟨filling, member, fills⟩
  apply kept.sameStore same grows
  · exact fun _ ⟨phase, member, fills⟩ => ⟨phase, .tail _ member, fills⟩
  · exact fun phase member => .inl (.tail _ member)
  · exact fun eventId _ isProcessed => .inl isProcessed
  · exact .inl

theorem kept_preserved (directory : Directory) (subject : Request) (start : World) :
    (deliveryProtocol directory subject).Preserves (deliveries directory subject)
      (fansOutOnce subject start.nextId) Operation.first
      (Kept directory subject start) where
  perm := Kept.perm
  start _ _ delivers := Kept.starts delivers
  call tracks permitted answers leads := Kept.call tracks permitted answers leads
  environment moves kept := moves ▸ kept
  stop follows permitted := Kept.stops follows permitted

/-- With nothing of the request stored yet, there is nothing to keep. -/
theorem Untouched.kept (untouched : Untouched subject start) :
    Kept directory subject start start [] := by
  have noneStored : ∀ {input id}, ¬start.StoredFor start.nextId input id := by
    rintro input id ⟨isNew, row, member, rfl, -⟩
    exact absurd isNew (Nat.not_le_of_lt (untouched.ids row member))
  constructor
  · exact Nat.le_refl _
  · exact untouched.ids
  · exact untouched.idsNodup
  · exact fun row member isNew => absurd isNew (Nat.not_le_of_lt (untouched.ids row member))
  · exact fun row member _ => untouched.keys row member
  · exact fun first firstMem _ _ firstNew =>
      absurd firstNew (Nat.not_le_of_lt (untouched.ids first firstMem))
  · exact untouched.rowsNodup
  · exact untouched.rows
  · exact fun row _ input _ stored => absurd stored noneStored
  · exact fun input _ first _ firstStored => absurd firstStored noneStored
  · exact fun input _ _ id stored => absurd stored noneStored
  · exact forall_mem_nil _
  · exact fun eventId isEvent isProcessed =>
      absurd isProcessed (untouched.unprocessed eventId isEvent)
  · exact fun isAcknowledged => absurd isAcknowledged (Nat.lt_irrefl _)

end Steps

theorem mem_rowsFor {type : String} {row : InboxRow} :
    row ∈ rowsFor since type userId world ↔ row ∈ world.inbox ∧ row.userId = userId ∧
      ∃ stored ∈ world.notifications,
        stored.id = row.notificationId ∧ since ≤ stored.id ∧ stored.type = type := by
  simp [rowsFor]

theorem length_rowsFor (kept : Kept directory subject start world [])
    (isInput : input ∈ subject.inputs)
    (covered : Covered directory start.nextId world [] input) :
    (rowsFor start.nextId input.type userId world).length =
      if userId ∈ directory.inAppRecipients input then 1 else 0 := by
  have stored : ∀ {row}, row ∈ rowsFor start.nextId input.type userId world →
      row ∈ world.inbox ∧ row.userId = userId ∧
        world.StoredFor start.nextId input row.notificationId := by
    intro row member
    obtain ⟨inInbox, isUser, notification, isStored, isId, isNew, isType⟩ :=
      mem_rowsFor.mp member
    exact ⟨inInbox, isUser, isId ▸ isNew, notification, isStored, isId, isType⟩
  obtain ⟨id, idStored, complete | ⟨-, phase, member, -⟩⟩ := covered
  · split
    · rename_i isRecipient
      have arrived := complete userId isRecipient
      have isRow : ⟨id, userId⟩ ∈ rowsFor start.nextId input.type userId world := by
        obtain ⟨isNew, notification, isStored, isId, isType⟩ := idStored
        exact mem_rowsFor.mpr ⟨arrived, rfl, notification, isStored, isId, isId ▸ isNew, isType⟩
      have onlyRow : ∀ row, row ∈ rowsFor start.nextId input.type userId world ↔
          row ∈ [InboxRow.mk id userId] := by
        intro row
        constructor
        · intro member
          obtain ⟨inInbox, isUser, rowStored⟩ := stored member
          have sameId : row.notificationId = id :=
            kept.single input isInput _ _ rowStored idStored (.inl ⟨row, inInbox, rfl⟩)
              (.inl ⟨_, arrived, rfl⟩)
          apply mem_singleton.mpr
          rw [← sameId, ← isUser]
        · rintro member
          obtain rfl := mem_singleton.mp member
          exact isRow
      have nodup : (rowsFor start.nextId input.type userId world).Nodup :=
        kept.rowsNodup.filter _
      exact ((perm_ext_iff_of_nodup nodup (nodup_singleton _)).mpr onlyRow).length_eq
    · rename_i notRecipient
      have noRow : rowsFor start.nextId input.type userId world = [] := by
        apply eq_nil_iff_forall_not_mem.mpr
        intro row member
        obtain ⟨inInbox, rfl, rowStored⟩ := stored member
        exact notRecipient (kept.reach row inInbox input isInput rowStored)
      rw [noRow, length_nil]
  · exact absurd member not_mem_nil

/-- Where no delivery stops in the middle of a keyed fan-out, and no unkeyed one is begun
again, every recipient finds every notification once. -/
theorem arrivesOnce_of_fansOutOnce (directory : Directory) (subject : Request) :
    ArrivesOnce directory subject (fansOutOnce subject) := by
  intro start config untouched reached noThreads isAcknowledged input isInput userId
  obtain ⟨phases, tracks, kept⟩ :=
    (kept_preserved directory subject start).reached (deliveries_governed directory subject)
      reached untouched.kept
  rw [noThreads] at tracks
  cases tracks with
  | nil => exact length_rowsFor kept isInput (kept.acknowledged isAcknowledged input isInput)

def emptyWorld : World where
  nextId := 0
  notifications := []
  inbox := []
  deliveries := []
  processed := []
  acknowledged := 0

/-- One user takes part in every event, and wants only the inbox. -/
def inboxDirectory : Directory where
  permissionHolders _ := []
  listUserIdsByRole _ := []
  listParticipantIds _ := ["user_1"]
  listPreferenceOverrides userId :=
    CHANNELS.map fun channel => ⟨userId, "*", channel, channel = .inApp⟩

def dueSoon : DubEventEnvelope where
  id := "evt_1"
  name := "task.due_soon"
  actorId := none
  requestId := "req_1"
  payload := { eventId := some "event_1", taskId := "task_1", dueAt := "2026-05-01" }

def dueSoonReferee : Referee (deliveries inboxDirectory (.event dueSoon)) anyCall where
  mayCall _ _ := true
  mayStart _ op :=
    match op with
    | .dispatch env => decide (env = dueSoon)
    | _ => false
  allowed_of_mayCall _ := trivial
  startable_of_mayStart {running op} permitted := by
    cases op with
    | dispatch env =>
      have isDelivery : env = dueSoon := of_decide_eq_true permitted
      exact isDelivery
    | _ => cases permitted

/-- The other services do what they are asked. -/
def helpful : (request : Call) → Except String (Result request)
  | .expand => .ok ()
  | _ => .error "unavailable"

/-- The first delivery stores the notification and dies; the second one finds it, and is
acknowledged. -/
theorem not_arrivesOnce : ¬ArrivesOnce inboxDirectory (.event dueSoon) fun _ => anyStep := by
  intro arrives
  have untouched : Untouched (.event dueSoon) emptyWorld :=
    ⟨forall_mem_nil _, .nil, forall_mem_nil _, .nil, forall_mem_nil _, fun _ _ => not_mem_nil⟩
  let delivery : Nat → List (Move notificationSignature World Operation) := fun calls =>
    .start (.dispatch dueSoon) :: List.replicate calls (.call 0 helpful)
  obtain ⟨final, reached, dropped⟩ := dueSoonReferee.exists_reachable_of_restart (delivery 5)
    (delivery 4) emptyWorld
    (fun world => decide (world.acknowledged = 1 ∧ world.inbox = []))
    (by
      intro moved member
      simp [delivery] at member)
    (by decide +kernel)
  obtain ⟨isAcknowledged, isEmpty⟩ := of_decide_eq_true dropped
  have once := arrives emptyWorld ⟨final, []⟩ untouched reached rfl
    (isAcknowledged ▸ Nat.zero_lt_one)
  have isRecipient : ∃ input ∈ (Request.event dueSoon).inputs,
      "user_1" ∈ inboxDirectory.inAppRecipients input := by decide +kernel
  obtain ⟨input, isInput, isRecipient⟩ := isRecipient
  have arrived := once input isInput "user_1"
  simp [rowsFor, isEmpty, isRecipient] at arrived

end DubEcosystem.Notification
