import DubEcosystem.InterleavingSchedule
import DubEcosystem.NotificationProtocol

/-!
# notification: every notification arrives once

A delivery that stops in the middle of its fan-out leaves either inboxes that no later
delivery fills, or inboxes that the next one fills again.  Where that does not happen, every
recipient finds the notification once.
-/

namespace DubEcosystem.Notification

open Relation Interleaving PortPrograms List

variable {directory : Directory} {subject : Request} {since : Nat} {world moved : World}
  {phase after : Phase} {phases later : List Phase} {input : IngestInput} {id : Nat}

/-- The inbox rows of a user for the notifications of a type that were stored since. -/
def rowsFor (since : Nat) (type userId : String) (world : World) : List InboxRow :=
  world.inbox.filter fun row => row.userId = userId ∧ ∃ stored ∈ world.notifications,
      stored.id = row.notificationId ∧ since ≤ stored.id ∧ stored.type = type

/-- The request was not delivered before, and no other notification has a dedup key of
its. -/
structure Untouched (subject : Request) (start : World) : Prop where
  ids : ∀ row ∈ start.notifications, row.id < start.nextId
  idsNodup : (start.notifications.map NotificationRow.id).Nodup
  rows : ∀ row ∈ start.inbox, row.notificationId < start.nextId
  rowsNodup : start.inbox.Nodup
  keys : ∀ row ∈ start.notifications, row.dedupKey.isSome →
    ∀ input ∈ subject.inputs, row.dedupKey ≠ input.dedupKey
  unprocessed : ∀ eventId, subject.eventId = some eventId → eventId ∉ start.processed

/-- Once a delivery was acknowledged and nothing is in flight, every recipient of each of
the notifications has one row for it, and nobody else has one. -/
def ArrivesOnce (directory : Directory) (subject : Request)
    (condition : Nat → RunCondition notificationSignature World Operation) : Prop :=
  ∀ start config, Untouched subject start →
    (deliveries directory subject).ReachableUnder (condition start.nextId) start config →
      config.threads = [] → start.acknowledged < config.world.acknowledged →
        ∀ input ∈ subject.inputs, ∀ userId,
          (rowsFor start.nextId input.type userId config.world).length =
            if userId ∈ directory.inAppRecipients input then 1 else 0

def FillsInbox (id : Nat) : Call → Prop
  | .insertInbox job => job.notificationId = id
  | _ => False

def FillsType (type : String) : Call → Prop
  | .insertInbox job => job.type = type
  | _ => False

def Inserts : Call → Prop
  | .insertNotification _ => True
  | _ => False

/-- A notification without a dedup key is stored only where no earlier one of it reached an
inbox or may still do so; and no delivery stops while it fills the inboxes for one that has
a dedup key. -/
def fansOutOnce (subject : Request) (since : Nat) :
    RunCondition notificationSignature World Operation where
  mayCall request world others :=
    match request with
    | .insertNotification input => input.dedupKey = none →
        ∀ stored ∈ world.notifications, since ≤ stored.id → stored.type = input.type →
          (∀ row ∈ world.inbox, row.notificationId ≠ stored.id) ∧ ∀ thread ∈ others,
              ¬thread.2.MayReach (fun _ => False) (FillsInbox stored.id)
    | _ => True
  mayStop thread := ∀ input ∈ subject.inputs, input.dedupKey.isSome →
    ¬thread.2.MayReach Inserts (FillsType input.type)

theorem eq_of_type {first second : IngestInput} (firstMem : first ∈ subject.inputs)
    (secondMem : second ∈ subject.inputs) (sameType : first.type = second.type) :
    first = second := by
  have nodup : (subject.inputs.map IngestInput.type).Nodup := by
    cases subject with
    | event env =>
      have isInputs : (Request.event env).inputs = (handlerInputs env).getD [] := rfl
      rw [isInputs]
      cases handled : handlerInputs env with
      | none => exact .nil
      | some inputs => exact handlerInputs_types_nodup handled
    | notify input => exact nodup_singleton _
  exact inj_on_of_nodup_map nodup firstMem secondMem sameType

theorem eq_of_dedupKey {first second : IngestInput} (firstMem : first ∈ subject.inputs)
    (secondMem : second ∈ subject.inputs) (isKeyed : first.dedupKey.isSome)
    (sameKey : first.dedupKey = second.dedupKey) : first = second := by
  cases subject with
  | event env =>
    have isInputs : (Request.event env).inputs = (handlerInputs env).getD [] := rfl
    rw [isInputs] at firstMem secondMem
    cases handled : handlerInputs env with
    | none =>
      rw [handled] at firstMem
      exact absurd firstMem not_mem_nil
    | some inputs =>
      rw [handled] at firstMem secondMem
      exact handlerInputs_eq_of_dedupKey handled firstMem secondMem isKeyed sameKey
  | notify input =>
    rw [mem_singleton.mp firstMem, mem_singleton.mp secondMem]

theorem mem_pending {userIds : List String} {userId : String} :
    userId ∈ pending directory input userIds ↔ userId ∈ userIds ∧ .inApp ∈ candidateChannels input ∧
        channelEnabled input (directory.listPreferenceOverrides userId) .inApp = true := by
  simp only [pending, pendingChannels, mem_flatMap]
  constructor
  · rintro ⟨user, userMem, channel, channelMem, member⟩
    split at member
    · rename_i isPending
      obtain rfl := mem_singleton.mp member
      exact ⟨userMem, isPending.1 ▸ channelMem, isPending.1 ▸ isPending.2⟩
    · exact absurd member not_mem_nil
  · rintro ⟨userMem, inApp, enabled⟩
    exact ⟨userId, userMem, .inApp, inApp, by simp [enabled]⟩

theorem mem_pending_iff_inAppRecipients {userId : String} :
    userId ∈ pending directory input (directory.resolve input.recipients) ↔
      userId ∈ directory.inAppRecipients input := by
  rw [mem_pending]
  unfold Directory.inAppRecipients
  split
  · rename_i inApp
    simp [inApp]
  · rename_i noInApp
    simp [noInApp]

/-- The delivery is filling the inboxes for this notification. -/
def Phase.Fills (id : Nat) : Phase → Prop
  | .filling _ _ filled _ _ => filled = id
  | _ => False

theorem Phase.Leads.fills_after {request : Call} {answer : Except String (Result request)}
    (leads : Phase.Leads directory subject phase request answer after)
    (fills : phase.Fills id) : FillsInbox id request ∨ phase = after ∧ ¬Inserts request := by
  cases leads with
  | quiet isQuiet =>
    refine .inr ⟨rfl, ?_⟩
    cases request <;> first | exact isQuiet.elim | exact fun inserts => inserts
  | fills isId => exact .inl (isId.trans fills)
  | _ => exact fills.elim

section

variable {program : Prog notificationSignature Unit}
  (follows : (deliveryProtocol directory subject).Follows phase program)
include follows

theorem mayReach_of_fills (fills : phase.Fills id) :
    program.MayReach (fun _ => False) (FillsInbox id) := by
  apply follows.mayReach fills
  · rintro phase fills rfl
    exact fills
  · exact exists_possible directory
  · intro phase request answer after fills _ leads
    rcases leads.fills_after fills with isTarget | ⟨rfl, -⟩
    · exact .inl isTarget
    · exact .inr ⟨fun impossible => impossible, fills⟩

def Phase.FillsType (type : String) : Phase → Prop
  | .filling input _ _ _ _ => input.type = type
  | _ => False

theorem mayReach_of_fillsType {type : String} (fills : phase.FillsType type) :
    program.MayReach Inserts (Notification.FillsType type) := by
  apply follows.mayReach fills
  · rintro phase fills rfl
    exact fills
  · exact exists_possible directory
  · intro phase request answer after fills _ leads
    cases leads with
    | quiet isQuiet =>
      refine .inr ⟨?_, fills⟩
      cases request <;> first | exact isQuiet.elim | exact fun inserts => inserts
    | fills isId isUser isType => exact .inl (isType.trans fills)
    | _ => exact fills.elim

end

def World.StoredFor (world : World) (since : Nat) (input : IngestInput) (id : Nat) : Prop :=
  since ≤ id ∧ ∃ stored ∈ world.notifications, stored.id = id ∧ stored.type = input.type

def Complete (directory : Directory) (world : World) (input : IngestInput) (id : Nat) :
    Prop :=
  ∀ userId ∈ directory.inAppRecipients input, ⟨id, userId⟩ ∈ world.inbox

/-- Every recipient has a notification of the input, or one with a dedup key is on its way
to those who have not. -/
def Covered (directory : Directory) (since : Nat) (world : World) (phases : List Phase)
    (input : IngestInput) : Prop :=
  ∃ id, world.StoredFor since input id ∧ (Complete directory world input id ∨
    (input.dedupKey.isSome ∧ ∃ phase ∈ phases, phase.Fills id))

/-- Somebody has the notification, or is about to. -/
def Live (world : World) (phases : List Phase) (id : Nat) : Prop :=
  (∃ row ∈ world.inbox, row.notificationId = id) ∨ ∃ phase ∈ phases, phase.Fills id

/-- What a delivery takes for granted of what it has left behind. -/
def PhaseKept (directory : Directory) (subject : Request) (since : Nat) (world : World)
    (phases : List Phase) : Phase → Prop
  | .idle => True
  | .handling input rest =>
    (∀ other ∈ input :: rest, other ∈ subject.inputs) ∧
      ∀ other ∈ subject.inputs, other ∈ input :: rest ∨ Covered directory since world phases other
  | .filling input rest id userId left =>
    (∀ other ∈ input :: rest, other ∈ subject.inputs) ∧
      (∀ other ∈ subject.inputs, other ∈ input :: rest ∨
        Covered directory since world phases other) ∧
      world.StoredFor since input id ∧
        (∀ user ∈ userId :: left, user ∈ directory.inAppRecipients input) ∧
          ∀ user ∈ directory.inAppRecipients input, user ∈ userId :: left ∨ ⟨id, user⟩ ∈ world.inbox
  | .done => ∀ other ∈ subject.inputs, Covered directory since world phases other

structure Kept (directory : Directory) (subject : Request) (start world : World)
    (phases : List Phase) : Prop where
  since : start.nextId ≤ world.nextId
  ids : ∀ row ∈ world.notifications, row.id < world.nextId
  idsNodup : (world.notifications.map NotificationRow.id).Nodup
  origin : ∀ row ∈ world.notifications, start.nextId ≤ row.id →
    ∃ input ∈ subject.inputs, row.type = input.type ∧ row.dedupKey = input.dedupKey
  foreign : ∀ row ∈ world.notifications, row.id < start.nextId → row.dedupKey.isSome →
    ∀ input ∈ subject.inputs, row.dedupKey ≠ input.dedupKey
  keyed : ∀ first ∈ world.notifications, ∀ second ∈ world.notifications,
    start.nextId ≤ first.id → start.nextId ≤ second.id → first.dedupKey.isSome →
      first.dedupKey = second.dedupKey → first.id = second.id
  rowsNodup : world.inbox.Nodup
  rows : ∀ row ∈ world.inbox, row.notificationId < world.nextId
  reach : ∀ row ∈ world.inbox, ∀ input ∈ subject.inputs,
    world.StoredFor start.nextId input row.notificationId →
      row.userId ∈ directory.inAppRecipients input
  single : ∀ input ∈ subject.inputs, ∀ first second,
    world.StoredFor start.nextId input first → world.StoredFor start.nextId input second →
      Live world phases first → Live world phases second → first = second
  filled : ∀ input ∈ subject.inputs, input.dedupKey.isSome → ∀ id,
    world.StoredFor start.nextId input id →
      Complete directory world input id ∨ ∃ phase ∈ phases, phase.Fills id
  inHand : ∀ phase ∈ phases, PhaseKept directory subject start.nextId world phases phase
  processed : ∀ eventId, subject.eventId = some eventId → eventId ∈ world.processed →
    ∀ input ∈ subject.inputs, Covered directory start.nextId world phases input
  acknowledged : start.acknowledged < world.acknowledged →
    ∀ input ∈ subject.inputs, Covered directory start.nextId world phases input

/-- What was stored and what arrived stays, and a notification stops being filled only when
everybody has it. -/
structure Grows (directory : Directory) (subject : Request) (since : Nat)
    (world moved : World) (phases later : List Phase) : Prop where
  stored : ∀ {input id}, world.StoredFor since input id → moved.StoredFor since input id
  rows : ∀ row ∈ world.inbox, row ∈ moved.inbox
  fills : ∀ input ∈ subject.inputs, input.dedupKey.isSome → ∀ id,
    world.StoredFor since input id → (∃ phase ∈ phases, phase.Fills id) →
      Complete directory moved input id ∨ ∃ phase ∈ later, phase.Fills id

theorem Covered.grows (grows : Grows directory subject since world moved phases later)
    (member : input ∈ subject.inputs) (covered : Covered directory since world phases input) :
    Covered directory since moved later input := by
  obtain ⟨id, stored, complete | ⟨isKeyed, fills⟩⟩ := covered
  · exact ⟨id, grows.stored stored,
      .inl fun userId isRecipient => grows.rows _ (complete userId isRecipient)⟩
  · refine ⟨id, grows.stored stored, ?_⟩
    rcases grows.fills input member isKeyed id stored fills with complete | still
    · exact .inl complete
    · exact .inr ⟨isKeyed, still⟩

theorem PhaseKept.grows (grows : Grows directory subject since world moved phases later)
    (kept : PhaseKept directory subject since world phases phase) :
    PhaseKept directory subject since moved later phase := by
  have covers : ∀ {left : List IngestInput}, (∀ other ∈ subject.inputs, other ∈ left ∨
      Covered directory since world phases other) → ∀ other ∈ subject.inputs,
        other ∈ left ∨ Covered directory since moved later other := by
    intro left covered other member
    rcases covered other member with isLeft | isCovered
    · exact .inl isLeft
    · exact .inr (isCovered.grows grows member)
  cases phase with
  | idle => trivial
  | handling input rest => exact ⟨kept.1, covers kept.2⟩
  | filling input rest id userId left =>
    obtain ⟨inputs, covered, stored, recipients, served⟩ := kept
    refine ⟨inputs, covers covered, grows.stored stored, recipients, ?_⟩
    intro user isRecipient
    rcases served user isRecipient with isLeft | arrived
    · exact .inl isLeft
    · exact .inr (grows.rows _ arrived)
  | done => exact fun other member => (kept other member).grows grows member

end DubEcosystem.Notification
