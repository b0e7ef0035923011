import DubEcosystem.ChatFootprint
import DubEcosystem.InterleavingWatched

/-!
# chat-service: a direct message belongs to its participants

A direct message is found by a key that is a hash of its participants.  Its members are the
participants it was created for when nothing is posted in it before it has members, and when
the key of a user whom the system writes to is not that of other participants.
-/

namespace DubEcosystem.Chat

open List KeyedTable Function
open IdentityRoster (codeUnits)
open Interleaving PortPrograms Relation

/-- No character is a lone half of a surrogate pair, so the units determine the characters. -/
theorem codeUnits_injective : Function.Injective codeUnits := by
  have units_inj : ∀ (first second : Char) (rest other : List Nat),
      (if first.toNat < 0x10000 then [first.toNat]
        else [0xd800 + (first.toNat - 0x10000) / 0x400,
          0xdc00 + (first.toNat - 0x10000) % 0x400]) ++ rest =
      (if second.toNat < 0x10000 then [second.toNat]
        else [0xd800 + (second.toNat - 0x10000) / 0x400,
          0xdc00 + (second.toNat - 0x10000) % 0x400]) ++ other →
        first = second ∧ rest = other := by
    intro first second rest other same
    have firstValid : first.toNat.isValidChar := first.valid
    have secondValid : second.toNat.isValidChar := second.valid
    simp only [Nat.isValidChar] at firstValid secondValid
    split at same <;> split at same <;> simp at same
    · exact ⟨Char.toNat_inj.mp same.1, same.2⟩
    · omega
    · omega
    · exact ⟨Char.toNat_inj.mp (by omega), same.2.2⟩
  intro first second same
  apply String.toList_inj.mp
  unfold codeUnits at same
  generalize first.toList = firsts at same ⊢
  generalize second.toList = seconds at same ⊢
  induction firsts generalizing seconds with
  | nil =>
    cases seconds with
    | nil => rfl
    | cons head tail =>
      simp only [flatMap_nil, flatMap_cons] at same
      split at same <;> simp at same
  | cons head tail ih =>
    cases seconds with
    | nil =>
      simp only [flatMap_nil, flatMap_cons] at same
      split at same <;> simp at same
    | cons otherHead otherTail =>
      simp only [flatMap_cons] at same
      obtain ⟨rfl, sameTail⟩ := units_inj _ _ _ _ same
      rw [ih otherTail sameTail]

theorem dmKey_congr {first second : List String} (same : ∀ id, id ∈ first ↔ id ∈ second) :
    dmKey first = dmKey second := by
  have perm : (unique first).Perm (unique second) := by
    rw [perm_ext_iff_of_nodup (unique_nodup first) (unique_nodup second)]
    simpa [mem_unique] using same
  have sorted : sortIds (unique first) = sortIds (unique second) := by
    have trans : IsTrans String fun first second => codeUnits first ≤ codeUnits second :=
      ⟨fun _ _ _ => le_trans⟩
    have total : Std.Total fun first second : String => codeUnits first ≤ codeUnits second :=
      ⟨fun _ _ => le_total _ _⟩
    unfold sortIds
    apply List.Perm.eq_of_pairwise _ (pairwise_insertionSort _ _) (pairwise_insertionSort _ _)
    · exact ((perm_insertionSort _ _).trans perm).trans (perm_insertionSort _ _).symm
    · exact fun _ _ _ _ isBefore isAfter => codeUnits_injective (le_antisymm isBefore isAfter)
  rw [dmKey, dmKey, canonical, canonical, sorted]

def Operation.onDirectMessages : Operation → Bool
  | .createChannel _ _ => true
  | .postSystemMessage _ => true
  | .addMember _ _ _ _ => true
  | .removeMember _ _ _ => true
  | .updateChannel _ _ _ => true
  | .updateChannelVisibility _ _ _ _ => true
  | _ => false

/-- The participants of the direct message that is asked for. -/
def Operation.parties : Operation → Option (List String)
  | .createChannel userId body =>
    if body.type = some .dm then some (initialMembers userId body) else none
  | _ => none

def Operation.target : Operation → Option String
  | .postSystemMessage body =>
    match body.channelId.filter fun id => id ≠ "" with
    | some _ => none
    | none => body.targetUserId.filter fun id => id ≠ ""
  | _ => none

variable (store : Store)

def Store.IsMember (channelId userId : String) : Prop :=
  ∃ member ∈ store.members, member.channelId = channelId ∧ member.userId = userId

def Store.HasParties (channelId : String) (parties : List String) : Prop :=
  ∀ userId, store.IsMember channelId userId ↔ userId ∈ parties

structure World.Settled (ids : Ids) (world : World) : Prop where
  fresh : ∀ channel ∈ world.store.channels, ∀ n, world.drawn ≤ n → ids.channel n ≠ channel.id
  membersIn : ∀ channelId userId, world.store.IsMember channelId userId →
    ∃ channel ∈ world.store.channels, channel.id = channelId
  messagesIn : ∀ message ∈ world.store.messages, ∃ channel ∈ world.store.channels,
    channel.id = message.channelId
  keys : ∀ first ∈ world.store.channels, ∀ second ∈ world.store.channels,
    first.dmKey.isSome → first.dmKey = second.dmKey → first.id = second.id
  keyed : ∀ channel ∈ world.store.channels, channel.dmKey.isSome → channel.type = .dm
  dms : ∀ channel ∈ world.store.channels, channel.type = .dm → channel.visibility = .isPrivate ∧
    ∃ parties, world.store.HasParties channel.id parties ∧ channel.dmKey = some (dmKey parties)

/-- The direct message that a call creates, and for whom; that of the system is created by
the user it is for. -/
def founds : (request : Call) → Except ChatError (Call.Result request) →
    Option (String × List String)
  | .db (.insertChannelWithMembers row members), .ok true =>
    if row.type = .dm then some (row.id, members.map MemberRow.userId) else none
  | .db (.insertChannel row), .ok _ =>
    if row.type = .dm then some (row.id, [row.createdBy]) else none
  | _, _ => none

section Runs

variable (ids : Ids) (toLowerCase : String → String) (run : Operation → Bool)
  (condition : RunCondition chatSignature World Operation) (world : World)

/-- In a configuration that is reached there is a direct message for these participants,
from the start or created since. -/
def IsDmFor (config : Config chatSignature World Operation) (channelId : String)
    (parties : List String) : Prop :=
  ((chatSystem ids toLowerCase run).ReachableUnder condition world config ∧
    (∃ channel ∈ world.store.channels, channel.id = channelId ∧ channel.type = .dm) ∧
      world.store.HasParties channelId parties) ∨
  ∃ request answer before middle,
    (chatSystem ids toLowerCase run).ReachableUnder condition world before ∧
      (chatSystem ids toLowerCase run).CallUnder condition request answer before middle ∧
        founds request answer = some (channelId, parties) ∧
          ReflTransGen ((chatSystem ids toLowerCase run).StepUnder condition) middle config

/-- What is claimed of direct messages, in the runs from a store. -/
structure DirectMessagesKept : Prop where
  isPrivate : ∀ config, (chatSystem ids toLowerCase run).ReachableUnder condition world config →
    ∀ channel ∈ config.world.store.channels, channel.type = .dm → channel.visibility = .isPrivate
  fixed : ∀ config channelId parties,
    IsDmFor ids toLowerCase run condition world config channelId parties →
      (∃ message ∈ config.world.store.messages, message.channelId = channelId) →
        config.world.store.HasParties channelId parties
  distinct : ∀ config first second firstParties secondParties,
    IsDmFor ids toLowerCase run condition world config first firstParties →
      IsDmFor ids toLowerCase run condition world config second secondParties →
        (∀ userId, userId ∈ firstParties ↔ userId ∈ secondParties) → first = second
  returned : ∀ op parties watched channel, op.parties = some parties →
    (chatSystem ids toLowerCase run).WatchedUnder condition world op
      (actionOf toLowerCase op).run watched → watched.own = .done (.ok (.channel channel)) →
          watched.world.store.HasParties channel.id parties
  posted : ∀ op target watched row next moved, op.target = some target →
    (chatSystem ids toLowerCase run).WatchedUnder condition world op
      (actionOf toLowerCase op).run watched → watched.own = .call (.db (.insertMessage row)) next →
          condition.mayCall (.db (.insertMessage row)) watched.world watched.others →
            (chatMachine ids).Answers (.db (.insertMessage row)) watched.world (.ok ()) moved →
              moved.store.HasParties row.channelId [target]

end Runs

/-- Every direct message belongs to exactly its participants. -/
def DmsBelongToParties (apart : (Operation → Bool) → World → Prop)
    (condition : RunCondition chatSignature World Operation) (ids : Ids)
    (toLowerCase : String → String) : Prop :=
  ∀ run world, (∀ op, run op = true → op.onDirectMessages = true) →
    world.Settled ids → apart run world → DirectMessagesKept ids toLowerCase run condition world

/-- So many participants as a direct message has. -/
def Sized (parties : List String) : Prop :=
  ¬parties.length - 1 < 1 ∧ ¬DM_MAX_OTHERS < parties.length - 1

/-- The key of a user whom the system writes to is not that of other participants. -/
def keysApart (run : Operation → Bool) (world : World) : Prop :=
  ∀ op target, run op = true → op.target = some target →
    (∀ other otherTarget, run other = true → other.target = some otherTarget →
      dmKey [otherTarget] = dmKey [target] → otherTarget = target) ∧
    (∀ other parties, run other = true → other.parties = some parties → Sized parties →
      dmKey parties = dmKey [target] → ∀ userId, userId ∈ parties ↔ userId = target) ∧
    ∀ channel ∈ world.store.channels, channel.dmKey = some (dmKey [target]) →
      world.store.HasParties channel.id [target]

def membersFirst : RunCondition chatSignature World Operation where
  mayCall request world _ :=
    match request with
    | .db (.insertMessage row) => ∀ channel ∈ world.store.channels,
        channel.id = row.channelId → channel.type = .dm →
          ∃ userId, world.store.IsMember channel.id userId
    | _ => True
  mayStop _ := True

/-- What an operation relies on between two of its calls. -/
inductive DmPhase where
  | calm
  /-- A direct message is to be found or created for them. -/
  | asks (parties : List String)
  | found (parties : List String) (id : String)
  /-- These are the members of the direct message, when there are any. -/
  | matched (id : String) (current : List String)
  | drawn (parties : Option (List String)) (id : String)
  /-- The system writes to a user. -/
  | targets (target : String)
  | drawnFor (target id : String)
  | posting (target id : String)
  | seen (id : String) (row : ChannelRow)

def DmPhase.unused : DmPhase → Option String
  | .drawn _ id => some id
  | .drawnFor _ id => some id
  | _ => none

def DmPhase.target : DmPhase → Option String
  | .targets target => some target
  | .drawnFor target _ => some target
  | .posting target _ => some target
  | _ => none

def Store.IsMeantFor (founded : String → List String) (id : String)
    (parties : List String) : Prop :=
  (∃ channel ∈ store.channels, channel.id = id ∧ channel.type = .dm) ∧
    ∀ userId, userId ∈ founded id ↔ userId ∈ parties

def Store.IsComplete (founded : String → List String) (id : String) : Prop :=
  ∀ userId ∈ founded id, store.IsMember id userId

/-- The sets of participants that may be asked for, and the users whom the system may write
to; no other set has the key of such a user.  Some direct messages are known already. -/
structure Names where
  parties : List String → Prop
  target : String → Prop
  known : String → List String → Prop
  ofTarget : ∀ user, target user → parties [user]
  apart : ∀ user, target user → ∀ others, parties others → dmKey others = dmKey [user] →
    ∀ userId, userId ∈ others ↔ userId ∈ [user]

def DmPhase.Holds (names : Names) (founded : String → List String) (ids : Ids)
    (world : World) : DmPhase → Prop
  | .calm => True
  | .asks parties => parties.Nodup ∧ (Sized parties → names.parties parties)
  | .found _ id => ∃ channel ∈ world.store.channels, channel.id = id ∧ channel.type = .dm
  | .matched id current => current.Nodup ∧ (current ≠ [] →
      world.store.IsMeantFor founded id current ∧ world.store.IsComplete founded id)
  | .drawn parties id =>
    (∀ set, parties = some set → set.Nodup ∧ names.parties set) ∧
      (∀ channel ∈ world.store.channels, channel.id ≠ id) ∧
        ∀ n, world.drawn ≤ n → ids.channel n ≠ id
  | .targets target => names.target target
  | .drawnFor target id => names.target target ∧
      (∀ channel ∈ world.store.channels, channel.id ≠ id) ∧
        ∀ n, world.drawn ≤ n → ids.channel n ≠ id
  | .posting target id => world.store.IsMeantFor founded id [target]
  | .seen id row => (∃ channel ∈ world.store.channels, channel.id = id ∧
      channel.type = row.type) ∧ row.id = id ∧ (row.type = .dm → row.visibility = .isPrivate)

/-- No two operations hold one id that is drawn. -/
def DmPhase.Apart (first second : DmPhase) : Prop :=
  ∀ id, first.unused = some id → second.unused ≠ some id

theorem DmPhase.Apart.symm {first second : DmPhase} (apart : first.Apart second) :
    second.Apart first :=
  fun id isSecond isFirst => apart id isFirst isSecond

structure Parties (names : Names) (founded : String → List String) (ids : Ids) (world : World) :
    Prop where
  fresh : ∀ channel ∈ world.store.channels, ∀ n, world.drawn ≤ n → ids.channel n ≠ channel.id
  membersIn : ∀ channelId userId, world.store.IsMember channelId userId →
    ∃ channel ∈ world.store.channels, channel.id = channelId
  messagesIn : ∀ message ∈ world.store.messages, ∃ channel ∈ world.store.channels,
    channel.id = message.channelId
  keys : ∀ first ∈ world.store.channels, ∀ second ∈ world.store.channels,
    first.dmKey.isSome → first.dmKey = second.dmKey → first.id = second.id
  keyed : ∀ channel ∈ world.store.channels, channel.dmKey.isSome → channel.type = .dm
  isPrivate : ∀ channel ∈ world.store.channels, channel.type = .dm →
    channel.visibility = .isPrivate
  hasKey : ∀ channel ∈ world.store.channels, channel.type = .dm →
    channel.dmKey = some (dmKey (founded channel.id)) ∧ names.parties (founded channel.id)
  joined : ∀ channel ∈ world.store.channels, channel.type = .dm → ∀ userId,
    world.store.IsMember channel.id userId → userId ∈ founded channel.id
  /-- A direct message without its members has none, and no message. -/
  complete : ∀ channel ∈ world.store.channels, channel.type = .dm →
    world.store.IsComplete founded channel.id ∨
      ((∀ userId, ¬world.store.IsMember channel.id userId) ∧
        (∀ message ∈ world.store.messages, message.channelId ≠ channel.id) ∧
          founded channel.id = [channel.createdBy])

structure PartiesWith (names : Names) (founded : String → List String) (ids : Ids)
    (world : World) (phases : List DmPhase) : Prop where
  parties : Parties names founded ids world
  holds : ∀ phase ∈ phases, phase.Holds names founded ids world
  apart : phases.Pairwise DmPhase.Apart
  known : ∀ id set, names.known id set → world.store.IsMeantFor founded id set

variable {names : Names} {founded refounded : String → List String} {ids : Ids}
  {world moved : World} {phases : List DmPhase} {phase : DmPhase}

theorem PartiesWith.perm (inv : PartiesWith names founded ids world phases)
    {reordered : List DmPhase} (perm : phases.Perm reordered) :
    PartiesWith names founded ids world reordered :=
  ⟨inv.parties, fun phase member => inv.holds phase (perm.mem_iff.mpr member),
    (perm.pairwise_iff fun apart => apart.symm).mp inv.apart, inv.known⟩

theorem PartiesWith.tail (inv : PartiesWith names founded ids world (phase :: phases)) :
    PartiesWith names founded ids world phases :=
  ⟨inv.parties, fun other member => inv.holds other (mem_cons_of_mem phase member),
    (pairwise_cons.mp inv.apart).2, inv.known⟩

theorem PartiesWith.enter (inv : PartiesWith names founded ids world phases)
    (holds : phase.Holds names founded ids world)
    (apart : ∀ other ∈ phases, phase.Apart other) :
    PartiesWith names founded ids world (phase :: phases) := by
  constructor
  · exact inv.parties
  · exact forall_mem_cons.mpr ⟨holds, inv.holds⟩
  · exact pairwise_cons.mpr ⟨apart, inv.apart⟩
  · exact inv.known

/-- An operation without a drawn id is apart from all. -/
theorem DmPhase.apart_of_unused (isUsed : phase.unused = none) (other : DmPhase) :
    phase.Apart other := by
  intro id isId
  rw [isUsed] at isId
  cases isId

theorem PartiesWith.enterUsed (inv : PartiesWith names founded ids world phases)
    (isUsed : phase.unused = none) (holds : phase.Holds names founded ids world) :
    PartiesWith names founded ids world (phase :: phases) :=
  inv.enter holds fun other _ => DmPhase.apart_of_unused isUsed other

theorem Parties.hasParties (parties : Parties names founded ids world) {id : String}
    {set : List String} (meant : world.store.IsMeantFor founded id set)
    (complete : world.store.IsComplete founded id) : world.store.HasParties id set := by
  obtain ⟨⟨channel, member, rfl, isDm⟩, same⟩ := meant
  intro userId
  rw [← same]
  exact ⟨parties.joined channel member isDm userId, complete userId⟩

theorem Parties.isComplete (parties : Parties names founded ids world) {channel : ChannelRow}
    (member : channel ∈ world.store.channels) (isDm : channel.type = .dm)
    (hasMember : ∃ userId, world.store.IsMember channel.id userId) :
    world.store.IsComplete founded channel.id := by
  rcases parties.complete channel member isDm with complete | ⟨noMember, -⟩
  · exact complete
  · obtain ⟨userId, isMember⟩ := hasMember
    exact absurd isMember (noMember userId)

variable {names : Names} {founded refounded : String → List String} {ids : Ids}
  {world moved : World} {phases : List DmPhase} {phase : DmPhase}

section

variable (inv : PartiesWith names founded ids world phases)
include inv

/-- Channels stay and direct messages keep their members; a new channel has an id that no
other operation holds. -/
theorem PartiesWith.grow (parties : Parties names refounded ids moved)
    (stays : ∀ channel ∈ world.store.channels, ∃ kept ∈ moved.store.channels,
      kept.id = channel.id ∧ kept.type = channel.type)
    (members : ∀ channel ∈ world.store.channels, channel.type = .dm → ∀ userId,
      world.store.IsMember channel.id userId → moved.store.IsMember channel.id userId)
    (agrees : ∀ channel ∈ world.store.channels, refounded channel.id = founded channel.id)
    (added : ∀ kept ∈ moved.store.channels,
      (∃ channel ∈ world.store.channels, channel.id = kept.id) ∨
        ∀ other ∈ phases, other.unused ≠ some kept.id) (later : world.drawn ≤ moved.drawn) :
    PartiesWith names refounded ids moved phases := by
  have meantStays : ∀ id set, world.store.IsMeantFor founded id set →
      moved.store.IsMeantFor refounded id set := by
    rintro id set ⟨⟨channel, member, rfl, isDm⟩, same⟩
    obtain ⟨kept, keptMem, sameId, sameType⟩ := stays channel member
    refine ⟨⟨kept, keptMem, sameId, sameType.trans isDm⟩, ?_⟩
    rwa [agrees channel member]
  have newStays : ∀ id, (∃ phase ∈ phases, phase.unused = some id) →
      (∀ channel ∈ world.store.channels, channel.id ≠ id) →
        ∀ channel ∈ moved.store.channels, channel.id ≠ id := by
    rintro id ⟨phase, phaseMem, isUnused⟩ isNew kept keptMem rfl
    rcases added kept keptMem with ⟨channel, member, sameId⟩ | isAway
    · exact isNew channel member sameId
    · exact isAway phase phaseMem isUnused
  refine ⟨parties, ?_, inv.apart, fun id set isKnown => meantStays id set (inv.known id set isKnown)⟩
  intro phase phaseMem
  have holds := inv.holds phase phaseMem
  cases phase with
  | calm => trivial
  | asks set | targets target => exact holds
  | found set id =>
    obtain ⟨channel, member, rfl, isDm⟩ := holds
    obtain ⟨kept, keptMem, sameId, sameType⟩ := stays channel member
    exact ⟨kept, keptMem, sameId, sameType.trans isDm⟩
  | matched id current =>
    refine ⟨holds.1, ?_⟩
    intro isThere
    obtain ⟨meant, complete⟩ := holds.2 isThere
    refine ⟨meantStays id current meant, ?_⟩
    obtain ⟨⟨channel, member, rfl, isDm⟩, -⟩ := meant
    intro userId isMeant
    rw [agrees channel member] at isMeant
    exact members channel member isDm userId (complete userId isMeant)
  | drawn set id | drawnFor target id =>
    exact ⟨holds.1, newStays id ⟨_, phaseMem, rfl⟩ holds.2.1,
      fun n isLater => holds.2.2 n (later.trans isLater)⟩
  | posting target id => exact meantStays id [target] holds
  | seen id row =>
    obtain ⟨⟨channel, member, sameId, sameType⟩, rest⟩ := holds
    obtain ⟨kept, keptMem, keptId, keptType⟩ := stays channel member
    exact ⟨⟨kept, keptMem, keptId.trans sameId, keptType.trans sameType⟩, rest⟩

theorem PartiesWith.frame (sameChannels : moved.store.channels = world.store.channels)
    (sameMembers : ∀ channelId userId,
      moved.store.IsMember channelId userId ↔ world.store.IsMember channelId userId)
    (sameMessages : moved.store.messages = world.store.messages)
    (later : world.drawn ≤ moved.drawn) : PartiesWith names founded ids moved phases := by
  have parties := inv.parties
  apply inv.grow
  · constructor
    · rw [sameChannels]
      exact fun channel member n isLater =>
        parties.fresh channel member n (later.trans isLater)
    · intro channelId userId isMember
      rw [sameChannels]
      exact parties.membersIn channelId userId ((sameMembers _ _).mp isMember)
    · rw [sameMessages, sameChannels]
      exact parties.messagesIn
    · rw [sameChannels]
      exact parties.keys
    · rw [sameChannels]
      exact parties.keyed
    · rw [sameChannels]
      exact parties.isPrivate
    · rw [sameChannels]
      exact parties.hasKey
    · rw [sameChannels]
      exact fun channel member isDm userId isMember =>
        parties.joined channel member isDm userId ((sameMembers _ _).mp isMember)
    · rw [sameChannels, sameMessages]
      intro channel member isDm
      rcases parties.complete channel member isDm with complete | ⟨noMember, rest⟩
      · exact .inl fun userId isMeant => (sameMembers _ _).mpr (complete userId isMeant)
      · exact .inr ⟨fun userId isMember => noMember userId ((sameMembers _ _).mp isMember), rest⟩
  · rw [sameChannels]
    exact fun channel member => ⟨channel, member, rfl, rfl⟩
  · exact fun channel member isDm userId isMember => (sameMembers _ _).mpr isMember
  · exact fun channel member => rfl
  · rw [sameChannels]
    exact fun channel member => .inl ⟨channel, member, rfl⟩
  · exact later

/-- A channel keeps its type, its key and its creator; a direct message stays private. -/
theorem PartiesWith.updateChannel {next : ChannelRow} {version : Int}
    (isPrivate : ∀ channel ∈ world.store.channels, channel.id = next.id →
      channel.type = .dm → next.visibility = .isPrivate) :
    PartiesWith names founded ids
      { world with store := (world.store.updateChannel next version).2 } phases := by
  have parties := inv.parties
  have kept : ∀ channel ∈ (world.store.updateChannel next version).2.channels,
      ∃ old ∈ world.store.channels, old.id = channel.id ∧ old.type = channel.type ∧
        old.dmKey = channel.dmKey ∧ old.createdBy = channel.createdBy ∧
          (channel.visibility = old.visibility ∨
            (old.id = next.id ∧ channel.visibility = next.visibility)) := by
    intro channel member
    obtain ⟨old, oldMem, rfl⟩ := List.mem_map.mp member
    refine ⟨old, oldMem, ?_⟩
    split
    · rename_i isSelected
      exact ⟨rfl, rfl, rfl, rfl, .inr ⟨(of_decide_eq_true isSelected).1, rfl⟩⟩
    · exact ⟨rfl, rfl, rfl, rfl, .inl rfl⟩
  apply inv.grow
  · constructor
    · intro channel member
      obtain ⟨old, oldMem, sameId, -⟩ := kept channel member
      rw [← sameId]
      exact parties.fresh old oldMem
    · intro channelId userId isMember
      obtain ⟨old, oldMem, rfl⟩ := parties.membersIn channelId userId isMember
      refine ⟨_, mem_def.mpr (mem_map_of_mem oldMem), ?_⟩
      split
      · rfl
      · rfl
    · intro message member
      obtain ⟨old, oldMem, isOld⟩ := parties.messagesIn message member
      refine ⟨_, mem_def.mpr (mem_map_of_mem oldMem), ?_⟩
      split
      · exact isOld
      · exact isOld
    · intro first firstMem second secondMem isSome same
      obtain ⟨old, oldMem, sameId, -, sameKey, -⟩ := kept first firstMem
      obtain ⟨other, otherMem, otherId, -, otherKey, -⟩ := kept second secondMem
      rw [← sameId, ← otherId]
      apply parties.keys old oldMem other otherMem
      · rwa [sameKey]
      · rw [sameKey, otherKey, same]
    · intro channel member isSome
      obtain ⟨old, oldMem, -, sameType, sameKey, -⟩ := kept channel member
      rw [← sameType]
      exact parties.keyed old oldMem (by rwa [sameKey])
    · intro channel member isDm
      obtain ⟨old, oldMem, -, sameType, -, -, sameVisibility | ⟨isNext, isWritten⟩⟩ :=
        kept channel member
      · rw [sameVisibility]
        exact parties.isPrivate old oldMem (sameType.trans isDm)
      · rw [isWritten]
        exact isPrivate old oldMem isNext (sameType.trans isDm)
    · intro channel member isDm
      obtain ⟨old, oldMem, sameId, sameType, sameKey, -⟩ := kept channel member
      rw [← sameId, ← sameKey]
      exact parties.hasKey old oldMem (sameType.trans isDm)
    · intro channel member isDm
      obtain ⟨old, oldMem, sameId, sameType, -⟩ := kept channel member
      rw [← sameId]
      exact parties.joined old oldMem (sameType.trans isDm)
    · intro channel member isDm
      obtain ⟨old, oldMem, sameId, sameType, -, sameCreator, -⟩ := kept channel member
      rw [← sameId, ← sameCreator]
      exact parties.complete old oldMem (sameType.trans isDm)
  · intro old oldMem
    refine ⟨_, mem_def.mpr (mem_map_of_mem oldMem), ?_⟩
    split
    · exact ⟨rfl, rfl⟩
    · exact ⟨rfl, rfl⟩
  · exact fun channel member isDm userId => id
  · exact fun channel member => rfl
  · intro channel member
    obtain ⟨old, oldMem, sameId, -⟩ := kept channel member
    exact .inl ⟨old, oldMem, sameId⟩
  · exact le_rfl

omit inv in
theorem isMember_insertMembers {store : Store} {members : List MemberRow}
    {channelId userId : String} :
    (store.insertMembers members).IsMember channelId userId ↔ store.IsMember channelId userId ∨
        ∃ member ∈ members, member.channelId = channelId ∧ member.userId = userId := by
  constructor
  · rintro ⟨member, isIn, isMember⟩
    rcases mem_of_mem_foldl_insertOrIgnore isIn with old | new
    · exact .inl ⟨member, old, isMember⟩
    · exact .inr ⟨member, new, isMember⟩
  · intro given
    have found : ∃ member, (member ∈ store.members ∨ member ∈ members) ∧
        member.channelId = channelId ∧ member.userId = userId := by
      rcases given with ⟨member, old, isMember⟩ | ⟨member, new, isMember⟩
      · exact ⟨member, .inl old, isMember⟩
      · exact ⟨member, .inr new, isMember⟩
    obtain ⟨member, isIn, rfl, rfl⟩ := found
    obtain ⟨kept, keptMem, sameKey⟩ := exists_mem_foldl_insertOrIgnore isIn
    exact ⟨kept, keptMem, congrArg Prod.fst sameKey, congrArg Prod.snd sameKey⟩

theorem PartiesWith.insertMember {row : MemberRow}
    (isMeant : ∀ channel ∈ world.store.channels, channel.id = row.channelId →
      channel.type = .dm → ∀ userId, userId ∈ founded channel.id ↔ userId = row.userId) :
    PartiesWith names founded ids
      { world with store := (world.store.insertMember row).2 } phases := by
  unfold Store.insertMember
  split
  swap
  · exact inv
  rename_i hasChannel
  obtain ⟨present, presentMem, isPresent⟩ := selects_eq_true.mp hasChannel
  rw [decide_eq_true_iff] at isPresent
  have parties := inv.parties
  have isMember : ∀ channelId userId, (world.store.insertMembers [row]).IsMember channelId userId ↔
        world.store.IsMember channelId userId ∨
          (row.channelId = channelId ∧ row.userId = userId) := by
    intro channelId userId
    rw [isMember_insertMembers]
    simp
  apply inv.grow
  · constructor
    · exact parties.fresh
    · intro channelId userId joined
      rcases (isMember channelId userId).mp joined with old | ⟨rfl, -⟩
      · exact parties.membersIn channelId userId old
      · exact ⟨present, presentMem, isPresent⟩
    · exact parties.messagesIn
    · exact parties.keys
    · exact parties.keyed
    · exact parties.isPrivate
    · exact parties.hasKey
    · intro channel member isDm userId joined
      rcases (isMember channel.id userId).mp joined with old | ⟨isHere, rfl⟩
      · exact parties.joined channel member isDm userId old
      · exact (isMeant channel member isHere.symm isDm row.userId).mpr rfl
    · intro channel member isDm
      by_cases isHere : channel.id = row.channelId
      · left
        intro userId isParty
        have isRow := (isMeant channel member isHere isDm userId).mp isParty
        exact (isMember channel.id userId).mpr (.inr ⟨isHere.symm, isRow.symm⟩)
      · rcases parties.complete channel member isDm with complete | ⟨noMember, rest⟩
        · exact .inl fun userId isParty => (isMember _ _).mpr (.inl (complete userId isParty))
        · refine .inr ⟨?_, rest⟩
          intro userId joined
          rcases (isMember channel.id userId).mp joined with old | ⟨sameId, -⟩
          · exact noMember userId old
          · exact isHere sameId.symm
  · exact fun channel member => ⟨channel, member, rfl, rfl⟩
  · exact fun channel member isDm userId joined => (isMember _ _).mpr (.inl joined)
  · exact fun channel member => rfl
  · exact fun channel member => .inl ⟨channel, member, rfl⟩
  · exact le_rfl

theorem PartiesWith.deleteMember {channelId userId : String}
    (notDm : ∀ channel ∈ world.store.channels, channel.id = channelId → channel.type ≠ .dm) :
    PartiesWith names founded ids
      { world with store := (world.store.deleteMember channelId userId).2 } phases := by
  have parties := inv.parties
  have isMember : ∀ id user, (world.store.deleteMember channelId userId).2.IsMember id user ↔
      world.store.IsMember id user ∧ ¬(id = channelId ∧ user = userId) := by
    intro id user
    constructor
    · rintro ⟨member, isIn, rfl, rfl⟩
      obtain ⟨old, isElsewhere⟩ := mem_deleteWhere.mp isIn
      exact ⟨⟨member, old, rfl, rfl⟩, of_decide_eq_false isElsewhere⟩
    · rintro ⟨⟨member, old, rfl, rfl⟩, isElsewhere⟩
      exact ⟨member, mem_deleteWhere.mpr ⟨old, decide_eq_false isElsewhere⟩, rfl, rfl⟩
  have stays : ∀ channel ∈ world.store.channels, channel.type = .dm → ∀ user,
      world.store.IsMember channel.id user →
        (world.store.deleteMember channelId userId).2.IsMember channel.id user := by
    intro channel member isDm user joined
    exact (isMember _ _).mpr ⟨joined, fun isIt => notDm channel member isIt.1 isDm⟩
  apply inv.grow
  · constructor
    · exact parties.fresh
    · exact fun id user joined => parties.membersIn id user ((isMember id user).mp joined).1
    · exact parties.messagesIn
    · exact parties.keys
    · exact parties.keyed
    · exact parties.isPrivate
    · exact parties.hasKey
    · exact fun channel member isDm user joined =>
        parties.joined channel member isDm user ((isMember _ _).mp joined).1
    · intro channel member isDm
      rcases parties.complete channel member isDm with complete | ⟨noMember, rest⟩
      · exact .inl fun user isParty => stays channel member isDm user (complete user isParty)
      · exact .inr ⟨fun user joined => noMember user ((isMember _ _).mp joined).1, rest⟩
  · exact fun channel member => ⟨channel, member, rfl, rfl⟩
  · exact stays
  · exact fun channel member => rfl
  · exact fun channel member => .inl ⟨channel, member, rfl⟩
  · exact le_rfl

theorem PartiesWith.insertMessage {row : MessageRow}
    (hasMember : ∀ channel ∈ world.store.channels, channel.id = row.channelId →
      channel.type = .dm → ∃ userId, world.store.IsMember channel.id userId) :
    PartiesWith names founded ids
      { world with store := (world.store.insertMessage row).2 } phases := by
  unfold Store.insertMessage
  split
  swap
  · exact inv
  rename_i hasChannel
  obtain ⟨present, presentMem, isPresent⟩ := selects_eq_true.mp hasChannel
  rw [decide_eq_true_iff] at isPresent
  split
  · exact inv
  rename_i messages inserted
  have parties := inv.parties
  apply inv.grow
  · constructor
    · exact parties.fresh
    · exact parties.membersIn
    · intro message member
      rcases (mem_insert? inserted).mp member with old | rfl
      · exact parties.messagesIn message old
      · exact ⟨present, presentMem, isPresent⟩
    · exact parties.keys
    · exact parties.keyed
    · exact parties.isPrivate
    · exact parties.hasKey
    · exact parties.joined
    · intro channel member isDm
      rcases parties.complete channel member isDm with complete | ⟨noMember, noMessage, rest⟩
      · exact .inl complete
      · refine .inr ⟨noMember, ?_, rest⟩
        intro message messageMem isHere
        rcases (mem_insert? inserted).mp messageMem with old | rfl
        · exact noMessage message old isHere
        · obtain ⟨userId, isMember⟩ := hasMember channel member isHere.symm isDm
          exact noMember userId isMember
  · exact fun channel member => ⟨channel, member, rfl, rfl⟩
  · exact fun channel member isDm userId => id
  · exact fun channel member => rfl
  · exact fun channel member => .inl ⟨channel, member, rfl⟩
  · exact le_rfl

def Store.withChannel (store : Store) (row : ChannelRow) (members : List MemberRow) : Store :=
  ({ store with channels := store.channels.insertOrIgnore row } : Store).insertMembers members

omit inv in
theorem Store.mem_withChannel {store : Store} {row channel : ChannelRow}
    {members : List MemberRow} (isFresh : ∀ channel ∈ store.channels, channel.id ≠ row.id) :
    channel ∈ (store.withChannel row members).channels ↔
      channel ∈ store.channels ∨ channel = row := by
  constructor
  · intro member
    rcases mem_insertOrIgnore.mp member with old | ⟨isRow, -⟩
    · exact .inl old
    · exact .inr isRow
  · rintro (old | rfl)
    · exact mem_insertOrIgnore.mpr (.inl old)
    · exact mem_insertOrIgnore.mpr (.inr ⟨rfl, isFresh⟩)

section

variable {members : List MemberRow} {row : ChannelRow}
  (ofRow : ∀ member ∈ members, member.channelId = row.id)
include ofRow

omit inv in
theorem Store.isMember_withChannel {store : Store} {channelId userId : String} :
    (store.withChannel row members).IsMember channelId userId ↔ store.IsMember channelId userId ∨
        (channelId = row.id ∧ userId ∈ members.map MemberRow.userId) := by
  rw [Store.withChannel, isMember_insertMembers]
  apply or_congr Iff.rfl
  rw [List.mem_map]
  constructor
  · rintro ⟨member, listed, rfl, rfl⟩
    exact ⟨ofRow member listed, member, listed, rfl⟩
  · rintro ⟨rfl, member, listed, rfl⟩
    exact ⟨member, listed, ofRow member listed, rfl⟩

omit inv ofRow in
theorem Store.insertChannel_cases (store : Store) (row : ChannelRow) :
    ((∃ thrown, (store.insertChannel row).1 = .error thrown) ∧
        (store.insertChannel row).2 = store) ∨
      (store.dmKeyTaken row = false ∧ store.insertChannel row = (.ok (), store.withChannel row [])) := by
  unfold Store.insertChannel
  split
  · exact .inl ⟨⟨_, rfl⟩, rfl⟩
  · rename_i notTaken
    split
    · exact .inl ⟨⟨_, rfl⟩, rfl⟩
    · rename_i channels inserted
      refine .inr ⟨by simpa using notTaken, ?_⟩
      have isInserted : store.channels.insertOrIgnore row = channels := by
        rw [KeyedTable.insertOrIgnore, inserted, Option.getD_some]
      rw [← isInserted]
      rfl

omit inv in
/-- A batch with a new id creates the channel with its members, or does nothing. -/
theorem Store.insertChannelWithMembers_cases {store : Store}
    (isFresh : ∀ channel ∈ store.channels, channel.id ≠ row.id) :
    store.insertChannelWithMembers row members = (.ok false, store) ∨
      (store.dmKeyTaken row = false ∧
        store.insertChannelWithMembers row members = (.ok true, store.withChannel row members)) := by
  have isAbsent : store.hasChannel row.id = false := by
    rw [Bool.eq_false_iff]
    intro isPresent
    obtain ⟨channel, member, isRow⟩ := selects_eq_true.mp isPresent
    exact isFresh channel member (of_decide_eq_true isRow)
  unfold Store.insertChannelWithMembers
  cases isTaken : store.dmKeyTaken row with
  | true => simp [isAbsent]
  | false =>
    have isPresent : ({ store with channels := store.channels.insertOrIgnore row } :
        Store).hasChannel row.id = true := by
      apply selects_eq_true.mpr
      refine ⟨row, mem_insertOrIgnore.mpr (.inr ⟨rfl, isFresh⟩), by simp⟩
    right
    refine ⟨rfl, ?_⟩
    simp only [isAbsent, Bool.not_false, Bool.and_self, if_true, isPresent]
    rw [if_pos]
    · rfl
    · rw [all_eq_true]
      intro member isMember
      rwa [ofRow member isMember]

theorem PartiesWith.create {set : List String}
    (isFresh : ∀ channel ∈ world.store.channels, channel.id ≠ row.id)
    (isDrawn : ∀ n, world.drawn ≤ n → ids.channel n ≠ row.id)
    (notTaken : world.store.dmKeyTaken row = false)
    (away : ∀ other ∈ phases, other.unused ≠ some row.id)
    (keyed : row.dmKey.isSome → row.type = .dm)
    (isDm : row.type = .dm → row.visibility = .isPrivate ∧ row.dmKey = some (dmKey set) ∧
      names.parties set ∧ ((members = [] ∧ set = [row.createdBy]) ∨
        members.map MemberRow.userId = set)) :
    PartiesWith names (update founded row.id set) ids
      { world with store := world.store.withChannel row members } phases := by
  have parties := inv.parties
  have isIn : ∀ channel, channel ∈ (world.store.withChannel row members).channels ↔
      channel ∈ world.store.channels ∨ channel = row := fun _ => Store.mem_withChannel isFresh
  have stays : ∀ channel ∈ world.store.channels,
      channel ∈ (world.store.withChannel row members).channels :=
    fun channel member => (isIn channel).mpr (.inl member)
  have both : ∀ {tells : ChannelRow → Prop}, (∀ channel ∈ world.store.channels, tells channel) →
      tells row → ∀ channel ∈ (world.store.withChannel row members).channels, tells channel := by
    intro tells ofOld ofRow channel member
    rcases (isIn channel).mp member with old | rfl
    · exact ofOld channel old
    · exact ofRow
  have isMember : ∀ channelId userId,
      (world.store.withChannel row members).IsMember channelId userId ↔
        world.store.IsMember channelId userId ∨
          (channelId = row.id ∧ userId ∈ members.map MemberRow.userId) :=
    fun _ _ => Store.isMember_withChannel ofRow
  have noMember : ∀ userId, ¬world.store.IsMember row.id userId := by
    intro userId joined
    obtain ⟨channel, member, isRow⟩ := parties.membersIn row.id userId joined
    exact isFresh channel member isRow
  have isOld : ∀ channel ∈ world.store.channels,
      update founded row.id set channel.id = founded channel.id :=
    fun channel member => update_of_ne (isFresh channel member) set founded
  have keyFree : ∀ channel ∈ world.store.channels, row.dmKey.isSome →
      channel.dmKey ≠ row.dmKey := by
    intro channel member isSome sameKey
    have isTaken : world.store.dmKeyTaken row = true := by
      rw [Store.dmKeyTaken, Bool.and_eq_true]
      exact ⟨isSome, selects_eq_true.mpr ⟨channel, member, decide_eq_true sameKey⟩⟩
    rw [notTaken] at isTaken
    cases isTaken
  apply inv.grow
  · constructor
    · exact both parties.fresh isDrawn
    · intro channelId userId joined
      rcases (isMember channelId userId).mp joined with old | ⟨rfl, -⟩
      · obtain ⟨channel, member, isChannel⟩ := parties.membersIn channelId userId old
        exact ⟨channel, stays channel member, isChannel⟩
      · exact ⟨row, (isIn row).mpr (.inr rfl), rfl⟩
    · intro message member
      obtain ⟨channel, channelMem, isChannel⟩ := parties.messagesIn message member
      exact ⟨channel, stays channel channelMem, isChannel⟩
    · intro first firstMem second secondMem isSome sameKey
      rcases (isIn first).mp firstMem with old | rfl
      · rcases (isIn second).mp secondMem with other | rfl
        · exact parties.keys first old second other isSome sameKey
        · exact absurd sameKey (keyFree first old (sameKey ▸ isSome))
      · rcases (isIn second).mp secondMem with other | rfl
        · exact absurd sameKey.symm (keyFree second other isSome)
        · rfl
    · exact both parties.keyed keyed
    · exact both parties.isPrivate fun isDirect => (isDm isDirect).1
    · intro channel member isDirect
      rcases (isIn channel).mp member with old | rfl
      · rw [isOld channel old]
        exact parties.hasKey channel old isDirect
      · rw [update_self]
        exact ⟨(isDm isDirect).2.1, (isDm isDirect).2.2.1⟩
    · intro channel member isDirect userId joined
      rcases (isIn channel).mp member with old | rfl
      · rw [isOld channel old]
        rcases (isMember channel.id userId).mp joined with oldMember | ⟨isRow, -⟩
        · exact parties.joined channel old isDirect userId oldMember
        · exact absurd isRow (isFresh channel old)
      · rw [update_self]
        rcases (isMember channel.id userId).mp joined with oldMember | ⟨-, listed⟩
        · exact absurd oldMember (noMember userId)
        · rcases (isDm isDirect).2.2.2 with ⟨rfl, -⟩ | rfl
          · cases listed
          · exact listed
    · intro channel member isDirect
      rcases (isIn channel).mp member with old | rfl
      · rw [Store.IsComplete, isOld channel old]
        rcases parties.complete channel old isDirect with complete | ⟨isEmpty, rest⟩
        · exact .inl fun userId isParty => (isMember _ _).mpr (.inl (complete userId isParty))
        · refine .inr ⟨?_, rest⟩
          intro userId joined
          rcases (isMember channel.id userId).mp joined with oldMember | ⟨isRow, -⟩
          · exact isEmpty userId oldMember
          · exact isFresh channel old isRow
      · rw [Store.IsComplete, update_self]
        rcases (isDm isDirect).2.2.2 with ⟨rfl, isCreator⟩ | rfl
        · refine .inr ⟨?_, ?_, isCreator⟩
          · intro userId joined
            rcases (isMember channel.id userId).mp joined with oldMember | ⟨-, listed⟩
            · exact noMember userId oldMember
            · cases listed
          · intro message messageMem isHere
            obtain ⟨other, otherMem, isOther⟩ := parties.messagesIn message messageMem
            exact isFresh other otherMem (isOther.trans isHere)
        · exact .inl fun userId isParty => (isMember _ _).mpr (.inr ⟨rfl, isParty⟩)
  · exact fun channel member => ⟨channel, stays channel member, rfl, rfl⟩
  · exact fun channel member isDirect userId joined => (isMember _ _).mpr (.inl joined)
  · exact isOld
  · exact both (fun channel old => .inl ⟨channel, old, rfl⟩) (.inr away)
  · exact le_rfl

end

end

end DubEcosystem.Chat
