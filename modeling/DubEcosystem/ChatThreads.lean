import DubEcosystem.ChatFootprint

/-!
# chat-service: every message stays reachable

A reply names a root, and the main timeline lists only messages without one.  The root of a
reply stays what it was found to be when replies go under top-level messages only, and when
no message is erased while a reply to it is on its way.
-/

namespace DubEcosystem.Chat

open Interleaving PortPrograms List KeyedTable

def Operation.onMessages : Operation → Bool
  | .postMessage _ _ => true
  | .editMessage _ _ _ _ => true
  | .deleteMessage _ _ => true
  | .toggleReaction _ _ _ => true
  | .togglePin _ _ _ => true
  | .deleteChannel _ _ => true
  | _ => false

/-- The main timeline of its channel lists the message, in a page that is long enough. -/
def Store.OnTimeline (store : Store) (message : MessageRow) : Prop :=
  ∃ limit, message ∈ store.selectMessages ⟨message.channelId, none, none, none, limit⟩

def Store.InThread (store : Store) (root message : MessageRow) : Prop :=
  ∃ limit, message ∈ store.selectMessages ⟨root.channelId, some root.id, none, none, limit⟩

structure Store.EachReachable (store : Store) : Prop where
  roots : ∀ message ∈ store.messages, ∀ rootId, message.threadRootId = some rootId →
    ∃ root ∈ store.messages, root.id = rootId ∧ root.channelId = message.channelId ∧
      root.threadRootId = none
  listed : ∀ message ∈ store.messages, store.OnTimeline message ∨
    ∃ root ∈ store.messages, store.OnTimeline root ∧ store.InThread root message
  reactions : ∀ reaction ∈ store.reactions, ∃ message ∈ store.messages,
    message.id = reaction.messageId
  pins : ∀ pin ∈ store.pins, ∃ message ∈ store.messages,
    message.id = pin.messageId ∧ message.channelId = pin.channelId

/-- The messages are in channels, and their ids are not to be drawn again. -/
structure World.Proper (ids : Ids) (world : World) : Prop where
  channels : ∀ message ∈ world.store.messages, ∃ channel ∈ world.store.channels,
    channel.id = message.channelId
  fresh : ∀ message ∈ world.store.messages, ∀ n, world.drawn ≤ n → ids.message n ≠ message.id

/-- From a store in which every message can be reached, only such stores are reached. -/
def EveryMessageReachable (condition : RunCondition chatSignature World Operation) (ids : Ids)
    (toLowerCase : String → String) : Prop :=
  ∀ world config, world.Proper ids → world.store.EachReachable →
    (chatSystem ids toLowerCase Operation.onMessages).ReachableUnder condition world config →
      config.world.store.EachReachable

/-- The operation has found the root of a reply, and has still to store the reply. -/
def repliesTo (rootId : String) (thread : Operation × Prog chatSignature Unit) : Prop :=
  thread.2.MayReach (fun request : Call => request = .db (.selectMessage rootId))
    fun request : Call =>
      ∃ row, request = .db (.insertMessage row) ∧ row.threadRootId = some rootId

def erases (messageId : String) (thread : Operation × Prog chatSignature Unit) : Prop :=
  thread.2.MayReach (fun request : Call => request = .db (.deleteReplies messageId))
    fun request : Call => request = .db (.deleteMessage messageId)

/-- A reply goes under a message that is not a reply itself, and not between the deletion of
the replies of its root and that of the root; no message is deleted between the check of a
root and the storing of the reply. -/
def keepsRoots : RunCondition chatSignature World Operation where
  mayCall request world others :=
    match request with
    | .db (.insertMessage row) => ∀ rootId, row.threadRootId = some rootId →
        (∀ root ∈ world.store.messages, root.id = rootId → root.threadRootId = none) ∧
          ∀ thread ∈ others, ¬erases rootId thread
    | .db (.deleteReplies messageId) => ∀ message ∈ world.store.messages,
        message.threadRootId = some messageId → ∀ thread ∈ others, ¬repliesTo message.id thread
    | .db (.deleteMessage messageId) => ∀ thread ∈ others, ¬repliesTo messageId thread
    | _ => True
  mayStop _ := True

variable {store : Store} {message root : MessageRow}

theorem mem_selectMessages (message : MessageRow) (threadRootId : Option String)
    (member : message ∈ store.messages) (isRoot : message.threadRootId = threadRootId) :
    ∃ limit, message ∈
      store.selectMessages ⟨message.channelId, threadRootId, none, none, limit⟩ := by
  refine ⟨-1, ?_⟩
  have listed : message ∈ store.messages.rows := member
  simp [Store.selectMessages, Store.limited, Store.descending, listed, isRoot]

theorem Store.listed_of_roots
    (roots : ∀ message ∈ store.messages, ∀ rootId, message.threadRootId = some rootId →
      ∃ root ∈ store.messages, root.id = rootId ∧ root.channelId = message.channelId ∧
        root.threadRootId = none)
    (member : message ∈ store.messages) :
    store.OnTimeline message ∨
      ∃ root ∈ store.messages, store.OnTimeline root ∧ store.InThread root message := by
  cases isRoot : message.threadRootId with
  | none => exact .inl (mem_selectMessages message none member isRoot)
  | some rootId =>
    obtain ⟨root, rootMem, rfl, sameChannel, onTop⟩ := roots message member rootId isRoot
    refine .inr ⟨root, rootMem, mem_selectMessages root none rootMem onTop, ?_⟩
    rw [Store.InThread, sameChannel]
    exact mem_selectMessages message (some root.id) member isRoot

/-- What an operation relies on between two of its calls. -/
inductive Phase where
  | calm
  /-- The root of a reply was found in the channel. -/
  | checked (rootId channelId : String)
  /-- The id of a message is drawn, which may be a reply. -/
  | storing (id channelId : String) (rootId : Option String)
  /-- The message to be pinned was found in the channel. -/
  | pinning (channelId messageId : String)
  /-- The replies to a message are deleted. -/
  | clearing (messageId : String)

def Store.HasRoot (store : Store) (rootId channelId : String) : Prop :=
  (∃ root ∈ store.messages, root.id = rootId ∧ root.channelId = channelId) ∨
    ∀ channel ∈ store.channels, channel.id ≠ channelId

def Phase.Holds (ids : Ids) (world : World) : Phase → Prop
  | .calm => True
  | .checked rootId channelId => world.store.HasRoot rootId channelId
  | .storing id channelId rootId =>
    (∀ message ∈ world.store.messages, message.id ≠ id) ∧
      (∀ n, world.drawn ≤ n → ids.message n ≠ id) ∧
        ∀ root, rootId = some root → world.store.HasRoot root channelId
  | .pinning channelId messageId =>
    (∀ message ∈ world.store.messages, message.id = messageId → message.channelId = channelId) ∧
        ∀ n, world.drawn ≤ n → ids.message n ≠ messageId
  | .clearing messageId =>
    ∀ message ∈ world.store.messages, message.threadRootId ≠ some messageId

def Phase.Apart : Phase → Phase → Prop
  | .storing id _ _, .storing other _ _ => id ≠ other
  | .storing id _ _, .pinning _ messageId => id ≠ messageId
  | .pinning _ messageId, .storing id _ _ => id ≠ messageId
  | _, _ => True

theorem Phase.Apart.symm {first second : Phase} (apart : first.Apart second) :
    second.Apart first := by
  cases first <;> cases second <;> first | exact apart | exact Ne.symm apart

theorem Phase.apart_calm (phase : Phase) : Phase.calm.Apart phase := by
  cases phase <;> trivial

structure Threaded (ids : Ids) (world : World) (phases : List Phase) : Prop where
  proper : world.Proper ids
  roots : ∀ message ∈ world.store.messages, ∀ rootId, message.threadRootId = some rootId →
    ∃ root ∈ world.store.messages, root.id = rootId ∧ root.channelId = message.channelId ∧
      root.threadRootId = none
  reactions : ∀ reaction ∈ world.store.reactions, ∃ message ∈ world.store.messages,
    message.id = reaction.messageId
  pins : ∀ pin ∈ world.store.pins, ∃ message ∈ world.store.messages,
    message.id = pin.messageId ∧ message.channelId = pin.channelId
  holds : ∀ phase ∈ phases, phase.Holds ids world
  apart : phases.Pairwise Phase.Apart

variable {ids : Ids} {world : World} {phases : List Phase} {phase after : Phase}

theorem Threaded.eachReachable (threaded : Threaded ids world phases) : world.store.EachReachable :=
  ⟨threaded.roots, fun _ => Store.listed_of_roots threaded.roots, threaded.reactions, threaded.pins⟩

theorem Threaded.perm (threaded : Threaded ids world phases) {reordered : List Phase}
    (perm : phases.Perm reordered) : Threaded ids world reordered :=
  ⟨threaded.proper, threaded.roots, threaded.reactions, threaded.pins,
    fun phase member => threaded.holds phase (perm.mem_iff.mpr member),
    (perm.pairwise_iff fun apart => apart.symm).mp threaded.apart⟩

theorem Threaded.tail (threaded : Threaded ids world (phase :: phases)) :
    Threaded ids world phases :=
  ⟨threaded.proper, threaded.roots, threaded.reactions, threaded.pins,
    fun other member => threaded.holds other (mem_cons_of_mem phase member),
    (pairwise_cons.mp threaded.apart).2⟩

theorem Threaded.enter (threaded : Threaded ids world phases) (holds : phase.Holds ids world)
    (apart : ∀ other ∈ phases, phase.Apart other) : Threaded ids world (phase :: phases) := by
  refine ⟨threaded.proper, threaded.roots, threaded.reactions, threaded.pins, ?_,
    pairwise_cons.mpr ⟨apart, threaded.apart⟩⟩
  exact forall_mem_cons.mpr ⟨holds, threaded.holds⟩

theorem Threaded.calm (threaded : Threaded ids world phases) :
    Threaded ids world (.calm :: phases) :=
  threaded.enter trivial fun other _ => other.apart_calm

/-- Messages change in what does not place them, or go with their channel; what refers to a
message goes with it. -/
structure Store.Shrinks (before after : Store) : Prop where
  kept : ∀ message ∈ after.messages, ∃ old ∈ before.messages, old.id = message.id ∧
    old.channelId = message.channelId ∧ old.threadRootId = message.threadRootId
  lost : ∀ old ∈ before.messages, (∃ message ∈ after.messages, message.id = old.id ∧
    message.channelId = old.channelId ∧ message.threadRootId = old.threadRootId) ∨
      ∀ channel ∈ after.channels, channel.id ≠ old.channelId
  gone : ∀ channel ∈ after.channels, ∃ old ∈ before.channels, old.id = channel.id
  channels : (∀ message ∈ before.messages, ∃ channel ∈ before.channels,
      channel.id = message.channelId) →
    ∀ message ∈ after.messages, ∃ channel ∈ after.channels, channel.id = message.channelId
  reactions : (∀ reaction ∈ before.reactions, ∃ message ∈ before.messages,
      message.id = reaction.messageId) →
    ∀ reaction ∈ after.reactions, ∃ message ∈ after.messages, message.id = reaction.messageId
  pins : (∀ pin ∈ before.pins, ∃ message ∈ before.messages,
      message.id = pin.messageId ∧ message.channelId = pin.channelId) →
    ∀ pin ∈ after.pins, ∃ message ∈ after.messages,
      message.id = pin.messageId ∧ message.channelId = pin.channelId

variable {before after : Store}

theorem Store.Shrinks.of_references (sameMessages : after.messages = before.messages)
    (sameChannels : after.channels = before.channels)
    (reactions : ∀ reaction ∈ after.reactions, reaction ∈ before.reactions ∨
      ∃ message ∈ before.messages, message.id = reaction.messageId)
    (pins : ∀ pin ∈ after.pins, pin ∈ before.pins) : before.Shrinks after := by
  constructor
  · intro message member
    rw [sameMessages] at member
    exact ⟨message, member, rfl, rfl, rfl⟩
  · intro old member
    rw [sameMessages]
    exact .inl ⟨old, member, rfl, rfl, rfl⟩
  · intro channel member
    rw [sameChannels] at member
    exact ⟨channel, member, rfl⟩
  · rw [sameMessages, sameChannels]
    exact id
  · intro known reaction member
    rw [sameMessages]
    rcases reactions reaction member with old | found
    · exact known reaction old
    · exact found
  · intro known pin member
    rw [sameMessages]
    exact known pin (pins pin member)

theorem Store.Shrinks.refl (store : Store) : store.Shrinks store :=
  .of_references rfl rfl (fun _ => .inl) fun _ => id

theorem Store.shrinks_updateChannel (store : Store) (next : ChannelRow) (version : Int) :
    store.Shrinks (store.updateChannel next version).2 := by
  have sameIds : ∀ id, (∃ channel ∈ (store.updateChannel next version).2.channels,
      channel.id = id) ↔ ∃ channel ∈ store.channels, channel.id = id := by
    intro id
    constructor
    · rintro ⟨channel, member, isId⟩
      obtain ⟨old, oldMem, rfl⟩ := List.mem_map.mp member
      refine ⟨old, oldMem, ?_⟩
      split at isId
      · exact isId
      · exact isId
    · rintro ⟨old, oldMem, isId⟩
      refine ⟨_, mem_def.mpr (mem_map_of_mem oldMem), ?_⟩
      split
      · exact isId
      · exact isId
  constructor
  · exact fun message member => ⟨message, member, rfl, rfl, rfl⟩
  · exact fun old member => .inl ⟨old, member, rfl, rfl, rfl⟩
  · exact fun channel member => (sameIds channel.id).mp ⟨channel, member, rfl⟩
  · exact fun known message member => (sameIds _).mpr (known message member)
  · exact fun known reaction member => known reaction member
  · exact fun known pin member => known pin member

theorem Store.shrinks_updateMessage (store : Store) (next : MessageRow) (version : Int) :
    store.Shrinks (store.updateMessage next version).2 := by
  have kept : ∀ message ∈ (store.updateMessage next version).2.messages,
      ∃ old ∈ store.messages, old.id = message.id ∧ old.channelId = message.channelId ∧
        old.threadRootId = message.threadRootId := by
    intro message member
    obtain ⟨old, oldMem, rfl⟩ := List.mem_map.mp member
    refine ⟨old, oldMem, ?_⟩
    split
    · exact ⟨rfl, rfl, rfl⟩
    · exact ⟨rfl, rfl, rfl⟩
  have placed : ∀ old ∈ store.messages,
      ∃ message ∈ (store.updateMessage next version).2.messages, message.id = old.id ∧
        message.channelId = old.channelId ∧ message.threadRootId = old.threadRootId := by
    intro old oldMem
    refine ⟨_, mem_def.mpr (mem_map_of_mem oldMem), ?_⟩
    split
    · exact ⟨rfl, rfl, rfl⟩
    · exact ⟨rfl, rfl, rfl⟩
  constructor
  · exact kept
  · exact fun old member => .inl (placed old member)
  · exact fun channel member => ⟨channel, member, rfl⟩
  · intro known message member
    obtain ⟨old, oldMem, -, sameChannel, -⟩ := kept message member
    rw [← sameChannel]
    exact known old oldMem
  · intro known reaction member
    obtain ⟨old, oldMem, isOld⟩ := known reaction member
    obtain ⟨message, messageMem, sameId, -, -⟩ := placed old oldMem
    exact ⟨message, messageMem, sameId.trans isOld⟩
  · intro known pin member
    obtain ⟨old, oldMem, isOld, inChannel⟩ := known pin member
    obtain ⟨message, messageMem, sameId, sameChannel, -⟩ := placed old oldMem
    exact ⟨message, messageMem, sameId.trans isOld, sameChannel.trans inChannel⟩

theorem Store.shrinks_deleteChannel (store : Store) (channelId : String) :
    store.Shrinks (store.deleteChannel channelId) := by
  have isKept : ∀ message, message ∈ (store.deleteChannel channelId).messages ↔
      message ∈ store.messages ∧ message.channelId ≠ channelId := by
    intro message
    simp [Store.deleteChannel]
  have isOpen : ∀ channel, channel ∈ (store.deleteChannel channelId).channels ↔
      channel ∈ store.channels ∧ channel.id ≠ channelId := by
    intro channel
    simp [Store.deleteChannel]
  have elsewhere : ∀ message ∈ store.messages,
      store.isOfChannel channelId message.id = false → message.channelId ≠ channelId := by
    rintro message member isElsewhere rfl
    have isHere : store.isOfChannel message.channelId message.id = true := by
      unfold Store.isOfChannel
      exact selects_eq_true.mpr ⟨message, member, by simp⟩
    rw [isHere] at isElsewhere
    cases isElsewhere
  constructor
  · exact fun message member => ⟨message, ((isKept message).mp member).1, rfl, rfl, rfl⟩
  · intro old member
    by_cases inChannel : old.channelId = channelId
    · right
      intro channel channelMem
      rw [inChannel]
      exact ((isOpen channel).mp channelMem).2
    · exact .inl ⟨old, (isKept old).mpr ⟨member, inChannel⟩, rfl, rfl, rfl⟩
  · exact fun channel member => ⟨channel, ((isOpen channel).mp member).1, rfl⟩
  · intro known message member
    obtain ⟨messageMem, isElsewhere⟩ := (isKept message).mp member
    obtain ⟨channel, channelMem, isChannel⟩ := known message messageMem
    exact ⟨channel, (isOpen channel).mpr ⟨channelMem, by rwa [isChannel]⟩, isChannel⟩
  · intro known reaction member
    obtain ⟨reactionMem, isElsewhere⟩ := mem_deleteWhere.mp member
    obtain ⟨message, messageMem, isMessage⟩ := known reaction reactionMem
    rw [← isMessage] at isElsewhere
    exact ⟨message, (isKept message).mpr ⟨messageMem, elsewhere message messageMem isElsewhere⟩,
      isMessage⟩
  · intro known pin member
    obtain ⟨pinMem, isElsewhere⟩ := mem_deleteWhere.mp member
    obtain ⟨message, messageMem, isMessage, inChannel⟩ := known pin pinMem
    rw [Bool.or_eq_false_iff, ← isMessage] at isElsewhere
    exact ⟨message, (isKept message).mpr ⟨messageMem, elsewhere message messageMem isElsewhere.2⟩,
      isMessage, inChannel⟩

def Statement.IsCalm : Statement → Prop
  | .insertChannel _ => False
  | .insertChannelWithMembers _ _ => False
  | .selectMessage _ => False
  | .insertMessage _ => False
  | .insertPin _ => False
  | .deleteReplies _ => False
  | .deleteMessage _ => False
  | _ => True

theorem Store.shrinks_of_isCalm {statement : Statement} (isCalm : statement.IsCalm)
    (store : Store) : store.Shrinks (store.exec statement).2 := by
  have still : ∀ after : Store, after.messages = store.messages →
      after.channels = store.channels → after.reactions = store.reactions →
        after.pins = store.pins → store.Shrinks after := by
    intro after sameMessages sameChannels sameReactions samePins
    apply Store.Shrinks.of_references sameMessages sameChannels
    · rw [sameReactions]
      exact fun _ => .inl
    · rw [samePins]
      exact fun _ => id
  cases statement with
  | insertChannel row | insertChannelWithMembers row members | selectMessage id | insertMessage row
  | insertPin row | deleteReplies messageId | deleteMessage messageId =>
    exact isCalm.elim
  | updateChannel next version => exact store.shrinks_updateChannel next version
  | updateMessage next version => exact store.shrinks_updateMessage next version
  | deleteChannel channelId => exact store.shrinks_deleteChannel channelId
  | insertReaction row =>
    change store.Shrinks (store.insertReaction row).2
    unfold Store.insertReaction
    split
    · rename_i found
      obtain ⟨message, member, isMessage⟩ := selects_eq_true.mp found
      refine .of_references rfl rfl ?_ fun _ => id
      intro reaction reactionMem
      rcases mem_insertOrIgnore.mp reactionMem with old | ⟨rfl, -⟩
      · exact .inl old
      · exact .inr ⟨message, member, of_decide_eq_true isMessage⟩
    · exact .refl store
  | deleteReaction messageId emoji userId | deleteReactionsOf messageId =>
    exact .of_references rfl rfl
      (fun reaction member => .inl (mem_deleteWhere.mp member).1) fun _ => id
  | deletePin channelId messageId | deletePinsOf messageId =>
    exact .of_references rfl rfl (fun _ => .inl) fun pin member => (mem_deleteWhere.mp member).1
  | insertMember row =>
    change store.Shrinks (store.insertMember row).2
    unfold Store.insertMember
    split
    · exact still _ rfl rfl rfl rfl
    · exact .refl store
  | insertReadState row =>
    change store.Shrinks (store.insertReadState row).2
    unfold Store.insertReadState
    split
    · exact still _ rfl rfl rfl rfl
    · exact .refl store
  | insertSection row =>
    change store.Shrinks (store.insertSection row).2
    unfold Store.insertSection
    split
    · exact .refl store
    · exact still _ rfl rfl rfl rfl
  | upsertAssignment row =>
    change store.Shrinks (store.upsertAssignment row).2
    unfold Store.upsertAssignment
    split
    · exact still _ rfl rfl rfl rfl
    · exact .refl store
  | _ => exact still _ rfl rfl rfl rfl

variable {moved : World}

theorem Store.HasRoot.shrink {after : Store} {rootId channelId : String}
    (hasRoot : store.HasRoot rootId channelId) (shrinks : store.Shrinks after) :
    after.HasRoot rootId channelId := by
  rcases hasRoot with ⟨root, member, rfl, rfl⟩ | noChannel
  · rcases shrinks.lost root member with ⟨kept, keptMem, sameId, sameChannel, -⟩ | noChannel
    · exact .inl ⟨kept, keptMem, sameId, sameChannel⟩
    · exact .inr noChannel
  · right
    intro channel member
    obtain ⟨old, oldMem, sameId⟩ := shrinks.gone channel member
    rw [← sameId]
    exact noChannel old oldMem

theorem Phase.Holds.shrink (holds : phase.Holds ids world)
    (shrinks : world.store.Shrinks moved.store) (sameDrawn : moved.drawn = world.drawn) :
    phase.Holds ids moved := by
  cases phase with
  | calm => trivial
  | checked rootId channelId => exact Store.HasRoot.shrink holds shrinks
  | storing id channelId rootId =>
    obtain ⟨isNew, isDrawn, hasRoot⟩ := holds
    refine ⟨?_, by rwa [sameDrawn], fun root isRoot => (hasRoot root isRoot).shrink shrinks⟩
    intro message member
    obtain ⟨old, oldMem, sameId, -⟩ := shrinks.kept message member
    rw [← sameId]
    exact isNew old oldMem
  | pinning channelId messageId =>
    obtain ⟨inChannel, isDrawn⟩ := holds
    refine ⟨?_, by rwa [sameDrawn]⟩
    intro message member isMessage
    obtain ⟨old, oldMem, sameId, sameChannel, -⟩ := shrinks.kept message member
    rw [← sameChannel]
    exact inChannel old oldMem (sameId.trans isMessage)
  | clearing messageId =>
    intro message member
    obtain ⟨old, oldMem, -, -, sameRoot⟩ := shrinks.kept message member
    rw [← sameRoot]
    exact holds old oldMem

theorem Threaded.shrink (threaded : Threaded ids world phases)
    (shrinks : world.store.Shrinks moved.store) (sameDrawn : moved.drawn = world.drawn) :
    Threaded ids moved phases := by
  have inChannels := shrinks.channels threaded.proper.channels
  refine ⟨⟨inChannels, ?_⟩, ?_, shrinks.reactions threaded.reactions, shrinks.pins threaded.pins,
    fun phase member => (threaded.holds phase member).shrink shrinks sameDrawn,
    threaded.apart⟩
  · intro message member
    obtain ⟨old, oldMem, sameId, -⟩ := shrinks.kept message member
    rw [← sameId, sameDrawn]
    exact threaded.proper.fresh old oldMem
  · intro message member rootId isRoot
    obtain ⟨old, oldMem, -, sameChannel, sameRoot⟩ := shrinks.kept message member
    obtain ⟨root, rootMem, isRootId, inChannel, onTop⟩ :=
      threaded.roots old oldMem rootId (sameRoot.trans isRoot)
    rcases shrinks.lost root rootMem with ⟨kept, keptMem, keptId, keptChannel, keptTop⟩ | gone
    · exact ⟨kept, keptMem, keptId.trans isRootId,
        keptChannel.trans (inChannel.trans sameChannel), keptTop.trans onTop⟩
    · obtain ⟨channel, channelMem, isChannel⟩ := inChannels message member
      exact absurd (isChannel.trans (inChannel.trans sameChannel).symm) (gone channel channelMem)

/-- The message was drawn, its root is there, and no other operation is in its way. -/
theorem Threaded.insertMessage {row : MessageRow} (threaded : Threaded ids world
      (.storing row.id row.channelId row.threadRootId :: phases))
    (onTop : ∀ rootId, row.threadRootId = some rootId →
      ∀ root ∈ world.store.messages, root.id = rootId → root.threadRootId = none)
    (isKept : ∀ rootId, row.threadRootId = some rootId → Phase.clearing rootId ∉ phases) :
    Threaded ids { world with store := (world.store.insertMessage row).2 } phases := by
  unfold Store.insertMessage
  split
  swap
  · exact threaded.tail
  rename_i hasChannel
  obtain ⟨channel, channelMem, isChannel⟩ := selects_eq_true.mp hasChannel
  rw [decide_eq_true_iff] at isChannel
  split
  · exact threaded.tail
  rename_i messages inserted
  have isIn : ∀ message, message ∈ messages ↔ message ∈ world.store.messages ∨ message = row :=
    fun message => mem_insert? inserted
  have stays : ∀ message ∈ world.store.messages, message ∈ messages :=
    fun message member => (isIn message).mpr (.inl member)
  obtain ⟨-, isDrawn, hasRoot⟩ := threaded.holds _ (.head _)
  have apart := (pairwise_cons.mp threaded.apart).1
  have rootStays : ∀ rootId channelId, world.store.HasRoot rootId channelId →
      ({ world.store with messages } : Store).HasRoot rootId channelId := by
    rintro rootId channelId (⟨root, member, isRoot⟩ | noChannel)
    · exact .inl ⟨root, stays root member, isRoot⟩
    · exact .inr noChannel
  constructor
  · constructor
    · intro message member
      rcases (isIn message).mp member with old | rfl
      · exact threaded.proper.channels message old
      · exact ⟨channel, channelMem, isChannel⟩
    · intro message member
      rcases (isIn message).mp member with old | rfl
      · exact threaded.proper.fresh message old
      · exact isDrawn
  · intro message member rootId isRoot
    rcases (isIn message).mp member with old | rfl
    · obtain ⟨root, rootMem, rest⟩ := threaded.roots message old rootId isRoot
      exact ⟨root, stays root rootMem, rest⟩
    · rcases hasRoot rootId isRoot with ⟨root, rootMem, isRootId, inChannel⟩ | noChannel
      · exact ⟨root, stays root rootMem, isRootId, inChannel,
          onTop rootId isRoot root rootMem isRootId⟩
      · exact absurd isChannel (noChannel channel channelMem)
  · intro reaction member
    obtain ⟨message, messageMem, isMessage⟩ := threaded.reactions reaction member
    exact ⟨message, stays message messageMem, isMessage⟩
  · intro pin member
    obtain ⟨message, messageMem, isMessage⟩ := threaded.pins pin member
    exact ⟨message, stays message messageMem, isMessage⟩
  · intro phase member
    have holds := threaded.holds phase (.tail _ member)
    cases phase with
    | calm => trivial
    | checked rootId channelId => exact rootStays rootId channelId holds
    | storing id channelId rootId =>
      refine ⟨?_, holds.2.1, fun root isRoot => rootStays root channelId (holds.2.2 root isRoot)⟩
      intro message messageMem
      rcases (isIn message).mp messageMem with old | rfl
      · exact holds.1 message old
      · exact apart _ member
    | pinning channelId messageId =>
      refine ⟨?_, holds.2⟩
      intro message messageMem isMessage
      rcases (isIn message).mp messageMem with old | rfl
      · exact holds.1 message old isMessage
      · exact absurd isMessage (apart _ member)
    | clearing messageId =>
      intro message messageMem
      rcases (isIn message).mp messageMem with old | rfl
      · exact holds message old
      · exact fun isRoot => isKept messageId isRoot member
  · exact (pairwise_cons.mp threaded.apart).2

def Phase.Needs (rootId : String) : Phase → Prop
  | .checked found _ => found = rootId
  | .storing _ _ found => found = some rootId
  | _ => False

theorem Store.HasRoot.delete {after : Store} {rootId channelId : String}
    (hasRoot : store.HasRoot rootId channelId)
    (stays : ∀ message ∈ store.messages, message.id = rootId → message ∈ after.messages)
    (sameChannels : after.channels = store.channels) : after.HasRoot rootId channelId := by
  rcases hasRoot with ⟨root, member, isRoot, inChannel⟩ | noChannel
  · exact .inl ⟨root, stays root member isRoot, isRoot, inChannel⟩
  · rw [Store.HasRoot, sameChannels]
    exact .inr noChannel

/-- Messages go with the replies to them, when no operation has found them as a root. -/
theorem Threaded.deleteMessages {selected : MessageRow → Bool}
    (threaded : Threaded ids world phases)
    (withReplies : ∀ message ∈ world.store.messages, selected message = true →
      ∀ reply ∈ world.store.messages, reply.threadRootId = some message.id → selected reply = true)
    (unseen : ∀ message ∈ world.store.messages, selected message = true →
      ∀ phase ∈ phases, ¬phase.Needs message.id) :
    Threaded ids { world with store := (world.store.deleteMessages selected).2 } phases := by
  unfold Store.deleteMessages
  split
  · exact threaded
  rename_i unreferred
  have isKept : ∀ message, message ∈ world.store.messages.deleteWhere selected ↔
      message ∈ world.store.messages ∧ selected message = false :=
    fun message => mem_deleteWhere
  have stays : ∀ message ∈ world.store.messages,
      ((∃ reaction ∈ world.store.reactions, reaction.messageId = message.id) ∨
        ∃ pin ∈ world.store.pins, pin.messageId = message.id) →
          message ∈ world.store.messages.deleteWhere selected := by
    intro message member referred
    rw [isKept]
    refine ⟨member, ?_⟩
    by_contra isSelected
    apply unreferred
    have isReferred : (world.store.reactions.selects fun row => row.messageId = message.id) =
        true ∨ (world.store.pins.selects fun row => row.messageId = message.id) = true := by
      simpa using referred
    rw [Store.refersTo, any_eq_true]
    refine ⟨message, member, ?_⟩
    rw [Bool.and_eq_true, Bool.or_eq_true]
    exact ⟨by simpa using isSelected, isReferred⟩
  have rootStays : ∀ phase ∈ phases, ∀ rootId channelId, phase.Needs rootId →
      world.store.HasRoot rootId channelId →
        ({ world.store with messages := world.store.messages.deleteWhere selected } :
          Store).HasRoot rootId channelId := by
    intro phase phaseMem rootId channelId needs hasRoot
    refine Store.HasRoot.delete hasRoot ?_ rfl
    intro root member isRoot
    rw [isKept]
    refine ⟨member, ?_⟩
    by_contra isSelected
    apply unseen root member (by simpa using isSelected) phase phaseMem
    rwa [isRoot]
  constructor
  · constructor
    · exact fun message member =>
        threaded.proper.channels message ((isKept message).mp member).1
    · exact fun message member => threaded.proper.fresh message ((isKept message).mp member).1
  · intro message member rootId isRoot
    obtain ⟨messageMem, isLeft⟩ := (isKept message).mp member
    obtain ⟨root, rootMem, rfl, rest⟩ := threaded.roots message messageMem rootId isRoot
    refine ⟨root, (isKept root).mpr ⟨rootMem, ?_⟩, rfl, rest⟩
    by_contra isSelected
    rw [withReplies root rootMem (by simpa using isSelected) message messageMem isRoot] at isLeft
    cases isLeft
  · intro reaction member
    obtain ⟨message, messageMem, isMessage⟩ := threaded.reactions reaction member
    exact ⟨message, stays message messageMem (.inl ⟨reaction, member, isMessage.symm⟩), isMessage⟩
  · intro pin member
    obtain ⟨message, messageMem, isMessage, inChannel⟩ := threaded.pins pin member
    exact ⟨message, stays message messageMem (.inr ⟨pin, member, isMessage.symm⟩), isMessage,
      inChannel⟩
  · intro phase member
    have holds := threaded.holds phase member
    cases phase with
    | calm => trivial
    | checked rootId channelId => exact rootStays _ member rootId channelId rfl holds
    | storing id channelId rootId =>
      exact ⟨fun message messageMem => holds.1 message ((isKept message).mp messageMem).1,
        holds.2.1, fun root isRoot =>
          rootStays _ member root channelId isRoot (holds.2.2 root isRoot)⟩
    | pinning channelId messageId =>
      exact ⟨fun message messageMem => holds.1 message ((isKept message).mp messageMem).1, holds.2⟩
    | clearing messageId =>
      exact fun message messageMem => holds message ((isKept message).mp messageMem).1
  · exact threaded.apart

theorem Threaded.insertPin {row : PinRow}
    (threaded : Threaded ids world (.pinning row.channelId row.messageId :: phases)) :
    Threaded ids { world with store := (world.store.insertPin row).2 } phases := by
  unfold Store.insertPin
  split
  swap
  · exact threaded.tail
  rename_i isThere
  rw [Bool.and_eq_true] at isThere
  obtain ⟨message, messageMem, isMessage⟩ := selects_eq_true.mp isThere.2
  rw [decide_eq_true_iff] at isMessage
  have inChannel := (threaded.holds _ (.head _)).1 message messageMem isMessage
  have rest := threaded.tail
  refine ⟨⟨rest.proper.channels, rest.proper.fresh⟩, rest.roots, rest.reactions, ?_, ?_, rest.apart⟩
  · intro pin member
    rcases mem_insertOrIgnore.mp member with old | ⟨rfl, -⟩
    · exact rest.pins pin old
    · exact ⟨message, messageMem, isMessage, inChannel⟩
  · intro phase member
    have holds := rest.holds phase member
    cases phase <;> exact holds

end DubEcosystem.Chat
