import DubEcosystem.ChatCatchUp

/-!
# chat-service: nothing is skipped where messages arrive in the order of their ids

Each of the operations is followed through the protocol of a reader, which knows between two
polls what it has received.  Where messages arrive in the order of their ids this is what the
store holds up to its cursor; where they do not, a message is passed over.
-/

namespace DubEcosystem.Chat

open Interleaving PortPrograms KeysetPages List KeyedTable
open TaskService (JsonField)
open Relation

def Call.SparesMessages : Call → Prop
  | .db (.updateMember _) => True
  | .db (.insertMember _) => True
  | .db (.updateReadState _) => True
  | .db (.insertReadState _) => True
  | .db statement => statement.IsRead
  | _ => True

def Call.IsPoll : Call → Prop
  | .db (.selectMessages _) => True
  | _ => False

/-- What a reader has received: the id that it polls with, and the ids so far. -/
structure View where
  last : String
  ids : List String

def View.extend (view : View) (rows : List MessageRow) : View :=
  ⟨(rows.getLast?.map MessageRow.id).getD view.last, view.ids ++ rows.map MessageRow.id⟩

/-- Where an operation is: nowhere in particular, between two polls, or with a page that may
still be lost. -/
inductive CatchUpPhase where
  | calm
  | reading (channelId start : String) (view : View)
  | receiving (channelId start : String) (view extended : View)

inductive CatchUpPhase.Leads :
    CatchUpPhase → (request : Call) → Except ChatError (Call.Result request) → CatchUpPhase → Prop
  | spares {request answer} (spares : request.SparesMessages) : Leads .calm request answer .calm
  | stores {row answer} (notDeleted : row.deletedAt = none) :
      Leads .calm (.db (.insertMessage row)) answer .calm
  | reads {channelId start view request answer} (isRead : request.IsRead)
      (notPoll : ¬request.IsPoll) :
      Leads (.reading channelId start view) request answer (.reading channelId start view)
  | fails {channelId start view q thrown} :
      Leads (.reading channelId start view) (.db (.selectMessages q)) (.error thrown)
        (.reading channelId start view)
  | finds {channelId start view limit rows} (isPositive : 0 < limit) :
      Leads (.reading channelId start view)
        (.db (.selectMessages ⟨channelId, none, some view.last, none, limit⟩)) (.ok rows)
        (.receiving channelId start view (view.extend rows))
  | findsNothing {channelId start view limit} (isPositive : 0 < limit) :
      Leads (.reading channelId start view)
        (.db (.selectMessages ⟨channelId, none, some view.last, none, limit⟩)) (.ok [])
        (.reading channelId start view)
  | goesOn {channelId start view extended request answer} (isRead : request.IsRead)
      (notPoll : ¬request.IsPoll) :
      Leads (.receiving channelId start view extended) request answer
        (.receiving channelId start view extended)
  | receives {channelId start view extended request answer} (isRead : request.IsRead)
      (notPoll : ¬request.IsPoll) :
      Leads (.receiving channelId start view extended) request answer
        (.reading channelId start extended)
  | loses {channelId start view extended request answer} (isRead : request.IsRead)
      (notPoll : ¬request.IsPoll) :
      Leads (.receiving channelId start view extended) request answer
        (.reading channelId start view)

def Finds : (request : Call) → Except ChatError (Call.Result request) → Prop
  | .db (.selectChannel id), .ok (some channel) => channel.id = id
  | _, _ => True

def catchUpProtocol : Protocol chatSignature CatchUpPhase where
  possible := Finds
  leads := CatchUpPhase.Leads
  final _ := True

abbrev CursorFollows {α : Type} (action : ChatM α) : Prop :=
  Follows catchUpProtocol .calm action fun _ after => after = .calm

variable {α β : Type}

theorem Call.IsRead.sparesMessages (request : Call) (isRead : request.IsRead) :
    request.SparesMessages := by
  cases request with
  | db statement =>
    cases statement <;> first | exact isRead | exact trivial
  | _ => exact trivial

variable {action : ChatM α}

theorem cursorFollows_of_issues
    (issues : Issues Call.SparesMessages action) : CursorFollows action :=
  follows_of_keeps issues fun _ _ spares => .spares spares

theorem cursorFollows_bind {continuation : α → ChatM β}
    (follows : CursorFollows action) (rest : ∀ value, CursorFollows (continuation value)) :
    CursorFollows (action >>= continuation) := by
  apply follows_bind
  apply follows.mono
  rintro (thrown | value) after rfl
  · rfl
  · exact rest value

variable {request : Call}

theorem cursorFollows_call {continuation : Call.Result request → ChatM α}
    (spares : request.SparesMessages) (rest : ∀ result, CursorFollows (continuation result)) :
    CursorFollows (ask request >>= continuation) := by
  apply follows_port_bind
  · exact fun result _ => ⟨.calm, .spares spares, rest result⟩
  · exact fun thrown _ => ⟨.calm, .spares spares, rfl⟩

theorem cursorFollows_store {row : MessageRow} {continuation : Unit → ChatM α}
    (notDeleted : row.deletedAt = none) (rest : CursorFollows (continuation ())) :
    CursorFollows (query (.insertMessage row) >>= continuation) := by
  apply follows_port_bind
  · exact fun _ _ => ⟨.calm, .stores notDeleted, rest⟩
  · exact fun thrown _ => ⟨.calm, .stores notDeleted, rfl⟩

theorem checkThreadRoot_spares {channelId : String} {threadRootId : Option String} :
    Issues Call.SparesMessages (checkThreadRoot channelId threadRootId) := by
  unfold checkThreadRoot
  split
  · exact Keeps.pure
  · apply Keeps.port_bind
    · exact trivial
    intro root _
    split
    · exact Keeps.pure
    · exact Keeps.throw

variable (userId : String)

theorem postMessage_cursor (body : PostMessageRequest) :
    CursorFollows (postMessage userId body) := by
  apply cursorFollows_bind (cursorFollows_of_issues issues_requireBody)
  intro text
  apply cursorFollows_bind
    (cursorFollows_of_issues (issues_loadReadable Call.IsRead.sparesMessages))
  rintro ⟨channel, membership⟩
  apply cursorFollows_bind
  · exact cursorFollows_of_issues (issues_ensureCanWrite Call.IsRead.sparesMessages
      (fun _ _ => trivial) fun _ _ => trivial)
  intro member
  split
  · exact follows_throw rfl
  apply cursorFollows_bind (cursorFollows_of_issues checkThreadRoot_spares)
  intro _
  apply cursorFollows_call
  · exact trivial
  intro now
  apply cursorFollows_call
  · exact trivial
  intro id
  apply cursorFollows_store rfl
  apply cursorFollows_bind
    (cursorFollows_of_issues (issues_announceMessage Call.IsRead.sparesMessages))
  exact fun _ => follows_pure rfl

theorem listMessages_spares (q : ListMessagesQuery) :
    Issues Call.SparesMessages (listMessages userId q) := by
  unfold listMessages
  split
  · exact Keeps.throw
  apply Keeps.bind (issues_loadReadable Call.IsRead.sparesMessages)
  rintro ⟨channel, membership⟩
  apply Keeps.bind issues_requireLimit
  intro limit
  simp only []
  split
  · apply Keeps.port_bind
    · exact trivial
    intro rows _
    exact Keeps.bind (issues_decorate Call.IsRead.sparesMessages) fun _ => Keeps.pure
  · apply Keeps.bind issues_requireCursor
    intro beforeId
    apply Keeps.port_bind
    · exact trivial
    intro rows _
    exact Keeps.bind (issues_decorate Call.IsRead.sparesMessages) fun _ => Keeps.pure

theorem updateReadState_spares (id : String) (lastReadMessageId : JsonField String) :
    Issues Call.SparesMessages (updateReadState userId id lastReadMessageId) := by
  apply Keeps.bind issues_nonEmptyString
  intro lastRead
  apply Keeps.bind (issues_loadReadable Call.IsRead.sparesMessages)
  intro _
  apply Keeps.port_bind
  · exact trivial
  intro now _
  apply Keeps.bind
  · apply Keeps.port_bind
    · exact trivial
    intro updated _
    split
    · exact Keeps.pure
    · exact Keeps.port trivial
  intro _
  exact Keeps.port_bind trivial fun _ _ => Keeps.pure

theorem unreadOf_spares (memberships : List MemberRow) :
    Issues Call.SparesMessages (unreadOf userId memberships) := by
  induction memberships with
  | nil => exact Keeps.pure
  | cons membership rest ih =>
    apply Keeps.port_bind
    · exact trivial
    intro state _
    apply Keeps.port_bind
    · exact trivial
    intro unreadCount _
    exact Keeps.bind ih fun _ => Keeps.pure

theorem unread_spares : Issues Call.SparesMessages (unread userId) := by
  apply Keeps.port_bind
  · exact trivial
  exact fun memberships _ => unreadOf_spares userId memberships

theorem reply_cursor {wrap : α → Reply} (follows : CursorFollows action) :
    CursorFollows (reply wrap action) :=
  cursorFollows_bind follows fun _ => follows_pure rfl

theorem action_cursor (toLowerCase : String → String) {op : Operation}
    (onCursors : op.onCursors = true) : CursorFollows (actionOf toLowerCase op) := by
  cases op with
  | postMessage userId body => exact reply_cursor (postMessage_cursor userId body)
  | listMessages userId q =>
    exact reply_cursor (cursorFollows_of_issues (listMessages_spares userId q))
  | updateReadState userId id lastRead =>
    exact reply_cursor (cursorFollows_of_issues (updateReadState_spares userId id lastRead))
  | unread userId => exact reply_cursor (cursorFollows_of_issues (unread_spares userId))
  | _ => cases onCursors

variable {channelId start : String} {view : View}

theorem loadReadable_reads (id userId : String) :
    Follows catchUpProtocol (.reading channelId start view) (loadReadable id userId) fun
      | .ok loaded, after => after = .reading channelId start view ∧ loaded.1.id = id
      | .error _, after => after = .reading channelId start view := by
  apply follows_port_bind
  · rintro (_ | channel) isFound
    · exact ⟨_, .reads trivial not_false, follows_throw rfl⟩
    · refine ⟨_, .reads trivial not_false, ?_⟩
      apply follows_port_bind
      · intro membership _
        refine ⟨_, .reads trivial not_false, ?_⟩
        split
        · exact follows_throw rfl
        · exact follows_pure ⟨rfl, isFound⟩
      · exact fun thrown _ => ⟨_, .reads trivial not_false, rfl⟩
  · exact fun thrown _ => ⟨_, .reads trivial not_false, rfl⟩

theorem requireLimit_reads (raw : JsonField ℚ) :
    Follows catchUpProtocol (.reading channelId start view) (requireLimit raw) fun
      | .ok limit, after => after = .reading channelId start view ∧ 0 < limit
      | .error _, after => after = .reading channelId start view := by
  unfold requireLimit
  split
  · exact follows_pure ⟨rfl, by decide⟩
  · split
    · rename_i inRange
      apply follows_pure
      exact ⟨rfl, Rat.num_pos.mpr (lt_of_lt_of_le one_pos inRange.2.1)⟩
    · exact follows_throw rfl
  · exact follows_throw rfl

theorem decorate_receives {extended : View} (rows : List MessageRow) (found : rows ≠ []) :
    Follows catchUpProtocol (.receiving channelId start view extended) (decorate rows true) fun
      | .ok items, after => after = .reading channelId start extended ∧
          items.map Message.id = rows.map MessageRow.id
      | .error _, after => after = .reading channelId start view := by
  have notEmpty : rows.map MessageRow.id ≠ [] := by simpa using found
  unfold decorate Repo.reactionsFor Repo.replyCounts
  rw [if_neg notEmpty, if_neg notEmpty]
  apply follows_port_bind
  · intro reactions _
    refine ⟨_, .goesOn trivial not_false, ?_⟩
    apply follows_port_bind
    · intro counts _
      refine ⟨_, .receives trivial not_false, follows_pure ⟨rfl, ?_⟩⟩
      rw [List.map_map]
      rfl
    · exact fun thrown _ => ⟨_, .loses trivial not_false, rfl⟩
  · exact fun thrown _ => ⟨_, .loses trivial not_false, rfl⟩

/-- A page is received as a whole, or not at all. -/
theorem listMessages_reads (limit : JsonField ℚ) :
    Follows catchUpProtocol (.reading channelId start view)
      (listMessages userId (pollQuery channelId limit view.last)) fun
        | .ok page, after => after = .reading channelId start
            ⟨(page.items.getLast?.map Message.id).getD view.last,
              view.ids ++ page.items.map Message.id⟩
        | .error _, after => after = .reading channelId start view := by
  unfold listMessages
  rw [if_neg (by simp [pollQuery])]
  apply follows_bind
  apply (loadReadable_reads channelId userId).mono
  rintro (thrown | ⟨channel, membership⟩) after loaded
  · exact loaded
  obtain ⟨rfl, sameId⟩ := loaded
  apply follows_bind
  apply (requireLimit_reads limit).mono
  rintro (thrown | limit) after limited
  · exact limited
  obtain ⟨rfl, isPositive⟩ := limited
  apply follows_port_bind
  · intro rows _
    rw [sameId]
    by_cases found : rows = []
    · subst found
      refine ⟨_, .findsNothing isPositive, ?_⟩
      exact follows_pure (by simp)
    · refine ⟨_, .finds isPositive, ?_⟩
      apply follows_bind
      apply (decorate_receives rows found).mono
      rintro (thrown | items) after ended
      · exact ended
      · obtain ⟨rfl, sameIds⟩ := ended
        apply follows_pure
        have sameLast : items.getLast?.map Message.id = rows.getLast?.map MessageRow.id := by
          rw [← getLast?_map, sameIds, getLast?_map]
        rw [View.extend, ← sameIds, ← sameLast]
  · intro thrown _
    exact ⟨_, .fails, rfl⟩

theorem catchUp_reads (userId : String) (limit : JsonField ℚ) (polls : Nat)
    (received : List Message) (ids : received.map Message.id = view.ids) :
    Follows catchUpProtocol (.reading channelId start view)
      (catchUp userId channelId limit polls view.last received) fun outcome after =>
        ∃ ended : View, after = .reading channelId start ended ∧
          ∀ messages, outcome = .ok messages → messages.map Message.id = ended.ids := by
  induction polls generalizing view received with
  | zero =>
    apply follows_pure
    refine ⟨view, rfl, ?_⟩
    rintro messages ⟨⟩
    exact ids
  | succ polls ih =>
    apply follows_attempt_bind
    apply (listMessages_reads userId limit).mono
    rintro (thrown | page) after rfl
    · exact ih received ids
    · apply ih
      rw [map_append, ids]

/-- The ids are those of the messages after `start` up to the last one. -/
structure View.Covers (view : View) (store : Store) (channelId start : String) : Prop where
  nodup : view.ids.Nodup
  mem : ∀ id, id ∈ view.ids ↔ ∃ message ∈ store.messages,
    message.OnTop channelId ∧ message.id = id ∧ start < id ∧ id ≤ view.last
  last : view.last = start ∨ view.last ∈ view.ids

variable {store : Store}

theorem View.covers_start : View.Covers ⟨start, []⟩ store channelId start where
  nodup := .nil
  mem id := by
    constructor
    · intro member
      cases member
    · rintro ⟨message, _, _, rfl, greater, atMost⟩
      exact absurd atMost greater.not_ge
  last := .inl rfl

theorem View.Covers.start_le (covers : view.Covers store channelId start) : start ≤ view.last := by
  rcases covers.last with isStart | received
  · exact isStart.ge
  · obtain ⟨message, _, _, _, greater, _⟩ := (covers.mem view.last).mp received
    exact greater.le

/-- The messages of the main timeline after an id, in the order of their ids. -/
def Store.after (store : Store) (channelId last : String) : List MessageRow :=
  Store.ascending MessageRow.id ((store.messages.rows.filter fun message =>
    message.channelId = channelId ∧ message.threadRootId = none).filter fun message =>
      last < message.id)

variable {message : MessageRow}

theorem Store.mem_after {last : String} : message ∈ store.after channelId last ↔
      message ∈ store.messages ∧ message.OnTop channelId ∧ last < message.id := by
  simp only [Store.after, Store.ascending, mem_insertionSort, mem_def,
    MessageRow.OnTop, mem_filter, decide_eq_true_eq, and_assoc]

theorem Store.after_inOrder (store : Store) (channelId last : String) :
    InOrder MessageRow.id (store.after channelId last) := by
  apply inOrder_insertionSort
  apply List.Nodup.sublist _ store.messages.keysNodup
  exact (filter_sublist.trans filter_sublist).map MessageRow.id

theorem Store.selectMessages_after {last : String} {limit : Int} (isPositive : 0 < limit) :
    store.selectMessages ⟨channelId, none, some last, none, limit⟩ =
      (store.after channelId last).take limit.toNat := by
  simp only [Store.selectMessages, Store.limited, if_neg isPositive.not_gt]
  rfl

theorem View.Covers.mem_extend (covers : view.Covers store channelId start) {limit : Nat}
    (member : message ∈ (store.after channelId view.last).take limit) :
    message ∈ store.messages ∧ message.OnTop channelId ∧ view.last < message.id ∧
      start < message.id := by
  obtain ⟨isThere, onTop, isAfter⟩ := Store.mem_after.mp (mem_of_mem_take member)
  exact ⟨isThere, onTop, isAfter, covers.start_le.trans_lt isAfter⟩

theorem View.Covers.extend (covers : view.Covers store channelId start) (limit : Nat) :
    (view.extend ((store.after channelId view.last).take limit)).Covers store channelId
      start := by
  have inOrder := store.after_inOrder channelId view.last
  have greater : ∀ {message}, message ∈ (store.after channelId view.last).take limit → _ :=
    fun member => covers.mem_extend member
  generalize isPage : (store.after channelId view.last).take limit = page at greater ⊢
  cases isLast : page.getLast? with
  | none =>
    have isEmpty : page = [] := getLast?_eq_none_iff.mp isLast
    subst isEmpty
    simpa [View.extend] using covers
  | some last =>
    have lastMem : last ∈ page := mem_of_getLast? isLast
    have inPage : ∀ message, message ∈ page ↔
        message ∈ store.after channelId view.last ∧ message.id ≤ last.id := by
      intro message
      rw [← isPage] at isLast ⊢
      exact inOrder.mem_take isLast
    have extended : view.extend page = ⟨last.id, view.ids ++ page.map MessageRow.id⟩ := by
      rw [View.extend, isLast]
      rfl
    rw [extended]
    constructor
    · apply nodup_append.mpr
      refine ⟨covers.nodup, ?_, ?_⟩
      · rw [← isPage]
        exact (inOrder.take limit).nodup
      · rintro id received _ found rfl
        obtain ⟨message, member, rfl⟩ := List.mem_map.mp found
        obtain ⟨_, _, _, _, _, atMost⟩ := (covers.mem message.id).mp received
        exact absurd atMost (greater member).2.2.1.not_ge
    · intro id
      rw [mem_append, covers.mem]
      constructor
      · rintro (⟨message, isThere, onTop, isId, isAfter, atMost⟩ | found)
        · have atLast : id ≤ last.id := atMost.trans (greater lastMem).2.2.1.le
          exact ⟨message, isThere, onTop, isId, isAfter, atLast⟩
        · obtain ⟨message, member, rfl⟩ := List.mem_map.mp found
          obtain ⟨isThere, onTop, _, isAfter⟩ := greater member
          exact ⟨message, isThere, onTop, rfl, isAfter, ((inPage message).mp member).2⟩
      · rintro ⟨message, isThere, onTop, rfl, isAfter, atMost⟩
        by_cases isBefore : message.id ≤ view.last
        · exact .inl ⟨message, isThere, onTop, rfl, isAfter, isBefore⟩
        · right
          apply mem_map_of_mem
          apply (inPage message).mpr
          exact ⟨Store.mem_after.mpr ⟨isThere, onTop, not_le.mp isBefore⟩, atMost⟩
    · right
      exact mem_append_right view.ids (mem_map_of_mem lastMem)

variable {after : Store}

theorem View.Covers.insert (covers : view.Covers store channelId start)
    {row : MessageRow}
    (isIn : ∀ message, message ∈ after.messages ↔ message ∈ store.messages ∨ message = row)
    (isNewest : row.OnTop channelId → ∀ message ∈ store.messages, message.OnTop channelId →
      message.id < row.id) : view.Covers after channelId start where
  nodup := covers.nodup
  mem id := by
    rw [covers.mem]
    constructor
    · rintro ⟨message, isThere, rest⟩
      exact ⟨message, (isIn message).mpr (.inl isThere), rest⟩
    · rintro ⟨message, isThere, onTop, rfl, isAfter, atMost⟩
      rcases (isIn message).mp isThere with old | rfl
      · exact ⟨message, old, onTop, rfl, isAfter, atMost⟩
      · rcases covers.last with isStart | received
        · exact absurd (isStart ▸ atMost) isAfter.not_ge
        · obtain ⟨other, otherMem, otherTop, isLast, _⟩ := (covers.mem _).mp received
          have less := isNewest onTop other otherMem otherTop
          rw [isLast] at less
          exact absurd atMost less.not_ge
  last := covers.last

section Steps

variable {ids : Ids} {toLowerCase : String → String} {world moved : World}
  {condition : RunCondition chatSignature World Operation}

variable {answer : Except ChatError (Call.Result request)}

theorem store_of_spares
    (spares : request.SparesMessages)
    (answers : (chatMachine ids).Answers request world answer moved) :
    moved.store.messages = world.store.messages ∧ ∀ key, request.SparesReadState key →
      moved.store.readStates.find? key = world.store.readStates.find? key := by
  cases request with
  | db statement =>
    rw [(answers_db answers).2]
    change (world.store.exec statement).2.messages = world.store.messages ∧ ∀ key, _ →
      (world.store.exec statement).2.readStates.find? key = world.store.readStates.find? key
    by_cases isRead : statement.IsRead
    · rw [(Store.exec_read isRead world.store).2]
      exact ⟨rfl, fun _ _ => rfl⟩
    cases statement with
    | updateReadState row =>
      refine ⟨rfl, fun key otherKey => ?_⟩
      apply find?_update_of_ne
      · exact fun _ => rfl
      · intro other isKey sameKey
        rw [decide_eq_true_eq] at isKey
        exact otherKey ((Prod.ext isKey.1 isKey.2).symm.trans sameKey)
    | insertReadState row =>
      change (world.store.insertReadState row).2.messages = _ ∧ ∀ key, _ →
        (world.store.insertReadState row).2.readStates.find? key = _
      unfold Store.insertReadState
      split
      · exact ⟨rfl, fun key otherKey => find?_insertOrIgnore_of_ne otherKey⟩
      · exact ⟨rfl, fun _ _ => rfl⟩
    | insertMember row =>
      change (world.store.insertMember row).2.messages = _ ∧ ∀ key, _ →
        (world.store.insertMember row).2.readStates.find? key = _
      unfold Store.insertMember
      split
      · exact ⟨rfl, fun _ _ => rfl⟩
      · exact ⟨rfl, fun _ _ => rfl⟩
    | updateMember row => exact ⟨rfl, fun _ _ => rfl⟩
    | _ => exact absurd spares isRead
  | _ =>
    rw [store_of_answers answers fun statement isDb => by cases isDb]
    exact ⟨rfl, fun _ _ => rfl⟩

variable {row : MessageRow}

/-- A message is stored, or nothing happens. -/
theorem messages_of_insertMessage
    {answer : Except ChatError (Call.Result (.db (.insertMessage row)))}
    (answers : (chatMachine ids).Answers (.db (.insertMessage row)) world answer moved) :
    moved.store.readStates = world.store.readStates ∧
      (moved.store = world.store ∨ ∀ message, message ∈ moved.store.messages ↔
        message ∈ world.store.messages ∨ message = row) := by
  rw [(answers_db answers).2]
  change (world.store.insertMessage row).2.readStates = _ ∧
    ((world.store.insertMessage row).2 = _ ∨ ∀ message,
      message ∈ (world.store.insertMessage row).2.messages ↔ _)
  unfold Store.insertMessage
  split
  · split
    · exact ⟨rfl, .inl rfl⟩
    · rename_i messages inserted
      exact ⟨rfl, .inr fun message => mem_insert? inserted⟩
  · exact ⟨rfl, .inl rfl⟩

def CatchUpPhase.Holds (store : Store) : CatchUpPhase → Prop
  | .calm => True
  | .reading channelId start view => view.Covers store channelId start
  | .receiving channelId start view extended =>
    view.Covers store channelId start ∧ extended.Covers store channelId start

variable {phase : CatchUpPhase}

theorem CatchUpPhase.Holds.sameMessages
    (holds : phase.Holds store) (same : after.messages = store.messages) :
    phase.Holds after := by
  have covers : ∀ {view : View} {channelId start : String},
      view.Covers store channelId start → view.Covers after channelId start := by
    intro view channelId start covers
    exact ⟨covers.nodup, by rw [same]; exact covers.mem, covers.last⟩
  cases phase with
  | calm => trivial
  | reading channelId start view => exact covers holds
  | receiving channelId start view extended => exact ⟨covers holds.1, covers holds.2⟩

theorem CatchUpPhase.Holds.insert (holds : phase.Holds store)
    (isIn : ∀ message, message ∈ after.messages ↔ message ∈ store.messages ∨ message = row)
    (isNewest : ∀ channelId, row.OnTop channelId → ∀ message ∈ store.messages,
      message.OnTop channelId → message.id < row.id) : phase.Holds after := by
  cases phase with
  | calm => trivial
  | reading channelId start view =>
    exact View.Covers.insert holds isIn (isNewest channelId)
  | receiving channelId start view extended =>
    exact ⟨holds.1.insert isIn (isNewest channelId), holds.2.insert isIn (isNewest channelId)⟩

variable {others : List (Operation × Prog chatSignature Unit)}

theorem isNewest_of_arrivesInOrder
    (permitted : arrivesInOrder.mayCall (.db (.insertMessage row)) world others)
    (channelId : String) (onTop : row.OnTop channelId) :
    ∀ message ∈ world.store.messages, message.OnTop channelId → message.id < row.id := by
  obtain ⟨rfl, isTop⟩ := onTop
  exact (permitted isTop).1

/-- A call keeps what the readers have received in line with the store. -/
theorem views_call {after : CatchUpPhase} {phases : List CatchUpPhase}
    (permitted : arrivesInOrder.mayCall request world others)
    (answers : (chatMachine ids).Answers request world answer moved)
    (leads : phase.Leads request answer after)
    (holds : ∀ other ∈ phase :: phases, other.Holds world.store) :
    ∀ other ∈ after :: phases, other.Holds moved.store := by
  have own := holds phase (.head _)
  have rest : ∀ other ∈ phases, other.Holds world.store :=
    fun other member => holds other (.tail _ member)
  have stays : request.IsRead → after.Holds world.store →
      ∀ other ∈ after :: phases, other.Holds moved.store := by
    intro isRead isAfter
    rw [world_of_isRead isRead answers]
    exact forall_mem_cons.mpr ⟨isAfter, rest⟩
  cases leads with
  | spares spares =>
    have same := (store_of_spares spares answers).1
    rw [forall_mem_cons]
    exact ⟨trivial, fun other member => (rest other member).sameMessages same⟩
  | stores notDeleted =>
    rw [forall_mem_cons]
    refine ⟨trivial, ?_⟩
    rcases (messages_of_insertMessage answers).2 with same | isIn
    · rw [same]
      exact rest
    · exact fun other member =>
        (rest other member).insert isIn (isNewest_of_arrivesInOrder permitted)
  | reads isRead notPoll | goesOn isRead notPoll => exact stays isRead own
  | fails | findsNothing isPositive => exact stays trivial own
  | @finds channelId start view limit rows isPositive =>
    have isPage : rows = (world.store.after channelId view.last).take limit.toNat := by
      rw [← Store.selectMessages_after isPositive]
      exact Except.ok.inj (answers_db answers).1
    apply stays trivial
    rw [isPage]
    exact ⟨own, own.extend limit.toNat⟩
  | receives isRead notPoll => exact stays isRead own.2
  | loses isRead notPoll => exact stays isRead own.1

theorem views_preserved : catchUpProtocol.Preserves
    (chatSystem ids toLowerCase Operation.onCursors) arrivesInOrder (fun _ => .calm)
    (fun world phases => ∀ phase ∈ phases, phase.Holds world.store) where
  perm perm holds phase member := holds phase (perm.mem_iff.mpr member)
  start _ _ _ holds := forall_mem_cons.mpr ⟨trivial, holds⟩
  call _ permitted answers leads holds := views_call permitted answers leads holds
  environment moves holds := moves ▸ holds
  stop _ _ holds phase member := holds phase (.tail _ member)

theorem catchUp_governed : catchUpProtocol.Governs
    (chatSystem ids toLowerCase Operation.onCursors) (fun _ => .calm) where
  program op _ startable := by
    have follows := action_cursor toLowerCase startable
    unfold CursorFollows Follows at follows
    apply Protocol.followsTo_bind
    exact Protocol.FollowsTo.mono follows fun _ _ _ => trivial
  possible {request before answer after} answers := by
    cases request with
    | db statement =>
      cases statement with
      | selectChannel id =>
        have isAnswer : answer = .ok (before.store.channels.find? id) :=
          (answers_db answers).1
        rw [isAnswer]
        cases found : before.store.channels.find? id with
        | none => trivial
        | some channel => exact (find?_eq_some.mp found).2
      | _ => trivial
    | _ => trivial

end Steps

variable {ids : Ids} {toLowerCase : String → String} {world : World}

/-- A reader that is answered an empty page has received what is after its start. -/
theorem received_ofArrivesInOrder {userId channelId : String} {limit : JsonField ℚ}
    {polls : Nat} {received : List Message}
    {watched : Watched chatSignature World Operation (Except ChatError (List Message))}
    (reached : (chatSystem ids toLowerCase Operation.onCursors).WatchedUnder arrivesInOrder world
      (.listMessages userId (pollQuery channelId limit start))
      (catchUp userId channelId limit polls start []).run watched)
    (ends : EndsWith watched received) :
    (received.map Message.id).Nodup ∧ ∀ id, id ∈ received.map Message.id ↔
      ∃ message ∈ watched.world.store.messages,
        message.OnTop channelId ∧ start < message.id ∧ message.id = id := by
  have reads := @catchUp_reads channelId start ⟨start, []⟩ userId limit polls [] rfl
  unfold Follows at reads
  have starts : ∀ {world : World} {phases : List CatchUpPhase},
      (∀ phase ∈ phases, phase.Holds world.store) →
        ∀ phase ∈ CatchUpPhase.reading channelId start ⟨start, []⟩ :: phases,
          phase.Holds world.store := by
    intro world phases holds
    rw [forall_mem_cons]
    exact ⟨View.covers_start, holds⟩
  have initial : ∀ phase ∈ ([] : List CatchUpPhase), phase.Holds world.store :=
    forall_mem_nil _
  have awaits : catchUpProtocol.Awaits
      (fun world phases => ∀ phase ∈ phases, phase.Holds world.store) _ (fun _ => True) watched :=
    views_preserved.watched catchUp_governed (fun _ _ _ => trivial) (fun _ _ _ _ _ _ => trivial)
      initial (fun _ holds => starts holds) reads trivial reached
  obtain ⟨phase, phases, follows, -, -, holds⟩ := awaits
  obtain ⟨q, next, isCall, isEmpty, isDone⟩ := ends
  rw [isCall] at follows
  obtain ⟨later, leads, rest⟩ := follows (.ok []) trivial
  rw [isDone] at rest
  obtain ⟨ended, rfl, sameIds⟩ := rest
  have covers := holds phase (.head _)
  cases leads with
  | reads isRead notPoll | receives isRead notPoll | loses isRead notPoll =>
    exact absurd trivial notPoll
  | @findsNothing _ _ _ limit isPositive =>
    rw [Store.selectMessages_after isPositive, take_eq_nil_iff] at isEmpty
    have nothing : watched.world.store.after channelId ended.last = [] := by
      rcases isEmpty with isZero | isEmpty
      · omega
      · exact isEmpty
    rw [sameIds received rfl]
    refine ⟨covers.nodup, fun id => ?_⟩
    rw [covers.mem]
    constructor
    · rintro ⟨message, isThere, onTop, rfl, isAfter, -⟩
      exact ⟨message, isThere, onTop, isAfter, rfl⟩
    · rintro ⟨message, isThere, onTop, isAfter, rfl⟩
      refine ⟨message, isThere, onTop, rfl, isAfter, ?_⟩
      rw [← not_lt]
      intro isNewer
      have listed := Store.mem_after.mpr ⟨isThere, onTop, isNewer⟩
      rw [nothing] at listed
      cases listed

/-- The read state of the user is this one, and what others have posted since is unread. -/
def EachUnread (channelId userId : String) (state : Option ReadStateRow) (initial store : Store) :
    Prop :=
  store.readStates.find? (channelId, userId) = state ∧
    ∀ message ∈ store.messages, message ∉ initial.messages → message.OnTop channelId →
      message.authorId ≠ some userId →
        message.isUnread channelId userId (state.bind ReadStateRow.lastReadMessageId) = true

variable {state : Option ReadStateRow}

theorem unread_call {channelId userId : String} {initial : Store}
    {moved : World} {phase after : CatchUpPhase}
    {answer : Except ChatError (Call.Result request)}
    {others : List (Operation × Prog chatSignature Unit)}
    (permitted : (sparing arrivesInOrder channelId userId).mayCall request world others)
    (answers : (chatMachine ids).Answers request world answer moved)
    (leads : phase.Leads request answer after)
    (unread : EachUnread channelId userId state initial world.store) :
    EachUnread channelId userId state initial moved.store := by
  obtain ⟨inOrder, sparesState⟩ := permitted
  have stays : request.IsRead → EachUnread channelId userId state initial moved.store := by
    intro isRead
    rwa [world_of_isRead isRead answers]
  cases leads with
  | spares spares =>
    obtain ⟨sameMessages, sameStates⟩ := store_of_spares spares answers
    rw [EachUnread, sameMessages, sameStates _ sparesState]
    exact unread
  | @stores row _ notDeleted =>
    obtain ⟨sameStates, same | isIn⟩ := messages_of_insertMessage answers
    · rwa [same]
    rw [EachUnread, sameStates]
    refine ⟨unread.1, fun message member isNew onTop byOther => ?_⟩
    rcases (isIn message).mp member with old | rfl
    · exact unread.2 message old isNew onTop byOther
    have isAfter : ∀ lastRead ∈ state.bind ReadStateRow.lastReadMessageId,
        lastRead < message.id := by
      intro lastRead isLast
      obtain ⟨row, isState, isLast⟩ := Option.bind_eq_some_iff.mp isLast
      obtain ⟨rowMem, isKey⟩ := find?_eq_some.mp (unread.1.trans isState)
      obtain ⟨inChannel, ofUser⟩ := Prod.mk.inj isKey
      apply (inOrder onTop.2).2 row rowMem (inChannel.trans onTop.1.symm) _ lastRead isLast
      rwa [ofUser]
    simpa [MessageRow.isUnread, onTop.1, onTop.2, notDeleted, byOther, Option.all_eq_true]
      using isAfter
  | reads isRead notPoll | goesOn isRead notPoll | receives isRead notPoll | loses isRead notPoll =>
    exact stays isRead
  | fails | finds isPositive | findsNothing isPositive => exact stays trivial

theorem unread_preserved {channelId userId : String} {initial : Store} : catchUpProtocol.Preserves
    (chatSystem ids toLowerCase Operation.onCursors) (sparing arrivesInOrder channelId userId)
    (fun _ => .calm) (fun world _ => EachUnread channelId userId state initial world.store) where
  perm _ unread := unread
  start _ _ _ unread := unread
  call _ permitted answers leads unread := unread_call permitted answers leads unread
  environment moves unread := moves ▸ unread
  stop _ _ unread := unread

/-- What others post after a read state was set is unread until it is set again. -/
theorem counted_ofArrivesInOrder {userId channelId : String} {lastRead : JsonField String}
    {returned : Watched chatSignature World Operation (Except ChatError UnreadSummary)}
    (reached : (chatSystem ids toLowerCase Operation.onCursors).WatchedUnder arrivesInOrder world
      (.updateReadState userId channelId lastRead)
      (updateReadState userId channelId lastRead).run returned)
    {final : Config chatSignature World Operation}
    (run : ReflTransGen ((chatSystem ids toLowerCase Operation.onCursors).StepUnder
      (sparing arrivesInOrder channelId userId)) ⟨returned.world, returned.others⟩ final) :
    EachUnread channelId userId
      (returned.world.store.readStates.find? (channelId, userId)) returned.world.store
      final.world.store := by
  have sets := cursorFollows_of_issues (updateReadState_spares userId channelId lastRead)
  unfold CursorFollows Follows at sets
  have initial : ∀ phase ∈ ([] : List CatchUpPhase), phase.Holds world.store :=
    forall_mem_nil _
  have awaits : catchUpProtocol.Awaits
      (fun world phases => ∀ phase ∈ phases, phase.Holds world.store) _ (fun _ => True)
      returned :=
    views_preserved.watched catchUp_governed (fun _ _ _ => trivial) (fun _ _ _ _ _ _ => trivial)
      initial (fun startable holds => views_preserved.start _ _ startable holds) sets trivial
      reached
  obtain ⟨-, phases, -, -, tracks, -⟩ := awaits
  have starts : catchUpProtocol.Holds (fun world _ => EachUnread channelId userId
      (returned.world.store.readStates.find? (channelId, userId)) returned.world.store world.store)
      ⟨returned.world, returned.others⟩ :=
    ⟨phases, tracks, rfl, fun message member isNew => absurd member isNew⟩
  obtain ⟨-, -, unread⟩ := unread_preserved.run catchUp_governed run starts
  exact unread

def postingAs (calls : Nat) : List (Move chatSignature World Operation) :=
  .start (.postMessage userId ⟨"general", .value "hello", none, []⟩) ::
    List.replicate calls (.call 0 succeeding)

/-- The reader has received only the second message when it is told that there is no other,
and both are in the store. -/
def skipsFirst
    (watched : Watched chatSignature World Operation (Except ChatError (List Message))) : Bool :=
  (watched.others.all fun thread =>
    match thread.2 with
    | .done () => true
    | .call _ _ => false) &&
  (watched.world.store.messages.rows.any fun message =>
    message.id = "0" ∧ message.channelId = "general" ∧ message.threadRootId = none) &&
  match watched.own with
  | .call (.db (.selectMessages q)) next =>
    (watched.world.store.selectMessages q).isEmpty && match next (.ok []) with
      | .done (.ok received) => received.map Message.id = ["1"]
      | _ => false
  | _ => false

end DubEcosystem.Chat
