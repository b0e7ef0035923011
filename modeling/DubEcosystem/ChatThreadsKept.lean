import DubEcosystem.ChatThreads

/-!
# chat-service: the messages stay reachable where roots are kept

Each operation on messages is followed through the phases in which it relies on what it has
read.  Under the condition on replies and deletions the phases hold, so that the root of
every reply stays in the main timeline; without it a reply to a reply is stored.
-/

namespace DubEcosystem.Chat

open Interleaving PortPrograms KeyedTable List

/-- The calls that neither place a message nor look for one. -/
def Call.IsQuiet : Call → Prop
  | .db statement => statement.IsCalm
  | .newChannelId => False
  | .newMessageId => False
  | .newSectionId => False
  | _ => True

variable {ids : Ids} {before after : World} {request : Call}

theorem shrinks_of_isQuiet {answer : Except ChatError (Call.Result request)}
    (isQuiet : request.IsQuiet)
    (answers : (chatMachine ids).Answers request before answer after) :
    before.store.Shrinks after.store ∧ after.drawn = before.drawn := by
  cases request with
  | db statement =>
    rw [(answers_db answers).2]
    exact ⟨Store.shrinks_of_isCalm isQuiet before.store, rfl⟩
  | newChannelId | newMessageId | newSectionId => exact isQuiet.elim
  | _ =>
    obtain rfl : after = before := answers
    exact ⟨.refl _, rfl⟩

/-- How the calls of an operation on messages lead from phase to phase. -/
inductive Phase.Leads :
    Phase → (request : Call) → Except ChatError (Call.Result request) → Phase → Prop
  | quiet {phase request answer} (isQuiet : request.IsQuiet) : Leads phase request answer phase
  | fails {phase request thrown} (isQuiet : request.IsQuiet) :
      Leads phase request (.error thrown) .calm
  | looks {id answer} : Leads .calm (.db (.selectMessage id)) answer .calm
  | checks {id root} :
      Leads .calm (.db (.selectMessage id)) (.ok (some root)) (.checked id root.channelId)
  | finds {id message} :
      Leads .calm (.db (.selectMessage id)) (.ok (some message)) (.pinning message.channelId id)
  | draws {id channelId} : Leads .calm .newMessageId (.ok id) (.storing id channelId none)
  | drawsReply {id rootId channelId} :
      Leads (.checked rootId channelId) .newMessageId (.ok id) (.storing id channelId (some rootId))
  | undrawn {phase thrown} : Leads phase .newMessageId (.error thrown) .calm
  | stores {id channelId rootId row answer}
      (isRow : id = row.id ∧ channelId = row.channelId ∧ rootId = row.threadRootId) :
      Leads (.storing id channelId rootId) (.db (.insertMessage row)) answer .calm
  | pins {channelId messageId row answer}
      (isRow : channelId = row.channelId ∧ messageId = row.messageId) :
      Leads (.pinning channelId messageId) (.db (.insertPin row)) answer .calm
  | drops {channelId messageId request answer} (isQuiet : request.IsQuiet) :
      Leads (.pinning channelId messageId) request answer .calm
  | clears {id answer} : Leads .calm (.db (.deleteReplies id)) (.ok answer) (.clearing id)
  | uncleared {id thrown} : Leads .calm (.db (.deleteReplies id)) (.error thrown) .calm
  | removes {id answer} : Leads (.clearing id) (.db (.deleteMessage id)) answer .calm

/-- An operation does not end with a reply that it has still to store, or a message that it
has still to delete. -/
def threadProtocol : Protocol chatSignature Phase where
  possible _ _ := True
  leads := Phase.Leads
  final
    | .calm => True
    | .pinning _ _ => True
    | _ => False

section Obligations

theorem Call.nonempty_result (request : Call) : Nonempty (Call.Result request) := by
  cases request with
  | db statement =>
    cases statement <;> constructor <;> first
      | exact ()
      | exact true
      | exact none
      | exact []
      | exact (0 : Nat)
  | now | newChannelId | newMessageId | newSectionId => exact ⟨""⟩
  | holdsModerate userId | eventExists eventId => exact ⟨true⟩
  | teamMemberUserIds teamIds => exact ⟨[]⟩
  | signWsTicket channelId userId => exact ⟨⟨"", "", ""⟩⟩
  | _ => exact ⟨()⟩

noncomputable def anyResult (request : Call) : chatSignature.Answer request :=
  .ok (Classical.choice (Call.nonempty_result request))

variable {operation : Operation} {program : Prog chatSignature Unit} {phase : Phase} {id : String}

theorem repliesTo_of_needs (follows : threadProtocol.Follows phase program)
    (needs : phase.Needs id) : repliesTo id (operation, program) := by
  apply Protocol.Follows.mayReach_of_answer follows needs _ anyResult fun _ => trivial
  · intro phase request after needs leads
    have isOk : ∃ result, anyResult request = .ok result := ⟨_, rfl⟩
    change Phase.Leads phase request (anyResult request) after at leads
    generalize anyResult request = answer at leads isOk
    obtain ⟨result, rfl⟩ := isOk
    cases leads with
    | quiet isQuiet =>
      right
      refine ⟨?_, needs⟩
      rintro rfl
      exact isQuiet
    | looks | checks | finds | draws | pins | drops | clears | removes => exact needs.elim
    | drawsReply =>
      right
      refine ⟨by rintro ⟨⟩, ?_⟩
      exact congrArg some needs
    | stores isRow => exact .inl ⟨_, rfl, isRow.2.2.symm.trans needs⟩
  · intro phase needs isFinal
    cases phase <;> first | exact needs | exact isFinal

/-- The phase of an operation that has deleted the replies to this message. -/
def Phase.Clears (messageId : String) : Phase → Prop
  | .clearing cleared => cleared = messageId
  | _ => False

theorem erases_of_clears (follows : threadProtocol.Follows phase program)
    (clears : phase.Clears id) : erases id (operation, program) := by
  apply Protocol.Follows.mayReach_of_answer follows clears _ anyResult fun _ => trivial
  · intro phase request after clears leads
    have isOk : ∃ result, anyResult request = .ok result := ⟨_, rfl⟩
    change Phase.Leads phase request (anyResult request) after at leads
    generalize anyResult request = answer at leads isOk
    obtain ⟨result, rfl⟩ := isOk
    cases leads with
    | quiet isQuiet =>
      right
      refine ⟨?_, clears⟩
      rintro rfl
      exact isQuiet
    | looks | checks | finds | draws | drawsReply | stores | pins | drops | clears =>
      exact clears.elim
    | removes =>
      obtain rfl : _ = id := clears
      exact .inl rfl
  · intro phase clears isFinal
    cases phase <;> first | exact clears | exact isFinal

end Obligations

section Programs

open TaskService (JsonField)

/-- The calls after which an operation is still calm. -/
def Call.IsOrdinary (request : Call) : Prop :=
  request.IsQuiet ∨ request.IsRead

theorem Call.IsRead.isOrdinary (request : Call) (isRead : request.IsRead) : request.IsOrdinary :=
  .inr isRead

abbrev ThreadFollows {α : Type} (phase : Phase) (action : ChatM α) : Prop :=
  Follows threadProtocol phase action fun _ => threadProtocol.final

variable {α β : Type}

theorem leads_of_isOrdinary (isOrdinary : request.IsOrdinary)
    (answer : Except ChatError (Call.Result request)) :
    threadProtocol.leads .calm request answer .calm := by
  rcases isOrdinary with isQuiet | isRead
  · exact .quiet isQuiet
  · cases request with
    | db statement =>
      cases statement with
      | selectMessage id => exact .looks
      | _ => first | exact isRead.elim | exact .quiet trivial
    | newChannelId | newMessageId | newSectionId => exact isRead.elim
    | _ => exact .quiet trivial

section

variable {action : ChatM α} (issues : Issues Call.IsOrdinary action)
include issues

theorem stays_calm : Follows threadProtocol .calm action fun _ after => after = .calm :=
  follows_of_keeps issues fun _ answer isOrdinary => leads_of_isOrdinary isOrdinary answer

theorem threadFollows_of_issues : ThreadFollows .calm action := by
  apply (stays_calm issues).mono
  rintro outcome after rfl
  trivial

theorem threadFollows_bind {continuation : α → ChatM β}
    (rest : ∀ value, ThreadFollows .calm (continuation value)) :
    ThreadFollows .calm (action >>= continuation) := by
  apply follows_bind
  apply (stays_calm issues).mono
  rintro (thrown | value) after rfl
  · trivial
  · exact rest value

end

theorem threadFollows_quiet {phase : Phase}
    {continuation : Call.Result request → ChatM α} (isQuiet : request.IsQuiet)
    (rest : ∀ result, ThreadFollows phase (continuation result)) :
    ThreadFollows phase (ask request >>= continuation) := by
  apply follows_port_bind
  · exact fun result _ => ⟨phase, .quiet isQuiet, rest result⟩
  · exact fun thrown _ => ⟨.calm, .fails isQuiet, trivial⟩

theorem threadFollows_look {id : String} {continuation : Option MessageRow → ChatM α}
    (rest : ∀ found, ThreadFollows .calm (continuation found)) :
    ThreadFollows .calm (query (.selectMessage id) >>= continuation) := by
  apply follows_port_bind
  · exact fun result _ => ⟨.calm, .looks, rest result⟩
  · exact fun thrown _ => ⟨.calm, .looks, trivial⟩

theorem checkThreadRoot_follows {channelId : String} {threadRootId : Option String} :
    Follows threadProtocol .calm (checkThreadRoot channelId threadRootId) fun
      | .ok _, after => ∀ id, after.Leads .newMessageId (.ok id)
          (.storing id channelId threadRootId)
      | .error _, after => threadProtocol.final after := by
  unfold checkThreadRoot
  split
  · exact follows_pure fun _ => .draws
  · apply follows_port_bind
    · rintro (_ | root) -
      · exact ⟨.calm, .looks, follows_throw trivial⟩
      · by_cases inChannel : root.channelId = channelId
        · refine ⟨_, .checks, ?_⟩
          rw [if_pos (by simpa using inChannel), inChannel]
          exact follows_pure fun _ => .drawsReply
        · refine ⟨.calm, .looks, ?_⟩
          rw [if_neg (by simpa using inChannel)]
          exact follows_throw trivial
    · exact fun thrown _ => ⟨.calm, .looks, trivial⟩

variable (userId : String)

theorem postMessage_follows (body : PostMessageRequest) :
    ThreadFollows .calm (postMessage userId body) := by
  apply threadFollows_bind issues_requireBody
  intro text
  apply threadFollows_bind (issues_loadReadable Call.IsRead.isOrdinary)
  rintro ⟨channel, membership⟩
  apply threadFollows_bind (issues_ensureCanWrite Call.IsRead.isOrdinary
    (fun _ _ => .inl trivial) fun _ _ => .inl trivial)
  intro _
  split
  · exact follows_throw trivial
  apply follows_bind
  apply checkThreadRoot_follows.mono
  rintro (thrown | ⟨⟩) after draws
  · exact draws
  refine threadFollows_quiet trivial fun now => ?_
  apply follows_port_bind
  · intro id _
    refine ⟨_, draws id, ?_⟩
    apply follows_port_bind
    · intro _ _
      refine ⟨.calm, .stores ⟨rfl, rfl, rfl⟩, ?_⟩
      exact threadFollows_bind (issues_announceMessage Call.IsRead.isOrdinary)
        fun _ => follows_pure trivial
    · exact fun thrown _ => ⟨.calm, .stores ⟨rfl, rfl, rfl⟩, trivial⟩
  · exact fun thrown _ => ⟨.calm, .undrawn, trivial⟩

theorem editMessage_follows (id : String) (version : Option Int) (body : JsonField String) :
    ThreadFollows .calm (editMessage userId id version body) := by
  apply threadFollows_bind issues_requireVersion
  intro version
  apply threadFollows_look
  intro found
  split
  · exact follows_throw trivial
  split
  · exact follows_throw trivial
  refine threadFollows_quiet trivial fun channel => ?_
  split
  · exact follows_throw trivial
  split
  · exact follows_throw trivial
  apply threadFollows_bind issues_requireBody
  intro text
  refine threadFollows_quiet trivial fun now => ?_
  refine threadFollows_quiet trivial fun updated => ?_
  split
  · exact follows_throw trivial
  apply threadFollows_bind (issues_reactionsFor Call.IsRead.isOrdinary)
  intro reactions
  exact threadFollows_quiet trivial fun _ => follows_pure trivial

/-- A message that is deleted in whichever way, and then ordinary calls. -/
theorem eraseMessage_stays (mode : MessageDeletionMode) (message : MessageRow) (now : String) :
    Follows threadProtocol .calm (eraseMessage mode message now) fun
      | .ok _, after => after = .calm
      | .error _, after => threadProtocol.final after := by
  cases mode with
  | hard =>
    apply follows_bind
    apply follows_port_bind
    · intro _ _
      refine ⟨.calm, .quiet trivial, ?_⟩
      apply follows_port_bind
      · intro _ _
        refine ⟨.calm, .quiet trivial, ?_⟩
        apply follows_port_bind
        · intro _ _
          refine ⟨.clearing message.id, .clears, ?_⟩
          apply follows_port
          rintro (thrown | ⟨⟩) -
          · exact ⟨.calm, .removes, trivial⟩
          · exact ⟨.calm, .removes, follows_pure rfl⟩
        · exact fun thrown _ => ⟨.calm, .uncleared, trivial⟩
      · exact fun thrown _ => ⟨.calm, .quiet trivial, trivial⟩
    · exact fun thrown _ => ⟨.calm, .quiet trivial, trivial⟩
  | tombstone =>
    apply follows_port_bind
    · intro updated _
      refine ⟨.calm, .quiet trivial, ?_⟩
      split
      · exact follows_pure rfl
      · exact follows_throw trivial
    · exact fun thrown _ => ⟨.calm, .quiet trivial, trivial⟩

theorem deleteMessage_follows (id : String) : ThreadFollows .calm (deleteMessage userId id) := by
  apply threadFollows_look
  rintro (_ | message)
  · exact follows_throw trivial
  apply threadFollows_quiet
  · exact trivial
  rintro (_ | channel)
  · exact follows_throw trivial
  apply threadFollows_bind (issues_isChannelAdmin Call.IsRead.isOrdinary)
  intro isModerator
  split
  · exact follows_throw trivial
  split
  · exact follows_pure trivial
  apply threadFollows_bind (issues_resolvePolicy Call.IsRead.isOrdinary)
  intro policy
  refine threadFollows_quiet trivial fun now => ?_
  apply follows_bind
  apply (eraseMessage_stays _ message now).mono
  rintro (thrown | outcome) after ended
  · exact ended
  obtain rfl : after = .calm := ended
  refine threadFollows_quiet trivial fun _ => ?_
  refine threadFollows_quiet trivial fun _ => ?_
  exact threadFollows_quiet trivial fun _ => follows_pure trivial

theorem toggleReaction_follows (id : String) (emoji : JsonField String) :
    ThreadFollows .calm (toggleReaction userId id emoji) := by
  apply threadFollows_bind issues_nonEmptyString
  intro emoji
  apply threadFollows_look
  intro found
  split
  · exact follows_throw trivial
  apply threadFollows_bind (issues_loadReadable Call.IsRead.isOrdinary)
  rintro ⟨channel, membership⟩
  apply threadFollows_bind (issues_ensureCanWrite Call.IsRead.isOrdinary
    (fun _ _ => .inl trivial) fun _ _ => .inl trivial)
  intro _
  have tells : ∀ has, ThreadFollows .calm (do
      let rows ← Repo.reactionsFor [id]
      let reactions := Repo.reactionsOf rows id
      let now : String ← ask .now
      ask (.publishToChannel channel.id
        (.reactionUpdated channel.id id emoji userId (!has) reactions now))
      pure (⟨id, reactions⟩ : ReactionToggleResponse)) := by
    intro has
    apply threadFollows_bind (issues_reactionsFor Call.IsRead.isOrdinary)
    intro rows
    refine threadFollows_quiet trivial fun now => ?_
    exact threadFollows_quiet trivial fun _ => follows_pure trivial
  refine threadFollows_quiet trivial fun has => ?_
  simp only []
  split
  · exact threadFollows_quiet trivial fun _ => tells has
  · refine threadFollows_quiet trivial fun now => ?_
    exact threadFollows_quiet trivial fun _ => tells has

theorem togglePin_follows (id : String) (messageId : JsonField String) :
    ThreadFollows .calm (togglePin userId id messageId) := by
  apply threadFollows_bind issues_nonEmptyString
  intro messageId
  apply threadFollows_bind (issues_loadReadable Call.IsRead.isOrdinary)
  rintro ⟨channel, membership⟩
  apply threadFollows_bind (issues_ensureCanWrite Call.IsRead.isOrdinary
    (fun _ _ => .inl trivial) fun _ _ => .inl trivial)
  intro _
  split
  · exact follows_throw trivial
  have lists : ∀ pinned : Bool, ThreadFollows .calm (do
      ask (.audit ⟨if pinned then "chat.message.unpin" else "chat.message.pin", some userId,
        "message", messageId, .channel channel.id⟩)
      pinnedList channel.id) := by
    intro pinned
    exact threadFollows_quiet trivial fun _ => threadFollows_of_issues (issues_pinnedList Call.IsRead.isOrdinary)
  apply follows_port_bind
  · rintro (_ | message) -
    · exact ⟨.calm, .looks, follows_throw trivial⟩
    · by_cases isHere : message.deletedAt = none ∧ message.channelId = channel.id
      · refine ⟨_, .finds, ?_⟩
        rw [if_pos (by simpa using isHere), isHere.2]
        refine threadFollows_quiet trivial fun pinned => ?_
        split
        · apply follows_port_bind
          · exact fun _ _ => ⟨.calm, .drops trivial, lists pinned⟩
          · exact fun thrown _ => ⟨.calm, .drops trivial, trivial⟩
        · refine threadFollows_quiet trivial fun now => ?_
          apply follows_port_bind
          · exact fun _ _ => ⟨.calm, .pins ⟨rfl, rfl⟩, lists pinned⟩
          · exact fun thrown _ => ⟨.calm, .pins ⟨rfl, rfl⟩, trivial⟩
      · refine ⟨.calm, .looks, ?_⟩
        rw [if_neg (by simpa using isHere)]
        exact follows_throw trivial
  · exact fun thrown _ => ⟨.calm, .looks, trivial⟩

theorem deleteChannel_follows (id : String) : ThreadFollows .calm (deleteChannel userId id) := by
  apply threadFollows_bind (issues_loadReadable Call.IsRead.isOrdinary)
  rintro ⟨channel, membership⟩
  simp only []
  split
  · exact follows_throw trivial
  refine threadFollows_quiet trivial fun _ => ?_
  exact threadFollows_of_issues (Keeps.port (.inl trivial))

theorem action_follows (toLowerCase : String → String) {operation : Operation}
    (onMessages : operation.onMessages = true) :
    ThreadFollows .calm (actionOf toLowerCase operation) := by
  have replies : ∀ {α : Type} (wrap : α → Reply) {action : ChatM α},
      ThreadFollows .calm action → ThreadFollows .calm (reply wrap action) := by
    intro α wrap action follows
    apply follows_bind
    apply follows.mono
    rintro (thrown | value) after isFinal
    · exact isFinal
    · exact follows_pure isFinal
  cases operation with
  | postMessage userId body => exact replies _ (postMessage_follows userId body)
  | editMessage userId id version body =>
    exact replies _ (editMessage_follows userId id version body)
  | deleteMessage userId id => exact replies _ (deleteMessage_follows userId id)
  | toggleReaction userId id emoji => exact replies _ (toggleReaction_follows userId id emoji)
  | togglePin userId id messageId => exact replies _ (togglePin_follows userId id messageId)
  | deleteChannel userId id => exact replies _ (deleteChannel_follows userId id)
  | _ => cases onMessages

theorem threads_governed (ids : Ids) (toLowerCase : String → String) :
    threadProtocol.Governs (chatSystem ids toLowerCase Operation.onMessages) fun _ => .calm where
  program operation _ startable := by
    have follows := action_follows toLowerCase startable
    unfold ThreadFollows Follows at follows
    apply Protocol.followsTo_bind
    exact follows
  possible _ := trivial

end Programs

section Runs

variable {world moved : World} {phases : List Phase}
  {others : List (Operation × Prog chatSignature Unit)}

theorem Threaded.draw {phase : Phase} {channelId : String} {rootId : Option String}
    (threaded : Threaded ids world (phase :: phases))
    (hasRoot : ∀ root, rootId = some root → world.store.HasRoot root channelId) :
    Threaded ids { world with drawn := world.drawn + 1 }
      (.storing (ids.message world.drawn) channelId rootId :: phases) := by
  have later : ∀ id, (∀ n, world.drawn ≤ n → ids.message n ≠ id) →
      ∀ n, world.drawn + 1 ≤ n → ids.message n ≠ id :=
    fun id isDrawn n isLater => isDrawn n (by omega)
  have rest := threaded.tail
  apply Threaded.enter
  · refine ⟨⟨rest.proper.channels, fun message member =>
      later message.id (rest.proper.fresh message member)⟩, rest.roots, rest.reactions,
      rest.pins, ?_, rest.apart⟩
    intro other member
    have holds := rest.holds other member
    cases other with
    | calm => trivial
    | checked rootId channelId | clearing messageId => exact holds
    | storing id channelId rootId => exact ⟨holds.1, later id holds.2.1, holds.2.2⟩
    | pinning channelId messageId => exact ⟨holds.1, later messageId holds.2⟩
  · refine ⟨?_, ?_, hasRoot⟩
    · exact fun message member isDrawn =>
        rest.proper.fresh message member world.drawn le_rfl isDrawn.symm
    · intro n isLater same
      have isDrawn := ids.message_injective same
      change world.drawn + 1 ≤ n at isLater
      omega
  · intro other member
    have holds := rest.holds other member
    cases other with
    | calm | checked rootId channelId | clearing messageId => trivial
    | storing id channelId rootId => exact holds.2.1 world.drawn le_rfl
    | pinning channelId messageId => exact holds.2 world.drawn le_rfl

theorem Threaded.moves {phase : Phase} {answer : Except ChatError (Call.Result request)}
    (threaded : Threaded ids world (phase :: phases)) (isQuiet : request.IsQuiet)
    (answers : (chatMachine ids).Answers request world answer moved) :
    Threaded ids moved (phase :: phases) := by
  obtain ⟨shrinks, sameDrawn⟩ := shrinks_of_isQuiet isQuiet answers
  exact threaded.shrink shrinks sameDrawn

theorem deleteMessages_gone {store : Store} {selected : MessageRow → Bool} {result : Unit}
    (deleted : (store.deleteMessages selected).1.mapError ChatError.failed = .ok result) :
    ∀ message ∈ (store.deleteMessages selected).2.messages, selected message = false := by
  unfold Store.deleteMessages at deleted ⊢
  split
  · rename_i isReferred
    rw [if_pos isReferred] at deleted
    cases deleted
  · exact fun message member => (mem_deleteWhere.mp member).2

theorem Threaded.deleteReplies {messageId : String} (threaded : Threaded ids world phases)
    (tracks : threadProtocol.Tracks others phases)
    (permitted : keepsRoots.mayCall (.db (.deleteReplies messageId)) world others) :
    Threaded ids
      { world with store := (world.store.exec (.deleteReplies messageId)).2 } phases := by
  apply threaded.deleteMessages
  · intro message member isSelected reply replyMem isReply
    obtain ⟨root, rootMem, sameId, -, onTop⟩ := threaded.roots reply replyMem _ isReply
    rw [eq_of_key_eq rootMem member sameId, of_decide_eq_true isSelected] at onTop
    cases onTop
  · intro message member isSelected phase phaseMem needs
    obtain ⟨thread, threadMem, follows⟩ := tracks.exists_of_mem phaseMem
    exact permitted message member (of_decide_eq_true isSelected) thread threadMem
      (repliesTo_of_needs follows needs)

theorem Threaded.call {phase after : Phase} {request : Call}
    {answer : Except ChatError (Call.Result request)}
    (tracks : threadProtocol.Tracks others phases)
    (permitted : keepsRoots.mayCall request world others)
    (answers : (chatMachine ids).Answers request world answer moved)
    (leads : phase.Leads request answer after) (threaded : Threaded ids world (phase :: phases)) :
    Threaded ids moved (after :: phases) := by
  cases leads with
  | quiet isQuiet => exact threaded.moves isQuiet answers
  | fails isQuiet | drops isQuiet => exact (threaded.moves isQuiet answers).tail.calm
  | looks =>
    obtain ⟨-, rfl⟩ := answers_db answers
    exact threaded
  | @checks id root =>
    obtain ⟨isAnswer, rfl⟩ := answers_db answers
    have found : world.store.messages.find? id = some root := (Except.ok.inj isAnswer).symm
    obtain ⟨member, isRoot⟩ := find?_eq_some.mp found
    apply threaded.tail.enter
    · exact .inl ⟨root, member, isRoot, rfl⟩
    · intro other _
      cases other <;> trivial
  | @finds id message =>
    obtain ⟨isAnswer, rfl⟩ := answers_db answers
    have found : world.store.messages.find? id = some message :=
      (Except.ok.inj isAnswer).symm
    obtain ⟨member, rfl⟩ := find?_eq_some.mp found
    apply threaded.tail.enter
    · refine ⟨?_, threaded.proper.fresh message member⟩
      intro other otherMem sameId
      rw [eq_of_key_eq otherMem member sameId]
    · intro other otherMem
      have holds := threaded.tail.holds other otherMem
      cases other with
      | storing id channelId rootId => exact (holds.1 message member).symm
      | _ => trivial
  | draws =>
    obtain ⟨isAnswer, rfl⟩ := Prod.mk.inj answers
    cases isAnswer
    exact threaded.draw nofun
  | @drawsReply id rootId channelId =>
    obtain ⟨isAnswer, rfl⟩ := Prod.mk.inj answers
    cases isAnswer
    apply threaded.draw
    rintro root ⟨⟩
    exact threaded.holds _ (.head _)
  | undrawn =>
    obtain ⟨isAnswer, -⟩ := Prod.mk.inj answers
    cases isAnswer
  | @stores _ _ _ row _ isRow =>
    obtain ⟨rfl, rfl, rfl⟩ := isRow
    obtain ⟨-, rfl⟩ := answers_db answers
    apply Threaded.calm
    apply threaded.insertMessage
    · exact fun rootId isRoot => (permitted rootId isRoot).1
    · intro rootId isRoot member
      obtain ⟨thread, threadMem, follows⟩ := tracks.exists_of_mem member
      exact (permitted rootId isRoot).2 thread threadMem (erases_of_clears follows rfl)
  | @pins _ _ row _ isRow =>
    obtain ⟨rfl, rfl⟩ := isRow
    obtain ⟨-, rfl⟩ := answers_db answers
    exact threaded.insertPin.calm
  | @clears id result =>
    obtain ⟨isAnswer, rfl⟩ := answers_db answers
    apply (threaded.tail.deleteReplies tracks permitted).enter
    · exact fun message member =>
        of_decide_eq_false (deleteMessages_gone isAnswer.symm message member)
    · intro other _
      cases other <;> trivial
  | uncleared =>
    obtain ⟨-, rfl⟩ := answers_db answers
    exact (threaded.tail.deleteReplies tracks permitted).calm
  | @removes id _ =>
    obtain ⟨-, rfl⟩ := answers_db answers
    apply Threaded.calm
    apply threaded.tail.deleteMessages
    · intro message member isMessage reply replyMem isReply
      obtain rfl : message.id = id := of_decide_eq_true isMessage
      exact absurd isReply (threaded.holds _ (.head _) reply replyMem)
    · intro message member isMessage other otherMem needs
      obtain rfl : message.id = id := of_decide_eq_true isMessage
      obtain ⟨thread, threadMem, follows⟩ := tracks.exists_of_mem otherMem
      exact permitted thread threadMem (repliesTo_of_needs follows needs)

theorem threads_preserved (ids : Ids) (toLowerCase : String → String) :
    threadProtocol.Preserves (chatSystem ids toLowerCase Operation.onMessages) keepsRoots
      (fun _ => .calm) (Threaded ids) where
  perm perm threaded := threaded.perm perm
  start _ _ _ threaded := threaded.calm
  call tracks permitted answers leads threaded := threaded.call tracks permitted answers leads
  environment same threaded := same ▸ threaded
  stop _ _ threaded := threaded.tail

/-- Where replies go under top-level messages that stay, every message can be reached. -/
theorem everyMessageReachable_ofKeepsRoots (ids : Ids) (toLowerCase : String → String) :
    EveryMessageReachable keepsRoots ids toLowerCase := by
  intro world config proper reachable reached
  have initial : Threaded ids world [] :=
    ⟨proper, reachable.roots, reachable.reactions, reachable.pins, nofun, .nil⟩
  obtain ⟨phases, -, threaded⟩ :=
    (threads_preserved ids toLowerCase).reached (threads_governed ids toLowerCase) reached initial
  exact threaded.eachReachable

end Runs

def posting (threadRootId : Option String) (calls : Nat) :
    List (Move chatSignature World Operation) :=
  .start (.postMessage "ada" ⟨"general", .value "hello", threadRootId, []⟩) ::
    List.replicate calls (.call 0 succeeding)

/-- A reply to a reply is in no listing that starts from the main timeline. -/
theorem not_everyMessageReachable : ¬EveryMessageReachable anyStep countedIds id := by
  intro claimed
  obtain ⟨config, reached, nested⟩ :=
    (chatReferee countedIds id Operation.onMessages).exists_reachable_of_play
      (posting none 9 ++ posting (some "0") 9 ++ posting (some "1") 9) quietChat
      (fun world => world.store.messages.rows.any fun message =>
        message.threadRootId = some "1" && world.store.messages.rows.all fun root =>
          root.id ≠ "1" || root.threadRootId.isSome)
      (by simp [posting]) (by decide +kernel)
  have noMessage : ∀ message, message ∉ quietChat.store.messages := notMem_empty
  have proper : quietChat.Proper countedIds :=
    ⟨fun message member => absurd member (noMessage message),
      fun message member => absurd member (noMessage message)⟩
  have reachable : quietChat.store.EachReachable :=
    ⟨fun message member => absurd member (noMessage message),
      fun message member => absurd member (noMessage message),
      fun reaction member => absurd member (notMem_empty reaction),
      fun pin member => absurd member (notMem_empty pin)⟩
  have holds := claimed quietChat config proper reachable (reachableUnder_anyStep reached)
  obtain ⟨message, member, found⟩ := any_eq_true.mp nested
  rw [Bool.and_eq_true, decide_eq_true_iff, all_eq_true] at found
  obtain ⟨root, rootMem, isRoot, -, onTop⟩ := holds.roots message member "1" found.1
  have isNested := found.2 root rootMem
  simp [isRoot, onTop] at isNested

end DubEcosystem.Chat
